import LuaExpander.Proofs.Scanning
import LuaExpander.Proofs.Waiting
import Mathlib.Data.List.Infix

/-! Blocks of a token list, and of the output of a unit. The level of a list is the number of its
keywords that open a block less the number of those that close one. Through every unit the block
depth is the level of what has gone out, no beginning of which has a level below zero; a unit that
succeeds gives out a balanced list with the end of the input as its last token and leaves nothing
open or waiting. -/
namespace LuaExpander

namespace Tokens

def level (ts : List Token) : Int :=
  (ts.countP Token.opensBlock : Int) - (ts.countP Token.closesBlock : Int)

def NeverBelow (ts : List Token) : Prop := ∀ front, front <+: ts → 0 ≤ level front

def Balanced (ts : List Token) : Prop := NeverBelow ts ∧ level ts = 0

instance (ts : List Token) : Decidable (NeverBelow ts) :=
  decidable_of_iff (∀ front ∈ ts.inits, 0 ≤ level front) (by simp only [List.mem_inits]; rfl)

instance (ts : List Token) : Decidable (Balanced ts) := inferInstanceAs (Decidable (_ ∧ _))

theorem levelAppend (front rest : List Token) :
    level (front ++ rest) = level front + level rest := by
  simp only [level, List.countP_append]
  omega

theorem opensNotCloses {t : Token} (opener : t.opensBlock = true) : t.closesBlock = false := by
  simp only [Token.opensBlock, blockOpeners, Bool.and_eq_true, beq_iff_eq, decide_eq_true_eq,
    List.mem_cons, List.not_mem_nil, or_false] at opener
  obtain ⟨-, word | word | word | word⟩ := opener <;>
    simp [Token.closesBlock, blockClosers, word]

theorem closesNotOpens {t : Token} (closer : t.closesBlock = true) : t.opensBlock = false := by
  cases opener : t.opensBlock with
  | true => rw [opensNotCloses opener] at closer; contradiction
  | false => rfl

theorem balancedAlike {ts us : List Token} (same : ts.map Token.fresh = us.map Token.fresh)
    (balanced : Balanced us) : Balanced ts := by
  have still (ts : List Token) : level (ts.map Token.fresh) = level ts := by
    simp only [level, List.countP_map]
    rfl
  refine ⟨fun front isFront => ?_, ?_⟩
  · rw [List.prefix_iff_eq_take.mp isFront, ← still, List.map_take, same, ← List.map_take, still]
    exact balanced.1 _ (List.take_prefix _ _)
  · rw [← still, same, still]
    exact balanced.2

theorem opensKeyword {t : Token} (opener : t.opensBlock = true) : t.kind = .keyword := by
  simp only [Token.opensBlock, Bool.and_eq_true, beq_iff_eq] at opener
  exact opener.1

theorem closesKeyword {t : Token} (closer : t.closesBlock = true) : t.kind = .keyword := by
  simp only [Token.closesBlock, Bool.and_eq_true, beq_iff_eq] at closer
  exact closer.1

theorem levelOpener {t : Token} (opener : t.opensBlock = true) : level [t] = 1 := by
  simp [level, opener, opensNotCloses opener]

theorem levelCloser {t : Token} (closer : t.closesBlock = true) : level [t] = -1 := by
  cases opener : t.opensBlock with
  | true => simp [opensNotCloses opener] at closer
  | false => simp [level, opener, closer]

theorem levelInert {t : Token} (inert : t.opensBlock = false ∧ t.closesBlock = false) :
    level [t] = 0 := by
  simp [level, inert.1, inert.2]

theorem inertOfKind {t : Token} (kind : t.kind ≠ .keyword) :
    t.opensBlock = false ∧ t.closesBlock = false := by
  simp [Token.opensBlock, Token.closesBlock, kind]

theorem neverBelowNil : NeverBelow [] := by
  intro front isFront
  rw [List.prefix_nil.mp isFront]
  simp [level]

theorem neverBelowSnoc {ts : List Token} {t : Token} (below : NeverBelow ts)
    (last : 0 ≤ level (ts ++ [t])) : NeverBelow (ts ++ [t]) := by
  intro front isFront
  rcases List.prefix_concat_iff.mp isFront with rfl | shorter
  · exact last
  · exact below front shorter

end Tokens

namespace Scan
open Tokens

theorem depthInvariant (depth : Nat) : Session.Invariant fun _ s => s.blocks.depth = depth where
  also before := before
  change changed before := by
    cases changed with
    | quiet same => rw [same.blocks, before]
    | define made registry blocks => rw [blocks, before]
    | scope made registry blocks =>
      obtain ⟨place, -, same, -⟩ := Blocks.deferSucceeds blocks
      rw [same, before]
    | undefine name registry blocks => rw [blocks, before]
    | defer registry blocks =>
      obtain ⟨place, -, same, -⟩ := Blocks.deferSucceeds blocks
      rw [same, before]
    | onKeyword registry blocks => rw [blocks]; exact before
  restored before := by rw [Session.restoreBlocks, before]
  fired before := before
  finished finished before := by
    obtain ⟨outside, still, -⟩ := Blocks.finishSucceeds finished
    rw [← before, outside]
    exact still

structure Leveled (s : Scan) : Prop where
  unit : s.nested = false
  depth : (s.session.blocks.depth : Int) = level s.out.toList
  below : NeverBelow s.out.toList
  endless : ∀ t ∈ s.out.toList, t.kind ≠ .eof

theorem leveledSame {s s' : Scan} (before : Leveled s) (out : s'.out = s.out)
    (nested : s'.nested = s.nested)
    (depth : s'.session.blocks.depth = s.session.blocks.depth) : Leveled s' := by
  refine ⟨nested.trans before.unit, ?_, ?_, ?_⟩
  · rw [depth, out]
    exact before.depth
  · rw [out]
    exact before.below
  · rw [out]
    exact before.endless

theorem leveledPush {s s' : Scan} {t : Token} (before : Leveled s) (out : s'.out = s.out.push t)
    (unit : s'.nested = s.nested) (kind : t.kind ≠ .eof)
    (depth : (s'.session.blocks.depth : Int) = s.session.blocks.depth + level [t]) :
    Leveled s' := by
  have pushed : s'.out.toList = s.out.toList ++ [t] := by rw [out, Array.toList_push]
  have levels : (s'.session.blocks.depth : Int) = level s'.out.toList := by
    rw [pushed, levelAppend, depth, before.depth]
  refine ⟨unit.trans before.unit, levels, ?_, ?_⟩
  · rw [pushed] at levels ⊢
    exact neverBelowSnoc before.below (by omega)
  · intro u member
    rw [pushed, List.mem_append, List.mem_singleton] at member
    rcases member with old | rfl
    · exact before.endless u old
    · exact kind

theorem fireDepth {handlers t reads s s'}
    (ran : (fire handlers t reads).run.run s = (.ok (), s')) :
    s'.session.blocks.depth = s.session.blocks.depth ∧ Framed s s' :=
  @fireKeeps _ (depthInvariant _) [] _ _ _ _ _ ran rfl

theorem fireKeywordDepth {word t s s'}
    (ran : (fireKeyword word t).run.run s = (.ok (), s')) :
    s'.session.blocks.depth = s.session.blocks.depth ∧ Framed s s' :=
  @fireKeywordKeeps _ (depthInvariant _) [] _ _ _ _ ran rfl

theorem keywordLevels {t s s'} (ran : (keyword t).run.run s = (.ok (), s'))
    (kind : t.kind = .keyword) (before : Leveled s) : Leveled s' := by
  have notEnd : t.kind ≠ .eof := by simp [kind]
  cases keywordSucceeds ran before.unit with
  | opens opener fired =>
    obtain ⟨depth, framed⟩ := fireKeywordDepth fired
    refine leveledPush before framed.out framed.nested notEnd ?_
    rw [depth, Session.enterBlockBlocks, levelOpener opener]
    rfl
  | closes closer left waited fired =>
    obtain ⟨inner, -⟩ := Session.leaveBlockSucceeds left
    obtain ⟨outer, -⟩ := Blocks.leaveSucceeds inner
    obtain ⟨depth, framed⟩ := fireDepth waited
    obtain ⟨last, framedLast⟩ := fireKeywordDepth fired
    have both := framed.trans framedLast
    refine leveledPush before both.out both.nested notEnd ?_
    rw [last, depth, levelCloser closer]
    dsimp only
    omega
  | other inert fired =>
    obtain ⟨depth, framed⟩ := fireKeywordDepth fired
    refine leveledPush before framed.out framed.nested notEnd ?_
    rw [depth, levelInert inert]
    simp

theorem stepLevels {steps s s'}
    (ran : (step (argument (run steps))).run.run s = (.ok false, s')) (before : Leveled s) :
    Leveled s' := by
  cases stepSucceeds ran with
  | ends next kind ran =>
    cases finishing : s.finishing with
    | true =>
      obtain ⟨impossible, -⟩ := atEndAgain ran finishing
      contradiction
    | false =>
      obtain ⟨depth, -, out, nested⟩ := atEndFirst (depthInvariant _) ran finishing rfl
      exact leveledSame before out nested depth
  | keyword next kind ran =>
    exact keywordLevels ran kind (leveledSame before rfl rfl rfl)
  | plain next solid ran =>
    obtain ⟨depth, out | out, nested, -⟩ :=
      plainKeeps (depthInvariant _) (argumentKeeps (depthInvariant _) steps) ran rfl
    · exact leveledSame before out nested depth
    · refine leveledPush before out nested solid.1 ?_
      rw [depth, levelInert (inertOfKind solid.2)]
      simp

theorem visitsLevels {steps s s'} (visits : Visits steps s s') (before : Leveled s) :
    Leveled s' := by
  induction visits with
  | here => exact before
  | next stepped later ih => exact ih (stepLevels stepped before)

theorem startLevels {source unitName s start}
    (began : begin.run.run (Session.unitStart source unitName s) = (.ok (), start)) :
    Leveled start := by
  obtain ⟨depth, framed⟩ := beginKeeps (depthInvariant 0) began (by
    rw [Session.unitStart, Session.beginUnitBlocks]
    rfl)
  have empty : start.out.toList = [] := by rw [framed.out]; rfl
  refine ⟨framed.nested, ?_, ?_, ?_⟩
  · rw [depth, empty]
    rfl
  · rw [empty]
    exact neverBelowNil
  · simp [empty]

end Scan

open Tokens in
theorem Session.unitBlocksBalance (steps : Nat) (source : Source) (unitName : Option String)
    (s : Session) :
    (∀ scan, s.UnitVisits steps source unitName scan →
      (scan.session.blocks.depth : Int) = level scan.out.toList ∧
        ∀ front, front <+: scan.out.toList → 0 ≤ level front) ∧
    ∀ ts s', s.expandUnit steps source unitName = (.ok ts, s') →
      Balanced ts ∧
      (∃ front last, ts = front ++ [last] ∧ last.kind = .eof ∧ ∀ t ∈ front, t.kind ≠ .eof) ∧
      s'.blocks.depth = 0 ∧ ∀ depth, s'.blocks.waiting depth = [] := by
  constructor
  · rintro scan ⟨start, began, visits⟩
    have leveled := Scan.visitsLevels visits (Scan.startLevels began)
    exact ⟨leveled.depth, leveled.below⟩
  · intro ts s' ran
    obtain ⟨final, whole, quiet⟩ := expandUnitSucceeds ran
    obtain ⟨start, began, ran⟩ := Scan.unitSucceeds whole
    obtain ⟨left, last, visits, ended, rfl⟩ := Scan.runVisits ran
    have leveled := Scan.visitsLevels visits (Scan.startLevels began)
    obtain ⟨t, kind, out, session, checked⟩ := Scan.lastStep ended leveled.unit
    obtain ⟨depth, waiting⟩ := (Blocks.checkFinishedOk _ _).mp checked
    have outside : level last.out.toList = 0 := by
      rw [← leveled.depth, depth]
      rfl
    have inert : level [t] = 0 := levelInert (inertOfKind (by simp [kind]))
    have total : level (last.out.toList ++ [t]) = 0 := by rw [levelAppend, outside, inert]; rfl
    rw [out, Array.toList_push, quiet.blocks, session]
    exact ⟨⟨neverBelowSnoc leveled.below (by omega), total⟩,
      ⟨last.out.toList, t, rfl, kind, leveled.endless⟩, depth, waiting⟩

-- The block is opened by a replacement and closed by the source.
theorem Session.unitBlocksBalanceOfReplacement :
    let s := ((Session.define "OPEN do" none).run.run {}).2
    let after := s.expandUnit 9 (.text "OPEN end") none
    let ts : List Token := [⟨.keyword, "do", some 1, some "OPEN", none⟩,
      ⟨.space, " ", some 1, none, none⟩, ⟨.keyword, "end", some 1, none, none⟩, .endOfInput (some 1)]
    after.1 = .ok ts ∧ Tokens.Balanced ts ∧ after.2.blocks.depth = 0 := by
  intro s after ts
  have returned : after.1 = .ok ts := by decide +kernel
  have balance := (unitBlocksBalance 9 (.text "OPEN end") none s).2 ts after.2
    (Prod.ext returned rfl)
  exact ⟨returned, balance.1, balance.2.2.1⟩

end LuaExpander
