import LuaExpander.Proofs.Lexing
import LuaExpander.Proofs.Passing
import LuaExpander.Proofs.Unfolding

/-! A text that mentions no definition comes out as it is, whatever is defined. Operators are looked
for in runs, as far as the longest of them could reach; what has been read ahead of a run that is
none is put back. -/
namespace LuaExpander

namespace Registry

def operator? (name : String) (r : Registry) : Option Definition := r.ops[name]?.bind (·.top?)

/- No identifier is a name with a definition, nor are any operators that stand side by side. -/
structure Untouched (r : Registry) (ts : List Token) : Prop where
  idens : ∀ t ∈ ts, t.kind = .iden → r.active? t.value = none
  ops : ∀ run, run <:+: ts → run ≠ [] → (∀ t ∈ run, t.kind = .op) →
    r.operator? (Tokens.text run) = none

theorem untouchedIff (r : Registry) (ts : List Token) :
    r.Untouched ts ↔ (∀ t ∈ ts, t.kind = .iden → r.active? t.value = none) ∧
      ∀ after ∈ ts.tails, ∀ run ∈ after.inits, run ≠ [] → (∀ t ∈ run, t.kind = .op) →
        r.operator? (Tokens.text run) = none := by
  simp only [List.mem_tails, List.mem_inits]
  constructor
  · rintro ⟨idens, ops⟩
    refine ⟨idens, fun after isAfter run isFront => ops run ?_⟩
    exact isFront.isInfix.trans isAfter.isInfix
  · rintro ⟨idens, ops⟩
    refine ⟨idens, fun run isRun => ?_⟩
    obtain ⟨after, isFront, isAfter⟩ := List.infix_iff_prefix_suffix.mp isRun
    exact ops after isAfter run isFront

instance (r : Registry) (ts : List Token) : Decidable (r.Untouched ts) :=
  decidable_of_iff _ (untouchedIff r ts).symm

theorem untouchedTail {r : Registry} {t : Token} {ts : List Token}
    (untouched : r.Untouched (t :: ts)) : r.Untouched ts where
  idens u member := untouched.idens u (List.mem_cons_of_mem t member)
  ops run isRun := untouched.ops run (isRun.trans (List.suffix_cons t ts).isInfix)

theorem operatorRunFront (limit length : Nat) (ts : List Token) :
    operatorRun limit length ts <+: ts ∧ ∀ t ∈ operatorRun limit length ts, t.kind = .op := by
  induction ts generalizing length with
  | nil => simp [operatorRun]
  | cons t ts ih =>
    rw [operatorRun]
    split
    · rename_i taken
      obtain ⟨isFront, kinds⟩ := ih (length + t.value.length)
      exact ⟨List.cons_prefix_cons.mpr ⟨rfl, isFront⟩, List.forall_mem_cons.mpr ⟨taken.2, kinds⟩⟩
    · simp

theorem longestNameNone {r : Registry} {run : List Token} (filled : run ≠ [])
    (absent : ∀ front, front <+: run → front ≠ [] → r.operator? (Tokens.text front) = none)
    (held n : Nat) : longestName r run held n = (none, held) := by
  induction n with
  | zero => rfl
  | succ n ih =>
    have none := absent (run.take (n + 1)) (List.take_prefix _ _) (by simpa using filled)
    rw [operator?] at none
    rw [longestName]
    simp only [none]
    exact ih

theorem matchOperatorPasses {r : Registry} {t : Token} {c : Cursor} (kind : t.kind = .op)
    (failure : c.failure = none)
    (absent : ∀ run, run <+: t :: c.ahead → run ≠ [] → (∀ u ∈ run, u.kind = .op) →
      r.operator? (Tokens.text run) = none) :
    ∃ c', r.matchOperator t c = (.ok ⟨none, 0⟩, c') ∧ c'.ahead = c.ahead ∧ c'.failure = none := by
  obtain ⟨isFront, kinds⟩ := operatorRunFront r.longest t.value.length c.ahead
  generalize isRun : operatorRun r.longest t.value.length c.ahead = run at isFront kinds
  have unnamed : longestName r (t :: run) 0 (run.length + 1) = (none, 0) := by
    refine longestNameNone (List.cons_ne_nil t run) (fun front within filled => ?_) 0 _
    refine absent front (within.trans (List.cons_prefix_cons.mpr ⟨rfl, isFront⟩)) filled ?_
    intro u member
    rcases List.mem_cons.mp (within.subset member) with rfl | later
    · exact kind
    · exact kinds u later
  have complete := (Cursor.failureDrop run.length c).trans failure
  have seen (short : Bool) : ∃ first rest, looked run short c = (.ok first, rest) ∧
      rest.ahead = c.ahead.drop run.length ∧ rest.failure = none := by
    rw [← Cursor.aheadDrop]
    cases short with
    | false => exact ⟨none, c.drop run.length, rfl, rfl, complete⟩
    | true => exact Cursor.peekSucceeds complete
  obtain ⟨first, rest, found, ahead, still⟩ :=
    seen (decide ((Tokens.text (t :: run)).length < r.longest))
  refine ⟨rest.prepend run, ?_, ?_, still⟩
  · rw [matchOperatorRuns, isRun, found, chosen, unnamed]
  · rw [Cursor.aheadPrepend, ahead]
    exact List.prefix_iff_eq_append.mp isFront

theorem unnamedPasses {r : Registry} {t : Token} {ahead : List Token} (still : r.invoked? t = none)
    (unnamed : t.kind = .op → ∀ run, run <+: t :: ahead → run ≠ [] → (∀ u ∈ run, u.kind = .op) →
      r.operator? (Tokens.text run) = none) : r.Passes t ahead := by
  rintro c rfl failure
  unfold find
  split
  · rename_i isOp
    split
    · exact ⟨0, c, rfl, rfl, failure⟩
    · obtain ⟨c', found, same, kept⟩ := matchOperatorPasses isOp failure (unnamed isOp)
      exact ⟨0, c', found, same, kept⟩
  · rename_i isIden
    suffices found : ∃ held, r.matchIden t = ⟨none, held⟩ by
      obtain ⟨held, found⟩ := found
      exact ⟨held, c, by rw [found], rfl, failure⟩
    unfold matchIden
    split
    · exact ⟨0, rfl⟩
    · rename_i d active
      split
      · exact ⟨1, rfl⟩
      · rename_i unmarked
        rw [invoked?, if_pos ⟨isIden, unmarked⟩, active?, active] at still
        contradiction
  · exact ⟨0, c, rfl, rfl, failure⟩

theorem untouchedPasses {r : Registry} {t last : Token} {ts : List Token}
    (untouched : r.Untouched (t :: ts)) (kind : last.kind = .eof) :
    r.Passes t (ts ++ [last]) := by
  have still : r.invoked? t = none := by
    rw [invoked?]
    split
    · rename_i isIden
      exact untouched.idens t List.mem_cons_self isIden.1
    · rfl
  refine unnamedPasses still fun _ run isFront filled kinds => ?_
  rw [← List.cons_append] at isFront
  -- The end of the input is no operator, so that the run lies before it.
  rcases List.prefix_concat_iff.mp isFront with rfl | within
  · have := kinds last (by simp)
    simp [kind] at this
  · exact untouched.ops run within.isInfix filled kinds

end Registry

theorem Scan.untouchedScans {r : Registry} {ts : List Token} {last : Token}
    (untouched : r.Untouched ts) (endless : ∀ t ∈ ts, t.kind ≠ .eof) (kind : last.kind = .eof)
    {out : List Token} {s : Scan} (ready : Ready r (ts ++ [last]) out s) :
    Scanned r [last] out ts s := by
  induction ts generalizing out s with
  | nil => exact scannedNone ready
  | cons t ts ih =>
    obtain ⟨notEnd, endlessLater⟩ := List.forall_mem_cons.mp endless
    have here := passScans ready (Registry.untouchedPasses untouched kind) notEnd
    exact scannedThen here fun s' after => ih (Registry.untouchedTail untouched) endlessLater after

namespace Session
open Tokens

theorem unitPassesText {s : Session} (quiet : ∀ word, s.blocks.handlersFor word = [])
    {source : String} (finished : (Lexer.lex source).failure = none)
    (untouched : s.registry.Untouched (Lexer.lex source).tokens) (unitName : Option String) :
    let l := Lexer.lex source
    ∃ enough, ∀ steps, enough ≤ steps →
      let after := s.expandUnit steps (.text source) unitName
      (Balanced l.tokens → after.1 = .ok l.stream ∧ text l.stream = source) ∧
      (¬ Balanced l.tokens → ∃ e : Error, ∃ t, after.1 = .error (.failed e) ∧
        e.kind = .unbalancedBlock ∧ e.line = t.line ∧
        (Unopened l.tokens t ∨ Unclosed l.tokens ∧ l.stream = l.tokens ++ [t])) ∧
      after.2.registry = s.registry := by
  intro l
  have endless (t : Token) (member : t ∈ l.tokens) : t.kind ≠ .eof :=
    (Lexer.lexesFilled (Lexer.lexes 1 source.toList) t member).2
  have stream : l.stream = l.tokens ++ [.endOfInput (some l.lastLine)] := Lexer.streamEnds finished
  obtain ⟨enough, ends⟩ := unitEnds quiet (.text source) finished
    (.inr ⟨.endOfInput (some l.lastLine), rfl, rfl⟩)
    (fun start ready => Scan.untouchedScans untouched endless rfl (by
      rw [← stream]
      exact ready)) (admitsText source unitName s)
  refine ⟨enough, fun steps many => ?_⟩
  obtain ⟨outcome, registry⟩ := ends steps many
  refine ⟨fun balanced => ⟨?_, Lexer.streamText finished⟩, fun unbalanced => ?_, registry⟩
  · rw [stream]
    exact outcome.ofBalanced balanced
  · obtain ⟨e, t, answer, cause, line, culprit⟩ := outcome.ofUnbalanced unbalanced
    refine ⟨e, t, answer, cause, line, ?_⟩
    rcases culprit with unopened | ⟨unclosed, rfl⟩
    · exact .inl unopened
    · exact .inr ⟨unclosed, stream⟩

-- Both texts have only parts of the operator, the second one also a block that is not open.
theorem unitPassesTextOfParts :
    let d : Definition := ⟨"=..=", none, .text [⟨.number, "1", none, none, none⟩], 0, none⟩
    let s : Session := { registry := ({} : Registry).push d }
    let balanced := "do x=-y..z end"
    let unopened := "x=..y\nend do"
    s.registry.longest = 4 ∧
    (s.registry.Untouched (Lexer.lex balanced).tokens ∧ ∃ enough, ∀ steps, enough ≤ steps →
      (s.expandUnit steps (.text balanced) none).1 = .ok (Lexer.lex balanced).stream) ∧
    (s.registry.Untouched (Lexer.lex unopened).tokens ∧ ∃ enough, ∀ steps, enough ≤ steps →
      ∃ e : Error, (s.expandUnit steps (.text unopened) none).1 = .error (.failed e) ∧
        e.line = some 2) := by
  intro d s balanced unopened
  have quiet (word : String) : s.blocks.handlersFor word = [] := by simp [s, Blocks.handlersFor]
  have first : s.registry.Untouched (Lexer.lex balanced).tokens := by decide +kernel
  have second : s.registry.Untouched (Lexer.lex unopened).tokens := by decide +kernel
  refine ⟨by decide +kernel, ⟨first, ?_⟩, second, ?_⟩
  · obtain ⟨enough, runs⟩ := unitPassesText quiet (by decide +kernel) first none
    exact ⟨enough, fun steps many => ((runs steps many).1 (by decide +kernel)).1⟩
  · have place : ∀ t ∈ (Lexer.lex unopened).tokens, t.closesBlock = true → t.line = some 2 := by
      decide +kernel
    have fallen : ¬ NeverBelow (Lexer.lex unopened).tokens := by decide +kernel
    obtain ⟨enough, runs⟩ := unitPassesText quiet (by decide +kernel) second none
    refine ⟨enough, fun steps many => ?_⟩
    obtain ⟨e, t, answer, -, line, ⟨before, after, split, -, -, closer⟩ | ⟨unclosed, -⟩⟩ :=
      (runs steps many).2.1 fun balance => fallen balance.1
    · exact ⟨e, answer, line.trans (place t (by rw [split]; simp) closer)⟩
    · exact absurd unclosed.1 fallen

end Session

end LuaExpander
