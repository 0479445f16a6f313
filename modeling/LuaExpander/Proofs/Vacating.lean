import LuaExpander.Proofs.Deferring
import LuaExpander.Proofs.Endings

/-! Where a block ends. The books of the open blocks vacate a depth at the keyword that closes it. A
reader has no books and counts the blocks that it has seen opened. Both come to the same keyword,
at whatever depth the books begin. -/
namespace LuaExpander

namespace Blocks

variable {η : Type} {b : Blocks η} {d : Nat} {t closer : Token} {ts front rest : List Token}

/- Keywords that open or close a block are for the books; all other tokens are not. -/
def operation? (t : Token) : Option (Operation η) :=
  if t.opensBlock then some .enter
  else if t.closesBlock then some (.leave t)
  else none

def follow (b : Blocks η) (ts : List Token) : Blocks η := b.performAll (ts.filterMap operation?)

/- The depth that is vacated at the token. -/
def vacatedAt (b : Blocks η) (t : Token) : Option Nat :=
  (operation? t).bind fun op => (b.event op).vacates

/- Before the input ends, `closer` is the first token at which the depth `d` is vacated. -/
structure EndsAt (b : Blocks η) (d : Nat) (ts front : List Token) (closer : Token)
    (rest : List Token) : Prop where
  split : ts = front ++ closer :: rest
  noEnd : ∀ t ∈ front, t.kind ≠ .eof
  vacated : (b.follow front).vacatedAt closer = some d
  first : ∀ before t after, front = before ++ t :: after → (b.follow before).vacatedAt t ≠ some d

theorem followCons (b : Blocks η) (t : Token) (ts : List Token) :
    b.follow (t :: ts) = (b.follow [t]).follow ts := by
  rw [follow, follow, follow, performAll, performAll, performAll, ← List.foldl_append,
    ← List.filterMap_append]
  rfl

theorem openerFollowed (b : Blocks η) (opener : t.opensBlock = true) :
    (b.follow [t]).depth = b.depth + 1 ∧ b.vacatedAt t = none := by
  have isOperation : (operation? t : Option (Operation η)) = some .enter := if_pos opener
  simp [follow, vacatedAt, isOperation, performAll, perform, enter, event, Event.vacates]

theorem inertFollowed (b : Blocks η) (inert : t.opensBlock = false ∧ t.closesBlock = false) :
    b.follow [t] = b ∧ b.vacatedAt t = none := by
  have isNone : (operation? t : Option (Operation η)) = none := by simp [operation?, inert]
  simp [follow, vacatedAt, isNone, performAll]

theorem closerFollowed (closes : t.closesBlock = true) {depth : Nat}
    (inside : b.depth = depth + 1) :
    (b.follow [t]).depth = depth ∧ b.vacatedAt t = some (depth + 1) := by
  have isOperation : (operation? t : Option (Operation η)) = some (.leave t) := by
    simp [operation?, closes, Tokens.closesNotOpens closes]
  simp [follow, vacatedAt, isOperation, performAll, perform, leave, event, Event.vacates, inside]

theorem endsAtNil : ¬ b.EndsAt d [] front closer rest := fun found => by
  simpa using found.split

theorem endsAtHere (vacated : b.vacatedAt t = some d) :
    b.EndsAt d (t :: ts) front closer rest ↔ front = [] ∧ closer = t ∧ rest = ts := by
  constructor
  · intro found
    cases front with
    | nil =>
      obtain ⟨rfl, rfl⟩ := List.cons_eq_cons.mp found.split
      exact ⟨rfl, rfl, rfl⟩
    | cons u front =>
      obtain ⟨rfl, -⟩ := List.cons_eq_cons.mp found.split
      exact absurd vacated (found.first [] t front rfl)
  · rintro ⟨rfl, rfl, rfl⟩
    exact ⟨rfl, by simp, vacated, by simp⟩

theorem endsAtLater (stays : b.vacatedAt t ≠ some d) :
    b.EndsAt d (t :: ts) front closer rest ↔
      t.kind ≠ .eof ∧ ∃ inner, front = t :: inner ∧
        (b.follow [t]).EndsAt d ts inner closer rest := by
  constructor
  · intro found
    cases front with
    | nil =>
      obtain ⟨rfl, -⟩ := List.cons_eq_cons.mp found.split
      exact absurd found.vacated stays
    | cons u inner =>
      obtain ⟨rfl, split⟩ := List.cons_eq_cons.mp found.split
      obtain ⟨here, later⟩ := List.forall_mem_cons.mp found.noEnd
      refine ⟨here, inner, rfl, split, later, ?_, fun before v after inside => ?_⟩
      · rw [← followCons]
        exact found.vacated
      · rw [← followCons]
        exact found.first (t :: before) v after (by rw [inside]; rfl)
  · rintro ⟨here, inner, rfl, found⟩
    refine ⟨by rw [found.split]; rfl, List.forall_mem_cons.mpr ⟨here, found.noEnd⟩, ?_, ?_⟩
    · rw [followCons]
      exact found.vacated
    · intro before v after inside
      cases before with
      | nil =>
        obtain ⟨rfl, -⟩ := List.cons_eq_cons.mp inside
        exact stays
      | cons u before =>
        obtain ⟨rfl, later⟩ := List.cons_eq_cons.mp inside
        rw [followCons]
        exact found.first before v after later

end Blocks

namespace Reader

open Blocks

variable {η : Type}

/- The level is how much deeper than `d` the books are. A closing keyword vacates `d` at level zero,
and a block inside of it at any other level. -/
theorem scanBlockVacates {b : Blocks η} {d level n : Nat} {ts body : List Token} (inside : 0 < d)
    (deep : b.depth = d + level) :
    scanBlock level ts = some (body, n) ↔
      ∃ closer rest, b.EndsAt d ts body closer rest ∧ n = body.length + 1 := by
  induction ts generalizing b level body n with
  | nil => simp [scanBlock, endsAtNil]
  | cons t ts ih =>
    -- A token that does not vacate `d` is part of the block.
    have further (noEnd : t.kind ≠ .eof) (stays : b.vacatedAt t ≠ some d) {level : Nat}
        (deep : (b.follow [t]).depth = d + level) :
        (scanBlock level ts).map (fun found => (t :: found.1, found.2 + 1)) = some (body, n) ↔
          ∃ closer rest, b.EndsAt d (t :: ts) body closer rest ∧ n = body.length + 1 := by
      simp only [endsAtLater stays, Option.map_eq_some_iff, Prod.exists, ih deep]
      constructor
      · rintro ⟨inner, m, ⟨closer, rest, found, rfl⟩, same⟩
        cases same
        exact ⟨closer, rest, ⟨noEnd, inner, rfl, found⟩, rfl⟩
      · rintro ⟨closer, rest, ⟨-, inner, rfl, found⟩, rfl⟩
        exact ⟨inner, _, ⟨closer, rest, found, rfl⟩, rfl⟩
    unfold scanBlock
    dsimp only
    by_cases isEnd : t.kind = .eof
    · obtain ⟨-, still⟩ := inertFollowed b (@Tokens.inertOfKind t (by simp [isEnd]))
      have stays : b.vacatedAt t ≠ some d := by simp [still]
      simp [isEnd, endsAtLater stays]
    · rw [if_neg isEnd]
      cases opener : t.opensBlock with
      | true =>
        obtain ⟨deeper, still⟩ := openerFollowed b opener
        exact further isEnd (by simp [still]) (by omega)
      | false =>
        rw [if_neg (by simp)]
        cases closes : t.closesBlock with
        | false =>
          obtain ⟨same, still⟩ := inertFollowed b ⟨opener, closes⟩
          exact further isEnd (by simp [still]) (by rw [same, deep])
        | true =>
          rw [if_pos rfl]
          obtain ⟨depth, here⟩ : ∃ depth, b.depth = depth + 1 := ⟨b.depth - 1, by omega⟩
          obtain ⟨outer, vacated⟩ := closerFollowed closes here
          cases level with
          | zero =>
            rw [← here, deep, Nat.add_zero] at vacated
            simp only [endsAtHere vacated]
            constructor
            · intro same
              cases same
              exact ⟨t, ts, ⟨rfl, rfl, rfl⟩, rfl⟩
            · rintro ⟨_, _, ⟨rfl, -, -⟩, rfl⟩
              rfl
          | succ level =>
            have stays : depth + 1 ≠ d := by omega
            exact further isEnd (by simpa [vacated] using stays) (by omega)

theorem runsOutComplete {r : Reader} (complete : r.cursor.failure = none) :
    ∃ body value, RunsOut r body value := by
  cases found : r.cursor.ahead.find? (·.kind = .eof) with
  | none => exact ⟨r.cursor.ahead, "", by simpa using found, .inr ⟨rfl, complete, rfl⟩⟩
  | some last =>
    obtain ⟨isEnd, body, rest, ahead, before⟩ := List.find?_eq_some_iff_append.mp found
    refine ⟨body, last.value, by simpa using before, .inl ⟨last, rest, ahead, ?_, rfl⟩⟩
    simpa using isEnd

theorem blockEndsWhereVacated (b : Blocks η) (inside : 0 < b.depth) (r : Reader)
    (complete : r.cursor.failure = none) :
    (∀ front closer rest, b.EndsAt b.depth r.cursor.ahead front closer rest →
      ∃ r', block.run.run r = (.ok front, r') ∧ r'.cursor.ahead = rest ∧
        r'.taken = r.taken ++ (front ++ [closer]).toArray) ∧
    ((∃ e r', block.run.run r = (.error (.error e), r') ∧ e.kind = .expectedTokenMissing) ↔
      ¬ ∃ front closer rest, b.EndsAt b.depth r.cursor.ahead front closer rest) := by
  have scans (body : List Token) (n : Nat) :=
    @scanBlockVacates _ b _ 0 n r.cursor.ahead body inside rfl
  have succeeds {front closer rest} (ends : b.EndsAt b.depth r.cursor.ahead front closer rest) :
      block.run.run r = (.ok front, r.took (front ++ [closer])) := by
    have split : r.cursor.ahead = (front ++ [closer]) ++ rest := by simp [ends.split]
    have taken : r.cursor.ahead.take (front.length + 1) = front ++ [closer] := by
      rw [split]
      exact List.take_left' (by simp)
    rw [blockRuns, throughRuns, (scans _ _).mpr ⟨closer, rest, ends, rfl⟩]
    dsimp only
    rw [taken]
  refine ⟨fun front closer rest ends => ⟨_, succeeds ends, ?_, rfl⟩, ?_, fun none => ?_⟩
  · simp [took, ends.split]
  · rintro ⟨e, r', failed, -⟩ ⟨front, closer, rest, ends⟩
    cases (succeeds ends).symm.trans failed
  · have missed : scanBlock 0 r.cursor.ahead = .none := by
      refine Option.eq_none_iff_forall_ne_some.mpr fun found scanned => none ?_
      obtain ⟨closer, rest, ends, -⟩ := (scans found.1 found.2).mp scanned
      exact ⟨_, closer, rest, ends⟩
    obtain ⟨body, value, runsOut⟩ := runsOutComplete complete
    obtain ⟨e, r', failed, isCause, -⟩ := throughEnds missed runsOut
    exact ⟨e, r', (blockRuns r).trans failed, by rw [Error.kind, isCause]; rfl⟩

-- Two blocks are opened and closed inside of the one that ends, which is the third.
theorem blockEndsWhereVacatedBehindOthers :
    0 < ({ depth := 3 } : Blocks Nat).depth ∧
      (Cursor.ofText "x do y end if z then w end until v").failure = none ∧
      ∃ body r', block.run.run
          ⟨.ofText "x do y end if z then w end until v", none, #[]⟩ = (.ok body, r') ∧
        Tokens.text body = "x do y end if z then w end " ∧
        Tokens.text r'.taken.toList = "x do y end if z then w end until" ∧
        Tokens.text r'.cursor.ahead = " v" := by
  let ahead := (Cursor.ofText "x do y end if z then w end until v").ahead
  have scanned : scanBlock 0 ahead = some (ahead.take 18, 19) := by decide +kernel
  obtain ⟨closer, rest, ends, -⟩ :=
    (@scanBlockVacates Nat { depth := 3 } 3 0 _ _ _ (by decide) rfl).mp scanned
  have behind : closer :: rest = ahead.drop 18 :=
    List.append_cancel_left (ends.split.symm.trans (List.take_append_drop 18 ahead).symm)
  rw [show ahead.drop 18 = [⟨.keyword, "until", some 1, none, none⟩,
    ⟨.space, " ", some 1, none, none⟩, ⟨.iden, "v", some 1, none, none⟩, .endOfInput (some 1)] by
      decide +kernel] at behind
  obtain ⟨rfl, rfl⟩ := List.cons_eq_cons.mp behind
  obtain ⟨r', ran, left, taken⟩ := (@blockEndsWhereVacated Nat { depth := 3 } (by decide)
    ⟨.ofText "x do y end if z then w end until v", none, #[]⟩ (by decide +kernel)).1
      _ _ _ ends
  refine ⟨by decide, by decide +kernel, _, r', ran, by decide +kernel, ?_, ?_⟩
  · rw [taken]
    decide +kernel
  · rw [left]
    decide +kernel

end Reader

end LuaExpander
