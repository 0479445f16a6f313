import LuaExpander.Proofs.Lookahead
import LuaExpander.Proofs.Output
import LuaExpander.Proofs.Tables

/-! Operators are matched by the longest name. A search reads ahead no further than the longest name
that was ever defined can reach. No name lies beyond that, so that the search comes out as if it had
seen all operators that stand side by side, and the bound makes no difference. -/
namespace LuaExpander

/- The operators that stand directly in front. -/
def Tokens.operators (ts : List Token) : List Token := ts.takeWhile fun t => t.kind = .op

theorem Tokens.textFilled {ts : List Token} (some : ts ≠ []) (filled : ∀ t ∈ ts, t.value ≠ "") :
    0 < (text ts).length := by
  cases ts with
  | nil => contradiction
  | cons t ts =>
    have here : t.value.length ≠ 0 := by simpa using filled t List.mem_cons_self
    simp only [textCons, String.length_append]
    omega

namespace Registry

variable {r : Registry} {t : Token} {c : Cursor} {run more : List Token}

/- The first `n` tokens of a run are a name with a definition, and none of them comes out of it. In a
sound registry the names with a definition are the keys of the table. -/
structure Admits (r : Registry) (run : List Token) (n : Nat) (d : Definition) : Prop where
  filled : 0 < n
  within : n ≤ run.length
  active : r.operator? (Tokens.text (run.take n)) = some d
  unmarked : ∀ u ∈ run.take n, u.mark ≠ some (Tokens.text (run.take n))

def Bounded (r : Registry) (limit : Nat) : Prop := ∀ name ∈ r.ops, name.length ≤ limit

theorem soundBounded (sound : r.Sound) : r.Bounded r.longest := by
  intro name member
  obtain ⟨s, found⟩ := Option.isSome_iff_exists.mp
    (Std.ExtTreeMap.isSome_getElem?_iff_mem.mpr member)
  exact (sound.ops name s found).2.2.2

theorem beyondBound {limit : Nat} (bounded : r.Bounded limit) {name : String}
    (long : limit < name.length) : r.operator? name = none := by
  have absent : name ∉ r.ops := fun member => absurd (bounded name member) (by omega)
  simp [operator?, Std.ExtTreeMap.getElem?_eq_none absent]

theorem longestNameFound {held n m later : Nat} {name : String} {d : Definition}
    (found : longestName r run held n = (some (m, name, d), later)) (inside : n ≤ run.length) :
    name = Tokens.text (run.take m) ∧ r.Admits run m d ∧ m ≤ n ∧
      ∀ k e, k ≤ n → r.Admits run k e → k ≤ m := by
  induction n generalizing held with
  | zero => cases found
  | succ n ih =>
    -- Of a shorter beginning, the whole one is not admitted.
    have shorter {held : Nat} (found : longestName r run held n = (some (m, name, d), later))
        (refused : ∀ e, ¬ r.Admits run (n + 1) e) :
        name = Tokens.text (run.take m) ∧ r.Admits run m d ∧ m ≤ n + 1 ∧
          ∀ k e, k ≤ n + 1 → r.Admits run k e → k ≤ m := by
      obtain ⟨named, admitted, within, longest⟩ := ih found (by omega)
      refine ⟨named, admitted, by omega, fun k e bound other => ?_⟩
      rcases Nat.lt_or_eq_of_le bound with less | rfl
      · exact longest k e (by omega) other
      · exact absurd other (refused e)
    rw [longestName] at found
    split at found
    · rename_i inactive
      refine shorter found fun e admitted => ?_
      have active := admitted.active
      simp [operator?, inactive] at active
    · rename_i active
      split at found
      · rename_i marked
        refine shorter found fun e admitted => ?_
        obtain ⟨u, member, same⟩ := List.any_eq_true.mp marked
        exact admitted.unmarked u member (by simpa using same)
      · rename_i unmarked
        cases found
        refine ⟨rfl, ⟨by omega, inside, active, fun u member same => unmarked ?_⟩, Nat.le_refl _,
          fun k e bound _ => bound⟩
        exact List.any_eq_true.mpr ⟨u, member, by simpa using same⟩

theorem longestNameAbsent {held n later : Nat} (absent : longestName r run held n = (none, later)) :
    ∀ k e, k ≤ n → ¬ r.Admits run k e := by
  induction n generalizing held with
  | zero =>
    intro k e bound admitted
    have := admitted.filled
    omega
  | succ n ih =>
    intro k e bound admitted
    rw [longestName] at absent
    rcases Nat.lt_or_eq_of_le bound with less | rfl
    · split at absent
      · exact ih absent k e (by omega) admitted
      · split at absent
        · exact ih absent k e (by omega) admitted
        · cases absent
    · have active : (r.ops[Tokens.text (run.take (n + 1))]?.bind (·.top?)) = some e :=
        admitted.active
      have unmarked : (run.take (n + 1)).any
          (·.mark == some (Tokens.text (run.take (n + 1)))) = false := by
        simpa using admitted.unmarked
      simp [active, unmarked] at absent

theorem longestNameBound (r : Registry) (longest : Nat) (run : List Token) (held n : Nat) :
    longestName { r with longest } run held n = longestName r run held n := by
  induction n generalizing held with
  | zero => rfl
  | succ n ih => simp only [longestName, ih]

theorem longestNameFront (held : Nat) {n : Nat} (inside : n ≤ run.length) :
    longestName r (run ++ more) held n = longestName r run held n := by
  induction n generalizing held with
  | zero => rfl
  | succ n ih =>
    simp only [longestName, List.take_append_of_le_length inside, ih _ (by omega)]

theorem longestNameSkips (held n extra : Nat)
    (absent : ∀ k, n < k → r.operator? (Tokens.text (run.take k)) = none) :
    longestName r run held (n + extra) = longestName r run held n := by
  induction extra with
  | zero => rfl
  | succ extra ih =>
    have none := absent (n + extra + 1) (by omega)
    rw [operator?] at none
    rw [← Nat.add_assoc, longestName]
    simp only [none, ih]

/- Operators that are not read lie where the texts before them have reached the bound. -/
theorem operatorRunStops (limit length : Nat) (ts : List Token) :
    ∃ more, Tokens.operators ts = operatorRun limit length ts ++ more ∧
      (more ≠ [] → limit ≤ length + (Tokens.text (operatorRun limit length ts)).length) := by
  induction ts generalizing length with
  | nil => exact ⟨[], rfl, by simp⟩
  | cons u ts ih =>
    by_cases isOp : u.kind = .op
    · by_cases short : length < limit
      · obtain ⟨more, whole, stops⟩ := ih (length + u.value.length)
        refine ⟨more, ?_, fun left => ?_⟩
        · simp only [Tokens.operators] at whole
          simp [Tokens.operators, operatorRun, isOp, short, whole]
        · have := stops left
          simp only [operatorRun, isOp, short, and_self, if_true, Tokens.textCons,
            String.length_append]
          omega
      · refine ⟨Tokens.operators (u :: ts), by simp [operatorRun, short], fun _ => ?_⟩
        omega
    · exact ⟨[], by simp [Tokens.operators, operatorRun, isOp], by simp⟩

/- What a search comes to that sees all operators at once. -/
def named (r : Registry) (t : Token) (ops : List Token) : Option (Nat × String × Definition) × Nat :=
  longestName r (t :: ops) 0 (ops.length + 1)

theorem namedBounded (bounded : r.Bounded r.longest) {ops : List Token}
    (filled : ∀ u ∈ more, u.value ≠ "") (whole : ops = run ++ more)
    (stops : more ≠ [] → r.longest ≤ (Tokens.text (t :: run)).length) :
    longestName r (t :: run) 0 (run.length + 1) = r.named t ops := by
  by_cases all : more = []
  · simp [named, whole, all]
  have absent (k : Nat) (past : run.length + 1 < k) :
      r.operator? (Tokens.text ((t :: ops).take k)) = none := by
    obtain ⟨extra, rfl⟩ := Nat.exists_eq_add_of_lt past
    have split : (t :: ops).take (run.length + 1 + extra + 1) =
        (t :: run) ++ more.take (extra + 1) := by
      have size : run.length + 1 + extra + 1 = (t :: run).length + (extra + 1) := by
        simp only [List.length_cons, Nat.add_assoc]
      rw [whole, size, ← List.cons_append, List.take_length_add_append]
    have further : 0 < (Tokens.text (more.take (extra + 1))).length :=
      Tokens.textFilled (by simpa using all)
        fun u member => filled u (List.mem_of_mem_take member)
    have reached := stops all
    refine beyondBound bounded ?_
    rw [split, Tokens.textAppend, String.length_append]
    omega
  have count : ops.length + 1 = run.length + 1 + more.length := by
    rw [whole, List.length_append]
    omega
  rw [named, count, longestNameSkips _ _ _ absent, whole, ← List.cons_append,
    longestNameFront _ (by simp)]

def Named.search (t : Token) (named : Option (Nat × String × Definition) × Nat) : Search :=
  ⟨named.1.map fun found => ⟨found.2.2,
    if found.1 > 1 then { t with value := found.2.1, serial := none } else t⟩, named.2⟩

def Named.spent (named : Option (Nat × String × Definition) × Nat) : Nat :=
  (named.1.map (·.1 - 1)).getD 0

theorem lookedSucceeds (short : Bool) (goesOn : c.failure = none ∨ c.ahead.drop run.length ≠ []) :
    ∃ seen rest, looked run short c = (.ok seen, rest) ∧
      rest.ahead = c.ahead.drop run.length ∧ rest.failure = c.failure := by
  rw [← Cursor.aheadDrop, ← Cursor.failureDrop run.length c] at *
  cases short with
  | false => exact ⟨none, c.drop run.length, rfl, rfl, rfl⟩
  | true =>
    have answered : ∃ seen rest, (c.drop run.length).peek = (.ok seen, rest) := by
      cases left : (c.drop run.length).ahead with
      | cons u rest => exact ⟨_, _, Cursor.peekToken left⟩
      | nil => exact ⟨_, _, Cursor.peekNone left (goesOn.resolve_right (by simp [left]))⟩
    obtain ⟨seen, rest, peeked⟩ := answered
    exact ⟨seen, rest, peeked, Cursor.peekAhead peeked⟩

theorem chosenAmong (whole : c.ahead = run ++ more) {rest : Cursor} (ahead : rest.ahead = more)
    (failure : rest.failure = c.failure) {found : Option (Nat × String × Definition) × Nat}
    (isFound : longestName r (t :: run) 0 (run.length + 1) = found) (seen : Option Token) :
    ∃ c', chosen r t run (.ok seen) rest = (.ok (Named.search t found), c') ∧
      c'.ahead = c.ahead.drop (Named.spent found) ∧ c'.failure = c.failure := by
  rcases found with ⟨_ | ⟨n, name, d⟩, held⟩
  · refine ⟨rest.prepend run, ?_, ?_, failure⟩
    · simp [chosen, Named.search, isFound]
    · simp [ahead, whole, Named.spent]
  · obtain ⟨-, -, within, -⟩ := longestNameFound isFound (by simp)
    have inside : n - 1 ≤ run.length := by omega
    refine ⟨rest.prepend (run.drop (n - 1)), ?_, ?_, failure⟩
    · simp [chosen, Named.search, isFound]
    · simp [ahead, whole, Named.spent, List.drop_append_of_le_length inside]

theorem findNamed (bounded : r.Bounded r.longest) (isOp : t.kind = .op)
    (filled : ∀ u ∈ Tokens.operators c.ahead, u.value ≠ "")
    (ends : c.failure = none ∨ ∃ u ∈ c.ahead, u.kind ≠ .op) :
    let found := r.named t (Tokens.operators c.ahead)
    ∃ c', r.find t c = (.ok (Named.search t found), c') ∧
      c'.ahead = c.ahead.drop (Named.spent found) ∧ c'.failure = c.failure := by
  intro found
  by_cases empty : r.ops.isEmpty = true
  · have unnamed : found = (none, 0) := by
      have none : r.ops = ∅ := Std.ExtTreeMap.isEmpty_iff.mp empty
      exact longestNameNone (List.cons_ne_nil _ _) (by simp [operator?, none]) 0 _
    rw [unnamed]
    exact ⟨c, by simp [find, isOp, empty, Named.search], rfl, rfl⟩
  · obtain ⟨more, whole, stops⟩ := operatorRunStops r.longest t.value.length c.ahead
    obtain ⟨isFront, kinds⟩ := operatorRunFront r.longest t.value.length c.ahead
    have runs := matchOperatorRuns r t c
    dsimp only at runs
    generalize operatorRun r.longest t.value.length c.ahead = run at whole stops isFront kinds runs
    have reached : (Tokens.text (t :: run)).length = t.value.length + (Tokens.text run).length := by
      rw [Tokens.textCons, String.length_append]
    have isWhole : c.ahead = run ++ c.ahead.drop run.length :=
      (List.prefix_iff_eq_append.mp isFront).symm
    have later : ∀ u ∈ more, u.value ≠ "" := fun u member =>
      filled u (whole ▸ List.mem_append_right run member)
    -- A source that fails at its end is not read so far: something other than operators is left.
    have goesOn : c.failure = none ∨ c.ahead.drop run.length ≠ [] := by
      rcases ends with whole | ⟨u, member, noOp⟩
      · exact .inl whole
      · refine .inr fun left => noOp (kinds u ?_)
        rwa [isWhole, left, List.append_nil] at member
    obtain ⟨seen, rest, looks, ahead, failure⟩ := lookedSucceeds _ goesOn
    have same : longestName r (t :: run) 0 (run.length + 1) = found :=
      namedBounded bounded later whole fun left => by rw [reached]; exact stops left
    obtain ⟨c', answer, left, still⟩ := chosenAmong isWhole ahead failure same seen
    refine ⟨c', ?_, left, still⟩
    simp only [find, isOp, empty, if_neg, Bool.false_eq_true, not_false_eq_true]
    rw [runs, looks]
    exact answer

theorem textShorter {k n : Nat} (filled : ∀ u ∈ run, u.value ≠ "") (positive : 0 < k)
    (less : k < n) (within : n ≤ (t :: run).length) :
    (Tokens.text ((t :: run).take k)).length < (Tokens.text ((t :: run).take n)).length := by
  obtain ⟨k, rfl⟩ := Nat.exists_eq_add_of_lt positive
  rw [Nat.zero_add] at less ⊢
  obtain ⟨extra, rfl⟩ := Nat.exists_eq_add_of_lt less
  have between : (t :: run).take (k + 1 + extra + 1) =
      (t :: run).take (k + 1) ++ (run.drop k).take (extra + 1) := by
    rw [Nat.add_assoc (k + 1), List.take_add]
    rfl
  have further : 0 < (Tokens.text ((run.drop k).take (extra + 1))).length := by
    refine Tokens.textFilled ?_ fun u member =>
      filled u (List.mem_of_mem_drop (List.mem_of_mem_take member))
    rw [List.length_cons] at within
    simp
    omega
  rw [between, Tokens.textAppend, String.length_append]
  omega

theorem findLongest {r : Registry} (bounded : ∀ name ∈ r.ops, name.length ≤ r.longest) {t : Token}
    (isOp : t.kind = .op) {c : Cursor} (filled : ∀ u ∈ Tokens.operators c.ahead, u.value ≠ "")
    (ends : c.failure = none ∨ ∃ u ∈ c.ahead, u.kind ≠ .op) :
    let run := t :: Tokens.operators c.ahead
    ∃ search c', r.find t c = (.ok search, c') ∧ c'.failure = c.failure ∧
      ((∃ n m, search.found = some m ∧ r.Admits run n m.definition ∧
          (∀ k d, r.Admits run k d → k ≠ n →
            (Tokens.text (run.take k)).length < (Tokens.text (run.take n)).length) ∧
          m.nameToken.fresh = Token.fresh { t with value := Tokens.text (run.take n) } ∧
          c'.ahead = c.ahead.drop (n - 1)) ∨
        search.found = none ∧ (∀ n d, ¬ r.Admits run n d) ∧ c'.ahead = c.ahead) ∧
      ∀ longest, (∀ name ∈ r.ops, name.length ≤ longest) →
        ∃ c'', find t { r with longest } c = (.ok search, c'') ∧
          c''.ahead = c'.ahead ∧ c''.failure = c'.failure := by
  intro run
  obtain ⟨c', found, ahead, failure⟩ := findNamed bounded isOp filled ends
  refine ⟨_, c', found, failure, ?_, fun longest other => ?_⟩
  · rcases isNamed : r.named t (Tokens.operators c.ahead) with ⟨_ | ⟨n, name, d⟩, held⟩
    · rw [isNamed] at ahead
      refine .inr ⟨rfl, fun n d admitted => ?_, ahead⟩
      exact longestNameAbsent isNamed n d admitted.within admitted
    · obtain ⟨rfl, admitted, -, longest⟩ := longestNameFound isNamed (by simp)
      rw [isNamed] at ahead
      refine .inl ⟨n, _, rfl, admitted, fun k e other differs => ?_, ?_, ahead⟩
      · have atMost := longest k e other.within other
        exact textShorter filled other.filled (by omega) admitted.within
      · have positive := admitted.filled
        dsimp only
        split
        · rfl
        · obtain rfl : n = 1 := by omega
          simp [Token.fresh, Tokens.text, run]
  · obtain ⟨c'', again, ahead', failure'⟩ :=
      findNamed (r := { r with longest }) other isOp filled ends
    have same : named { r with longest } t (Tokens.operators c.ahead) =
        r.named t (Tokens.operators c.ahead) := longestNameBound r longest _ _ _
    rw [same] at again ahead'
    exact ⟨c'', again, ahead'.trans ahead.symm, failure'.trans failure.symm⟩

-- The longest name is held back by a mark, and the bound is that of a name which is gone.
theorem findLongestBelowMark :
    let text (name : String) : Definition := ⟨name, none, .text [], 0, none⟩
    let op (value : String) (mark : Option String) : Token := ⟨.op, value, some 1, mark, none⟩
    let stale := (({} : Registry).push (text "=======")).undefine "======="
    let r := ((stale.push (text "=")).push (text "=+")).push (text "=+-")
    let rest : List Token := [op "-" (some "=+-"), .endOfInput (some 1)]
    let c := Cursor.ofTokens (op "+" none :: rest)
    r.longest = 7 ∧ ∃ search c', r.find (op "=" none) c = (.ok search, c') ∧
      search.found.map (·.nameToken) = some (op "=+" none) ∧ c'.ahead = rest ∧
      ∃ c'', find (op "=" none) { r with longest := 3 } c = (.ok search, c'') ∧
        c''.ahead = rest := by
  intro text op stale r rest c
  have sound : r.Sound := by
    refine pushSound (pushSound (pushSound (undefineSound (pushSound emptySound ?_) _) ?_) ?_) ?_ <;>
      · intro isName
        exact absurd isName (by decide)
  have short : ∀ name ∈ r.ops, name.length ≤ 3 := by
    have keys : ∀ name ∈ r.ops.keys, name.length ≤ 3 := by decide +kernel
    exact fun name member => keys name (Std.ExtTreeMap.mem_keys.mpr member)
  have value : (r.find (op "=" none) c).1.toOption.bind (·.found.map (·.nameToken)) =
      some (op "=+" none) := by decide +kernel
  have left : (r.find (op "=" none) c).2.ahead = rest := by decide +kernel
  obtain ⟨search, c', found, -, -, alike⟩ := findLongest (soundBounded sound)
    (t := op "=" none) rfl (c := c) (by decide) (.inl rfl)
  obtain ⟨c'', again, same, -⟩ := alike 3 short
  rw [found] at value left
  exact ⟨by decide +kernel, search, c', found, value, left, c'', again, same.trans left⟩

end Registry

end LuaExpander
