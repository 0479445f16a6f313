import LuaExpander.Registry
import Std.Data.ExtTreeMap.Lemmas

/-! The definitions of a name, the oldest first, after each operation on a registry. Every operation
changes those of one name, and only at their end. -/
namespace LuaExpander

theorem Stack.toListInjective {α : Type} {s s' : Stack α} (same : s.toList = s'.toList) :
    s = s' := by
  cases s
  cases s'
  exact congrArg Stack.mk (List.reverse_inj.mp same)

theorem Stack.toListTruncate {α : Type} (height : Nat) (s : Stack α) :
    (s.truncate height).toList = s.toList.take height := by
  rw [truncate, toList, toList, List.take_reverse]

theorem Stack.putBack {α : Type} {table changed : Std.ExtTreeMap String (Stack α)} {name : String}
    (kept : table[name]? ≠ some Stack.empty)
    (others : ∀ other, name ≠ other → changed[other]? = table[other]?) :
    (if (table[name]?.getD Stack.empty).isEmpty then changed.erase name
      else changed.insert name (table[name]?.getD Stack.empty)) = table := by
  refine Std.ExtTreeMap.ext_getElem? fun {other} => ?_
  by_cases same : name = other
  · subst same
    cases found : table[name]? with
    | none => simp [Stack.empty, Stack.isEmpty]
    | some s =>
      have filled : s.items ≠ [] := fun none => kept (by rw [found, Stack.empty, ← none])
      simp [Stack.isEmpty, filled]
  · rw [← others other same]
    split <;> simp [Std.ExtTreeMap.getElem?_insert, Std.ExtTreeMap.getElem?_erase, same]

def Table.Each (p : String → Stack Definition → Prop) (table : Table) : Prop :=
  ∀ name s, table[name]? = some s → p name s

theorem Table.eachSet {p : String → Stack Definition → Prop} {table : Table}
    (each : Table.Each p table) {name : String} {s : Stack Definition}
    (here : s.isEmpty = false → p name s) :
    Table.Each p (if s.isEmpty then table.erase name else table.insert name s) := by
  intro other s' found
  split at found
  · rw [Std.ExtTreeMap.getElem?_erase] at found
    split at found
    · contradiction
    · exact each other s' found
  · rename_i filled
    rw [Std.ExtTreeMap.getElem?_insert] at found
    split at found
    · rename_i same
      cases found
      rw [← Std.LawfulEqOrd.eq_of_compare same]
      exact here (by simpa using filled)
    · exact each other s' found

namespace Registry

def definitions (name : String) (r : Registry) : List Definition := (r.stack name).toList

theorem definitionsLength (name : String) (r : Registry) :
    (r.definitions name).length = r.height name := List.length_reverse

theorem definitionsAbsent {name : String} {r : Registry} (absent : r.stack? name = none) :
    r.definitions name = [] := by
  rw [definitions, stack, absent]
  rfl

theorem stackSet (name other : String) (s : Stack Definition) (r : Registry) :
    (r.setStack name s).stack? other =
      if other = name then if s.isEmpty then none else some s else r.stack? other := by
  unfold setStack stack?
  by_cases same : other = name
  · subst other
    cases isName : Literal.isName name <;> cases isEmpty : s.isEmpty <;> simp
  · have different : compare name other ≠ .eq := by
      simpa using Ne.symm same
    cases isName : Literal.isName name <;> cases isOther : Literal.isName other <;>
      cases isEmpty : s.isEmpty <;>
      simp [same, different, Std.ExtTreeMap.getElem?_insert, Std.ExtTreeMap.getElem?_erase]

theorem setBack {name : String} {r : Registry} (kept : r.stack? name ≠ some .empty)
    (s : Stack Definition) (longest : Nat) :
    ({ r.setStack name s with longest } : Registry).setStack name (r.stack name) =
      { r with longest } := by
  have others (table : Table) (other : String) (different : name ≠ other) :
      (if s.isEmpty then table.erase name else table.insert name s)[other]? = table[other]? := by
    split <;> simp [Std.ExtTreeMap.getElem?_insert, Std.ExtTreeMap.getElem?_erase, different]
  unfold stack? at kept
  unfold setStack stack stack?
  cases isName : Literal.isName name with
  | true =>
    rw [if_pos isName] at kept
    simp only [if_pos, Stack.putBack kept (others r.idens)]
  | false =>
    rw [if_neg (by simp [isName])] at kept
    simp only [Bool.false_eq_true, if_false, Stack.putBack kept (others r.ops)]

theorem stackPush (d : Definition) (other : String) (r : Registry) :
    (r.push d).stack? other =
      if other = d.name then some ((r.stack d.name).push d) else r.stack? other := by
  have filled : ¬ ((r.stack d.name).push d).isEmpty = true := by simp [Stack.push, Stack.isEmpty]
  have set := stackSet d.name other ((r.stack d.name).push d) r
  rwa [if_neg filled] at set

theorem undefinePushed {d : Definition} {r : Registry} (kept : r.stack? d.name ≠ some .empty) :
    (r.push d).undefine d.name = { r with longest := (r.push d).longest } := by
  rw [undefine, stackPush, if_pos rfl]
  exact setBack kept _ _

theorem definitionsSet (name other : String) (s : Stack Definition) (r : Registry) :
    (r.setStack name s).definitions other =
      if other = name then s.toList else r.definitions other := by
  simp only [definitions, stack, stackSet]
  by_cases same : other = name
  · rw [if_pos same, if_pos same]
    split
    · rename_i isEmpty
      have none : s.items = [] := List.isEmpty_iff.mp isEmpty
      simp [Stack.toList, Stack.empty, none]
    · rfl
  · rw [if_neg same, if_neg same]

theorem definitionsPush (d : Definition) (other : String) (r : Registry) :
    (r.push d).definitions other =
      if other = d.name then r.definitions other ++ [d] else r.definitions other := by
  have set := definitionsSet d.name other ((r.stack d.name).push d) r
  by_cases same : other = d.name
  · rw [if_pos same] at set ⊢
    rw [same]
    rw [same] at set
    exact set.trans List.reverse_cons
  · rw [if_neg same] at set ⊢
    exact set

theorem definitionsUndefine (name other : String) (r : Registry) :
    (r.undefine name).definitions other =
      if other = name then (r.definitions other).dropLast else r.definitions other := by
  unfold undefine
  cases found : r.stack? name with
  | none =>
    by_cases same : other = name
    · rw [if_pos same, same, definitionsAbsent found]
      rfl
    · rw [if_neg same]
  | some s =>
    dsimp only
    rw [definitionsSet]
    by_cases same : other = name
    · rw [if_pos same, if_pos same, same, definitions, stack, found, Stack.toList, Stack.pop]
      exact List.dropLast_reverse.symm
    · rw [if_neg same, if_neg same]

theorem definitionsRestore (name other : String) (height : Nat) (r : Registry) :
    (r.restore name height).definitions other =
      if other = name then (r.definitions other).take height else r.definitions other := by
  unfold restore
  cases found : r.stack? name with
  | none =>
    by_cases same : other = name
    · rw [if_pos same, same, definitionsAbsent found, List.take_nil]
    · rw [if_neg same]
  | some s =>
    dsimp only
    rw [definitionsSet]
    by_cases same : other = name
    · rw [if_pos same, if_pos same, same, definitions, stack, found, Stack.toListTruncate]
      rfl
    · rw [if_neg same, if_neg same]

theorem stackRestore {name other : String} (height : Nat) (r : Registry)
    (different : other ≠ name) : (r.restore name height).stack? other = r.stack? other := by
  unfold restore
  split
  · rw [stackSet, if_neg different]
  · rfl

theorem restoreToNone (name : String) (r : Registry) : (r.restore name 0).stack? name = none := by
  unfold restore
  split
  · rename_i s found
    simp [stackSet, Stack.truncate, Stack.isEmpty]
  · assumption

end Registry

end LuaExpander
