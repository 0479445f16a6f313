import LuaExpander.Blocks
import Std.Data.ExtTreeMap.Lemmas

/-! The handlers that wait for each depth, after each operation on blocks. A handler is added at the
end of the list of one depth; leaving a block and ending a unit empty one list and answer it
reversed; nothing else changes any list. -/
namespace LuaExpander.Blocks

variable {η : Type}

theorem waitingReset (b : Blocks η) (depth : Nat) : b.reset.waiting depth = [] := by
  simp [waiting, reset]

theorem waitingErase (b : Blocks η) (gone depth next : Nat) :
    waiting depth { b with depth := next, deferred := b.deferred.erase gone } =
      if depth = gone then [] else b.waiting depth := by
  simp only [waiting, Std.ExtTreeMap.getElem?_erase, Nat.compare_eq_eq]
  by_cases same : depth = gone
  · subst depth
    simp
  · rw [if_neg (Ne.symm same), if_neg same]

theorem deferSucceeds {handler : η} {depth : Option Int} {b b' : Blocks η}
    (deferred : b.defer handler depth = .ok b') :
    ∃ place : Nat, depth.getD b.depth = place ∧ b'.depth = b.depth ∧ b'.keywords = b.keywords ∧
      ∀ d, b'.waiting d = if d = place then b.waiting d ++ [handler] else b.waiting d := by
  unfold defer at deferred
  dsimp only at deferred
  split at deferred
  · contradiction
  · rename_i nonnegative
    cases deferred
    refine ⟨(depth.getD b.depth).toNat, by omega, rfl, rfl, ?_⟩
    intro d
    simp only [waiting, Std.ExtTreeMap.getElem?_insert, Nat.compare_eq_eq]
    by_cases same : d = (depth.getD b.depth).toNat
    · subst d
      simp
    · rw [if_neg (Ne.symm same), if_neg same]

theorem deferKeeps {handler : η} {depth : Option Int} {b b' : Blocks η}
    (deferred : b.defer handler depth = .ok b') : ∀ d, ∀ h ∈ b.waiting d, h ∈ b'.waiting d := by
  obtain ⟨place, -, -, -, waiting⟩ := deferSucceeds deferred
  intro d h member
  rw [waiting]
  split
  · exact List.mem_append_left _ member
  · exact member

theorem leaveSucceeds {t : Token} {b b' : Blocks η} {handlers : List η}
    (left : b.leave t = .ok (handlers, b')) :
    b.depth = b'.depth + 1 ∧ handlers = (b.waiting b.depth).reverse ∧ b'.keywords = b.keywords ∧
      ∀ d, b'.waiting d = if d = b.depth then [] else b.waiting d := by
  unfold leave at left
  split at left
  · contradiction
  · rename_i depth here
    cases left
    rw [here]
    exact ⟨rfl, rfl, rfl, fun d => waitingErase b _ d _⟩

theorem leaveFails {t : Token} {b : Blocks η} {e : Error} (refused : b.leave t = .error e) :
    b.depth = 0 := by
  unfold leave at refused
  split at refused
  · assumption
  · contradiction

theorem finishSucceeds {t : Token} {b b' : Blocks η} {handlers : List η}
    (finished : b.finish t = .ok (handlers, b')) :
    b.depth = 0 ∧ b'.depth = 0 ∧ handlers = (b.waiting 0).reverse ∧ b'.keywords = b.keywords ∧
      ∀ d, b'.waiting d = if d = 0 then [] else b.waiting d := by
  unfold finish at finished
  split at finished
  · rename_i outside
    cases finished
    exact ⟨outside, outside, rfl, rfl, fun d => waitingErase b _ d _⟩
  · contradiction

theorem countZero (entries : List (Nat × List η)) (n : Nat) :
    entries.foldl (fun n entry => n + entry.2.length) n = 0 ↔
      n = 0 ∧ ∀ entry ∈ entries, entry.2 = [] := by
  induction entries generalizing n with
  | nil => simp
  | cons entry rest ih =>
    rw [List.foldl_cons, ih, List.forall_mem_cons, Nat.add_eq_zero_iff, List.length_eq_zero_iff,
      and_assoc]

theorem pendingEmpty (b : Blocks η) :
    (∀ entry ∈ b.pending, entry.2 = []) ↔ ∀ d, b.waiting d = [] := by
  constructor
  · intro empty d
    unfold waiting
    cases found : b.deferred[d]? with
    | none => rfl
    | some handlers => exact empty _ (Std.ExtTreeMap.mem_toList_iff_getElem?_eq_some.mpr found)
  · intro none entry member
    have waits := none entry.1
    rwa [waiting, Std.ExtTreeMap.mem_toList_iff_getElem?_eq_some.mp member] at waits

theorem checkFinishedOk (t : Token) (b : Blocks η) :
    b.checkFinished t = .ok () ↔ b.depth = 0 ∧ ∀ d, b.waiting d = [] := by
  have count := countZero b.pending 0
  rw [pendingEmpty, eq_self, true_and] at count
  unfold checkFinished
  dsimp only
  rw [← count]
  by_cases outside : b.depth = 0
  · rw [if_pos outside]
    split
    · rename_i none
      exact ⟨fun _ => ⟨outside, none⟩, fun _ => rfl⟩
    · rename_i some
      exact ⟨fun impossible => by contradiction, fun both => absurd both.2 some⟩
  · rw [if_neg outside]
    exact ⟨fun impossible => by contradiction, fun both => absurd both.1 outside⟩

theorem finishNone {b : Blocks η} (t : Token) (outside : b.depth = 0)
    (none : ∀ d, b.waiting d = []) :
    ∃ b', b.finish t = .ok ([], b') ∧ b'.depth = 0 ∧ b'.keywords = b.keywords ∧
      ∀ d, b'.waiting d = [] := by
  refine ⟨{ b with deferred := b.deferred.erase 0 }, ?_, outside, rfl, ?_⟩
  · rw [finish, if_pos outside, none]
    rfl
  · intro d
    have erased := waitingErase b 0 d b.depth
    rw [none, ite_self] at erased
    exact erased

end LuaExpander.Blocks
