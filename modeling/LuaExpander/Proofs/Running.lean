import LuaExpander.Expansion

/-! Operations that may fail and keep the state in which they failed. A run of such an operation
answers an outcome and a state; a sequence runs its second part only after the first has
succeeded. -/
namespace LuaExpander

variable {ε σ α β : Type}

@[simp] theorem runBind (x : ExceptT ε (StateM σ) α) (f : α → ExceptT ε (StateM σ) β) (s : σ) :
    (x >>= f).run.run s = match x.run.run s with
      | (.ok a, s) => (f a).run.run s
      | (.error e, s) => (.error e, s) := by
  change (match x.run.run s with
    | (a, s) => (ExceptT.bindCont f a : StateM σ (Except ε β)).run s) = _
  rcases x.run.run s with ⟨a | a, s⟩ <;> rfl

@[simp] theorem runPure (a : α) (s : σ) :
    (pure a : ExceptT ε (StateM σ) α).run.run s = (.ok a, s) := rfl

@[simp] theorem runGet (s : σ) : (get : ExceptT ε (StateM σ) σ).run.run s = (.ok s, s) := rfl

@[simp] theorem runSet (s s' : σ) :
    (set s' : ExceptT ε (StateM σ) PUnit).run.run s = (.ok ⟨⟩, s') := rfl

@[simp] theorem runModify (f : σ → σ) (s : σ) :
    (modify f : ExceptT ε (StateM σ) PUnit).run.run s = (.ok ⟨⟩, f s) := rfl

theorem runLift (x : Except ε α) (s : σ) :
    (liftM x : ExceptT ε (StateM σ) α).run.run s = (x, s) := rfl

theorem runDiscard (x : ExceptT ε (StateM σ) α) (s : σ) :
    ((x >>= fun _ => pure PUnit.unit : ExceptT ε (StateM σ) PUnit).run.run s).2
      = (x.run.run s).2 := by
  rw [runBind]
  rcases x.run.run s with ⟨e | a, s⟩ <;> rfl

theorem bindSucceeds {x : ExceptT ε (StateM σ) α} {f : α → ExceptT ε (StateM σ) β} {s s' : σ}
    {b : β} (ran : (x >>= f).run.run s = (.ok b, s')) :
    ∃ a between, x.run.run s = (.ok a, between) ∧ (f a).run.run between = (.ok b, s') := by
  rw [runBind] at ran
  rcases first : x.run.run s with ⟨e | a, between⟩
  · rw [first] at ran
    cases ran
  · rw [first] at ran
    exact ⟨a, between, rfl, ran⟩

theorem exceptSucceeds {x : Except ε α} {f : α → Except ε β} {b : β}
    (ran : x >>= f = .ok b) : ∃ a, x = .ok a ∧ f a = .ok b := by
  cases x with
  | error e => cases ran
  | ok a => exact ⟨a, rfl, ran⟩

end LuaExpander
