import LuaExpander.Proofs.Running

/-! More steps than enough change nothing. The bound on the steps is no part of an answer: a scan
that has ended, with tokens or with an error, ends in the same way when it is granted more. So a
unit either uses up every number of steps or has one answer from some number on. -/
namespace LuaExpander.Scan

variable {α β : Type}

/- Where the one scan of arguments gives an answer, the other gives the same. -/
def Extends (larger expand : ArgumentExpander) : Prop :=
  ∀ arg s, (expand arg s).1 ≠ .error .starved → larger arg s = expand arg s

def Follows (larger act : ScanM α) : Prop :=
  ∀ s, (act.run.run s).1 ≠ .error .starved → larger.run.run s = act.run.run s

theorem followsSelf (act : ScanM α) : Follows act act := fun _ _ => rfl

theorem followsBind {larger act : ScanM α} {later rest : α → ScanM β}
    (first : Follows larger act) (second : ∀ a, Follows (later a) (rest a)) :
    Follows (larger >>= later) (act >>= rest) := by
  intro s ends
  rw [runBind] at ends
  rw [runBind, runBind]
  rcases ran : act.run.run s with ⟨e | a, between⟩
  · rw [ran] at ends
    rw [first s (by rw [ran]; exact fun starves => ends (by cases starves; rfl)), ran]
  · rw [ran] at ends
    rw [first s (by rw [ran]; nofun), ran]
    exact second a between ends

section

variable {larger expand : ArgumentExpander} (extension : Extends larger expand)
include extension

theorem expandArgumentsFollows (args : List (List Token)) :
    Follows (expandArguments larger args) (expandArguments expand args) := by
  induction args with
  | nil => exact followsSelf _
  | cons arg rest ih =>
    intro s ends
    rw [expandArguments, runBind, runGet] at ends
    rw [expandArguments, expandArguments, runBind, runGet, runBind, runGet]
    dsimp only at ends ⊢
    rcases ran : expand arg s.session with ⟨e | ts, session⟩
    · have answered : (expand arg s.session).1 ≠ .error .starved := by
        rw [ran] at ends ⊢
        exact fun starves => ends (by cases starves; rfl)
      rw [extension arg s.session answered, ran]
    · rw [ran] at ends
      rw [extension arg s.session (by rw [ran]; nofun), ran]
      have further : Follows (do return ts :: (← expandArguments larger rest))
          (do return ts :: (← expandArguments expand rest)) :=
        followsBind ih fun _ => followsSelf _
      exact further { s with session } ends

theorem replacementFollows (d : Definition) (nameToken : Token) :
    Follows (replacement larger d nameToken) (replacement expand d nameToken) := by
  unfold replacement
  cases d.body with
  | text value => exact followsSelf _
  | callable t =>
    refine followsBind (followsSelf _) fun _ => followsBind (followsSelf _) fun read => ?_
    exact followsBind (expandArgumentsFollows extension read.1) fun _ => followsSelf _

theorem plainFollows (t : Token) : Follows (plain larger t) (plain expand t) := by
  refine followsBind (followsSelf _) fun s => followsBind (followsSelf _) fun _ => ?_
  refine followsBind (followsSelf _) fun search => followsBind (followsSelf _) fun _ => ?_
  cases search.found with
  | none => exact followsSelf _
  | some m => exact followsBind (replacementFollows extension _ _) fun _ => followsSelf _

theorem stepFollows : Follows (step larger) (step expand) := by
  refine followsBind (followsSelf _) fun next => ?_
  cases next with
  | none => exact followsSelf _
  | some t =>
    have isPlain := followsBind (plainFollows extension t) fun _ => followsSelf (pure false)
    cases kind : t.kind with
    | eof | keyword => simp only [kind]; exact followsSelf _
    | iden | op | string | number | space | comment => simp only [kind]; exact isPlain

end

theorem runOneMore (steps : Nat) {s : Scan} (ends : (run steps s).1 ≠ .error .starved) :
    run (steps + 1) s = run steps s := by
  induction steps generalizing s with
  | zero => exact absurd rfl ends
  | succ steps ih =>
    have extension : Extends (argument (run (steps + 1))) (argument (run steps)) := by
      intro arg session answered
      rw [argument, argument, ih answered]
    have answered : ((step (argument (run steps))).run.run s).1 ≠ .error .starved := by
      intro starves
      rw [run] at ends
      rcases ran : (step (argument (run steps))).run.run s with ⟨e | done, next⟩
      · rw [ran] at ends starves
        exact ends (by cases starves; rfl)
      · rw [ran] at starves
        contradiction
    have same := stepFollows extension s answered
    rw [run] at ends
    rw [run, same]
    conv => rhs; rw [run]
    rcases ran : (step (argument (run steps))).run.run s with ⟨e | (_ | _), next⟩
    · rfl
    · rw [ran] at ends
      exact ih ends
    · rfl

theorem runEnough {steps : Nat} {s : Scan} (ends : (run steps s).1 ≠ .error .starved) {more : Nat}
    (enough : steps ≤ more) : run more s = run steps s := by
  induction enough with
  | refl => rfl
  | step _ ih => rw [runOneMore _ (ih ▸ ends), ih]

theorem unitEnough {steps : Nat} {s : Scan} (ends : (unit steps s).1 ≠ .error .starved) {more : Nat}
    (enough : steps ≤ more) : unit more s = unit steps s := by
  unfold unit at ends ⊢
  rcases began : begin.run.run s with ⟨e | ⟨⟨⟩⟩, start⟩
  · rfl
  · rw [began] at ends
    exact runEnough ends enough

end LuaExpander.Scan
