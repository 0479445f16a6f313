import LuaExpander.Operation
import LuaExpander.Proofs.Likeness
import LuaExpander.Proofs.Tables

/-! A definition is made as a whole or not at all. One that fails leaves the session as it was; one
that is made goes on top of those of its name and changes no other, and taking it back leaves the
tables as they were. A caller may be refused a definition that is made: if nothing can be written to
the log, the definition is made first. -/
namespace LuaExpander

namespace Session

variable {s s' : Session} {d : Definition} {warn : Bool}

/- The name means something else already, at the same depth. -/
def Redefines (d : Definition) (s : Session) : Prop :=
  ∃ older, s.registry.get? d.name = some older ∧ older.depth = d.depth ∧ d.sameAs older = false

/- The session with one more definition. -/
structure Gains (warn : Bool) (d : Definition) (s s' : Session) : Prop where
  here : s'.registry.definitions d.name = s.registry.definitions d.name ++ [d]
  others {other : String} (different : other ≠ d.name) :
    s'.registry.stack? other = s.registry.stack? other
  blocks : s'.blocks = s.blocks
  warned (warns : warn = true ∧ s.Redefines d) :
    s'.warnings = s.warnings + 1 ∧ ∃ shown, s'.diagnostics = s.diagnostics.push shown
  silent (silent : ¬ (warn = true ∧ s.Redefines d)) :
    s'.warnings = s.warnings ∧ s'.diagnostics = s.diagnostics
  -- A name without definitions is not kept, see `Registry.Sound`.
  undone (kept : s.registry.stack? d.name ≠ some .empty) :
    (s'.undefine d.name).registry.idens = s.registry.idens ∧
      (s'.undefine d.name).registry.ops = s.registry.ops

theorem redefinesIff : s.redefines d = true ↔ s.Redefines d := by
  unfold redefines Redefines
  cases s.registry.get? d.name <;> simp

theorem installSilent (silent : ¬ (warn = true ∧ s.Redefines d)) :
    Alike { s with registry := s.registry.push d } (s.install d warn) := by
  unfold install
  rw [if_neg (by rwa [Bool.and_eq_true, redefinesIff])]
  exact logTextAlike _ _ _ _

theorem reportWarns (unitName : Option UnitName) (line : Line) (message : String) (s : Session) :
    ∃ shown, Alike { s with
        diagnostics := s.diagnostics.push shown
        warnings := s.warnings + 1 } (s.report .warning unitName line message) := by
  obtain ⟨log, logged⟩ := logTextAlike (Severity.warning.word ++ ": " ++ message) line 0 s
  unfold report
  dsimp only
  rw [logged]
  exact ⟨_, log, rfl⟩

theorem installWarns (warns : warn = true ∧ s.Redefines d) :
    ∃ shown, Alike { s with
        registry := s.registry.push d
        diagnostics := s.diagnostics.push shown
        warnings := s.warnings + 1 } (s.install d warn) := by
  obtain ⟨shown, log, reported⟩ := reportWarns s.unitName d.line
    ("Macro " ++ d.name ++ " redefined with different meaning.") s
  unfold install
  rw [if_pos (by rwa [Bool.and_eq_true, redefinesIff]), reported]
  obtain ⟨log', logged⟩ := logTextAlike ("Define " ++ d.describe) d.line 0 { s with
    registry := s.registry.push d
    diagnostics := s.diagnostics.push shown
    warnings := s.warnings + 1
    log }
  exact ⟨shown, log', logged⟩

theorem installGains (d : Definition) (warn : Bool) (s : Session) :
    s.Gains warn d (s.install d warn) where
  here := by rw [installRegistry, Registry.definitionsPush, if_pos rfl]
  others different := by rw [installRegistry, Registry.stackPush, if_neg different]
  blocks := installBlocks d warn s
  warned warns := by
    obtain ⟨shown, log, same⟩ := installWarns warns
    rw [same]
    exact ⟨rfl, shown, rfl⟩
  silent silent := by
    obtain ⟨log, same⟩ := installSilent silent
    rw [same]
    exact ⟨rfl, rfl⟩
  undone kept := by
    rw [undefine, installRegistry, Registry.undefinePushed kept]
    exact ⟨rfl, rfl⟩

theorem defineRuns (spec : String) (meaning : Option Definition.Meaning) (warn : Bool) (line : Line)
    (s : Session) :
    (define spec meaning warn line).run.run s =
      match Definition.make spec meaning s.blocks.depth line with
      | .ok d => (.ok d, s.install d warn)
      | .error f => (.error f, s) := by
  rw [define, runBind, runGet]
  dsimp only
  rw [runBind, runLift]
  cases Definition.make spec meaning s.blocks.depth line <;> rfl

theorem defineGains (spec : String) (meaning : Option Definition.Meaning) (warn : Bool)
    (line : Line) (s : Session) :
    (∃ f, Definition.make spec meaning s.blocks.depth line = .error f ∧
        (define spec meaning warn line).run.run s = (.error f, s)) ∨
      ∃ d s', Definition.make spec meaning s.blocks.depth line = .ok d ∧
        (define spec meaning warn line).run.run s = (.ok d, s') ∧ s.Gains warn d s' := by
  rw [defineRuns]
  cases Definition.make spec meaning s.blocks.depth line with
  | error f => exact .inl ⟨f, rfl, rfl⟩
  | ok d => exact .inr ⟨d, s.install d warn, rfl, rfl, installGains d warn s⟩

theorem gainsLogged {log log' : Option (Array Log.Entry)} {s' : Session}
    (gains : Gains warn d { s with log } s') : s.Gains warn d { s' with log := log' } where
  here := gains.here
  others := gains.others
  blocks := gains.blocks
  warned := gains.warned
  silent := gains.silent
  undone := gains.undone

theorem declareGains (spec : String) (meaning : Option Definition.Meaning) (warn : Bool)
    (line : Line) (s : Session) :
    (∃ f, (declare spec meaning warn line).run.run s = (.error f, s)) ∨
      ∃ d s', (declare spec meaning warn line).run.run s = (.ok d, s') ∧ s.Gains warn d s' := by
  rcases declareCases spec meaning warn line s with refused | same
  · exact .inl ⟨_, refused⟩
  · rw [same]
    rcases defineGains spec meaning warn line s with ⟨f, -, fails⟩ | ⟨d, s', -, makes, gains⟩
    · exact .inl ⟨f, fails⟩
    · exact .inr ⟨d, s', makes, gains⟩

/- What a caller who defines a name comes to. -/
inductive Declares (warn : Bool) (s : Session) : Answer × Session → Prop where
  | made {d : Definition} {s' : Session} (logs : s.cannotLog = false)
      (gains : s.Gains warn d s') : Declares warn s (.defined d, s')
  | refused {f : Failure} : Declares warn s (.refused f, s)
  | unlogged {d : Definition} {f : Failure} {s' : Session} (logs : s.cannotLog = true)
      (gains : s.Gains warn d s') : Declares warn s (.refused f, s')

theorem loggingDeclares {act : SessionM Definition}
    (gains : ∀ s : Session, (∃ f, act.run.run s = (.error f, s)) ∨
      ∃ d s', act.run.run s = (.ok d, s') ∧ s.Gains warn d s') (s : Session) :
    s.Declares warn (s.logging act .defined) := by
  unfold logging
  split
  · rename_i logs
    rcases gains { s with log := none } with ⟨f, fails⟩ | ⟨d, s', makes, gains⟩
    · rw [fails]
      exact .refused
    · rw [makes]
      exact .unlogged logs (gainsLogged gains)
  · rename_i logs
    rw [attempt]
    rcases gains s with ⟨f, fails⟩ | ⟨d, s', makes, gains⟩
    · rw [fails]
      exact .refused
    · rw [makes]
      exact .made (by simpa using logs) gains

theorem scopeRefused {name : String} {meaning : Option Definition.Meaning} {f : Failure}
    (ran : s.operate (.scope name meaning) = (.refused f, s')) :
    s.Declares false (.refused f, s') := by
  rw [operate] at ran
  split at ran
  · rw [← ran]
    refine loggingDeclares (fun s => ?_) s
    rcases defineGains name meaning false (some 0) s with ⟨f, -, fails⟩ | ⟨d, s', -, makes, gains⟩
    · exact .inl ⟨f, fails⟩
    · exact .inr ⟨d, s', makes, gains⟩
  · rw [attempt] at ran
    rcases bound : (scope name meaning).run.run s with ⟨f | d, after⟩ <;> rw [bound] at ran
    · cases ran
      rw [scopeFails bound]
      exact .refused
    · cases ran

theorem definedOrUnchanged (spec : String) (meaning : Option Definition.Meaning) (warn : Bool)
    (line : Line) (s : Session) :
    ((∃ f, Definition.make spec meaning s.blocks.depth line = .error f ∧
        (define spec meaning warn line).run.run s = (.error f, s)) ∨
      ∃ d s', Definition.make spec meaning s.blocks.depth line = .ok d ∧
        (define spec meaning warn line).run.run s = (.ok d, s') ∧ s.Gains warn d s') ∧
    (∀ name meaning f s', (scope name meaning).run.run s = (.error f, s') → s' = s) ∧
    s.Declares warn (s.operate (.define spec meaning warn line)) ∧
    ∀ name meaning f s', s.operate (.scope name meaning) = (.refused f, s') →
      s.Declares false (.refused f, s') :=
  ⟨defineGains spec meaning warn line s, fun _ _ _ _ => scopeFails,
    loggingDeclares (declareGains spec meaning warn line) s, fun _ _ _ _ => scopeRefused⟩

theorem definedOrUnchangedAgain :
    let one : Definition := ⟨"X", none, .text [⟨.number, "1", some 1, none, none⟩], 0, none⟩
    let s : Session := { registry := ({} : Registry).push one }
    (∃ f, (define "X(a, a) 2" none).run.run s = (.error f, s)) ∧
    ∃ two s', (define "X 2" none).run.run s = (.ok two, s') ∧
      s'.registry.definitions "X" = [one, two] ∧ s'.warnings = 1 ∧
      (s'.undefine "X").registry.idens = s.registry.idens := by
  intro one s
  constructor
  · rcases (definedOrUnchanged "X(a, a) 2" none true (some 0) s).1 with
      ⟨f, -, refused⟩ | ⟨d, s', made, -⟩
    · exact ⟨f, refused⟩
    · have fails : (Definition.make "X(a, a) 2" none 0 (some 0)).toOption.isSome = false := by
        decide +kernel
      rw [show Definition.make "X(a, a) 2" none 0 (some 0) = .ok d from made] at fails
      cases fails
  · have reads : (Definition.make "X 2" none 0 (some 0)).toOption.map
        (fun d => (d.name, d.depth, d.sameAs one)) = some ("X", 0, false) := by
      decide +kernel
    rcases (definedOrUnchanged "X 2" none true (some 0) s).1 with
      ⟨f, made, -⟩ | ⟨d, s', made, ran, gains⟩
    · rw [show Definition.make "X 2" none 0 (some 0) = .error f from made] at reads
      cases reads
    · rw [show Definition.make "X 2" none 0 (some 0) = .ok d from made] at reads
      obtain ⟨name, depth, differs⟩ : d.name = "X" ∧ d.depth = 0 ∧ d.sameAs one = false := by
        simpa [Except.toOption] using reads
      have stack : s.registry.stack? d.name = some ((Registry.stack "X" {}).push one) := by
        rw [Registry.stackPush, if_pos name]
      have redefines : s.Redefines d := by
        refine ⟨one, ?_, depth.symm, differs⟩
        rw [Registry.get?, stack]
        rfl
      have here := gains.here
      have undone := (gains.undone (by simp [stack, Stack.push, Stack.empty])).1
      rw [name] at here undone
      rw [Registry.definitionsPush, if_pos rfl] at here
      exact ⟨d, s', ran, here, (gains.warned ⟨rfl, redefines⟩).1, undone⟩

-- The name of the unit is a number, so that nothing can be written to the log.
theorem refusedThoughDefined :
    let s := (operate (.expand 9 (.file "x = 1" (some (.descriptor 3))) none) { log := some #[] }).2
    let after := s.operate (.define "X 1" none true (some 0))
    (∃ f, after.1 = .refused f) ∧ s.registry.definitions "X" = [] ∧
      (after.2.registry.definitions "X").map (·.describe) = ["X='1'"] := by
  intro s after
  have cannot : s.cannotLog = true := by decide +kernel
  have declares : s.Declares true after := loggingDeclares (declareGains _ _ _ _) s
  refine ⟨?_, by decide +kernel, by decide +kernel⟩
  generalize after = outcome at declares
  cases declares with
  | made logs gains =>
    rw [cannot] at logs
    contradiction
  | refused => exact ⟨_, rfl⟩
  | unlogged logs gains => exact ⟨_, rfl⟩

end Session

end LuaExpander
