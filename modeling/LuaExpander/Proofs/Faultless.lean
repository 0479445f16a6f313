import LuaExpander.Proofs.Running

/-! Which operations fail with errors only. Values, programs and published values have faults of
their own, but a fault becomes an error where a call or a handler ends. So no fault comes out of
reading arguments or a definition without a meaning, and none out of a scan, however its programs
fail. -/
namespace LuaExpander

def Failure.IsError : Failure → Prop
  | .error _ => True
  | .fault _ => False

def Stop.IsError : Stop → Prop
  | .failed f => f.IsError
  | .starved => True

section

variable {ε σ α β : Type} {only : ε → Prop}

def Throws (only : ε → Prop) (act : ExceptT ε (StateM σ) α) : Prop :=
  ∀ s e, (act.run.run s).1 = .error e → only e

theorem throwsPure (a : α) : Throws only (pure a : ExceptT ε (StateM σ) α) := by
  intro s e failed
  cases failed

theorem throwsGet : Throws only (get : ExceptT ε (StateM σ) σ) := by
  intro s e failed
  cases failed

theorem throwsSet (s : σ) : Throws only (set s : ExceptT ε (StateM σ) PUnit) := by
  intro s e failed
  cases failed

theorem throwsModify (f : σ → σ) : Throws only (modify f : ExceptT ε (StateM σ) PUnit) := by
  intro s e failed
  cases failed

theorem throwsThrow {e : ε} (meets : only e) : Throws only (throw e : ExceptT ε (StateM σ) α) := by
  intro s e' failed
  cases failed
  exact meets

theorem throwsLift {x : Except ε α} (meets : ∀ e, x = .error e → only e) :
    Throws only (liftM x : ExceptT ε (StateM σ) α) := fun _ => meets

theorem throwsBind {x : ExceptT ε (StateM σ) α} {f : α → ExceptT ε (StateM σ) β}
    (first : Throws only x) (second : ∀ a, Throws only (f a)) : Throws only (x >>= f) := by
  intro s e failed
  rw [runBind] at failed
  rcases ran : x.run.run s with ⟨e' | a, between⟩ <;> rw [ran] at failed
  · cases failed
    exact first s e (by rw [ran])
  · exact second a between e failed

end

namespace Reader

variable {α σ : Type}

theorem peekThrows : Throws Failure.IsError peek := by
  refine throwsBind throwsGet fun r => throwsBind (throwsSet _) fun _ => ?_
  split
  · exact throwsPure _
  · exact throwsPure _
  · exact throwsThrow trivial

theorem nextThrows : Throws Failure.IsError next := by
  refine throwsBind peekThrows fun t => ?_
  split
  · exact throwsBind (throwsModify _) fun _ => throwsPure _
  · exact throwsPure _

theorem takeWhileThrows (p : Token → Bool) : Throws Failure.IsError (takeWhile p) :=
  throwsBind throwsGet fun _ => throwsBind (throwsSet _) fun _ => throwsPure _

theorem skipBlankThrows : Throws Failure.IsError skipBlank :=
  throwsBind (takeWhileThrows _) fun _ => peekThrows

theorem nameThrows : Throws Failure.IsError name := by
  refine throwsBind ?_ fun _ => throwsPure _
  refine throwsBind skipBlankThrows fun _ => throwsBind nextThrows fun t => ?_
  split
  · exact throwsPure _
  · exact throwsThrow trivial

theorem expectingThrows (expected : Expected) : Throws Failure.IsError (expecting expected) := by
  refine throwsBind skipBlankThrows fun _ => throwsBind nextThrows fun t => ?_
  split
  · exact throwsPure _
  · exact throwsThrow trivial

theorem missingThrows (stop : String) (last : Token) :
    Throws Failure.IsError (missing stop last : ReaderM α) :=
  throwsBind throwsGet fun _ => throwsThrow trivial

theorem moreThrows (stop : String) : Throws Failure.IsError (more stop) := by
  refine throwsBind peekThrows fun t => ?_
  split
  · exact missingThrows stop t
  · exact throwsPure _

theorem namesFromThrows (stop : String) (turns : Nat) (found : List String) :
    Throws Failure.IsError (namesFrom stop turns found) := by
  induction turns generalizing found with
  | zero => exact throwsPure _
  | succ turns ih =>
    refine throwsBind nameThrows fun _ => throwsBind skipBlankThrows fun _ => ?_
    split
    · exact throwsPure _
    · exact throwsBind (moreThrows stop) fun _ => throwsBind (expectingThrows _) fun _ => ih _

theorem namesThrows (stop : String) : Throws Failure.IsError (names stop) := by
  refine throwsBind skipBlankThrows fun _ => ?_
  split
  · exact throwsPure _
  · exact throwsBind throwsGet fun _ => namesFromThrows stop _ _

theorem scanFromThrows (stop : String) (turn : σ → Token → Turn σ α) (turns : Nat) (state : σ) :
    Throws Failure.IsError (scanFrom stop turn turns state) := by
  induction turns generalizing state with
  | zero => exact throwsBind peekThrows (missingThrows stop)
  | succ turns ih =>
    refine throwsBind (moreThrows stop) fun t => throwsBind (throwsModify _) fun _ => ?_
    split
    · exact ih _
    · exact throwsPure _

theorem listThrows (stop : String) : Throws Failure.IsError (list stop) :=
  throwsBind throwsGet fun _ => scanFromThrows stop _ _ _

end Reader

namespace Definition

theorem readArgumentsThrows (d : Definition) (params : List String) (nameToken : Token) :
    Throws Failure.IsError (d.readArguments params nameToken) := by
  refine throwsBind Reader.skipBlankThrows fun t => ?_
  split
  · exact throwsThrow trivial
  · refine throwsBind Reader.nextThrows fun _ => throwsBind (Reader.listThrows ")") fun args => ?_
    generalize (if args = [[]] ∧ params = [] then [] else args) = args
    dsimp only
    split
    · exact throwsBind (throwsThrow trivial) fun _ => throwsPure _
    · exact throwsPure _

theorem readHeaderThrows (line : Line) : Throws Failure.IsError (readHeader line) := by
  have name : Throws Failure.IsError (readName line) := by
    refine throwsBind Reader.skipBlankThrows fun first => ?_
    split
    · exact throwsThrow trivial
    · exact throwsThrow trivial
    · exact throwsBind Reader.nextThrows fun _ =>
        throwsBind (Reader.takeWhileThrows _) fun _ => throwsPure _
    · exact throwsBind Reader.nextThrows fun _ => throwsPure _
    · exact throwsThrow trivial
  have params (first : Token) (name : String) : Throws Failure.IsError (readParams first name) := by
    refine throwsBind Reader.peekThrows fun t => ?_
    split
    · exact throwsPure _
    · refine throwsBind Reader.nextThrows fun _ => throwsBind (Reader.namesThrows ")") fun _ => ?_
      refine throwsBind (Reader.expectingThrows _) fun _ => ?_
      split
      · exact throwsThrow trivial
      · exact throwsPure _
  refine throwsBind name fun found => throwsBind (params found.1 found.2) fun _ => ?_
  exact throwsBind throwsGet fun _ => throwsPure _

/- A definition by its text alone. -/
theorem makeThrows {spec : String} {depth : Nat} {line : Line} {f : Failure}
    (failed : make spec none depth line = .error f) : f.IsError := by
  have head {f : Failure} (failed : header spec line = .error f) : f.IsError := by
    unfold header at failed
    split at failed
    · cases failed
      trivial
    · exact readHeaderThrows line _ f failed
  unfold make at failed
  cases read : header spec line with
  | error f' =>
    rw [read] at failed
    cases failed
    exact head read
  | ok h =>
    rw [read] at failed
    cases failed

end Definition

theorem Session.defineThrows (spec : String) (warn : Bool) (line : Line) :
    Throws Failure.IsError (Session.define spec none warn line) := by
  refine throwsBind throwsGet fun s => ?_
  refine throwsBind (throwsLift fun _ => Definition.makeThrows) fun d => ?_
  exact throwsBind (throwsModify _) fun _ => throwsPure _

namespace Scan

variable {α : Type}

theorem liftThrows (answer : Except Error α) : Throws Stop.IsError (liftBlocks answer) := by
  cases answer with
  | ok a => exact throwsPure _
  | error e => exact throwsThrow trivial

theorem nextTokenThrows : Throws Stop.IsError nextToken := by
  refine throwsBind throwsGet fun s => throwsBind (throwsSet _) fun _ => ?_
  split
  · exact throwsPure _
  · exact throwsThrow trivial

theorem readArgumentsThrows (d : Definition) (nameToken : Token) :
    Throws Stop.IsError (readArguments d nameToken) := by
  unfold readArguments
  split
  · exact throwsPure _
  · rename_i params _
    refine throwsBind throwsGet fun s => ?_
    dsimp only
    refine throwsBind (throwsSet _) fun _ => ?_
    split
    · exact throwsPure _
    · rename_i f failed
      exact throwsThrow (d.readArgumentsThrows params nameToken _ f failed)

theorem numberArgumentsThrows (args : List (List Token)) :
    Throws Stop.IsError (numberArguments args) := by
  cases args with
  | nil => exact throwsPure _
  | cons arg rest =>
    exact throwsBind throwsGet fun _ => throwsBind (throwsModify _) fun _ => throwsPure _

theorem callTransformerThrows (d : Definition) (t : Transformer) (nameToken : Token)
    (args : List (List Token)) (taken : Array Token) :
    Throws Stop.IsError (callTransformer d t nameToken args taken) := by
  refine throwsBind throwsGet fun s => ?_
  dsimp only
  refine throwsBind (throwsSet _) fun _ => ?_
  split
  · exact throwsPure _
  · exact throwsThrow trivial

theorem fireThrows (handlers : List Handler) (t : Token) (reads : Bool) :
    Throws Stop.IsError (fire handlers t reads) := by
  refine throwsBind throwsGet fun s => ?_
  dsimp only
  refine throwsBind (throwsSet _) fun _ => ?_
  split
  · exact throwsModify _
  · exact throwsThrow trivial

theorem fireKeywordThrows (word : String) (t : Token) :
    Throws Stop.IsError (fireKeyword word t) := by
  refine throwsBind throwsGet fun s => ?_
  dsimp only
  split
  · exact throwsPure _
  · exact throwsBind (throwsModify _) fun _ => fireThrows _ t true

theorem keywordThrows (t : Token) : Throws Stop.IsError (keyword t) := by
  refine throwsBind (throwsModify _) fun _ => throwsBind throwsGet fun s => ?_
  split
  · exact throwsPure _
  split
  · exact throwsBind (throwsModify _) fun _ => fireKeywordThrows _ t
  split
  · refine throwsBind throwsGet fun _ => throwsBind (liftThrows _) fun _ => ?_
    refine throwsBind (throwsModify _) fun _ => throwsBind (fireThrows _ t false) fun _ => ?_
    exact fireKeywordThrows _ t
  · exact fireKeywordThrows _ t

theorem atEndThrows (t : Token) : Throws Stop.IsError (atEnd t) := by
  refine throwsBind throwsGet fun s => ?_
  split
  · refine throwsBind (liftThrows _) fun _ => ?_
    exact throwsBind (throwsModify _) fun _ => throwsPure _
  · refine throwsBind (throwsSet _) fun _ => throwsBind (liftThrows _) fun _ => ?_
    refine throwsBind (throwsModify _) fun _ => throwsBind (throwsModify _) fun _ => ?_
    refine throwsBind (fireKeywordThrows _ t) fun _ => ?_
    exact throwsBind (fireThrows _ t false) fun _ => throwsPure _

section

variable {expand : ArgumentExpander}
  (expands : ∀ arg s e, (expand arg s).1 = .error e → e.IsError)
include expands

theorem expandArgumentsThrows (args : List (List Token)) :
    Throws Stop.IsError (expandArguments expand args) := by
  induction args with
  | nil => exact throwsPure _
  | cons arg rest ih =>
    refine throwsBind throwsGet fun s => ?_
    dsimp only
    refine throwsBind (throwsSet _) fun _ => ?_
    split
    · exact throwsBind ih fun _ => throwsPure _
    · rename_i e failed
      exact throwsThrow (expands arg s.session e failed)

theorem replacementThrows (d : Definition) (nameToken : Token) :
    Throws Stop.IsError (replacement expand d nameToken) := by
  unfold replacement
  cases d.body with
  | text value =>
    refine throwsBind (readArgumentsThrows d nameToken) fun _ => ?_
    refine throwsBind (numberArgumentsThrows _) fun _ => ?_
    exact throwsBind (throwsModify _) fun _ => throwsPure _
  | callable t =>
    refine throwsBind (throwsModify _) fun _ => ?_
    refine throwsBind (readArgumentsThrows d nameToken) fun _ => ?_
    refine throwsBind (expandArgumentsThrows expands _) fun _ => ?_
    exact throwsBind (throwsModify _) fun _ => callTransformerThrows d t nameToken _ _

theorem plainThrows (t : Token) : Throws Stop.IsError (plain expand t) := by
  refine throwsBind throwsGet fun s => ?_
  dsimp only
  refine throwsBind (throwsSet _) fun _ => throwsBind (liftThrows _) fun search => ?_
  refine throwsBind (throwsModify _) fun _ => ?_
  split
  · exact throwsModify _
  · refine throwsBind (replacementThrows expands _ _) fun _ => ?_
    exact throwsBind (throwsModify _) fun _ => throwsModify _

theorem stepThrows : Throws Stop.IsError (step expand) := by
  refine throwsBind nextTokenThrows fun t => ?_
  split
  · refine throwsBind throwsGet fun s => ?_
    split
    · exact throwsPure _
    · exact atEndThrows _
  · split
    · exact atEndThrows _
    · exact throwsBind (keywordThrows _) fun _ => throwsPure _
    · exact throwsBind (plainThrows expands _) fun _ => throwsPure _

end

theorem runThrows (steps : Nat) (s : Scan) {e : Stop} (failed : (run steps s).1 = .error e) :
    e.IsError := by
  induction steps generalizing s e with
  | zero =>
    cases failed
    trivial
  | succ steps ih =>
    have expands (arg : List Token) (session : Session) (e : Stop)
        (failed : (argument (run steps) arg session).1 = .error e) : e.IsError :=
      ih { session, cursor := .ofTokens arg, nested := true } failed
    unfold run at failed
    rcases ran : (step (argument (run steps))).run.run s with ⟨e' | done, next⟩ <;>
      rw [ran] at failed
    · cases failed
      exact stepThrows expands s e (by rw [ran])
    · cases done with
      | true => cases failed
      | false => exact ih next failed

theorem unitThrows (steps : Nat) (s : Scan) {f : Failure}
    (failed : (unit steps s).1 = .error (.failed f)) : f.IsError := by
  have begins : Throws Stop.IsError begin := by
    have fires : Throws Stop.IsError fireBegin := by
      refine throwsBind throwsGet fun s => ?_
      dsimp only
      refine throwsBind (throwsSet _) fun _ => throwsBind (liftThrows _) fun _ => ?_
      exact fireKeywordThrows _ _
    refine throwsBind throwsGet fun s => ?_
    split
    · exact throwsBind (throwsModify _) fun _ => fires
    · exact fires
  unfold unit at failed
  rcases began : begin.run.run s with ⟨e | ⟨⟨⟩⟩, start⟩ <;> rw [began] at failed
  · cases failed
    exact begins s (.failed f) (by rw [began])
  · exact runThrows steps start failed

end Scan

end LuaExpander
