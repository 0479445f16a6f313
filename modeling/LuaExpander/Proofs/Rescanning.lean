import LuaExpander.Proofs.Identity
import Std.Data.ExtTreeMap.Lemmas

/-! One scan over a unit gives what unfolding every token gives. The scan puts each replacement back
in front of the tokens to come and goes on from there; the unfolding takes each token for itself.
Definitions are texts without parameters, and no handler waits for a keyword. -/
namespace LuaExpander

/- Every active definition is a text without parameters and stands, as `push` puts it, under its own
name. -/
structure Registry.ObjectsOnly (r : Registry) : Prop where
  ops : r.ops.isEmpty = true
  objects : ∀ name d, r.active? name = some d → d.name = name ∧ d.params = none ∧
    d.isCallable = false ∧ ∀ t ∈ d.value, t.kind ≠ .eof

namespace Scan

theorem stillPasses {r : Registry} {t : Token} (ops : r.ops.isEmpty = true)
    (still : r.invoked? t = none) (ahead : List Token) : r.Passes t ahead := by
  refine Registry.unnamedPasses still fun _ run _ _ _ => ?_
  rw [Registry.operator?, Std.ExtTreeMap.isEmpty_iff.mp ops, Std.ExtTreeMap.getElem?_empty]
  rfl

theorem findInvoked {r : Registry} {t : Token} {d : Definition} (invoked : r.invoked? t = some d)
    (c : Cursor) : r.find t c = (.ok ⟨some ⟨d, t⟩, 0⟩, c) := by
  obtain ⟨kind, unmarked, active⟩ := Registry.invokedSome invoked
  rw [Registry.active?] at active
  simp [Registry.find, kind, Registry.matchIden, active, unmarked]

theorem plainFound {s : Scan} {t : Token} {m : Registry.Match} {cursor : Cursor}
    (found : s.session.registry.find t s.cursor = (.ok ⟨some m, 0⟩, cursor))
    (expand : ArgumentExpander) :
    (plain expand t).run.run s = (do
      let ts ← replacement expand m.definition m.nameToken
      inSession (·.logReplaced m.nameToken ts)
      prepend ts : ScanM Unit).run.run { s with cursor } := by
  have held : { s with session := logHeld t 0 s.session, cursor } = { s with cursor } := rfl
  rw [plain, runBind, runGet]
  dsimp only
  rw [found]
  dsimp only
  rw [runBind, runSet]
  dsimp only
  rw [liftBlocks, runBind, runPure]
  dsimp only
  rw [runBind, inSession, runModify]
  dsimp only
  rw [held]

theorem plainRuns {r : Registry} {s : Scan} {t : Token} {d : Definition}
    (registry : s.session.registry = r) (invoked : r.invoked? t = some d)
    (expand : ArgumentExpander) :
    (plain expand t).run.run s = (do
      let ts ← replacement expand d t
      inSession (·.logReplaced t ts)
      prepend ts : ScanM Unit).run.run s := by
  subst registry
  exact plainFound (findInvoked invoked s.cursor) expand

theorem plainInvokes {r : Registry} {s s' : Scan} {t : Token} {d : Definition}
    (registry : s.session.registry = r) (invoked : r.invoked? t = some d)
    {expand : ArgumentExpander} {ts : List Token}
    (replaces : (replacement expand d t).run.run s = (.ok ts, s')) :
    (plain expand t).run.run s = (.ok (),
      { s' with session := s'.session.logReplaced t ts, cursor := s'.cursor.prepend ts }) := by
  rw [plainRuns registry invoked, runBind, replaces]
  rfl

theorem replacementOfObject {d : Definition} {t : Token} (name : d.name = t.value)
    (params : d.params = none) (object : d.isCallable = false) (expand : ArgumentExpander)
    (s : Scan) :
    (replacement expand d t).run.run s =
      (.ok (Registry.replaced d t), { s with session := s.session.logCall t d [] }) := by
  have settled (u : Token) : settle #[] d.name t.line u = u.markedBy t.value t.line := by
    simp [settle, isTaken, name]
  unfold replacement
  cases body : d.body with
  | callable transformer =>
    rw [Definition.isCallable, body] at object
    contradiction
  | text value =>
    have marked : textReplacement d t [] #[] value = Registry.replaced d t := by
      simp [textReplacement, settled, params, Registry.replaced, Definition.value, body,
        List.map_eq_flatMap]
    have none : (readArguments d t).run.run s = (.ok ([], #[]), s) := by
      rw [readArguments, params]
      rfl
    have numbered : (numberArguments []).run.run s = (.ok [], s) := rfl
    dsimp only
    rw [runBind, none]
    dsimp only
    rw [runBind, numbered]
    dsimp only
    rw [runBind, inSession, runModify]
    dsimp only
    rw [runPure, marked]

theorem plainInvoked {r : Registry} {rest out : List Token} {s : Scan} {t : Token} {d : Definition}
    (ready : Ready r rest out s) (objects : r.ObjectsOnly) (invoked : r.invoked? t = some d) :
    ∃ s', Ready r (Registry.replaced d t ++ rest) out s' ∧
      ∀ expand, (plain expand t).run.run s = (.ok (), s') := by
  obtain ⟨-, -, active⟩ := Registry.invokedSome invoked
  obtain ⟨name, params, object, -⟩ := objects.objects t.value d active
  have quiet := (Session.logCallQuiet t d [] s.session).trans
    (Session.logTextQuiet ("Replacement = " ++ Text.quoted (Tokens.text (Registry.replaced d t)))
      t.line 1 _)
  have moved : (s.cursor.prepend (Registry.replaced d t)).ahead =
      Registry.replaced d t ++ rest := by
    rw [Cursor.aheadPrepend, ready.ahead]
  refine ⟨_, readyMoved ready quiet moved ready.failure, ?_⟩
  intro expand
  rw [plainRuns ready.registry invoked, runBind, replacementOfObject name params object]
  rfl

theorem invokedRuns {r : Registry} {rest out : List Token} {s : Scan} {t : Token} {d : Definition}
    (ready : Ready r (t :: rest) out s) (objects : r.ObjectsOnly)
    (invoked : r.invoked? t = some d) :
    ∃ s', Ready r (Registry.replaced d t ++ rest) out s' ∧
      ∀ expand, (step expand).run.run s = (.ok false, s') := by
  have taken := readyTaken ready
  obtain ⟨s', after, ran⟩ := plainInvoked taken objects invoked
  refine ⟨s', after, fun expand => ?_⟩
  rw [stepTakes ready.ahead, (Registry.invokedSome invoked).1]
  dsimp only
  rw [runBind, ran]
  rfl

def Scans (r : Registry) (acyclic : r.Acyclic) (t : Token) : Prop :=
  ∀ {rest out s}, Ready r (t :: rest) out s → Scanned r rest out (r.unfolded acyclic t) s

theorem listScans {r : Registry} {acyclic : r.Acyclic} {ts : List Token}
    (each : ∀ t ∈ ts, Scans r acyclic t) {rest out : List Token} {s : Scan}
    (ready : Ready r (ts ++ rest) out s) : Scanned r rest out (r.unfoldedAll acyclic ts) s := by
  induction ts generalizing out s with
  | nil => exact scannedNone ready
  | cons t ts ih =>
    refine scannedThen (each t List.mem_cons_self ready) ?_
    intro s' after
    exact ih (fun u member => each u (List.mem_cons_of_mem _ member)) after

-- The induction is on what a token yields: its replacement is scanned in its place.
theorem tokenScans {r : Registry} (objects : r.ObjectsOnly) (acyclic : r.Acyclic) (t : Token)
    (notEnd : t.kind ≠ .eof) : Scans r acyclic t := by
  induction t using (Registry.yieldsWellFounded acyclic).induction with
  | _ t ih =>
    intro rest out s ready
    cases invoked : r.invoked? t with
    | none =>
      rw [Registry.unfoldedStill acyclic invoked]
      exact passScans ready (stillPasses objects.ops invoked rest) notEnd
    | some d =>
      obtain ⟨s', after, ran⟩ := invokedRuns ready objects invoked
      obtain ⟨-, -, -, endless⟩ := objects.objects t.value d (Registry.invokedSome invoked).2.2
      rw [Registry.unfoldedReplaced acyclic invoked]
      refine scannedAfter (stepReaches ran) (listScans ?_ after)
      intro u member
      refine ih u ⟨d, invoked, member⟩ ?_
      obtain ⟨w, inside, rfl⟩ := List.mem_map.mp member
      exact endless w inside

end Scan

namespace Session
open Tokens

theorem unitUnfolds {s : Session} (objects : s.registry.ObjectsOnly)
    (quiet : ∀ word, s.blocks.handlersFor word = []) (acyclic : s.registry.Acyclic)
    {body ending : List Token} (endless : ∀ t ∈ body, t.kind ≠ .eof)
    (isEnd : ending = [] ∨ ∃ e, ending = [e] ∧ e.kind = .eof) (unitName : Option String) :
    let out := s.registry.unfoldedAll acyclic body
    let last := ending.headD (Scan.missingEnd out.toArray)
    last.kind = .eof ∧ ∃ enough, ∀ steps, enough ≤ steps →
      let answer := (s.expandUnit steps (.tokens (body ++ ending)) unitName).1
      (Balanced out → answer = .ok (out ++ [last])) ∧
      (¬ Balanced out → ∃ e : Error, e.kind = .unbalancedBlock ∧
        answer = .error (.failed e)) := by
  intro out last
  refine ⟨Scan.endKind isEnd _, ?_⟩
  obtain ⟨enough, ends⟩ := unitEnds quiet (.tokens (body ++ ending)) rfl isEnd
    (fun start ready => Scan.listScans
      (fun t member => Scan.tokenScans objects acyclic t (endless t member)) ready)
    (admitsTokens _ unitName s)
  refine ⟨enough, fun steps many => ?_⟩
  obtain ⟨outcome, -⟩ := ends steps many
  refine ⟨outcome.ofBalanced, fun unbalanced => ?_⟩
  obtain ⟨e, t, answer, cause, -⟩ := outcome.ofUnbalanced unbalanced
  exact ⟨e, cause, answer⟩

-- A definition that mentions itself and another one.
theorem unitUnfoldsSelfReference :
    let name (w : String) : Token := ⟨.iden, w, some 1, none, none⟩
    let text (w : String) (ts : List Token) : Definition := ⟨w, none, .text ts, 0, none⟩
    let one : Token := ⟨.number, "1", some 1, none, none⟩
    let r := (({} : Registry).push (text "B" [one])).push (text "A" [name "A", name "B"])
    let out := [(name "A").markedBy "A" (some 1), one.markedBy "B" (some 1)]
    ∃ acyclic : r.Acyclic, r.unfoldedAll acyclic [name "A"] = out ∧
      ∃ enough, ∀ steps, enough ≤ steps →
        (expandUnit steps (.tokens ([name "A"] ++ [])) none { registry := r }).1 =
          .ok (out ++ [.endOfInput (some 1)]) := by
  intro name text one r out
  have active (w : String) : r.active? w = if w = "A" then some (text "A" [name "A", name "B"])
      else if w = "B" then some (text "B" [one]) else none := by
    rw [Registry.activePush (by decide), Registry.activePush (by decide)]
    simp [text, Registry.active?]
  have acyclic : r.Acyclic := by
    refine Registry.acyclicOfRank (fun w => if w = "A" then 1 else 0) ?_
    rintro w other ⟨⟨d, found, t, member, kind, rfl⟩, -, different⟩
    rw [active] at found
    split at found
    · cases found
      rcases List.mem_cons.mp member with rfl | last
      · simp_all [name]
      · simp_all [name, text, Definition.value]
    · split at found
      · cases found
        simp_all [one, text, Definition.value]
      · contradiction
  have objects : r.ObjectsOnly := by
    refine ⟨by decide +kernel, ?_⟩
    intro w d found
    rw [active] at found
    split at found
    · cases found
      simp_all [name, text, Definition.value, Definition.isCallable]
    · split at found
      · cases found
        simp_all [one, text, Definition.value, Definition.isCallable]
      · contradiction
  have unfolds : r.unfoldedAll acyclic [name "A"] = out := by
    have first : r.invoked? (name "A") = some (text "A" [name "A", name "B"]) := by
      simp [Registry.invoked?, name, active]
    have held : r.invoked? ((name "A").markedBy "A" (some 1)) = none := by
      simp [Registry.invoked?, name, Token.markedBy]
    have second : r.invoked? ((name "B").markedBy "A" (some 1)) = some (text "B" [one]) := by
      simp [Registry.invoked?, name, Token.markedBy, active]
    have still : r.invoked? (one.markedBy "B" (some 1)) = none := by
      simp [Registry.invoked?, one, Token.markedBy]
    have inner : r.unfoldedAll acyclic [one.markedBy "B" (some 1)] =
        [one.markedBy "B" (some 1)] := by
      rw [Registry.unfoldedAll, List.flatMap_singleton, Registry.unfoldedStill acyclic still]
    have outer : r.unfoldedAll acyclic [(name "A").markedBy "A" (some 1),
        (name "B").markedBy "A" (some 1)] = out := by
      rw [Registry.unfoldedAll, List.flatMap_cons, List.flatMap_singleton,
        Registry.unfoldedStill acyclic held, Registry.unfoldedReplaced acyclic second]
      exact congrArg ([(name "A").markedBy "A" (some 1)] ++ ·) inner
    rw [Registry.unfoldedAll, List.flatMap_singleton, Registry.unfoldedReplaced acyclic first]
    exact outer
  have unit := @unitUnfolds { registry := r } objects (by simp [Blocks.handlersFor]) acyclic
    [name "A"] [] (by simp [name]) (.inl rfl) none
  rw [unfolds] at unit
  obtain ⟨-, enough, runs⟩ := unit
  exact ⟨acyclic, unfolds, enough, fun steps many => (runs steps many).1 (by decide +kernel)⟩

end Session

end LuaExpander
