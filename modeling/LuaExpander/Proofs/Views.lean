import LuaExpander.Proofs.Identity
import LuaExpander.Proofs.Likeness
import LuaExpander.Proofs.Replacing
import LuaExpander.Proofs.Scoping

/-! Scans of a unit in which keywords have no handlers, seen from outside. A view has all that
decides how such a scan goes on and the text that it has given out; where tokens have been read and
what has been logged are no part of it. One view leads to another if every scan with the one comes
to a scan with the other. -/
namespace LuaExpander

structure View where
  registry : Registry
  contexts : Contexts Value
  depth : Nat
  waiting : Nat → List Handler
  ahead : List Token
  text : String
  finishing : Bool

namespace Scan

def view (s : Scan) : View where
  registry := s.session.registry
  contexts := s.session.contexts
  depth := s.session.blocks.depth
  waiting depth := s.session.blocks.waiting depth
  ahead := s.cursor.ahead.map Token.fresh
  text := Tokens.text s.out.toList
  finishing := s.finishing

structure Calm (s : Scan) : Prop where
  words : ∀ word, s.session.blocks.handlersFor word = []
  failure : s.cursor.failure = none
  unit : s.nested = false

theorem viewAlike {a b : Session} (alike : a.Alike b) (s : Scan) :
    view { s with session := b } = view { s with session := a } := by
  obtain ⟨log, rfl⟩ := alike
  rfl

theorem calmAlike {a b : Session} (alike : a.Alike b) (s : Scan)
    (calm : Calm { s with session := a }) : Calm { s with session := b } := by
  obtain ⟨log, rfl⟩ := alike
  exact ⟨calm.words, calm.failure, calm.unit⟩

end Scan

namespace Session

theorem logRestoredAlike (name : String) (s : Session) : s.Alike (s.logRestored name) := by
  unfold logRestored
  split <;> exact logTextAlike _ _ _ s

theorem restoreAlike (name : String) (height : Nat) (s : Session) :
    Alike { s with registry := s.registry.restore name height } (s.restore name height) := by
  unfold restore
  split
  · exact logRestoredAlike name _
  · rename_i undefined
    have absent : s.registry.stack? name = none := by
      simpa [Registry.isDefined] using undefined
    rw [Registry.restore, absent]
    exact .refl s

theorem logBlockAlike (t : Token) (verb : String) (fired : Nat) (s : Session) :
    s.Alike (s.logBlock t verb fired) := logTextAlike _ _ _ s

theorem restoresRun {t : Token} {handlers : List Handler} {f : Frame}
    (restores : ∀ h ∈ handlers, ∃ subject height, h = .restore subject height) :
    ∃ s, Scan.runHandlers t handlers f = (.ok [], { f with session := s }) ∧
      Alike { f.session with registry := handlers.foldl cut f.session.registry } s := by
  induction handlers generalizing f with
  | nil => exact ⟨f.session, rfl, .refl _⟩
  | cons h hs ih =>
    obtain ⟨⟨subject, height, rfl⟩, later⟩ := List.forall_mem_cons.mp restores
    obtain ⟨log, restored⟩ := restoreAlike subject height f.session
    obtain ⟨s, ran, alike⟩ := @ih { f with session := f.session.restore subject height } later
    refine ⟨s, ?_, ?_⟩
    · rw [Scan.runHandlers, Scan.runHandler]
      dsimp only
      rw [ran]
      rfl
    · dsimp only at alike
      rw [restored] at alike
      exact .trans ⟨log, rfl⟩ alike

end Session

namespace View
open Scan

def Leads (v w : View) : Prop :=
  ∀ s : Scan, s.Calm → s.view = v → ∃ s' : Scan, Reaches s s' ∧ s'.Calm ∧ s'.view = w

namespace Leads

theorem refl (v : View) : Leads v v := fun s calm seen => ⟨s, ⟨0, fun _ => rfl⟩, calm, seen⟩

theorem trans {u v w : View} (first : Leads u v) (second : Leads v w) : Leads u w := by
  intro s calm seen
  obtain ⟨between, reaches, calm, seen⟩ := first s calm seen
  obtain ⟨last, further, calm, seen⟩ := second between calm seen
  exact ⟨last, reachesTrans reaches further, calm, seen⟩

end Leads

variable {v w : View} {t : Token} {rest : List Token}

/- It is enough to look at a scan whose next token has just been taken. -/
theorem leadsTaking (ahead : v.ahead = t :: rest)
    (goes : ∀ (s : Scan) (u : Token), s.Calm → u.fresh = t →
      v = { s.view with ahead := u.fresh :: s.view.ahead } →
      ∃ s', s'.Calm ∧ s'.view = w ∧ ∀ expand,
        (match u.kind with
          | .eof => atEnd u
          | .keyword => do
            keyword u
            return false
          | _ => do
            plain expand u
            return false).run.run s = (.ok false, s')) : Leads v w := by
  rintro s calm rfl
  obtain ⟨u, us, split, same, rfl⟩ := List.map_eq_cons_iff.mp ahead
  obtain ⟨s', after, seen, ran⟩ := goes
    { s with cursor := s.cursor.drop 1 } u
    ⟨calm.words, by rw [Cursor.failureDrop, calm.failure], calm.unit⟩ same (by simp [view, split])
  refine ⟨s', stepReaches fun expand => ?_, after, seen⟩
  rw [stepTakes split]
  exact ran expand

theorem textPush (out : Array Token) (t : Token) :
    Tokens.text (out.push t).toList = Tokens.text out.toList ++ t.value := by
  rw [Array.toList_push, Tokens.textAppend, Tokens.textCons]
  simp [Tokens.text]

theorem leadsPlain (ahead : v.ahead = t :: rest) (notEnd : t.kind ≠ .eof)
    (notKeyword : t.kind ≠ .keyword)
    (goes : ∀ (s : Scan) (u : Token), s.Calm → u.fresh = t →
      v = { s.view with ahead := u.fresh :: s.view.ahead } →
      ∃ s', s'.Calm ∧ s'.view = w ∧ ∀ expand, (plain expand u).run.run s = (.ok (), s')) :
    Leads v w := by
  refine leadsTaking ahead fun s u calm same here => ?_
  obtain ⟨s', after, seen, ran⟩ := goes s u calm same here
  refine ⟨s', after, seen, fun expand => ?_⟩
  subst same
  split
  · contradiction
  · contradiction
  · rw [runBind, ran]
    rfl

theorem leadsPass (ahead : v.ahead = t :: rest) (notEnd : t.kind ≠ .eof)
    (notKeyword : t.kind ≠ .keyword)
    (passes : ∀ (u : Token) more, u.fresh = t → v.registry.Passes u more) :
    Leads v { v with ahead := rest, text := v.text ++ t.value } := by
  refine leadsPlain ahead notEnd notKeyword fun s u calm same here => ?_
  subst here
  obtain ⟨rfl, rfl⟩ := List.cons_eq_cons.mp ahead
  obtain ⟨held, cursor, found, kept, still⟩ := passes u s.cursor.ahead rfl s.cursor rfl calm.failure
  obtain ⟨log, logged⟩ := logHeldAlike u held s.session
  refine ⟨{ s with session := logHeld u held s.session, cursor, out := s.out.push u },
    ⟨by rw [logged]; exact calm.words, still, calm.unit⟩, ?_, fun expand => ?_⟩
  · simp only [view, textPush, kept, logged]
    rfl
  · have found : s.session.registry.find u s.cursor = _ := found
    rw [plain, runBind, runGet]
    dsimp only
    rw [found]
    rfl

theorem leadsWord (ahead : v.ahead = t :: rest) (isKeyword : t.kind = .keyword)
    (goes : ∀ (s : Scan) (u : Token), s.Calm → u.fresh = t →
      v = { s.view with ahead := u.fresh :: s.view.ahead } →
      ∃ s', s'.Calm ∧ s'.view = w ∧
        (if u.opensBlock then openBlock u else if u.closesBlock then closeBlock u
          else fireKeyword u.value u).run.run { s with out := s.out.push u } = (.ok (), s')) :
    Leads v w := by
  refine leadsTaking ahead fun s u calm same here => ?_
  obtain ⟨s', after, seen, ran⟩ := goes s u calm same here
  subst same
  have isKeyword : u.kind = .keyword := isKeyword
  refine ⟨s', after, seen, fun expand => ?_⟩
  rw [isKeyword]
  dsimp only
  rw [runBind, keywordOfUnit u calm.unit, ran]
  rfl

theorem leadsInert (ahead : v.ahead = t :: rest) (isKeyword : t.kind = .keyword)
    (noOpener : t.opensBlock = false) (noCloser : t.closesBlock = false) :
    Leads v { v with ahead := rest, text := v.text ++ t.value } := by
  refine leadsWord ahead isKeyword fun s u calm same here => ?_
  subst here
  obtain ⟨rfl, rfl⟩ := List.cons_eq_cons.mp ahead
  have noOpener : u.opensBlock = false := noOpener
  have noCloser : u.closesBlock = false := noCloser
  refine ⟨{ s with out := s.out.push u }, ⟨calm.words, calm.failure, calm.unit⟩, ?_, ?_⟩
  · simp only [view, textPush]
    rfl
  · rw [if_neg (by simp [noOpener]), if_neg (by simp [noCloser])]
    exact fireKeywordNone (calm.words _)

theorem leadsOpen (ahead : v.ahead = t :: rest) (opener : t.opensBlock = true) :
    Leads v { v with ahead := rest, text := v.text ++ t.value, depth := v.depth + 1 } := by
  refine leadsWord ahead (Tokens.opensKeyword opener) fun s u calm same here => ?_
  subst here
  obtain ⟨rfl, rfl⟩ := List.cons_eq_cons.mp ahead
  have opener : u.opensBlock = true := opener
  have alike : Session.Alike { s.session with blocks := s.session.blocks.enter }
      (s.session.enterBlock u) := Session.logBlockAlike u "Open" 0 _
  have after : Calm { s with session := s.session.enterBlock u, out := s.out.push u } :=
    calmAlike alike { s with out := s.out.push u } ⟨calm.words, calm.failure, calm.unit⟩
  refine ⟨{ s with session := s.session.enterBlock u, out := s.out.push u }, after, ?_, ?_⟩
  · rw [viewAlike alike { s with out := s.out.push u }]
    simp only [view, textPush]
    rfl
  · rw [if_pos opener, openBlock, runBind, inSession, runModify]
    exact fireKeywordNone (after.words _)

/- A block ends in which nothing waits but ends of scopes. -/
theorem leadsClose (ahead : v.ahead = t :: rest) (closer : t.closesBlock = true) {outer : Nat}
    (inside : v.depth = outer + 1)
    (restores : ∀ h ∈ v.waiting v.depth, ∃ subject height, h = .restore subject height) :
    Leads v { v with
      ahead := rest
      text := v.text ++ t.value
      depth := outer
      waiting := fun d => if d = v.depth then [] else v.waiting d
      registry := (v.waiting v.depth).reverse.foldl Session.cut v.registry } := by
  refine leadsWord ahead (Tokens.closesKeyword closer) fun s u calm same here => ?_
  subst here
  obtain ⟨rfl, rfl⟩ := List.cons_eq_cons.mp ahead
  have closer : u.closesBlock = true := closer
  have noOpener := Tokens.closesNotOpens closer
  have inside : s.session.blocks.depth = outer + 1 := inside
  let due := s.session.blocks.waiting s.session.blocks.depth
  let blocks : Blocks Handler := { s.session.blocks with
    depth := outer
    deferred := s.session.blocks.deferred.erase s.session.blocks.depth }
  obtain ⟨log, left⟩ : ∃ log, s.session.leaveBlock u =
      .ok (due.reverse, { s.session with blocks, log }) := by
    have inner : s.session.blocks.leave u = .ok (due.reverse, blocks) := by
      simp only [Blocks.leave, due, blocks, inside]
    obtain ⟨log, logged⟩ := Session.logBlockAlike u "Close" due.reverse.length s.session
    refine ⟨log, ?_⟩
    rw [Session.leaveBlock, inner]
    dsimp only [bind, Except.bind, pure, Except.pure]
    rw [logged]
  let vacated : Session := { s.session with blocks, log }
  obtain ⟨session, ran, alike⟩ := @Session.restoresRun u due.reverse { session := vacated }
    fun h member => restores h (List.mem_reverse.mp member)
  have fired : (fireDeferred due.reverse u).run.run
      { s with session := vacated, out := s.out.push u } =
        (.ok (), { s with session, cursor := s.cursor.prepend [], out := s.out.push u }) := by
    rw [fireDeferred, fire, runBind, runGet]
    dsimp only
    rw [if_neg (by simp), ran]
    rfl
  have after : Calm { s with session, cursor := s.cursor.prepend [], out := s.out.push u } :=
    calmAlike alike { s with cursor := s.cursor.prepend [], out := s.out.push u }
      ⟨calm.words, calm.failure, calm.unit⟩
  refine ⟨_, after, ?_, ?_⟩
  · rw [viewAlike alike { s with cursor := s.cursor.prepend [], out := s.out.push u }]
    have waits (d : Nat) : blocks.waiting d =
        if d = s.session.blocks.depth then [] else s.session.blocks.waiting d :=
      Blocks.waitingErase s.session.blocks s.session.blocks.depth d outer
    simp only [view, textPush, vacated, waits]
    rfl
  · rw [if_neg (by simp [noOpener]), if_pos closer, closeBlock, runBind, runGet]
    dsimp only
    rw [left, runBind, liftBlocks, runPure]
    dsimp only
    rw [runBind, inSession, runModify]
    dsimp only
    rw [runBind, fired]
    exact fireKeywordNone (after.words _)

theorem freshReplaced (d : Definition) (t : Token) :
    (Registry.replaced d t).map Token.fresh = Registry.replaced d t.fresh := by
  simp [Registry.replaced, Function.comp_def, Token.markedBy, Token.fresh]

theorem leadsName {d : Definition} (ahead : v.ahead = t :: rest)
    (invoked : v.registry.invoked? t = some d) (name : d.name = t.value) (params : d.params = none)
    (object : d.isCallable = false) :
    Leads v { v with ahead := Registry.replaced d t ++ rest } := by
  have isIden := (Registry.invokedSome invoked).1
  refine leadsPlain ahead (by simp [isIden]) (by simp [isIden]) fun s u calm same here => ?_
  subst here
  obtain ⟨rfl, rfl⟩ := List.cons_eq_cons.mp ahead
  have invoked : s.session.registry.invoked? u = some d := invoked
  have name : d.name = u.value := name
  have alike : s.session.Alike
      ((s.session.logCall u d []).logReplaced u (Registry.replaced d u)) :=
    (Session.logCallAlike u d [] s.session).trans (Session.logTextAlike _ _ _ _)
  refine ⟨{ s with
    session := (s.session.logCall u d []).logReplaced u (Registry.replaced d u)
    cursor := s.cursor.prepend (Registry.replaced d u) }, ?_, ?_, fun expand => ?_⟩
  · exact calmAlike alike { s with cursor := s.cursor.prepend (Registry.replaced d u) }
      ⟨calm.words, calm.failure, calm.unit⟩
  · rw [viewAlike alike { s with cursor := s.cursor.prepend (Registry.replaced d u) }]
    simp only [view, Cursor.aheadPrepend, List.map_append, freshReplaced]
  · exact plainInvokes rfl invoked (replacementOfObject name params object expand s)

theorem freshNumbered (numbering place : Nat) (ts : List Token) :
    (Tokens.numberAt numbering place ts).map Token.fresh = ts.map Token.fresh := by
  induction ts generalizing place with
  | nil => rfl
  | cons t ts ih =>
    have later := ih (place + 1)
    rcases t with ⟨kind, value, line, mark, _ | serial⟩ <;> exact congrArg (List.cons _) later

/- A transformer without parameters reads on in the tokens to come, which are numbered then. -/
theorem leadsCall {d : Definition} {transformer : Transformer} (ahead : v.ahead = t :: rest)
    (invoked : v.registry.invoked? t = some d) (params : d.params = none)
    (body : d.body = .callable transformer)
    (calls : ∀ (s : Scan) (u : Token), s.Calm → u.fresh = t →
      v = { s.view with ahead := u.fresh :: s.view.ahead } →
      (∀ x ∈ s.cursor.ahead, x.serial ≠ none) →
      ∃ b session reader,
        (transformer.run (.bare u)).run
          { session := s.session, reader := some { cursor := s.cursor, origin := some u } } =
            (.ok (.nothing, b), { session, reader := some reader }) ∧
        let ts := b.toTokens.map (settle reader.taken d.name u.line)
        Calm { s with session, cursor := reader.cursor.prepend ts } ∧
          view { s with session, cursor := reader.cursor.prepend ts } = w) : Leads v w := by
  have isIden := (Registry.invokedSome invoked).1
  refine leadsPlain ahead (by simp [isIden]) (by simp [isIden]) fun s u calm same here => ?_
  let numbered : Scan :=
    { s with cursor := (s.cursor.number s.session.fresh).1
             session.fresh := (s.cursor.number s.session.fresh).2 }
  let called : Scan := { numbered with session := numbered.session.logCall u d [] }
  have alike := Session.logCallAlike u d [] numbered.session
  have still : called.view = s.view := by
    rw [viewAlike alike numbered]
    simp only [view, numbered, Cursor.aheadNumber, freshNumbered]
  obtain ⟨b, session, reader, ran, after, seen⟩ := calls called u
    (calmAlike alike numbered ⟨calm.words, by rw [Cursor.failureNumber, calm.failure], calm.unit⟩)
    same (by rw [still]; exact here)
    (by simpa only [called, numbered, Cursor.aheadNumber] using Tokens.numberAtNumbers)
  subst here
  obtain ⟨rfl, rfl⟩ := List.cons_eq_cons.mp ahead
  have invoked : s.session.registry.invoked? u = some d := invoked
  let ts := b.toTokens.map (settle reader.taken d.name u.line)
  have bare : d.isFunction = false := by simp [Definition.isFunction, params]
  have replaces (expand : ArgumentExpander) : (replacement expand d u).run.run s =
      (.ok ts, { s with session, cursor := reader.cursor }) := by
    have answered : (callResult d (.nothing, b)).toTokens = .ok b.toTokens := by
      simp only [callResult, bare, Bool.false_eq_true, if_false]
      rfl
    rw [bareReplaces params body, show calling d u s = called from rfl, bareCalls params ran]
    simp only [bind, Except.bind, answered]
    rfl
  have alike : session.Alike (session.logReplaced u ts) := Session.logTextAlike _ _ _ session
  refine ⟨{ s with session := session.logReplaced u ts, cursor := reader.cursor.prepend ts },
    ?_, ?_, fun expand => plainInvokes rfl invoked (replaces expand)⟩
  · exact calmAlike alike { s with cursor := reader.cursor.prepend ts } after
  · rw [viewAlike alike { s with cursor := reader.cursor.prepend ts }]
    exact seen

/- The beginning of a unit with these tokens. -/
def start (r : Registry) (ahead : List Token) : View where
  registry := r
  contexts := .empty
  depth := 0
  waiting _ := []
  ahead := ahead
  text := ""
  finishing := false

theorem startSeen {s : Session} (silent : ∀ word, s.blocks.handlersFor word = []) {source : Source}
    (failure : source.cursor.failure = none) (unitName : Option String) :
    (s.unitStart source unitName).Calm ∧
      (s.unitStart source unitName).view =
        start s.registry (source.cursor.ahead.map Token.fresh) := by
  let entered := s.enterUnit (source.title unitName)
  have alike : entered.Alike (s.beginUnit (source.title unitName)) := Session.logTextAlike _ _ _ _
  have calm : Calm { session := entered, cursor := source.cursor } := ⟨silent, failure, rfl⟩
  refine ⟨calmAlike alike { session := entered, cursor := source.cursor } calm, ?_⟩
  rw [Session.unitStart, viewAlike alike { session := entered, cursor := source.cursor }]
  have none (depth : Nat) : entered.blocks.waiting depth = [] :=
    Blocks.waitingReset s.blocks depth
  simp only [view, none, start]
  rfl

theorem unitLeads {s : Session} (silent : ∀ word, s.blocks.handlersFor word = []) {source : Source}
    (failure : source.cursor.failure = none)
    (leads : Leads (start s.registry (source.cursor.ahead.map Token.fresh)) w)
    (outside : w.depth = 0) (waiting : ∀ depth, w.waiting depth = [])
    (unfinished : w.finishing = false)
    (isEnd : w.ahead = [] ∨ ∃ e, w.ahead = [e] ∧ e.kind = .eof ∧ e.value = "")
    {unitName : Option String} (admits : s.Admits source unitName) :
    ∃ enough, ∀ steps, enough ≤ steps →
      ∃ ts after, s.expandUnit steps source unitName = (.ok ts, after) ∧
        Tokens.text ts = w.text ∧ after.registry = w.registry ∧ after.contexts = w.contexts ∧
        after.blocks.depth = 0 := by
  obtain ⟨calm, seen⟩ := startSeen silent failure unitName
  obtain ⟨cursor, same, still, begun⟩ := beginMoves (calm.words "BEGIN") calm.failure
  obtain ⟨last, ⟨k, reaches⟩, lastCalm, rfl⟩ := leads
    { s.unitStart source unitName with cursor } ⟨calm.words, still, calm.unit⟩
    (by rw [← seen]; simp only [view, same])
  have whole (steps : Nat) : Scan.unit steps (s.unitStart source unitName) =
      run steps { s.unitStart source unitName with cursor } := by
    rw [Scan.unit, begun]
  obtain ⟨e, kind, value, met⟩ : ∃ e : Token, e.kind = .eof ∧ e.value = "" ∧
      (last.cursor.ahead = [] ∧ e = missingEnd last.out ∨ last.cursor.ahead = [e]) := by
    rcases isEnd with none | ⟨e, one, kind, value⟩
    · exact ⟨missingEnd last.out, rfl, rfl, .inl ⟨List.map_eq_nil_iff.mp none, rfl⟩⟩
    · obtain ⟨u, only, rfl⟩ := List.map_eq_singleton_iff.mp one
      exact ⟨u, kind, value, .inr only⟩
  obtain ⟨final, blocks, session, checked, returns⟩ := endCompletes rfl lastCalm.failure
    lastCalm.unit kind met lastCalm.words waiting unfinished outside
  refine ⟨2 + k, fun steps many => ?_⟩
  have ran : Scan.unit steps (s.unitStart source unitName) =
      (.ok (last.out.toList ++ [e]), final) := by
    rw [whole, ← Nat.sub_add_cancel many, ← Nat.add_assoc, reaches, returns]
  refine ⟨last.out.toList ++ [e], { final.session with
    lexerLine := final.cursor.unread.lineReached final.session.lexerLine }, ?_, ?_, ?_⟩
  · rw [Session.expandUnitAdmitted admits, ran]
    rfl
  · rw [Tokens.textAppend, Tokens.textCons, value]
    exact String.append_empty
  · rw [session]
    exact ⟨rfl, rfl, ((Blocks.checkFinishedOk e blocks).mp checked).1⟩

end View

end LuaExpander
