import LuaExpander.Proofs.Drawing
import LuaExpander.Proofs.Lasting

/-! What the parts of a scan do when they succeed. An invariant of sessions that every change made
by a program keeps, and that survives the firing of handlers, is kept by every step that does not
enter or leave a block; so it is kept by the whole scan of an argument, where blocks are not
tracked. -/
namespace LuaExpander

namespace Scan

structure Framed (s s' : Scan) : Prop where
  out : s'.out = s.out
  nested : s'.nested = s.nested
  finishing : s'.finishing = s.finishing

namespace Framed

theorem refl (s : Scan) : Framed s s := ⟨rfl, rfl, rfl⟩

theorem trans {a b c : Scan} (first : Framed a b) (second : Framed b c) : Framed a c :=
  ⟨second.out.trans first.out, second.nested.trans first.nested,
    second.finishing.trans first.finishing⟩

end Framed

theorem numberSucceeds {s s' : Scan} (ran : number.run.run s = (.ok (), s')) :
    Framed s s' ∧ Session.Quiet s.session s'.session := by
  cases ran
  exact ⟨⟨rfl, rfl, rfl⟩, rfl, rfl⟩

theorem liftSucceeds {α : Type} {answer : Except Error α} {s s' : Scan} {a : α}
    (ran : (liftBlocks answer).run.run s = (.ok a, s')) : answer = .ok a ∧ s' = s := by
  cases answer with
  | error e => cases ran
  | ok b => cases ran; exact ⟨rfl, rfl⟩

theorem nextSucceeds {s s' : Scan} {t : Option Token}
    (ran : nextToken.run.run s = (.ok t, s')) :
    ∃ cursor, s.cursor.next = (.ok t, cursor) ∧ s' = { s with cursor } := by
  rw [nextToken, runBind, runGet] at ran
  rcases taken : s.cursor.next with ⟨e | u, cursor⟩
  · simp only [taken] at ran
    cases ran
  · simp only [taken] at ran
    cases ran
    exact ⟨cursor, rfl, rfl⟩

theorem runHandlerKeeps {holds} (inv : Session.Invariant holds) {due : List Handler} {h t f ts f'}
    (ran : runHandler h t f = (.ok ts, f')) (before : holds (h :: due) f.session) :
    holds due f'.session := by
  cases h with
  | restore subject height =>
    cases ran
    exact inv.restored before
  | program name run =>
    have kept := Program.runKeeps inv (run t) f (inv.fired before)
    unfold runHandler at ran
    rcases answered : (run t).run f with ⟨answer, g⟩
    rw [answered] at kept
    simp only [answered] at ran
    split at ran <;> cases ran
    exact kept

theorem runHandlersKeeps {holds} (inv : Session.Invariant holds) {due : List Handler}
    {t handlers f ts f'} (ran : runHandlers t handlers f = (.ok ts, f'))
    (before : holds (handlers ++ due) f.session) : holds due f'.session := by
  induction handlers generalizing f ts with
  | nil =>
    cases ran
    exact before
  | cons h hs ih =>
    unfold runHandlers at ran
    rcases first : runHandler h t f with ⟨e | here, between⟩
    · simp [first] at ran
    · rcases later : runHandlers t hs between with ⟨e | more, after⟩
      · simp [first, later] at ran
      · simp only [first, later, Prod.mk.injEq, Except.ok.injEq] at ran
        obtain ⟨-, rfl⟩ := ran
        exact ih later (runHandlerKeeps inv first before)

theorem fireSucceeds {handlers t reads s s'}
    (ran : (fire handlers t reads).run.run s = (.ok (), s')) :
    ∃ ts f, runHandlers t handlers
        { session := s.session
          reader := if reads then some { cursor := s.cursor, origin := some t } else none }
          = (.ok ts, f) ∧
      s' = { s with session := f.session,
                    cursor := ((f.reader.map (·.cursor)).getD s.cursor).prepend ts } := by
  rw [fire, runBind, runGet] at ran
  dsimp only at ran
  rw [runBind, runSet] at ran
  dsimp only at ran
  rcases answered : runHandlers t handlers _ with ⟨e | ts, f⟩
  · rw [answered] at ran
    cases ran
  · rw [answered] at ran
    cases ran
    exact ⟨ts, f, rfl, rfl⟩

theorem fireKeeps {holds} (inv : Session.Invariant holds) {due : List Handler}
    {handlers t reads s s'} (ran : (fire handlers t reads).run.run s = (.ok (), s'))
    (before : holds (handlers ++ due) s.session) : holds due s'.session ∧ Framed s s' := by
  obtain ⟨ts, f, answered, rfl⟩ := fireSucceeds ran
  exact ⟨runHandlersKeeps inv answered before, rfl, rfl, rfl⟩

theorem fireKeywordKeeps {holds} (inv : Session.Invariant holds) {due : List Handler} {word t s s'}
    (ran : (fireKeyword word t).run.run s = (.ok (), s')) (before : holds due s.session) :
    holds due s'.session ∧ Framed s s' := by
  rw [fireKeyword, runBind, runGet] at ran
  dsimp only at ran
  split at ran
  · cases ran
    exact ⟨before, .refl s⟩
  · obtain ⟨⟨⟩, numbered, hn, rest⟩ := bindSucceeds ran
    obtain ⟨framed, quiet⟩ := numberSucceeds hn
    have kept := fireKeeps inv rest (inv.also (inv.change (.quiet quiet) before))
    exact ⟨kept.1, framed.trans kept.2⟩

def Keeps (holds : List Handler → Session → Prop) (expand : ArgumentExpander) : Prop :=
  ∀ {arg ts s s'}, expand arg s = (.ok ts, s') → holds [] s → holds [] s'

/- The arguments of a name, and the tokens that are read for them. -/
inductive Gathered (d : Definition) (nameToken : Token) (s : Scan) :
    List (List Token) → Array Token → Scan → Prop where
  | bare (object : d.params = none) : Gathered d nameToken s [] #[] s
  | applied {params args reader} (function : d.params = some params)
      (read : (d.readArguments params nameToken).run.run
        { cursor := s.cursor, origin := some nameToken } = (.ok args, reader)) :
      Gathered d nameToken s args reader.taken { s with cursor := reader.cursor }

theorem readArgumentsSucceeds {d nameToken s args taken s'}
    (ran : (readArguments d nameToken).run.run s = (.ok (args, taken), s')) :
    Gathered d nameToken s args taken s' := by
  unfold readArguments at ran
  cases params : d.params with
  | none =>
    rw [params] at ran
    cases ran
    exact .bare params
  | some ps =>
    rw [params] at ran
    dsimp only at ran
    rw [runBind, runGet] at ran
    dsimp only at ran
    rcases read : (d.readArguments ps nameToken).run.run
      { cursor := s.cursor, origin := some nameToken } with ⟨f | found, reader⟩
    · rw [read] at ran
      cases ran
    · rw [read] at ran
      cases ran
      exact .applied params read

theorem gatheredFramed {d nameToken s args taken s'}
    (gathered : Gathered d nameToken s args taken s') :
    Framed s s' ∧ s'.session = s.session := by
  cases gathered with
  | bare => exact ⟨.refl s, rfl⟩
  | applied => exact ⟨⟨rfl, rfl, rfl⟩, rfl⟩

theorem expandArgumentsSucceeds {expand : ArgumentExpander} {arg rest s expanded s'}
    (ran : (expandArguments expand (arg :: rest)).run.run s = (.ok expanded, s')) :
    ∃ ts session more, expand arg s.session = (.ok ts, session) ∧
      (expandArguments expand rest).run.run { s with session } = (.ok more, s') ∧
      expanded = ts :: more := by
  rw [expandArguments, runBind, runGet] at ran
  dsimp only at ran
  rw [runBind, runSet] at ran
  dsimp only at ran
  rcases answered : expand arg s.session with ⟨e | ts, session⟩
  · rw [answered] at ran
    cases ran
  · rw [answered] at ran
    dsimp only at ran
    obtain ⟨more, between, later, ran⟩ := bindSucceeds ran
    cases ran
    exact ⟨ts, session, more, rfl, later, rfl⟩

theorem expandArgumentsKeeps {holds} {expand : ArgumentExpander} (keeps : Keeps holds expand)
    {args s expanded s'} (ran : (expandArguments expand args).run.run s = (.ok expanded, s'))
    (before : holds [] s.session) : holds [] s'.session ∧ Framed s s' := by
  induction args generalizing s expanded s' with
  | nil =>
    cases ran
    exact ⟨before, .refl s⟩
  | cons arg rest ih =>
    obtain ⟨ts, session, more, answered, later, rfl⟩ := expandArgumentsSucceeds ran
    obtain ⟨after, framed⟩ := ih later (keeps answered before)
    exact ⟨after, framed.out, framed.nested, framed.finishing⟩

theorem callAnswered {d : Definition} {t : Transformer} {nameToken : Token}
    {args : List (List Token)} {taken : Array Token} {s s' : Scan} {ts : List Token}
    (ran : (callTransformer d t nameToken args taken).run.run s = (.ok ts, s')) :
    ∃ r f given,
      (t.run (if d.isFunction then .applied args else .bare nameToken)).run
        { session := s.session
          reader := if d.isFunction then none
            else some { cursor := s.cursor, origin := some nameToken } } = (.ok r, f) ∧
      (callResult d r).toTokens = .ok given ∧
      ts = given.map (settle ((f.reader.map (·.taken)).getD taken) d.name nameToken.line) ∧
      s' = { s with session := f.session, cursor := (f.reader.map (·.cursor)).getD s.cursor } := by
  rw [callTransformer, runBind, runGet] at ran
  dsimp only at ran
  rw [runBind, runSet] at ran
  dsimp only at ran
  rcases answered : (t.run (if d.isFunction then .applied args else .bare nameToken)).run
      { session := s.session
        reader := if d.isFunction then none
          else some { cursor := s.cursor, origin := some nameToken } } with ⟨e | r, f⟩
  · rw [answered] at ran
    cases ran
  · rw [answered] at ran
    dsimp only at ran
    cases tokens : (callResult d r).toTokens with
    | error e =>
      simp only [bind, Except.bind, tokens] at ran
      cases ran
    | ok given =>
      simp only [bind, Except.bind, tokens] at ran
      cases ran
      exact ⟨r, f, given, rfl, tokens, rfl, rfl⟩

theorem callTransformerKeeps {holds} (inv : Session.Invariant holds)
    {d t nameToken args taken s ts s'}
    (ran : (callTransformer d t nameToken args taken).run.run s = (.ok ts, s'))
    (before : holds [] s.session) : holds [] s'.session ∧ Framed s s' := by
  obtain ⟨r, f, given, answered, -, -, rfl⟩ := callAnswered ran
  have kept := Program.runKeeps inv
    (t.run (if d.isFunction then .applied args else .bare nameToken))
    { session := s.session
      reader := if d.isFunction then none
        else some { cursor := s.cursor, origin := some nameToken } }
    before
  rw [answered] at kept
  exact ⟨kept, rfl, rfl, rfl⟩

/- How a name comes to its replacement: a text takes the arguments as they are written, with numbers
on their tokens, and a transformer is run on them once each is expanded. -/
inductive Replaces (expand : ArgumentExpander) (d : Definition) (nameToken : Token) (s : Scan) :
    List Token → Scan → Prop where
  | text {value args taken read} (body : d.body = .text value)
      (gathered : Gathered d nameToken s args taken read) :
      Replaces expand d nameToken s (textReplacement d nameToken (read.copies args) taken value)
        { read with
          session := (read.counting args).session.logCall nameToken d (read.copies args) }
  | call {t numbered args taken read expanded between ts s'} (body : d.body = .callable t)
      (numbers : number.run.run s = (.ok (), numbered))
      (gathered : Gathered d nameToken numbered args taken read)
      (expands : (expandArguments expand args).run.run read = (.ok expanded, between))
      (called : (callTransformer d t nameToken expanded taken).run.run
        { between with session := between.session.logCall nameToken d expanded } = (.ok ts, s')) :
      Replaces expand d nameToken s ts s'

theorem replacementSucceeds {expand d nameToken s ts s'}
    (ran : (replacement expand d nameToken).run.run s = (.ok ts, s')) :
    Replaces expand d nameToken s ts s' := by
  unfold replacement at ran
  cases body : d.body with
  | text value =>
    rw [body] at ran
    obtain ⟨⟨args, taken⟩, read, hr, ran⟩ := bindSucceeds ran
    obtain ⟨copies, counted, hc, ran⟩ := bindSucceeds ran
    rw [numberArgumentsRuns] at hc
    cases hc
    obtain ⟨⟨⟩, logged, hl, ran⟩ := bindSucceeds ran
    cases hl
    cases ran
    exact .text body (readArgumentsSucceeds hr)
  | callable t =>
    rw [body] at ran
    obtain ⟨⟨⟩, numbered, hn, ran⟩ := bindSucceeds ran
    obtain ⟨⟨args, taken⟩, read, hr, ran⟩ := bindSucceeds ran
    obtain ⟨expanded, between, he, ran⟩ := bindSucceeds ran
    obtain ⟨⟨⟩, logged, hl, ran⟩ := bindSucceeds ran
    cases hl
    exact .call body hn (readArgumentsSucceeds hr) he ran

theorem replacementText {expand d value nameToken s ts s'} (body : d.body = .text value)
    (ran : (replacement expand d nameToken).run.run s = (.ok ts, s')) :
    ∃ args taken read, Gathered d nameToken s args taken read ∧
      ts = textReplacement d nameToken (read.copies args) taken value ∧
      s' = { read with
        session := (read.counting args).session.logCall nameToken d (read.copies args) } := by
  cases replacementSucceeds ran with
  | text isText gathered =>
    cases body.symm.trans isText
    exact ⟨_, _, _, gathered, rfl, rfl⟩
  | call isCall =>
    rw [body] at isCall
    contradiction

theorem replacementKeeps {holds} (inv : Session.Invariant holds) {expand : ArgumentExpander}
    (keeps : Keeps holds expand) {d nameToken s ts s'}
    (ran : (replacement expand d nameToken).run.run s = (.ok ts, s'))
    (before : holds [] s.session) : holds [] s'.session ∧ Framed s s' := by
  cases replacementSucceeds ran with
  | @text value args taken read body gathered =>
    obtain ⟨framed, session⟩ := gatheredFramed gathered
    have counted : Session.Quiet s.session (read.counting args).session :=
      ⟨congrArg (·.registry) session, congrArg (·.blocks) session⟩
    have quiet := counted.trans (Session.logCallQuiet nameToken d (read.copies args) _)
    exact ⟨inv.change (.quiet quiet) before, framed.out, framed.nested, framed.finishing⟩
  | @call t numbered args taken read expanded between _ _ body numbers gathered expands called =>
    obtain ⟨framedNumber, quietNumber⟩ := numberSucceeds numbers
    obtain ⟨framedRead, sessionRead⟩ := gatheredFramed gathered
    have holdsRead : holds [] read.session := by
      rw [sessionRead]
      exact inv.change (.quiet quietNumber) before
    obtain ⟨holdsExpanded, framedExpanded⟩ := expandArgumentsKeeps keeps expands holdsRead
    have quiet := Session.logCallQuiet nameToken d expanded between.session
    obtain ⟨after, framedCall⟩ :=
      callTransformerKeeps inv called (inv.change (.quiet quiet) holdsExpanded)
    have framed := framedNumber.trans (framedRead.trans framedExpanded)
    exact ⟨after, framedCall.out.trans framed.out, framedCall.nested.trans framed.nested,
      framedCall.finishing.trans framed.finishing⟩

theorem logHeldFresh (t : Token) (n : Nat) (s : Session) : (logHeld t n s).fresh = s.fresh := by
  induction n generalizing s with
  | zero => rfl
  | succ n ih => exact (ih _).trans (Session.logTextFresh _ _ _ s)

theorem logHeldQuiet (t : Token) (n : Nat) (s : Session) : Session.Quiet s (logHeld t n s) := by
  induction n generalizing s with
  | zero => exact .refl s
  | succ n ih => exact (Session.logTextQuiet _ _ _ s).trans (ih _)

inductive Resolved (expand : ArgumentExpander) (t : Token) (s : Scan) : Scan → Prop where
  | emitted {search cursor} (sought : s.session.registry.find t s.cursor = (.ok search, cursor))
      (none : search.found = .none) : Resolved expand t s
        { s with session := logHeld t search.held s.session, cursor, out := s.out.push t }
  | replaced {search cursor m ts between}
      (sought : s.session.registry.find t s.cursor = (.ok search, cursor))
      (found : search.found = some m)
      (became : (replacement expand m.definition m.nameToken).run.run
        { s with session := logHeld t search.held s.session, cursor } = (.ok ts, between)) :
      Resolved expand t s
        { between with session := between.session.logReplaced m.nameToken ts,
                       cursor := between.cursor.prepend ts }

theorem plainSucceeds {expand t s s'} (ran : (plain expand t).run.run s = (.ok (), s')) :
    Resolved expand t s s' := by
  rw [plain, runBind, runGet] at ran
  dsimp only at ran
  rcases sought : s.session.registry.find t s.cursor with ⟨answer, cursor⟩
  rw [sought, runBind, runSet] at ran
  dsimp only at ran
  obtain ⟨search, found, hf, ran⟩ := bindSucceeds ran
  obtain ⟨rfl, rfl⟩ := liftSucceeds hf
  obtain ⟨⟨⟩, held, hh, ran⟩ := bindSucceeds ran
  cases hh
  cases matched : search.found with
  | none =>
    rw [matched] at ran
    cases ran
    exact .emitted sought matched
  | some m =>
    rw [matched] at ran
    obtain ⟨ts, between, hr, ran⟩ := bindSucceeds ran
    obtain ⟨⟨⟩, logged, hl, ran⟩ := bindSucceeds ran
    cases hl
    cases ran
    exact .replaced sought matched hr

theorem plainKeeps {holds} (inv : Session.Invariant holds) {expand : ArgumentExpander}
    (keeps : Keeps holds expand) {t s s'} (ran : (plain expand t).run.run s = (.ok (), s'))
    (before : holds [] s.session) :
    holds [] s'.session ∧ (s'.out = s.out ∨ s'.out = s.out.push t) ∧ s'.nested = s.nested ∧
      s'.finishing = s.finishing := by
  have holdsHeld (n : Nat) := inv.change (.quiet (logHeldQuiet t n s.session)) before
  cases plainSucceeds ran with
  | emitted => exact ⟨holdsHeld _, .inr rfl, rfl, rfl⟩
  | @replaced search cursor m ts between sought found became =>
    obtain ⟨after, framed⟩ := replacementKeeps inv keeps became (holdsHeld _)
    have quiet := Session.logTextQuiet ("Replacement = " ++ Text.quoted (Tokens.text ts))
      m.nameToken.line 1 between.session
    exact ⟨inv.change (.quiet quiet) after, .inl framed.out, framed.nested, framed.finishing⟩

/-! Steps -/

theorem atEndFinishes {t s done s'} (ran : (atEnd t).run.run s = (.ok done, s'))
    (first : s.finishing = false) :
    done = false ∧ ∃ handlers blocks fired, s.session.blocks.finish t = .ok (handlers, blocks) ∧
      (fireKeyword "END" t).run.run
        { s with session := { s.session with blocks }, cursor := s.cursor.prepend [t],
                 finishing := true } = (.ok (), fired) ∧
      (fireDeferred handlers t).run.run fired = (.ok (), s') := by
  rw [atEnd, runBind, runGet] at ran
  dsimp only at ran
  rw [if_neg (by simp [first]), runBind, runSet] at ran
  obtain ⟨⟨handlers, blocks⟩, lifted, hl, ran⟩ := bindSucceeds ran
  obtain ⟨finished, rfl⟩ := liftSucceeds hl
  obtain ⟨⟨⟩, changed, hc, ran⟩ := bindSucceeds ran
  cases hc
  obtain ⟨⟨⟩, ahead, ha, ran⟩ := bindSucceeds ran
  cases ha
  obtain ⟨⟨⟩, fired, hk, ran⟩ := bindSucceeds ran
  obtain ⟨⟨⟩, last, hd, ran⟩ := bindSucceeds ran
  cases ran
  exact ⟨rfl, handlers, blocks, fired, finished, hk, hd⟩

theorem atEndFirst {holds} (inv : Session.Invariant holds) {t s done s'}
    (ran : (atEnd t).run.run s = (.ok done, s')) (first : s.finishing = false)
    (before : holds [] s.session) :
    holds [] s'.session ∧ done = false ∧ s'.out = s.out ∧ s'.nested = s.nested := by
  obtain ⟨isFalse, handlers, blocks, fired, finished, atKeyword, atDepth⟩ := atEndFinishes ran first
  have due : holds handlers { s.session with blocks } := inv.finished finished before
  obtain ⟨keyword, framedKeyword⟩ := fireKeywordKeeps inv atKeyword due
  obtain ⟨after, framed⟩ := fireKeeps inv atDepth (by rwa [List.append_nil])
  exact ⟨after, isFalse, framed.out.trans framedKeyword.out,
    framed.nested.trans framedKeyword.nested⟩

theorem atEndAgain {t s done s'} (ran : (atEnd t).run.run s = (.ok done, s'))
    (again : s.finishing = true) :
    done = true ∧ s.session.blocks.checkFinished t = .ok () ∧
      s' = { s with out := s.out.push t } := by
  rw [atEnd, runBind, runGet] at ran
  dsimp only at ran
  rw [if_pos again] at ran
  obtain ⟨⟨⟩, lifted, hl, last⟩ := bindSucceeds ran
  obtain ⟨checked, rfl⟩ := liftSucceeds hl
  cases last
  exact ⟨rfl, checked, rfl⟩

inductive Stepped (expand : ArgumentExpander) (s : Scan) : Bool → Scan → Prop where
  | argumentEnds {cursor} (next : s.cursor.next = (.ok none, cursor)) (nested : s.nested = true) :
      Stepped expand s true { s with cursor }
  | ends {cursor t done s'} (next : s.cursor.next = (.ok none, cursor) ∧ s.nested = false ∧
        t = missingEnd s.out ∨ s.cursor.next = (.ok (some t), cursor))
      (kind : t.kind = .eof) (ran : (atEnd t).run.run { s with cursor } = (.ok done, s')) :
      Stepped expand s done s'
  | keyword {cursor t s'} (next : s.cursor.next = (.ok (some t), cursor)) (kind : t.kind = .keyword)
      (ran : (Scan.keyword t).run.run { s with cursor } = (.ok (), s')) : Stepped expand s false s'
  | plain {cursor t s'} (next : s.cursor.next = (.ok (some t), cursor))
      (solid : t.kind ≠ .eof ∧ t.kind ≠ .keyword)
      (ran : (Scan.plain expand t).run.run { s with cursor } = (.ok (), s')) :
      Stepped expand s false s'

theorem stepSucceeds {expand s done s'} (ran : (step expand).run.run s = (.ok done, s')) :
    Stepped expand s done s' := by
  obtain ⟨t, between, hn, rest⟩ := bindSucceeds ran
  obtain ⟨cursor, next, rfl⟩ := nextSucceeds hn
  cases t with
  | none =>
    dsimp only at rest
    rw [runBind, runGet] at rest
    dsimp only at rest
    split at rest
    · rename_i nested
      cases rest
      exact .argumentEnds next nested
    · rename_i nested
      exact .ends (.inl ⟨next, by simpa using nested, rfl⟩) rfl rest
  | some t =>
    dsimp only at rest
    split at rest
    · rename_i kind
      exact .ends (.inr next) kind rest
    · rename_i kind
      obtain ⟨⟨⟩, after, ha, last⟩ := bindSucceeds rest
      cases last
      exact .keyword next kind ha
    · rename_i notEnd notKeyword
      obtain ⟨⟨⟩, after, ha, last⟩ := bindSucceeds rest
      cases last
      exact .plain next ⟨notEnd, notKeyword⟩ ha

theorem nestedKeyword {t s s'} (ran : (keyword t).run.run s = (.ok (), s'))
    (nested : s.nested = true) : s' = { s with out := s.out.push t } := by
  obtain ⟨⟨⟩, between, he, rest⟩ := bindSucceeds ran
  cases he
  rw [runBind, runGet] at rest
  dsimp only at rest
  rw [if_pos nested] at rest
  cases rest
  rfl

theorem nestedStepKeeps {holds} (inv : Session.Invariant holds) {expand : ArgumentExpander}
    (keeps : Keeps holds expand) {s done s'} (nested : s.nested = true)
    (ran : (step expand).run.run s = (.ok done, s')) (before : holds [] s.session) :
    holds [] s'.session ∧ s'.nested = true := by
  cases stepSucceeds ran with
  | argumentEnds next _ => exact ⟨before, nested⟩
  | @ends cursor t _ _ next kind ran =>
    cases finishing : s.finishing with
    | false =>
      obtain ⟨after, -, -, same⟩ := atEndFirst inv ran finishing before
      exact ⟨after, same.trans nested⟩
    | true =>
      obtain ⟨-, -, rfl⟩ := atEndAgain ran finishing
      exact ⟨before, nested⟩
  | keyword next kind ran =>
    rw [nestedKeyword ran nested]
    exact ⟨before, nested⟩
  | plain next solid ran =>
    obtain ⟨after, -, same, -⟩ := plainKeeps inv keeps ran before
    exact ⟨after, same.trans nested⟩

theorem argumentSucceeds {steps arg ts session session'}
    (ran : argument (run steps) arg session = (.ok ts, session')) :
    ∃ last, run steps { session, cursor := .ofTokens arg, nested := true } = (.ok ts, last) ∧
      session' = last.session := by
  rcases answered : run steps { session, cursor := .ofTokens arg, nested := true } with
    ⟨answer, last⟩
  simp only [argument, answered, Prod.mk.injEq] at ran
  obtain ⟨rfl, rfl⟩ := ran
  exact ⟨last, rfl, rfl⟩

theorem keepsOfRun {holds steps}
    (whole : ∀ {s ts s'}, s.nested = true → run steps s = (.ok ts, s') → holds [] s.session →
      holds [] s'.session) : Keeps holds (argument (run steps)) := by
  intro arg ts session session' ran before
  obtain ⟨last, answered, rfl⟩ := argumentSucceeds ran
  exact whole rfl answered before

theorem runSucceeds {steps s ts s'} (ran : run (steps + 1) s = (.ok ts, s')) :
    ∃ done between, (step (argument (run steps))).run.run s = (.ok done, between) ∧
      (if done then (.ok between.out.toList, between) else run steps between) = (.ok ts, s') := by
  unfold run at ran
  rcases stepped : (step (argument (run steps))).run.run s with ⟨e | done, between⟩
  · rw [stepped] at ran
    cases ran
  · rw [stepped] at ran
    refine ⟨done, between, rfl, ?_⟩
    cases done <;> exact ran

theorem nestedRunKeeps {holds} (inv : Session.Invariant holds) {steps s ts s'}
    (nested : s.nested = true) (ran : run steps s = (.ok ts, s')) (before : holds [] s.session) :
    holds [] s'.session := by
  induction steps generalizing s ts s' with
  | zero => simp [run] at ran
  | succ steps ih =>
    obtain ⟨done, between, stepped, rest⟩ := runSucceeds ran
    obtain ⟨after, still⟩ := nestedStepKeeps inv (keepsOfRun ih) nested stepped before
    cases done with
    | true =>
      cases rest
      exact after
    | false => exact ih still rest after

theorem argumentKeeps {holds} (inv : Session.Invariant holds) (steps : Nat) :
    Keeps holds (argument (run steps)) := keepsOfRun (nestedRunKeeps inv)

inductive Worded (t : Token) (s s' : Scan) : Prop where
  | opens (opener : t.opensBlock = true)
      (fired : (fireKeyword t.value t).run.run
        { s with session := s.session.enterBlock t, out := s.out.push t } = (.ok (), s'))
  | closes {handlers session between} (closer : t.closesBlock = true)
      (left : s.session.leaveBlock t = .ok (handlers, session))
      (waited : (fireDeferred handlers t).run.run { s with session, out := s.out.push t }
        = (.ok (), between))
      (fired : (fireKeyword t.value t).run.run between = (.ok (), s'))
  | other (inert : t.opensBlock = false ∧ t.closesBlock = false)
      (fired : (fireKeyword t.value t).run.run { s with out := s.out.push t } = (.ok (), s'))

theorem keywordSucceeds {t s s'} (ran : (keyword t).run.run s = (.ok (), s'))
    (unit : s.nested = false) : Worded t s s' := by
  obtain ⟨⟨⟩, between, he, rest⟩ := bindSucceeds ran
  cases he
  rw [runBind, runGet] at rest
  dsimp only at rest
  rw [if_neg (by simp [unit])] at rest
  cases opener : t.opensBlock with
  | true =>
    rw [if_pos opener] at rest
    obtain ⟨⟨⟩, entered, hn, last⟩ := bindSucceeds rest
    cases hn
    exact .opens opener last
  | false =>
    rw [if_neg (by simp [opener])] at rest
    cases closer : t.closesBlock with
    | true =>
      rw [if_pos closer, closeBlock, runBind, runGet] at rest
      dsimp only at rest
      obtain ⟨⟨handlers, session⟩, lifted, hl, rest⟩ := bindSucceeds rest
      obtain ⟨left, rfl⟩ := liftSucceeds hl
      obtain ⟨⟨⟩, changed, hc, rest⟩ := bindSucceeds rest
      cases hc
      obtain ⟨⟨⟩, waited, hw, last⟩ := bindSucceeds rest
      exact .closes closer left hw last
    | false =>
      rw [if_neg (by simp [closer])] at rest
      exact .other ⟨opener, closer⟩ rest

/- An invariant that entering and leaving blocks keep as well; the handlers of a block that is left
are due then. -/
structure BlockInvariant (holds : List Handler → Session → Prop) : Prop
    extends Session.Invariant holds where
  entered {t due s} : holds due s → holds due (s.enterBlock t)
  left {t handlers s s'} : s.leaveBlock t = .ok (handlers, s') → holds [] s → holds handlers s'

theorem keywordKeeps {holds} (inv : BlockInvariant holds) {t s s'}
    (ran : (keyword t).run.run s = (.ok (), s')) (unit : s.nested = false)
    (before : holds [] s.session) : holds [] s'.session ∧ s'.nested = false := by
  cases keywordSucceeds ran unit with
  | opens opener fired =>
    obtain ⟨after, framed⟩ := fireKeywordKeeps inv.toInvariant fired (inv.entered before)
    exact ⟨after, framed.nested.trans unit⟩
  | closes closer left waited fired =>
    have due := inv.left left before
    obtain ⟨between, framed⟩ := fireKeeps inv.toInvariant waited (by rwa [List.append_nil])
    obtain ⟨after, framedLast⟩ := fireKeywordKeeps inv.toInvariant fired between
    exact ⟨after, (framed.trans framedLast).nested.trans unit⟩
  | other inert fired =>
    obtain ⟨after, framed⟩ := fireKeywordKeeps inv.toInvariant fired before
    exact ⟨after, framed.nested.trans unit⟩

theorem stepKeeps {holds} (inv : BlockInvariant holds) {steps s s'}
    (ran : (step (argument (run steps))).run.run s = (.ok false, s')) (unit : s.nested = false)
    (before : holds [] s.session) : holds [] s'.session ∧ s'.nested = false := by
  cases stepSucceeds ran with
  | ends next kind ran =>
    cases finishing : s.finishing with
    | true =>
      obtain ⟨impossible, -⟩ := atEndAgain ran finishing
      contradiction
    | false =>
      obtain ⟨after, -, -, nested⟩ := atEndFirst inv.toInvariant ran finishing before
      exact ⟨after, nested.trans unit⟩
  | keyword next kind ran => exact keywordKeeps inv ran unit before
  | plain next solid ran =>
    obtain ⟨after, -, nested, -⟩ :=
      plainKeeps inv.toInvariant (argumentKeeps inv.toInvariant steps) ran before
    exact ⟨after, nested.trans unit⟩

inductive Visits : Nat → Scan → Scan → Prop where
  | here {steps s} : Visits steps s s
  | next {steps s between s'}
      (stepped : (step (argument (run steps))).run.run s = (.ok false, between))
      (later : Visits steps between s') : Visits (steps + 1) s s'

theorem runVisits {steps s ts s'} (ran : run steps s = (.ok ts, s')) :
    ∃ left last, Visits steps s last ∧
      (step (argument (run left))).run.run last = (.ok true, s') ∧ ts = s'.out.toList := by
  induction steps generalizing s with
  | zero => simp [run] at ran
  | succ steps ih =>
    obtain ⟨done, between, stepped, rest⟩ := runSucceeds ran
    cases done with
    | true =>
      cases rest
      exact ⟨steps, s, .here, stepped, rfl⟩
    | false =>
      obtain ⟨left, last, visited, ended, same⟩ := ih rest
      exact ⟨left, last, .next stepped visited, ended, same⟩

theorem lastStep {expand s s'} (ran : (step expand).run.run s = (.ok true, s'))
    (unit : s.nested = false) :
    ∃ t, t.kind = .eof ∧ s'.out = s.out.push t ∧ s'.session = s.session ∧
      s.session.blocks.checkFinished t = .ok () := by
  cases stepSucceeds ran with
  | argumentEnds next nested =>
    rw [unit] at nested
    contradiction
  | @ends cursor t _ _ next kind ran =>
    cases finishing : s.finishing with
    | false =>
      obtain ⟨impossible, -⟩ := atEndFinishes ran finishing
      contradiction
    | true =>
      obtain ⟨-, checked, rfl⟩ := atEndAgain ran finishing
      exact ⟨t, kind, rfl, rfl, checked⟩

theorem visitsKeep {holds} (inv : BlockInvariant holds) {steps s s'} (visits : Visits steps s s')
    (unit : s.nested = false) (before : holds [] s.session) :
    holds [] s'.session ∧ s'.nested = false := by
  induction visits with
  | here => exact ⟨before, unit⟩
  | next stepped later ih =>
    obtain ⟨after, still⟩ := stepKeeps inv stepped unit before
    exact ih still after

theorem fireBeginSucceeds {s s'} (ran : fireBegin.run.run s = (.ok (), s')) :
    ∃ first cursor, s.cursor.peek = (.ok first, cursor) ∧
      (fireKeyword "BEGIN" (first.getD (.endOfInput (some 1)))).run.run { s with cursor } =
        (.ok (), s') := by
  rw [fireBegin, runBind, runGet] at ran
  dsimp only at ran
  rcases peeked : s.cursor.peek with ⟨answer, cursor⟩
  rw [peeked, runBind, runSet] at ran
  dsimp only at ran
  obtain ⟨first, lifted, hl, fired⟩ := bindSucceeds ran
  obtain ⟨rfl, rfl⟩ := liftSucceeds hl
  exact ⟨first, cursor, rfl, fired⟩

theorem fireBeginKeeps {holds} (inv : Session.Invariant holds) {s s'}
    (ran : fireBegin.run.run s = (.ok (), s')) (before : holds [] s.session) :
    holds [] s'.session ∧ Framed s s' := by
  obtain ⟨first, cursor, -, fired⟩ := fireBeginSucceeds ran
  obtain ⟨after, framed⟩ := fireKeywordKeeps inv fired before
  exact ⟨after, framed.out, framed.nested, framed.finishing⟩

theorem beginKeeps {holds} (inv : Session.Invariant holds) {s s'}
    (ran : begin.run.run s = (.ok (), s')) (before : holds [] s.session) :
    holds [] s'.session ∧ Framed s s' := by
  rw [begin, runBind, runGet] at ran
  dsimp only at ran
  split at ran
  · obtain ⟨⟨⟩, numbered, hn, fired⟩ := bindSucceeds ran
    obtain ⟨framed, quiet⟩ := numberSucceeds hn
    obtain ⟨after, framedAfter⟩ := fireBeginKeeps inv fired (inv.change (.quiet quiet) before)
    exact ⟨after, framed.trans framedAfter⟩
  · exact fireBeginKeeps inv ran before

theorem unitSucceeds {steps s ts s'} (ran : unit steps s = (.ok ts, s')) :
    ∃ start, begin.run.run s = (.ok (), start) ∧ run steps start = (.ok ts, s') := by
  unfold unit at ran
  rcases began : begin.run.run s with ⟨e | ⟨⟨⟩⟩, start⟩
  · rw [began] at ran
    cases ran
  · rw [began] at ran
    exact ⟨start, rfl, ran⟩

end Scan

/- A source without a number for its name. -/
def Source.Unnumbered (source : Source) : Prop :=
  ∀ number, source.name? ≠ some (.descriptor number)

namespace Session

theorem beginUnitRegistry (name : UnitName) (s : Session) :
    (s.beginUnit name).registry = s.registry := by
  rw [beginUnit, (logTextQuiet _ _ _ _).registry]
  rfl

theorem beginUnitBlocks (name : UnitName) (s : Session) :
    (s.beginUnit name).blocks = s.blocks.reset := by
  rw [beginUnit, (logTextQuiet _ _ _ _).blocks]
  rfl

def unitStart (source : Source) (unitName : Option String) (s : Session) : Scan :=
  { session := s.beginUnit (source.title unitName), cursor := source.cursor }

def UnitVisits (steps : Nat) (source : Source) (unitName : Option String) (s : Session)
    (scan : Scan) : Prop :=
  ∃ start, Scan.begin.run.run (s.unitStart source unitName) = (.ok (), start) ∧
    Scan.Visits steps start scan

/- The unit can be written to the log, if there is one. -/
def Admits (s : Session) (source : Source) (unitName : Option String) : Prop :=
  (s.enterUnit (source.title unitName)).cannotLog = false

theorem admitsNamed {source : Source} {unitName : Option String} {name : String}
    (named : source.title unitName = .text name) (s : Session) : s.Admits source unitName := by
  rw [Admits, named]
  simp [cannotLog, enterUnit, reset, isPlaced]

theorem titleUnnumbered {source : Source} (unnumbered : source.Unnumbered)
    (unitName : Option String) : ∃ name, source.title unitName = .text name := by
  unfold Source.title
  cases asked : named (unitName.map .text) with
  | some name =>
    obtain ⟨given, -⟩ := Option.filter_eq_some_iff.mp asked
    obtain ⟨text, -, rfl⟩ := Option.map_eq_some_iff.mp given
    exact ⟨text, rfl⟩
  | none =>
    cases own : named source.name? with
    | none => exact ⟨"<string>", rfl⟩
    | some name =>
      obtain ⟨given, -⟩ := Option.filter_eq_some_iff.mp own
      cases name with
      | text name => exact ⟨name, rfl⟩
      | descriptor number => exact absurd given (unnumbered number)

theorem admitsUnnumbered {source : Source} (unnumbered : source.Unnumbered)
    (unitName : Option String) (s : Session) : s.Admits source unitName :=
  admitsNamed (titleUnnumbered unnumbered unitName).choose_spec s

theorem admitsText (text : String) (unitName : Option String) (s : Session) :
    s.Admits (.text text) unitName := by
  refine admitsUnnumbered (fun number => ?_) unitName s
  simp [Source.name?]

theorem admitsTokens (ts : List Token) (unitName : Option String) (s : Session) :
    s.Admits (.tokens ts) unitName := by
  refine admitsUnnumbered (fun number => ?_) unitName s
  simp [Source.name?]

theorem expandUnitAdmitted {steps source unitName s} (admits : Admits s source unitName) :
    s.expandUnit steps source unitName =
      closeUnit (Scan.unit steps (s.unitStart source unitName)).1
        (Scan.unit steps (s.unitStart source unitName)).2 := by
  unfold expandUnit
  dsimp only
  rw [if_neg (by rw [admits]; decide)]
  rfl

theorem expandUnitRefused {steps source unitName s} (refused : ¬ Admits s source unitName) :
    s.expandUnit steps source unitName =
      (.error (.failed (.fault (.notAPath "int"))), s.enterUnit (source.title unitName)) := by
  unfold expandUnit
  dsimp only
  rw [if_pos (eq_true_of_ne_false refused)]

/- What a unit leaves is what its scan leaves, or what there was before if it is not admitted. -/
theorem expandUnitCases (steps : Nat) (source : Source) (unitName : Option String) (s : Session) :
    s.expandUnit steps source unitName =
        (.error (.failed (.fault (.notAPath "int"))), s.enterUnit (source.title unitName)) ∨
      s.Admits source unitName ∧ s.expandUnit steps source unitName =
        closeUnit (Scan.unit steps (s.unitStart source unitName)).1
          (Scan.unit steps (s.unitStart source unitName)).2 := by
  by_cases admits : s.Admits source unitName
  · exact .inr ⟨admits, expandUnitAdmitted admits⟩
  · exact .inl (expandUnitRefused admits)

theorem closeUnitQuiet (answer : Except Stop (List Token)) (scan : Scan) :
    Quiet scan.session (closeUnit answer scan).2 := by
  unfold closeUnit
  split
  · have logged := logTextQuiet
    exact ⟨(logged _ _ _ _).registry, (logged _ _ _ _).blocks⟩
  · exact ⟨rfl, rfl⟩

theorem closeUnitSucceeds {answer : Except Stop (List Token)} {scan : Scan} {ts : List Token}
    (closed : (closeUnit answer scan).1 = .ok ts) : answer = .ok ts := by
  unfold closeUnit at closed
  split at closed
  · cases closed
  · exact closed

theorem expandUnitSucceeds {steps source unitName s ts s'}
    (ran : expandUnit steps source unitName s = (.ok ts, s')) :
    ∃ last, Scan.unit steps (s.unitStart source unitName) = (.ok ts, last) ∧
      Quiet last.session s' := by
  rcases expandUnitCases steps source unitName s with refused | ⟨-, closes⟩
  · cases refused.symm.trans ran
  · have closed := closes.symm.trans ran
    refine ⟨_, Prod.ext (closeUnitSucceeds (congrArg Prod.fst closed)) rfl, ?_⟩
    have quiet := closeUnitQuiet (Scan.unit steps (s.unitStart source unitName)).1
      (Scan.unit steps (s.unitStart source unitName)).2
    rwa [closed] at quiet

end Session

end LuaExpander
