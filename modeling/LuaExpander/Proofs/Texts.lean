import LuaExpander.Proofs.Output
import LuaExpander.Proofs.Replacing
import LuaExpander.Proofs.Tables

/-! Units in which every definition is a text and no handler fires. Each step puts a token out that
invokes nothing, or replaces a name by new tokens and tokens of its arguments, or meets the end. So
a token that goes out is one of the source or one of a replacement, and what goes out goes out again
as it is. -/
namespace LuaExpander

structure Registry.Static (r : Registry) : Prop where
  sound : r.Sound
  texts : r.All fun d => d.isCallable = false

namespace Registry

variable {r : Registry} {d : Definition}

theorem activeGet (sound : r.Sound) (active : r.Active d) : r.get? d.name = some d := by
  obtain ⟨name, found⟩ := active
  rcases found with found | found
  · obtain ⟨stack, isStack, top⟩ := Option.bind_eq_some_iff.mp found
    obtain ⟨-, named, isName, -⟩ := sound.idens name stack isStack
    rw [named d (List.mem_of_mem_head? top), get?, stack?, if_pos isName]
    exact found
  · obtain ⟨stack, isStack, top⟩ := Option.bind_eq_some_iff.mp found
    obtain ⟨-, named, noName, -⟩ := sound.ops name stack isStack
    rw [named d (List.mem_of_mem_head? top), get?, stack?, if_neg (by simp [noName])]
    exact found

theorem staticText (static : r.Static) (active : r.Active d) : d.body = .text d.value := by
  have text := allActive static.texts active
  unfold Definition.isCallable at text
  unfold Definition.value
  cases body : d.body with
  | text value => rfl
  | callable t => simp [body] at text

theorem emptyStatic : Static {} where
  sound := emptySound
  texts := ⟨fun name stack found => by simp at found, fun name stack found => by simp at found⟩

end Registry

namespace Session

variable {r : Registry} {s s' : Session}

theorem madeText {spec : String} {meaning : Option Definition.Meaning} {depth : Nat} {line : Line}
    {d : Definition} (value : ∀ m ∈ meaning, ∃ v, m = .value v)
    (made : Definition.make spec meaning depth line = .ok d) : d.isCallable = false := by
  obtain ⟨h, -, made⟩ := exceptSucceeds made
  obtain ⟨body, read, made⟩ := exceptSucceeds made
  cases made
  unfold Definition.readBody at read
  cases meaning with
  | none =>
    cases read
    rfl
  | some m =>
    obtain ⟨v, rfl⟩ := value m rfl
    cases empty : h.rest with
    | cons t ts => simp [empty] at read
    | nil =>
      cases tokens : v.toTokens line with
      | error f => simp [empty, tokens] at read
      | ok ts =>
        simp only [empty, tokens] at read
        cases read
        rfl

theorem defineStatic (static : s.registry.Static) (silent : ∀ word, s.blocks.handlersFor word = [])
    (spec : String) {meaning : Option Definition.Meaning} (value : ∀ m ∈ meaning, ∃ v, m = .value v)
    (warn : Bool) (line : Line) :
    ((define spec meaning warn line).run.run s).2.registry.Static ∧
      ∀ word, ((define spec meaning warn line).run.run s).2.blocks.handlersFor word = [] := by
  have sound := changeSound (defineChange spec meaning warn line s) static.sound
  rcases ran : (define spec meaning warn line).run.run s with ⟨f | d, s'⟩
  · rw [defineFails ran]
    exact ⟨static, silent⟩
  · rw [ran] at sound
    obtain ⟨made, registry, blocks⟩ := defineSucceeds ran
    have text : d.isCallable = false := madeText value made
    exact ⟨⟨sound, registry ▸ Registry.allPush static.texts text⟩, blocks ▸ silent⟩

/- Nothing waits and no keyword has a handler. -/
structure Idle (r : Registry) (s : Session) : Prop where
  registry : s.registry = r
  words : ∀ word, s.blocks.handlersFor word = []
  waiting : ∀ depth, s.blocks.waiting depth = []

theorem idleQuiet (idle : s.Idle r) (quiet : Quiet s s') : s'.Idle r where
  registry := quiet.registry.trans idle.registry
  words := quiet.blocks ▸ idle.words
  waiting := quiet.blocks ▸ idle.waiting

theorem idleEnter (idle : s.Idle r) (t : Token) : (s.enterBlock t).Idle r where
  registry := (enterBlockRegistry t s).trans idle.registry
  words := enterBlockBlocks t s ▸ idle.words
  waiting := enterBlockBlocks t s ▸ idle.waiting

theorem idleVacate (idle : s.Idle r) {blocks : Blocks Handler} {gone : Nat}
    (keywords : blocks.keywords = s.blocks.keywords)
    (waiting : ∀ d, blocks.waiting d = if d = gone then [] else s.blocks.waiting d) :
    (∀ word, blocks.handlersFor word = []) ∧ ∀ d, blocks.waiting d = [] := by
  refine ⟨fun word => ?_, fun d => ?_⟩
  · rw [Blocks.handlersFor, keywords]
    exact idle.words word
  · rw [waiting, idle.waiting, ite_self]

theorem idleLeave (idle : s.Idle r) {t : Token} {handlers : List Handler}
    (left : s.leaveBlock t = .ok (handlers, s')) : handlers = [] ∧ s'.Idle r := by
  obtain ⟨inner, registry⟩ := leaveBlockSucceeds left
  obtain ⟨-, none, keywords, waiting⟩ := Blocks.leaveSucceeds inner
  obtain ⟨words, waits⟩ := idleVacate idle keywords waiting
  exact ⟨by rw [none, idle.waiting]; rfl, registry.trans idle.registry, words, waits⟩

theorem idleFinish (idle : s.Idle r) {t : Token} {handlers : List Handler} {blocks : Blocks Handler}
    (finished : s.blocks.finish t = .ok (handlers, blocks)) :
    handlers = [] ∧ Idle r { s with blocks } := by
  obtain ⟨-, -, none, keywords, waiting⟩ := Blocks.finishSucceeds finished
  obtain ⟨words, waits⟩ := idleVacate idle keywords waiting
  exact ⟨by rw [none, idle.waiting]; rfl, idle.registry, words, waits⟩

theorem idleBegin (silent : ∀ word, s.blocks.handlersFor word = []) (name : UnitName) :
    (s.beginUnit name).Idle s.registry where
  registry := beginUnitRegistry name s
  words := by
    rw [beginUnitBlocks]
    exact silent
  waiting depth := by
    rw [beginUnitBlocks]
    exact Blocks.waitingReset s.blocks depth

end Session

namespace Scan

variable {r : Registry} {s s' : Scan}

/- The end that a scan meets: the next token, or the one it makes up where nothing is left. -/
def MeetsEnd (s : Scan) (t : Token) (cursor : Cursor) : Prop :=
  t.kind = .eof ∧ (s.cursor.ahead = t :: cursor.ahead ∨
    s.cursor.ahead = [] ∧ s.cursor.failure = none ∧ cursor = s.cursor)

inductive Goes (r : Registry) (s : Scan) : Bool → Scan → Prop where
  | passes {t session cursor} (ahead : s.cursor.ahead = t :: cursor.ahead)
      (failure : cursor.failure = s.cursor.failure) (solid : t.kind ≠ .eof)
      (still : r.invoked? t = none) (idle : session.Idle r)
      (fresh : s.session.fresh ≤ session.fresh) :
      Goes r s false { s with session, cursor, out := s.out.push t }
  | replaces {t d nameToken front rest args taken session cursor} (active : r.Active d)
      (line : nameToken.line = t.line) (ahead : s.cursor.ahead = t :: (front ++ rest))
      (solid : ∀ u ∈ t :: front, u.kind ≠ .eof)
      (within : ∀ arg ∈ args, ∀ u ∈ arg, ∃ v ∈ front, ∃ place,
        u = v.numbered s.session.fresh place)
      (took : ∀ u ∈ taken.toList, u ∈ front)
      (after : cursor.ahead = textReplacement d nameToken args taken d.value ++ rest)
      (failure : cursor.failure = s.cursor.failure) (idle : session.Idle r)
      (fresh : s.session.fresh ≤ session.fresh) : Goes r s false { s with session, cursor }
  | finishes {t session cursor} (met : s.MeetsEnd t cursor) (idle : session.Idle r)
      (fresh : s.session.fresh ≤ session.fresh) :
      Goes r s false { s with session, cursor := cursor.prepend [t], finishing := true }
  | ends {t cursor} (met : s.MeetsEnd t cursor) :
      Goes r s true { s with cursor, out := s.out.push t }

theorem goesIdle {done : Bool} (goes : Goes r s done s') (idle : s.session.Idle r)
    (unit : s.nested = false) : s'.session.Idle r ∧ s'.nested = false := by
  cases goes with
  | ends => exact ⟨idle, unit⟩
  | passes _ _ _ _ after | replaces _ _ _ _ _ _ _ _ after | finishes _ after => exact ⟨after, unit⟩

theorem keywordGoes {t : Token} {cursor : Cursor} (idle : s.session.Idle r)
    (unit : s.nested = false) (kind : t.kind = .keyword)
    (next : s.cursor.next = (.ok (some t), cursor))
    (ran : (keyword t).run.run { s with cursor } = (.ok (), s')) : Goes r s false s' := by
  obtain ⟨ahead, failure, -⟩ := Cursor.aheadGiven next
  have solid : t.kind ≠ .eof := by simp [kind]
  have still : r.invoked? t = none := by simp [Registry.invoked?, kind]
  cases keywordSucceeds ran unit with
  | opens opener fired =>
    have entered := Session.idleEnter idle t
    obtain rfl := silentKeyword (entered.words _) fired
    exact .passes ahead failure solid still entered (Session.enterBlockFresh t s.session).ge
  | closes closer left waited fired =>
    obtain ⟨rfl, after⟩ := Session.idleLeave idle left
    cases waited
    obtain rfl := silentKeyword (after.words _) fired
    exact .passes ahead failure solid still after (Session.leaveBlockFresh left).ge
  | other inert fired =>
    obtain rfl := silentKeyword (s := { s with cursor, out := s.out.push t }) (idle.words _) fired
    exact .passes ahead failure solid still idle (Nat.le_refl _)

theorem atEndGoes {t : Token} {cursor : Cursor} {done : Bool} (idle : s.session.Idle r)
    (met : s.MeetsEnd t cursor) (ran : (atEnd t).run.run { s with cursor } = (.ok done, s')) :
    Goes r s done s' := by
  cases finishing : s.finishing with
  | true =>
    obtain ⟨rfl, -, rfl⟩ := atEndAgain ran finishing
    exact .ends met
  | false =>
    obtain ⟨rfl, handlers, blocks, fired, finished, atKeyword, atDepth⟩ :=
      atEndFinishes ran finishing
    obtain ⟨rfl, after⟩ := Session.idleFinish idle finished
    obtain rfl := silentKeyword (after.words "END") atKeyword
    cases atDepth
    exact .finishes met after (Nat.le_refl _)

theorem plainGoes (static : r.Static) {expand : ArgumentExpander} {t : Token} {cursor : Cursor}
    (idle : s.session.Idle r) (solid : t.kind ≠ .eof)
    (next : s.cursor.next = (.ok (some t), cursor))
    (ran : (plain expand t).run.run { s with cursor } = (.ok (), s')) : Goes r s false s' := by
  obtain ⟨ahead, failure, -⟩ := Cursor.aheadGiven next
  have idleHeld (held : Nat) := Session.idleQuiet idle (logHeldQuiet t held s.session)
  cases plainSucceeds ran with
  | emitted sought none =>
    have seeks := Registry.findSought sought
    obtain ⟨same, still⟩ := seeks.still none
    exact .passes (same ▸ ahead) (seeks.failure.trans failure) solid (idle.registry ▸ still)
      (idleHeld _) (logHeldFresh t _ s.session).ge
  | @replaced search rest m ts between sought found became =>
    have seeks := Registry.findSought sought
    obtain ⟨active, line⟩ := seeks.found m found
    rw [idle.registry] at active
    obtain ⟨run, split, isRun⟩ := seeks.ahead
    obtain ⟨args, taken, read, gathered, rfl, rfl⟩ :=
      replacementText (Registry.staticText static active) became
    obtain ⟨front, behind, whole, solids, within, rfl, after, rfl, unfailed, rfl⟩ :=
      argumentsRead gathered
    -- The session from the search on: calls and replacements are written down, arguments counted.
    let held : Scan := { s with session := logHeld t search.held s.session, cursor := after }
    have heldFresh : held.session.fresh = s.session.fresh := logHeldFresh t _ s.session
    have counted : Session.Quiet (logHeld t search.held s.session) (held.counting args).session :=
      ⟨rfl, rfl⟩
    have quiet := (Session.logCallQuiet m.nameToken m.definition (held.copies args)
      (held.counting args).session).trans (Session.logTextQuiet ("Replacement = " ++
        Text.quoted (Tokens.text (textReplacement m.definition m.nameToken (held.copies args)
          front.toArray m.definition.value))) m.nameToken.line 1 _)
    have copied : ∀ arg ∈ held.copies args, ∀ u ∈ arg, ∃ v ∈ run ++ front, ∃ place,
        u = v.numbered s.session.fresh place := by
      intro arg isArg u member
      obtain ⟨own, isOwn, v, inside, place, rfl⟩ := Tokens.numberEachSource arg isArg u member
      exact ⟨v, List.mem_append_right run (within own isOwn v inside), place, by rw [heldFresh]⟩
    have start : s.cursor.ahead = t :: ((run ++ front) ++ after.ahead) := by
      dsimp only at whole
      rw [ahead, split, whole, List.append_assoc]
    have solidFront : ∀ u ∈ t :: (run ++ front), u.kind ≠ .eof := by
      refine List.forall_mem_cons.mpr ⟨solid, fun u member => ?_⟩
      rcases List.mem_append.mp member with inRun | inFront
      · simp [isRun u inRun]
      · exact solids u inFront
    refine .replaces active line start solidFront copied
      (fun u member => List.mem_append_right run member) (Cursor.aheadPrepend _ _)
      (unfailed.trans (seeks.failure.trans failure))
      (Session.idleQuiet (idleHeld search.held) (counted.trans quiet)) ?_
    obtain ⟨log, called⟩ := Session.logCallAlike m.nameToken m.definition (held.copies args)
      (held.counting args).session
    rw [Session.logReplaced, Session.logTextFresh, called]
    exact Nat.le_trans heldFresh.ge (Nat.le_add_right _ _)

theorem stepGoes (static : r.Static) {expand : ArgumentExpander} {done : Bool}
    (idle : s.session.Idle r) (unit : s.nested = false)
    (ran : (step expand).run.run s = (.ok done, s')) : Goes r s done s' := by
  cases stepSucceeds ran with
  | argumentEnds next nested =>
    rw [unit] at nested
    contradiction
  | ends next kind ran =>
    refine atEndGoes idle ⟨kind, ?_⟩ ran
    rcases next with ⟨next, -, -⟩ | next
    · obtain ⟨same, ahead, failure⟩ := nextNone next
      exact .inr ⟨ahead, failure, same⟩
    · exact .inl (Cursor.aheadGiven next).1
  | keyword next kind ran => exact keywordGoes idle unit kind next ran
  | plain next solid ran => exact plainGoes static idle solid.1 next ran

theorem visitsGo (static : r.Static) {holds : Scan → Prop}
    (kept : ∀ {s s'}, Goes r s false s' → holds s → holds s') {steps : Nat}
    (visits : Visits steps s s') (idle : s.session.Idle r) (unit : s.nested = false)
    (before : holds s) : holds s' ∧ s'.session.Idle r ∧ s'.nested = false := by
  induction visits with
  | here => exact ⟨before, idle, unit⟩
  | next stepped later ih =>
    have goes := stepGoes static idle unit stepped
    obtain ⟨after, still⟩ := goesIdle goes idle unit
    exact ih after still (kept goes before)

end Scan

namespace Session

variable {s s' : Session} {source : Source} {unitName : Option String} {steps : Nat}
  {ts : List Token}

theorem unitGoes (static : s.registry.Static) (silent : ∀ word, s.blocks.handlersFor word = [])
    {holds : Scan → Prop} (kept : ∀ {a b}, Scan.Goes s.registry a false b → holds a → holds b)
    (start : ∀ cursor : Cursor, cursor.ahead = source.cursor.ahead →
      cursor.failure = source.cursor.failure → holds { s.unitStart source unitName with cursor })
    (ran : s.expandUnit steps source unitName = (.ok ts, s')) :
    ∃ last final, holds last ∧ Scan.Goes s.registry last true final ∧ ts = final.out.toList ∧
      s'.Idle s.registry ∧ Tokens.Balanced last.out.toList := by
  have idle := idleBegin silent (source.title unitName)
  obtain ⟨final, whole, quiet⟩ := expandUnitSucceeds ran
  obtain ⟨between, began, ran⟩ := Scan.unitSucceeds whole
  have leveled := Scan.startLevels began
  obtain ⟨cursor, rfl, ahead, failure⟩ := Scan.silentBegin idle.words began
  obtain ⟨left, last, visits, ended, output⟩ := Scan.runVisits ran
  obtain ⟨after, idleLast, unit⟩ := Scan.visitsGo static kept visits idle rfl
    (start cursor ahead failure)
  have levels := Scan.visitsLevels visits leveled
  have goes := Scan.stepGoes static idleLast unit ended
  obtain ⟨t, -, -, -, checked⟩ := Scan.lastStep ended unit
  have outside : Tokens.level last.out.toList = 0 := by
    rw [← levels.depth, ((Blocks.checkFinishedOk _ _).mp checked).1]
    rfl
  exact ⟨last, final, after, goes, output,
    idleQuiet (Scan.goesIdle goes idleLast unit).1 quiet, levels.below, outside⟩

end Session

namespace Scan

variable {r : Registry} {s s' : Scan}

def Settled (r : Registry) (s : Scan) : Prop :=
  ∀ t ∈ s.out.toList, t.kind ≠ .eof ∧ r.invoked? t = none

theorem goesSettled (goes : Goes r s false s') (settled : s.Settled r) : s'.Settled r := by
  cases goes with
  | @passes t _ _ _ _ solid still _ =>
    intro u member
    rw [Array.toList_push, List.mem_append, List.mem_singleton] at member
    rcases member with before | rfl
    · exact settled u before
    · exact ⟨solid, still⟩
  | replaces => exact settled
  | finishes => exact settled

theorem stillScans {ts ending out : List Token} (ops : r.ops.isEmpty = true)
    (still : ∀ t ∈ ts, t.kind ≠ .eof ∧ r.invoked? t = none)
    (ready : Ready r (ts ++ ending) out s) : Scanned r ending out ts s := by
  induction ts generalizing out s with
  | nil => exact scannedNone ready
  | cons t ts ih =>
    obtain ⟨⟨solid, here⟩, later⟩ := List.forall_mem_cons.mp still
    have passes := stillPasses ops here (ts ++ ending)
    have scanned : Scanned r (ts ++ ending) out [t] s := passScans ready passes solid
    exact scannedThen scanned fun s' after => ih later after

end Scan

theorem Registry.uninvokedNormal {r : Registry} {t : Token} (ops : r.ops.isEmpty = true)
    (uninvoked : r.invoked? t = none) (isIden : t.kind = .iden) :
    r.get? t.value = none ∨ t.mark = some t.value := by
  by_cases marked : t.mark = some t.value
  · exact .inr marked
  · rw [invoked?, if_pos ⟨isIden, marked⟩] at uninvoked
    refine .inl ?_
    unfold get? stack?
    split
    · exact uninvoked
    · simp [Std.ExtTreeMap.isEmpty_iff.mp ops]

namespace Session

variable {s : Session} {source : Source} {unitName : Option String} {steps : Nat} {ts : List Token}

theorem unitOutputNormal (static : s.registry.Static) (ops : s.registry.ops.isEmpty = true)
    (silent : ∀ word, s.blocks.handlersFor word = [])
    (ran : (s.expandUnit steps source unitName).1 = .ok ts) :
    (∀ t ∈ ts, t.kind = .iden → s.registry.get? t.value = none ∨ t.mark = some t.value) ∧
      ∀ again, ∃ enough, ∀ more, enough ≤ more →
        ((s.expandUnit steps source unitName).2.expandUnit more (.tokens ts) again).1 = .ok ts := by
  obtain ⟨last, final, settled, goes, rfl, idle, balanced⟩ :=
    unitGoes static silent Scan.goesSettled (by simp [Scan.Settled, unitStart]) (Prod.ext ran rfl)
  cases goes with
  | @ends t cursor met =>
    have output : (last.out.push t).toList = last.out.toList ++ [t] := Array.toList_push
    rw [output]
    refine ⟨fun u member isIden => ?_, fun again => ?_⟩
    · rcases List.mem_append.mp member with inBody | isLast
      · exact Registry.uninvokedNormal ops (settled u inBody).2 isIden
      · rw [List.mem_singleton.mp isLast, met.1] at isIden
        contradiction
    · -- Nothing in the output invokes anything, so that a scan takes it as it is.
      obtain ⟨enough, ends⟩ := unitEnds idle.words (.tokens (last.out.toList ++ [t])) rfl
        (.inr ⟨t, rfl, met.1⟩) (fun start ready => Scan.stillScans (idle.registry ▸ ops)
          (idle.registry ▸ settled) ready) (admitsTokens _ again _)
      exact ⟨enough, fun more enoughSteps => (ends more enoughSteps).1.ofBalanced balanced⟩

theorem outputText {answer : Except Stop (List Token)} {text : String}
    (given : answer.toOption.map Tokens.text = some text) :
    ∃ ts, answer = .ok ts ∧ Tokens.text ts = text := by
  cases answer with
  | error e => cases given
  | ok ts => exact ⟨ts, rfl, Option.some.inj given⟩

-- The argument is `B`, which stands for `A`, which mentions itself.
theorem unitOutputNormalOfSelfReference :
    let s := ((define "F(x) x F" none).run.run ((define "B A" none).run.run
      ((define "A A + 1" none).run.run {}).2).2).2
    let after := s.expandUnit 20 (.text "F(B)") none
    ∃ ts, after.1 = .ok ts ∧ Tokens.text ts = "A + 1 F" ∧
      (∀ t ∈ ts, t.kind = .iden → s.registry.get? t.value = none ∨ t.mark = some t.value) ∧
      ∃ enough, ∀ more, enough ≤ more →
        (after.2.expandUnit more (.tokens ts) (some "again")).1 = .ok ts := by
  intro s after
  have text : after.1.toOption.map Tokens.text = some "A + 1 F" := by decide +kernel
  have ops : s.registry.ops.isEmpty = true := by decide +kernel
  have first := @defineStatic {} Registry.emptyStatic (by simp [Blocks.handlersFor]) "A A + 1" none
    (by simp) true (some 0)
  have second := @defineStatic _ first.1 first.2 "B A" none (by simp) true (some 0)
  obtain ⟨static, silent⟩ : s.registry.Static ∧ ∀ word, s.blocks.handlersFor word = [] :=
    @defineStatic _ second.1 second.2 "F(x) x F" none (by simp) true (some 0)
  clear_value s
  obtain ⟨ts, ran, written⟩ := outputText text
  obtain ⟨normal, again⟩ := unitOutputNormal static ops silent ran
  exact ⟨ts, ran, written, normal, again (some "again")⟩

end Session

/-! Where tokens come from -/

/- The token is one of a replacement, on the line of a token of the source. -/
def Registry.Supplies (r : Registry) (source : List Token) (t : Token) : Prop :=
  ∃ name d, r.get? name = some d ∧ t.mark = some name ∧
    (∃ u ∈ d.value, u.kind = t.kind ∧ u.value = t.value) ∧ ∃ v ∈ source, v.line = t.line

namespace Scan

variable {n : Nat} {r : Registry} {source : List Token} {s s' : Scan}

/- Numbers that the tokens of the unit have got are from `n` on. -/
structure Sourced (n : Nat) (r : Registry) (source : List Token) (s : Scan) : Prop where
  ahead : ∀ t ∈ s.cursor.ahead, (t.fresh ∈ source ∨ r.Supplies source t) ∧ t.Newer n
  out : ∀ t ∈ s.out.toList, t.fresh ∈ source ∨ r.Supplies source t
  ends : s.cursor.failure ≠ none ∨ ∃ t ∈ s.cursor.ahead, t.kind = .eof
  counted : n ≤ s.session.fresh

theorem sourcedLine {t : Token} (comes : t.fresh ∈ source ∨ r.Supplies source t) :
    ∃ v ∈ source, v.line = t.line := by
  rcases comes with inside | ⟨-, -, -, -, -, line⟩
  · exact ⟨t.fresh, inside, rfl⟩
  · exact line

theorem sourcedNumbered {t : Token} (comes : t.fresh ∈ source ∨ r.Supplies source t)
    (numbering place : Nat) : (t.numbered numbering place).fresh ∈ source ∨
      r.Supplies source (t.numbered numbering place) := by
  obtain ⟨serial, same⟩ := t.numberedSame numbering place
  rw [same]
  exact comes

-- What was taken has no number of before, so that all tokens of the text are new.
theorem settleNew {taken : Array Token} {t : Token} (new : ∀ u ∈ taken.toList, u.Newer n)
    (known : t.Known n) (name : String) (line : Line) :
    settle taken name line t = t.markedBy name line := by
  refine if_neg fun isOne => ?_
  simp only [isTaken, Bool.and_eq_true, Array.any_eq_true', beq_iff_eq] at isOne
  obtain ⟨numbered, u, member, same⟩ := isOne
  obtain ⟨serial, given⟩ := Option.isSome_iff_exists.mp numbered
  have early := known serial given
  have late := new u (Array.mem_toList_iff.mpr member) serial (same.trans given)
  omega

/- The end of the source is not passed over. -/
theorem stillEnds (sourced : s.Sourced n r source) (front : List Token) {rest : List Token}
    (split : s.cursor.ahead = front ++ rest) (solid : ∀ t ∈ front, t.kind ≠ .eof) :
    s.cursor.failure ≠ none ∨ ∃ t ∈ rest, t.kind = .eof := by
  refine sourced.ends.imp_right fun ⟨t, member, isEnd⟩ => ⟨t, ?_, isEnd⟩
  rw [split] at member
  exact (List.mem_append.mp member).resolve_left fun inFront => solid t inFront isEnd

theorem metSourced {t : Token} {cursor : Cursor} (sourced : s.Sourced n r source)
    (met : s.MeetsEnd t cursor) : s.cursor.ahead = t :: cursor.ahead := by
  rcases met.2 with ahead | ⟨nothing, failure, -⟩
  · exact ahead
  · rcases sourced.ends with failed | ⟨u, member, -⟩
    · exact absurd failure failed
    · rw [nothing] at member
      contradiction

theorem goesSourced (sound : r.Sound) (known : r.All fun d => ∀ u ∈ d.value, u.Known n)
    (goes : Goes r s false s') (sourced : s.Sourced n r source) : s'.Sourced n r source := by
  have before := sourced.ahead
  cases goes with
  | @passes t session cursor ahead failure solid still idle fresh =>
    rw [ahead] at before
    obtain ⟨here, later⟩ := List.forall_mem_cons.mp before
    refine ⟨later, fun u member => ?_, ?_, Nat.le_trans sourced.counted fresh⟩
    · rw [Array.toList_push, List.mem_append, List.mem_singleton] at member
      rcases member with earlier | rfl
      · exact sourced.out u earlier
      · exact here.1
    · rw [failure]
      exact stillEnds sourced [t] ahead (by simpa using solid)
  | @replaces t d nameToken front rest args taken session cursor active line ahead solid within took
      after failure idle fresh =>
    rw [ahead] at before
    obtain ⟨here, later⟩ := List.forall_mem_cons.mp before
    have inFront (u : Token) (member : u ∈ front) := later u (List.mem_append_left rest member)
    have new : ∀ u ∈ taken.toList, u.Newer n := fun u member => (inFront u (took u member)).2
    obtain ⟨v, inSource, placed⟩ := sourcedLine here.1
    refine ⟨fun u member => ?_, sourced.out, ?_, Nat.le_trans sourced.counted fresh⟩
    · dsimp only at member
      rw [after] at member
      rcases List.mem_append.mp member with inText | inRest
      · rcases textReplacementMember inText with ⟨arg, isArg, inside⟩ | ⟨w, inside, rfl⟩
        · obtain ⟨w, isRead, place, rfl⟩ := within arg isArg u inside
          obtain ⟨comes, newer⟩ := inFront w isRead
          exact ⟨sourcedNumbered comes _ place, Token.newerNumbered newer sourced.counted place⟩
        · rw [settleNew new (Registry.allActive known active w inside)]
          exact ⟨.inr ⟨d.name, d, Registry.activeGet sound active, rfl, ⟨w, inside, rfl, rfl⟩, v,
            inSource, placed.trans line.symm⟩, Token.newerMarked n w d.name nameToken.line⟩
      · exact later u (List.mem_append_right front inRest)
    · dsimp only
      rw [failure, after]
      refine (stillEnds sourced (t :: front) ahead solid).imp_right ?_
      rintro ⟨u, member, isEnd⟩
      exact ⟨u, List.mem_append_right _ member, isEnd⟩
  | @finishes t session cursor met idle fresh =>
    have ahead := metSourced sourced met
    rw [ahead] at before
    have again : (cursor.prepend [t]).ahead = t :: cursor.ahead := Cursor.aheadPrepend [t] cursor
    refine ⟨fun u member => before u (again ▸ member), sourced.out, .inr ⟨t, ?_, met.1⟩,
      Nat.le_trans sourced.counted fresh⟩
    exact again.symm ▸ List.mem_cons_self

end Scan

namespace Session

variable {s : Session} {text : String} {unitName : Option String}

theorem startSourced (cursor : Cursor) (ahead : cursor.ahead = (Source.text text).cursor.ahead)
    (failure : cursor.failure = (Source.text text).cursor.failure) :
    Scan.Sourced s.fresh s.registry (Lexer.lex text).stream
      { s.unitStart (.text text) unitName with cursor } where
  ahead t member := by
    rw [show cursor.ahead = (Lexer.lex text).stream from ahead] at member
    have unnumbered := Lexer.streamNew text t member
    have same : t.fresh = t := by rw [Token.fresh, ← unnumbered]
    exact ⟨.inl (same.symm ▸ member), by simp [Token.Newer, unnumbered]⟩
  out := by simp [unitStart]
  ends := by
    cases finished : (Lexer.lex text).failure with
    | some e => exact .inl (by simp [failure, Source.cursor, finished])
    | none =>
      refine .inr ⟨Token.endOfInput (some (Lexer.lex text).lastLine), ?_, rfl⟩
      simp [ahead, Source.cursor, Lexer.streamEnds finished]
  counted := by
    have same : (s.beginUnit ((Source.text text).title unitName)).fresh = s.fresh :=
      logTextFresh _ _ _ _
    exact same.ge

-- The numbers that tokens have in the definitions were given out before the unit.
theorem unitOutputOrigin {steps : Nat} {ts : List Token} (static : s.registry.Static)
    (known : s.registry.All fun d => ∀ u ∈ d.value, u.Known s.fresh)
    (silent : ∀ word, s.blocks.handlersFor word = [])
    (ran : (s.expandUnit steps (.text text) unitName).1 = .ok ts) :
    ∀ t ∈ ts, t.fresh ∈ (Lexer.lex text).stream ∨
      ∃ name d, s.registry.get? name = some d ∧ t.mark = some name ∧
        (∃ u ∈ d.value, u.kind = t.kind ∧ u.value = t.value) ∧
        ∃ v ∈ (Lexer.lex text).stream, v.line = t.line := by
  obtain ⟨last, final, sourced, goes, rfl, -⟩ := unitGoes static silent
    (Scan.goesSourced static.sound known) startSourced (Prod.ext ran rfl)
  cases goes with
  | @ends t cursor met =>
    have ahead := Scan.metSourced sourced met
    intro u member
    rw [Array.toList_push, List.mem_append, List.mem_singleton] at member
    rcases member with before | rfl
    · exact sourced.out u before
    · exact (sourced.ahead u (ahead ▸ List.mem_cons_self)).1

theorem madeNew {spec : String} {depth : Nat} {line : Line} {d : Definition}
    (made : Definition.make spec none depth line = .ok d) : ∀ u ∈ d.value, u.serial = none := by
  obtain ⟨h, isHeader, made⟩ := exceptSucceeds made
  obtain ⟨body, read, made⟩ := exceptSucceeds made
  cases made
  cases read
  intro u member
  obtain ⟨ts, parsed, within⟩ := Definition.headerRest isHeader
  obtain ⟨v, isToken, l, rfl⟩ := Lexer.parseTokensSource parsed u (within u member)
  exact (Lexer.lexesNew (Lexer.lexes 1 spec.toList) v isToken).2

theorem defineKnown (known : ∀ n, s.registry.All fun d => ∀ u ∈ d.value, u.Known n)
    (spec : String) (warn : Bool) (line : Line) (n : Nat) :
    ((define spec none warn line).run.run s).2.registry.All fun d => ∀ u ∈ d.value, u.Known n := by
  rcases ran : (define spec none warn line).run.run s with ⟨f | d, s'⟩
  · rw [defineFails ran]
    exact known n
  · obtain ⟨made, registry, -⟩ := defineSucceeds ran
    rw [registry]
    refine Registry.allPush (known n) fun u member => ?_
    simp [Token.Known, madeNew made u member]

-- The operator is two tokens, and the argument stands on a line of its own.
theorem unitOutputOriginOfOperator :
    let s := ((define "TWICE(x) x * x" none).run.run ((define "<+> TWICE" none).run.run {}).2).2
    let text := "a <+>(\nb)"
    ∃ ts, (s.expandUnit 20 (.text text) none).1 = .ok ts ∧ Tokens.text ts = "a b * b" ∧
      ∀ t ∈ ts, t.fresh ∈ (Lexer.lex text).stream ∨
        ∃ name d, s.registry.get? name = some d ∧ t.mark = some name ∧
          (∃ u ∈ d.value, u.kind = t.kind ∧ u.value = t.value) ∧
          ∃ v ∈ (Lexer.lex text).stream, v.line = t.line := by
  intro s text
  have written : (s.expandUnit 20 (.text text) none).1.toOption.map Tokens.text =
      some "a b * b" := by decide +kernel
  have first := @defineStatic {} Registry.emptyStatic (by simp [Blocks.handlersFor]) "<+> TWICE"
    none (by simp) true (some 0)
  obtain ⟨static, silent⟩ : s.registry.Static ∧ ∀ word, s.blocks.handlersFor word = [] :=
    @defineStatic _ first.1 first.2 "TWICE(x) x * x" none (by simp) true (some 0)
  have start (n : Nat) : ({} : Session).registry.All fun d => ∀ u ∈ d.value, u.Known n :=
    ⟨fun name stack found => by simp at found, fun name stack found => by simp at found⟩
  have known : s.registry.All fun d => ∀ u ∈ d.value, u.Known s.fresh :=
    defineKnown (defineKnown start "<+> TWICE" true (some 0)) "TWICE(x) x * x" true (some 0) _
  clear_value s
  obtain ⟨ts, ran, output⟩ := outputText written
  exact ⟨ts, ran, output, unitOutputOrigin static known silent ran⟩

end Session

end LuaExpander
