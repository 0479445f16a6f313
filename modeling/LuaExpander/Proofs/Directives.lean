import LuaExpander.Proofs.Installed
import LuaExpander.Proofs.Texts
import LuaExpander.Proofs.Trimming
import LuaExpander.Proofs.Views

/-! Definitions in the source. A line that begins with `@define` makes the definition that its text
makes when it is given apart: the tokens of the line are put together and lexed once more, as they
were, and the blanks that the line end has taken over are missed by nobody. -/
namespace LuaExpander

/- The operator has its standard meaning. -/
def Registry.Directs (r : Registry) : Prop :=
  ∃ d transformer, r.operator? "@" = some d ∧ d.params = none ∧ d.body = .callable transformer ∧
    transformer.run = Standard.bare fun _ => Standard.directive

theorem Standard.installDirects : (Standard.install {}).registry.Directs := by
  have member : (("@", none), "directive") ∈ titles := by decide
  have only : ∀ x ∈ titles, x.1.1 = "@" → x = (("@", none), "directive") := by decide
  obtain ⟨d, found⟩ := Option.isSome_iff_exists.mp (installDefined _ member)
  obtain ⟨e, isEntry, id, inside, body⟩ := installMeans.2.2 "@" d found
  have same := only _ inside rfl
  simp only [Prod.mk.injEq, true_and] at same
  refine ⟨d, _, ?_, same.1, body, ?_⟩
  · rw [Registry.get?, Registry.stack?, if_neg (by decide)] at found
    exact found
  · have runs : ∀ e ∈ definitions, e.2.1 = "directive" → e.2.2 = bare fun _ => directive := by
      simp [definitions]
    exact runs e isEntry same.2

namespace Tokens

/- What stands behind the operator: the word, the rest of the line, and the blank that ends it. -/
structure Declares (word : Token) (ts : List Token) (gap : Token) : Prop where
  isName : word.kind = .iden
  defines : word.value = "define"
  inLine : ∀ t ∈ ts, t.kind ≠ .eof ∧ '\n' ∉ t.value.toList
  isBlank : gap.kind.isBlank = true
  ends : '\n' ∈ gap.value.toList

theorem freshSame {t u : Token} (same : u.fresh = t.fresh) :
    u.kind = t.kind ∧ u.value = t.value ∧ u.line = t.line := by
  have kind := congrArg Token.kind same
  have value := congrArg Token.value same
  have line := congrArg Token.line same
  exact ⟨kind, value, line⟩

theorem freshNew {ts : List Token} (new : ∀ t ∈ ts, t.serial = none) : ts.map Token.fresh = ts := by
  refine (List.map_congr_left fun t member => ?_).trans ts.map_id
  rw [Token.fresh, ← new t member]
  rfl

theorem declaresFresh {word word' gap gap' : Token} {ts us : List Token}
    (declares : Declares word ts gap) (sameWord : word'.fresh = word.fresh)
    (sameLine : us.map Token.fresh = ts.map Token.fresh) (sameGap : gap'.fresh = gap.fresh) :
    Declares word' us gap' := by
  obtain ⟨wordKind, wordValue, -⟩ := freshSame sameWord
  obtain ⟨gapKind, gapValue, -⟩ := freshSame sameGap
  refine ⟨wordKind.trans declares.isName, wordValue.trans declares.defines, fun u member => ?_,
    gapKind ▸ declares.isBlank, gapValue ▸ declares.ends⟩
  have inside := List.mem_map_of_mem (f := Token.fresh) member
  rw [sameLine] at inside
  obtain ⟨t, isToken, same⟩ := List.mem_map.mp inside
  obtain ⟨kind, value, -⟩ := freshSame same
  rw [← kind, ← value]
  exact declares.inLine t isToken

end Tokens

namespace Reader

open Tokens

variable {r : Reader} {us rest : List Token} {word gap : Token}

theorem lineReads (declares : Declares word us gap) (ahead : r.cursor.ahead = us ++ gap :: rest) :
    ∃ r', line.run.run r = (.ok us, r') ∧ Took us r r' := by
  have inLine := declares.inLine
  have run : r.cursor.ahead.takeWhile (fun t =>
      !(t.kind = .eof || (t.kind.isBlank && '\n' ∈ t.value.toList))) = us := by
    rw [ahead, List.takeWhile_append_of_pos fun u member => by simp [inLine u member],
      List.takeWhile_cons_of_neg (by simp [declares.isBlank, declares.ends]), List.append_nil]
  have took : Took us r (r.took us) := tookFront ahead fun u member => (inLine u member).1
  obtain ⟨cursor, looked, -, -⟩ := peekHead (tookLeaves took ahead)
  have ran : line.run.run r = (.ok us, { r.took us with cursor }) := by
    rw [line, whileRuns, run, runBind, looked]
    rfl
  exact ⟨_, ran, lineTakes ran⟩

end Reader

/- A program that goes on after what it begins with. -/
theorem Action.programFollows {α : Type} {f g : Frame} {act : Action α}
    {later : α → Action (Value × Builder)} {a : α} (first : Yields f act a g) :
    (act >>= later).toProgram.run f = (later a).toProgram.run g := first _ _

namespace Standard

open Tokens

theorem definingRuns (spec : String) (line : Line) (f : Frame) :
    (do
      Action.ask (.define spec none line)
      built .empty : Action (Value × Builder)).toProgram.run f =
        let ran := (Session.declare spec none true line).run.run f.session
        (ran.1.map fun _ => (.nothing, .empty), { f with session := ran.2 }) := by
  have answered : f.answer (.define spec none line) =
      let ran := (Session.declare spec none true line).run.run f.session
      (ran.1.map fun _ => (), { f with session := ran.2 }) := by
    rw [Frame.answer, Frame.inSession, Option.map_none, runBind]
    dsimp only
    rcases (Session.declare spec none true line).run.run f.session with ⟨e | d, after⟩ <;> rfl
  change (Program.ask (.define spec none line) _).run f = _
  rw [Program.run, answered]
  rcases (Session.declare spec none true line).run.run f.session with ⟨e | d, after⟩ <;> rfl

theorem directiveRuns {r : Reader} {word gap : Token} {us rest : List Token}
    (declares : Declares word us gap) (ahead : r.cursor.ahead = word :: (us ++ gap :: rest))
    (session : Session) :
    ∃ r', r'.cursor.ahead = gap :: rest ∧ r'.cursor.failure = r.cursor.failure ∧
      directive.toProgram.run { session, reader := some r } =
        let ran := (Session.declare (text us) none true word.line).run.run session
        (ran.1.map fun _ => (.nothing, .empty), { session := ran.2, reader := some r' }) := by
  obtain ⟨r₁, skipped, left₁, one⟩ := @Reader.blankSkips r (us ++ gap :: rest) word [] ahead
    (by simp) (by simp [declares.isName, Kind.isBlank])
  obtain ⟨r₂, named, two⟩ := @Reader.nameReads r₁ word [] (us ++ gap :: rest) left₁ (by simp)
    declares.isName
  obtain ⟨r₃, read, three⟩ := Reader.lineReads declares (Reader.tookLeaves two left₁)
  have took := (one.trans two).trans three
  refine ⟨r₃, Reader.tookLeaves took (by simp [ahead]), took.failure, ?_⟩
  rw [declares.defines] at named
  let f (r : Reader) : Frame := { session, reader := some r }
  have first : Action.Yields (f r) (Action.read .skipBlank) word (f r₁) :=
    Action.yieldsRead rfl skipped
  have second : Action.Yields (f r₁) (Action.read .name) "define" (f r₂) :=
    Action.yieldsRead rfl named
  have third : Action.Yields (f r₂) (Action.read .line) us (f r₃) := Action.yieldsRead rfl read
  have reads : directive.toProgram.run (f r) =
      (do
        Action.ask (.define (text us) none word.line)
        built .empty : Action (Value × Builder)).toProgram.run (f r₃) := by
    rw [directive, Action.programFollows first, Action.programFollows second]
    exact Action.programFollows third
  exact reads.trans (definingRuns (text us) word.line (f r₃))

end Standard

namespace Session

theorem installFresh (d : Definition) (warn : Bool) (s : Session) (fresh : Nat) :
    ({ s with fresh } : Session).install d warn = { s.install d warn with fresh } := by
  have redefines : ({ s with fresh } : Session).redefines d = s.redefines d := rfl
  unfold install
  rw [redefines]
  cases warn && s.redefines d <;> rcases s with ⟨_, _, _, _, _, _ | log⟩ <;> rfl

theorem declareApart {s u : Session} {fresh : Nat} (alike : Alike { s with fresh } u)
    (spec : String) (meaning : Option Definition.Meaning) (warn : Bool) (line : Line) :
    ∃ log, (declare spec meaning warn line).run.run u =
      let ran := (declare spec meaning warn line).run.run s
      (ran.1, { ran.2 with log, fresh }) := by
  have numbered : (declare spec meaning warn line).run.run { s with fresh } =
      let ran := (declare spec meaning warn line).run.run s
      (ran.1, { ran.2 with fresh }) := by
    have same : ({ s with fresh } : Session).cannotWarn spec meaning warn line =
      s.cannotWarn spec meaning warn line := rfl
    simp only [declare, runBind, runGet, same]
    cases s.cannotWarn spec meaning warn line with
    | true => rfl
    | false =>
      simp only [Bool.false_eq_true, if_false, defineRuns]
      cases Definition.make spec meaning s.blocks.depth line with
      | error f => rfl
      | ok d => exact congrArg (Prod.mk _) (installFresh d warn s fresh)
  obtain impossible | ⟨answers, log, after⟩ := (declareBlind spec meaning warn line).agrees alike
  · exact impossible.elim
  · rw [numbered] at answers after
    exact ⟨log, Prod.ext answers after⟩

end Session

namespace Scan

open Tokens

variable {s : Scan} {t word gap : Token} {ts rest : List Token}
  {answer : Except Failure Definition} {session : Session}

/- The tokens behind the operator, numbered before the transformer may look at them. -/
theorem numberedLine (c : Cursor) (ahead : c.ahead = word :: (ts ++ gap :: rest))
    (declares : Declares word ts gap) (numbering : Nat) :
    ∃ word' us gap' rest', (c.number numbering).1.ahead = word' :: (us ++ gap' :: rest') ∧
      Declares word' us gap' ∧ word'.line = word.line ∧ text us = text ts ∧
      (gap' :: rest').map Token.fresh = (gap :: rest).map Token.fresh := by
  have same := View.freshNumbered numbering 0 c.ahead
  rw [ahead, List.map_cons, List.map_append] at same
  obtain ⟨word', others, numbered, sameWord, isRest⟩ := List.map_eq_cons_iff.mp same
  obtain ⟨us, after, rfl, sameLine, isAfter⟩ := List.map_eq_append_iff.mp isRest
  obtain ⟨gap', rest', rfl, sameGap, -⟩ := List.map_eq_cons_iff.mp isAfter
  refine ⟨word', us, gap', rest', ?_, declaresFresh declares sameWord sameLine sameGap,
    (freshSame sameWord).2.2, ?_, isAfter⟩
  · rw [Cursor.aheadNumber, ahead, numbered]
  · have values := congrArg (List.map Token.value) sameLine
    simp only [List.map_map] at values
    exact congrArg String.join values

/- What comes of a directive: nothing, or the failure of the definition. -/
def outcome (d : Definition) (nameToken : Token) :
    Except Failure Definition → Except Stop (List Token)
  | .ok _ => .ok []
  | .error f => .error (.failed (callError d nameToken f))

theorem directiveReplaces {d : Definition} {transformer : Transformer} (params : d.params = none)
    (body : d.body = .callable transformer)
    (runs : transformer.run = Standard.bare fun _ => Standard.directive)
    (declares : Declares word ts gap) (ahead : s.cursor.ahead = word :: (ts ++ gap :: rest))
    (nameToken : Token)
    (defines : (Session.declare (text ts) none true word.line).run.run s.session =
      (answer, session)) :
    ∃ log fresh cursor, cursor.ahead.map Token.fresh = (gap :: rest).map Token.fresh ∧
      cursor.failure = s.cursor.failure ∧
      ∀ expand, (replacement expand d nameToken).run.run s =
        (outcome d nameToken answer,
          { s with session := { session with log, fresh }, cursor }) := by
  obtain ⟨word', us, gap', rest', numbered, declares', line, spelled, after⟩ :=
    numberedLine s.cursor ahead declares s.session.fresh
  let called : Scan := calling d nameToken s
  obtain ⟨log, apart⟩ : ∃ log, (Session.declare (text ts) none true word.line).run.run
      called.session = _ := Session.declareApart
    (Session.logCallAlike nameToken d [] { s.session with fresh := s.session.fresh + 1 }) _ _ _ _
  rw [defines] at apart
  obtain ⟨r, left, failure, ran⟩ := @Standard.directiveRuns
    { cursor := called.cursor, origin := some nameToken } word' gap' us rest' declares' numbered
    called.session
  rw [spelled, line, apart] at ran
  refine ⟨log, s.session.fresh + 1, r.cursor, left ▸ after,
    failure.trans (Cursor.failureNumber _ _), fun expand => ?_⟩
  rw [bareReplaces params body]
  refine (bareCalls params (s := called) (by rw [runs]; exact ran) [] #[]).trans ?_
  cases answer with
  | error f => rfl
  | ok e =>
    have nothing : callResult d (.nothing, .empty) = .builder .empty := by
      simp [callResult, Definition.isFunction, params]
    have none : (callResult d (.nothing, .empty)).toTokens = .ok [] := by
      rw [nothing]
      rfl
    simp only [Except.map, bind, Except.bind, none]
    rfl

theorem directiveSteps (directs : s.session.registry.Directs) (isOp : t.kind = .op)
    (isAt : t.value = "@") (unmarked : t.mark = none) (declares : Declares word ts gap)
    (ahead : s.cursor.ahead = t :: word :: (ts ++ gap :: rest))
    (defines : (Session.declare (text ts) none true word.line).run.run s.session =
      (answer, session)) :
    ∃ d log fresh cursor, cursor.ahead.map Token.fresh = (gap :: rest).map Token.fresh ∧
      cursor.failure = s.cursor.failure ∧
      ∀ expand, (step expand).run.run s =
        ((outcome d t answer).map fun _ => false,
          { s with session := { session with log, fresh }, cursor }) := by
  obtain ⟨d, transformer, active, params, body, runs⟩ := directs
  let taken : Cursor := s.cursor.drop 1
  have named : s.session.registry.operator? (text [t]) = some d := by
    rw [show text [t] = "@" by simp [text, isAt]]
    exact active
  have behind : taken.ahead = [] ++ word :: (ts ++ gap :: rest) := by simp [taken, ahead]
  obtain ⟨nameToken, c, found, -, isName, left, failure⟩ := Registry.findRun (c := taken) isOp
    (by simp) (by simp) named (by simp) (by simpa using unmarked) behind (by simp [declares.isName])
  obtain rfl : nameToken = t := isName rfl
  have kept : c.failure = s.cursor.failure := failure.trans (Cursor.failureDrop 1 s.cursor)
  have goes (expand : ArgumentExpander) : (step expand).run.run s =
      (plain expand nameToken >>= fun _ => pure false).run.run { s with cursor := taken } := by
    rw [stepTakes ahead, isOp]
  obtain ⟨log, fresh, cursor, seen, still, replaces⟩ := directiveReplaces
    (s := { s with cursor := c }) params body runs declares left nameToken defines
  cases answer with
  | error f =>
    refine ⟨d, log, fresh, cursor, seen, still.trans kept, fun expand => ?_⟩
    rw [goes, runBind, plainFound found, runBind, replaces]
    rfl
  | ok e =>
    obtain ⟨log', logged⟩ : Session.Alike { session with log, fresh }
        ({ session with log, fresh }.logReplaced nameToken []) := Session.logTextAlike _ _ _ _
    refine ⟨d, log', fresh, cursor.prepend [], seen, still.trans kept, fun expand => ?_⟩
    rw [goes, runBind, plainFound found, runBind, replaces]
    change (Except.ok false, { s with
      session := ({ session with log, fresh } : Session).logReplaced nameToken []
      cursor := cursor.prepend [] }) = _
    rw [logged]
    rfl

/- A unit that begins with a directive goes on behind it, or fails with it. -/
theorem unitDirected (silent : s.session.blocks.handlersFor "BEGIN" = [])
    (directs : s.session.registry.Directs) (isOp : t.kind = .op) (isAt : t.value = "@")
    (unmarked : t.mark = none) (declares : Declares word ts gap)
    (ahead : s.cursor.ahead = t :: word :: (ts ++ gap :: rest))
    (defines : (Session.declare (text ts) none true word.line).run.run s.session =
      (answer, session)) :
    ∃ d log fresh cursor, cursor.ahead.map Token.fresh = (gap :: rest).map Token.fresh ∧
      cursor.failure = s.cursor.failure ∧
      ∀ steps, unit (steps + 1) s =
        match answer with
        | .ok _ => run steps { s with session := { session with log, fresh }, cursor }
        | .error f => (.error (.failed (callError d t f)),
            { s with session := { session with log, fresh }, cursor }) := by
  let looked : Cursor := (s.cursor.drop 1).putBack t
  have same : looked.ahead = s.cursor.ahead := by simp [looked, Cursor.putBack, ahead]
  obtain ⟨d, log, fresh, cursor, left, failure, steps⟩ := directiveSteps
    (s := { s with cursor := looked }) directs isOp isAt unmarked declares (same.trans ahead) defines
  refine ⟨d, log, fresh, cursor, left, failure.trans (Cursor.failureDrop 1 s.cursor),
    fun more => ?_⟩
  rw [unit, beginPeeks silent (Cursor.peekToken ahead)]
  dsimp only
  rw [run, steps]
  cases answer <;> rfl

end Scan

theorem Tokens.textHolds {t : Token} {ts : List Token} (member : t ∈ ts) {c : Char}
    (inside : c ∈ t.value.toList) : c ∈ (text ts).toList := by
  obtain ⟨before, after, rfl⟩ := List.append_of_mem member
  simp [text, inside]

namespace Lexer

open Tokens

theorem streamFront (ts : List Token) (l : Lexed) :
    Lexed.stream { l with tokens := ts ++ l.tokens } = ts ++ l.stream := by
  induction ts with
  | nil => rfl
  | cons t ts ih => exact (streamCons t { l with tokens := ts ++ l.tokens }).trans (by rw [ih]; rfl)

theorem directiveLexes {line : String}
    (indented : ∃ c cs, line.toList = c :: cs ∧ Text.isBlank c = true)
    (inLine : '\n' ∉ line.toList) (finished : (lex line).failure = none) (rest : String) :
    ∃ ts blanks trail more after, (lex line).tokens = ts ++ blanks ∧
      (∀ b ∈ blanks, b.kind.isBlank = true ∧ b.value ≠ "(") ∧
      text ts ++ String.ofList trail = line ∧
      (lex ("@define" ++ line ++ "\n" ++ rest)).stream =
        lexeme .op ['@'] 1 :: lexeme .iden "define".toList 1 ::
          (ts ++ lexeme .space (trail ++ '\n' :: more) 1 :: after) := by
  obtain ⟨c, cs, isLine, isBlank⟩ := indented
  obtain ⟨ts, blanks, trail, tokens, spelled, isSpace, blank, lexed⟩ :=
    lexesLine (lexes 1 line.toList) finished inLine rest.toList
  have tokens : (lex line).tokens = ts ++ blanks := tokens
  have source : ("@define" ++ line ++ "\n" ++ rest).toList =
      '@' :: ("define".toList ++ (line.toList ++ '\n' :: rest.toList)) := by simp
  have isAt (cs : List Char) : Lexeme.first (['@'] ++ cs) = .lexeme .op ['@'] cs := rfl
  have isWord : lexFrom 0 1 "define".toList = ⟨[lexeme .iden "define".toList 1], none, 1⟩ :=
    lexName (by decide) (by decide) 1
  have wordLexes := lexes 1 "define".toList
  rw [isWord] at wordLexes
  have joint := lexJoined (Lexeme.blankParts isBlank) wordLexes rfl
    (by simp [lexeme, Kind.isBlank]) (cs ++ '\n' :: rest.toList)
  rw [← List.cons_append, ← isLine, lexed] at joint
  have front := lexCons (isAt ("define".toList ++ (line.toList ++ '\n' :: rest.toList))) 1
  refine ⟨ts, blanks, trail, rest.toList.takeWhile Text.isBlank, Lexed.stream (lexFrom 0
    (1 + (trail ++ '\n' :: rest.toList.takeWhile Text.isBlank).count '\n')
    (rest.toList.dropWhile Text.isBlank)), tokens, ?_, ?_, ?_⟩
  · intro b member
    rw [isSpace b member]
    refine ⟨rfl, fun isOpener => ?_⟩
    have opens : trail = ['('] := by simpa [lexeme] using congrArg String.toList isOpener
    exact absurd (blank '(' (by simp [opens])) (by decide)
  · rw [← spelled, ← textAppend, ← tokens, lexedText finished]
  · rw [lex, source]
    refine (congrArg Lexed.stream front).trans ?_
    rw [show 1 + ['@'].count '\n' = 1 from rfl, joint, streamCons]
    refine congrArg (_ :: ·) ((streamCons _ _).trans (congrArg (_ :: ·) ?_))
    exact (streamFront ts { lexFrom 0 _ _ with tokens := _ :: _ }).trans
      (congrArg (ts ++ ·) (streamCons _ _))

theorem lineDeclares {line : String} (inLine : '\n' ∉ line.toList) {ts blanks : List Token}
    (tokens : (lex line).tokens = ts ++ blanks) {trail : List Char}
    (spelled : text ts ++ String.ofList trail = line) (more : List Char) :
    Declares (lexeme .iden "define".toList 1) ts (lexeme .space (trail ++ '\n' :: more) 1) := by
  have filled := lexesFilled (lexes 1 line.toList)
  rw [show (lexFrom 0 1 line.toList).tokens = ts ++ blanks from tokens] at filled
  refine ⟨rfl, by decide, fun t member => ⟨?_, fun inside => inLine ?_⟩, rfl, by simp [lexeme]⟩
  · exact (filled t (List.mem_append_left blanks member)).2
  · rw [← spelled, String.toList_append]
    exact List.mem_append_left _ (textHolds member inside)

end Lexer

namespace Session

open Tokens

theorem defineTrimmed {spec : String} (finished : (Lexer.lex spec).failure = none)
    {ts blanks : List Token} (tokens : (Lexer.lex spec).tokens = ts ++ blanks)
    (blank : ∀ b ∈ blanks, b.kind.isBlank = true ∧ b.value ≠ "(") {line : Line}
    (shown : (Line.shown? line).isSome = true) (meaning : Option Definition.Meaning) (warn : Bool)
    (s : Session) :
    (define spec meaning warn line).run.run s = (define (text ts) meaning warn line).run.run s := by
  rw [defineRuns, defineRuns, Definition.makeTrimmed finished tokens blank shown]

theorem textStartPlaced (contents : String) (unitName : Option String) (s : Session) :
    let session := (s.unitStart (.text contents) unitName).session
    session.isPlaced session.unitName = true := by
  obtain ⟨name, titled⟩ := @titleUnnumbered (.text contents)
    (fun number => by simp [Source.name?]) unitName
  change isPlaced (s.beginUnit _).unitName _ = true
  rw [beginUnitTitle, titled]
  rfl

theorem directiveDefines {s : Session} (silent : s.blocks.handlersFor "BEGIN" = [])
    (directs : s.registry.Directs) {line : String}
    (indented : ∃ c cs, line.toList = c :: cs ∧ Text.isBlank c = true)
    (inLine : '\n' ∉ line.toList) (finished : (Lexer.lex line).failure = none) (rest : String)
    (unitName : Option String) :
    let source : Source := .text ("@define" ++ line ++ "\n" ++ rest)
    let start := s.unitStart source unitName
    (∀ d defined, (define line none true (some 1)).run.run start.session = (.ok d, defined) →
      ∃ before gap after trail blanks, source.cursor.ahead = before ++ gap :: after ∧
        text before ++ trail = "@define" ++ line ∧
        gap.kind = .space ∧ gap.value = trail ++ "\n" ++ blanks ∧
        ∃ log fresh cursor, cursor.ahead.map Token.fresh = gap :: after ∧
          cursor.failure = source.cursor.failure ∧
          ∀ steps, Scan.unit (steps + 1) start =
            Scan.run steps { start with session := { defined with log, fresh }, cursor }) ∧
    ∀ f unchanged, (define line none true (some 1)).run.run start.session = (.error f, unchanged) →
      ∃ e, f = .error e ∧ ∀ steps, ∃ e' after,
        s.expandUnit (steps + 1) source unitName = (.error (.failed (.error e')), after) ∧
          e'.kind = e.kind ∧ after.registry = s.registry := by
  intro source start
  obtain ⟨ts, blanks, trail, more, after, tokens, blank, spelled, stream⟩ :=
    Lexer.directiveLexes indented inLine finished rest
  have ahead : start.cursor.ahead = _ := stream
  have silent : start.session.blocks.handlersFor "BEGIN" = [] := by
    rw [show start.session.blocks = s.blocks.reset from beginUnitBlocks _ s]
    exact silent
  have registry : start.session.registry = s.registry := beginUnitRegistry _ s
  have directs : start.session.registry.Directs := registry ▸ directs
  have declares := Lexer.lineDeclares inLine tokens spelled more
  have shown : (Line.shown? (some 1)).isSome = true := rfl
  have declared : (declare (text ts) none true (some 1)).run.run start.session =
      (define line none true (some 1)).run.run start.session :=
    (declarePlaced (textStartPlaced _ unitName s) (text ts) none true (some 1)).trans
      (defineTrimmed finished tokens blank shown none true start.session).symm
  refine ⟨fun d defined defines => ?_, fun f unchanged defines => ?_⟩
  · rw [← declared] at defines
    obtain ⟨called, log, fresh, cursor, left, failure, steps⟩ :=
      Scan.unitDirected silent directs rfl rfl rfl declares ahead defines
    refine ⟨Lexer.lexeme .op ['@'] 1 :: Lexer.lexeme .iden "define".toList 1 :: ts, _, after,
      String.ofList trail, String.ofList more, ahead, ?_, rfl, ?_, log, fresh, cursor, ?_, failure,
      steps⟩
    · rw [← spelled]
      simp only [text, Lexer.lexeme, List.map_cons, String.join_cons, String.append_assoc]
      rw [← String.append_assoc]
      rfl
    · exact String.toList_injective (by simp [Lexer.lexeme])
    · have new := Lexer.streamNew ("@define" ++ line ++ "\n" ++ rest)
      rw [stream] at new
      exact left.trans (freshNew fun t member =>
        new t (.tail _ (.tail _ (List.mem_append_right ts member))))
  · obtain rfl := defineFails defines
    obtain ⟨e, rfl⟩ : ∃ e, f = .error e := by
      have isError := defineThrows line true (some 1) _ f (congrArg Prod.fst defines)
      cases f with
      | error e => exact ⟨e, rfl⟩
      | fault x => exact isError.elim
    rw [← declared] at defines
    obtain ⟨d, log, fresh, cursor, -, -, steps⟩ :=
      Scan.unitDirected silent directs rfl rfl rfl declares ahead defines
    refine ⟨e, rfl, fun more => ?_⟩
    obtain ⟨⟨name, fails⟩, kept⟩ := expandUnitFails (admitsText _ unitName s) (steps more)
    exact ⟨_, _, Prod.ext fails rfl, rfl, kept.trans registry⟩

theorem directiveDefinesOrFails :
    let s := Standard.install {}
    let source (line : String) : Source := .text ("@define" ++ line ++ "\n" ++ "  y = 'open")
    let start := s.unitStart (source " MAX(a, b) a > b and a or b \t") none
    (∃ d defined log fresh cursor,
      (define " MAX(a, b) a > b and a or b \t" none true (some 1)).run.run start.session =
        (.ok d, defined) ∧
      d.name = "MAX" ∧ d.params = some ["a", "b"] ∧
      (∃ gap after, cursor.ahead.map Token.fresh = gap :: after ∧ gap.kind = .space) ∧
      ∀ steps, Scan.unit (steps + 1) start =
        Scan.run steps { start with session := { defined with log, fresh }, cursor }) ∧
    ∀ steps, ∃ e after,
      s.expandUnit (steps + 1) (source " 1 2") none = (.error (.failed (.error e)), after) ∧
        e.kind = .unexpectedToken ∧ after.registry = s.registry := by
  have silent : (Standard.install {}).blocks.handlersFor "BEGIN" = [] := by
    rw [Standard.installMeans.2.1]
    rfl
  have directs := Standard.installDirects
  -- Nothing else of the installed session matters, and it is costly to evaluate.
  generalize Standard.install {} = s at silent directs ⊢
  intro _ source start
  have defines (line spec : String) := defineRuns spec none true (some 1)
    (s.unitStart (source line) none).session
  have depth (line : String) : (s.unitStart (source line) none).session.blocks.depth = 0 := by
    rw [unitStart, beginUnitBlocks]
    rfl
  constructor
  · let line := " MAX(a, b) a > b and a or b \t"
    have titled : (Definition.make line none 0 (some 1)).toOption.map
        (fun d => (d.name, d.params)) = some ("MAX", some ["a", "b"]) := by decide +kernel
    have defines := defines line line
    rw [depth] at defines
    cases made : Definition.make line none 0 (some 1) with
    | error f =>
      rw [made] at titled
      contradiction
    | ok d =>
      rw [made] at titled defines
      obtain ⟨name, params⟩ := Prod.mk.inj (Option.some.inj titled)
      obtain ⟨-, gap, after, -, -, -, -, isSpace, -, log, fresh, cursor, left, -, continues⟩ :=
        (@directiveDefines s silent directs line
          ⟨' ', line.toList.tail, by decide +kernel, by decide⟩ (by decide) (by decide +kernel)
          "  y = 'open" none).1 d _ defines
      exact ⟨d, _, log, fresh, cursor, defines, name, params, ⟨gap, after, left, isSpace⟩,
        continues⟩
  · have refused : (Definition.make " 1 2" none 0 (some 1)).map (fun _ => ()) =
        .error (.error ⟨.notAName "1", some 1, none⟩) := by decide +kernel
    have defines := defines " 1 2" " 1 2"
    rw [depth] at defines
    cases made : Definition.make " 1 2" none 0 (some 1) with
    | ok d =>
      rw [made] at refused
      contradiction
    | error f =>
      rw [made] at refused defines
      obtain rfl := Except.error.inj refused
      obtain ⟨e, isError, fails⟩ := (@directiveDefines s silent directs " 1 2"
        ⟨' ', _, rfl, by decide⟩ (by decide) (by decide +kernel) "  y = 'open" none).2 _ _ defines
      cases isError
      exact fails

end Session

end LuaExpander
