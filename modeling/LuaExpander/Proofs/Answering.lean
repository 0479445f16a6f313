import LuaExpander.Proofs.Arguments
import LuaExpander.Proofs.Balance
import LuaExpander.Proofs.Integers
import LuaExpander.Proofs.Likeness
import LuaExpander.Proofs.Reading
import LuaExpander.Proofs.Tables
import Std.Data.ExtTreeMap.Lemmas

/-! What a program is answered, for the questions of loops: what reading finds where the tokens to
come are known, and what becomes of a session that publishes a value or defines a name until the
end of a block. -/
namespace LuaExpander

namespace Action

variable {α β : Type} {f g h : Frame}

/- The action goes on with `a`, in the frame `g`. -/
def Yields (f : Frame) (act : Action α) (a : α) (g : Frame) : Prop :=
  ∀ next failed, (act next failed).run f = (next a).run g

theorem yieldsPure (a : α) : Yields f (pure a) a f := fun _ _ => rfl

theorem yieldsBind {act : Action α} {later : α → Action β} {a : α} {b : β}
    (first : Yields f act a g) (second : Yields g (later a) b h) :
    Yields f (act >>= later) b h := by
  intro next failed
  have began : ((act >>= later) next failed).run f = (later a next failed).run g :=
    first (fun a => later a next failed) failed
  rw [began, second]

theorem yieldsAsk {q : Query} {a : q.Answer} (answered : f.answer q = (.ok a, g)) :
    Yields f (ask q) a g := by
  intro next failed
  rw [ask, Program.run, answered]

theorem yieldsRead {op : Reader.Op} {a : op.Answer} {r r' : Reader} (reader : f.reader = some r)
    (ran : (Reader.perform op).run.run r = (.ok a, r')) :
    Yields f (read op) a { f with reader := some r' } := by
  refine yieldsAsk ?_
  simp only [Frame.answer, Frame.reading, reader, ran]

theorem yieldsContext {op : ContextOp} {a : Value} {session : Session}
    (ran : (Session.context op).run.run f.session = (.ok a, session)) :
    Yields f (ask (.context op)) a { f with session } := by
  refine yieldsAsk ?_
  simp only [Frame.answer, Frame.inSession, ran]

theorem yieldsScope {name : String} {value : Option Value} {d : Definition} {session : Session}
    (ran : (Session.scope name (value.map .value)).run.run f.session = (.ok d, session)) :
    Yields f (ask (.scope name value)) () { f with session } := by
  refine yieldsAsk ?_
  rw [Frame.answer, Frame.inSession, runBind, ran]
  rfl

theorem programYields {act : Action (Value × Builder)} {r : Value × Builder}
    (yields : Yields f act r g) : act.toProgram.run f = (.ok r, g) := yields _ _

end Action

namespace Tokens

/- The tokens lead from one number of open blocks to another and never close one that is not
open. -/
inductive Climbs : Nat → List Token → Nat → Prop where
  | nil {n} : Climbs n [] n
  | opens {m n t ts} (opener : t.opensBlock = true) (later : Climbs (m + 1) ts n) :
      Climbs m (t :: ts) n
  | closes {m n t ts} (closer : t.closesBlock = true) (noOpener : t.opensBlock = false)
      (later : Climbs m ts n) : Climbs (m + 1) (t :: ts) n
  | inert {m n t ts} (noOpener : t.opensBlock = false) (noCloser : t.closesBlock = false)
      (later : Climbs m ts n) : Climbs m (t :: ts) n

theorem levelCons (t : Token) (ts : List Token) : level (t :: ts) = level [t] + level ts :=
  levelAppend [t] ts

theorem climbsAbove {ts : List Token} {m n : Nat}
    (above : ∀ front, front <+: ts → 0 ≤ (m : Int) + level front)
    (ends : (m : Int) + level ts = n) : Climbs m ts n := by
  induction ts generalizing m with
  | nil =>
    obtain rfl : m = n := by
      rw [show level [] = 0 from rfl] at ends
      omega
    exact .nil
  | cons t ts ih =>
    rw [levelCons] at ends
    have later (front : List Token) (isFront : front <+: ts) :
        0 ≤ (m : Int) + (level [t] + level front) := by
      rw [← levelCons]
      exact above _ (List.cons_prefix_cons.mpr ⟨rfl, isFront⟩)
    cases opener : t.opensBlock with
    | true =>
      rw [levelOpener opener] at ends later
      refine .opens opener (ih (fun front isFront => ?_) (by omega))
      have := later front isFront
      omega
    | false =>
      cases closer : t.closesBlock with
      | true =>
        rw [levelCloser closer] at ends later
        have here := later [] (List.nil_prefix)
        rw [show level [] = 0 from rfl] at here
        obtain ⟨k, rfl⟩ : ∃ k, m = k + 1 := ⟨m - 1, by omega⟩
        refine .closes closer opener (ih (fun front isFront => ?_) (by omega))
        have := later front isFront
        omega
      | false =>
        rw [levelInert ⟨opener, closer⟩] at ends later
        refine .inert opener closer (ih (fun front isFront => ?_) (by omega))
        have := later front isFront
        omega

theorem balancedClimbs {ts : List Token} (balanced : Balanced ts) : Climbs 0 ts 0 := by
  refine climbsAbove (fun front isFront => ?_) ?_
  · have := balanced.1 front isFront
    omega
  · have := balanced.2
    omega

end Tokens

namespace Reader

variable {r : Reader} {t : Token} {blanks rest : List Token}

section

variable (ahead : r.cursor.ahead = blanks ++ t :: rest)
  (blank : ∀ u ∈ blanks, u.kind.isBlank = true) (solid : t.kind.isSolid = true)
include ahead blank solid

theorem ofKindReads (wanted : String) :
    ∃ r', (ofKind t.kind wanted).run.run r = (.ok t, r') ∧ Took (blanks ++ [t]) r r' := by
  obtain ⟨skipped, r', hs, hn, took⟩ := solidReads ahead blank solid
  refine ⟨r', ?_, took⟩
  rw [ofKind, runBind, hs]
  dsimp only
  rw [runBind, hn]
  dsimp only
  rw [if_pos rfl]
  rfl

theorem expectingReads {expected : Expected} (meets : expected.meets t = true) :
    ∃ r', (expecting expected).run.run r = (.ok t.value, r') ∧ Took (blanks ++ [t]) r r' := by
  obtain ⟨skipped, r', hs, hn, took⟩ := solidReads ahead blank solid
  refine ⟨r', ?_, took⟩
  rw [expecting, runBind, hs]
  dsimp only
  rw [runBind, hn]
  dsimp only
  rw [if_pos meets]
  rfl

end

theorem nameReads (ahead : r.cursor.ahead = blanks ++ t :: rest)
    (blank : ∀ u ∈ blanks, u.kind.isBlank = true) (isName : t.kind = .iden) :
    ∃ r', name.run.run r = (.ok t.value, r') ∧ Took (blanks ++ [t]) r r' := by
  obtain ⟨r', ran, took⟩ := ofKindReads ahead blank (by simp [isName, Kind.isSolid]) "a name"
  rw [isName] at ran
  refine ⟨r', ?_, took⟩
  rw [name, runBind, ran]
  rfl

theorem numberReads (ahead : r.cursor.ahead = blanks ++ t :: rest)
    (blank : ∀ u ∈ blanks, u.kind.isBlank = true) (isNumber : t.kind = .number) {n : Number}
    (value : Numeral.read t.value = .ok n) :
    ∃ r', number.run.run r = (.ok n, r') ∧ Took (blanks ++ [t]) r r' := by
  obtain ⟨r', ran, took⟩ := ofKindReads ahead blank (by simp [isNumber, Kind.isSolid]) "a number"
  rw [isNumber] at ran
  refine ⟨r', ?_, took⟩
  rw [number, runBind, ran]
  dsimp only
  rw [runLift, Tokens.readNumber, value]

theorem uptoReads {stop : String} {front : List Token} (ahead : r.cursor.ahead = front ++ t :: rest)
    (goesOn : ∀ u ∈ front, u.kind ≠ .eof ∧ u.value ≠ stop) (notEnd : t.kind ≠ .eof)
    (stops : t.value = stop) :
    ∃ r', (upto stop).run.run r = (.ok front, r') ∧ Took front r r' := by
  let p : Token → Bool := fun t => t.kind ≠ .eof && t.value ≠ stop
  have taken : r.cursor.ahead.takeWhile p = front := by
    rw [ahead, List.takeWhile_append_of_pos (by simpa [p] using goesOn),
      List.takeWhile_cons_of_neg (by simp [p, stops]), List.append_nil]
  have took := tookFront ahead fun u member => (goesOn u member).1
  obtain ⟨cursor, peeked, same, failure⟩ := peekHead (tookLeaves took ahead)
  have ran : (upto stop).run.run r = (.ok front, { r.took front with cursor }) := by
    have found : (takeWhile p).run.run r = (.ok front, r.took front) := by
      rw [takeWhileRuns, taken]
    rw [upto, runBind, found]
    dsimp only
    rw [more, runBind, runBind, peeked]
    dsimp only
    rw [if_neg notEnd]
    rfl
  exact ⟨_, ran, uptoTakes ran⟩

theorem scanBlockClimbs {level : Nat} {body : List Token} (climbs : Tokens.Climbs level body 0)
    (notEnd : ∀ u ∈ body, u.kind ≠ .eof) (last : t.kind ≠ .eof) (closer : t.closesBlock = true)
    (noOpener : t.opensBlock = false) :
    scanBlock level (body ++ t :: rest) = some (body, body.length + 1) := by
  generalize ground : 0 = bottom at climbs
  induction climbs with
  | nil =>
    subst ground
    simp [scanBlock, last, closer, noOpener]
  | opens opener later ih =>
    obtain ⟨here, others⟩ := List.forall_mem_cons.mp notEnd
    simp [scanBlock, here, opener, ih others ground]
  | closes isCloser isNoOpener later ih =>
    obtain ⟨here, others⟩ := List.forall_mem_cons.mp notEnd
    simp [scanBlock, here, isCloser, isNoOpener, ih others ground]
  | inert isNoOpener noCloser later ih =>
    obtain ⟨here, others⟩ := List.forall_mem_cons.mp notEnd
    simp [scanBlock, here, isNoOpener, noCloser, ih others ground]

theorem blockReads {body : List Token} (ahead : r.cursor.ahead = body ++ t :: rest)
    (notEnd : ∀ u ∈ body, u.kind ≠ .eof) (balanced : Tokens.Balanced body)
    (closer : t.closesBlock = true) :
    ∃ r', block.run.run r = (.ok body, r') ∧ Took (body ++ [t]) r r' := by
  have last : t.kind ≠ .eof := by simp [Tokens.closesKeyword closer]
  have scanned := @scanBlockClimbs t rest 0 body (Tokens.balancedClimbs balanced) notEnd last closer
    (Tokens.closesNotOpens closer)
  have split : r.cursor.ahead = (body ++ [t]) ++ rest := by simp [ahead]
  have taken : r.cursor.ahead.take (body.length + 1) = body ++ [t] := by
    rw [split]
    exact List.take_left' (by simp)
  have ran : block.run.run r = (.ok body, r.took (body ++ [t])) := by
    rw [blockRuns, throughRuns, ahead, scanned]
    dsimp only
    rw [← ahead, taken]
  refine ⟨_, ran, tookFront split fun u member => ?_⟩
  rcases List.mem_append.mp member with inside | one
  · exact notEnd u inside
  · rw [List.mem_singleton.mp one]
    exact last

end Reader

namespace Contexts

variable {α : Type} {name : String} {c : Contexts α}

theorem stackPush (value : α) : (c.push name value).stack name = (c.stack name).push value := by
  simp [stack, push]

theorem pushAgain (old value : α) :
    (c.push name old).update name value = .ok (c.push name value) := by
  have isActive : (c.push name old).isActive name = true := by simp [Contexts.isActive, push]
  rw [update, if_pos isActive, stackPush]
  refine congrArg Except.ok (congrArg Contexts.mk (Std.ExtTreeMap.ext_getElem? fun {k} => ?_))
  simp only [push, Stack.replaceTop, Stack.pop, Stack.push, List.tail_cons,
    Std.ExtTreeMap.getElem?_insert]
  split <;> rfl

theorem valuedKept (valued : c.isActive name = true → c.value? name ≠ none) :
    c.table[name]? ≠ some Stack.empty := by
  intro found
  refine valued ?_ ?_
  · simp [isActive, Std.ExtTreeMap.contains_eq_isSome_getElem?, found]
  · simp [value?, stack, found, Stack.top?, Stack.empty]

theorem popPushed (kept : c.table[name]? ≠ some Stack.empty) (value : α) :
    (c.push name value).pop name = .ok (value, c) := by
  have top : (c.push name value).value? name = some value := by
    rw [value?, stackPush]
    rfl
  have rest : ((c.push name value).stack name).pop = c.stack name := by rw [stackPush]; rfl
  rw [pop, top]
  dsimp only
  rw [rest]
  refine congrArg (fun table => Except.ok (value, Contexts.mk table)) (Stack.putBack kept ?_)
  intro other different
  simp [push, Std.ExtTreeMap.getElem?_insert, different]

end Contexts

namespace Registry

variable {r : Registry} {d : Definition}

theorem pushIden (isName : Literal.isName d.name = true) (r : Registry) :
    r.push d = { r with idens := r.idens.insert d.name ((r.stack d.name).push d) } := by
  simp [push, setStack, isName, Stack.push, Stack.isEmpty]

theorem restorePushed (sound : r.Sound) (isName : Literal.isName d.name = true) :
    (r.push d).restore d.name (r.height d.name) = r := by
  have kept : r.stack? d.name ≠ some .empty := fun found => (stackSound sound found).1 rfl
  have cut : ((r.stack d.name).push d).truncate (r.height d.name) = r.stack d.name := by
    simp [Stack.truncate, Stack.push, height, Stack.height]
  rw [restore, stackPush, if_pos rfl]
  dsimp only
  rw [cut, push, setBack kept, if_pos isName]

end Registry

namespace Session

variable {s : Session} {name text : String} {value : Value}

theorem logContextRuns (described : value.describe = .ok text) (more : String) (s : Session) :
    ∃ s', (logContext name value more).run.run s = (.ok (), s') ∧ s.Alike s' := by
  rw [logContext, described]
  exact ⟨_, rfl, logTextAlike _ _ _ s⟩

theorem contextPushes (described : value.describe = .ok text) (s : Session) :
    ∃ s', (context (.push name value)).run.run s = (.ok .nothing, s') ∧
      Alike { s with contexts := s.contexts.push name value } s' := by
  let pushed : Session := { s with contexts := s.contexts.push name value }
  obtain ⟨s', ran, alike⟩ := logContextRuns described
    (", level " ++ toString (pushed.contexts.depth name)) pushed
  refine ⟨s', ?_, alike⟩
  rw [context, runBind, runModify]
  dsimp only
  rw [runBind, runGet]
  dsimp only
  rw [runBind, ran]
  rfl

theorem contextUpdates (described : value.describe = .ok text) {contexts : Contexts Value}
    (updated : s.contexts.update name value = .ok contexts) :
    ∃ s', (context (.update name value)).run.run s = (.ok .nothing, s') ∧
      Alike { s with contexts } s' := by
  obtain ⟨s', ran, alike⟩ := @logContextRuns name text value described "" { s with contexts }
  refine ⟨s', ?_, alike⟩
  rw [context, runBind, runGet]
  dsimp only
  rw [updated]
  dsimp only
  rw [runBind, runSet]
  dsimp only
  rw [runBind, ran]
  rfl

theorem contextPops {contexts : Contexts Value}
    (popped : s.contexts.pop name = .ok (value, contexts)) :
    ∃ s', (context (.pop name)).run.run s = (.ok value, s') ∧ Alike { s with contexts } s' := by
  rw [context, runBind, runGet]
  dsimp only
  rw [popped]
  exact ⟨_, rfl, logTextAlike _ _ _ _⟩

theorem scopeBegins {meaning : Option Definition.Meaning} {d : Definition}
    (made : Definition.make name meaning s.blocks.depth (some 0) = .ok d) :
    ∃ blocks s', s.blocks.defer (.restore name (s.registry.height name)) none = .ok blocks ∧
      (scope name meaning).run.run s = (.ok d, s') ∧
      Alike { s with registry := s.registry.push d, blocks } s' := by
  have defined : (define name meaning false).run.run s = (.ok d, s.install d false) := by
    rw [define, runBind, runGet]
    dsimp only
    rw [runBind, runLift, made]
    rfl
  obtain ⟨log, installed⟩ : ∃ log, s.install d false =
      { s with registry := s.registry.push d, log } := logTextAlike _ _ _ _
  obtain ⟨waiting, -, -, deferred⟩ := deferHere (.restore name (s.registry.height name)) s
  refine ⟨waiting.blocks, _, deferred, ?_, log, rfl⟩
  rw [scope, runBind, runGet]
  dsimp only
  rw [runBind, defined]
  dsimp only
  rw [installed, runBind, defer, runBind, runGet]
  dsimp only
  rw [deferred]
  rfl

end Session

theorem Lexer.parseName {name : String} (isName : Literal.isName name = true)
    (free : name ∉ reservedWords) :
    parseTokens name (some 0) = .ok [lexeme .iden name.toList 1] := by
  rw [parseTokens, lex, lexName isName free]
  rfl

theorem Definition.makeInteger {name : String} (isName : Literal.isName name = true)
    (free : name ∉ reservedWords) (n : Int) (depth : Nat) :
    make name (some (.value (.text (toString n)))) depth (some 0) =
      .ok
        { name, params := none, body := .text (Lexer.integerTokens n), depth, line := some 0 } := by
  have front : header name (some 0) = .ok ⟨Lexer.lexeme .iden name.toList 1, name, none, []⟩ := by
    have spelled : Lexer.lexeme .iden name.toList 1 = ⟨.iden, name, some 1, none, none⟩ := by
      rw [Lexer.lexeme, String.ofList_toList]
      rfl
    rw [header, Lexer.parseName isName free, spelled]
    rfl
  have parsed : parseTokens (toString n) (some 0) = .ok (Lexer.integerTokens n) := by
    rw [parseTokens, Lexer.lexInteger]
    rfl
  have stripped : Tokens.strip (Lexer.integerTokens n) = Lexer.integerTokens n := by
    rw [Lexer.integerTokens]
    split <;> rfl
  rw [make, front]
  dsimp only [bind, Except.bind]
  rw [readBody]
  dsimp only
  rw [Value.toTokens, Value.lexed, parsed]
  dsimp only [Functor.map, Except.map]
  rw [stripped]
  rfl

end LuaExpander
