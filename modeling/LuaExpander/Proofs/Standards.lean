import LuaExpander.Proofs.Changes
import LuaExpander.Proofs.Reading
import LuaExpander.Proofs.Spelling
import LuaExpander.Proofs.Stacks
import LuaExpander.Proofs.Waiting
import LuaExpander.Standard

/-! The standard definitions and the tokens that they bring in. Whatever a standard transformer
answers is made of tokens from the source and of tokens that are spelled as what they are, with one
exception: a negative number, which is a single token here and two in a text. Names that it defines
stand for such tokens too, and the only handlers that it leaves are those that end scopes. -/
namespace LuaExpander

namespace Action

variable {α β : Type} {before : Frame → Prop}

/- The action goes on with an answer, or it gives up. -/
def Meets (before : Frame → Prop) (act : Action α) (after : α → Frame → Prop) : Prop :=
  ∀ f, before f → ∀ next failed,
    (∃ a f', after a f' ∧ (act next failed).run f = (next a).run f') ∨
      ∃ e f', (act next failed).run f = (failed e).run f'

theorem meetsPure {a : α} {after : α → Frame → Prop} (holds : ∀ f, before f → after a f) :
    Meets before (pure a : Action α) after :=
  fun f start _ _ => .inl ⟨a, f, holds f start, rfl⟩

theorem meetsFail (e : Failure) (after : α → Frame → Prop) : Meets before (fail e) after :=
  fun f _ _ _ => .inr ⟨e, f, rfl⟩

theorem meetsBind {act : Action α} {g : α → Action β} {between : α → Frame → Prop}
    {after : β → Frame → Prop} (first : Meets before act between)
    (second : ∀ a, Meets (between a) (g a) after) : Meets before (act >>= g) after := by
  intro f start next failed
  rcases first f start (fun a => g a next failed) failed with ⟨a, f', holds, ran⟩ | gaveUp
  · have ran : ((act >>= g) next failed).run f = (g a next failed).run f' := ran
    rw [ran]
    exact second a f' holds next failed
  · exact .inr gaveUp

theorem meetsAsk {q : Query} {after : q.Answer → Frame → Prop}
    (answers : ∀ f a f', before f → f.answer q = (.ok a, f') → after a f') :
    Meets before (ask q) after := by
  intro f start next failed
  rw [ask, Program.run]
  rcases answered : f.answer q with ⟨e | a, f'⟩
  · exact .inr ⟨e, f', rfl⟩
  · exact .inl ⟨a, f', answers f a f' start answered, rfl⟩

/- What the answer before is known to be does not depend on the frame. -/
theorem meetsKnowing {known : Prop} {act : Action α} {after : α → Frame → Prop}
    (meets : known → Meets before act after) : Meets (fun f => before f ∧ known) act after :=
  fun f start => meets start.2 f start.1

theorem meetsOfExcept {x : Except Failure α} {after : α → Frame → Prop}
    (holds : ∀ a f, x = .ok a → before f → after a f) : Meets before (ofExcept x) after := by
  cases x with
  | ok a => exact meetsPure fun f start => holds a f rfl start
  | error e => exact meetsFail e after

theorem programMeets {act : Action (Value × Builder)} {after : Value × Builder → Frame → Prop}
    (meets : Meets before act after) {f f' : Frame} {r : Value × Builder} (start : before f)
    (ran : act.toProgram.run f = (.ok r, f')) : after r f' := by
  rcases meets f start (fun r => .done r.1 r.2) .fail with ⟨a, last, holds, same⟩ | ⟨e, last, same⟩
  · cases same.symm.trans ran
    exact holds
  · cases same.symm.trans ran

end Action

namespace Token

/- A negative number in one token. -/
def Negative (t : Token) : Prop := t.kind = .number ∧ ∃ n : Int, n < 0 ∧ t.value = toString n

def Worded (t : Token) : Prop := t.Spelled ∨ t.Negative

def Placed (t : Token) : Prop := ∃ n : Nat, t.line = some (n : Int)

/- What may lie ahead in a scan; only a unit has an end of the input. -/
def Fits (nested : Bool) (t : Token) : Prop :=
  t.Placed ∧ (t.Worded ∨ nested = false ∧ t.kind = .eof ∧ t.value = "")

/- What may come out of a definition. A token of the source keeps its line, and all others get the
line of the name. -/
def Given (t : Token) : Prop := t.Worded ∧ (t.serial = none ∨ t.Placed)

theorem wordedSolid {t : Token} (worded : t.Worded) : t.kind ≠ .eof := by
  rcases worded with spelled | ⟨kind, -⟩
  · exact Lexeme.firstKind spelled
  · simp [kind]

theorem fitsWorded {nested : Bool} {t : Token} (fits : t.Fits nested) (solid : t.kind ≠ .eof) :
    t.Worded :=
  fits.2.resolve_right fun isEnd => solid isEnd.2.1

theorem fitsGiven {nested : Bool} {t : Token} (fits : t.Fits nested) (solid : t.kind ≠ .eof) :
    t.Given :=
  ⟨fitsWorded fits solid, .inr fits.1⟩

end Token

theorem Value.lexedTokens {text : String} {line : Line} {ts : List Token}
    (isLexed : lexed text line = .ok ts) : parseTokens text line = .ok ts := by
  unfold lexed at isLexed
  split at isLexed
  · cases isLexed
    assumption
  · cases isLexed

theorem parseTokensGiven {text : String} {line : Line} {ts : List Token}
    (parsed : parseTokens text line = .ok ts) : ∀ t ∈ ts, t.Given := by
  intro t member
  obtain ⟨u, isToken, l, rfl⟩ := Lexer.parseTokensSource parsed t member
  have lexed := Lexer.lexes 1 text.toList
  exact ⟨.inl (Lexer.lexesSpelled lexed u isToken), .inl (Lexer.lexesNew lexed u isToken).2⟩

def Transformer.Standard (t : Transformer) : Prop :=
  ∃ entry ∈ Standard.definitions, t.run = entry.2.2

namespace Definition

def Fair (d : Definition) : Prop :=
  match d.body with
  | .text value => ∀ t ∈ value, t.Given
  | .callable t => t.Standard

def Meaning.Fair : Meaning → Prop
  | .value v => ∀ line ts, v.toTokens line = .ok ts → ∀ t ∈ ts, t.Given
  | .callable t => t.Standard

theorem headerRest {spec : String} {line : Line} {h : Header}
    (isHeader : header spec line = .ok h) :
    ∃ ts, parseTokens spec line = .ok ts ∧ ∀ t ∈ h.rest, t ∈ ts := by
  obtain ⟨ts, r', parsed, ran⟩ := Reader.headerRuns isHeader
  obtain ⟨front, took, rest⟩ := Reader.headerTakes ran
  refine ⟨ts, parsed, fun t member => ?_⟩
  rw [rest] at member
  have ahead : ts = front ++ r'.cursor.ahead := took.ahead
  rw [ahead]
  exact List.mem_append_right _ (Reader.strippedMember member)

theorem readBodyFair {h : Header} {meaning : Option Meaning} {line : Line} {body : Body}
    (rest : ∀ t ∈ h.rest, t.Given) (fair : ∀ m ∈ meaning, m.Fair)
    (read : readBody h meaning line = .ok body) {d : Definition} (same : d.body = body) :
    d.Fair := by
  unfold readBody at read
  unfold Definition.Fair
  rw [same]
  cases meaning with
  | none =>
    cases read
    exact rest
  | some m =>
    have fair := fair m rfl
    cases empty : h.rest with
    | cons t ts => simp [empty] at read
    | nil =>
      simp only [empty] at read
      cases m with
      | callable t =>
        cases read
        exact fair
      | value v =>
        cases tokens : v.toTokens line with
        | error f => simp [tokens] at read
        | ok ts =>
          simp only [tokens] at read
          cases read
          exact fun t member => fair line ts tokens t (Reader.strippedMember member)

theorem makeFair {spec : String} {meaning : Option Meaning} {depth : Nat} {line : Line}
    {d : Definition} (fair : ∀ m ∈ meaning, m.Fair) (made : make spec meaning depth line = .ok d) :
    d.Fair := by
  obtain ⟨h, header, made⟩ := exceptSucceeds made
  obtain ⟨body, read, made⟩ := exceptSucceeds made
  cases made
  obtain ⟨ts, parsed, within⟩ := headerRest header
  exact readBodyFair (fun t member => parseTokensGiven parsed t (within t member)) fair read rfl

end Definition

namespace Registry

structure All (p : Definition → Prop) (r : Registry) : Prop where
  idens : Table.Each (fun _ s => ∀ d ∈ s.items, p d) r.idens
  ops : Table.Each (fun _ s => ∀ d ∈ s.items, p d) r.ops

variable {p : Definition → Prop}

theorem allStack {r : Registry} (all : r.All p) {name : String} {s : Stack Definition}
    (found : r.stack? name = some s) : ∀ d ∈ s.items, p d := by
  unfold stack? at found
  split at found
  · exact all.idens name s found
  · exact all.ops name s found

theorem allSet {r : Registry} (all : r.All p) (name : String) {s : Stack Definition}
    (here : ∀ d ∈ s.items, p d) : (r.setStack name s).All p := by
  unfold setStack
  dsimp only
  split
  · exact ⟨Table.eachSet all.idens fun _ => here, all.ops⟩
  · exact ⟨all.idens, Table.eachSet all.ops fun _ => here⟩

theorem allPush {r : Registry} (all : r.All p) {d : Definition} (here : p d) :
    (r.push d).All p := by
  have set : (r.setStack d.name ((r.stack d.name).push d)).All p := by
    refine allSet all d.name (List.forall_mem_cons.mpr ⟨here, ?_⟩)
    unfold stack
    cases found : r.stack? d.name with
    | none => simp [Stack.empty]
    | some s => exact allStack all found
  exact ⟨set.idens, set.ops⟩

theorem allUndefine {r : Registry} (all : r.All p) (name : String) : (r.undefine name).All p := by
  unfold undefine
  split
  · rename_i s found
    exact allSet all name fun d member => allStack all found d (List.mem_of_mem_tail member)
  · exact all

theorem allRestore {r : Registry} (all : r.All p) (name : String) (height : Nat) :
    (r.restore name height).All p := by
  unfold restore
  split
  · rename_i s found
    exact allSet all name fun d member => allStack all found d (List.mem_of_mem_drop member)
  · exact all

end Registry

namespace Session

def Restores (handlers : List Handler) : Prop :=
  ∀ h ∈ handlers, ∃ subject height, h = .restore subject height

/- Nothing fires but what ends scopes. -/
structure Fair (s : Session) : Prop where
  definitions : s.registry.All Definition.Fair
  silent : ∀ word, s.blocks.handlersFor word = []
  scopes : ∀ depth, Restores (s.blocks.waiting depth)

theorem fairQuiet {s s' : Session} (fair : s.Fair) (quiet : Quiet s s') : s'.Fair where
  definitions := quiet.registry ▸ fair.definitions
  silent := quiet.blocks ▸ fair.silent
  scopes := quiet.blocks ▸ fair.scopes

theorem fairUndefine {s : Session} (fair : s.Fair) (name : String) : (s.undefine name).Fair :=
  ⟨Registry.allUndefine fair.definitions name, fair.silent, fair.scopes⟩

theorem fairRestore {s : Session} (fair : s.Fair) (name : String) (height : Nat) :
    (s.restore name height).Fair where
  definitions := restoreRegistry name height s ▸ Registry.allRestore fair.definitions name height
  silent := restoreBlocks name height s ▸ fair.silent
  scopes := restoreBlocks name height s ▸ fair.scopes

theorem fairDefine {s s' : Session} (fair : s.Fair) {spec : String}
    {meaning : Option Definition.Meaning} {warn : Bool} {line : Line} {d : Definition}
    (given : ∀ m ∈ meaning, m.Fair)
    (ran : (define spec meaning warn line).run.run s = (.ok d, s')) : s'.Fair := by
  obtain ⟨made, registry, blocks⟩ := defineSucceeds ran
  have here : d.Fair := Definition.makeFair given made
  exact ⟨registry ▸ Registry.allPush fair.definitions here, blocks ▸ fair.silent,
    blocks ▸ fair.scopes⟩

theorem fairScope {s s' : Session} (fair : s.Fair) {name : String}
    {meaning : Option Definition.Meaning} {d : Definition} (given : ∀ m ∈ meaning, m.Fair)
    (ran : (scope name meaning).run.run s = (.ok d, s')) : s'.Fair := by
  obtain ⟨made, registry, waits⟩ := scopeSucceeds ran
  have here : d.Fair := Definition.makeFair given made
  obtain ⟨place, -, -, keywords, waiting⟩ := Blocks.deferSucceeds waits
  refine ⟨registry ▸ Registry.allPush fair.definitions here, fun word => ?_, fun depth h => ?_⟩
  · rw [Blocks.handlersFor, keywords]
    exact fair.silent word
  · rw [waiting]
    split
    · rw [List.mem_append, List.mem_singleton]
      rintro (before | rfl)
      · exact fair.scopes depth h before
      · exact ⟨_, _, rfl⟩
    · exact fair.scopes depth h

theorem fairEnter {s : Session} (fair : s.Fair) (t : Token) : (s.enterBlock t).Fair where
  definitions := enterBlockRegistry t s ▸ fair.definitions
  silent := enterBlockBlocks t s ▸ fair.silent
  scopes := enterBlockBlocks t s ▸ fair.scopes

theorem fairVacate {s s' : Session} (fair : s.Fair) {gone : Nat} {handlers : List Handler}
    (registry : s'.registry = s.registry) (due : handlers = (s.blocks.waiting gone).reverse)
    (keywords : s'.blocks.keywords = s.blocks.keywords)
    (waiting : ∀ d, s'.blocks.waiting d = if d = gone then [] else s.blocks.waiting d) :
    s'.Fair ∧ Restores handlers := by
  refine ⟨⟨registry ▸ fair.definitions, fun word => ?_, fun depth h member => ?_⟩, ?_⟩
  · rw [Blocks.handlersFor, keywords]
    exact fair.silent word
  · rw [waiting] at member
    split at member
    · contradiction
    · exact fair.scopes depth h member
  · intro h member
    rw [due, List.mem_reverse] at member
    exact fair.scopes gone h member

end Session

namespace Frame

structure Fair (nested : Bool) (f : Frame) : Prop where
  session : f.session.Fair
  ahead : ∀ r, f.reader = some r → ∀ t ∈ r.cursor.ahead, t.Fits nested

theorem readAnswers {f f' : Frame} {op : Reader.Op} {a : op.Answer}
    (answered : f.answer (.read op) = (.ok a, f')) :
    ∃ r r', f.reader = some r ∧ (Reader.perform op).run.run r = (.ok a, r') ∧
      f' = { f with reader := some r' } := by
  unfold answer reading at answered
  cases reader : f.reader with
  | none => simp [reader] at answered
  | some r =>
    rw [reader] at answered
    have ok : ((Reader.perform op).run.run r).1 = .ok a := congrArg Prod.fst answered
    exact ⟨r, _, rfl, Prod.ext ok rfl, (congrArg Prod.snd answered).symm⟩

theorem fairTook {nested : Bool} {f : Frame} (fair : f.Fair nested) {r r' : Reader}
    {front : List Token} (reader : f.reader = some r) (took : Reader.Took front r r') :
    Fair nested { f with reader := some r' } ∧ ∀ t ∈ front, t.Given := by
  have fits := fair.ahead r reader
  rw [took.ahead] at fits
  refine ⟨⟨fair.session, ?_⟩, fun t member => ?_⟩
  · rintro _ ⟨⟩ t member
    exact fits t (List.mem_append_right _ member)
  · exact Token.fitsGiven (fits t (List.mem_append_left _ member)) (took.solid t member)

theorem inSessionFair {nested : Bool} {f f' : Frame} {act : SessionM α} {a : α}
    (fair : f.Fair nested) (ran : f.inSession act = (.ok a, f'))
    (keeps : ∀ s', act.run.run f.session = (.ok a, s') → s'.Fair) : f'.Fair nested := by
  have ok : (act.run.run f.session).1 = .ok a := congrArg Prod.fst ran
  have same : { f with session := (act.run.run f.session).2 } = f' := congrArg Prod.snd ran
  subst same
  exact ⟨keeps _ (Prod.ext ok rfl), fair.ahead⟩

end Frame

namespace Action

variable {nested : Bool} {α : Type}

/- The same without a word about the answer. -/
abbrev Stays (nested : Bool) (act : Action α) : Prop :=
  Meets (Frame.Fair nested) act fun _ f => f.Fair nested

theorem staysRead {op : Reader.Op}
    (takes : ∀ {a r r'}, (Reader.perform op).run.run r = (.ok a, r') →
      ∃ front, Reader.Took front r r') :
    Stays nested (read op) := by
  refine meetsAsk fun f a f' fair answered => ?_
  obtain ⟨r, r', reader, ran, rfl⟩ := Frame.readAnswers answered
  obtain ⟨front, took⟩ := takes ran
  exact (Frame.fairTook fair reader took).1

theorem meetsTokens {op : Reader.Op} {tokens : op.Answer → List Token}
    (takes : ∀ {a r r'}, (Reader.perform op).run.run r = (.ok a, r') →
      ∃ more, Reader.Took (tokens a ++ more) r r') :
    Meets (Frame.Fair nested) (read op) fun a f => f.Fair nested ∧ ∀ t ∈ tokens a, t.Given := by
  refine meetsAsk fun f a f' fair answered => ?_
  obtain ⟨r, r', reader, ran, rfl⟩ := Frame.readAnswers answered
  obtain ⟨more, took⟩ := takes ran
  obtain ⟨after, given⟩ := Frame.fairTook fair reader took
  exact ⟨after, fun t member => given t (List.mem_append_left _ member)⟩

theorem meetsName : Meets (Frame.Fair nested) (read .name)
    fun word f => f.Fair nested ∧ Lexeme.Whole .iden word.toList := by
  refine meetsAsk fun f word f' fair answered => ?_
  obtain ⟨r, r', reader, ran, rfl⟩ := Frame.readAnswers answered
  obtain ⟨front, t, took, member, kind, rfl⟩ := Reader.nameTakes ran
  obtain ⟨after, given⟩ := Frame.fairTook fair reader took
  refine ⟨after, ?_⟩
  rcases (given t member).1 with spelled | ⟨isNumber, -⟩
  · rwa [Token.Spelled, kind] at spelled
  · rw [kind] at isNumber
    contradiction

theorem staysDefine (text : String) (line : Line) :
    Stays nested (ask (.define text none line)) := by
  refine meetsAsk fun f a f' fair answered => ?_
  have ran : f.inSession (do let _ ← Session.declare text none true line) = (.ok a, f') := answered
  refine Frame.inSessionFair fair ran fun s' ran => ?_
  obtain ⟨d, between, made, ran⟩ := bindSucceeds ran
  cases ran
  rcases Session.declareCases text none true line f.session with refused | same
  · cases refused.symm.trans made
  · exact Session.fairDefine fair.session (by simp) (same.symm.trans made)

theorem staysScope {v : Value} (given : ∀ line ts, v.toTokens line = .ok ts → ∀ t ∈ ts, t.Given)
    (name : String) : Stays nested (ask (.scope name (some v))) := by
  refine meetsAsk fun f a f' fair answered => ?_
  have ran : f.inSession (do let _ ← Session.scope name (some (.value v))) = (.ok a, f') := answered
  refine Frame.inSessionFair fair ran fun s' ran => ?_
  obtain ⟨d, between, made, ran⟩ := bindSucceeds ran
  cases ran
  refine Session.fairScope fair.session ?_ made
  rintro _ ⟨⟩
  exact given

theorem staysUndefine (name : String) : Stays nested (ask (.undefine name)) := by
  refine meetsAsk fun f a f' fair answered => ?_
  cases answered
  exact ⟨Session.fairUndefine fair.session name, fair.ahead⟩

theorem staysContext (op : ContextOp) : Stays nested (ask (.context op)) := by
  refine meetsAsk fun f a f' fair answered => ?_
  have ran : f.inSession (Session.context op) = (.ok a, f') := answered
  refine Frame.inSessionFair fair ran fun s' ran => ?_
  have quiet := Session.contextQuiet op f.session
  rw [ran] at quiet
  exact Session.fairQuiet fair.session quiet

theorem staysUnitName : Stays nested (ask .unitName) := by
  refine meetsAsk fun f a f' fair answered => ?_
  cases answered
  exact fair

end Action

/-! The standard transformers -/

namespace Standard

open LuaExpander.Action

/- What a transformer ends with: tokens as its value, or tokens that it has built. -/
def Supplies (r : Value × Builder) : Prop :=
  ∃ b : Builder, (∀ t ∈ b.toTokens, t.Given) ∧ (r = (.nothing, b) ∨ r = (.builder b, .empty))

abbrev Serves (nested : Bool) (act : Action (Value × Builder)) : Prop :=
  Meets (Frame.Fair nested) act fun r f => f.Fair nested ∧ Supplies r

variable {nested : Bool} {b : Builder}

theorem servesBuilt (given : ∀ t ∈ b.toTokens, t.Given) : Serves nested (built b) :=
  meetsPure fun _ fair => ⟨fair, b, given, .inl rfl⟩

theorem servesAnswered (given : ∀ t ∈ b.toTokens, t.Given) : Serves nested (answered b) :=
  meetsPure fun _ fair => ⟨fair, b, given, .inr rfl⟩

theorem givenWorded (given : ∀ t ∈ b.toTokens, t.Given) {kind : Kind} {value : String}
    (worded : ∀ line, Token.Worded { kind, value, line }) :
    ∀ t ∈ (b.token kind value).toTokens, t.Given := by
  intro t member
  simp only [Builder.token, Builder.toTokens, Array.toList_push, List.mem_append,
    List.mem_singleton] at member
  rcases member with before | rfl
  · exact given t before
  · exact ⟨worded _, .inl rfl⟩

theorem givenToken (given : ∀ t ∈ b.toTokens, t.Given) {kind : Kind} {value : String}
    (spelled : Lexeme.Whole kind value.toList) : ∀ t ∈ (b.token kind value).toTokens, t.Given :=
  givenWorded given fun _ => .inl spelled

theorem givenNone : ∀ t ∈ Builder.empty.toTokens, t.Given := by
  simp [Builder.toTokens, Builder.empty]

theorem servesEmpty : Serves nested (built .empty) := servesBuilt givenNone

theorem fileServes : Serves nested file := by
  refine meetsBind staysUnitName fun name => ?_
  rcases name with _ | name | number
  · exact servesBuilt (givenToken givenNone (Lexeme.wholeQuote _))
  · exact servesBuilt (givenToken givenNone (Lexeme.wholeQuote _))
  · exact meetsFail _ _

theorem stringizeServes (x : List Token) : Serves nested (stringize x) :=
  servesAnswered (givenToken givenNone (Lexeme.wholeQuote _))

theorem lineServes {origin : Token} (placed : origin.Placed) : Serves nested (line origin) := by
  obtain ⟨n, line⟩ := placed
  refine servesBuilt (givenToken givenNone ?_)
  rw [line, lineText]
  exact Lexeme.wholeNatural n

theorem concatServes (x y : List Token) : Serves nested (concat x y) := by
  unfold concat
  dsimp only
  split
  · rename_i isOne
    simp only [Bool.and_eq_true, decide_eq_true_eq] at isOne
    obtain ⟨isName, notReserved⟩ := isOne
    refine servesAnswered (givenToken givenNone ?_)
    generalize Tokens.text (Tokens.strip x) ++ Tokens.text (Tokens.strip y) = name at *
    have whole := Lexeme.wholeName (String.ofList_toList (s := name) ▸ isName)
    rwa [Lexeme.nameKind, String.ofList_toList, if_neg notReserved] at whole
  · exact meetsFail _ _

theorem meetsLine : Meets (Frame.Fair nested) (read .line)
    fun ts f => f.Fair nested ∧ ∀ t ∈ ts, t.Given :=
  meetsTokens fun ran => ⟨[], by simpa using Reader.lineTakes ran⟩

theorem meetsBlock : Meets (Frame.Fair nested) (read .block)
    fun ts f => f.Fair nested ∧ ∀ t ∈ ts, t.Given :=
  meetsTokens fun ran => by
    obtain ⟨closer, took⟩ := Reader.blockTakes ran
    exact ⟨[closer], took⟩

theorem directiveServes : Serves nested directive := by
  unfold directive
  refine meetsBind (staysRead fun ran => ?_) fun t => ?_
  · obtain ⟨front, took, -⟩ := Reader.skipBlankTakes ran
    exact ⟨front, took⟩
  refine meetsBind meetsName fun word => meetsKnowing fun _ => ?_
  dsimp only
  split
  · refine meetsBind meetsLine fun text => meetsKnowing fun _ => ?_
    exact meetsBind (staysDefine _ _) fun _ => servesEmpty
  · refine meetsBind meetsName fun name => meetsKnowing fun _ => ?_
    exact meetsBind (staysUndefine name) fun _ => servesEmpty
  · refine meetsBind meetsName fun name => meetsKnowing fun _ => ?_
    refine meetsBind meetsLine fun text => meetsKnowing fun given => ?_
    refine meetsBind (staysScope ?_ name) fun _ => servesEmpty
    rintro line ts ⟨⟩
    exact given
  · exact meetsFail _ _

theorem givenTokens (given : ∀ t ∈ b.toTokens, t.Given) {ts : List Token}
    (added : ∀ t ∈ ts, t.Given) : ∀ t ∈ (b.tokens ts).toTokens, t.Given := by
  intro t member
  simp only [Builder.tokens, Builder.toTokens, Array.toList_append, List.mem_append] at member
  exact member.elim (given t) (added t)

theorem integerText {n : Int} {text : String} (shown : (Number.int n).text = .ok text) :
    text = toString n := by
  rw [Number.text] at shown
  generalize Nat.pow 10 Number.digitLimit = limit at shown
  split at shown <;> cases shown
  rfl

theorem givenNumber (given : ∀ t ∈ b.toTokens, t.Given) {n : Int} {b' : Builder}
    (put : b.number (.int n) = .ok b') : ∀ t ∈ b'.toTokens, t.Given := by
  obtain ⟨text, shown, put⟩ := exceptSucceeds put
  cases put
  obtain rfl := integerText shown
  refine givenWorded given fun line => ?_
  cases n with
  | ofNat n => exact .inl (Lexeme.wholeNatural n)
  | negSucc n => exact .inr ⟨rfl, .negSucc n, Int.negSucc_lt_zero n, rfl⟩

section Copies

variable {var : String} {body : List Token} (isName : Lexeme.Whole .iden var.toList)
  (inBody : ∀ t ∈ body, t.Given) {b' : Builder}
include isName inBody

theorem copyGiven (given : ∀ t ∈ b.toTokens, t.Given) {n : Int}
    (copied : copy var body b n = .ok b') : ∀ t ∈ b'.toTokens, t.Given := by
  have blank : Lexeme.Whole .space " ".toList := rfl
  have opened : ∀ t ∈ (b.keyword "do").toTokens, t.Given := givenToken given rfl
  have named : ∀ t ∈ ((b.keyword "do").space.iden "__UNROLL_STEP__").toTokens, t.Given :=
    givenToken (givenToken opened blank) rfl
  have ready := givenToken (givenToken (givenToken named blank) isName) blank
  obtain ⟨numbered, put, copied⟩ := exceptSucceeds copied
  cases copied
  exact givenToken (givenTokens (givenNumber ready put) inBody) rfl

theorem moreCopiesGiven {values : List Int} (given : ∀ t ∈ b.toTokens, t.Given)
    (copied : moreCopies var body values b = .ok b') : ∀ t ∈ b'.toTokens, t.Given := by
  induction values generalizing b with
  | nil =>
    cases copied
    exact given
  | cons value values ih =>
    obtain ⟨one, first, later⟩ := exceptSucceeds copied
    have blank : ∀ t ∈ b.space.toTokens, t.Given := givenToken given rfl
    exact ih (copyGiven isName inBody blank first) later

theorem copiesGiven {values : List Int} (copied : copies var body values = .ok b') :
    ∀ t ∈ b'.toTokens, t.Given := by
  cases values with
  | nil =>
    cases copied
    exact givenToken givenNone rfl
  | cons value values =>
    obtain ⟨one, first, copied⟩ := exceptSucceeds copied
    obtain ⟨all, later, copied⟩ := exceptSucceeds copied
    cases copied
    have given := moreCopiesGiven isName inBody (copyGiven isName inBody givenNone first) later
    exact givenToken given rfl

end Copies

theorem boundsStays (origin : Token) (numbers : List Number) :
    Stays nested (bounds origin numbers) := by
  unfold bounds
  split
  · exact meetsPure fun _ fair => fair
  · split
    · exact meetsFail _ _
    · exact meetsPure fun _ fair => fair
  · exact meetsFail _ _

theorem unrollServes (origin : Token) : Serves nested (unroll origin) := by
  unfold unroll
  refine meetsBind meetsName fun var => meetsKnowing fun isName => ?_
  refine meetsBind (staysRead Reader.expectingTakes) fun _ => ?_
  refine meetsBind (staysRead fun ran => ⟨_, Reader.uptoTakes ran⟩) fun values => ?_
  dsimp only
  split
  · exact meetsFail _ _
  refine meetsBind (meetsOfExcept fun _ _ _ fair => fair) fun numbers => ?_
  refine meetsBind (boundsStays origin numbers) fun ⟨first, last, step⟩ => ?_
  refine meetsBind (staysRead Reader.expectingTakes) fun _ => ?_
  refine meetsBind meetsBlock fun body => meetsKnowing fun inBody => ?_
  refine meetsBind (staysContext _) fun _ => ?_
  split
  · rename_i copied
    exact servesBuilt (copiesGiven isName inBody copied)
  · exact meetsFail _ _

theorem unrollStepServes : Serves nested unrollStep := by
  unfold unrollStep
  refine meetsBind meetsName fun var => meetsKnowing fun _ => ?_
  refine meetsBind (staysRead Reader.numberTakes) fun value => ?_
  refine meetsBind (staysContext _) fun _ => ?_
  split
  · refine meetsBind (staysScope ?_ var) fun _ => servesEmpty
    exact fun line ts parsed => parseTokensGiven (Value.lexedTokens parsed)
  · exact meetsFail _ _

theorem unrollDoneServes : Serves nested unrollDone :=
  meetsBind (staysContext _) fun _ => servesEmpty

section Calls

variable {call : Call} {f f' : Frame} {r : Value × Builder} (fair : f.Fair nested)
include fair

theorem nothingServes (ran : (Program.done .nothing .empty).run f = (.ok r, f')) :
    f'.Fair nested ∧ Supplies r := by
  cases ran
  exact ⟨fair, .empty, givenNone, .inl rfl⟩

theorem bareServes {act : Token → Action (Value × Builder)}
    (placed : ∀ origin, call = .bare origin → origin.Placed)
    (serves : ∀ origin, origin.Placed → Serves nested (act origin))
    (ran : (bare act call).run f = (.ok r, f')) : f'.Fair nested ∧ Supplies r := by
  cases call with
  | bare origin => exact programMeets (serves origin (placed origin rfl)) fair ran
  | applied args => exact nothingServes fair ran

theorem unaryServes {act : List Token → Action (Value × Builder)}
    (serves : ∀ x, Serves nested (act x)) (ran : (unary act call).run f = (.ok r, f')) :
    f'.Fair nested ∧ Supplies r := by
  unfold unary at ran
  split at ran
  · exact programMeets (serves _) fair ran
  · exact nothingServes fair ran

theorem binaryServes {act : List Token → List Token → Action (Value × Builder)}
    (serves : ∀ x y, Serves nested (act x y)) (ran : (binary act call).run f = (.ok r, f')) :
    f'.Fair nested ∧ Supplies r := by
  unfold binary at ran
  split at ran
  · exact programMeets (serves _ _) fair ran
  · exact nothingServes fair ran

/- The line of the name is used, and of the arguments nothing but their texts. -/
theorem standardServes {t : Transformer} (standard : t.Standard)
    (placed : ∀ origin, call = .bare origin → origin.Placed)
    (ran : (t.run call).run f = (.ok r, f')) : f'.Fair nested ∧ Supplies r := by
  obtain ⟨entry, member, same⟩ := standard
  rw [same] at ran
  simp only [definitions, List.mem_cons, List.not_mem_nil, or_false] at member
  rcases member with rfl | rfl | rfl | rfl | rfl | rfl | rfl | rfl
  · exact bareServes fair placed (fun _ _ => fileServes) ran
  · exact bareServes fair placed (fun _ placed => lineServes placed) ran
  · exact unaryServes fair stringizeServes ran
  · exact binaryServes fair concatServes ran
  · exact bareServes fair placed (fun _ _ => directiveServes) ran
  · exact bareServes fair placed (fun origin _ => unrollServes origin) ran
  · exact bareServes fair placed (fun _ _ => unrollStepServes) ran
  · exact bareServes fair placed (fun _ _ => unrollDoneServes) ran

end Calls

end Standard

end LuaExpander
