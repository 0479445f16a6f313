import LuaExpander.Operation
import LuaExpander.Proofs.Lasting
import LuaExpander.Proofs.Lexing
import LuaExpander.Proofs.Reading
import LuaExpander.Proofs.Scanning
import LuaExpander.Proofs.Stacks

/-! What the two tables of a registry hold. The table of a definition is chosen by the letters of
its name, and the name itself comes from the lexer, which tells identifiers from operators by rules
of its own. Both agree, so that the identifiers hold identifiers that are not reserved and the
operators hold none. No table ever keeps a name without definitions. -/
namespace LuaExpander

/- A name that is spelled like an identifier is no reserved word. -/
def Free (name : String) : Prop := Literal.isName name = true → name ∉ reservedWords

structure Token.Classed (t : Token) : Prop where
  iden : t.kind = .iden → t.value ∉ reservedWords
  op : t.kind = .op → ∀ more, Literal.isName (t.value ++ more) = false

theorem Lexeme.firstClassed {a b : List Char} {kind : Kind}
    (found : first (a ++ b) = .lexeme kind a b) (line : Nat) :
    (Lexer.lexeme kind a line).Classed := by
  have filled := (firstFaithful.splits found).2
  cases firstOrigin found with
  | name found =>
    refine ⟨fun isIden reserved => ?_, fun isOp => ?_⟩
    · simp [Lexer.lexeme, nameKind, show String.ofList a ∈ reservedWords from reserved] at isIden
    · rcases nameKindWord a with word | word <;> simp [Lexer.lexeme, word] at isOp
  | operator found noName =>
    refine ⟨fun isIden => by simp [Lexer.lexeme] at isIden, fun _ more => ?_⟩
    obtain ⟨c, front, rfl⟩ := List.exists_cons_of_ne_nil filled
    have noStart : isNameStart c = false := by simpa [name?] using noName
    simp [Literal.isName, Lexer.lexeme, noStart]
  | other inert => exact ⟨fun isIden => absurd isIden inert.1, fun isOp => absurd isOp inert.2.2⟩

theorem Lexer.lexesClassed {line : Nat} {cs : List Char} {l : Lexed} (lexed : Lexes line cs l) :
    ∀ t ∈ l.tokens, t.Classed := by
  induction lexed with
  | ends => simp
  | fails unfinished => simp
  | next found later ih => exact List.forall_mem_cons.mpr ⟨Lexeme.firstClassed found _, ih⟩

theorem parseTokensClassed {text : String} {line : Line} {ts : List Token}
    (parsed : parseTokens text line = .ok ts) : ∀ t ∈ ts, t.Classed := by
  intro t member
  obtain ⟨u, isToken, l, rfl⟩ := Lexer.parseTokensSource parsed t member
  have classed := Lexer.lexesClassed (Lexer.lexes 1 text.toList) u isToken
  exact ⟨classed.iden, classed.op⟩

namespace Definition

theorem readNameFree {line : Line} {r r' : Reader} {t : Token} {name : String}
    (classed : ∀ t ∈ r.cursor.ahead, t.Classed)
    (ran : (readName line).run.run r = (.ok (t, name), r')) : Free name := by
  obtain ⟨first, between, skipped, ran⟩ := bindSucceeds ran
  obtain ⟨front, took, ahead⟩ := Reader.skipBlankTakes skipped
  have known (solid : first.kind ≠ .eof) : first.Classed := by
    refine classed first ?_
    rw [took.ahead]
    exact List.mem_append_right _ (List.mem_of_head? (ahead.resolve_right solid))
  cases kind : first.kind with
  | iden =>
    rw [kind] at ran
    obtain ⟨u, after, -, ran⟩ := bindSucceeds ran
    cases ran
    exact fun _ => (known (by simp [kind])).iden kind
  | op =>
    rw [kind] at ran
    obtain ⟨u, after, -, ran⟩ := bindSucceeds ran
    obtain ⟨more, last, -, ran⟩ := bindSucceeds ran
    cases ran
    exact fun isName => absurd isName (by simp [(known (by simp [kind])).op kind])
  | keyword | string | number | space | comment | eof =>
    rw [kind] at ran
    cases ran

theorem makeReadsName {spec : String} {meaning : Option Meaning} {depth : Nat} {line : Line}
    {d : Definition} (made : make spec meaning depth line = .ok d) :
    ∃ ts first r, parseTokens spec line = .ok ts ∧
      (readName line).run.run { cursor := .ofTokens ts } = (.ok (first, d.name), r) := by
  obtain ⟨h, read, made⟩ := exceptSucceeds made
  obtain ⟨body, -, made⟩ := exceptSucceeds made
  cases made
  obtain ⟨ts, r', parsed, ran⟩ := Reader.headerRuns read
  obtain ⟨⟨first, name⟩, between, named, ran⟩ := bindSucceeds ran
  obtain ⟨params, after, -, ran⟩ := bindSucceeds ran
  cases ran
  exact ⟨ts, first, between, parsed, named⟩

theorem makeFree {spec : String} {meaning : Option Meaning} {depth : Nat} {line : Line}
    {d : Definition} (made : make spec meaning depth line = .ok d) : Free d.name := by
  obtain ⟨ts, first, r, parsed, named⟩ := makeReadsName made
  exact readNameFree (parseTokensClassed parsed) named

end Definition

def Table.Sound (admits : String → Prop) (table : Table) : Prop :=
  Table.Each (fun name s => s.items ≠ [] ∧ (∀ d ∈ s.items, d.name = name) ∧ admits name) table

structure Registry.Sound (r : Registry) : Prop where
  idens : Table.Sound (fun name => Literal.isName name = true ∧ name ∉ reservedWords) r.idens
  ops : Table.Sound (fun name => Literal.isName name = false ∧ name.length ≤ r.longest) r.ops

namespace Registry

theorem emptySound : Sound {} := by
  constructor <;> intro name s found <;> simp at found

theorem stackSound {r : Registry} (sound : r.Sound) {name : String} {s : Stack Definition}
    (found : r.stack? name = some s) :
    s.items ≠ [] ∧ (∀ d ∈ s.items, d.name = name) ∧ Free name ∧
      (Literal.isName name = false → name.length ≤ r.longest) := by
  unfold stack? at found
  split at found
  · rename_i isName
    obtain ⟨filled, named, -, free⟩ := sound.idens name s found
    exact ⟨filled, named, fun _ => free, fun isOp => absurd isName (by simp [isOp])⟩
  · obtain ⟨filled, named, isOp, short⟩ := sound.ops name s found
    exact ⟨filled, named, fun isName => absurd isName (by simp [isOp]), fun _ => short⟩

theorem tableSet {admits : String → Prop} {table : Table} (sound : Table.Sound admits table)
    {name : String} {s : Stack Definition} (named : ∀ d ∈ s.items, d.name = name)
    (admitted : admits name) :
    Table.Sound admits (if s.isEmpty then table.erase name else table.insert name s) :=
  Table.eachSet sound fun filled => ⟨by simpa [Stack.isEmpty] using filled, named, admitted⟩

theorem setSound {r : Registry} (sound : r.Sound) {name : String} {s : Stack Definition}
    (named : ∀ d ∈ s.items, d.name = name) (free : Free name)
    (short : Literal.isName name = false → name.length ≤ r.longest) :
    (r.setStack name s).Sound := by
  unfold setStack
  dsimp only
  split
  · rename_i isName
    exact ⟨tableSet sound.idens named ⟨isName, free isName⟩, sound.ops⟩
  · rename_i isOp
    have isOp : Literal.isName name = false := by simpa using isOp
    exact ⟨sound.idens, tableSet sound.ops named ⟨isOp, short isOp⟩⟩

theorem longerSound {r : Registry} (sound : r.Sound) {longest : Nat} (more : r.longest ≤ longest) :
    Sound { r with longest } where
  idens := sound.idens
  ops name s found := by
    obtain ⟨filled, named, isOp, short⟩ := sound.ops name s found
    exact ⟨filled, named, isOp, short.trans more⟩

theorem pushSound {r : Registry} (sound : r.Sound) {d : Definition} (free : Free d.name) :
    (r.push d).Sound := by
  have named : ∀ e ∈ ((r.stack d.name).push d).items, e.name = d.name := by
    refine List.forall_mem_cons.mpr ⟨rfl, ?_⟩
    unfold stack
    cases found : r.stack? d.name with
    | none => simp [Stack.empty]
    | some s => exact (stackSound sound found).2.1
  unfold push
  dsimp only
  -- The bound grows first, so that the new name is within it when it comes in.
  generalize grown : (if Literal.isName d.name then r.longest
    else max r.longest d.name.length) = longest
  have more : r.longest ≤ longest := by
    split at grown <;> omega
  have within : Literal.isName d.name = false → d.name.length ≤ longest := by
    intro isOp
    simp only [isOp, Bool.false_eq_true, if_false] at grown
    omega
  have same : { r.setStack d.name ((r.stack d.name).push d) with longest } =
      Registry.setStack d.name ((r.stack d.name).push d) { r with longest } := by
    unfold setStack
    dsimp only
    split <;> rfl
  rw [same]
  exact setSound (longerSound sound more) named free within

theorem undefineSound {r : Registry} (sound : r.Sound) (name : String) :
    (r.undefine name).Sound := by
  unfold undefine
  split
  · rename_i s found
    obtain ⟨-, named, free, short⟩ := stackSound sound found
    exact setSound sound (fun d member => named d (List.mem_of_mem_tail member)) free short
  · exact sound

theorem restoreSound {r : Registry} (sound : r.Sound) (name : String) (height : Nat) :
    (r.restore name height).Sound := by
  unfold restore
  split
  · rename_i s found
    obtain ⟨-, named, free, short⟩ := stackSound sound found
    exact setSound sound (fun d member => named d (List.mem_of_mem_drop member)) free short
  · exact sound

theorem definedActive {r : Registry} (sound : r.Sound) (name : String) :
    r.isDefined name = true ↔ r.get? name ≠ none := by
  unfold isDefined get?
  cases found : r.stack? name with
  | none => simp
  | some s =>
    obtain ⟨filled, -⟩ := stackSound sound found
    simpa [Stack.top?] using filled

end Registry

namespace Session

theorem changeSound {s s' : Session} (change : Change s s') (sound : s.registry.Sound) :
    s'.registry.Sound := by
  cases change with
  | quiet same => exact same.registry ▸ sound
  | define made registry =>
    have free := Definition.makeFree made
    exact registry ▸ Registry.pushSound sound free
  | scope made registry =>
    have free := Definition.makeFree made
    exact registry ▸ Registry.pushSound sound free
  | undefine name registry => exact registry ▸ Registry.undefineSound sound name
  | defer registry => exact registry ▸ sound
  | onKeyword registry => exact registry ▸ sound

theorem restoredSound {s : Session} (sound : s.registry.Sound) (name : String) (height : Nat) :
    (s.restore name height).registry.Sound :=
  restoreRegistry name height s ▸ Registry.restoreSound sound name height

theorem invariantSound : Invariant fun _ s => s.registry.Sound where
  also sound := sound
  change := changeSound
  restored sound := restoredSound sound _ _
  fired sound := sound
  finished _ sound := sound

theorem lastingSound : Lasting fun s => s.registry.Sound where
  program p f sound := @Program.runKeeps _ invariantSound [] p f sound
  restored sound := restoredSound sound _ _
  logged sound := changeSound (.quiet (logTextQuiet _ _ _ _)) sound
  blocks sound := sound
  numbered sound := sound

/- The sessions that can come up. Every operation may fail, and a scope may end at any time, in any
order and more than once. -/
inductive Reached : Session → Prop where
  | start {s} (blank : s.registry = {}) : Reached s
  | operate {s} (before : Reached s) (op : Operation) : Reached (s.operate op).2
  | restore {s} (before : Reached s) (name : String) (height : Nat) :
      Reached (s.restore name height)

theorem expandUnitSound {s : Session} (sound : s.registry.Sound) (steps : Nat) (source : Source)
    (unitName : Option String) : (s.expandUnit steps source unitName).2.registry.Sound := by
  rcases expandUnitCases steps source unitName s with refused | ⟨-, closes⟩
  · rw [refused]
    exact sound
  · have begun : (s.unitStart source unitName).session.registry.Sound := by
      refine changeSound (.quiet (logTextQuiet _ _ _ _)) ?_
      exact sound
    have scanned := Scan.unitLasts lastingSound steps (s.unitStart source unitName) begun
    rw [closes]
    exact changeSound (.quiet (closeUnitQuiet _ _)) scanned

theorem loggingSound {α : Type} {act : SessionM α}
    (change : ∀ s, Change s (act.run.run s).2) (good : α → Answer) {s : Session}
    (sound : s.registry.Sound) : (s.logging act good).2.registry.Sound := by
  unfold logging
  split
  · have kept := changeSound (change { s with log := none }) sound
    exact kept
  · exact changeSound (change s) sound

theorem operateSound {s : Session} (sound : s.registry.Sound) (op : Operation) :
    (s.operate op).2.registry.Sound := by
  cases op with
  | define spec meaning warn line => exact loggingSound (declareChange spec meaning warn line) _ sound
  | undefine name => exact Registry.undefineSound sound name
  | scope name meaning =>
    rw [operate]
    split
    · exact loggingSound (defineChange name meaning false (some 0)) _ sound
    · exact changeSound (scopeChange name meaning s) sound
  | defer handler depth =>
    rw [operate, attempt, defer, runBind, runGet]
    dsimp only
    cases s.blocks.defer handler depth <;> exact sound
  | onKeyword word handler => exact sound
  | context op =>
    rw [operate]
    split
    · exact loggingSound (fun s => .quiet (contextQuiet op s)) _ sound
    · exact changeSound (.quiet (contextQuiet op s)) sound
  | report severity unitName line message =>
    rw [operate]
    split
    · exact sound
    · exact changeSound (.quiet (reportQuiet severity unitName line message s)) sound
  | reset => exact sound
  | expand steps source unitName => exact expandUnitSound sound steps source unitName

theorem reachedSound {s : Session} (reached : Reached s) :
    s.registry.Sound ∧ ∀ name, s.registry.isDefined name = true ↔ s.registry.get? name ≠ none := by
  have sound : s.registry.Sound := by
    induction reached with
    | start blank => exact blank ▸ Registry.emptySound
    | operate _ op ih => exact operateSound ih op
    | restore _ name height ih => exact restoredSound ih name height
  exact ⟨sound, Registry.definedActive sound⟩

-- A unit fails while an operator is scoped over another, and the scopes end late and twice.
theorem reachedSoundAfterFailure :
    ∃ before : Session, before.Reached ∧ before.registry.height "<+>" = 2 ∧
      (before.expandUnit 50 (.text "X <+> end") none).1.toOption = none ∧
      let failed := (before.expandUnit 50 (.text "X <+> end") none).2
      let s := (((failed.restore "<+>" 1).restore "X" 0).restore "X" 1).restore "<+>" 1
      s.registry.height "<+>" = 1 ∧ s.registry.isDefined "X" = false ∧ s.registry.longest = 4 ∧
      s.registry.Sound ∧
      ∀ name, s.registry.isDefined name = true ↔ s.registry.get? name ≠ none := by
  have define {s : Session} (before : s.Reached) (spec : String) :=
    before.operate (.define spec none true (some 1))
  have long := (define (.start (s := {}) rfl) "<<=> 0").operate (.undefine "<<=>")
  have outer := define (define long "<+> -") "X 1"
  have inner := outer.operate (.scope "<+>" (some (.value (.text "+"))))
  have ended := ((inner.operate (.expand 50 (.text "X <+> end") none)).restore "<+>" 1).restore "X" 0
  exact ⟨_, inner, by decide +kernel, by decide +kernel, by decide +kernel, by decide +kernel,
    by decide +kernel, reachedSound ((ended.restore "X" 1).restore "<+>" 1)⟩

end Session

end LuaExpander
