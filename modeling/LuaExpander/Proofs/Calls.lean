import Mathlib.Data.List.Forall2
import LuaExpander.Proofs.Reading
import LuaExpander.Proofs.Scanning

/-! What a call that succeeds has done: it has read its arguments, it has expanded each of them on
its own, and it has settled every token of the answer. -/
namespace LuaExpander

namespace Token

variable {t : Token}

theorem numberedOf (given : t.serial ≠ none) (numbering place : Nat) :
    t.numbered numbering place = t := by
  unfold numbered
  cases serial : t.serial with
  | none => contradiction
  | some own => rfl

theorem numberedNew (none : t.serial = none) (numbering place : Nat) :
    t.numbered numbering place = { t with serial := some (numbering, place) } := by
  rw [numbered, none]

theorem numberedSame (numbering place : Nat) (t : Token) :
    ∃ serial, t.numbered numbering place = { t with serial } := by
  cases given : t.serial with
  | none => exact ⟨_, numberedNew given numbering place⟩
  | some own => exact ⟨t.serial, numberedOf (by simp [given]) numbering place⟩

end Token

namespace Tokens

theorem numberAtSource {ts : List Token} {numbering place : Nat} :
    ∀ t ∈ numberAt numbering place ts, ∃ u ∈ ts, ∃ place, t = u.numbered numbering place := by
  induction ts generalizing place with
  | nil => simp [numberAt]
  | cons u ts ih =>
    intro t member
    rw [numberAt] at member
    rcases List.mem_cons.mp member with rfl | member
    · exact ⟨u, List.mem_cons_self, place, rfl⟩
    · obtain ⟨v, inside, same⟩ := ih t member
      exact ⟨v, List.mem_cons_of_mem u inside, same⟩

theorem numberEachSource {args : List (List Token)} {numbering place : Nat} :
    ∀ arg ∈ numberEach numbering place args, ∀ t ∈ arg, ∃ own ∈ args, ∃ u ∈ own,
      ∃ place, t = u.numbered numbering place := by
  induction args generalizing place with
  | nil => simp [numberEach]
  | cons own args ih =>
    intro arg member t inside
    rw [numberEach] at member
    rcases List.mem_cons.mp member with rfl | member
    · obtain ⟨u, isOwn, same⟩ := numberAtSource t inside
      exact ⟨own, List.mem_cons_self, u, isOwn, same⟩
    · obtain ⟨other, isArg, found⟩ := ih arg member t inside
      exact ⟨other, List.mem_cons_of_mem own isArg, found⟩

theorem numberAtNumbers {ts : List Token} {numbering place : Nat} :
    ∀ t ∈ numberAt numbering place ts, t.serial ≠ none := by
  induction ts generalizing place with
  | nil => simp [numberAt]
  | cons u ts ih =>
    rw [numberAt]
    refine List.forall_mem_cons.mpr ⟨?_, ih⟩
    unfold Token.numbered
    cases given : u.serial with
    | some n => simp [given]
    | none => simp

end Tokens

theorem Frame.answerReaderless {f : Frame} (q : Query) (readerless : f.reader = none) :
    (f.answer q).2.reader = none := by
  cases q with
  | read op => simp [answer, reading, readerless]
  | taken => simp [answer, reading, readerless]
  | define | scope | undefine | context | depth | unitName | isDefined | note | ticket =>
    exact readerless

theorem Program.runReaderless (p : Program) {f : Frame} (readerless : f.reader = none) :
    (p.run f).2.reader = none := by
  induction p generalizing f with
  | done result built => exact readerless
  | fail failure => exact readerless
  | ask q next ih => exact ih _ (Frame.answerReaderless q readerless)
  | define life spec name id body next _ ih => exact ih _ readerless
  | defer depth name body next _ ih => exact ih _ readerless
  | onKeyword word name body next _ ih => exact ih _ readerless

namespace Scan

theorem textReplacementMember {d : Definition} {nameToken t : Token} {args : List (List Token)}
    {taken : Array Token} {value : List Token}
    (member : t ∈ textReplacement d nameToken args taken value) :
    (∃ arg ∈ args, t ∈ arg) ∨ ∃ u ∈ value, t = settle taken d.name nameToken.line u := by
  simp only [textReplacement, List.mem_flatMap] at member
  obtain ⟨u, inside, member⟩ := member
  split at member
  · rename_i arg bound
    split at bound
    · obtain ⟨front, rest, split, -⟩ := List.lookup_eq_some_iff.mp bound
      have isPair := split ▸ List.mem_append_right front List.mem_cons_self
      exact .inl ⟨arg, (List.of_mem_zip isPair).2, member⟩
    · cases bound
  · exact .inr ⟨u, inside, List.mem_singleton.mp member⟩

theorem argumentsRead {d : Definition} {nameToken : Token} {s s' : Scan}
    {args : List (List Token)} {taken : Array Token}
    (gathered : Gathered d nameToken s args taken s') :
    ∃ front rest, s.cursor.ahead = front ++ rest ∧ (∀ t ∈ front, t.kind ≠ .eof) ∧
      (∀ arg ∈ args, ∀ t ∈ arg, t ∈ front) ∧ taken = front.toArray ∧
      ∃ cursor, cursor.ahead = rest ∧ cursor.failure = s.cursor.failure ∧
        s' = { s with cursor } := by
  cases gathered with
  | bare => exact ⟨[], _, rfl, by simp, by simp, rfl, s.cursor, rfl, rfl, rfl⟩
  | applied function read =>
    obtain ⟨front, took, within⟩ := Reader.argumentsTake read
    exact ⟨front, _, took.ahead, took.solid, within, by simpa using took.taken, _, rfl,
      took.failure, rfl⟩

/- A scan that is about to run a transformer without parameters: what it may look at has numbers, and
the call is written down. -/
def calling (d : Definition) (nameToken : Token) (s : Scan) : Scan :=
  let (cursor, fresh) := s.cursor.number s.session.fresh
  { s with cursor, session := { s.session with fresh }.logCall nameToken d [] }

theorem bareReplaces {d : Definition} {t : Transformer} (params : d.params = none)
    (body : d.body = .callable t) (expand : ArgumentExpander) (nameToken : Token) (s : Scan) :
    (replacement expand d nameToken).run.run s =
      (callTransformer d t nameToken [] #[]).run.run (calling d nameToken s) := by
  let numbered : Scan :=
    { s with cursor := (s.cursor.number s.session.fresh).1
             session.fresh := (s.cursor.number s.session.fresh).2 }
  have noArguments : (readArguments d nameToken).run.run numbered = (.ok ([], #[]), numbered) := by
    rw [readArguments, params]
    rfl
  have none : (expandArguments expand []).run.run numbered = (.ok [], numbered) := rfl
  unfold replacement
  rw [body]
  dsimp only
  rw [runBind, show number.run.run s = (.ok (), numbered) from rfl]
  dsimp only
  rw [runBind, noArguments]
  dsimp only
  rw [runBind, none]
  dsimp only
  rw [runBind, inSession, runModify]
  rfl

theorem bareCalls {d : Definition} {t : Transformer} (params : d.params = none) {nameToken : Token}
    {s : Scan} {answer : Except Failure (Value × Builder)} {session : Session} {reader : Reader}
    (ran : (t.run (.bare nameToken)).run
        { session := s.session, reader := some { cursor := s.cursor, origin := some nameToken } } =
      (answer, { session, reader := some reader }))
    (args : List (List Token)) (taken : Array Token) :
    (callTransformer d t nameToken args taken).run.run s =
      (match answer >>= fun r => (callResult d r).toTokens with
        | .ok ts => .ok (ts.map (settle reader.taken d.name nameToken.line))
        | .error f => .error (.failed (callError d nameToken f)),
        { s with session, cursor := reader.cursor }) := by
  have bare : d.isFunction = false := by simp [Definition.isFunction, params]
  rw [callTransformer, runBind, runGet]
  simp only [bare, Bool.false_eq_true, if_false, ran]
  rw [runBind, runSet]
  dsimp only
  rcases answer >>= fun r => (callResult d r).toTokens with f | ts <;> rfl

theorem expandedEach {expand : ArgumentExpander} {args expanded : List (List Token)} {s s' : Scan}
    (ran : (expandArguments expand args).run.run s = (.ok expanded, s')) :
    List.Forall₂ (fun arg ts => ∃ before after, expand arg before = (.ok ts, after))
      args expanded := by
  induction args generalizing s expanded with
  | nil =>
    cases ran
    exact .nil
  | cons arg rest ih =>
    obtain ⟨ts, session, more, answered, later, rfl⟩ := expandArgumentsSucceeds ran
    exact .cons ⟨_, _, answered⟩ (ih later)

theorem settleNumbered {front : List Token} (numbered : ∀ u ∈ front, u.serial ≠ none)
    (name : String) (line : Line) (t : Token) :
    settle front.toArray name line t =
      if t.serial ∈ front.map (·.serial) then t else t.markedBy name line := by
  have same : isTaken front.toArray t = true ↔ t.serial ∈ front.map (·.serial) := by
    simp only [isTaken, Bool.and_eq_true, Array.any_eq_true', List.mem_toArray, beq_iff_eq,
      List.mem_map]
    constructor
    · rintro ⟨-, u, inside, same⟩
      exact ⟨u, inside, same⟩
    · rintro ⟨u, inside, same⟩
      exact ⟨Option.isSome_iff_ne_none.mpr (same ▸ numbered u inside), u, inside, same⟩
  simp only [settle, same]

/- How a call with parameters comes to its replacement. It reads `front` for the arguments, expands
each of them, and of the tokens that the transformer answers those in `front` stay as they are. -/
inductive Settles (expand : ArgumentExpander) (d : Definition) (t : Transformer)
    (nameToken : Token) (s : Scan) : List Token → Prop where
  | intro {front rest args expanded f f' r given}
      (read : Tokens.numberAt s.session.fresh 0 s.cursor.ahead = front ++ rest)
      (numbered : ∀ u ∈ front, u.serial ≠ none)
      (within : ∀ arg ∈ args, ∀ u ∈ arg, u ∈ front)
      (each : List.Forall₂ (fun arg ts => ∃ before after, expand arg before = (.ok ts, after))
        args expanded)
      (answered : (t.run (.applied expanded)).run f = (.ok r, f'))
      (tokens : (callResult d r).toTokens = .ok given) :
      Settles expand d t nameToken s (given.map fun u =>
        if u.serial ∈ front.map (·.serial) then u else u.markedBy d.name nameToken.line)

theorem replacementSettles {expand : ArgumentExpander} {d : Definition} {t : Transformer}
    {params : List String} {nameToken : Token} {s s' : Scan} {ts : List Token}
    (body : d.body = .callable t) (function : d.params = some params)
    (ran : (replacement expand d nameToken).run.run s = (.ok ts, s')) :
    Settles expand d t nameToken s ts := by
  cases replacementSucceeds ran with
  | text isText =>
    rw [body] at isText
    contradiction
  | @call _ _ args taken read expanded between _ _ isCall numbers gathered expands called =>
    cases body.symm.trans isCall
    cases numbers
    obtain ⟨front, rest, ahead, -, within, rfl, -⟩ := argumentsRead gathered
    obtain ⟨r, f, given, answered, tokens, rfl, -⟩ := callAnswered called
    have isFunction : d.isFunction = true := by simp [Definition.isFunction, function]
    rw [if_pos isFunction, if_pos isFunction] at answered
    have readerless : f.reader = none := by
      simpa [answered] using (t.run (.applied expanded)).runReaderless
        (f := { session := between.session.logCall nameToken d expanded, reader := none }) rfl
    have read := (Cursor.aheadNumber s.session.fresh s.cursor).symm.trans ahead
    have numbered : ∀ u ∈ front, u.serial ≠ none := fun u inside =>
      Tokens.numberAtNumbers u (read ▸ List.mem_append_left rest inside)
    rw [readerless, Option.map_none, Option.getD_none,
      funext (settleNumbered numbered d.name nameToken.line)]
    exact .intro read numbered within (expandedEach expands) answered tokens

end Scan

end LuaExpander
