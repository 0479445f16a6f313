import LuaExpander.Proofs.Lexing
import LuaExpander.Proofs.Running

/-! What a cursor gives, draw by draw, is one list of tokens, which may fail at its end. A text that
is lexed as far as its tokens are drawn stands for the tokens of the whole text, whatever has been
looked at and put back; so all that reads from a cursor can be described by that list. -/
namespace LuaExpander

namespace Lexing

theorem nextNone {l : Lexing} (ended : l.next = .ok none) :
    Lexer.lexFrom 0 l.line l.rest = ⟨[], none, l.line⟩ := by
  obtain ⟨_ | ⟨c, cs⟩, line⟩ := l
  · rfl
  · unfold next at ended
    dsimp only at ended
    split at ended <;> cases ended

theorem nextSome {l l' : Lexing} {t : Token} (given : l.next = .ok (some (t, l'))) :
    Lexer.lexFrom 0 l.line l.rest =
      { Lexer.lexFrom 0 l'.line l'.rest with
        tokens := t :: (Lexer.lexFrom 0 l'.line l'.rest).tokens } ∧
    l'.rest.length < l.rest.length := by
  obtain ⟨_ | ⟨c, cs⟩, line⟩ := l
  · cases given
  · unfold next at given
    dsimp only at given
    split at given
    · rename_i kind text rest found
      cases given
      obtain ⟨whole, filled⟩ := Lexeme.firstFaithful.splits found
      constructor
      · rw [whole] at found ⊢
        exact Lexer.lexCons found line
      · have positive := List.length_pos_iff.mpr filled
        dsimp only
        rw [whole, List.length_append]
        omega
    · cases given

theorem nextError {l : Lexing} {e : Error} (failed : l.next = .error e) :
    Lexer.lexFrom 0 l.line l.rest = ⟨[], some e, l.line⟩ := by
  obtain ⟨_ | ⟨c, cs⟩, line⟩ := l
  · cases failed
  · unfold next at failed
    dsimp only at failed
    split at failed
    · cases failed
    · rename_i cause found
      cases failed
      rw [Lexer.lexFrom]
      simp only [found]

theorem allFromLexes {turns : Nat} {l : Lexing} (enough : l.rest.length ≤ turns) :
    (l.allFrom turns).1 = match (Lexer.lexFrom 0 l.line l.rest).failure with
      | some e => .error e
      | none => .ok (Lexer.lexFrom 0 l.line l.rest).tokens := by
  induction turns generalizing l with
  | zero =>
    have empty := List.eq_nil_of_length_eq_zero (Nat.le_zero.mp enough)
    rw [empty]
    rfl
  | succ turns ih =>
    rw [allFrom]
    rcases given : l.next with e | _ | ⟨t, l'⟩
    · rw [nextError given]
    · rw [nextNone given]
    · obtain ⟨lexed, shorter⟩ := nextSome given
      dsimp only
      rw [lexed, ih (by omega)]
      dsimp only
      cases (Lexer.lexFrom 0 l'.line l'.rest).failure <;> rfl

end Lexing

namespace Tokens

theorem numberAtAppend (numbering place : Nat) (ts us : List Token) :
    numberAt numbering place (ts ++ us) =
      numberAt numbering place ts ++ numberAt numbering (place + ts.length) us := by
  induction ts generalizing place with
  | nil => rfl
  | cons t ts ih => simp [numberAt, ih, Nat.add_assoc, Nat.add_comm 1]

@[simp] theorem numberAtLength (numbering place : Nat) (ts : List Token) :
    (numberAt numbering place ts).length = ts.length := by
  induction ts generalizing place with
  | nil => rfl
  | cons t ts ih => simp [numberAt, ih]

theorem numberedAgain (numbering place numbering' place' : Nat) (t : Token) :
    (t.numbered numbering place).numbered numbering' place' = t.numbered numbering place := by
  unfold Token.numbered
  cases given : t.serial with
  | some n => simp [given]
  | none => rfl

theorem numberAtAgain (numbering place numbering' place' : Nat) (ts : List Token) :
    numberAt numbering' place' (numberAt numbering place ts) = numberAt numbering place ts := by
  induction ts generalizing place place' with
  | nil => rfl
  | cons t ts ih => simp [numberAt, numberedAgain, ih]

/- What is taken in front, as long as there is a state for the next token. -/
def takeFrom {σ : Type} (more : σ → Token → Option σ) : σ → List Token → List Token
  | _, [] => []
  | state, t :: ts =>
    match more state t with
    | some state => t :: takeFrom more state ts
    | none => []

theorem takeFromWhile (p : Token → Bool) (ts : List Token) :
    takeFrom (fun _ t => if p t then some () else none) () ts = ts.takeWhile p := by
  induction ts with
  | nil => rfl
  | cons t ts ih =>
    rw [takeFrom, List.takeWhile_cons]
    cases p t with
    | false => rfl
    | true => exact congrArg (t :: ·) ih

end Tokens

namespace Unread

/- What can come of a draw. -/
inductive Drawn (u : Unread) : Except Error (Option Token) × Unread → Prop where
  | token {t u'} (ahead : u.ahead = t :: u'.ahead) (failure : u'.failure = u.failure)
      (smaller : u'.size < u.size) : Drawn u (.ok (some t), u')
  | none (ahead : u.ahead = []) (failure : u.failure = none) : Drawn u (.ok none, u)
  | error {e u'} (ahead : u.ahead = []) (failure : u.failure = some e) (none : u'.ahead = [])
      (spent : u'.failure = Option.none) : Drawn u (.error e, u')

/- Numbers aside, the tokens of a text are those of its lexemes. -/
theorem aheadText (left : Lexing) (numbering : Option (Nat × Nat)) :
    (text left numbering).ahead = match numbering with
      | some (numbering, place) =>
        Tokens.numberAt numbering place (Lexer.lexFrom 0 left.line left.rest).stream
      | none => (Lexer.lexFrom 0 left.line left.rest).stream := by
  cases numbering <;> rfl

theorem textDrawn (left : Lexing) (numbering : Option (Nat × Nat)) :
    Drawn (text left numbering) (draw (text left numbering)) := by
  rw [draw]
  rcases given : left.next with e | _ | ⟨t, left'⟩
  · have lexed := Lexing.nextError given
    refine .error ?_ (by rw [failure, lexed]) rfl rfl
    rw [aheadText, lexed]
    cases numbering <;> rfl
  · have lexed := Lexing.nextNone given
    refine .token ?_ (by rw [failure, failure, lexed]) (by simp [size])
    rw [aheadText, lexed]
    cases numbering <;> rfl
  · obtain ⟨lexed, shorter⟩ := Lexing.nextSome given
    refine .token ?_ (by rw [failure, failure, lexed]) (by simp only [size]; omega)
    rw [aheadText, aheadText, lexed, Lexer.streamCons]
    cases numbering <;> rfl

theorem drawn (u : Unread) : Drawn u u.draw := by
  cases u with
  | tokens ts failure =>
    cases ts with
    | cons t ts => exact .token rfl rfl (by simp [size])
    | nil =>
      cases failure with
      | none => exact .none rfl rfl
      | some e => exact .error rfl rfl rfl rfl
  | text left numbering => exact textDrawn left numbering
  | ended line => exact .none rfl rfl

theorem aheadSize (u : Unread) : u.ahead.length < u.size := by
  induction measure : u.size using Nat.strongRecOn generalizing u with
  | ind n ih =>
    have positive : 0 < u.size := by cases u <;> simp [size]
    have outcome := u.drawn
    generalize u.draw = result at outcome
    cases outcome with
    | @token t u' ahead failure smaller =>
      have others := ih u'.size (by omega) u' rfl
      rw [ahead, List.length_cons]
      omega
    | none ahead | error ahead =>
      rw [ahead, List.length_nil]
      omega

theorem aheadNumber (numbering place : Nat) (u : Unread) :
    (u.number numbering place).ahead = Tokens.numberAt numbering place u.ahead := by
  cases u with
  | tokens ts failure => rfl
  | text left given =>
    cases given with
    | none => rfl
    | some given => exact (Tokens.numberAtAgain _ _ _ _ _).symm
  | ended line => rfl

theorem failureNumber (numbering place : Nat) (u : Unread) :
    (u.number numbering place).failure = u.failure := by
  cases u with
  | tokens ts failure => rfl
  | text left given => cases given <;> rfl
  | ended line => rfl

end Unread

namespace Cursor

@[simp] theorem aheadOfTokens (ts : List Token) : (ofTokens ts).ahead = ts := rfl

@[simp] theorem failureOfTokens (ts : List Token) : (ofTokens ts).failure = none := rfl

@[simp] theorem aheadOfText (text : String) : (ofText text).ahead = (Lexer.lex text).stream := rfl

@[simp] theorem failureOfText (text : String) : (ofText text).failure = (Lexer.lex text).failure :=
  rfl

@[simp] theorem aheadPrepend (ts : List Token) (c : Cursor) :
    (c.prepend ts).ahead = ts ++ c.ahead := by
  simp [prepend, ahead]

@[simp] theorem failurePrepend (ts : List Token) (c : Cursor) :
    (c.prepend ts).failure = c.failure := rfl

@[simp] theorem aheadNumber (fresh : Nat) (c : Cursor) :
    (c.number fresh).1.ahead = Tokens.numberAt fresh 0 c.ahead := by
  simp [number, ahead, Unread.aheadNumber, Tokens.numberAtAppend]

@[simp] theorem failureNumber (fresh : Nat) (c : Cursor) :
    (c.number fresh).1.failure = c.failure := Unread.failureNumber _ _ _

theorem aheadSize (c : Cursor) : c.ahead.length < c.size := by
  have behind := c.unread.aheadSize
  simp only [ahead, size, List.length_append]
  omega

/- What can come of taking a token. -/
inductive Given (c : Cursor) : Except Error (Option Token) × Cursor → Prop where
  | token {t c'} (ahead : c.ahead = t :: c'.ahead) (failure : c'.failure = c.failure)
      (pending : c'.pending = c.pending.tail) : Given c (.ok (some t), c')
  | none (ahead : c.ahead = []) (failure : c.failure = none) : Given c (.ok none, c)
  | error {e c'} (ahead : c.ahead = []) (failure : c.failure = some e) (none : c'.ahead = [])
      (spent : c'.failure = Option.none) : Given c (.error e, c')

theorem given (c : Cursor) : Given c c.next := by
  obtain ⟨_ | ⟨t, pending⟩, unread⟩ := c
  · rw [next]
    dsimp only
    have source := unread.drawn
    generalize unread.draw = result at source
    cases source with
    | token ahead failure => exact .token ahead failure rfl
    | none ahead failure => exact .none ahead failure
    | error ahead failure none spent => exact .error ahead failure none spent
  · exact .token rfl rfl rfl

theorem aheadGiven {c c' : Cursor} {t : Token} (taken : c.next = (.ok (some t), c')) :
    c.ahead = t :: c'.ahead ∧ c'.failure = c.failure ∧ c'.pending = c.pending.tail := by
  have outcome := c.given
  rw [taken] at outcome
  cases outcome with
  | token ahead failure pending => exact ⟨ahead, failure, pending⟩

theorem dropOne {c c' : Cursor} {t : Token} (taken : c.next = (.ok (some t), c')) (n : Nat) :
    c.drop (n + 1) = c'.drop n := by
  rw [drop, taken]

theorem nextToken {c : Cursor} {t : Token} {rest : List Token} (ahead : c.ahead = t :: rest) :
    c.next = (.ok (some t), c.drop 1) := by
  have outcome := c.given
  rcases taken : c.next with ⟨answer, c'⟩
  rw [taken] at outcome
  cases outcome with
  | token here =>
    cases here.symm.trans ahead
    exact Prod.ext rfl (dropOne taken 0).symm
  | none here | error here => cases here.symm.trans ahead

theorem nextNone {c : Cursor} (ahead : c.ahead = []) (failure : c.failure = none) :
    c.next = (.ok none, c) := by
  have outcome := c.given
  generalize c.next = result at outcome
  cases outcome with
  | token here => rw [here] at ahead; cases ahead
  | none => rfl
  | error _ fails => rw [fails] at failure; cases failure

theorem nextError {c : Cursor} {e : Error} (ahead : c.ahead = []) (failure : c.failure = some e) :
    ∃ c', c.next = (.error e, c') ∧ c'.ahead = [] ∧ c'.failure = none := by
  have outcome := c.given
  generalize c.next = result at outcome
  cases outcome with
  | token here => rw [here] at ahead; cases ahead
  | none _ complete => rw [complete] at failure; cases failure
  | error _ fails none spent =>
    cases fails.symm.trans failure
    exact ⟨_, rfl, none, spent⟩

theorem dropNil {c : Cursor} (ahead : c.ahead = []) (n : Nat) : c.drop n = c := by
  cases n with
  | zero => rfl
  | succ n =>
    have outcome := c.given
    rw [drop]
    generalize c.next = result at outcome
    cases outcome with
    | token here => rw [here] at ahead; cases ahead
    | none => rfl
    | error => rfl

theorem dropCons {c : Cursor} {t : Token} {rest : List Token} (ahead : c.ahead = t :: rest)
    (n : Nat) : c.drop (n + 1) = (c.drop 1).drop n :=
  dropOne (nextToken ahead) n

theorem dropDrop (m n : Nat) (c : Cursor) : (c.drop m).drop n = c.drop (m + n) := by
  induction m generalizing c with
  | zero => rw [Nat.zero_add]; rfl
  | succ m ih =>
    cases here : c.ahead with
    | nil => rw [dropNil here, dropNil here, dropNil here]
    | cons t rest => rw [dropCons here, ih, Nat.add_right_comm, dropCons here (m + n)]

theorem dropViews (n : Nat) (c : Cursor) : (c.drop n).ahead = c.ahead.drop n ∧
    (c.drop n).failure = c.failure ∧ (c.drop n).pending = c.pending.drop n := by
  induction n generalizing c with
  | zero => exact ⟨rfl, rfl, rfl⟩
  | succ n ih =>
    cases here : c.ahead with
    | nil =>
      have none : c.pending = [] := (List.append_eq_nil_iff.mp here).1
      rw [dropNil here]
      exact ⟨here, rfl, by rw [none, List.drop_nil]⟩
    | cons t rest =>
      obtain ⟨first, failure, pending⟩ := aheadGiven (nextToken here)
      obtain ⟨ahead, failures, left⟩ := ih (c.drop 1)
      rw [dropCons here, ahead, failures, left, pending, List.drop_tail]
      rw [here] at first
      rw [List.drop_succ_cons, (List.cons.inj first).2]
      exact ⟨rfl, failure, rfl⟩

@[simp] theorem aheadDrop (n : Nat) (c : Cursor) : (c.drop n).ahead = c.ahead.drop n :=
  (dropViews n c).1

@[simp] theorem failureDrop (n : Nat) (c : Cursor) : (c.drop n).failure = c.failure :=
  (dropViews n c).2.1

@[simp] theorem pendingDrop (n : Nat) (c : Cursor) : (c.drop n).pending = c.pending.drop n :=
  (dropViews n c).2.2

theorem peekToken {c : Cursor} {t : Token} {rest : List Token} (ahead : c.ahead = t :: rest) :
    c.peek = (.ok (some t), (c.drop 1).putBack t) := by
  rw [peek, nextToken ahead]

theorem peekNone {c : Cursor} (ahead : c.ahead = []) (failure : c.failure = none) :
    c.peek = (.ok none, c) := by
  rw [peek, nextNone ahead failure]

theorem peekError {c : Cursor} {e : Error} (ahead : c.ahead = []) (failure : c.failure = some e) :
    ∃ c', c.peek = (.error e, c') ∧ c'.ahead = [] ∧ c'.failure = none := by
  obtain ⟨c', failed, spent⟩ := nextError ahead failure
  exact ⟨c', by rw [peek, failed], spent⟩

/- Looking at a token changes nothing about those to come. -/
theorem aheadPeek (c : Cursor) : c.peek.2.ahead = c.ahead := by
  cases here : c.ahead with
  | cons t rest => rw [peekToken here, putBack, aheadPrepend, aheadDrop, here]; rfl
  | nil =>
    cases failure : c.failure with
    | none => rw [peekNone here failure]; exact here
    | some e =>
      obtain ⟨c', failed, none, -⟩ := peekError here failure
      rw [failed]
      exact none

theorem takeFromAhead {σ : Type} (more : σ → Token → Option σ) {turns : Nat} (state : σ)
    {c : Cursor} (enough : c.ahead.length < turns) :
    takeFrom more turns state c =
      (Tokens.takeFrom more state c.ahead,
        c.drop (Tokens.takeFrom more state c.ahead).length) := by
  induction turns generalizing state c with
  | zero => contradiction
  | succ turns ih =>
    cases here : c.ahead with
    | nil =>
      have outcome := c.given
      rw [takeFrom]
      generalize c.next = result at outcome
      cases outcome with
      | token ahead => rw [here] at ahead; cases ahead
      | none => rfl
      | error => rfl
    | cons t rest =>
      have rests : (c.drop 1).ahead = rest := by rw [aheadDrop, here]; rfl
      rw [takeFrom, nextToken here, Tokens.takeFrom]
      dsimp only
      cases more state t with
      | none => rfl
      | some state =>
        dsimp only
        rw [ih state (by rw [rests]; rw [here] at enough; exact Nat.lt_of_succ_lt_succ enough), rests,
          List.length_cons, dropCons here (Tokens.takeFrom more state rest).length]

theorem takeWhileAhead (p : Token → Bool) (c : Cursor) :
    c.takeWhile p = (c.ahead.takeWhile p, c.drop (c.ahead.takeWhile p).length) := by
  rw [takeWhile, takeFromAhead _ _ c.aheadSize, Tokens.takeFromWhile]

/- After the last token one more is wanted, which ends the source or makes it fail. -/
theorem restAhead (c : Cursor) :
    c.rest = (match c.failure with
      | some e => .error e
      | none => .ok c.ahead, (c.drop c.ahead.length).next.2) := by
  have enough := c.aheadSize
  rw [rest]
  generalize c.size = turns at enough
  induction turns generalizing c with
  | zero => contradiction
  | succ turns ih =>
    rw [restFrom]
    cases here : c.ahead with
    | nil =>
      rw [List.length_nil, drop]
      cases failure : c.failure with
      | none => rw [nextNone here failure]
      | some e =>
        obtain ⟨c', failed, -⟩ := nextError here failure
        rw [failed]
    | cons t rest =>
      have rests : (c.drop 1).ahead = rest := by rw [aheadDrop, here]; rfl
      rw [here] at enough
      have others := ih (c.drop 1) (by
        rw [rests]
        exact Nat.lt_of_succ_lt_succ enough)
      rw [nextToken here]
      dsimp only
      rw [others, failureDrop, rests, List.length_cons, dropCons here rest.length]
      cases c.failure <;> rfl

end Cursor

namespace Registry

/- The operators in front, as long as the texts before each are shorter than `limit`. -/
def operatorRun (limit length : Nat) : List Token → List Token
  | [] => []
  | t :: ts =>
    if length < limit ∧ t.kind = .op then t :: operatorRun limit (length + t.value.length) ts
    else []

theorem takeOperatorsAhead (limit length : Nat) (c : Cursor) :
    takeOperators limit length c =
      (operatorRun limit length c.ahead, c.drop (operatorRun limit length c.ahead).length) := by
  have same (ts : List Token) : Tokens.takeFrom (fun length t =>
      if length < limit ∧ t.kind = .op then some (length + t.value.length) else none) length ts =
        operatorRun limit length ts := by
    induction ts generalizing length with
    | nil => rfl
    | cons t ts ih =>
      rw [Tokens.takeFrom, operatorRun]
      by_cases taken : length < limit ∧ t.kind = .op
      · simp only [if_pos taken, ih]
      · simp only [if_neg taken]
  rw [takeOperators, Cursor.takeFromAhead _ _ c.aheadSize, same]

/- What is done with a run of operators once it is known, and whether one has to look further. -/
def looked (run : List Token) (short : Bool) (c : Cursor) : Except Error (Option Token) × Cursor :=
  if short then (c.drop run.length).peek else (.ok none, c.drop run.length)

def chosen (r : Registry) (t : Token) (run : List Token) (seen : Except Error (Option Token))
    (rest : Cursor) : Except Error Search × Cursor :=
  match seen with
  | .error e => (.error e, rest)
  | .ok _ =>
    match longestName r (t :: run) 0 (run.length + 1) with
    | (some (n, name, definition), held) =>
      let nameToken := if n > 1 then { t with value := name, serial := none } else t
      (.ok ⟨some ⟨definition, nameToken⟩, held⟩, rest.prepend (run.drop (n - 1)))
    | (none, held) => (.ok ⟨none, held⟩, rest.prepend run)

theorem chosenOf (r : Registry) (t : Token) (run : List Token)
    (seen : Except Error (Option Token) × Cursor) :
    (match seen with
      | (.error e, rest) => ((.error e : Except Error Search), rest)
      | (.ok _, rest) => chosen r t run (.ok none) rest) = chosen r t run seen.1 seen.2 := by
  rcases seen with ⟨e | first, rest⟩ <;> rfl

theorem matchOperatorRuns (r : Registry) (t : Token) (c : Cursor) :
    let run := operatorRun r.longest t.value.length c.ahead
    let seen := looked run (decide ((Tokens.text (t :: run)).length < r.longest)) c
    r.matchOperator t c = chosen r t run seen.1 seen.2 := by
  intro run seen
  rw [matchOperator, takeOperatorsAhead]
  exact chosenOf r t run seen

end Registry

namespace Reader

variable {α : Type}

theorem takeWhileRuns (p : Token → Bool) (r : Reader) :
    (takeWhile p).run.run r =
      (.ok (r.cursor.ahead.takeWhile p), r.took (r.cursor.ahead.takeWhile p)) := by
  rw [takeWhile, runBind, runGet]
  dsimp only
  rw [Cursor.takeWhileAhead]
  rfl

theorem whileRuns (p : Token → Bool) (g : List Token → ReaderM α) (r : Reader) :
    (takeWhile p >>= g).run.run r =
      (g (r.cursor.ahead.takeWhile p)).run.run (r.took (r.cursor.ahead.takeWhile p)) := by
  rw [runBind, takeWhileRuns]

theorem peekRuns (r : Reader) :
    peek.run.run r =
      (match r.cursor.peek.1 with
        | .ok (some t) => .ok t
        | .ok none => .ok r.endToken
        | .error e => .error (.error e), { r with cursor := r.cursor.peek.2 }) := by
  rw [peek, runBind, runGet]
  dsimp only
  rcases r.cursor.peek with ⟨e | _ | t, cursor⟩ <;> rfl

/- A scan as a function of the tokens to come. It answers its result and how many it takes. -/
def scanned {σ : Type} (turn : σ → Token → Turn σ α) : σ → List Token → Option (α × Nat)
  | _, [] => none
  | state, t :: ts =>
    if t.kind = .eof then none
    else match turn state t with
      | .more state => (scanned turn state ts).map fun found => (found.1, found.2 + 1)
      | .done result => some (result, 1)

/- Takes the tokens of a scan; without a result all are taken up to the end of the input, which is
then missing its `stop`. -/
def through (stop : String) (scan : List Token → Option (α × Nat)) : ReaderM α := do
  let ahead := (← get).cursor.ahead
  match scan ahead with
  | some (value, n) =>
    modify (·.took (ahead.take n))
    return value
  | none =>
    let _ ← takeWhile (·.kind ≠ .eof)
    missing stop (← peek)

theorem throughRuns (stop : String) (scan : List Token → Option (α × Nat)) (r : Reader) :
    (through stop scan).run.run r = match scan r.cursor.ahead with
      | some (a, n) => (.ok a, r.took (r.cursor.ahead.take n))
      | none => (takeWhile (·.kind ≠ .eof) >>= fun _ => peek >>= missing stop).run.run r := by
  rw [through, runBind, runGet]
  dsimp only
  rcases scan r.cursor.ahead with _ | ⟨a, n⟩ <;> rfl

@[simp] theorem tookNil (r : Reader) : r.took [] = r := by
  simp [took, Cursor.drop]

theorem tookAppend (ts us : List Token) (r : Reader) : (r.took ts).took us = r.took (ts ++ us) := by
  simp [took, Cursor.dropDrop, Array.append_assoc]

theorem moreRuns (stop : String) {r : Reader} {t : Token} {rest : List Token}
    (ahead : r.cursor.ahead = t :: rest) (solid : t.kind ≠ .eof) :
    (more stop).run.run r = (.ok t, { r with cursor := (r.cursor.drop 1).putBack t }) := by
  rw [more, runBind, peekRuns, Cursor.peekToken ahead]
  dsimp only
  rw [if_neg solid]
  rfl

theorem moreAtEnd (stop : String) {r : Reader}
    (ends : ∀ t rest, r.cursor.ahead = t :: rest → t.kind = .eof) {f : Token → ReaderM α} :
    (more stop >>= f).run.run r = (peek >>= missing stop).run.run r := by
  rw [runBind, more, runBind, runBind, peekRuns]
  cases ahead : r.cursor.ahead with
  | cons t rest =>
    rw [Cursor.peekToken ahead]
    dsimp only
    rw [if_pos (ends t rest ahead)]
    rfl
  | nil =>
    cases failure : r.cursor.failure with
    | none =>
      rw [Cursor.peekNone ahead failure]
      dsimp only
      rw [if_pos (show r.endToken.kind = .eof from rfl)]
      rfl
    | some e =>
      obtain ⟨c', failed, -⟩ := Cursor.peekError ahead failure
      rw [failed]

theorem scanFromRuns {σ : Type} (stop : String) (turn : σ → Token → Turn σ α) {turns : Nat}
    (state : σ) {r : Reader} (enough : r.cursor.ahead.length < turns) :
    (scanFrom stop turn turns state).run.run r =
      (through stop (scanned turn state)).run.run r := by
  induction turns generalizing state r with
  | zero => contradiction
  | succ turns ih =>
    rw [scanFrom, throughRuns]
    cases ahead : r.cursor.ahead with
    | nil =>
      rw [moreAtEnd stop (by simp [ahead])]
      dsimp only [scanned]
      rw [whileRuns, ahead, List.takeWhile_nil, tookNil]
    | cons t rest =>
      have rests : (r.took [t]).cursor.ahead = rest := by simp [took, ahead]
      by_cases isEnd : t.kind = .eof
      · rw [moreAtEnd stop (by rw [ahead]; rintro _ _ ⟨⟩; exact isEnd), scanned, if_pos isEnd]
        dsimp only
        rw [whileRuns, ahead, List.takeWhile_cons_of_neg (by simpa using isEnd), tookNil]
      · rw [runBind, moreRuns stop ahead isEnd, scanned, if_neg isEnd]
        dsimp only
        rw [runBind, runModify]
        dsimp only
        have taken : took [t] { r with cursor := (r.cursor.drop 1).putBack t } = r.took [t] := rfl
        rw [taken]
        cases turn state t with
        | done result => rfl
        | more state =>
          dsimp only
          rw [ih state (by rw [rests]; rw [ahead] at enough; exact Nat.lt_of_succ_lt_succ enough),
            throughRuns, rests]
          rcases scanned turn state rest with _ | ⟨a, n⟩
          · dsimp only [Option.map_none]
            rw [whileRuns, whileRuns, rests, ahead,
              List.takeWhile_cons_of_pos (by simpa using isEnd), tookAppend]
            rfl
          · dsimp only [Option.map_some]
            rw [tookAppend]
            rfl

theorem scanRuns {σ : Type} (stop : String) (turn : σ → Token → Turn σ α) (state : σ)
    (r : Reader) :
    (scan stop turn state).run.run r = (through stop (scanned turn state)).run.run r := by
  rw [scan, runBind, runGet]
  exact scanFromRuns stop turn state r.cursor.aheadSize

/- Arguments between commas outside of brackets, through `stop`, and how many tokens they take. -/
def scanList (stop : String) (closers : List String) (arg : List Token) :
    List Token → Option (List (List Token) × Nat)
  | [] => none
  | t :: ts =>
    let further (closers : List String) :=
      (scanList stop closers (t :: arg) ts).map fun found => (found.1, found.2 + 1)
    if t.kind = .eof then none
    else if t.kind = .op then
      if closers.isEmpty ∧ t.value = stop then some ([Tokens.strip arg.reverse], 1)
      else if closers.isEmpty ∧ t.value = "," then
        (scanList stop [] [] ts).map fun found =>
          (Tokens.strip arg.reverse :: found.1, found.2 + 1)
      else match closerOf? t.value with
        | some closer => further (closer :: closers)
        | none => if closers.head? = some t.value then further closers.tail else further closers
    else further closers

/- Tokens through the keyword that closes the current block, and how many they are. -/
def scanBlock (level : Nat) : List Token → Option (List Token × Nat)
  | [] => none
  | t :: ts =>
    let further (level : Nat) :=
      (scanBlock level ts).map fun found => (t :: found.1, found.2 + 1)
    if t.kind = .eof then none
    else if t.opensBlock then further (level + 1)
    else if t.closesBlock then
      match level with
      | 0 => some ([], 1)
      | level + 1 => further level
    else further level

theorem scannedList (stop : String) (s : Listing) (ts : List Token) :
    scanned (Listing.turn stop) s ts =
      (scanList stop s.closers s.arg ts).map fun found => (s.args ++ found.1, found.2) := by
  induction ts generalizing s with
  | nil => rfl
  | cons t ts ih =>
    have further (closers : List String) :
        (scanned (Listing.turn stop) { s with closers, arg := t :: s.arg } ts).map
            (fun found => (found.1, found.2 + 1)) =
          ((scanList stop closers (t :: s.arg) ts).map fun found => (found.1, found.2 + 1)).map
            fun found => (s.args ++ found.1, found.2) := by
      rw [ih, Option.map_map, Option.map_map]
      rfl
    rw [scanned, scanList, Listing.turn]
    dsimp only
    by_cases isEnd : t.kind = .eof
    · simp only [if_pos isEnd, Option.map_none]
    by_cases isOp : t.kind = .op
    · simp only [if_neg isEnd, if_pos isOp]
      by_cases stops : s.closers.isEmpty ∧ t.value = stop
      · simp only [if_pos stops]
        rfl
      by_cases comma : s.closers.isEmpty ∧ t.value = ","
      · simp only [if_neg stops, if_pos comma, ih, Option.map_map]
        refine congrFun (congrArg Option.map (funext fun found => ?_)) _
        simp [Listing.complete]
      simp only [if_neg stops, if_neg comma]
      cases closerOf? t.value with
      | some closer => exact further _
      | none =>
        by_cases closes : s.closers.head? = some t.value
        · simp only [if_pos closes]
          exact further _
        · simp only [if_neg closes]
          exact further _
    · simp only [if_neg isEnd, if_neg isOp]
      exact further _

theorem scannedBlock (s : Enclosing) (ts : List Token) :
    scanned Enclosing.turn s ts =
      (scanBlock s.level ts).map fun found => (s.body.reverse ++ found.1, found.2) := by
  induction ts generalizing s with
  | nil => rfl
  | cons t ts ih =>
    have further (level : Nat) :
        (scanned Enclosing.turn ⟨level, t :: s.body⟩ ts).map
            (fun found => (found.1, found.2 + 1)) =
          ((scanBlock level ts).map fun found => (t :: found.1, found.2 + 1)).map
            fun found => (s.body.reverse ++ found.1, found.2) := by
      rw [ih, Option.map_map, Option.map_map]
      refine congrFun (congrArg Option.map (funext fun found => ?_)) _
      simp
    obtain ⟨level, body⟩ := s
    rw [scanned, scanBlock.eq_def, Enclosing.turn]
    dsimp only
    by_cases isEnd : t.kind = .eof
    · simp only [if_pos isEnd, Option.map_none]
    by_cases isOpener : t.opensBlock = true
    · simp only [if_neg isEnd, if_pos isOpener]
      exact further _
    by_cases isCloser : t.closesBlock = true
    · simp only [if_neg isEnd, if_neg isOpener, if_pos isCloser]
      cases level with
      | zero => simp
      | succ level => exact further level
    · simp only [if_neg isEnd, if_neg isOpener, if_neg isCloser]
      exact further _

theorem listRuns (stop : String) (r : Reader) :
    (list stop).run.run r = (through stop (scanList stop [] [])).run.run r := by
  rw [list, scanRuns, throughRuns, throughRuns, scannedList]
  rcases scanList stop [] [] r.cursor.ahead with _ | ⟨args, n⟩ <;> rfl

theorem blockRuns (r : Reader) :
    block.run.run r = (through "end" (scanBlock 0)).run.run r := by
  rw [block, scanRuns, throughRuns, throughRuns, scannedBlock]
  rcases scanBlock 0 r.cursor.ahead with _ | ⟨body, n⟩ <;> rfl

end Reader

namespace Scan

theorem nextHead {s : Scan} {t : Token} {rest : List Token} (ahead : s.cursor.ahead = t :: rest) :
    nextToken.run.run s = (.ok (some t), { s with cursor := s.cursor.drop 1 }) := by
  rw [nextToken, runBind, runGet]
  dsimp only
  rw [Cursor.nextToken ahead]
  rfl

theorem nextEnd {s : Scan} (ahead : s.cursor.ahead = []) (failure : s.cursor.failure = none) :
    nextToken.run.run s = (.ok none, s) := by
  rw [nextToken, runBind, runGet]
  dsimp only
  rw [Cursor.nextNone ahead failure]
  rfl

end Scan

end LuaExpander
