import LuaExpander.Proofs.Drawing
import LuaExpander.Stack

/-! A cursor seen from outside. Tokens that were looked at or put back wait on a stack, the next one
on top, and below them is a source that gives its tokens one by one. However tokens are taken,
looked at and put back, nothing of this shows: the answers are those of one list of tokens, which
may fail once at its end. The same is true of a text that is lexed as far as its tokens are
wanted. -/
namespace LuaExpander

/- A way to take tokens in, with states of type `σ`. -/
structure Intake (σ : Type) where
  next : σ → Except Error (Option Token) × σ
  peek : σ → Except Error (Option Token) × σ
  putBack : Token → σ → σ
  prepend : List Token → σ → σ
  rest : σ → Except Error (List Token) × σ

namespace Intake

inductive Request where
  | next
  | peek
  | isMore
  | putBack (t : Token)
  | prepend (ts : List Token)
  | rest

inductive Answer where
  | token (t : Option Token)
  | more (isMore : Bool)
  | done
  | tokens (ts : List Token)

variable {σ τ α : Type}

def answer (f : α → Answer) (x : Except Error α × σ) : Except Error Answer × σ := (x.1.map f, x.2)

def serve (i : Intake σ) (s : σ) : Request → Except Error Answer × σ
  | .next => answer .token (i.next s)
  | .peek => answer .token (i.peek s)
  | .isMore => answer (fun t => .more t.isSome) (i.peek s)
  | .putBack t => (.ok .done, i.putBack t s)
  | .prepend ts => (.ok .done, i.prepend ts s)
  | .rest => answer .tokens (i.rest s)

def answers (i : Intake σ) (s : σ) : List Request → List (Except Error Answer)
  | [] => []
  | q :: qs => (i.serve s q).1 :: i.answers (i.serve s q).2 qs

def after (i : Intake σ) (s : σ) (qs : List Request) : σ := qs.foldl (fun s q => (i.serve s q).2) s

/- The same answer, and states that are related. -/
def Agree (related : σ → τ → Prop) (x : Except Error α × σ) (y : Except Error α × τ) : Prop :=
  x.1 = y.1 ∧ related x.2 y.2

structure Follows (i : Intake σ) (j : Intake τ) (related : σ → τ → Prop) : Prop where
  next {s t} : related s t → Agree related (i.next s) (j.next t)
  peek {s t} : related s t → Agree related (i.peek s) (j.peek t)
  putBack {s t} (u : Token) : related s t → related (i.putBack u s) (j.putBack u t)
  prepend {s t} (us : List Token) : related s t → related (i.prepend us s) (j.prepend us t)
  rest {s t} : related s t → Agree related (i.rest s) (j.rest t)

variable {i : Intake σ} {j : Intake τ} {related : σ → τ → Prop} {s : σ} {t : τ}

theorem agreeAnswer (f : α → Answer) {x : Except Error α × σ} {y : Except Error α × τ}
    (agree : Agree related x y) : Agree related (answer f x) (answer f y) :=
  ⟨congrArg (Except.map f) agree.1, agree.2⟩

theorem agreeImage {image : τ → σ} {x : Except Error α × σ} {y : Except Error α × τ}
    (same : x = (y.1, image y.2)) : Agree (fun s t => s = image t) x y := by
  subst same
  exact ⟨rfl, rfl⟩

theorem serveFollows (follows : i.Follows j related) (q : Request) (alike : related s t) :
    Agree related (i.serve s q) (j.serve t q) := by
  cases q with
  | next => exact agreeAnswer _ (follows.next alike)
  | peek => exact agreeAnswer _ (follows.peek alike)
  | isMore => exact agreeAnswer _ (follows.peek alike)
  | putBack u => exact ⟨rfl, follows.putBack u alike⟩
  | prepend us => exact ⟨rfl, follows.prepend us alike⟩
  | rest => exact agreeAnswer _ (follows.rest alike)

theorem answersFollow (follows : i.Follows j related) (alike : related s t) (qs : List Request) :
    i.answers s qs = j.answers t qs ∧ related (i.after s qs) (j.after t qs) := by
  induction qs generalizing s t with
  | nil => exact ⟨rfl, alike⟩
  | cons q qs ih =>
    obtain ⟨same, later⟩ := serveFollows follows q alike
    obtain ⟨others, last⟩ := ih later
    exact ⟨by rw [answers, answers, same, others], last⟩

end Intake

/- Tokens that were put back, those that the source has left, and the error at its end. -/
structure Feed where
  front : List Token
  remaining : List Token
  failure : Option Error

namespace Feed

/- A token is wanted beyond those that there are. -/
def ended (f : Feed) : Except Error (Option Token) × Feed :=
  match f.failure with
  | some e => (.error e, { f with failure := none })
  | none => (.ok none, f)

def next (f : Feed) : Except Error (Option Token) × Feed :=
  match f.front, f.remaining with
  | t :: front, _ => (.ok (some t), { f with front })
  | [], t :: remaining => (.ok (some t), { f with remaining })
  | [], [] => f.ended

def peek (f : Feed) : Except Error (Option Token) × Feed :=
  match f.front ++ f.remaining with
  | t :: _ => (.ok (some t), f)
  | [] => f.ended

def prepend (ts : List Token) (f : Feed) : Feed := { f with front := ts ++ f.front }

def rest (f : Feed) : Except Error (List Token) × Feed :=
  match f.failure with
  | some e => (.error e, ⟨[], [], none⟩)
  | none => (.ok (f.front ++ f.remaining), ⟨[], [], none⟩)

def intake : Intake Feed where
  next := next
  peek := peek
  putBack t := prepend [t]
  prepend := prepend
  rest := rest

/- What fails leaves nothing, and no error either. -/
def Settled {α : Type} (f : Feed) (x : Except Error α × Feed) : Prop :=
  (∃ a, x.1 = .ok a) ∧ x.2.failure = f.failure ∨
    ∃ e, f.failure = some e ∧ x = (.error e, ⟨[], [], none⟩)

theorem endedSettled (failure : Option Error) :
    Settled ⟨[], [], failure⟩ (ended ⟨[], [], failure⟩) := by
  cases failure with
  | none => exact .inl ⟨⟨_, rfl⟩, rfl⟩
  | some e => exact .inr ⟨e, rfl, rfl⟩

theorem nextSettled (f : Feed) : Settled f f.next := by
  obtain ⟨_ | ⟨t, front⟩, _ | ⟨u, remaining⟩, failure⟩ := f
  · exact endedSettled failure
  all_goals exact .inl ⟨⟨_, rfl⟩, rfl⟩

theorem peekSettled (f : Feed) : Settled f f.peek := by
  obtain ⟨_ | ⟨t, front⟩, _ | ⟨u, remaining⟩, failure⟩ := f
  · exact endedSettled failure
  all_goals exact .inl ⟨⟨_, rfl⟩, rfl⟩

theorem restSettled (f : Feed) : Settled f f.rest := by
  obtain ⟨front, remaining, _ | e⟩ := f
  · exact .inl ⟨⟨_, rfl⟩, rfl⟩
  · exact .inr ⟨e, rfl, rfl⟩

theorem settledAnswer {α : Type} (g : α → Intake.Answer) {f : Feed} {x : Except Error α × Feed}
    (settled : Settled f x) : Settled f (Intake.answer g x) := by
  rcases settled with ⟨⟨a, answered⟩, same⟩ | ⟨e, failure, rfl⟩
  · exact .inl ⟨⟨g a, congrArg (Except.map g) answered⟩, same⟩
  · exact .inr ⟨e, failure, rfl⟩

theorem serveSettled (f : Feed) (q : Intake.Request) : Settled f (intake.serve f q) := by
  cases q with
  | next => exact settledAnswer _ (nextSettled f)
  | peek => exact settledAnswer _ (peekSettled f)
  | isMore => exact settledAnswer _ (peekSettled f)
  | putBack t => exact .inl ⟨⟨_, rfl⟩, rfl⟩
  | prepend ts => exact .inl ⟨⟨_, rfl⟩, rfl⟩
  | rest => exact settledAnswer _ (restSettled f)

theorem completeAnswers {f : Feed} (complete : f.failure = none) (qs : List Intake.Request) :
    ∀ a ∈ intake.answers f qs, ∃ answer, a = .ok answer := by
  induction qs generalizing f with
  | nil => simp [Intake.answers]
  | cons q qs ih =>
    rcases serveSettled f q with ⟨answered, same⟩ | ⟨e, failure, -⟩
    · exact List.forall_mem_cons.mpr ⟨answered, ih (same.trans complete)⟩
    · rw [complete] at failure
      cases failure

theorem failsOnce {f : Feed} {qs : List Intake.Request} {e : Error}
    {before after : List (Except Error Intake.Answer)}
    (answers : intake.answers f qs = before ++ .error e :: after) :
    f.failure = some e ∧ (∀ a ∈ before ++ after, ∃ answer, a = .ok answer) ∧
      after = intake.answers ⟨[], [], none⟩ (qs.drop (before.length + 1)) := by
  induction qs generalizing f before with
  | nil => simp [Intake.answers] at answers
  | cons q qs ih =>
    cases before with
    | nil =>
      obtain ⟨failed, later⟩ := List.cons_eq_cons.mp answers
      rcases serveSettled f q with ⟨⟨a, answered⟩, -⟩ | ⟨e', failure, served⟩
      · cases answered.symm.trans failed
      · rw [served] at failed later
        cases failed
        subst later
        exact ⟨failure, completeAnswers rfl qs, rfl⟩
    | cons a before =>
      obtain ⟨rfl, later⟩ := List.cons_eq_cons.mp answers
      obtain ⟨failure, others, rest⟩ := ih later
      rcases serveSettled f q with ⟨answered, same⟩ | ⟨e', -, served⟩
      · exact ⟨same.symm.trans failure, List.forall_mem_cons.mpr ⟨answered, others⟩, rest⟩
      · rw [served] at failure
        cases failure

end Feed

namespace Cursor

def intake : Intake Cursor where
  next := next
  peek := peek
  putBack := putBack
  prepend := prepend
  rest := rest

/- How many of the tokens have been drawn makes no difference. -/
def Lists (c : Cursor) (f : Feed) : Prop :=
  c.ahead = f.front ++ f.remaining ∧ c.failure = f.failure

theorem listsPrepend (ts : List Token) {c : Cursor} {f : Feed} (lists : c.Lists f) :
    (c.prepend ts).Lists (f.prepend ts) := by
  refine ⟨?_, lists.2⟩
  rw [aheadPrepend, lists.1, Feed.prepend, List.append_assoc]

theorem nextLists {c : Cursor} {f : Feed} (lists : c.Lists f) :
    Intake.Agree Lists c.next f.next := by
  obtain ⟨front, remaining, failure⟩ := f
  obtain ⟨ahead, fails⟩ := lists
  have outcome := c.given
  generalize c.next = result at outcome
  cases outcome with
  | token here still =>
    rw [here] at ahead
    cases front with
    | cons u front =>
      obtain ⟨rfl, rest⟩ := List.cons.inj ahead
      exact ⟨rfl, rest, still.trans fails⟩
    | nil =>
      cases remaining with
      | cons u remaining =>
        obtain ⟨rfl, rest⟩ := List.cons.inj ahead
        exact ⟨rfl, rest, still.trans fails⟩
      | nil => cases ahead
  | none here complete =>
    rw [here] at ahead
    rw [complete] at fails
    obtain ⟨rfl, rfl⟩ := List.append_eq_nil_iff.mp ahead.symm
    cases fails
    exact ⟨rfl, here, complete⟩
  | error here failed none spent =>
    rw [here] at ahead
    rw [failed] at fails
    obtain ⟨rfl, rfl⟩ := List.append_eq_nil_iff.mp ahead.symm
    cases fails
    exact ⟨rfl, none, spent⟩

theorem peekLists {c : Cursor} {f : Feed} (lists : c.Lists f) :
    Intake.Agree Lists c.peek f.peek := by
  cases here : f.front ++ f.remaining with
  | cons t rest =>
    have ahead := lists.1.trans here
    rw [peekToken ahead, Feed.peek, here]
    refine ⟨rfl, ?_, (failureDrop _ _).trans lists.2⟩
    rw [putBack, aheadPrepend, aheadDrop, ahead, here]
    rfl
  | nil =>
    have ahead := lists.1.trans here
    rw [Feed.peek, here, Feed.ended, ← lists.2]
    cases failure : c.failure with
    | none =>
      rw [peekNone ahead failure]
      exact ⟨rfl, lists⟩
    | some e =>
      obtain ⟨c', failed, none, spent⟩ := peekError ahead failure
      rw [failed]
      exact ⟨rfl, none.trans here.symm, spent⟩

theorem spentViews (c : Cursor) : (c.drop c.ahead.length).next.2.ahead = [] ∧
    (c.drop c.ahead.length).next.2.failure = none := by
  have ahead : (c.drop c.ahead.length).ahead = [] := by rw [aheadDrop, List.drop_length]
  cases failure : c.failure with
  | none =>
    have complete := (failureDrop c.ahead.length c).trans failure
    rw [nextNone ahead complete]
    exact ⟨ahead, complete⟩
  | some e =>
    obtain ⟨c', failed, spent⟩ := nextError ahead ((failureDrop c.ahead.length c).trans failure)
    rw [failed]
    exact spent

theorem restLists {c : Cursor} {f : Feed} (lists : c.Lists f) :
    Intake.Agree Lists c.rest f.rest := by
  rw [restAhead, Feed.rest, lists.1, lists.2, ← lists.1]
  cases f.failure <;> exact ⟨rfl, c.spentViews⟩

theorem intakeLists : intake.Follows Feed.intake Lists where
  next := nextLists
  peek := peekLists
  putBack u lists := listsPrepend [u] lists
  prepend us lists := listsPrepend us lists
  rest := restLists

theorem restAfter {c c' : Cursor} {t : Token} (taken : c.next = (.ok (some t), c')) :
    c.rest = (c'.rest.1.map (t :: ·), c'.rest.2) := by
  obtain ⟨ahead, same, -⟩ := aheadGiven taken
  rw [restAhead, restAhead, same, ahead, List.length_cons, dropOne taken]
  cases c.failure <;> rfl

end Cursor

/-! A stack over a source -/

/- A source ends or fails when its tokens are used up, and is at its end after that. -/
structure Supply where
  tokens : List Token
  failure : Option Error

def Supply.pull (s : Supply) : Except Error (Option Token) × Supply :=
  match s.tokens, s.failure with
  | t :: tokens, _ => (.ok (some t), { s with tokens })
  | [], some e => (.error e, { s with failure := none })
  | [], none => (.ok none, s)

/- A source that has ended is let go. -/
structure Pushback where
  pending : Stack Token
  source : Option Supply

namespace Pushback

def next (p : Pushback) : Except Error (Option Token) × Pushback :=
  match p.pending.top?, p.source with
  | some t, _ => (.ok (some t), { p with pending := p.pending.pop })
  | none, none => (.ok none, p)
  | none, some source =>
    match source.pull with
    | (.ok none, _) => (.ok none, { p with source := none })
    | (answer, source) => (answer, { p with source := some source })

/- The next token is taken from the source and put on the stack, unless there is one already. -/
def peek (p : Pushback) : Except Error (Option Token) × Pushback :=
  match p.pending.top? with
  | some t => (.ok (some t), p)
  | none =>
    match p.next with
    | (.ok (some t), p) => (.ok (some t), { p with pending := p.pending.push t })
    | other => other

def putBack (t : Token) (p : Pushback) : Pushback := { p with pending := p.pending.push t }

/- The last of the tokens is put on the stack first. -/
def prepend (ts : List Token) (p : Pushback) : Pushback := ts.foldr putBack p

def remaining (p : Pushback) : List Token := (p.source.map (·.tokens)).getD []

def failure (p : Pushback) : Option Error := p.source.bind (·.failure)

/- The cursor over the same tokens. -/
def cursor (p : Pushback) : Cursor where
  pending := p.pending.items
  unread := .tokens p.remaining p.failure

theorem nextCursor (p : Pushback) : p.cursor.next = (p.next.1, p.next.2.cursor) := by
  obtain ⟨⟨_ | ⟨t, pending⟩⟩, _ | ⟨_ | ⟨u, tokens⟩, _ | e⟩⟩ := p <;> rfl

theorem peekCursor (p : Pushback) : p.cursor.peek = (p.peek.1, p.peek.2.cursor) := by
  obtain ⟨⟨_ | ⟨t, pending⟩⟩, _ | ⟨_ | ⟨u, tokens⟩, _ | e⟩⟩ := p <;> rfl

theorem putBackCursor (t : Token) (p : Pushback) :
    p.cursor.putBack t = (p.putBack t).cursor := rfl

theorem prependCursor (ts : List Token) (p : Pushback) :
    p.cursor.prepend ts = (p.prepend ts).cursor := by
  induction ts with
  | nil => rfl
  | cons t ts ih =>
    have last : p.cursor.prepend (t :: ts) = (p.cursor.prepend ts).putBack t := rfl
    rw [last, ih, putBackCursor]
    rfl

/- Each token that is taken leaves one less. -/
theorem nextShrinks {p p' : Pushback} {t : Token} (taken : p.next = (.ok (some t), p')) :
    p'.cursor.ahead.length < p.cursor.ahead.length := by
  have given := nextCursor p
  rw [taken] at given
  rw [(Cursor.aheadGiven given).1]
  exact Nat.lt_succ_self _

def rest (p : Pushback) : Except Error (List Token) × Pushback :=
  match _taken : p.next with
  | (.ok (some t), p) => ((rest p).1.map (t :: ·), (rest p).2)
  | (.ok none, p) => (.ok [], p)
  | (.error e, p) => (.error e, p)
termination_by p.cursor.ahead.length
decreasing_by all_goals exact nextShrinks _taken

/- Nothing is on the stack when no token is given. -/
theorem restEnded {p p' : Pushback} {answer : Except Error (Option Token)}
    (asked : p.next = (answer, p')) (noToken : ∀ t, answer ≠ .ok (some t)) :
    p.cursor.rest = (answer.map fun _ => [], p'.cursor) := by
  obtain ⟨⟨_ | ⟨t, pending⟩⟩, source⟩ := p
  · obtain _ | ⟨_ | ⟨u, tokens⟩, failure⟩ := source
    · cases asked
      rfl
    · cases failure <;> cases asked <;> rfl
    · cases asked
      exact absurd rfl (noToken u)
  · cases asked
    exact absurd rfl (noToken t)

theorem restCursor (p : Pushback) : p.cursor.rest = (p.rest.1, p.rest.2.cursor) := by
  fun_induction rest p with
  | case1 p t p' taken ih =>
    have given := nextCursor p
    rw [taken] at given
    rw [Cursor.restAfter given, ih]
  | case2 p p' ended => exact restEnded ended (by simp)
  | case3 p e p' failed => exact restEnded failed (by simp)

def intake : Intake Pushback where
  next := next
  peek := peek
  putBack := putBack
  prepend := prepend
  rest := rest

theorem intakeCursor : Cursor.intake.Follows intake fun c p => c = p.cursor where
  next := by
    rintro _ p rfl
    exact Intake.agreeImage (nextCursor p)
  peek := by
    rintro _ p rfl
    exact Intake.agreeImage (peekCursor p)
  putBack t := by
    rintro rfl
    exact putBackCursor t _
  prepend ts := by
    rintro rfl
    exact prependCursor ts _
  rest := by
    rintro _ p rfl
    exact Intake.agreeImage (restCursor p)

end Pushback

theorem Cursor.answersAsList (ts : List Token) (failure : Option Error)
    (qs : List Intake.Request) :
    Cursor.intake.answers ⟨[], .tokens ts failure⟩ qs =
      Feed.intake.answers ⟨[], ts, failure⟩ qs ∧
    (∀ text : String, Cursor.intake.answers (.ofText text) qs =
      Feed.intake.answers ⟨[], (Lexer.lex text).stream, (Lexer.lex text).failure⟩ qs) ∧
    (Pushback.intake.answers ⟨.empty, some ⟨ts, failure⟩⟩ qs =
        Feed.intake.answers ⟨[], ts, failure⟩ qs ∧
      Cursor.intake.after ⟨[], .tokens ts failure⟩ qs =
        (Pushback.intake.after ⟨.empty, some ⟨ts, failure⟩⟩ qs).cursor) ∧
    ∀ before e after,
      Cursor.intake.answers ⟨[], .tokens ts failure⟩ qs = before ++ .error e :: after →
        failure = some e ∧ (∀ a ∈ before ++ after, ∃ answer, a = .ok answer) ∧
          after = Cursor.intake.answers .empty (qs.drop (before.length + 1)) := by
  have lists : Cursor.Lists ⟨[], .tokens ts failure⟩ ⟨[], ts, failure⟩ := ⟨rfl, rfl⟩
  have image : (⟨[], .tokens ts failure⟩ : Cursor) =
      Pushback.cursor ⟨.empty, some ⟨ts, failure⟩⟩ := rfl
  obtain ⟨asList, -⟩ := Intake.answersFollow Cursor.intakeLists lists qs
  obtain ⟨asStack, last⟩ := Intake.answersFollow Pushback.intakeCursor image qs
  refine ⟨asList, fun text => ?_, ⟨asStack.symm.trans asList, last⟩, fun before e after answers => ?_⟩
  · have lexed : Cursor.Lists (.ofText text)
        ⟨[], (Lexer.lex text).stream, (Lexer.lex text).failure⟩ := ⟨rfl, rfl⟩
    exact (Intake.answersFollow Cursor.intakeLists lexed qs).1
  · obtain ⟨fails, others, rest⟩ := Feed.failsOnce (asList.symm.trans answers)
    refine ⟨fails, others, rest.trans ?_⟩
    exact (Intake.answersFollow Cursor.intakeLists ⟨rfl, rfl⟩ _).1.symm

end LuaExpander
