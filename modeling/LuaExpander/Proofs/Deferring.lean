import LuaExpander.Proofs.Waiting
import Mathlib.Data.List.Forall2
import Mathlib.Data.List.Induction

/-! Handlers that wait for a depth, over any run of calls on blocks. A handler is answered by the
first call after its registration that vacates its depth, and by no other; until then it stays in
the table. Registrations are told apart by their places in the run, since one handler may be
registered many times. -/
namespace LuaExpander.Blocks

variable {η : Type}

inductive Operation (η : Type) where
  | enter
  | leave (t : Token)
  | finish (t : Token)
  | checkFinished (t : Token)
  | defer (handler : η) (depth : Option Int)
  | onKeyword (word : String) (handler : η)

def perform (op : Operation η) (b : Blocks η) : Except Failure (List η) × Blocks η :=
  match op with
  | .enter => (.ok [], b.enter)
  | .leave t =>
    match b.leave t with
    | .ok (handlers, b') => (.ok handlers, b')
    | .error e => (.error e, b)
  | .finish t =>
    match b.finish t with
    | .ok (handlers, b') => (.ok handlers, b')
    | .error e => (.error e, b)
  | .checkFinished t =>
    match b.checkFinished t with
    | .ok () => (.ok [], b)
    | .error e => (.error e, b)
  | .defer handler depth =>
    match b.defer handler depth with
    | .ok b' => (.ok [], b')
    | .error f => (.error f, b)
  | .onKeyword word handler => (.ok [], b.onKeyword word handler)

structure Event (η : Type) where
  op : Operation η
  depth : Nat
  answer : Except Failure (List η)

namespace Event

def answered (e : Event η) : List η :=
  match e.answer with
  | .ok handlers => handlers
  | .error _ => []

def registers : Event η → Option (Nat × η)
  | ⟨.defer handler depth, current, .ok _⟩ => some ((depth.getD current).toNat, handler)
  | _ => none

def vacates : Event η → Option Nat
  | ⟨.leave _, current, .ok _⟩ => some current
  | ⟨.finish _, _, .ok _⟩ => some 0
  | _ => none

end Event

def event (op : Operation η) (b : Blocks η) : Event η := ⟨op, b.depth, (b.perform op).1⟩

def performAll (b : Blocks η) (ops : List (Operation η)) : Blocks η :=
  ops.foldl (fun b op => (b.perform op).2) b

def history (b : Blocks η) : List (Operation η) → List (Event η)
  | [] => []
  | op :: ops => b.event op :: history (b.perform op).2 ops

theorem performAllSnoc (b : Blocks η) (ops : List (Operation η)) (op : Operation η) :
    b.performAll (ops ++ [op]) = ((b.performAll ops).perform op).2 := List.foldl_append.trans rfl

theorem historySnoc (b : Blocks η) (ops : List (Operation η)) (op : Operation η) :
    b.history (ops ++ [op]) = b.history ops ++ [(b.performAll ops).event op] := by
  induction ops generalizing b with
  | nil => rfl
  | cons first ops ih => exact congrArg (b.event first :: ·) (ih _)

inductive Recorded (b : Blocks η) (e : Event η) (b' : Blocks η) : Prop where
  | registered {d h} (registers : e.registers = some (d, h)) (stays : e.vacates = none)
      (none : e.answered = [])
      (waiting : ∀ d', b'.waiting d' = if d' = d then b.waiting d' ++ [h] else b.waiting d')
  | vacated {d} (still : e.registers = none) (vacates : e.vacates = some d)
      (answered : e.answered = (b.waiting d).reverse)
      (waiting : ∀ d', b'.waiting d' = if d' = d then [] else b.waiting d')
  | other (still : e.registers = none) (stays : e.vacates = none) (none : e.answered = [])
      (waiting : ∀ d', b'.waiting d' = b.waiting d')

theorem failedRecorded {op : Operation η} {b : Blocks η} {f : Failure}
    (failed : b.perform op = (.error f, b)) : Recorded b (b.event op) (b.perform op).2 := by
  rw [event, failed]
  exact .other (by cases op <;> rfl) (by cases op <;> rfl) rfl fun _ => rfl

theorem leaveRecorded (t : Token) (b : Blocks η) :
    Recorded b (b.event (.leave t)) (b.perform (.leave t)).2 := by
  cases left : b.leave t with
  | error e => exact failedRecorded (by rw [perform, left])
  | ok pair =>
    obtain ⟨handlers, b'⟩ := pair
    obtain ⟨-, rfl, -, waiting⟩ := leaveSucceeds left
    rw [event, perform, left]
    exact .vacated rfl rfl rfl waiting

theorem finishRecorded (t : Token) (b : Blocks η) :
    Recorded b (b.event (.finish t)) (b.perform (.finish t)).2 := by
  cases finished : b.finish t with
  | error e => exact failedRecorded (by rw [perform, finished])
  | ok pair =>
    obtain ⟨handlers, b'⟩ := pair
    obtain ⟨-, -, rfl, -, waiting⟩ := finishSucceeds finished
    rw [event, perform, finished]
    exact .vacated rfl rfl rfl waiting

theorem deferRecorded (handler : η) (depth : Option Int) (b : Blocks η) :
    Recorded b (b.event (.defer handler depth)) (b.perform (.defer handler depth)).2 := by
  cases deferred : b.defer handler depth with
  | error f => exact failedRecorded (by rw [perform, deferred])
  | ok b' =>
    obtain ⟨place, same, -, -, waiting⟩ := deferSucceeds deferred
    rw [event, perform, deferred]
    refine .registered ?_ rfl rfl waiting
    rw [Event.registers, same]
    rfl

theorem recorded (op : Operation η) (b : Blocks η) :
    Recorded b (b.event op) (b.perform op).2 := by
  cases op with
  | enter => exact .other rfl rfl rfl fun _ => rfl
  | leave t => exact leaveRecorded t b
  | finish t => exact finishRecorded t b
  | checkFinished t =>
    cases checked : b.checkFinished t with
    | error e => exact failedRecorded (by rw [perform, checked])
    | ok =>
      rw [event, perform, checked]
      exact .other rfl rfl rfl fun _ => rfl
  | defer handler depth => exact deferRecorded handler depth b
  | onKeyword word handler => exact .other rfl rfl rfl fun _ => rfl

/-! Registrations and the calls that answer them, by place -/

def Registered (events : List (Event η)) (i d : Nat) (h : η) : Prop :=
  events[i]?.bind Event.registers = some (d, h)

def Vacated (events : List (Event η)) (d j : Nat) : Prop :=
  events[j]?.bind Event.vacates = some d

def FirstVacated (events : List (Event η)) (d i j : Nat) : Prop :=
  i < j ∧ Vacated events d j ∧ ∀ k, i < k → k < j → ¬ Vacated events d k

/- The call at `j` is the one that answers the handler registered at `i`. -/
def Answers (events : List (Event η)) (j i : Nat) (h : η) : Prop :=
  ∃ d, Registered events i d h ∧ FirstVacated events d i j

def Pending (events : List (Event η)) (d i : Nat) (h : η) : Prop :=
  Registered events i d h ∧ ∀ j, ¬ FirstVacated events d i j

theorem placeSnoc {β : Type} {f : Event η → Option β} {events : List (Event η)} {e : Event η}
    {i : Nat} {x : β} :
    (events ++ [e])[i]?.bind f = some x ↔
      events[i]?.bind f = some x ∨ i = events.length ∧ f e = some x := by
  rcases Nat.lt_trichotomy i events.length with before | rfl | beyond
  · rw [List.getElem?_append_left before]
    simp [Nat.ne_of_lt before]
  · simp
  · rw [List.getElem?_eq_none (by simp; omega), List.getElem?_eq_none (Nat.le_of_lt beyond)]
    simp [Nat.ne_of_gt beyond]

theorem placeBound {β : Type} {f : Event η → Option β} {events : List (Event η)} {i : Nat} {x : β}
    (found : events[i]?.bind f = some x) : i < events.length := by
  obtain ⟨e, place, -⟩ := Option.bind_eq_some_iff.mp found
  exact (List.getElem?_eq_some_iff.mp place).1

theorem neverVacated {events : List (Event η)} {d i : Nat} :
    (∀ j, ¬ FirstVacated events d i j) ↔ ∀ j, i < j → ¬ Vacated events d j := by
  constructor
  · intro none j
    induction j using Nat.strongRecOn with
    | ind j earlier =>
      intro later vacated
      exact none j ⟨later, vacated, fun k after before => earlier k before after⟩
  · rintro never j ⟨later, vacated, -⟩
    exact never j later vacated

theorem pendingSnoc {events : List (Event η)} {e : Event η} {d i : Nat} {h : η} :
    Pending (events ++ [e]) d i h ↔ Pending events d i h ∧ e.vacates ≠ some d ∨
      i = events.length ∧ e.registers = some (d, h) := by
  unfold Pending
  rw [neverVacated, neverVacated, Registered, placeSnoc, ← Registered]
  constructor
  · rintro ⟨registered | last, never⟩
    · refine .inl ⟨⟨registered, fun j later vacated => never j later ?_⟩, fun vacates => ?_⟩
      · exact placeSnoc.mpr (.inl vacated)
      · exact never _ (placeBound registered) (placeSnoc.mpr (.inr ⟨rfl, vacates⟩))
    · exact .inr last
  · rintro (⟨⟨registered, never⟩, stays⟩ | ⟨rfl, registers⟩)
    · refine ⟨.inl registered, fun j later vacated => ?_⟩
      rcases placeSnoc.mp vacated with before | ⟨-, vacates⟩
      · exact never j later before
      · exact stays vacates
    · refine ⟨.inr ⟨rfl, registers⟩, fun j later vacated => ?_⟩
      have bound := placeBound vacated
      simp only [List.length_append, List.length_singleton] at bound
      omega

theorem firstVacatedSnoc {events : List (Event η)} {e : Event η} {d i j : Nat}
    (inside : j < events.length) :
    FirstVacated (events ++ [e]) d i j ↔ FirstVacated events d i j := by
  have same (k : Nat) (early : k ≤ j) : Vacated (events ++ [e]) d k ↔ Vacated events d k := by
    refine placeSnoc.trans (or_iff_left ?_)
    rintro ⟨rfl, -⟩
    omega
  unfold FirstVacated
  rw [same j (Nat.le_refl j)]
  refine and_congr_right fun _ => and_congr_right fun _ => forall_congr' fun k => ?_
  exact imp_congr_right fun _ => imp_congr_right fun before => not_congr (same k (Nat.le_of_lt before))

theorem answersSnoc {events : List (Event η)} {e : Event η} {j i : Nat} {h : η}
    (inside : j < events.length) : Answers (events ++ [e]) j i h ↔ Answers events j i h := by
  unfold Answers
  refine exists_congr fun d => ?_
  rw [firstVacatedSnoc inside]
  refine and_congr_left fun first => placeSnoc.trans (or_iff_left ?_)
  rintro ⟨rfl, -⟩
  have := first.1
  omega

theorem answersLast {events : List (Event η)} {e : Event η} {i : Nat} {h : η} :
    Answers (events ++ [e]) events.length i h ↔
      ∃ d, e.vacates = some d ∧ Pending events d i h := by
  unfold Answers Pending
  refine exists_congr fun d => ?_
  rw [neverVacated]
  constructor
  · rintro ⟨registered, later, vacated, none⟩
    rcases placeSnoc.mp vacated with inside | ⟨-, vacates⟩
    · exact absurd (placeBound inside) (Nat.lt_irrefl _)
    · rcases placeSnoc.mp registered with early | ⟨rfl, -⟩
      · refine ⟨vacates, early, fun k after vacatedBefore => ?_⟩
        exact none k after (placeBound vacatedBefore) (placeSnoc.mpr (.inl vacatedBefore))
      · exact absurd later (Nat.lt_irrefl _)
  · rintro ⟨vacates, registered, never⟩
    refine ⟨placeSnoc.mpr (.inl registered), placeBound registered,
      placeSnoc.mpr (.inr ⟨rfl, vacates⟩), fun k after before vacated => ?_⟩
    rcases placeSnoc.mp vacated with inside | ⟨rfl, -⟩
    · exact never k after inside
    · exact absurd before (Nat.lt_irrefl _)

/- The handlers of a list, one by one, are those that a relation gives to some places; it gives none
to other places. -/
def Lists (gives : Nat → η → Prop) (places : List Nat) (handlers : List η) : Prop :=
  List.Forall₂ gives places handlers ∧ ∀ i h, gives i h → i ∈ places

theorem listsNone {gives : Nat → η → Prop} (none : ∀ i h, ¬ gives i h) : Lists gives [] [] :=
  ⟨.nil, fun i h given => absurd given (none i h)⟩

theorem listsSame {gives gives' : Nat → η → Prop} {places : List Nat} {handlers : List η}
    (same : ∀ i h, gives i h ↔ gives' i h) (lists : Lists gives places handlers) :
    Lists gives' places handlers :=
  ⟨lists.1.imp fun i h => (same i h).mp, fun i h given => lists.2 i h ((same i h).mpr given)⟩

theorem listsReverse {gives : Nat → η → Prop} {places : List Nat} {handlers : List η}
    (lists : Lists gives places handlers) : Lists gives places.reverse handlers.reverse :=
  ⟨List.forall₂_reverse_iff.mpr lists.1, fun i h given => List.mem_reverse.mpr (lists.2 i h given)⟩

theorem listsSnoc {gives gives' : Nat → η → Prop} {places : List Nat} {handlers : List η} {n : Nat}
    {handler : η} (more : ∀ i h, gives' i h ↔ gives i h ∨ i = n ∧ handler = h)
    (lists : Lists gives places handlers) :
    Lists gives' (places ++ [n]) (handlers ++ [handler]) := by
  constructor
  · refine List.rel_append (lists.1.imp fun i h given => (more i h).mpr (.inl given)) ?_
    exact .cons ((more _ _).mpr (.inr ⟨rfl, rfl⟩)) .nil
  · intro i h given
    rcases (more i h).mp given with old | ⟨rfl, -⟩
    · exact List.mem_append_left _ (lists.2 i h old)
    · simp

theorem listsGiven {gives : Nat → η → Prop} {places : List Nat} {handlers : List η}
    (lists : Lists gives places handlers) : ∀ i ∈ places, ∃ h, gives i h := by
  obtain ⟨given, -⟩ := lists
  induction given with
  | nil => simp
  | cons here _ ih => exact List.forall_mem_cons.mpr ⟨⟨_, here⟩, ih⟩

theorem waitingListed (b : Blocks η) (ops : List (Operation η)) (d : Nat) :
    ∃ places, places.Pairwise (· < ·) ∧
      Lists (Pending (b.reset.history ops) d) places ((b.reset.performAll ops).waiting d) := by
  induction ops using List.reverseRecOn with
  | nil =>
    refine ⟨[], .nil, ?_⟩
    rw [performAll, List.foldl_nil, waitingReset]
    exact listsNone fun i h pending => nomatch pending.1
  | append_singleton ops op ih =>
    obtain ⟨places, ascending, lists⟩ := ih
    rw [historySnoc, performAllSnoc]
    have kept (stays : ((b.reset.performAll ops).event op).vacates ≠ some d)
        (still : ∀ h, ((b.reset.performAll ops).event op).registers ≠ some (d, h)) (i : Nat)
        (h : η) : Pending (b.reset.history ops) d i h ↔
          Pending (b.reset.history ops ++ [(b.reset.performAll ops).event op]) d i h := by
      simp [pendingSnoc, stays, still]
    cases recorded op (b.reset.performAll ops) with
    | @registered place handler registers stays none waiting =>
      rw [waiting]
      by_cases here : d = place
      · have last : ∀ i ∈ places, i < (b.reset.history ops).length := by
          intro i member
          obtain ⟨h, pending⟩ := listsGiven lists i member
          exact placeBound pending.1
        rw [if_pos here]
        refine ⟨places ++ [(b.reset.history ops).length], ?_, listsSnoc (fun i h => ?_) lists⟩
        · simpa [List.pairwise_append] using ⟨ascending, last⟩
        · simp [pendingSnoc, stays, registers, here]
      · rw [if_neg here]
        refine ⟨places, ascending, listsSame (kept (by simp [stays]) fun h => ?_) lists⟩
        simp [registers, Ne.symm here]
    | @vacated place still vacates answered waiting =>
      rw [waiting]
      by_cases here : d = place
      · rw [if_pos here]
        refine ⟨[], .nil, listsNone fun i h => ?_⟩
        simp [pendingSnoc, vacates, still, here]
      · rw [if_neg here]
        refine ⟨places, ascending, listsSame (kept ?_ (by simp [still])) lists⟩
        simp [vacates, Ne.symm here]
    | other still stays none waiting =>
      rw [waiting]
      exact ⟨places, ascending, listsSame (kept (by simp [stays]) (by simp [still])) lists⟩

theorem answeredListed (b : Blocks η) (ops : List (Operation η)) {j : Nat} {e : Event η}
    (place : (b.reset.history ops)[j]? = some e) :
    ∃ places, places.Pairwise (· > ·) ∧
      Lists (Answers (b.reset.history ops) j) places e.answered := by
  induction ops using List.reverseRecOn with
  | nil => contradiction
  | append_singleton ops op ih =>
    rw [historySnoc] at place ⊢
    rcases Nat.lt_or_ge j (b.reset.history ops).length with inside | last
    · rw [List.getElem?_append_left inside] at place
      obtain ⟨places, descending, lists⟩ := ih place
      exact ⟨places, descending, listsSame (fun i h => (answersSnoc inside).symm) lists⟩
    · have bound := (List.getElem?_eq_some_iff.mp place).1
      have here : j = (b.reset.history ops).length := by
        simp only [List.length_append, List.length_singleton] at bound
        omega
      subst here
      rw [List.getElem?_concat_length] at place
      cases place
      cases recorded op (b.reset.performAll ops) with
      | registered registers stays none waiting =>
        rw [none]
        exact ⟨[], .nil, listsNone fun i h => by simp [answersLast, stays]⟩
      | @vacated d still vacates answered waiting =>
        obtain ⟨places, ascending, lists⟩ := waitingListed b ops d
        rw [answered]
        refine ⟨places.reverse, List.pairwise_reverse.mpr ascending, ?_⟩
        exact listsSame (fun i h => by simp [answersLast, vacates]) (listsReverse lists)
      | other still stays none waiting =>
        rw [none]
        exact ⟨[], .nil, listsNone fun i h => by simp [answersLast, stays]⟩

theorem listsEmpty {gives : Nat → η → Prop} {places : List Nat} {handlers : List η}
    (lists : Lists gives places handlers) : handlers = [] ↔ ∀ i h, ¬ gives i h := by
  constructor
  · rintro rfl i h given
    have member := lists.2 i h given
    rw [List.forall₂_nil_right_iff.mp lists.1] at member
    contradiction
  · intro none
    cases places with
    | nil => exact List.forall₂_nil_left_iff.mp lists.1
    | cons i places =>
      obtain ⟨h, given⟩ := listsGiven lists i List.mem_cons_self
      exact absurd given (none i h)

def Refuses (b : Blocks η) : Operation η → Prop
  | .leave _ => b.depth = 0
  | .finish _ | .checkFinished _ => b.depth ≠ 0
  | .defer _ depth => ∃ d < 0, depth = some d
  | .enter | .onKeyword _ _ => False

theorem refusedFails {b : Blocks η} {op : Operation η} (refuses : b.Refuses op) :
    ∃ f, b.perform op = (.error f, b) := by
  cases op with
  | enter => contradiction
  | onKeyword word handler => contradiction
  | leave t =>
    have outside : b.depth = 0 := refuses
    rw [perform, leave, outside]
    exact ⟨_, rfl⟩
  | finish t =>
    have inside : b.depth ≠ 0 := refuses
    rw [perform, finish, if_neg inside]
    exact ⟨_, rfl⟩
  | checkFinished t =>
    have inside : b.depth ≠ 0 := refuses
    rw [perform, checkFinished, if_neg inside]
    exact ⟨_, rfl⟩
  | defer handler depth =>
    obtain ⟨d, negative, rfl⟩ := refuses
    rw [perform, defer, Option.getD_some, if_pos negative]
    exact ⟨_, rfl⟩

theorem checkFinishedFails {b : Blocks η} (t : Token) (outside : b.depth = 0) :
    (∃ e, e.kind = .unterminatedScope ∧ b.perform (.checkFinished t) = (.error (.error e), b)) ↔
      ∃ d, b.waiting d ≠ [] := by
  have finished := checkFinishedOk t b
  rw [and_iff_right outside] at finished
  cases checked : b.checkFinished t with
  | ok =>
    have idle := finished.mp checked
    simp [perform, checked, idle]
  | error e =>
    have some : ∃ d, b.waiting d ≠ [] := by
      simpa [checked] using finished
    have kind : e.kind = .unterminatedScope := by
      rw [checkFinished, if_pos outside] at checked
      dsimp only at checked
      split at checked
      · contradiction
      · cases checked
        rfl
    refine ⟨fun _ => some, fun _ => ⟨e, kind, ?_⟩⟩
    rw [perform, checked]

theorem deferredAnsweredOnce (b : Blocks η) (ops : List (Operation η)) :
    let events := b.reset.history ops
    let last := b.reset.performAll ops
    (∀ j e, events[j]? = some e →
      ∃ places, places.Pairwise (· > ·) ∧ Lists (Answers events j) places e.answered) ∧
    (∀ d, ∃ places, places.Pairwise (· < ·) ∧
      Lists (Pending events d) places (last.waiting d)) ∧
    (∀ op, last.Refuses op → ∃ f, last.perform op = (.error f, last)) ∧
    ∀ t, last.depth = 0 →
      ((∃ e, e.kind = .unterminatedScope ∧
          last.perform (.checkFinished t) = (.error (.error e), last)) ↔
        ∃ d i h, Pending events d i h) := by
  intro events last
  refine ⟨fun j e place => answeredListed b ops place, waitingListed b ops,
    fun op => refusedFails, fun t outside => ?_⟩
  rw [checkFinishedFails t outside]
  refine exists_congr fun d => ?_
  obtain ⟨places, -, lists⟩ := waitingListed b ops d
  rw [ne_eq, listsEmpty lists]
  simp [events]

example : (({} : Blocks Nat).history [.defer 1 none, .enter, .defer 2 (some 0), .defer 3 none,
    .defer 4 (some (-1)), .leave (.endOfInput none), .finish (.endOfInput none)]).map
      Event.answered = [[], [], [], [], [], [3], [2, 1]] := by decide +kernel

end LuaExpander.Blocks
