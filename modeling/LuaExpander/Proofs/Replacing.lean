import LuaExpander.Proofs.Arguments
import LuaExpander.Proofs.Calls
import LuaExpander.Proofs.Enough
import LuaExpander.Proofs.Likeness
import LuaExpander.Proofs.Rescanning

/-! What a scan makes of tokens when every definition that they invoke is a text or answers its
argument. That can be said without the scan, token by token; a unit that returns and the scan of an
argument both follow it. Places make no difference, and the numbers of tokens only tell which of
them were there when a call began. -/
namespace LuaExpander

open Tokens

/- A definition with one parameter whose transformer answers its argument. -/
structure Definition.ReturnsArgument (d : Definition) (t : Transformer) : Prop where
  function : ∃ param, d.params = some [param]
  body : d.body = .callable t
  returns : ∀ arg, t.run (.applied [arg]) = .done (.tokens arg) .empty

/- What becomes of tokens, with the next number before and after that. All definitions except `own`
are texts, and `own` is invoked only where there are `calls`. -/
inductive Registry.Expands (r : Registry) (own : Definition) (calls : Bool) :
    Nat → List Token → Nat → List Token → Prop where
  | done {fresh} : Expands r own calls fresh [] fresh []
  | still {fresh t rest fresh' out} (solid : t.kind ≠ .eof) (uninvoked : r.invoked? t = none)
      (later : Expands r own calls fresh rest fresh' out) :
      Expands r own calls fresh (t :: rest) fresh' (t :: out)
  | replaced {fresh t ahead d value args rest fresh' out} (invoked : r.invoked? t = some d)
      (other : t.value ≠ own.name) (body : d.body = .text value)
      (new : ∀ u ∈ value, u.serial = none) (called : d.Called ahead args rest)
      (later : Expands r own calls (fresh + min args.length 1)
        (Scan.textReplacement d t (numberEach fresh 0 args) #[] value ++ rest) fresh' out) :
      Expands r own calls fresh (t :: ahead) fresh' out
  | answered {fresh t ahead front arg rest between more fresh' out} (allowed : calls = true)
      (invoked : r.invoked? t = some own) (called : own.Called (numberAt fresh 0 ahead) [arg] rest)
      (read : numberAt fresh 0 ahead = front ++ rest)
      (inner : Expands r own calls (fresh + 1) arg between more)
      (later : Expands r own calls between
        (more.map (Scan.settle front.toArray own.name t.line) ++ rest) fresh' out) :
      Expands r own calls fresh (t :: ahead) fresh' out

def Token.Avoids (name : String) (t : Token) : Prop :=
  t.kind ≠ .eof ∧ ¬ (t.kind = .iden ∧ t.value = name)

instance (name : String) (t : Token) : Decidable (t.Avoids name) :=
  inferInstanceAs (Decidable (_ ∧ _))

/- The definitions of all other names are texts of new tokens, which do not mention the name. -/
structure Registry.StaticAround (name : String) (r : Registry) : Prop where
  ops : r.ops.isEmpty = true
  texts : ∀ word d, r.active? word = some d → word ≠ name →
    ∃ value, d.body = .text value ∧ ∀ t ∈ value, t.serial = none ∧ t.Avoids name

namespace Token

/- The token has no number from `n` on, or none before it. -/
def Known (n : Nat) (t : Token) : Prop := ∀ serial ∈ t.serial, serial.1 < n

def Newer (n : Nat) (t : Token) : Prop := ∀ serial ∈ t.serial, n ≤ serial.1

def isOlder (t : Token) (n : Nat) : Bool := t.serial.any (·.1 < n)

/- The token itself, or with a number from `n` on if it had none. -/
def Copied (n : Nat) (t u : Token) : Prop :=
  u = t ∨ ∃ numbering place, n ≤ numbering ∧ u = t.numbered numbering place

variable {n m : Nat} {t u v : Token}

theorem newerMarked (n : Nat) (t : Token) (name : String) (line : Line) :
    (t.markedBy name line).Newer n := by
  simp [Newer, markedBy]

theorem newerNumbered (newer : t.Newer n) {numbering : Nat} (later : n ≤ numbering)
    (place : Nat) : (t.numbered numbering place).Newer n := by
  cases given : t.serial with
  | none => simpa [Newer, numberedNew given] using later
  | some own => rwa [numberedOf (by simp [given])]

theorem knownMono (known : t.Known n) (later : n ≤ m) : t.Known m := fun serial given =>
  Nat.lt_of_lt_of_le (known serial given) later

theorem knownMarked (n : Nat) (t : Token) (name : String) (line : Line) :
    (t.markedBy name line).Known n := by
  simp [Known, markedBy]

theorem knownNumbered (known : t.Known n) (place : Nat) :
    (t.numbered n place).Known (n + 1) := by
  cases given : t.serial with
  | none => simp [Known, numberedNew given]
  | some own =>
    rw [numberedOf (by simp [given])]
    exact knownMono known (Nat.le_succ n)

theorem olderKnown (given : t.serial ≠ none) (known : t.Known n) : t.isOlder n = true := by
  obtain ⟨serial, given⟩ := Option.ne_none_iff_exists'.mp given
  simpa [isOlder, given] using known serial given

theorem newerNotOlder (newer : t.Newer n) : t.isOlder n = false := by
  cases given : t.serial with
  | none => simp [isOlder, given]
  | some serial => simpa [isOlder, given] using newer serial given

theorem copiedTrans (first : t.Copied n u) (second : u.Copied m v) (later : n ≤ m) :
    t.Copied n v := by
  rcases second with rfl | ⟨numbering, place, enough, rfl⟩
  · exact first
  · rcases first with rfl | ⟨own, at', early, rfl⟩
    · exact .inr ⟨numbering, place, Nat.le_trans later enough, rfl⟩
    · exact .inr ⟨own, at', early, numberedAgain own at' numbering place t⟩

theorem copiedGiven (given : t.serial ≠ none) (copied : t.Copied n u) : u = t := by
  rcases copied with rfl | ⟨numbering, place, -, rfl⟩
  · rfl
  · exact numberedOf given numbering place

theorem copiedSame (copied : t.Copied n u) : ∃ serial, u = { t with serial } := by
  rcases copied with rfl | ⟨numbering, place, -, rfl⟩
  · exact ⟨u.serial, rfl⟩
  · exact numberedSame numbering place t

end Token

/- A token is one of `ts`, or a replacement has brought it since the next number was `n`. -/
def Token.Brought (n : Nat) (name : String) (ts : List Token) (u : Token) : Prop :=
  (∃ t ∈ ts, t.Copied n u) ∨ (u.Newer n ∧ u.mark ≠ none ∧ u.Avoids name)

namespace Registry

variable {r : Registry} {own : Definition} {calls : Bool} {n n' : Nat} {ts out : List Token}

theorem broughtTrans {name : String} {us : List Token} {m : Nat} {v : Token}
    (first : ∀ u ∈ us, u.Brought n name ts) (later : n ≤ m) (second : v.Brought m name us) :
    v.Brought n name ts := by
  rcases second with ⟨u, member, copied⟩ | ⟨newer, others⟩
  · rcases first u member with ⟨t, inside, whole⟩ | ⟨newer, marked, avoids⟩
    · exact .inl ⟨t, inside, Token.copiedTrans whole copied later⟩
    · refine .inr ?_
      rcases copied with rfl | ⟨numbering, place, enough, rfl⟩
      · exact ⟨newer, marked, avoids⟩
      · obtain ⟨serial, same⟩ := Token.numberedSame numbering place u
        refine ⟨Token.newerNumbered newer (Nat.le_trans later enough) place, ?_⟩
        rw [same]
        exact ⟨marked, avoids⟩
  · exact .inr ⟨fun serial given => Nat.le_trans later (newer serial given), others⟩

theorem broughtReplaced (around : r.StaticAround own.name) {t : Token} {d : Definition}
    (invoked : r.invoked? t = some d) (other : t.value ≠ own.name) {value : List Token}
    (body : d.body = .text value) {ahead rest : List Token} {args : List (List Token)}
    (called : d.Called ahead args rest) :
    ∀ u ∈ Scan.textReplacement d t (numberEach n 0 args) #[] value ++ rest,
      u.Brought n own.name (t :: ahead) := by
  obtain ⟨front, rfl, within⟩ := Definition.calledFront called
  obtain ⟨others, text, texts⟩ := around.texts t.value d (invokedSome invoked).2.2 other
  cases body.symm.trans text
  intro u member
  rcases List.mem_append.mp member with inText | inRest
  · rcases Scan.textReplacementMember inText with ⟨arg, isArg, inside⟩ | ⟨v, inside, rfl⟩
    · obtain ⟨written, isWritten, v, isRead, place, rfl⟩ := numberEachSource arg isArg u inside
      have isAhead := List.mem_append_left rest (within written isWritten v isRead)
      exact .inl ⟨v, List.mem_cons_of_mem t isAhead, .inr ⟨n, place, Nat.le_refl n, rfl⟩⟩
    · rw [Scan.settle, if_neg (by simp [Scan.isTaken])]
      exact .inr ⟨Token.newerMarked n v _ _, by simp [Token.markedBy], (texts v inside).2⟩
  · exact .inl ⟨u, List.mem_cons_of_mem t (List.mem_append_right front inRest), .inl rfl⟩

theorem broughtNumbered {t : Token} {ahead : List Token} {name : String} :
    ∀ u ∈ numberAt n 0 ahead, u.Brought n name (t :: ahead) := by
  intro u member
  obtain ⟨v, inside, place, rfl⟩ := numberAtSource u member
  exact .inl ⟨v, List.mem_cons_of_mem t inside, .inr ⟨n, place, Nat.le_refl n, rfl⟩⟩

theorem calledInFront {d : Definition} {ahead front rest arg : List Token}
    (called : d.Called ahead [arg] rest) (read : ahead = front ++ rest) : ∀ u ∈ arg, u ∈ front := by
  obtain ⟨others, split, within⟩ := Definition.calledFront called
  cases List.append_cancel_right (read.symm.trans split)
  exact within arg (List.mem_singleton_self arg)

/- The tokens that a call has read and those that its argument has brought. -/
theorem broughtAnswered {d : Definition} {t : Token} {name : String}
    {ahead front arg rest more : List Token}
    (called : d.Called (numberAt n 0 ahead) [arg] rest) (read : numberAt n 0 ahead = front ++ rest)
    (inner : ∀ u ∈ more, u.Brought (n + 1) name arg) (line : Line) :
    ∀ u ∈ more.map (Scan.settle front.toArray name line) ++ rest,
      u.Brought n name (t :: ahead) := by
  have numbered : ∀ u ∈ front, u.serial ≠ none := fun u inside =>
    numberAtNumbers u (read ▸ List.mem_append_left rest inside)
  intro u member
  rcases List.mem_append.mp member with isSettled | isRest
  · obtain ⟨v, inside, rfl⟩ := List.mem_map.mp isSettled
    rw [Scan.settleNumbered numbered]
    rcases inner v inside with ⟨a, isArg, copied⟩ | ⟨newer, marked, avoids⟩
    · have isFront := calledInFront called read a isArg
      obtain rfl := Token.copiedGiven (numbered a isFront) copied
      rw [if_pos (List.mem_map_of_mem isFront)]
      exact broughtNumbered v (read ▸ List.mem_append_left rest isFront)
    · split
      · exact .inr ⟨fun serial given => Nat.le_of_succ_le (newer serial given), marked, avoids⟩
      · exact .inr ⟨Token.newerMarked n v _ _, by simp [Token.markedBy], avoids⟩
  · exact broughtNumbered u (read ▸ List.mem_append_right front isRest)

theorem expandsGrows (expands : r.Expands own calls n ts n' out) : n ≤ n' := by
  induction expands with
  | done => exact Nat.le_refl _
  | still _ _ _ ih => exact ih
  | replaced _ _ _ _ _ _ ih => exact Nat.le_of_add_right_le ih
  | answered _ _ _ _ _ _ ihInner ih => omega

theorem expandsSource (around : r.StaticAround own.name)
    (expands : r.Expands own calls n ts n' out) : ∀ u ∈ out, u.Brought n own.name ts := by
  induction expands with
  | done => simp
  | @still _ t rest _ _ solid uninvoked later ih =>
    refine List.forall_mem_cons.mpr ⟨.inl ⟨t, List.mem_cons_self, .inl rfl⟩, fun u inside => ?_⟩
    refine broughtTrans (fun v member => ?_) (Nat.le_refl _) (ih u inside)
    exact .inl ⟨v, List.mem_cons_of_mem t member, .inl rfl⟩
  | replaced invoked other body new called later ih =>
    exact fun u inside => broughtTrans (broughtReplaced around invoked other body called)
      (Nat.le_add_right _ _) (ih u inside)
  | @answered fresh t ahead front arg rest between more _ _ allowed invoked called read inner later
      ihInner ih =>
    have grows : fresh ≤ between := Nat.le_of_succ_le (expandsGrows inner)
    exact fun u inside => broughtTrans (broughtAnswered called read ihInner t.line) grows
      (ih u inside)

theorem knownReplaced {t : Token} {d : Definition} {value ahead rest : List Token}
    {args : List (List Token)} (called : d.Called ahead args rest) (known : ∀ u ∈ ahead, u.Known n) :
    ∀ u ∈ Scan.textReplacement d t (numberEach n 0 args) #[] value ++ rest,
      u.Known (n + min args.length 1) := by
  obtain ⟨front, rfl, within⟩ := Definition.calledFront called
  intro u member
  rcases List.mem_append.mp member with inText | inRest
  · rcases Scan.textReplacementMember inText with ⟨arg, isArg, inside⟩ | ⟨v, inside, rfl⟩
    · obtain ⟨written, isWritten, v, isRead, place, rfl⟩ := numberEachSource arg isArg u inside
      have one : min args.length 1 = 1 :=
        Nat.min_eq_right (List.length_pos_of_mem isWritten)
      rw [one]
      exact Token.knownNumbered
        (known v (List.mem_append_left rest (within written isWritten v isRead))) place
    · rw [Scan.settle, if_neg (by simp [Scan.isTaken])]
      exact Token.knownMarked _ v _ _
  · exact Token.knownMono (known u (List.mem_append_right front inRest)) (Nat.le_add_right _ _)

theorem knownNumberAt {ahead : List Token} (known : ∀ u ∈ ahead, u.Known n) :
    ∀ u ∈ numberAt n 0 ahead, u.Known (n + 1) := by
  intro u member
  obtain ⟨v, inside, place, rfl⟩ := numberAtSource u member
  exact Token.knownNumbered (known v inside) place

theorem knownArgument {d : Definition} {ahead front rest arg : List Token}
    (called : d.Called (numberAt n 0 ahead) [arg] rest) (read : numberAt n 0 ahead = front ++ rest)
    (known : ∀ u ∈ ahead, u.Known n) : ∀ u ∈ arg, u.Known (n + 1) := by
  intro u inside
  have isFront := List.mem_append_left rest (calledInFront called read u inside)
  exact knownNumberAt known u (read ▸ isFront)

theorem knownSettled {ahead front more rest : List Token} {m : Nat} (name : String) (line : Line)
    (read : numberAt n 0 ahead = front ++ rest) (known : ∀ u ∈ ahead, u.Known n)
    (later : n + 1 ≤ m) (brought : ∀ u ∈ more, u.Known m) :
    ∀ u ∈ more.map (Scan.settle front.toArray name line) ++ rest, u.Known m := by
  intro u member
  rcases List.mem_append.mp member with isSettled | isRest
  · obtain ⟨v, inside, rfl⟩ := List.mem_map.mp isSettled
    unfold Scan.settle
    split
    · exact brought v inside
    · exact Token.knownMarked m v name line
  · exact Token.knownMono (knownNumberAt known u (read ▸ List.mem_append_right front isRest)) later

theorem expandsKnown (expands : r.Expands own calls n ts n' out) (known : ∀ t ∈ ts, t.Known n) :
    ∀ u ∈ out, u.Known n' := by
  induction expands with
  | done => simp
  | still solid uninvoked later ih =>
    obtain ⟨here, rest⟩ := List.forall_mem_cons.mp known
    exact List.forall_mem_cons.mpr ⟨Token.knownMono here (expandsGrows later), ih rest⟩
  | replaced invoked other body new called later ih =>
    exact ih (knownReplaced called (List.forall_mem_cons.mp known).2)
  | @answered fresh t ahead front arg rest between more _ _ allowed invoked called read inner later
      ihInner ih =>
    have others := (List.forall_mem_cons.mp known).2
    exact ih (knownSettled _ _ read others (expandsGrows inner)
      (ihInner (knownArgument called read others)))

end Registry

/-! Tokens that are the same but for places -/

namespace Token

/- The token without its place; of its number only how many of the `ages` it is older than. -/
def dated (ages : List Nat) (t : Token) : Token :=
  { t with line := none, serial := some (ages.countP t.isOlder, 0) }

theorem datedOutward (ages : List Nat) : Outward (dated ages) := fun _ => ⟨rfl, rfl⟩

variable {n m : Nat} {as bs : List Nat} {t u : Token}

theorem datedSame : u.dated bs = t.dated as ↔
    u.unplaced = t.unplaced ∧ bs.countP u.isOlder = as.countP t.isOlder := by
  simp [dated, unplaced, and_assoc]

/- Without ages only places are left out. -/
theorem datedNone {ts us : List Token} :
    us.map (dated []) = ts.map (dated []) ↔ Tokens.unplaced us = Tokens.unplaced ts := by
  have first (ts : List Token) : ts.map (dated []) = (Tokens.unplaced ts).map (dated []) := by
    simp [Tokens.unplaced, dated, unplaced]
  have second (ts : List Token) : Tokens.unplaced ts = Tokens.unplaced (ts.map (dated [])) := by
    simp [Tokens.unplaced, dated, unplaced]
  constructor
  · intro same
    rw [second us, second ts, same]
  · intro same
    rw [first us, first ts, same]

theorem olderNumbered {age : Nat} (within : age ≤ n) (place : Nat) (t : Token) :
    (t.numbered n place).isOlder age = t.isOlder age := by
  cases given : t.serial with
  | none => simpa [isOlder, numberedNew given, given] using within
  | some serial => rw [numberedOf (by simp [given])]

theorem datedNumbered (within : ∀ a ∈ as, a ≤ n) (place : Nat) (t : Token) :
    (t.numbered n place).dated as = t.dated as := by
  obtain ⟨serial, same⟩ := numberedSame n place t
  refine datedSame.mpr ⟨by rw [same]; rfl, ?_⟩
  exact List.countP_congr fun a member => by rw [olderNumbered (within a member)]

theorem olderMarked (ages : List Nat) (t : Token) (name : String) (line : Line) :
    ages.countP (t.markedBy name line).isOlder = 0 :=
  List.countP_eq_zero.mpr fun _ _ => by simp [isOlder, markedBy]

theorem datedMarked (same : u.unplaced = t.unplaced) (name : String) (line line' : Line) :
    (u.markedBy name line').dated bs = (t.markedBy name line).dated as := by
  obtain ⟨kind, value, -⟩ := unplacedSame same
  refine datedSame.mpr ⟨?_, by rw [olderMarked, olderMarked]⟩
  simp [unplaced, markedBy, kind, value]

theorem datedPush (same : u.dated bs = t.dated as) (older : t.isOlder n = true)
    (older' : u.isOlder m = true) : u.dated (m :: bs) = t.dated (n :: as) := by
  obtain ⟨unplaced, count⟩ := datedSame.mp same
  refine datedSame.mpr ⟨unplaced, ?_⟩
  rw [List.countP_cons_of_pos older, List.countP_cons_of_pos older', count]

/- A token that is not older than the latest age is older than none. -/
theorem olderNone (latest : ∀ a ∈ as, a ≤ n) (newer : t.isOlder n = false) :
    as.countP t.isOlder = 0 := by
  refine List.countP_eq_zero.mpr fun a member older => ?_
  cases given : t.serial with
  | none => simp [isOlder, given] at older
  | some serial =>
    have := latest a member
    simp only [isOlder, given, Option.any_some, decide_eq_true_eq, decide_eq_false_iff_not] at *
    omega

theorem datedPop (same : u.dated (m :: bs) = t.dated (n :: as)) (latest : ∀ a ∈ as, a ≤ n)
    (latest' : ∀ b ∈ bs, b ≤ m) : u.isOlder m = t.isOlder n ∧ u.dated bs = t.dated as := by
  obtain ⟨unplaced, count⟩ := datedSame.mp same
  rw [List.countP_cons, List.countP_cons] at count
  cases older : t.isOlder n with
  | true =>
    cases older' : u.isOlder m with
    | true =>
      rw [older, older'] at count
      exact ⟨rfl, datedSame.mpr ⟨unplaced, Nat.add_right_cancel count⟩⟩
    | false =>
      rw [older, older', olderNone latest' older'] at count
      simp at count
  | false =>
    cases older' : u.isOlder m with
    | true =>
      rw [older, older', olderNone latest older] at count
      simp at count
    | false =>
      rw [older, older'] at count
      exact ⟨rfl, datedSame.mpr ⟨unplaced, Nat.add_right_cancel count⟩⟩

theorem datedPopAll {ts us : List Token} (same : us.map (dated (m :: bs)) = ts.map (dated (n :: as)))
    (latest : ∀ a ∈ as, a ≤ n) (latest' : ∀ b ∈ bs, b ≤ m) :
    us.map (dated bs) = ts.map (dated as) := by
  induction ts generalizing us with
  | nil =>
    obtain rfl := List.map_eq_nil_iff.mp same
    rfl
  | cons t ts ih =>
    obtain ⟨u, us, rfl, here, others⟩ := List.map_eq_cons_iff.mp same
    rw [List.map_cons, List.map_cons, (datedPop here latest latest').2, ih others]

end Token

theorem Tokens.numberAtDated {n : Nat} {as : List Nat} (within : ∀ a ∈ as, a ≤ n) (place : Nat)
    (ts : List Token) : (numberAt n place ts).map (Token.dated as) = ts.map (Token.dated as) := by
  induction ts generalizing place with
  | nil => rfl
  | cons t ts ih => rw [numberAt, List.map_cons, List.map_cons, Token.datedNumbered within, ih]

theorem Tokens.numberEachDated {n : Nat} {as : List Nat} (within : ∀ a ∈ as, a ≤ n) (place : Nat)
    (args : List (List Token)) :
    (numberEach n place args).map (List.map (Token.dated as)) =
      args.map (List.map (Token.dated as)) := by
  induction args generalizing place with
  | nil => rfl
  | cons arg args ih => rw [numberEach, List.map_cons, List.map_cons, numberAtDated within, ih]

theorem lookupMap (f : List Token → List Token) (name : String) (params : List String)
    (args : List (List Token)) :
    (params.zip (args.map f)).lookup name = ((params.zip args).lookup name).map f := by
  induction params generalizing args with
  | nil => rfl
  | cons param params ih =>
    cases args with
    | nil => rfl
    | cons arg args =>
      simp only [List.map_cons, List.zip_cons_cons, List.lookup_cons, ih]
      split <;> rfl

namespace Scan

variable {d : Definition} {value : List Token}

theorem textReplacementNew (new : ∀ u ∈ value, u.serial = none) (t : Token)
    (args : List (List Token)) (taken : Array Token) :
    textReplacement d t args taken value = textReplacement d t args #[] value := by
  have settled (u : Token) (inside : u ∈ value) :
      settle taken d.name t.line u = settle #[] d.name t.line u := by
    simp [settle, isTaken, new u inside]
  unfold textReplacement
  refine List.flatMap_congr fun u inside => ?_
  rw [settled u inside]

theorem textReplacementDated {as bs : List Nat} {t u : Token} {args args' : List (List Token)}
    (same : args'.map (List.map (Token.dated bs)) = args.map (List.map (Token.dated as))) :
    (textReplacement d u args' #[] value).map (Token.dated bs) =
      (textReplacement d t args #[] value).map (Token.dated as) := by
  have settled (line : Line) (v : Token) :
      settle #[] d.name line v = v.markedBy d.name line := by
    simp [settle, isTaken]
  have looked (v : Token) :
      (((d.params.getD []).zip args').lookup v.value).map (List.map (Token.dated bs)) =
        (((d.params.getD []).zip args).lookup v.value).map (List.map (Token.dated as)) := by
    rw [← lookupMap, ← lookupMap, same]
  unfold textReplacement
  rw [List.map_flatMap, List.map_flatMap]
  refine List.flatMap_congr fun v _ => ?_
  have here := looked v
  have marked := @Token.datedMarked as bs v v rfl d.name t.line u.line
  by_cases kind : v.kind = .iden
  · simp only [if_pos kind]
    cases found' : ((d.params.getD []).zip args').lookup v.value with
    | none =>
      cases found : ((d.params.getD []).zip args).lookup v.value with
      | none => simp [settled, marked]
      | some arg => simp [found, found'] at here
    | some arg' =>
      cases found : ((d.params.getD []).zip args).lookup v.value with
      | none => simp [found, found'] at here
      | some arg =>
        rw [found, found'] at here
        exact Option.some.inj here
  · simp [if_neg kind, settled, marked]

end Scan

namespace Registry

variable {r : Registry} {own : Definition} {calls : Bool} {n n' m : Nat} {ts us out : List Token}
  {as bs : List Nat}

theorem invokedUnplaced {t u : Token} (same : u.unplaced = t.unplaced) :
    r.invoked? u = r.invoked? t := by
  obtain ⟨kind, value, mark⟩ := Token.unplacedSame same
  rw [invoked?, invoked?, kind, value, mark]

/- All tokens were there when the call began. -/
theorem datedBegun {ahead ahead' : List Token}
    (same : ahead'.map (Token.dated bs) = ahead.map (Token.dated as))
    (latest : ∀ a ∈ as, a ≤ n) (latest' : ∀ b ∈ bs, b ≤ m) (known : ∀ t ∈ ahead, t.Known n)
    (known' : ∀ u ∈ ahead', u.Known m) :
    (numberAt m 0 ahead').map (Token.dated ((m + 1) :: bs)) =
      (numberAt n 0 ahead).map (Token.dated ((n + 1) :: as)) := by
  have older {n : Nat} {ahead : List Token} (known : ∀ t ∈ ahead, t.Known n) :
      ∀ t ∈ numberAt n 0 ahead, t.isOlder (n + 1) = true := fun t member =>
    Token.olderKnown (numberAtNumbers t member) (knownNumberAt known t member)
  have numbered : (numberAt m 0 ahead').map (Token.dated bs) =
      (numberAt n 0 ahead).map (Token.dated as) := by
    rw [numberAtDated latest', numberAtDated latest, same]
  have here := older known
  have there := older known'
  generalize numberAt n 0 ahead = ts at numbered here
  generalize numberAt m 0 ahead' = us at numbered there
  induction ts generalizing us with
  | nil =>
    obtain rfl := List.map_eq_nil_iff.mp numbered
    rfl
  | cons t ts ih =>
    obtain ⟨u, us, rfl, first, others⟩ := List.map_eq_cons_iff.mp numbered
    obtain ⟨older, olderLater⟩ := List.forall_mem_cons.mp here
    obtain ⟨older', olderLater'⟩ := List.forall_mem_cons.mp there
    rw [List.map_cons, List.map_cons, Token.datedPush first older older',
      ih olderLater us others olderLater']

/- Of what its argument comes to, a call takes for its own what is older than the call. -/
theorem settleOlder (around : r.StaticAround own.name) {d : Definition}
    {ahead front rest arg more : List Token} {between : Nat}
    (called : d.Called (numberAt n 0 ahead) [arg] rest) (read : numberAt n 0 ahead = front ++ rest)
    (known : ∀ u ∈ ahead, u.Known n) (inner : r.Expands own calls (n + 1) arg between more)
    (line : Line) :
    ∀ u ∈ more, Scan.settle front.toArray own.name line u =
      if u.isOlder (n + 1) = true then u else u.markedBy own.name line := by
  have older : ∀ v ∈ front, v.serial ≠ none ∧ v.isOlder (n + 1) = true := by
    intro v isFront
    have member : v ∈ numberAt n 0 ahead := read ▸ List.mem_append_left rest isFront
    exact ⟨numberAtNumbers v member,
      Token.olderKnown (numberAtNumbers v member) (knownNumberAt known v member)⟩
  intro u inside
  rw [Scan.settleNumbered fun v isFront => (older v isFront).1]
  rcases expandsSource around inner u inside with ⟨v, isArg, copied⟩ | ⟨newer, -⟩
  · have isFront := calledInFront called read v isArg
    obtain rfl := Token.copiedGiven (older v isFront).1 copied
    rw [if_pos (List.mem_map_of_mem isFront), if_pos (older u isFront).2]
  · have apart : u.serial ∉ front.map (·.serial) := by
      intro member
      obtain ⟨v, isFront, same⟩ := List.mem_map.mp member
      have older := (older v isFront).2
      rw [Token.isOlder, same, ← Token.isOlder, Token.newerNotOlder newer] at older
      contradiction
    rw [if_neg apart, if_neg (by simp [Token.newerNotOlder newer])]

theorem settledDated {name : String} {more more' : List Token} {f g : Token → Token}
    {line line' : Line} (latest : ∀ a ∈ as, a ≤ n) (latest' : ∀ b ∈ bs, b ≤ m)
    (settles : ∀ t ∈ more, f t = if t.isOlder n = true then t else t.markedBy name line)
    (settles' : ∀ u ∈ more', g u = if u.isOlder m = true then u else u.markedBy name line')
    (same : more'.map (Token.dated (m :: bs)) = more.map (Token.dated (n :: as))) :
    (more'.map g).map (Token.dated bs) = (more.map f).map (Token.dated as) := by
  induction more generalizing more' with
  | nil =>
    obtain rfl := List.map_eq_nil_iff.mp same
    rfl
  | cons t more ih =>
    obtain ⟨u, more', rfl, first, others⟩ := List.map_eq_cons_iff.mp same
    obtain ⟨here, later⟩ := List.forall_mem_cons.mp settles
    obtain ⟨here', later'⟩ := List.forall_mem_cons.mp settles'
    obtain ⟨older, dated⟩ := Token.datedPop first latest latest'
    have both : (g u).dated bs = (f t).dated as := by
      rw [here, here', older]
      split
      · exact dated
      · exact Token.datedMarked (Token.datedSame.mp dated).1 name line line'
    rw [List.map_cons, List.map_cons, List.map_cons, List.map_cons, both, ih later later' others]

/- The same becomes of tokens that are the same but for places, and from every next number. -/
theorem expandsAlike (around : r.StaticAround own.name)
    (expands : r.Expands own calls n ts n' out)
    (same : us.map (Token.dated bs) = ts.map (Token.dated as)) (latest : ∀ a ∈ as, a ≤ n)
    (latest' : ∀ b ∈ bs, b ≤ m)
    (known : calls = true → (∀ t ∈ ts, t.Known n) ∧ ∀ u ∈ us, u.Known m) :
    ∃ m' out', r.Expands own calls m us m' out' ∧
      out'.map (Token.dated bs) = out.map (Token.dated as) := by
  induction expands generalizing m us as bs with
  | done =>
    obtain rfl := List.map_eq_nil_iff.mp same
    exact ⟨m, [], .done, rfl⟩
  | still solid uninvoked later ih =>
    obtain ⟨u, us, rfl, here, others⟩ := List.map_eq_cons_iff.mp same
    obtain ⟨unplaced, -⟩ := Token.datedSame.mp here
    obtain ⟨m', out', expands, sameOut⟩ := ih others latest latest' fun allowed =>
      ⟨(List.forall_mem_cons.mp (known allowed).1).2, (List.forall_mem_cons.mp (known allowed).2).2⟩
    refine ⟨m', u :: out', .still ?_ ?_ expands, congrArg₂ List.cons here sameOut⟩
    · rwa [(Token.unplacedSame unplaced).1]
    · rwa [invokedUnplaced unplaced]
  | @replaced fresh t ahead d value args rest _ _ invoked other body new called later ih =>
    obtain ⟨u, ahead', rfl, here, others⟩ := List.map_eq_cons_iff.mp same
    obtain ⟨unplaced, -⟩ := Token.datedSame.mp here
    obtain ⟨args', rest', called', sameArgs, sameRest⟩ :=
      Definition.calledAlike (Token.datedOutward as) (Token.datedOutward bs) others called
    have sameNext : (Scan.textReplacement d u (numberEach m 0 args') #[] value ++ rest').map
        (Token.dated bs) =
          (Scan.textReplacement d t (numberEach fresh 0 args) #[] value ++ rest).map
            (Token.dated as) := by
      rw [List.map_append, List.map_append, sameRest, Scan.textReplacementDated]
      rw [numberEachDated latest', numberEachDated latest, sameArgs]
    obtain ⟨m', out', expands, sameOut⟩ := ih sameNext
      (fun a member => Nat.le_trans (latest a member) (Nat.le_add_right _ _))
      (fun b member => Nat.le_trans (latest' b member) (Nat.le_add_right _ _)) fun allowed =>
        ⟨knownReplaced called (List.forall_mem_cons.mp (known allowed).1).2,
          knownReplaced called' (List.forall_mem_cons.mp (known allowed).2).2⟩
    refine ⟨m', out', .replaced ?_ ?_ body new called' expands, sameOut⟩
    · rwa [invokedUnplaced unplaced]
    · rwa [(Token.unplacedSame unplaced).2.1]
  | @answered fresh t ahead front arg rest between more _ _ allowed invoked called read inner later
      ihInner ih =>
    obtain ⟨u, ahead', rfl, here, others⟩ := List.map_eq_cons_iff.mp same
    obtain ⟨unplaced, -⟩ := Token.datedSame.mp here
    obtain ⟨known, known'⟩ := known allowed
    have knownAhead := (List.forall_mem_cons.mp known).2
    have knownAhead' := (List.forall_mem_cons.mp known').2
    obtain ⟨args', rest', called', sameArgs, sameRest⟩ := Definition.calledAlike
      (Token.datedOutward _) (Token.datedOutward _)
      (datedBegun others latest latest' knownAhead knownAhead') called
    obtain ⟨arg', rfl, sameArg⟩ := List.map_eq_singleton_iff.mp sameArgs
    obtain ⟨front', read', -⟩ := Definition.calledFront called'
    have grown {n : Nat} {as : List Nat} (latest : ∀ a ∈ as, a ≤ n) : ∀ a ∈ as, a ≤ n + 1 :=
      fun a member => Nat.le_succ_of_le (latest a member)
    have knownArg := knownArgument called read knownAhead
    have knownArg' := knownArgument called' read' knownAhead'
    obtain ⟨between', more', inner', sameMore⟩ := ihInner sameArg
      (List.forall_mem_cons.mpr ⟨Nat.le_refl _, grown latest⟩)
      (List.forall_mem_cons.mpr ⟨Nat.le_refl _, grown latest'⟩) fun _ => ⟨knownArg, knownArg'⟩
    have grows := expandsGrows inner
    have grows' := expandsGrows inner'
    have sameNext : (more'.map (Scan.settle front'.toArray own.name u.line) ++ rest').map
        (Token.dated bs) =
          (more.map (Scan.settle front.toArray own.name t.line) ++ rest).map (Token.dated as) := by
      rw [List.map_append, List.map_append, Token.datedPopAll sameRest (grown latest) (grown latest'),
        settledDated (grown latest) (grown latest')
          (settleOlder around called read knownAhead inner t.line)
          (settleOlder around called' read' knownAhead' inner' u.line) sameMore]
    obtain ⟨m', out', later', sameOut⟩ := ih sameNext
      (fun a member => by have := latest a member; omega)
      (fun b member => by have := latest' b member; omega) fun _ =>
        ⟨knownSettled _ _ read knownAhead grows (expandsKnown inner knownArg),
          knownSettled _ _ read' knownAhead' grows' (expandsKnown inner' knownArg')⟩
    refine ⟨m', out', .answered allowed ?_ called' read' inner' later', sameOut⟩
    rwa [invokedUnplaced unplaced]

end Registry

end LuaExpander
