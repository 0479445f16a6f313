import LuaExpander.Proofs.Reading

/-! Arguments between parentheses. What is read for them ends at the parenthesis that closes them,
whatever comes after it, and depends on kinds and values of the tokens only. -/
namespace LuaExpander

/- A token without the place that it was read at. -/
def Token.unplaced (t : Token) : Token := { t with line := none, serial := none }

theorem Token.unplacedSame {t u : Token} (same : t.unplaced = u.unplaced) :
    t.kind = u.kind ∧ t.value = u.value ∧ t.mark = u.mark := by
  simp only [unplaced, Token.mk.injEq] at same
  exact ⟨same.1, same.2.1, same.2.2.2.1⟩

namespace Tokens

def unplaced (ts : List Token) : List Token := ts.map Token.unplaced

theorem unplacedMember {ts us : List Token} (same : unplaced ts = unplaced us) {t : Token}
    (member : t ∈ ts) : ∃ u ∈ us, u.unplaced = t.unplaced := by
  have inside : t.unplaced ∈ unplaced ts := List.mem_map_of_mem member
  rw [same] at inside
  exact List.mem_map.mp inside

def isBracket (value : String) : Bool := value ∈ ["(", "[", "\x7b", ")", "]", "\x7d"]

/- Brackets are matched. Without `commas`, commas stand in brackets only. -/
inductive Bracketed : Bool → List Token → Prop where
  | nil {commas} : Bracketed commas []
  | word {commas t ts} (solid : t.kind ≠ .eof)
      (plain : t.kind = .op → isBracket t.value = false ∧ (commas = false → t.value ≠ ","))
      (later : Bracketed commas ts) : Bracketed commas (t :: ts)
  | group {commas opener closer inner ts} (opens : opener.kind = .op) (closes : closer.kind = .op)
      (pair : Reader.closerOf? opener.value = some closer.value) (within : Bracketed true inner)
      (later : Bracketed commas ts) : Bracketed commas (opener :: (inner ++ closer :: ts))

theorem bracketedSolid {commas : Bool} {ts : List Token} (bracketed : Bracketed commas ts) :
    ∀ t ∈ ts, t.kind ≠ .eof := by
  induction bracketed with
  | nil => simp
  | word solid plain later ih => exact List.forall_mem_cons.mpr ⟨solid, ih⟩
  | group opens closes pair within later ihInner ih =>
    simp only [List.forall_mem_cons, List.forall_mem_append]
    exact ⟨by simp [opens], ihInner, by simp [closes], ih⟩

/- Arguments with commas between them. -/
inductive Listed : List (List Token) → List Token → Prop where
  | last {arg} (bracketed : Bracketed false arg) : Listed [arg] arg
  | more {arg comma args ts} (bracketed : Bracketed false arg)
      (isComma : comma.kind = .op ∧ comma.value = ",") (later : Listed args ts) :
      Listed (arg :: args) (arg ++ comma :: ts)

/- A change of tokens that leaves their kinds and values as they are. -/
def Outward (f : Token → Token) : Prop := ∀ t, (f t).kind = t.kind ∧ (f t).value = t.value

theorem stripMap {f : Token → Token} (kinds : ∀ t, (f t).kind = t.kind) (ts : List Token) :
    strip (ts.map f) = (strip ts).map f := by
  have same : (fun t : Token => !t.kind.isSolid) ∘ f = fun t => !t.kind.isSolid := by
    funext t
    simp [kinds]
  simp only [strip, List.dropWhile_map, ← List.map_reverse, same]

end Tokens

namespace Reader
open Tokens

theorem closerBracket {value closer : String} (pair : closerOf? value = some closer) :
    isBracket value = true ∧ isBracket closer = true ∧ closerOf? closer = none := by
  unfold closerOf? at pair
  split at pair <;> cases pair <;> decide

def further (found : List (List Token) × Nat) : List (List Token) × Nat := (found.1, found.2 + 1)

theorem noCloser {value : String} (plain : isBracket value = false) : closerOf? value = none := by
  cases found : closerOf? value with
  | none => rfl
  | some closer =>
    have bracket := (closerBracket found).1
    rw [plain] at bracket
    contradiction

section Scanning

variable {closers : List String} (brackets : ∀ closer ∈ closers, isBracket closer = true)
  {arg rest : List Token} {t : Token}

include brackets in
theorem scanWord (solid : t.kind ≠ .eof)
    (plain : t.kind = .op → isBracket t.value = false ∧ (closers = [] → t.value ≠ ",")) :
    scanList ")" closers arg (t :: rest) =
      (scanList ")" closers (t :: arg) rest).map further := by
  rw [scanList, if_neg solid]
  by_cases isOp : t.kind = .op
  · obtain ⟨noBracket, noComma⟩ := plain isOp
    have noStop : ¬ (closers.isEmpty ∧ t.value = ")") := by
      rintro ⟨-, same⟩
      rw [same] at noBracket
      contradiction
    have noSplit : ¬ (closers.isEmpty ∧ t.value = ",") := fun split =>
      noComma (List.isEmpty_iff.mp split.1) split.2
    have open_ : closers.head? ≠ some t.value := by
      intro same
      rw [brackets _ (List.mem_of_mem_head? same)] at noBracket
      contradiction
    rw [if_pos isOp, if_neg noStop, if_neg noSplit, noCloser noBracket]
    dsimp only
    rw [if_neg open_]
    rfl
  · rw [if_neg isOp]
    rfl

theorem scanOpener (isOp : t.kind = .op) {closer : String}
    (pair : closerOf? t.value = some closer) :
    scanList ")" closers arg (t :: rest) =
      (scanList ")" (closer :: closers) (t :: arg) rest).map further := by
  have noStop : ¬ (closers.isEmpty ∧ t.value = ")") := by
    rintro ⟨-, same⟩
    simp [same, closerOf?] at pair
  have noSplit : ¬ (closers.isEmpty ∧ t.value = ",") := by
    rintro ⟨-, same⟩
    simp [same, closerOf?] at pair
  rw [scanList, if_neg (by simp [isOp]), if_pos isOp, if_neg noStop, if_neg noSplit, pair]
  rfl

theorem scanCloser (isOp : t.kind = .op) (noOpener : closerOf? t.value = none) :
    scanList ")" (t.value :: closers) arg (t :: rest) =
      (scanList ")" closers (t :: arg) rest).map further := by
  rw [scanList, if_neg (by simp [isOp]), if_pos isOp, if_neg (by simp), if_neg (by simp), noOpener]
  dsimp only
  rw [if_pos (by simp)]
  rfl

end Scanning

/- Scanning a bracketed list adds it to the argument and goes on behind it. -/
theorem scanBracketed {commas : Bool} {ts : List Token} (bracketed : Bracketed commas ts)
    {closers : List String} (inside : commas = true → closers ≠ [])
    (brackets : ∀ closer ∈ closers, isBracket closer = true) {arg tail : List Token} :
    scanList ")" closers arg (ts ++ tail) =
      (scanList ")" closers (ts.reverse ++ arg) tail).map
        fun found => (found.1, found.2 + ts.length) := by
  induction bracketed generalizing closers arg tail with
  | nil => simp
  | @word commas t ts solid plain later ih =>
    have step := @scanWord closers brackets arg (ts ++ tail) t solid fun isOp =>
      ⟨(plain isOp).1, fun outside => (plain isOp).2 (by
        cases commas with
        | true => exact absurd outside (inside rfl)
        | false => rfl)⟩
    rw [List.cons_append, step, ih inside brackets, Option.map_map, List.reverse_cons,
      List.append_assoc]
    rfl
  | @group commas opener closer inner ts opens closes pair within later ihInner ih =>
    obtain ⟨-, isBracket, noOpener⟩ := closerBracket pair
    have both : ∀ c ∈ closer.value :: closers, Tokens.isBracket c = true :=
      List.forall_mem_cons.mpr ⟨isBracket, brackets⟩
    rw [List.cons_append, List.append_assoc, scanOpener opens pair, ihInner (by simp) both,
      List.cons_append, scanCloser closes noOpener, ih inside brackets]
    simp only [Option.map_map, List.reverse_cons, List.reverse_append, List.append_assoc,
      List.cons_append, List.nil_append, List.length_cons, List.length_append]
    congr 1
    funext found
    simp [further]
    omega

theorem scanListed {args : List (List Token)} {ts : List Token} (listed : Listed args ts)
    {closer : Token} (closes : closer.kind = .op ∧ closer.value = ")") (rest : List Token) :
    scanList ")" [] [] (ts ++ closer :: rest) = some (args.map strip, ts.length + 1) := by
  induction listed with
  | @last arg bracketed =>
    have stops : scanList ")" [] (arg.reverse ++ []) (closer :: rest) = some ([strip arg], 1) := by
      simp [scanList, closes]
    rw [scanBracketed bracketed (by simp) (by simp), stops, Option.map_some, Nat.add_comm]
    rfl
  | @more arg comma args ts bracketed isComma later ih =>
    have splits : scanList ")" [] (arg.reverse ++ []) (comma :: (ts ++ closer :: rest)) =
        some (strip arg :: args.map strip, ts.length + 1 + 1) := by
      simp [scanList, isComma, ih]
    rw [List.append_assoc, List.cons_append, scanBracketed bracketed (by simp) (by simp), splits]
    simp
    omega

theorem scanListMap {f : Token → Token} (outward : Outward f) (stop : String)
    (closers : List String) (arg ts : List Token) :
    scanList stop closers (arg.map f) (ts.map f) =
      (scanList stop closers arg ts).map fun found => (found.1.map (List.map f), found.2) := by
  induction ts generalizing closers arg with
  | nil => rfl
  | cons t ts ih =>
    have deeper (closers : List String) : scanList stop closers (f t :: arg.map f) (ts.map f) =
        (scanList stop closers (t :: arg) ts).map
          fun found => (found.1.map (List.map f), found.2) := ih closers (t :: arg)
    have next : scanList stop [] [] (ts.map f) =
        (scanList stop [] [] ts).map fun found => (found.1.map (List.map f), found.2) := ih [] []
    have stripped : strip (arg.map f).reverse = (strip arg.reverse).map f := by
      rw [← List.map_reverse, stripMap fun t => (outward t).1]
    rw [List.map_cons, scanList, scanList]
    simp only [deeper, next, stripped, (outward t).1, (outward t).2]
    split
    · rfl
    split
    · split
      · rfl
      split
      · simp [Function.comp_def]
      split
      · simp [Function.comp_def]
      · split <;> simp [Function.comp_def]
    · simp [Function.comp_def]

/- The end of the input is no part of what is scanned, and nothing behind it is. -/
theorem scanListBefore {stop : String} {closers : List String} {arg ts rest : List Token}
    {last : Token} (isEnd : last.kind = .eof) :
    scanList stop closers arg (ts ++ last :: rest) = scanList stop closers arg ts := by
  induction ts generalizing closers arg with
  | nil => simp [scanList, isEnd]
  | cons t ts ih => simp only [List.cons_append, scanList, ih]

theorem scanListBound {stop : String} {closers : List String} {arg ts : List Token}
    {args : List (List Token)} {n : Nat} (found : scanList stop closers arg ts = some (args, n)) :
    n ≤ ts.length := by
  induction ts generalizing closers arg args n with
  | nil => cases found
  | cons t ts ih =>
    have deeper {closers : List String} {arg : List Token} {args : List (List Token)} {n : Nat}
        {add : List (List Token) × Nat → List (List Token) × Nat}
        (one : ∀ found, (add found).2 = found.2 + 1)
        (found : (scanList stop closers arg ts).map add = some (args, n)) :
        n ≤ ts.length + 1 := by
      obtain ⟨⟨inner, k⟩, scanned, same⟩ := Option.map_eq_some_iff.mp found
      have last := one (inner, k)
      rw [same] at last
      have small := ih scanned
      dsimp only at last
      omega
    rw [scanList] at found
    rw [List.length_cons]
    split at found
    · contradiction
    split at found
    · split at found
      · cases found
        exact Nat.succ_le_succ (Nat.zero_le _)
      split at found
      · exact deeper (fun _ => rfl) found
      split at found
      · exact deeper (fun _ => rfl) found
      · split at found
        · exact deeper (fun _ => rfl) found
        · exact deeper (fun _ => rfl) found
    · exact deeper (fun _ => rfl) found

end Reader

namespace Definition
open Tokens

/- Nothing between the parentheses is no argument where there are no parameters. -/
def counted (params : List String) (found : List (List Token)) : List (List Token) :=
  if found = [[]] ∧ params = [] then [] else found

/- The arguments of a call with `ahead` after the name, and what comes after the call. -/
inductive Called (d : Definition) (ahead : List Token) : List (List Token) → List Token → Prop where
  | bare (object : d.params = none) : Called d ahead [] ahead
  | applied {params blanks opener inner found n} (function : d.params = some params)
      (split : ahead = blanks ++ opener :: inner) (blank : ∀ t ∈ blanks, t.kind.isBlank = true)
      (opens : opener.value = "(" ∧ opener.kind.isBlank = false ∧ opener.kind ≠ .eof)
      (scanned : Reader.scanList ")" [] [] inner = some (found, n))
      (arity : (counted params found).length = params.length) :
      Called d ahead (counted params found) (inner.drop n)

end Definition

namespace Reader

theorem peekHead {r : Reader} {t : Token} {rest : List Token} (ahead : r.cursor.ahead = t :: rest) :
    ∃ cursor, peek.run.run r = (.ok t, { r with cursor }) ∧ cursor.ahead = t :: rest ∧
      cursor.failure = r.cursor.failure := by
  refine ⟨(r.cursor.drop 1).putBack t, ?_, by simp [Cursor.putBack, ahead],
    Cursor.failureDrop _ _⟩
  rw [peekRuns, Cursor.peekToken ahead]

theorem peekEnd {r : Reader} (ahead : r.cursor.ahead = []) (failure : r.cursor.failure = none) :
    peek.run.run r = (.ok r.endToken, r) := by
  rw [peekRuns, Cursor.peekNone ahead failure]

theorem nextHead {r : Reader} {t : Token} {rest : List Token} (ahead : r.cursor.ahead = t :: rest)
    (solid : t.kind ≠ .eof) :
    ∃ r', next.run.run r = (.ok t, r') ∧ r'.cursor.ahead = rest ∧
      r'.cursor.failure = r.cursor.failure := by
  obtain ⟨cursor, peeked, same, failure⟩ := peekHead ahead
  refine ⟨took [t] { r with cursor }, ?_, ?_, (Cursor.failureDrop _ _).trans failure⟩
  · rw [next, runBind, peeked]
    dsimp only
    rw [if_pos solid]
    rfl
  · simp [took, same]

theorem skipBlankHead {r : Reader} {blanks rest : List Token} {t : Token}
    (ahead : r.cursor.ahead = blanks ++ t :: rest) (blank : ∀ u ∈ blanks, u.kind.isBlank = true)
    (solid : t.kind.isBlank = false) :
    ∃ r', skipBlank.run.run r = (.ok t, r') ∧ r'.cursor.ahead = t :: rest ∧
      r'.cursor.failure = r.cursor.failure := by
  have front : r.cursor.ahead.takeWhile (·.kind.isBlank) = blanks := by
    rw [ahead, List.takeWhile_append_of_pos blank, List.takeWhile_cons_of_neg (by simp [solid]),
      List.append_nil]
  have skipped : (r.took blanks).cursor.ahead = t :: rest := by
    simp [took, ahead]
  obtain ⟨cursor, peeked, same, failure⟩ := peekHead skipped
  refine ⟨{ r.took blanks with cursor }, ?_, same, failure.trans (Cursor.failureDrop _ _)⟩
  rw [skipBlank, whileRuns, front]
  exact peeked

theorem skipBlankFound {r r' : Reader} {t : Token} (ran : skipBlank.run.run r = (.ok t, r'))
    (filled : t.value ≠ "") :
    ∃ blanks rest, r.cursor.ahead = blanks ++ t :: rest ∧ (∀ u ∈ blanks, u.kind.isBlank = true) ∧
      t.kind.isBlank = false := by
  obtain ⟨blanks, between, skipped, looked⟩ := bindSucceeds ran
  obtain ⟨rfl, took⟩ := takeWhileTakes (by
    intro t isBlank isEnd
    simp [isEnd, Kind.isBlank] at isBlank) skipped
  obtain ⟨-, head | ⟨-, rfl⟩⟩ := peekTakes looked
  · have left : between.cursor.ahead = r.cursor.ahead.dropWhile (·.kind.isBlank) :=
      List.append_cancel_left (took.ahead.symm.trans List.takeWhile_append_dropWhile.symm)
    have solid := List.head?_dropWhile_not (·.kind.isBlank) r.cursor.ahead
    rw [← left, head] at solid
    obtain ⟨rest, same⟩ := List.head?_eq_some_iff.mp head
    refine ⟨_, rest, by rw [← same, ← took.ahead], fun u member => ?_, solid⟩
    exact List.all_eq_true.mp List.all_takeWhile u member
  · exact absurd rfl filled

theorem tookAhead {r : Reader} {ts : List Token} (ahead : r.cursor.ahead = ts) (n : Nat) :
    (r.took (ts.take n)).cursor.ahead = ts.drop n := by
  rw [took, Cursor.aheadDrop, ahead, List.length_take]
  exact List.drop_eq_drop_min.symm

theorem tookExactly {r r' : Reader} {found front rest : List Token} (took : Took found r r')
    (ahead : r.cursor.ahead = front ++ rest) (left : r'.cursor.ahead = rest) :
    Took front r r' := by
  have same : found = front := by
    have both := took.ahead.symm.trans ahead
    rw [left] at both
    exact List.append_cancel_right both
  exact same ▸ took

theorem tookLeaves {r r' : Reader} {front rest : List Token} (took : Took front r r')
    (ahead : r.cursor.ahead = front ++ rest) : r'.cursor.ahead = rest :=
  List.append_cancel_left (took.ahead.symm.trans ahead)

theorem solidReads {r : Reader} {t : Token} {blanks rest : List Token}
    (ahead : r.cursor.ahead = blanks ++ t :: rest) (blank : ∀ u ∈ blanks, u.kind.isBlank = true)
    (solid : t.kind.isSolid = true) :
    ∃ skipped r', skipBlank.run.run r = (.ok t, skipped) ∧
      next.run.run skipped = (.ok t, r') ∧ Took (blanks ++ [t]) r r' := by
  have notBlank : t.kind.isBlank = false := by
    revert solid
    cases t.kind <;> simp [Kind.isSolid, Kind.isBlank]
  have notEnd : t.kind ≠ .eof := by rintro isEnd; simp [isEnd, Kind.isSolid] at solid
  obtain ⟨skipped, hs, aheadSkipped, -⟩ := skipBlankHead ahead blank notBlank
  obtain ⟨r', hn, left, -⟩ := nextHead aheadSkipped notEnd
  obtain ⟨front, one, -⟩ := skipBlankTakes hs
  obtain ⟨more, other⟩ := nextMoves hn
  exact ⟨skipped, r', hs, hn, tookExactly (one.trans other) (by simpa using ahead) left⟩

theorem listReads {r : Reader} {stop : String} {inner : List Token} {found : List (List Token)}
    {n : Nat} (ahead : r.cursor.ahead = inner)
    (scanned : scanList stop [] [] inner = some (found, n)) :
    (list stop).run.run r = (.ok found, r.took (inner.take n)) ∧
      Took (inner.take n) r (r.took (inner.take n)) := by
  constructor
  · rw [listRuns, throughRuns, ahead, scanned]
  · exact tookFront (ahead.trans (List.take_append_drop n inner).symm) (scanListTakes scanned).1

variable {d : Definition} {params : List String} {nameToken : Token} {r r' : Reader}
  {args : List (List Token)}

/- Reading takes a whole list of arguments, whether or not there are as many as parameters. -/
theorem argumentsRead {blanks inner : List Token} {opener : Token} {found : List (List Token)}
    {n : Nat} (ahead : r.cursor.ahead = blanks ++ opener :: inner)
    (blank : ∀ t ∈ blanks, t.kind.isBlank = true)
    (opens : opener.value = "(" ∧ opener.kind.isSolid = true)
    (scanned : scanList ")" [] [] inner = some (found, n)) :
    ∃ r', Took (blanks ++ opener :: inner.take n) r r' ∧ r'.cursor.ahead = inner.drop n ∧
      (d.readArguments params nameToken).run.run r =
        (if (Definition.counted params found).length = params.length then
            .ok (Definition.counted params found)
          else .error (.error (.atToken
            (.wrongArity d.name params.length (Definition.counted params found).length)
            nameToken)), r') := by
  obtain ⟨isParen, solid⟩ := opens
  obtain ⟨skipped, opened, hs, hn, first⟩ := solidReads ahead blank solid
  have left : opened.cursor.ahead = inner := tookLeaves first (by simpa using ahead)
  obtain ⟨hl, second⟩ := listReads left scanned
  have whole := first.trans second
  rw [List.append_assoc, List.singleton_append] at whole
  refine ⟨_, whole, tookAhead left n, ?_⟩
  rw [Definition.readArguments, runBind, hs]
  dsimp only
  rw [if_neg (not_not_intro isParen), runBind, hn]
  dsimp only
  rw [runBind, hl]
  dsimp only
  unfold Definition.counted
  by_cases arity : (if found = [[]] ∧ params = [] then [] else found).length = params.length
  · rw [if_pos arity, if_neg (not_not_intro arity)]
    rfl
  · rw [if_neg arity, if_pos arity]
    rfl

theorem calledArguments (function : d.params = some params) {rest : List Token}
    (called : d.Called r.cursor.ahead args rest) (failure : r.cursor.failure = none) :
    ∃ r', (d.readArguments params nameToken).run.run r = (.ok args, r') ∧
      r'.cursor.ahead = rest ∧ r'.cursor.failure = none := by
  generalize begun : r.cursor.ahead = ahead at called
  cases called with
  | bare object =>
    rw [object] at function
    contradiction
  | @applied others blanks opener inner found n isFunction split blank opens scanned arity =>
    cases function.symm.trans isFunction
    obtain ⟨isParen, noBlank, notEnd⟩ := opens
    have solid : opener.kind.isSolid = true := by
      revert noBlank notEnd
      cases opener.kind <;> simp [Kind.isSolid, Kind.isBlank]
    obtain ⟨r', took, left, ran⟩ := @argumentsRead d params nameToken r blanks inner opener found n
      (begun.trans split) blank ⟨isParen, solid⟩ scanned
    rw [if_pos arity] at ran
    exact ⟨r', ran, left, took.failure.trans failure⟩

theorem argumentsCalled (function : d.params = some params)
    (ran : (d.readArguments params nameToken).run.run r = (.ok args, r')) :
    d.Called r.cursor.ahead args r'.cursor.ahead := by
  obtain ⟨t, skipped, hs, ran⟩ := bindSucceeds ran
  by_cases isParen : t.value = "("
  · rw [if_neg (not_not_intro isParen)] at ran
    obtain ⟨blanks, inner, split, blank, solid⟩ := skipBlankFound hs (by simp [isParen])
    obtain ⟨_, same, aheadSkipped, -⟩ := skipBlankHead split blank solid
    cases hs.symm.trans same
    obtain ⟨u, opened, hn, ran⟩ := bindSucceeds ran
    obtain ⟨found, listed, hl, ran⟩ := bindSucceeds ran
    rw [listRuns] at hl
    obtain ⟨n, scanned, rfl⟩ := throughTakes hl
    by_cases isEnd : t.kind = .eof
    · have still : opened.cursor.ahead = t :: inner := by
        rcases nextTakes hn with ⟨notEnd, one⟩ | ⟨-, none⟩
        · cases aheadSkipped.symm.trans one.ahead
          contradiction
        · exact none.ahead.symm.trans aheadSkipped
      rw [still, scanList, if_pos isEnd] at scanned
      contradiction
    obtain ⟨_, same, aheadOpened, -⟩ := nextHead aheadSkipped isEnd
    cases hn.symm.trans same
    rw [aheadOpened] at scanned
    by_cases arity : (if found = [[]] ∧ params = [] then [] else found).length = params.length
    · rw [if_neg (not_not_intro arity)] at ran
      cases ran
      rw [aheadOpened, tookAhead aheadOpened n]
      exact .applied function split blank ⟨isParen, solid, isEnd⟩ scanned arity
    · rw [if_pos arity] at ran
      obtain ⟨u, between, impossible, -⟩ := bindSucceeds ran
      cases impossible
  · rw [if_pos isParen] at ran
    obtain ⟨u, between, impossible, -⟩ := bindSucceeds ran
    cases impossible

end Reader

namespace Definition
open Tokens

variable {d : Definition} {ahead rest : List Token} {args : List (List Token)}

/- What is read for a call, and the arguments among it. -/
theorem calledFront (called : d.Called ahead args rest) :
    ∃ front, ahead = front ++ rest ∧ ∀ arg ∈ args, ∀ t ∈ arg, t ∈ front := by
  cases called with
  | bare object => exact ⟨[], rfl, by simp⟩
  | @applied params blanks opener inner found n function split blank opens scanned arity =>
    obtain ⟨-, within⟩ := Reader.scanListTakes scanned
    subst split
    refine ⟨blanks ++ opener :: inner.take n, by simp, ?_⟩
    intro arg isArg t member
    unfold counted at isArg
    split at isArg
    · contradiction
    · have inside := (within arg isArg t member).resolve_left (by simp)
      exact List.mem_append_right _ (List.mem_cons_of_mem _ inside)

/- One argument in brackets is all that is read where there is one parameter. -/
theorem bracketedCalled {param : String} (function : d.params = some [param])
    {opener closer : Token} {arg : List Token} (opens : opener.kind = .op ∧ opener.value = "(")
    (closes : closer.kind = .op ∧ closer.value = ")") (bracketed : Bracketed false arg)
    (rest : List Token) : d.Called (opener :: (arg ++ closer :: rest)) [strip arg] rest := by
  have scanned := Reader.scanListed (.last bracketed) closes rest
  have left : (arg ++ closer :: rest).drop (arg.length + 1) = rest :=
    List.drop_length_add_append 1
  have called := @Called.applied d _ [param] [] opener _ _ _ function rfl (by simp)
    ⟨opens.2, by simp [opens.1, Kind.isBlank], by simp [opens.1]⟩ scanned (by simp [counted])
  rw [left] at called
  simpa [counted] using called

theorem calledBefore {last : Token} (isEnd : last.kind = .eof)
    (called : d.Called (ahead ++ [last]) args rest) :
    ∃ before, rest = before ++ [last] ∧ d.Called ahead args before := by
  generalize whole : ahead ++ [last] = all at called
  cases called with
  | bare object => exact ⟨ahead, whole.symm, .bare object⟩
  | @applied params blanks opener inner found n function split blank opens scanned arity =>
    rcases List.eq_nil_or_concat inner with rfl | ⟨front, z, rfl⟩
    · cases scanned
    have sides : ahead ++ [last] = (blanks ++ opener :: front) ++ [z] := by simp [whole, split]
    obtain ⟨rfl, isLast⟩ := List.append_inj' sides rfl
    cases isLast
    rw [List.concat_eq_append] at scanned ⊢
    rw [Reader.scanListBefore isEnd] at scanned
    refine ⟨front.drop n, ?_, .applied function rfl blank opens scanned arity⟩
    exact List.drop_append_of_le_length (Reader.scanListBound scanned)

theorem calledAfter {last : Token} (isEnd : last.kind = .eof) (called : d.Called ahead args rest) :
    d.Called (ahead ++ [last]) args (rest ++ [last]) := by
  cases called with
  | bare object => exact .bare object
  | @applied params blanks opener inner found n function split blank opens scanned arity =>
    subst split
    rw [← List.drop_append_of_le_length (Reader.scanListBound scanned), List.append_assoc,
      List.cons_append]
    exact .applied function rfl blank opens ((Reader.scanListBefore isEnd).trans scanned) arity

theorem countedMap (f : Token → Token) (params : List String) (found : List (List Token)) :
    (counted params found).map (List.map f) = counted params (found.map (List.map f)) := by
  have empty : found.map (List.map f) = [[]] ↔ found = [[]] := by
    simp [List.map_eq_singleton_iff]
  unfold counted
  simp only [empty]
  split <;> rfl

theorem calledAlike {f g : Token → Token} (outward : Outward f) (outward' : Outward g)
    {ahead' : List Token} (same : ahead'.map g = ahead.map f) (called : d.Called ahead args rest) :
    ∃ args' rest', d.Called ahead' args' rest' ∧
      args'.map (List.map g) = args.map (List.map f) ∧ rest'.map g = rest.map f := by
  cases called with
  | bare object => exact ⟨[], ahead', .bare object, rfl, same⟩
  | @applied params blanks opener inner found n function split blank opens scanned arity =>
    subst split
    rw [List.map_append, List.map_cons, List.map_eq_append_iff] at same
    obtain ⟨blanks', later, rfl, sameBlanks, sameLater⟩ := same
    obtain ⟨opener', inner', rfl, sameOpener, sameInner⟩ := List.map_eq_cons_iff.mp sameLater
    have alike {t u : Token} (same : g u = f t) : u.kind = t.kind ∧ u.value = t.value := by
      rw [← (outward t).1, ← (outward t).2, ← (outward' u).1, ← (outward' u).2, same]
      exact ⟨rfl, rfl⟩
    have blank' : ∀ u ∈ blanks', u.kind.isBlank = true := by
      intro u member
      obtain ⟨t, isBlank, same⟩ :=
        List.mem_map.mp (sameBlanks ▸ List.mem_map_of_mem (f := g) member)
      exact (alike same.symm).1 ▸ blank t isBlank
    have opens' : opener'.value = "(" ∧ opener'.kind.isBlank = false ∧ opener'.kind ≠ .eof := by
      obtain ⟨kind, value⟩ := alike sameOpener
      rw [kind, value]
      exact opens
    have scans : (Reader.scanList ")" [] [] inner').map (fun found =>
        (found.1.map (List.map g), found.2)) = some (found.map (List.map f), n) := by
      have here := Reader.scanListMap outward ")" [] [] inner
      have there := Reader.scanListMap outward' ")" [] [] inner'
      rw [scanned] at here
      rw [sameInner] at there
      exact there.symm.trans here
    obtain ⟨⟨found', n'⟩, scanned', pair⟩ := Option.map_eq_some_iff.mp scans
    simp only [Prod.mk.injEq] at pair
    obtain ⟨sameFound, rfl⟩ := pair
    have sameArgs : (counted params found').map (List.map g) =
        (counted params found).map (List.map f) := by
      rw [countedMap, countedMap, sameFound]
    have arity' : (counted params found').length = params.length := by
      rw [← arity, ← List.length_map (List.map g), sameArgs, List.length_map]
    refine ⟨_, _, .applied function rfl blank' opens' scanned' arity', sameArgs, ?_⟩
    rw [List.map_drop, List.map_drop, sameInner]

end Definition

end LuaExpander
