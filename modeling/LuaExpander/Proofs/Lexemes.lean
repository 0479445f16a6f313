import LuaExpander.Token.Lexeme
import Mathlib.Data.List.Infix

/-! What the rules for lexemes split off. A rule that applies takes a beginning of the text, and not
an empty one. It looks at nothing behind its lexeme that could make it shorter: cutting the text off
anywhere behind the lexeme leaves the lexeme as it is, and a rule that does not apply to a text does
not apply to a beginning of it. The rules cover every text; what they cannot finish is a quoted
string, a long string or a long comment. -/
namespace LuaExpander.Lexeme

structure Local (rule : List Char → Option Split) : Prop where
  splits {cs a b} : rule cs = some (a, b) → cs = a ++ b ∧ a ≠ []
  cut {cs more a b} : rule (cs ++ more) = some (a, b ++ more) → rule cs = some (a, b)
  fails {cs more} : rule (cs ++ more) = none → rule cs = none

theorem cutFront {cs more a b : List Char} (whole : cs ++ more = a ++ (b ++ more)) :
    cs = a ++ b := by
  rw [← List.append_assoc] at whole
  exact List.append_cancel_right whole

theorem Local.or {first second : List Char → Option Split} (one : Local first)
    (other : Local second) : Local fun cs => (first cs).or (second cs) where
  splits {cs a b} found := by
    rcases Option.or_eq_some_iff.mp found with found | ⟨-, found⟩
    · exact one.splits found
    · exact other.splits found
  cut {cs more a b} found := by
    rcases Option.or_eq_some_iff.mp found with found | ⟨none, found⟩
    · simp [one.cut found]
    · simp [one.fails none, other.cut found]
  fails {cs more} none := by
    obtain ⟨here, there⟩ := Option.or_eq_none_iff.mp none
    simp [one.fails here, other.fails there]

def Stops (p : Char → Bool) (rest : List Char) : Prop := ∀ c ∈ rest.head?, p c = false

theorem stopsCut {p : Char → Bool} {rest more : List Char} (stops : Stops p (rest ++ more)) :
    Stops p rest := by
  cases rest with
  | nil => simp [Stops]
  | cons c rest => simpa [Stops] using stops

theorem stopsDropped (p : Char → Bool) (cs : List Char) : Stops p (cs.dropWhile p) := by
  have head := List.head?_dropWhile_not p cs
  intro c member
  rw [Option.mem_def.mp member] at head
  exact head

theorem allTaken {p : Char → Bool} {cs : List Char} : ∀ c ∈ cs.takeWhile p, p c = true :=
  List.all_eq_true.mp List.all_takeWhile

theorem takeRun {p : Char → Bool} {run rest : List Char} (all : ∀ c ∈ run, p c = true)
    (stops : Stops p rest) : (run ++ rest).takeWhile p = run := by
  rw [List.takeWhile_append_of_pos all]
  cases rest with
  | nil => simp
  | cons c rest => simp [stops c rfl]

theorem dropRun {p : Char → Bool} {run rest : List Char} (all : ∀ c ∈ run, p c = true)
    (stops : Stops p rest) : (run ++ rest).dropWhile p = rest := by
  rw [List.dropWhile_append_of_pos all]
  cases rest with
  | nil => simp
  | cons c rest => simp [stops c rfl]

def leading (start inner : Char → Bool) : List Char → Option Split
  | [] => none
  | c :: cs => if start c then some (c :: cs.takeWhile inner, cs.dropWhile inner) else none

theorem leadingSource {start inner : Char → Bool} {cs a b : List Char}
    (found : leading start inner cs = some (a, b)) :
    ∃ c run, a = c :: run ∧ cs = c :: (run ++ b) ∧ start c = true ∧
      (∀ d ∈ run, inner d = true) ∧ Stops inner b := by
  cases cs with
  | nil => simp [leading] at found
  | cons c cs =>
    rw [leading] at found
    split at found
    · rename_i starts
      cases found
      exact ⟨c, _, rfl, by rw [List.takeWhile_append_dropWhile], starts, allTaken,
        stopsDropped inner cs⟩
    · contradiction

theorem leadingLocal (start inner : Char → Bool) : Local (leading start inner) where
  splits found := by
    obtain ⟨c, run, rfl, rfl, -⟩ := leadingSource found
    simp
  cut {cs more a b} found := by
    obtain ⟨c, run, rfl, whole, starts, all, stops⟩ := leadingSource found
    rw [cutFront (a := c :: run) whole]
    simp [leading, starts, takeRun all (stopsCut stops), dropRun all (stopsCut stops)]
  fails {cs more} none := by
    cases cs with
    | nil => rfl
    | cons c cs =>
      simp only [leading, List.cons_append, ite_eq_right_iff, reduceCtorEq] at none
      simpa [leading] using none

theorem nameLocal : Local name? := by
  have same : name? = leading isNameStart isNameChar := by
    funext cs
    cases cs <;> rfl
  rw [same]
  exact leadingLocal _ _

theorem blankLocal : Local blank? := by
  have same : blank? = leading Text.isBlank Text.isBlank := by
    funext cs
    cases cs <;> rfl
  rw [same]
  exact leadingLocal _ _

inductive Mantissa (digit : Char → Bool) : List Char → List Char → Prop where
  | whole {digits rest} (filled : digits ≠ []) (all : ∀ c ∈ digits, digit c = true)
      (stops : Stops digit rest) (pointless : rest.head? ≠ some '.') :
      Mantissa digit digits rest
  | point {digits part rest} (filled : digits = [] → part ≠ [])
      (all : ∀ c ∈ digits, digit c = true) (allPart : ∀ c ∈ part, digit c = true)
      (stops : Stops digit rest) : Mantissa digit (digits ++ '.' :: part) rest

theorem mantissaSource {digit : Char → Bool} {cs a b : List Char}
    (found : mantissa? digit cs = some (a, b)) : cs = a ++ b ∧ Mantissa digit a b := by
  have whole : cs.takeWhile digit ++ cs.dropWhile digit = cs := List.takeWhile_append_dropWhile
  have stops := stopsDropped digit cs
  unfold mantissa? at found
  dsimp only at found
  split at found
  · rename_i after left
    split at found
    · contradiction
    · rename_i filled
      cases found
      refine ⟨?_, .point ?_ allTaken allTaken (stopsDropped _ _)⟩
      · rw [List.append_assoc, List.cons_append, List.takeWhile_append_dropWhile, ← left, whole]
      · simpa using filled
  · rename_i pointless
    split at found
    · contradiction
    · rename_i filled
      cases found
      refine ⟨whole.symm, .whole (by simpa using filled) allTaken stops ?_⟩
      intro head
      obtain ⟨after, left⟩ := List.head?_eq_some_iff.mp head
      exact pointless after left

theorem mantissaExact {digit : Char → Bool} (noDigit : digit '.' = false) {a b : List Char}
    (mantissa : Mantissa digit a b) : mantissa? digit (a ++ b) = some (a, b) := by
  cases mantissa with
  | whole filled all stops pointless =>
    unfold mantissa?
    dsimp only
    rw [takeRun all stops, dropRun all stops]
    split
    · simp at pointless
    · simp [filled]
  | @point digits part _ filled all allPart stops =>
    have point : Stops digit ('.' :: (part ++ b)) := by simp [Stops, noDigit]
    unfold mantissa?
    dsimp only
    rw [List.append_assoc, List.cons_append, takeRun all point, dropRun all point]
    simp only [takeRun allPart stops, dropRun allPart stops]
    rw [if_neg (by simpa using filled)]

theorem mantissaCut {digit : Char → Bool} {a b more : List Char}
    (mantissa : Mantissa digit a (b ++ more)) : Mantissa digit a b := by
  cases mantissa with
  | whole filled all stops pointless =>
    refine .whole filled all (stopsCut stops) ?_
    cases b with
    | nil => simp
    | cons c b => simpa using pointless
  | point filled all allPart stops => exact .point filled all allPart (stopsCut stops)

theorem mantissaNone {digit : Char → Bool} {c : Char} {cs : List Char} :
    mantissa? digit (c :: cs) = none ↔ digit c = false ∧ (c = '.' → Stops digit cs) := by
  unfold mantissa?
  cases isDigit : digit c with
  | true =>
    simp only [List.takeWhile_cons, isDigit, List.dropWhile_cons]
    split <;> simp
  | false =>
    simp only [List.takeWhile_cons, isDigit, List.dropWhile_cons]
    by_cases point : c = '.'
    · subst point
      cases cs with
      | nil => simp [Stops]
      | cons d cs => cases next : digit d <;> simp [Stops, next]
    · simp [point]

/- An exponent begins: a letter, perhaps a sign, and a digit. -/
inductive Raises (letter : Char → Bool) : List Char → Prop where
  | mk {c mark d rest} (isLetter : letter c = true) (isMark : mark ∈ [[], ['+'], ['-']])
      (isDigit : d.isDigit = true) : Raises letter (c :: (mark ++ d :: rest))

inductive Exponent (letter : Char → Bool) : List Char → List Char → Prop where
  | power {c mark digits rest} (isLetter : letter c = true) (isMark : mark ∈ [[], ['+'], ['-']])
      (filled : digits ≠ []) (all : ∀ d ∈ digits, d.isDigit = true)
      (stops : Stops Char.isDigit rest) : Exponent letter (c :: (mark ++ digits)) rest
  | absent {rest} (none : ¬ Raises letter rest) : Exponent letter [] rest

theorem signSplits (cs : List Char) :
    (sign cs).1 ++ (sign cs).2 = cs ∧ (sign cs).1 ∈ [[], ['+'], ['-']] := by
  cases cs with
  | nil => simp [sign]
  | cons c cs =>
    rw [sign]
    split
    · rename_i isSign
      rcases isSign with rfl | rfl <;> simp
    · simp

theorem signExact {mark : List Char} (isMark : mark ∈ [[], ['+'], ['-']]) {d : Char}
    (isDigit : d.isDigit = true) (rest : List Char) :
    sign (mark ++ d :: rest) = (mark, d :: rest) := by
  have noSign : d ≠ '+' ∧ d ≠ '-' := by
    constructor <;> rintro rfl <;> revert isDigit <;> decide
  simp only [List.mem_cons, List.not_mem_nil, or_false] at isMark
  rcases isMark with rfl | rfl | rfl <;> simp [sign, noSign]

theorem exponentSource {letter : Char → Bool} {cs a b : List Char}
    (found : exponent letter cs = (a, b)) : cs = a ++ b ∧ Exponent letter a b := by
  cases cs with
  | nil =>
    cases found
    exact ⟨rfl, .absent nofun⟩
  | cons c after =>
    obtain ⟨whole, isMark⟩ := signSplits after
    unfold exponent at found
    dsimp only at found
    split at found
    · rename_i powered
      cases found
      simp only [Bool.and_eq_true, Bool.not_eq_true', List.isEmpty_eq_false_iff] at powered
      refine ⟨?_, .power powered.1 isMark powered.2 allTaken (stopsDropped _ _)⟩
      rw [List.cons_append, List.append_assoc, List.takeWhile_append_dropWhile, whole]
    · rename_i powerless
      cases found
      refine ⟨rfl, .absent ?_⟩
      intro raises
      generalize whole : c :: after = cs at raises
      cases raises with
      | mk isLetter marked isDigit =>
        cases whole
        rw [signExact marked isDigit] at powerless
        simp [isLetter, isDigit] at powerless

theorem exponentExact {letter : Char → Bool} {a b : List Char}
    (exponential : Exponent letter a b) : exponent letter (a ++ b) = (a, b) := by
  cases exponential with
  | @power c mark digits _ isLetter isMark filled all stops =>
    obtain ⟨d, more, rfl⟩ := List.exists_cons_of_ne_nil filled
    have signed := signExact isMark (all d List.mem_cons_self) (more ++ b)
    rw [← List.cons_append] at signed
    rw [List.cons_append, List.append_assoc, exponent, signed]
    dsimp only
    rw [takeRun all stops, dropRun all stops]
    simp [isLetter]
  | absent none =>
    rcases found : exponent letter b with ⟨a, rest⟩
    obtain ⟨rfl, exponential⟩ := exponentSource found
    cases exponential with
    | @power c mark digits _ isLetter isMark filled all stops =>
      obtain ⟨d, more, rfl⟩ := List.exists_cons_of_ne_nil filled
      refine absurd ?_ none
      have raises : Raises letter (c :: (mark ++ d :: (more ++ rest))) :=
        .mk isLetter isMark (all d List.mem_cons_self)
      simpa using raises
    | absent _ => exact found

theorem raisesMore {letter : Char → Bool} {cs : List Char} (more : List Char)
    (raises : Raises letter cs) : Raises letter (cs ++ more) := by
  cases raises with
  | @mk c mark d rest isLetter isMark isDigit =>
    rw [List.cons_append, List.append_assoc]
    exact .mk isLetter isMark isDigit

theorem exponentCut {letter : Char → Bool} {a b more : List Char}
    (exponential : Exponent letter a (b ++ more)) : Exponent letter a b := by
  cases exponential with
  | power isLetter isMark filled all stops =>
    exact .power isLetter isMark filled all (stopsCut stops)
  | absent none => exact .absent fun raises => none (raisesMore more raises)

theorem numeralSource {digit letter : Char → Bool} {cs a b : List Char}
    (found : numeral? digit letter cs = some (a, b)) :
    ∃ m e, a = m ++ e ∧ cs = m ++ (e ++ b) ∧ Mantissa digit m (e ++ b) ∧ Exponent letter e b := by
  obtain ⟨⟨m, rest⟩, front, last⟩ := Option.map_eq_some_iff.mp found
  rcases back : exponent letter rest with ⟨e, b'⟩
  rw [back] at last
  cases last
  obtain ⟨rfl, mantissa⟩ := mantissaSource front
  obtain ⟨rfl, exponential⟩ := exponentSource back
  exact ⟨m, e, rfl, rfl, mantissa, exponential⟩

theorem numeralExact {digit letter : Char → Bool} (noDigit : digit '.' = false)
    {m e b : List Char} (mantissa : Mantissa digit m (e ++ b)) (exponential : Exponent letter e b) :
    numeral? digit letter (m ++ (e ++ b)) = some (m ++ e, b) := by
  rw [numeral?, mantissaExact noDigit mantissa, Option.map_some, exponentExact exponential]

theorem numeralLocal {digit letter : Char → Bool} (noDigit : digit '.' = false) :
    Local (numeral? digit letter) where
  splits found := by
    obtain ⟨m, e, rfl, rfl, mantissa, -⟩ := numeralSource found
    refine ⟨(List.append_assoc _ _ _).symm, ?_⟩
    cases mantissa with
    | whole filled => simp [filled]
    | point => simp
  cut found := by
    obtain ⟨m, e, rfl, whole, mantissa, exponential⟩ := numeralSource found
    rw [← List.append_assoc] at whole mantissa
    rw [cutFront whole, List.append_assoc]
    exact numeralExact noDigit (mantissaCut mantissa) (exponentCut exponential)
  fails {cs more} none := by
    rw [numeral?, Option.map_eq_none_iff] at none ⊢
    cases cs with
    | nil => rfl
    | cons c cs =>
      obtain ⟨noDigit, pointed⟩ := mantissaNone.mp none
      exact mantissaNone.mpr ⟨noDigit, fun point => stopsCut (pointed point)⟩

theorem hexadecimalSource {cs a b : List Char} (found : hexadecimal? cs = some (a, b)) :
    ∃ x digits rest, (x = 'x' ∨ x = 'X') ∧ cs = '0' :: x :: rest ∧ a = '0' :: x :: digits ∧
      numeral? isHexDigit (fun c => c == 'p' || c == 'P') rest = some (digits, b) := by
  unfold hexadecimal? at found
  split at found
  · rename_i x rest
    split at found
    · rename_i isHex
      obtain ⟨⟨digits, b'⟩, inner, last⟩ := Option.map_eq_some_iff.mp found
      cases last
      exact ⟨x, digits, rest, isHex, rfl, rfl, inner⟩
    · contradiction
  · contradiction

theorem hexadecimalExact {x : Char} (isHex : x = 'x' ∨ x = 'X') (rest : List Char) :
    hexadecimal? ('0' :: x :: rest) =
      (numeral? isHexDigit (fun c => c == 'p' || c == 'P') rest).map
        fun s => ('0' :: x :: s.1, s.2) := by
  simp [hexadecimal?, isHex]

theorem hexadecimalLocal : Local hexadecimal? := by
  have digits : Local (numeral? isHexDigit fun c => c == 'p' || c == 'P') :=
    numeralLocal (by decide)
  refine ⟨?_, ?_, ?_⟩
  · intro cs a b found
    obtain ⟨x, front, rest, -, rfl, rfl, inner⟩ := hexadecimalSource found
    simp [(digits.splits inner).1]
  · intro cs more a b found
    obtain ⟨x, front, rest, isHex, whole, rfl, inner⟩ := hexadecimalSource found
    rw [(digits.splits inner).1] at whole inner
    rw [cutFront (a := '0' :: x :: front) whole]
    rw [← List.append_assoc] at inner
    simp [hexadecimalExact isHex, digits.cut inner]
  · intro cs more none
    rw [Option.eq_none_iff_forall_ne_some]
    rintro ⟨a, b⟩ found
    obtain ⟨x, front, rest, isHex, rfl, rfl, inner⟩ := hexadecimalSource found
    rw [List.cons_append, List.cons_append, hexadecimalExact isHex, Option.map_eq_none_iff] at none
    rw [digits.fails none] at inner
    contradiction

theorem numberLocal : Local number? :=
  .or hexadecimalLocal (numeralLocal (by decide))

theorem prefixCut {o cs more b : List Char} (whole : cs ++ more = o ++ (b ++ more)) :
    o.isPrefixOf cs = true := by
  rw [List.isPrefixOf_iff_prefix, cutFront whole]
  exact List.prefix_append o b

theorem prefixMore {o cs : List Char} (more : List Char) (front : o.isPrefixOf cs = true) :
    o.isPrefixOf (cs ++ more) = true := by
  rw [List.isPrefixOf_iff_prefix] at front ⊢
  exact List.prefix_append_of_prefix front

theorem prefixSelf (o rest : List Char) : o.isPrefixOf (o ++ rest) = true :=
  List.isPrefixOf_iff_prefix.mpr (List.prefix_append o rest)

theorem prefixDrop {o cs : List Char} (front : o.isPrefixOf cs = true) :
    cs = o ++ cs.drop o.length :=
  (List.prefix_iff_eq_append.mp (List.isPrefixOf_iff_prefix.mp front)).symm

def longOperator? (cs : List Char) : Option (List Char) :=
  longOperators.find? (·.isPrefixOf cs)

theorem operatorCons (c : Char) (cs : List Char) :
    operator? (c :: cs) = match longOperator? (c :: cs) with
      | some o => some (o, (c :: cs).drop o.length)
      | none => if isOperatorChar c then some ([c], cs) else none := rfl

theorem longFront {cs o : List Char} (found : longOperator? cs = some o) :
    o.isPrefixOf cs = true ∧ o ≠ [] := by
  have filled : ∀ o ∈ longOperators, o ≠ [] := by decide
  refine ⟨?_, filled o (List.mem_of_find?_eq_some found)⟩
  have front := List.find?_some found
  exact front

theorem longFails {cs more : List Char} (absent : longOperator? (cs ++ more) = none) :
    longOperator? cs = none := by
  rw [longOperator?, List.find?_eq_none] at absent ⊢
  exact fun o member front => absent o member (prefixMore more front)

theorem longCut {cs more o : List Char} (front : o.isPrefixOf cs = true)
    (found : longOperator? (cs ++ more) = some o) : longOperator? cs = some o := by
  obtain ⟨-, before, after, split, others⟩ := List.find?_eq_some_iff_append.mp found
  refine List.find?_eq_some_iff_append.mpr ⟨front, before, after, split, ?_⟩
  intro other member
  have longer := others other member
  cases shorter : other.isPrefixOf cs with
  | false => rfl
  | true => simp [prefixMore more shorter] at longer

theorem operatorSource {cs a b : List Char} (found : operator? cs = some (a, b)) :
    cs = a ++ b ∧ a ≠ [] ∧ (longOperator? cs = some a ∨
      longOperator? cs = none ∧ ∃ c, a = [c] ∧ isOperatorChar c = true) := by
  cases cs with
  | nil => contradiction
  | cons c cs =>
    rw [operatorCons] at found
    split at found
    · rename_i o isLong
      cases found
      obtain ⟨front, filled⟩ := longFront isLong
      exact ⟨prefixDrop front, filled, .inl isLong⟩
    · rename_i absent
      split at found
      · rename_i isOperator
        cases found
        exact ⟨rfl, by simp, .inr ⟨absent, c, rfl, isOperator⟩⟩
      · contradiction

theorem operatorLocal : Local operator? where
  splits found := by
    obtain ⟨whole, filled, -⟩ := operatorSource found
    exact ⟨whole, filled⟩
  cut {cs more a b} found := by
    obtain ⟨whole, filled, isLong | ⟨absent, c, rfl, isOperator⟩⟩ := operatorSource found
    · have short := longCut (prefixCut whole) isLong
      obtain ⟨c, front, rfl⟩ := List.exists_cons_of_ne_nil filled
      rw [cutFront whole] at short ⊢
      rw [List.cons_append, operatorCons, ← List.cons_append, short]
      simp
    · rw [cutFront whole] at absent ⊢
      have short := longFails absent
      rw [List.singleton_append] at short ⊢
      rw [operatorCons, short]
      simp [isOperator]
  fails {cs more} absent := by
    cases cs with
    | nil => rfl
    | cons c cs =>
      rw [List.cons_append, operatorCons, ← List.cons_append] at absent
      split at absent
      · contradiction
      · rename_i noLong
        rw [operatorCons, longFails noLong]
        simpa using absent

/-! Closed lexemes: what follows them does not matter at all. -/

structure Closed (rule : List Char → Option Split) : Prop where
  splits {cs a b} : rule cs = some (a, b) → cs = a ++ b ∧ a ≠ []
  rest {cs a b} : rule cs = some (a, b) → ∀ other, rule (a ++ other) = some (a, other)

theorem Closed.isLocal {rule : List Char → Option Split} (closed : Closed rule) : Local rule where
  splits := closed.splits
  cut found := by
    rw [cutFront (closed.splits found).1]
    exact closed.rest found _
  fails {cs more} absent := by
    rw [Option.eq_none_iff_forall_ne_some]
    rintro ⟨a, b⟩ found
    have longer := closed.rest found (b ++ more)
    rw [← List.append_assoc, ← (closed.splits found).1, absent] at longer
    contradiction

theorem quotedEndPlain {quote c : Char} (plain : c ≠ '\\') (skipping : Bool) (cs : List Char) :
    quotedEnd? quote skipping (c :: cs) =
      if c = quote then some ([c], cs) else if c = '\n' ∧ ¬ skipping then none
      else (quotedEnd? quote (skipping && Text.isBlank c) cs).map fun s => (c :: s.1, s.2) := by
  rw [quotedEnd?]
  · simp [plain]
  · simp [plain]

theorem quotedEndSource {quote : Char} (noEscape : quote ≠ '\\') {skipping : Bool}
    {cs a b : List Char} (found : quotedEnd? quote skipping cs = some (a, b)) :
    cs = a ++ b ∧ a ≠ [] ∧ ∀ other, quotedEnd? quote skipping (a ++ other) = some (a, other) := by
  fun_induction quotedEnd? quote skipping cs generalizing a b with
  | case1 => contradiction
  | case2 skipping c cs ih =>
    obtain ⟨⟨inner, rest⟩, deeper, last⟩ := Option.map_eq_some_iff.mp found
    cases last
    obtain ⟨rfl, -, closed⟩ := ih deeper
    refine ⟨rfl, nofun, fun other => ?_⟩
    simp [quotedEnd?, closed]
  | case3 skipping cs =>
    cases found
    refine ⟨rfl, nofun, fun other => ?_⟩
    rw [List.singleton_append, quotedEndPlain noEscape, if_pos rfl]
  | case4 => contradiction
  | case5 => contradiction
  | case6 skipping c cs _ noQuote plain inLine ih =>
    obtain ⟨⟨inner, rest⟩, deeper, last⟩ := Option.map_eq_some_iff.mp found
    cases last
    obtain ⟨rfl, -, closed⟩ := ih deeper
    refine ⟨rfl, nofun, fun other => ?_⟩
    rw [List.cons_append, quotedEndPlain plain, if_neg noQuote, if_neg inLine, closed]
    rfl

theorem quotedClosed : Closed quoted? := by
  have source {cs a b : List Char} (found : quoted? cs = some (a, b)) :
      cs = a ++ b ∧ a ≠ [] ∧ ∀ other, quoted? (a ++ other) = some (a, other) := by
    cases cs with
    | nil => contradiction
    | cons c cs =>
      rw [quoted?] at found
      split at found
      · rename_i isQuote
        obtain ⟨⟨inner, rest⟩, deeper, last⟩ := Option.map_eq_some_iff.mp found
        cases last
        have noEscape : c ≠ '\\' := by rcases isQuote with rfl | rfl <;> decide
        obtain ⟨rfl, -, closed⟩ := quotedEndSource noEscape deeper
        refine ⟨rfl, nofun, fun other => ?_⟩
        rw [List.cons_append, quoted?, if_pos isQuote, closed]
        rfl
      · contradiction
  exact ⟨fun found => ⟨(source found).1, (source found).2.1⟩, fun found => (source found).2.2⟩

theorem throughSource {mark : List Char} (filled : mark ≠ []) {cs a b : List Char}
    (found : through? mark cs = some (a, b)) :
    cs = a ++ b ∧ mark.length ≤ a.length ∧
      ∀ other, through? mark (a ++ other) = some (a, other) := by
  induction cs generalizing a b with
  | nil => contradiction
  | cons c cs ih =>
    rw [through?] at found
    split at found
    · rename_i front
      cases found
      refine ⟨prefixDrop front, Nat.le_refl _, fun other => ?_⟩
      obtain ⟨d, more, rfl⟩ := List.exists_cons_of_ne_nil filled
      rw [List.cons_append, through?, ← List.cons_append, if_pos (prefixSelf _ _), List.drop_left]
    · rename_i noFront
      obtain ⟨⟨inner, rest⟩, deeper, last⟩ := Option.map_eq_some_iff.mp found
      cases last
      obtain ⟨rfl, long, closed⟩ := ih deeper
      refine ⟨rfl, Nat.le_succ_of_le long, fun other => ?_⟩
      -- A mark in front would end inside the lexeme.
      have still : ¬ mark.isPrefixOf (c :: inner ++ other) = true := by
        intro front
        have inside : mark <+: c :: inner :=
          List.prefix_of_prefix_length_le (List.isPrefixOf_iff_prefix.mp front)
            (List.prefix_append _ _) (Nat.le_succ_of_le long)
        exact noFront (prefixMore rest (List.isPrefixOf_iff_prefix.mpr inside))
      rw [List.cons_append, through?, ← List.cons_append, if_neg still, closed]
      rfl

theorem throughNone {mark : List Char} (filled : mark ≠ []) {cs : List Char}
    (absent : through? mark cs = none) : ¬ mark <:+: cs := by
  induction cs with
  | nil => simpa using filled
  | cons c cs ih =>
    rw [through?] at absent
    split at absent
    · contradiction
    · rename_i noFront
      rw [Option.map_eq_none_iff] at absent
      rw [List.infix_cons_iff, ← List.isPrefixOf_iff_prefix]
      exact fun inside => inside.elim noFront (ih absent)

theorem longLevelExact (level : Nat) (rest : List Char) :
    longLevel? (longOpener level ++ rest) = some level := by
  have all : ∀ c ∈ List.replicate level '=', decide (c = '=') = true := by simp
  have stops : Stops (fun c => decide (c = '=')) ('[' :: rest) := by simp [Stops]
  have run : List.replicate level '=' ++ ['['] ++ rest =
      List.replicate level '=' ++ '[' :: rest := by simp
  simp [longOpener, longLevel?, run, takeRun all stops, dropRun all stops]

theorem longLevelSource {cs : List Char} {level : Nat} (found : longLevel? cs = some level) :
    ∃ rest, cs = longOpener level ++ rest := by
  unfold longLevel? at found
  split at found
  · rename_i cs
    split at found
    · rename_i rest left
      cases found
      have whole : cs.takeWhile (· = '=') ++ cs.dropWhile (· = '=') = cs :=
        List.takeWhile_append_dropWhile
      have run : cs.takeWhile (· = '=') = List.replicate (cs.takeWhile (· = '=')).length '=' :=
        List.eq_replicate_iff.mpr ⟨rfl, fun c member => by simpa using allTaken c member⟩
      refine ⟨rest, ?_⟩
      rw [longOpener, ← run]
      simpa [left] using whole.symm
    · contradiction
  · contradiction

theorem longLevelFails {cs more : List Char} (absent : longLevel? (cs ++ more) = none) :
    longLevel? cs = none := by
  rw [Option.eq_none_iff_forall_ne_some]
  intro level found
  obtain ⟨rest, rfl⟩ := longLevelSource found
  rw [List.append_assoc, longLevelExact] at absent
  contradiction

theorem longBracketExact (level : Nat) (rest : List Char) :
    longBracket? level (longOpener level ++ rest) =
      (through? (longCloser level) rest).map fun s => (longOpener level ++ s.1, s.2) := by
  rw [longBracket?, List.drop_left]

theorem closerFilled (level : Nat) : longCloser level ≠ [] := nofun

theorem longBracketSource {cs a b : List Char} {level : Nat} (opens : longLevel? cs = some level)
    (found : longBracket? level cs = some (a, b)) :
    cs = a ++ b ∧ a ≠ [] ∧ ∀ other,
      longLevel? (a ++ other) = some level ∧ longBracket? level (a ++ other) = some (a, other) := by
  obtain ⟨rest, rfl⟩ := longLevelSource opens
  rw [longBracketExact] at found
  obtain ⟨⟨inner, b'⟩, ends, last⟩ := Option.map_eq_some_iff.mp found
  cases last
  obtain ⟨rfl, -, closed⟩ := throughSource (closerFilled level) ends
  refine ⟨(List.append_assoc _ _ _).symm, nofun, fun other => ?_⟩
  rw [List.append_assoc, longLevelExact, longBracketExact, closed]
  exact ⟨rfl, rfl⟩

structure Faithful (scan : List Char → Result) : Prop where
  splits {cs kind a b} : scan cs = .lexeme kind a b → cs = a ++ b ∧ a ≠ []
  cut {cs more kind a b} :
    scan (cs ++ more) = .lexeme kind a (b ++ more) → scan cs = .lexeme kind a b

theorem Faithful.ofLast {rule : List Char → Option Split} (isLocal : Local rule) (kind : Kind)
    (cause : List Char → Cause) : Faithful fun cs => .of kind (cause cs) (rule cs) where
  splits {cs kind a b} found := by
    cases applied : rule cs with
    | none => rw [applied] at found; contradiction
    | some s =>
      rw [applied] at found
      cases found
      exact isLocal.splits applied
  cut {cs more kind a b} found := by
    cases applied : rule (cs ++ more) with
    | none => rw [applied] at found; contradiction
    | some s =>
      rw [applied] at found
      obtain ⟨front, rest⟩ := s
      cases found
      rw [isLocal.cut applied]
      rfl

theorem Faithful.ofFirst {rule : List Char → Option Split} {later : List Char → Result}
    (isLocal : Local rule) (kind : List Char → Kind) (faithful : Faithful later) :
    Faithful fun cs => match rule cs with
      | some s => .lexeme (kind s.1) s.1 s.2
      | none => later cs where
  splits {cs kind a b} found := by
    cases applied : rule cs with
    | none => rw [applied] at found; exact faithful.splits found
    | some s =>
      rw [applied] at found
      cases found
      exact isLocal.splits applied
  cut {cs more kind a b} found := by
    cases applied : rule (cs ++ more) with
    | none =>
      rw [applied] at found
      rw [isLocal.fails applied]
      exact faithful.cut found
    | some s =>
      rw [applied] at found
      obtain ⟨front, rest⟩ := s
      cases found
      rw [isLocal.cut applied]

theorem plainFaithful : Faithful plain :=
  .ofFirst quotedClosed.isLocal (fun _ => .string) <|
  .ofFirst numberLocal (fun _ => .number) <|
  .ofFirst nameLocal nameKind <|
  .ofFirst blankLocal (fun _ => .space) <|
  .ofLast operatorLocal .op _

def bracketOr (kind : Kind) (cause : Nat → Cause) (later : List Char → Result)
    (cs : List Char) : Result :=
  match longLevel? cs with
  | some level => .of kind (cause level) (longBracket? level cs)
  | none => later cs

theorem Faithful.ofBracket {later : List Char → Result} (kind : Kind) (cause : Nat → Cause)
    (faithful : Faithful later) : Faithful (bracketOr kind cause later) where
  splits {cs kind a b} found := by
    unfold bracketOr at found
    split at found
    · rename_i level opens
      cases ends : longBracket? level cs with
      | none => rw [ends] at found; contradiction
      | some s =>
        rw [ends] at found
        cases found
        obtain ⟨whole, filled, -⟩ := longBracketSource opens ends
        exact ⟨whole, filled⟩
    · exact faithful.splits found
  cut {cs more kind a b} found := by
    unfold bracketOr at found
    split at found
    · rename_i level opens
      cases ends : longBracket? level (cs ++ more) with
      | none => rw [ends] at found; contradiction
      | some s =>
        obtain ⟨front, rest⟩ := s
        rw [ends] at found
        cases found
        obtain ⟨whole, -, closed⟩ := longBracketSource opens ends
        rw [cutFront whole, bracketOr, (closed b).1]
        simp [(closed b).2, Result.of]
    · rename_i opens
      rw [bracketOr, longLevelFails opens]
      exact faithful.cut found

theorem commentSource {after a b : List Char} {kind : Kind}
    (found : comment after = .lexeme kind a b) :
    ∃ inner, a = '-' :: '-' :: inner ∧ after = inner ++ b ∧
      ∀ front more, b = front ++ more → comment (inner ++ front) = .lexeme kind a front := by
  unfold comment at found
  split at found
  · rename_i level opens
    cases ends : longBracket? level after with
    | none => rw [ends] at found; contradiction
    | some s =>
      rw [ends] at found
      cases found
      obtain ⟨whole, -, closed⟩ := longBracketSource opens ends
      refine ⟨s.1, rfl, whole, fun front more _ => ?_⟩
      rw [comment, (closed front).1]
      simp [(closed front).2, Result.of]
  · rename_i short
    cases found
    refine ⟨_, rfl, List.takeWhile_append_dropWhile.symm, fun front more split => ?_⟩
    have stops : Stops (· != '\n') front := stopsCut (split ▸ stopsDropped _ after)
    have shorter : longLevel? (after.takeWhile (· != '\n') ++ front) = none := by
      have whole : longLevel? (after.takeWhile (· != '\n') ++ front ++ more) = none := by
        rwa [List.append_assoc, ← split, List.takeWhile_append_dropWhile]
      exact longLevelFails whole
    rw [comment, shorter]
    simp only [takeRun allTaken stops, dropRun allTaken stops]

theorem firstOther {cs : List Char} (noComment : ¬ ∃ after, cs = '-' :: '-' :: after) :
    first cs = bracketOr .string
      (fun level => .unfinishedLongString (String.ofList (longOpener level))) plain cs := by
  unfold first
  split
  · exact absurd ⟨_, rfl⟩ noComment
  · rfl

theorem firstFaithful : Faithful first := by
  have other := Faithful.ofBracket .string
    (fun level => .unfinishedLongString (String.ofList (longOpener level))) plainFaithful
  refine ⟨?_, ?_⟩
  · intro cs kind a b found
    by_cases isComment : ∃ after, cs = '-' :: '-' :: after
    · obtain ⟨after, rfl⟩ := isComment
      obtain ⟨inner, rfl, rfl, -⟩ := commentSource found
      exact ⟨rfl, nofun⟩
    · rw [firstOther isComment] at found
      exact other.splits found
  · intro cs more kind a b found
    by_cases isComment : ∃ after, cs ++ more = '-' :: '-' :: after
    · obtain ⟨after, whole⟩ := isComment
      rw [whole] at found
      obtain ⟨inner, rfl, rfl, cut⟩ := commentSource found
      rw [cutFront (a := '-' :: '-' :: inner) whole]
      exact cut b more rfl
    · have shorter : ¬ ∃ after, cs = '-' :: '-' :: after := by
        rintro ⟨after, rfl⟩
        exact isComment ⟨after ++ more, rfl⟩
      rw [firstOther isComment] at found
      rw [firstOther shorter]
      exact other.cut found

theorem firstKind {cs a b : List Char} {kind : Kind} (found : first cs = .lexeme kind a b) :
    kind ≠ .eof := by
  rintro rfl
  unfold first comment plain nameKind Result.of at found
  repeat' split at found
  all_goals cases found

theorem ofKind {kind found : Kind} {cause : Cause} {answer : Option Split} {a b : List Char}
    (applied : Result.of kind cause answer = .lexeme found a b) : found = kind := by
  cases answer with
  | none => contradiction
  | some s =>
    cases applied
    rfl

theorem firstBracketless {cs a b : List Char} {kind : Kind}
    (bracketless : kind ≠ .comment ∧ kind ≠ .string) (found : first cs = .lexeme kind a b) :
    plain cs = .lexeme kind a b := by
  unfold first at found
  split at found
  · unfold comment at found
    split at found
    · exact absurd (ofKind found) bracketless.1
    · cases found
      exact absurd rfl bracketless.1
  · split at found
    · exact absurd (ofKind found) bracketless.2
    · exact found

theorem nameKindWord (text : List Char) : nameKind text = .keyword ∨ nameKind text = .iden := by
  unfold nameKind
  split
  · exact .inl rfl
  · exact .inr rfl

theorem plainRule {cs a b : List Char} {kind : Kind} (found : plain cs = .lexeme kind a b) :
    quoted? cs = some (a, b) ∧ kind = .string ∨ number? cs = some (a, b) ∧ kind = .number ∨
      name? cs = some (a, b) ∧ kind = nameKind a ∨ blank? cs = some (a, b) ∧ kind = .space ∨
      operator? cs = some (a, b) ∧ name? cs = none ∧ kind = .op := by
  unfold plain at found
  split at found
  · rename_i quoted
    cases found
    exact .inl ⟨quoted, rfl⟩
  split at found
  · rename_i number
    cases found
    exact .inr (.inl ⟨number, rfl⟩)
  split at found
  · rename_i named
    cases found
    exact .inr (.inr (.inl ⟨named, rfl⟩))
  rename_i noName
  split at found
  · rename_i blank
    cases found
    exact .inr (.inr (.inr (.inl ⟨blank, rfl⟩)))
  cases operator : operator? cs with
  | none => rw [operator] at found; contradiction
  | some s =>
    rw [operator] at found
    cases found
    exact .inr (.inr (.inr (.inr ⟨rfl, noName, rfl⟩)))

theorem plainNumber {cs a b : List Char} (found : plain cs = .lexeme .number a b) :
    number? cs = some (a, b) := by
  rcases plainRule found with
    ⟨-, same⟩ | ⟨number, -⟩ | ⟨-, same⟩ | ⟨-, same⟩ | ⟨-, -, same⟩
  · contradiction
  · exact number
  · rcases nameKindWord a with word | word <;> simp [word] at same
  · contradiction
  · contradiction

theorem plainSpace {cs a b : List Char} (found : plain cs = .lexeme .space a b) :
    blank? cs = some (a, b) := by
  rcases plainRule found with
    ⟨-, same⟩ | ⟨-, same⟩ | ⟨-, same⟩ | ⟨blank, -⟩ | ⟨-, -, same⟩
  · contradiction
  · contradiction
  · rcases nameKindWord a with word | word <;> simp [word] at same
  · exact blank
  · contradiction

/- The rule that has brought in a word or an operator. -/
inductive Origin (cs a b : List Char) : Kind → Prop where
  | name (found : name? cs = some (a, b)) : Origin cs a b (nameKind a)
  | operator (found : operator? cs = some (a, b)) (noName : name? cs = none) : Origin cs a b .op
  | other {kind} (inert : kind ≠ .iden ∧ kind ≠ .keyword ∧ kind ≠ .op) : Origin cs a b kind

theorem bracketOrigin {cs a b : List Char} {kind found : Kind} {cause : Cause}
    {answer : Option Split} (inert : kind ≠ .iden ∧ kind ≠ .keyword ∧ kind ≠ .op)
    (ended : Result.of kind cause answer = .lexeme found a b) : Origin cs a b found := by
  cases answer with
  | none => contradiction
  | some s =>
    cases ended
    exact .other inert

theorem plainOrigin {cs a b : List Char} {kind : Kind} (found : plain cs = .lexeme kind a b) :
    Origin cs a b kind := by
  rcases plainRule found with
    ⟨-, rfl⟩ | ⟨-, rfl⟩ | ⟨named, rfl⟩ | ⟨-, rfl⟩ | ⟨operator, noName, rfl⟩
  · exact .other (by simp)
  · exact .other (by simp)
  · exact .name named
  · exact .other (by simp)
  · exact .operator operator noName

theorem firstOrigin {cs a b : List Char} {kind : Kind} (found : first cs = .lexeme kind a b) :
    Origin cs a b kind := by
  unfold first at found
  split at found
  · unfold comment at found
    split at found
    · exact bracketOrigin (by simp) found
    · cases found
      exact .other (by simp)
  · split at found
    · exact bracketOrigin (by simp) found
    · exact plainOrigin found

inductive Unfinished : List Char → Prop where
  | quote {q rest} (isQuote : q = '"' ∨ q = '\'') : Unfinished (q :: rest)
  | bracket {dashes level rest} (isFront : dashes = [] ∨ dashes = ['-', '-'])
      (never : ¬ longCloser level <:+: rest) : Unfinished (dashes ++ (longOpener level ++ rest))

theorem bracketNone {cs : List Char} {level : Nat} (opens : longLevel? cs = some level)
    (absent : longBracket? level cs = none) :
    ∃ rest, cs = longOpener level ++ rest ∧ ¬ longCloser level <:+: rest := by
  obtain ⟨rest, rfl⟩ := longLevelSource opens
  rw [longBracketExact, Option.map_eq_none_iff] at absent
  exact ⟨rest, rfl, throughNone (closerFilled level) absent⟩

-- A character that is no quote begins a number, a name, a blank or an operator.
theorem plainFails {c : Char} {cs : List Char} {cause : Cause}
    (found : plain (c :: cs) = .unfinished cause) :
    cause.kind = .unexpectedToken ∧ (c = '"' ∨ c = '\'') := by
  unfold plain at found
  split at found
  · contradiction
  split at found
  · contradiction
  rename_i noNumber
  split at found
  · contradiction
  rename_i noName
  split at found
  · contradiction
  rename_i noBlank
  cases operator : operator? (c :: cs) with
  | some s => rw [operator] at found; contradiction
  | none =>
    rw [operator] at found
    cases found
    refine ⟨rfl, ?_⟩
    have noDigit : c.isDigit = false := by
      obtain ⟨-, noDecimal⟩ := Option.or_eq_none_iff.mp noNumber
      exact (mantissaNone.mp (Option.map_eq_none_iff.mp noDecimal)).1
    have noStart : isNameStart c = false := by simpa [name?] using noName
    have notBlank : Text.isBlank c = false := by simpa [blank?] using noBlank
    have noOperator : isOperatorChar c = false := by
      rw [operatorCons] at operator
      split at operator
      · contradiction
      · simpa using operator
    simp only [isNameStart, Bool.or_eq_false_iff] at noStart
    simp only [isOperatorChar, isNameChar, Char.isAlphanum, notBlank, noStart, noDigit] at noOperator
    simpa [Classical.or_iff_not_imp_left] using noOperator

theorem firstFails {c : Char} {cs : List Char} {cause : Cause}
    (found : first (c :: cs) = .unfinished cause) :
    cause.kind = .unexpectedToken ∧ Unfinished (c :: cs) := by
  by_cases isComment : ∃ after, c :: cs = '-' :: '-' :: after
  · obtain ⟨after, whole⟩ := isComment
    rw [whole] at found ⊢
    change comment after = _ at found
    unfold comment at found
    split at found
    · rename_i level opens
      cases ends : longBracket? level after with
      | some s => rw [ends] at found; contradiction
      | none =>
        rw [ends] at found
        cases found
        obtain ⟨rest, rfl, never⟩ := bracketNone opens ends
        exact ⟨rfl, .bracket (.inr rfl) never⟩
    · contradiction
  · rw [firstOther isComment, bracketOr] at found
    split at found
    · rename_i level opens
      cases ends : longBracket? level (c :: cs) with
      | some s => rw [ends] at found; contradiction
      | none =>
        rw [ends] at found
        cases found
        obtain ⟨rest, whole, never⟩ := bracketNone opens ends
        rw [whole]
        exact ⟨rfl, .bracket (.inl rfl) never⟩
    · obtain ⟨kind, isQuote⟩ := plainFails found
      exact ⟨kind, .quote isQuote⟩

end LuaExpander.Lexeme
