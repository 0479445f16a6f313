import LuaExpander.Proofs.Heading
import LuaExpander.Proofs.Loops
import LuaExpander.Proofs.Rounding
import Mathlib.Data.Nat.Digits.Defs

/-! Number literals. The lexer and the reader of numbers have grammars of their own, and the reader
looks at a text in lower case. Every literal that the lexer finds is read: digits alone as an
integer, unless they are decimal and too many, and all else as a float. Only a hexadecimal float can
be too large; a decimal one becomes infinite. -/
namespace LuaExpander

namespace Numeral

open Lexeme

def placeValue (base : Nat) (digits : List Char) : Nat :=
  Nat.ofDigits base (digits.map digitValue).reverse

inductive IsInteger : List Char → Int → Prop where
  | hexadecimal {x digits} (isHex : x = 'x' ∨ x = 'X') (filled : digits ≠ [])
      (all : ∀ c ∈ digits, isHexDigit c = true) :
      IsInteger ('0' :: x :: digits) (placeValue 16 digits)
  | decimal {digits} (filled : digits ≠ []) (all : ∀ c ∈ digits, c.isDigit = true)
      (short : digits.length ≤ 4300) : IsInteger digits (placeValue 10 digits)

/- The digits before and behind the point of a text, which need not have one. -/
inductive Pointed (digit : Char → Bool) : List Char → List Char → List Char → Prop where
  | whole {digits} (filled : digits ≠ []) (all : ∀ c ∈ digits, digit c = true) :
      Pointed digit digits digits []
  | point {digits part} (filled : digits ++ part ≠ [])
      (all : ∀ c ∈ digits ++ part, digit c = true) :
      Pointed digit (digits ++ '.' :: part) digits part

inductive Power (letter : Char → Bool) : List Char → Int → Prop where
  | absent : Power letter [] 0
  | raised {c mark digits} (isLetter : letter c = true) (isMark : mark ∈ [[], ['+'], ['-']])
      (filled : digits ≠ []) (all : ∀ d ∈ digits, d.isDigit = true) :
      Power letter (c :: (mark ++ digits))
        (if mark = ['-'] then -placeValue 10 digits else placeValue 10 digits)

/- A hexadecimal literal that has a point or an exponent, which is one of two. -/
inductive IsHexFloat : List Char → ℚ → Prop where
  | mk {x mantissa digits part exponent power} (isHex : x = 'x' ∨ x = 'X')
      (pointed : Pointed isHexDigit mantissa digits part)
      (raised : Power (fun c => c == 'p' || c == 'P') exponent power)
      (isFloat : '.' ∈ mantissa ∨ exponent ≠ []) :
      IsHexFloat ('0' :: x :: (mantissa ++ exponent))
        (placeValue 16 (digits ++ part) * 2 ^ (power - 4 * part.length))

theorem positionalPlaces (base : Nat) (digits : List Char) :
    positionalValue base digits = placeValue base digits := by
  induction digits using List.reverseRecOn with
  | nil => rfl
  | append_singleton digits c ih =>
    rw [positionalValue, List.foldl_append] at *
    rw [ih, placeValue, placeValue, List.map_append, List.reverse_append]
    simp [Nat.ofDigits_cons, Nat.add_comm]

def hexDigitChars : List Char :=
  digitChars ++ ['a', 'b', 'c', 'd', 'e', 'f', 'A', 'B', 'C', 'D', 'E', 'F']

def numeralChars : List Char := hexDigitChars ++ ['x', 'X', 'p', 'P', '.', '+', '-']

def decimalChars : List Char := digitChars ++ ['e', 'E', '.', '+', '-']

theorem hexDigitAmong {c : Char} (isHex : isHexDigit c = true) : c ∈ hexDigitChars := by
  have found (codes : List Nat) (listed : ∀ code ∈ codes, Char.ofNat code ∈ hexDigitChars)
      (member : c.toNat ∈ codes) : c ∈ hexDigitChars := by
    have isListed := listed c.toNat member
    rwa [Char.ofNat_toNat] at isListed
  simp only [isHexDigit, Bool.or_eq_true, Bool.and_eq_true, decide_eq_true_eq] at isHex
  rcases isHex with (isDigit | lower) | upper
  · exact List.mem_append_left _ (digitAmong isDigit)
  · refine found (List.range' 97 6) (by decide) ?_
    have range : 97 ≤ c.toNat ∧ c.toNat ≤ 102 := lower
    rw [List.mem_range'_1]
    omega
  · refine found (List.range' 65 6) (by decide) ?_
    have range : 65 ≤ c.toNat ∧ c.toNat ≤ 70 := upper
    rw [List.mem_range'_1]
    omega

theorem hexDigitLower {c : Char} (isHex : isHexDigit c = true) :
    isHexDigit c.toLower = true ∧ digitValue c.toLower = digitValue c ∧ c.toLower ≠ 'p' ∧
      c.toLower ≠ '_' ∧ c ≠ '.' := by
  have each : ∀ c ∈ hexDigitChars, isHexDigit c.toLower = true ∧
      digitValue c.toLower = digitValue c ∧ c.toLower ≠ 'p' ∧ c.toLower ≠ '_' ∧ c ≠ '.' :=
    eachChar (by decide)
  exact each c (hexDigitAmong isHex)

theorem digitStill {c : Char} (isDigit : c.isDigit = true) :
    c.toLower = c ∧ c ≠ '.' ∧ c ≠ '+' ∧ c ≠ '-' := by
  have each : ∀ c ∈ digitChars, c.toLower = c ∧ c ≠ '.' ∧ c ≠ '+' ∧ c ≠ '-' :=
    eachChar (by decide)
  exact each c (digitAmong isDigit)

section

variable {digit letter : Char → Bool} {cs mantissa digits part exponent : List Char} {power : Int}

theorem pointedEach {p : Char → Prop} (pointed : Pointed digit mantissa digits part)
    (isDigit : ∀ c, digit c = true → p c) (point : p '.') : ∀ c ∈ mantissa, p c := by
  intro c member
  cases pointed with
  | whole filled all => exact isDigit c (all c member)
  | point filled all =>
    simp only [List.mem_append, List.mem_cons] at member all
    rcases member with before | rfl | behind
    · exact isDigit c (all c (.inl before))
    · exact point
    · exact isDigit c (all c (.inr behind))

theorem powerEach {p : Char → Prop} (raised : Power letter exponent power)
    (isLetter : ∀ c, letter c = true → p c) (others : ∀ c ∈ '+' :: '-' :: digitChars, p c) :
    ∀ c ∈ exponent, p c := by
  have marks : ∀ mark ∈ [[], ['+'], ['-']], ∀ c ∈ mark, c ∈ '+' :: '-' :: digitChars := by
    simp
  intro d member
  cases raised with
  | absent => exact absurd member List.not_mem_nil
  | raised starts isMark filled all =>
    rcases List.mem_cons.mp member with rfl | later
    · exact isLetter d starts
    rcases List.mem_append.mp later with inMark | isDigit
    · exact others d (marks _ isMark d inMark)
    · exact others d (List.mem_cons_of_mem _ (List.mem_cons_of_mem _ (digitAmong (all d isDigit))))

theorem pointedDigits (pointed : Pointed digit mantissa digits part) :
    ∀ c ∈ digits ++ part, digit c = true := by
  cases pointed with
  | whole filled all => rwa [List.append_nil]
  | point filled all => exact all

theorem pointedFilled (pointed : Pointed digit mantissa digits part) : mantissa ≠ [] := by
  cases pointed with
  | whole filled all => exact filled
  | point filled all => simp

theorem powerLettered (raised : Power letter exponent power) (filled : exponent ≠ []) :
    ∃ c ∈ exponent, letter c = true := by
  cases raised with
  | absent => contradiction
  | @raised c mark digits isLetter => exact ⟨c, List.mem_cons_self, isLetter⟩

theorem numeralEach {p : Char → Prop} (pointed : Pointed digit mantissa digits part)
    (raised : Power letter exponent power) (isDigit : ∀ c, digit c = true → p c)
    (isLetter : ∀ c, letter c = true → p c)
    (others : ∀ c ∈ '.' :: '+' :: '-' :: digitChars, p c) : ∀ c ∈ mantissa ++ exponent, p c := by
  obtain ⟨point, marks⟩ := List.forall_mem_cons.mp others
  exact List.forall_mem_append.mpr
    ⟨pointedEach pointed isDigit point, powerEach raised isLetter marks⟩

theorem hexAmong (pointed : Pointed isHexDigit mantissa digits part)
    (raised : Power letter exponent power) (isLetter : ∀ c, letter c = true → c = 'p' ∨ c = 'P') :
    ∀ c ∈ mantissa ++ exponent, c ∈ numeralChars := by
  refine numeralEach pointed raised ?_ ?_ (eachChar (by decide))
  · exact fun c isDigit => List.mem_append_left _ (hexDigitAmong isDigit)
  · intro c isPower
    rcases isLetter c isPower with rfl | rfl <;> decide

theorem decimalAmong (pointed : Pointed Char.isDigit mantissa digits part)
    (raised : Power letter exponent power) (isLetter : ∀ c, letter c = true → c = 'e' ∨ c = 'E') :
    ∀ c ∈ mantissa ++ exponent, c ∈ decimalChars := by
  refine numeralEach pointed raised ?_ ?_ (eachChar (by decide))
  · exact fun c isDigit => List.mem_append_left _ (digitAmong isDigit)
  · intro c isPower
    rcases isLetter c isPower with rfl | rfl <;> decide

theorem lowerDigits {digits : List Char} (all : ∀ d ∈ digits, d.isDigit = true) :
    digits.map Char.toLower = digits := by
  rw [List.map_congr_left fun d member => (digitStill (all d member)).1, List.map_id']

theorem pointedLower (pointed : Pointed isHexDigit mantissa digits part) :
    Pointed isHexDigit (mantissa.map Char.toLower) (digits.map Char.toLower)
      (part.map Char.toLower) := by
  have lower {cs : List Char} (all : ∀ c ∈ cs, isHexDigit c = true) :
      ∀ c ∈ cs.map Char.toLower, isHexDigit c = true := by
    rw [List.forall_mem_map]
    exact fun c member => (hexDigitLower (all c member)).1
  cases pointed with
  | whole filled all => exact .whole (by simpa using filled) (lower all)
  | point filled all =>
    rw [List.map_append, List.map_cons]
    refine .point ?_ ?_
    · rw [← List.map_append]
      simpa using filled
    · rw [← List.map_append]
      exact lower all

theorem powerLower {small : Char → Bool} (raised : Power letter exponent power)
    (turns : ∀ c, letter c = true → small c.toLower = true) :
    Power small (exponent.map Char.toLower) power := by
  have marks : ∀ mark ∈ [[], ['+'], ['-']], mark.map Char.toLower = mark := by decide
  cases raised with
  | absent => exact .absent
  | @raised c mark digits isLetter isMark filled all =>
    rw [List.map_cons, List.map_append, marks mark isMark, lowerDigits all]
    exact .raised (turns c isLetter) isMark filled all

theorem placeValueLower {digits : List Char} (all : ∀ c ∈ digits, isHexDigit c = true)
    (base : Nat) : placeValue base (digits.map Char.toLower) = placeValue base digits := by
  have same : (digits.map Char.toLower).map digitValue = digits.map digitValue := by
    rw [List.map_map]
    exact List.map_congr_left fun c member => (hexDigitLower (all c member)).2.1
  rw [placeValue, same, placeValue]

theorem lowerAmong (among : ∀ c ∈ cs, c ∈ numeralChars) :
    ∀ c ∈ cs.map Char.toLower, c ∈ numeralChars := by
  have each : ∀ c ∈ numeralChars, c.toLower ∈ numeralChars := eachChar (by decide)
  rw [List.forall_mem_map]
  exact fun c member => each c (among c member)

theorem numeralTrimmed (among : ∀ c ∈ cs, c ∈ numeralChars) :
    cs.map plainChar = cs ∧ trimPlain cs = cs := by
  have still : ∀ c ∈ numeralChars, plainChar c = c ∧ isPlainBlank c = false :=
    eachChar (by decide)
  constructor
  · rw [List.map_congr_left fun c member => (still c (among c member)).1, List.map_id']
  · exact trimNothing fun c member => (still c (among c member)).2

theorem lowerNumeral (among : ∀ c ∈ cs, c ∈ numeralChars) :
    Text.lower (String.ofList cs) = String.ofList (cs.map Char.toLower) := by
  have ascii : ∀ c ∈ numeralChars, c.toNat < 128 := eachChar (by decide)
  rw [Text.lower, String.toList_ofList, Text.lowerAscii fun c member => ascii c (among c member)]

theorem mantissaPointed (pointed : Pointed digit mantissa digits part)
    (raised : Power letter exponent power) (noPoint : digit '.' = false)
    (apart : ∀ c, letter c = true → digit c = false ∧ c ≠ '.') :
    mantissa? digit (mantissa ++ exponent) = some (mantissa, exponent) := by
  have stops : Stops digit exponent ∧ exponent.head? ≠ some '.' := by
    cases raised with
    | absent => simp [Stops]
    | @raised c mark digits isLetter isMark filled all => simpa [Stops] using apart c isLetter
  cases pointed with
  | whole filled all => exact mantissaExact noPoint (.whole filled all stops.1 stops.2)
  | point filled all =>
    obtain ⟨before, behind⟩ := List.forall_mem_append.mp all
    refine mantissaExact noPoint (.point ?_ before behind stops.1)
    rintro rfl
    exact filled

theorem exponentPower (raised : Power letter exponent power) :
    Lexeme.exponent letter exponent = (exponent, []) ∧ exponentValue exponent = power := by
  cases raised with
  | absent => exact ⟨rfl, rfl⟩
  | @raised c mark digits isLetter isMark filled all =>
    have found : Exponent letter (c :: (mark ++ digits)) [] :=
      .power isLetter isMark filled all (by simp [Stops])
    have split := exponentExact found
    rw [List.append_nil] at split
    refine ⟨split, ?_⟩
    obtain ⟨d, ds, rfl⟩ := List.exists_cons_of_ne_nil filled
    rw [exponentValue, List.drop_succ_cons, List.drop_zero,
      signExact isMark (all d List.mem_cons_self)]
    dsimp only
    rw [signed, positionalPlaces]
    simp

theorem scaledPointed (pointed : Pointed digit mantissa digits part)
    (noPoint : ∀ c, digit c = true → c ≠ '.') (base : Nat) :
    scaled base mantissa = (placeValue base (digits ++ part), part.length) := by
  have run {ds : List Char} (all : ∀ c ∈ ds, digit c = true) :
      ∀ c ∈ ds, decide (c ≠ '.') = true := fun c member => by simpa using noPoint c (all c member)
  unfold scaled
  dsimp only
  cases pointed with
  | whole filled all =>
    have ends : Stops (fun c => decide (c ≠ '.')) [] := by simp [Stops]
    have taken := takeRun (run all) ends
    have left := dropRun (run all) ends
    rw [List.append_nil] at taken left
    rw [taken, left, positionalPlaces]
    rfl
  | @point digits part filled all =>
    obtain ⟨before, behind⟩ := List.forall_mem_append.mp all
    have ends : Stops (fun c => decide (c ≠ '.')) ('.' :: part) := by simp [Stops]
    rw [takeRun (run before) ends, dropRun (run before) ends, positionalPlaces]
    rfl

theorem signless (pointed : Pointed digit mantissa digits part)
    (noMark : ∀ c, digit c = true → c ≠ '+' ∧ c ≠ '-') (rest : List Char) :
    sign (mantissa ++ rest) = ([], mantissa ++ rest) := by
  have each := pointedEach pointed noMark (by decide)
  have filled := pointedFilled pointed
  cases mantissa with
  | nil => exact absurd rfl filled
  | cons c cs =>
    have noSign : ¬ (c = '+' ∨ c = '-') := not_or.mpr (each c List.mem_cons_self)
    rw [List.cons_append, sign, if_neg noSign]

theorem hexHead {x : Char} (isHex : x = 'x' ∨ x = 'X') (among : ∀ c ∈ cs, c ∈ numeralChars) :
    ∀ c ∈ '0' :: x :: cs, c ∈ numeralChars := by
  rcases isHex with rfl | rfl <;>
    exact List.forall_mem_cons.mpr ⟨by decide, List.forall_mem_cons.mpr ⟨by decide, among⟩⟩

theorem hexTrimmed (among : ∀ c ∈ cs, c ∈ numeralChars) :
    ('0' :: 'x' :: cs.map Char.toLower).map plainChar = '0' :: 'x' :: cs.map Char.toLower ∧
      trimPlain ('0' :: 'x' :: cs.map Char.toLower) = '0' :: 'x' :: cs.map Char.toLower :=
  numeralTrimmed (hexHead (.inl rfl) (lowerAmong among))

theorem readHexadecimal {x : Char} (isHex : x = 'x' ∨ x = 'X')
    (among : ∀ c ∈ cs, c ∈ numeralChars) :
    read (String.ofList ('0' :: x :: cs)) =
      readHex (String.ofList ('0' :: 'x' :: cs.map Char.toLower)) := by
  have lower : ('0' :: x :: cs).map Char.toLower = '0' :: 'x' :: cs.map Char.toLower := by
    rcases isHex with rfl | rfl <;> rfl
  unfold read
  rw [lowerNumeral (hexHead isHex among), lower]
  dsimp only
  rw [String.toList_ofList]
  rfl

theorem hexIntegerRead {x : Char} (isHex : x = 'x' ∨ x = 'X') (filled : digits ≠ [])
    (all : ∀ c ∈ digits, isHexDigit c = true) :
    read (String.ofList ('0' :: x :: digits)) = .ok (.int (placeValue 16 digits)) := by
  have among : ∀ c ∈ digits, c ∈ numeralChars := fun c member =>
    List.mem_append_left _ (hexDigitAmong (all c member))
  have lower : ∀ c ∈ digits.map Char.toLower,
      c ≠ '.' ∧ c ≠ 'p' ∧ c ≠ '_' ∧ isHexDigit c = true := by
    rw [List.forall_mem_map]
    intro c member
    obtain ⟨isDigit, -, noLetter, noGroup, -⟩ := hexDigitLower (all c member)
    exact ⟨(hexDigitLower isDigit).2.2.2.2, noLetter, noGroup, isDigit⟩
  have noFloat : ¬ ('.' ∈ '0' :: 'x' :: digits.map Char.toLower ∨
      'p' ∈ '0' :: 'x' :: digits.map Char.toLower) := by
    simp only [List.mem_cons]
    rintro ((isZero | isLetter | member) | (isZero | isLetter | member))
    · exact absurd isZero (by decide)
    · exact absurd isLetter (by decide)
    · exact (lower _ member).1 rfl
    · exact absurd isZero (by decide)
    · exact absurd isLetter (by decide)
    · exact (lower _ member).2.1 rfl
  have value : hexInteger? ('0' :: 'x' :: digits.map Char.toLower) =
      some (placeValue 16 digits) := by
    obtain ⟨plain, trimmed⟩ := hexTrimmed among
    rw [hexInteger?, plain, trimmed, List.drop_succ_cons, List.drop_succ_cons, List.drop_zero]
    split
    · rename_i rest grouped
      exact absurd rfl (lower '_' (by rw [grouped]; exact List.mem_cons_self)).2.2.1
    · rw [ungroupDigits (fun c member => (lower c member).2.2) false (.inr (by simpa using filled)),
        Option.map_some, positionalPlaces, placeValueLower all]
  rw [readHexadecimal isHex among, readHex, String.toList_ofList, if_neg noFloat, value]

theorem hexFloatValue (pointed : Pointed isHexDigit mantissa digits part)
    (raised : Power (· == 'p') exponent power) {q : ℚ}
    (isValue : q = placeValue 16 (digits ++ part) * 2 ^ (power - 4 * part.length)) :
    (Double.limit ≤ q →
      hexFloat ('0' :: 'x' :: (mantissa ++ exponent)) = .error .hexFloatTooLarge) ∧
    (¬ Double.limit ≤ q → ∃ d, hexFloat ('0' :: 'x' :: (mantissa ++ exponent)) = .ok d) := by
  have among := hexAmong pointed raised (by simp)
  have apart : ∀ c, (c == 'p') = true → isHexDigit c = false ∧ c ≠ '.' := by simp; decide
  have complete : isBrokenExponent exponent [] = false := by simp [isBrokenExponent]
  have infinite := Double.ofBinaryInfinite false (placeValue 16 (digits ++ part))
    (power - 4 * part.length)
  rw [← isValue] at infinite
  rw [hexFloat, (numeralTrimmed (hexHead (.inl rfl) among)).2, List.drop_succ_cons,
    List.drop_succ_cons, List.drop_zero, mantissaPointed pointed raised (by decide) apart]
  dsimp only
  rw [(exponentPower raised).1]
  dsimp only
  rw [scaledPointed pointed (fun c isDigit => (hexDigitLower isDigit).2.2.2.2),
    (exponentPower raised).2, complete, if_neg (by simp)]
  dsimp only
  rw [← infinite]
  split
  · rename_i s isInfinite
    exact ⟨fun _ => rfl, fun finite => absurd ⟨s, isInfinite⟩ finite⟩
  · rename_i d finite
    refine ⟨?_, fun _ => ⟨_, rfl⟩⟩
    rintro ⟨s, isInfinite⟩
    exact absurd isInfinite (finite s)

theorem hexFloatRead {q : ℚ} (isFloat : IsHexFloat cs q) :
    (Double.limit ≤ q → read (String.ofList cs) = .error .hexFloatTooLarge) ∧
      (¬ Double.limit ≤ q → ∃ d, read (String.ofList cs) = .ok (.float d)) := by
  cases isFloat with
  | @mk x mantissa digits part exponent power isHex pointed raised isFloat =>
    have among := hexAmong pointed raised (by simp)
    have small := @powerLower _ _ _ (· == 'p') raised (by simp)
    have marked : '.' ∈ '0' :: 'x' :: (mantissa ++ exponent).map Char.toLower ∨
        'p' ∈ '0' :: 'x' :: (mantissa ++ exponent).map Char.toLower := by
      simp only [List.map_append, List.mem_cons, List.mem_append]
      rcases isFloat with point | filled
      · exact .inl (.inr (.inr (.inl (List.mem_map.mpr ⟨'.', point, by decide⟩))))
      · refine .inr (.inr (.inr (.inr ?_)))
        obtain ⟨c, member, isLetter⟩ := powerLettered small (by simpa using filled)
        rwa [← beq_iff_eq.mp isLetter]
    have value : (placeValue 16 (digits ++ part) * 2 ^ (power - 4 * part.length) : ℚ) =
        placeValue 16 (digits.map Char.toLower ++ part.map Char.toLower) *
          2 ^ (power - 4 * (part.map Char.toLower).length) := by
      rw [← List.map_append, placeValueLower (pointedDigits pointed), List.length_map]
    obtain ⟨tooLarge, fits⟩ := hexFloatValue (pointedLower pointed) small value
    rw [readHexadecimal isHex among, readHex, String.toList_ofList, if_pos marked, List.map_append]
    refine ⟨fun large => ?_, fun fitting => ?_⟩
    · rw [tooLarge large]
      rfl
    · obtain ⟨d, read⟩ := fits fitting
      exact ⟨d, by rw [read]; rfl⟩

theorem decimalNumeral (among : ∀ c ∈ cs, c ∈ decimalChars) : ∀ c ∈ cs, c ∈ numeralChars := by
  have each : ∀ c ∈ decimalChars, c ∈ numeralChars := eachChar (by decide)
  exact fun c member => each c (among c member)

theorem readDecimalText (among : ∀ c ∈ cs, c ∈ decimalChars) :
    read (String.ofList cs) = readDecimal (String.ofList (cs.map Char.toLower)) := by
  have noHex : ∀ c ∈ decimalChars, c.toLower ≠ 'x' := eachChar (by decide)
  unfold read
  rw [lowerNumeral (decimalNumeral among)]
  dsimp only
  rw [String.toList_ofList]
  split
  · rename_i rest lower
    have member : 'x' ∈ cs.map Char.toLower := by simp [lower]
    obtain ⟨c, isChar, isLower⟩ := List.mem_map.mp member
    exact absurd isLower (noHex c (among c isChar))
  · rfl

theorem ungroupSource {digit : Char → Bool} {after : Bool} {ds : List Char}
    (found : ungroup? digit after cs = some ds) : ∀ c ∈ cs, c = '_' ∨ digit c = true := by
  induction cs generalizing after ds with
  | nil => simp
  | cons c cs ih =>
    rw [ungroup?] at found
    split at found
    · rename_i isGroup
      split at found
      · exact List.forall_mem_cons.mpr ⟨.inl isGroup, ih found⟩
      · contradiction
    · split at found
      · rename_i isDigit
        obtain ⟨rest, later, -⟩ := Option.map_eq_some_iff.mp found
        exact List.forall_mem_cons.mpr ⟨.inr isDigit, ih later⟩
      · contradiction

theorem ungroupAllPlain (noGroup : ∀ c ∈ cs, c ≠ '_') {before : Char} (plain : before ≠ '_') :
    ungroupAll? before cs = some cs := by
  induction cs generalizing before with
  | nil => rw [ungroupAll?, if_neg plain]
  | cons c cs ih =>
    obtain ⟨here, later⟩ := List.forall_mem_cons.mp noGroup
    rw [ungroupAll?, if_neg here, if_neg (by simp [plain]), ih later here]
    rfl

/- Only a text that is all digits is an integer. -/
theorem integerDigits (pointed : Pointed Char.isDigit mantissa digits part)
    (raised : Power (· == 'e') exponent power) {n : Int}
    (isInteger : integer? (mantissa ++ exponent) = some n) :
    ∀ c ∈ mantissa ++ exponent, c.isDigit = true := by
  have among := decimalAmong pointed raised (by simp)
  obtain ⟨plain, trimmed⟩ := numeralTrimmed (decimalNumeral among)
  have noGroup : ∀ c ∈ decimalChars, c ≠ '_' := eachChar (by decide)
  rw [integer?, plain, trimmed, signless pointed fun c isDigit => (digitStill isDigit).2.2]
    at isInteger
  obtain ⟨ds, ungrouped, -⟩ := Option.bind_eq_some_iff.mp isInteger
  exact fun c member => (ungroupSource ungrouped c member).resolve_left (noGroup c (among c member))

theorem floatFound (pointed : Pointed Char.isDigit mantissa digits part)
    (raised : Power (· == 'e') exponent power) :
    float? (mantissa ++ exponent) =
      some (.ofDecimal false (placeValue 10 (digits ++ part)) (power - part.length)) := by
  have among := decimalAmong pointed raised (by simp)
  obtain ⟨plain, trimmed⟩ := numeralTrimmed (decimalNumeral among)
  have each : ∀ c ∈ decimalChars, c ≠ '_' ∧ c ≠ 'i' ∧ c ≠ 'n' := eachChar (by decide)
  have ungrouped : ungroupAll? ' ' (mantissa ++ exponent) = some (mantissa ++ exponent) :=
    ungroupAllPlain (fun c member => (each c (among c member)).1) (by decide)
  have noWord {word : List Char} (isWord : 'i' ∈ word ∨ 'n' ∈ word) :
      mantissa ++ exponent ≠ word := by
    rintro rfl
    rcases isWord with member | member
    · exact (each _ (among _ member)).2.1 rfl
    · exact (each _ (among _ member)).2.2 rfl
  have apart : ∀ c, (c == 'e') = true → c.isDigit = false ∧ c ≠ '.' := by simp
  have complete : complete? Char.isDigit (· == 'e') (mantissa ++ exponent) =
      some (mantissa, exponent) := by
    rw [complete?, mantissaPointed pointed raised (by decide) apart]
    dsimp only [Option.bind_eq_bind, Option.bind_some]
    rw [(exponentPower raised).1]
    rfl
  rw [float?, plain, trimmed, ungrouped]
  dsimp only [Option.bind_eq_bind, Option.bind_some]
  rw [signless pointed fun c isDigit => (digitStill isDigit).2.2]
  dsimp only
  rw [if_neg (not_or.mpr ⟨noWord (by simp), noWord (by simp)⟩), if_neg (noWord (by simp)),
    decimalFloat?, complete]
  dsimp only [Option.bind_eq_bind, Option.bind_some]
  rw [scaledPointed pointed fun c isDigit => (digitStill isDigit).2.1, (exponentPower raised).2]
  simp

theorem decimalIntegerRead (filled : digits ≠ []) (all : ∀ c ∈ digits, c.isDigit = true)
    (short : digits.length ≤ Number.digitLimit) :
    read (String.ofList digits) = .ok (.int (placeValue 10 digits)) := by
  have among : ∀ c ∈ digits, c ∈ digitChars := fun c member => digitAmong (all c member)
  have isInteger := @integerOfDigits [] digits (by simp) filled among
  rw [List.nil_append, if_pos short] at isInteger
  rw [readDecimalText fun c member => List.mem_append_left _ (among c member), lowerDigits all,
    readDecimal, String.toList_ofList, isInteger, positionalPlaces]
  rfl

theorem decimalFloatRead (pointed : Pointed Char.isDigit mantissa digits part)
    (raised : Power (fun c => c == 'e' || c == 'E') exponent power)
    (noInteger : ¬ ∃ n, IsInteger (mantissa ++ exponent) n) :
    read (String.ofList (mantissa ++ exponent)) =
      .ok (.float (.ofDecimal false (placeValue 10 (digits ++ part)) (power - part.length))) := by
  have small := @powerLower _ _ _ (· == 'e') raised (by simp)
  have lower : (mantissa ++ exponent).map Char.toLower = mantissa ++ exponent.map Char.toLower := by
    have still := pointedEach pointed (fun c isDigit => (digitStill isDigit).1) (by decide)
    rw [List.map_append, List.map_congr_left still, List.map_id']
  rw [readDecimalText (decimalAmong pointed raised (by simp)), lower, readDecimal,
    String.toList_ofList, floatFound pointed small]
  split
  · rename_i n isInteger
    refine absurd ?_ noInteger
    obtain ⟨all, allExponent⟩ := List.forall_mem_append.mp (integerDigits pointed small isInteger)
    have none : exponent.map Char.toLower = [] := by
      by_contra filled
      obtain ⟨c, member, isLetter⟩ := powerLettered small filled
      have isDigit := allExponent c member
      rw [beq_iff_eq.mp isLetter] at isDigit
      contradiction
    have few : mantissa.length ≤ Number.digitLimit := by
      by_contra many
      have tooMany := @integerOfDigits [] mantissa (by simp) (pointedFilled pointed)
        fun c member => digitAmong (all c member)
      rw [List.nil_append, if_neg many] at tooMany
      rw [none, List.append_nil, tooMany] at isInteger
      contradiction
    rw [List.map_eq_nil_iff.mp none, List.append_nil]
    exact ⟨_, .decimal (pointedFilled pointed) all few⟩
  · rfl

/-! Literals that the lexer finds -/

theorem pointedSource (found : Mantissa digit mantissa cs) :
    ∃ digits part, Pointed digit mantissa digits part := by
  cases found with
  | whole filled all => exact ⟨_, _, .whole filled all⟩
  | @point digits part _ filled all allPart =>
    refine ⟨digits, part, .point ?_ (List.forall_mem_append.mpr ⟨all, allPart⟩)⟩
    rw [Ne, List.append_eq_nil_iff]
    rintro ⟨noDigits, noPart⟩
    exact filled noDigits noPart

theorem powerSource (found : Exponent letter exponent cs) :
    ∃ power, Power letter exponent power := by
  cases found with
  | power isLetter isMark filled all => exact ⟨_, .raised isLetter isMark filled all⟩
  | absent => exact ⟨0, .absent⟩

theorem numeralForm (found : numeral? digit letter cs = some (cs, [])) :
    ∃ mantissa digits part exponent power, cs = mantissa ++ exponent ∧
      Pointed digit mantissa digits part ∧ Power letter exponent power := by
  obtain ⟨m, e, same, -, mantissa, exponential⟩ := numeralSource found
  obtain ⟨digits, part, pointed⟩ := pointedSource mantissa
  obtain ⟨power, raised⟩ := powerSource exponential
  exact ⟨m, digits, part, e, power, same, pointed, raised⟩

theorem hexadecimalForm (found : hexadecimal? cs = some (cs, [])) :
    (∃ n, IsInteger cs n) ∨ ∃ q, IsHexFloat cs q := by
  obtain ⟨x, front, rest, isHex, rfl, same, inner⟩ := hexadecimalSource found
  obtain rfl : rest = front := by simpa using same
  obtain ⟨mantissa, digits, part, exponent, power, rfl, pointed, raised⟩ := numeralForm inner
  by_cases isFloat : '.' ∈ mantissa ∨ exponent ≠ []
  · exact .inr ⟨_, .mk isHex pointed raised isFloat⟩
  obtain ⟨noPoint, noPower⟩ := not_or.mp isFloat
  rw [not_not.mp noPower, List.append_nil]
  cases pointed with
  | whole filled all => exact .inl ⟨_, .hexadecimal isHex filled all⟩
  | point filled all => simp at noPoint

end

theorem integerRead {cs : List Char} {n : Int} (isInteger : IsInteger cs n) :
    read (String.ofList cs) = .ok (.int n) := by
  cases isInteger with
  | hexadecimal isHex filled all => exact hexIntegerRead isHex filled all
  | decimal filled all short => exact decimalIntegerRead filled all short

theorem numberRead {cs : List Char} (found : number? cs = some (cs, [])) :
    (∃ n, IsInteger cs n ∧ read (String.ofList cs) = .ok (.int n)) ∨
      (∃ q, IsHexFloat cs q ∧ Double.limit ≤ q ∧
        read (String.ofList cs) = .error .hexFloatTooLarge) ∨
      ∃ d, read (String.ofList cs) = .ok (.float d) := by
  by_cases isInteger : ∃ n, IsInteger cs n
  · obtain ⟨n, isInteger⟩ := isInteger
    exact .inl ⟨n, isInteger, integerRead isInteger⟩
  rcases Option.or_eq_some_iff.mp found with isHex | ⟨-, isDecimal⟩
  · obtain ⟨q, isFloat⟩ := (hexadecimalForm isHex).resolve_left isInteger
    by_cases tooLarge : Double.limit ≤ q
    · exact .inr (.inl ⟨q, isFloat, tooLarge, (hexFloatRead isFloat).1 tooLarge⟩)
    · exact .inr (.inr ((hexFloatRead isFloat).2 tooLarge))
  · obtain ⟨mantissa, digits, part, exponent, power, rfl, pointed, raised⟩ := numeralForm isDecimal
    exact .inr (.inr ⟨_, decimalFloatRead pointed raised isInteger⟩)

end Numeral

namespace Lexer

open Numeral

theorem lexedNumbersConvert (s : String) {t : Token} (member : t ∈ (lex s).tokens)
    (isNumber : t.kind = .number) :
    (∀ n, Numeral.read t.value = .ok (.int n) ↔ IsInteger t.value.toList n) ∧
    (∀ f, Numeral.read t.value = .error f ↔
      f = .hexFloatTooLarge ∧ f.kind = "OverflowError" ∧
        ∃ q, IsHexFloat t.value.toList q ∧ Double.limit ≤ q) ∧
    ((¬ ∃ n, IsInteger t.value.toList n) →
      (¬ ∃ q, IsHexFloat t.value.toList q ∧ Double.limit ≤ q) →
        ∃ d, Numeral.read t.value = .ok (.float d)) := by
  have spelled := lexesSpelled (lexes 1 s.toList) t member
  rw [Token.Spelled, isNumber] at spelled
  have found := Lexeme.plainNumber (Lexeme.firstBracketless (by simp) spelled)
  generalize t.value = text at found ⊢
  obtain ⟨cs, rfl⟩ : ∃ cs, text = String.ofList cs := ⟨text.toList, String.ofList_toList.symm⟩
  rw [String.toList_ofList] at found ⊢
  have outcome := numberRead found
  refine ⟨fun n => ⟨fun whole => ?_, integerRead⟩, fun f => ⟨fun failed => ?_, ?_⟩,
    fun noInteger fits => ?_⟩
  · rcases outcome with ⟨m, isInteger, outcome⟩ | ⟨q, -, -, outcome⟩ | ⟨d, outcome⟩ <;>
      rw [outcome] at whole <;> cases whole
    exact isInteger
  · rcases outcome with ⟨m, -, outcome⟩ | ⟨q, isFloat, tooLarge, outcome⟩ | ⟨d, outcome⟩ <;>
      rw [outcome] at failed <;> cases failed
    exact ⟨rfl, rfl, q, isFloat, tooLarge⟩
  · rintro ⟨rfl, -, q, isFloat, tooLarge⟩
    exact (hexFloatRead isFloat).1 tooLarge
  · rcases outcome with ⟨m, isInteger, -⟩ | ⟨q, isFloat, tooLarge, -⟩ | isFloat
    · exact absurd ⟨m, isInteger⟩ noInteger
    · exact absurd ⟨q, isFloat, tooLarge⟩ fits
    · exact isFloat

-- The letters of a number may be large or small; the power is the least that is too large.
theorem lexedNumbersConvertHexadecimal :
    (lex "0XfF+0x1P1024").tokens =
      [⟨.number, "0XfF", some 1, none, none⟩, ⟨.op, "+", some 1, none, none⟩,
        ⟨.number, "0x1P1024", some 1, none, none⟩] ∧
      Numeral.read "0XfF" = .ok (.int 255) ∧
      Numeral.read "0x1P1024" = .error .hexFloatTooLarge := by
  have lexed : (lex "0XfF+0x1P1024").tokens =
      [⟨.number, "0XfF", some 1, none, none⟩, ⟨.op, "+", some 1, none, none⟩,
        ⟨.number, "0x1P1024", some 1, none, none⟩] := by decide +kernel
  have whole : IsInteger "0XfF".toList 255 :=
    .hexadecimal (.inr rfl) (by simp) (eachChar (by decide))
  have pointed : Pointed Lexeme.isHexDigit ['1'] ['1'] [] := .whole (by simp) (eachChar (by decide))
  have raised : Power (fun c => c == 'p' || c == 'P') ['P', '1', '0', '2', '4'] 1024 :=
    .raised (by decide) List.mem_cons_self (by simp) (eachChar (by decide))
  have isFloat : IsHexFloat "0x1P1024".toList (2 ^ (1024 : Int)) := by
    have found := IsHexFloat.mk (.inl rfl) pointed raised (.inr (by simp))
    rwa [show placeValue 16 (['1'] ++ []) = 1 from rfl, Nat.cast_one, one_mul,
      show (1024 : Int) - 4 * ([] : List Char).length = 1024 from rfl] at found
  refine ⟨lexed, ?_, ?_⟩
  · have front : (⟨.number, "0XfF", some 1, none, none⟩ : Token) ∈
        (lex "0XfF+0x1P1024").tokens := by simp [lexed]
    exact ((lexedNumbersConvert _ front rfl).1 255).mpr whole
  · have back : (⟨.number, "0x1P1024", some 1, none, none⟩ : Token) ∈
        (lex "0XfF+0x1P1024").tokens := by simp [lexed]
    exact ((lexedNumbersConvert _ back rfl).2.1 _).mpr
      ⟨rfl, rfl, _, isFloat, Double.limitBetween.2⟩

end Lexer

namespace Number

theorem tokensOfInteger {n : Int} (short : Short n) (line : Line) :
    Value.toTokens (.number (.int n)) line =
      .ok ((Lexer.integerTokens n).map (Lexer.placed line)) := by
  have lexed := Lexer.parsePlaced (toString n) line
  rw [Lexer.lexInteger] at lexed
  rw [Value.toTokens, shortText short]
  dsimp only
  rw [Value.lexed, lexed]

theorem integersReadBack {n : Int} (few : (Nat.toDigits 10 n.natAbs).length ≤ 4300) :
    (∀ line, ∃ ts, Value.toTokens (.number (.int n)) line = .ok ts ∧
      Tokens.spelling ts =
        (if n < 0 then [(.op, "-")] else []) ++ [(.number, toString n.natAbs)] ∧
      Tokens.asNumber ts = .ok (.int n)) ∧
    ∀ b : Builder, ∃ b' t, b.number (.int n) = .ok b' ∧ b'.toTokens = b.toTokens ++ [t] ∧
      t.kind = .number ∧
      ∀ (r : Reader) (blanks rest : List Token), r.cursor.ahead = blanks ++ t :: rest →
        (∀ u ∈ blanks, u.kind.isBlank = true) →
          ∃ r', Reader.number.run.run r = (.ok (.int n), r') ∧
            Reader.Took (blanks ++ [t]) r r' := by
  have short : Short n := (Numeral.fewDigits (by decide)).mp few
  refine ⟨fun line => ?_, fun b => ?_⟩
  · have spelled : Tokens.spelling ((Lexer.integerTokens n).map (Lexer.placed line)) =
        Loop.integer n := Lexer.spellingPlaced line _
    refine ⟨_, tokensOfInteger short line, ?_, Loop.showsRead short (Loop.integerShows spelled)⟩
    rw [spelled, Loop.integerSpelled]
    rfl
  · refine ⟨b.token .number (toString n), { kind := .number, value := toString n }, ?_, ?_, rfl, ?_⟩
    · rw [Builder.number, shortText short]
      rfl
    · simp [Builder.token, Builder.toTokens]
    · intro r blanks rest ahead blank
      exact Reader.numberReads ahead blank rfl (Numeral.readInteger short)

-- As source the minus is a token of its own; a builder puts it into the number.
theorem integersReadBackNegative :
    (Nat.toDigits 10 (-120 : Int).natAbs).length ≤ 4300 ∧
      (∃ ts, Value.toTokens (.number (.int (-120))) (some 7) = .ok ts ∧
        Tokens.spelling ts = [(.op, "-"), (.number, "120")] ∧
        Tokens.asNumber ts = .ok (.int (-120))) ∧
      ∃ b t, Builder.empty.number (.int (-120)) = .ok b ∧ b.toTokens = [t] ∧ t.kind = .number ∧
        ∃ r, Reader.number.run.run ⟨.ofTokens [⟨.space, " ", none, none, none⟩, t], none, #[]⟩ =
          (.ok (.int (-120)), r) ∧ r.cursor.ahead = [] := by
  have few : (Nat.toDigits 10 (-120 : Int).natAbs).length ≤ 4300 := by decide +kernel
  obtain ⟨asTokens, built⟩ := integersReadBack few
  obtain ⟨b, t, made, tokens, isNumber, readBack⟩ := built .empty
  obtain ⟨r, ran, took⟩ := readBack ⟨.ofTokens [⟨.space, " ", none, none, none⟩, t], none, #[]⟩
    [⟨.space, " ", none, none, none⟩] [] rfl (by simp [Kind.isBlank])
  have left : r.cursor.ahead = [] := by simpa using took.ahead
  exact ⟨few, asTokens (some 7), b, t, made, tokens, isNumber, r, ran, left⟩

end Number

end LuaExpander
