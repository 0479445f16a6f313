import LuaExpander.Proofs.Spelling
import LuaExpander.Value

/-! The decimal texts of integers. Such a text is read as the integer that it was written for, as
long as it has no more digits than integers may have. As source it is one token, or two with the
minus of a negative integer, which is an operator. -/
namespace LuaExpander

/- An integer that has a decimal text. -/
def Number.Short (n : Int) : Prop := n.natAbs < Nat.pow 10 digitLimit

theorem Number.shortText {n : Int} (short : Short n) : (Number.int n).text = .ok (toString n) := by
  unfold Short at short
  rw [text]
  generalize Nat.pow 10 digitLimit = limit at short ⊢
  rw [if_pos short]
  rfl

theorem tenBelow {limit : Nat} (positive : 0 < limit) : 10 ≤ Nat.pow 10 limit :=
  show Nat.pow 10 1 ≤ Nat.pow 10 limit from Nat.pow_le_pow_right (by decide) positive

theorem Number.shortDigit {n : Int} (digit : n.natAbs < 10) : Number.Short n :=
  Nat.lt_of_lt_of_le digit (tenBelow (by decide))

def digitChars : List Char := ['0', '1', '2', '3', '4', '5', '6', '7', '8', '9']

/- The instance for all characters would try every one of them. -/
theorem eachChar {cs : List Char} {p : Char → Prop} [DecidablePred p]
    (all : cs.all (fun c => p c) = true) : ∀ c ∈ cs, p c := by
  simpa using all

theorem digitAmong {c : Char} (isDigit : c.isDigit = true) : c ∈ digitChars := by
  have range : 48 ≤ c.toNat ∧ c.toNat ≤ 57 := by
    simpa [Char.isDigit, UInt32.le_iff_toNat_le] using isDigit
  have listed : ∀ code ∈ List.range' 48 10, Char.ofNat code ∈ digitChars := by decide
  have found := listed c.toNat (by rw [List.mem_range'_1]; omega)
  rwa [Char.ofNat_toNat] at found

theorem signOf (n : Int) :
    (toString n).toList = (if n < 0 then ['-'] else []) ++ Nat.toDigits 10 n.natAbs := by
  rw [Int.toString_eq_repr, Int.repr_eq_if]
  by_cases negative : n < 0
  · rw [if_neg (by omega), if_pos negative, String.toList_append, Nat.toList_repr,
      show (-n).toNat = n.natAbs by omega]
    rfl
  · rw [if_pos (by omega), if_neg negative, Nat.toList_repr, show n.toNat = n.natAbs by omega]
    rfl

theorem digitsAmong (n : Nat) : ∀ c ∈ Nat.toDigits 10 n, c ∈ digitChars := fun _ member =>
  digitAmong (Nat.isDigit_of_mem_toDigits (by decide) (by decide) member)

theorem integerAmong (n : Int) : ∀ c ∈ (toString n).toList, c ∈ '-' :: digitChars := by
  intro c member
  rw [signOf, List.mem_append] at member
  rcases member with isSign | isDigit
  · split at isSign
    · rw [List.mem_singleton.mp isSign]
      exact List.mem_cons_self
    · contradiction
  · exact List.mem_cons_of_mem _ (digitsAmong _ c isDigit)

theorem Text.lowerAscii {cs : List Char} (ascii : ∀ c ∈ cs, c.toNat < 128) (before : List Char) :
    lowerAfter before cs = cs.map Char.toLower := by
  induction cs generalizing before with
  | nil => rfl
  | cons c cs ih =>
    obtain ⟨here, later⟩ := List.forall_mem_cons.mp ascii
    have differs {d : Char} (other : 128 ≤ d.toNat) : c ≠ d := by
      rintro rfl
      omega
    rw [lowerAfter, if_neg (differs (by decide)), if_neg (differs (by decide)), lowerChar,
      if_pos here, ih later]
    rfl

namespace Numeral

theorem trimNothing {cs : List Char} (solid : ∀ c ∈ cs, isPlainBlank c = false) :
    trimPlain cs = cs := by
  have none {ds : List Char} (solid : ∀ c ∈ ds, isPlainBlank c = false) :
      ds.dropWhile isPlainBlank = ds := by
    cases ds with
    | nil => rfl
    | cons d ds => rw [List.dropWhile_cons_of_neg (by simp [solid d List.mem_cons_self])]
  rw [trimPlain, none solid, none (fun c member => solid c (List.mem_reverse.mp member)),
    List.reverse_reverse]

theorem ungroupDigits {digit : Char → Bool} {digits : List Char}
    (all : ∀ c ∈ digits, c ≠ '_' ∧ digit c = true) (after : Bool)
    (filled : after = true ∨ digits ≠ []) : ungroup? digit after digits = some digits := by
  induction digits generalizing after with
  | nil =>
    obtain rfl := filled.resolve_right (by simp)
    rfl
  | cons c cs ih =>
    obtain ⟨⟨noGroup, isDigit⟩, later⟩ := List.forall_mem_cons.mp all
    rw [ungroup?, if_neg noGroup, if_pos isDigit, ih later true (.inl rfl)]
    rfl

theorem positionalDigits {digits : List Char} (all : ∀ c ∈ digits, c ∈ digitChars) (start : Nat) :
    digits.foldl (fun n c => 10 * n + digitValue c) start = Nat.ofDigitChars 10 digits start := by
  induction digits generalizing start with
  | nil => rfl
  | cons c cs ih =>
    obtain ⟨here, later⟩ := List.forall_mem_cons.mp all
    have value : ∀ c ∈ digitChars, digitValue c = c.toNat - '0'.toNat := eachChar (by decide)
    rw [List.foldl_cons, ih later, Nat.ofDigitChars_cons, value c here]

theorem fewDigits {n limit : Nat} (positive : 0 < limit) :
    (Nat.toDigits 10 n).length ≤ limit ↔ n < Nat.pow 10 limit :=
  Nat.length_toDigits_le_iff (by decide) positive

theorem integerOfDigits {mark digits : List Char} (isMark : mark ∈ [[], ['+'], ['-']])
    (filled : digits ≠ []) (all : ∀ c ∈ digits, c ∈ digitChars) :
    integer? (mark ++ digits) = if digits.length ≤ Number.digitLimit then
      some (signed (mark = ['-']) (positionalValue 10 digits)) else none := by
  have among : ∀ c ∈ mark ++ digits, c ∈ '+' :: '-' :: digitChars := by
    intro c member
    rcases List.mem_append.mp member with inMark | inDigits
    · simp only [List.mem_cons, List.not_mem_nil, or_false] at isMark
      rcases isMark with rfl | rfl | rfl <;> simp at inMark <;> simp [inMark]
    · exact List.mem_cons_of_mem _ (List.mem_cons_of_mem _ (all c inDigits))
  have still : ∀ c ∈ '+' :: '-' :: digitChars, plainChar c = c ∧ isPlainBlank c = false :=
    eachChar (by decide)
  have trimmed : trimPlain ((mark ++ digits).map plainChar) = mark ++ digits := by
    rw [List.map_congr_left fun c member => (still c (among c member)).1, List.map_id',
      trimNothing fun c member => (still c (among c member)).2]
  have digit : ∀ c ∈ digitChars, c ≠ '_' ∧ c.isDigit = true := eachChar (by decide)
  have signs : Lexeme.sign (mark ++ digits) = (mark, digits) := by
    obtain ⟨d, ds, rfl⟩ := List.exists_cons_of_ne_nil filled
    exact Lexeme.signExact isMark (digit d (all d List.mem_cons_self)).2 ds
  rw [integer?, trimmed, signs]
  dsimp only
  rw [ungroupDigits (fun c member => digit c (all c member)) false (.inr filled)]
  rfl

theorem integerOfText {n : Int} (short : Number.Short n) :
    integer? (toString n).toList = some n := by
  have few : (Nat.toDigits 10 n.natAbs).length ≤ Number.digitLimit :=
    (fewDigits (by decide)).mpr short
  have value : positionalValue 10 (Nat.toDigits 10 n.natAbs) = n.natAbs := by
    rw [positionalValue, positionalDigits (digitsAmong n.natAbs), Nat.ofDigitChars_ten_toDigits]
  rw [signOf, integerOfDigits (by split <;> simp) Nat.toDigits_ne_nil (digitsAmong n.natAbs),
    if_pos few, value, signed]
  by_cases negative : n < 0
  · rw [if_pos negative, if_pos (by simp)]
    congr 1
    omega
  · rw [if_neg negative, if_neg (by simp)]
    congr 1
    omega

theorem readInteger {n : Int} (short : Number.Short n) :
    read (toString n) = .ok (.int n) := by
  have among := integerAmong n
  have still : ∀ c ∈ '-' :: digitChars, c.toNat < 128 ∧ c.toLower = c := eachChar (by decide)
  have same : Text.lower (toString n) = toString n := by
    rw [Text.lower, Text.lowerAscii fun c member => (still c (among c member)).1,
      List.map_congr_left fun c member => (still c (among c member)).2, List.map_id',
      String.ofList_toList]
  unfold read
  rw [same]
  dsimp only
  split
  · rename_i hexadecimal
    exact absurd (among 'x' (by rw [hexadecimal]; simp)) (by decide)
  · rw [readDecimal, integerOfText short]

end Numeral

namespace Lexer

def integerTokens (n : Int) : List Token :=
  (if n < 0 then [lexeme .op ['-'] 1] else []) ++ [lexeme .number (Nat.toDigits 10 n.natAbs) 1]

theorem minusApart {digits : List Char} (all : ∀ c ∈ digits, c ∈ digitChars) :
    Lexeme.first (['-'] ++ digits) = .lexeme .op ['-'] digits := by
  have noDash : ¬ ∃ after, '-' :: digits = '-' :: '-' :: after := by
    rintro ⟨after, same⟩
    exact absurd (all '-' (by rw [(List.cons_eq_cons.mp same).2]; simp)) (by decide)
  have found : Lexeme.plain ('-' :: digits) = .lexeme .op ['-'] digits := by
    rw [Lexeme.plain, Lexeme.noQuote (by decide), Lexeme.noNumber (by decide) (by decide)]
    rfl
  rw [List.singleton_append, Lexeme.firstOther noDash]
  exact found

theorem lexInteger (n : Int) : lex (toString n) = ⟨integerTokens n, none, 1⟩ := by
  have all := digitsAmong n.natAbs
  have number : Lexeme.first (Nat.toDigits 10 n.natAbs ++ []) =
      .lexeme .number (Nat.toDigits 10 n.natAbs) [] := by
    rw [List.append_nil]
    exact Lexeme.wholeDigits Nat.toDigits_ne_nil fun c member =>
      Nat.isDigit_of_mem_toDigits (by decide) (by decide) member
  have noBreak : (Nat.toDigits 10 n.natAbs).count '\n' = 0 :=
    List.count_eq_zero.mpr fun member => absurd (all _ member) (by decide)
  have digits := lexCons number 1
  rw [List.append_nil, noBreak] at digits
  rw [lex, signOf, integerTokens]
  by_cases negative : n < 0
  · have minus := lexCons (minusApart all) 1
    rw [if_pos negative, if_pos negative, minus, show ['-'].count '\n' = 0 from rfl, digits]
    rfl
  · rw [if_neg negative, if_neg negative]
    exact digits

theorem integerText (n : Int) : Tokens.text (Lexer.integerTokens n) = toString n := by
  refine String.toList_inj.mp ?_
  rw [signOf, Lexer.integerTokens, Tokens.textAppend, String.toList_append]
  split <;> simp [Tokens.text, Lexer.lexeme]

theorem integerKinds (n : Int) :
    ∀ t ∈ Lexer.integerTokens n, (t.kind = .op ∧ t.value = "-") ∨ t.kind = .number := by
  unfold Lexer.integerTokens
  split <;> simp [Lexer.lexeme]

end Lexer

end LuaExpander
