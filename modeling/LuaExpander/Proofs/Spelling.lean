import LuaExpander.Proofs.Lexing
import LuaExpander.Token.Literal

/-! The text of a list of tokens and the tokens of that text. A token by itself is spelled as what
it is, if lexing its value gives the token back. Side by side such tokens need not stay apart: the
value of one can run on into the text behind it and make up a longer lexeme with it, or the
beginning of a long bracket. Lexing gives back exactly the lists in which this happens nowhere. -/
namespace LuaExpander

namespace Lexeme

/- The text is one lexeme. -/
def Whole (kind : Kind) (text : List Char) : Prop := first text = .lexeme kind text []

inductive RunsOn (text rest : List Char) : Prop where
  | lexeme {kind front} (filled : front ≠ []) (ahead : front <+: rest)
      (longer : Whole kind (text ++ front))
  | bracket {dashes level front} (filled : front ≠ []) (ahead : front <+: rest)
      (isFront : dashes = [] ∨ dashes = ['-', '-'])
      (opens : text ++ front = dashes ++ longOpener level)

/- A text that cannot be finished has no beginning that can. -/
def Hopeless (scan : List Char → Result) : Prop :=
  ∀ cs more cause, scan (cs ++ more) = .unfinished cause → ∃ cause, scan cs = .unfinished cause

theorem hopelessLast {rule : List Char → Option Split} (isLocal : Local rule) (kind : Kind)
    (cause : List Char → Cause) : Hopeless fun cs => .of kind (cause cs) (rule cs) := by
  intro cs more found unfinished
  cases applied : rule (cs ++ more) with
  | some s => simp [applied, Result.of] at unfinished
  | none => exact ⟨cause cs, by simp [isLocal.fails applied, Result.of]⟩

theorem hopelessFirst {rule : List Char → Option Split} {later : List Char → Result}
    (isLocal : Local rule) (kind : List Char → Kind) (hopeless : Hopeless later) :
    Hopeless fun cs => match rule cs with
      | some s => .lexeme (kind s.1) s.1 s.2
      | none => later cs := by
  intro cs more found unfinished
  cases applied : rule (cs ++ more) with
  | some s => simp [applied] at unfinished
  | none =>
    simp only [applied] at unfinished
    simp only [isLocal.fails applied]
    exact hopeless cs more found unfinished

theorem plainHopeless : Hopeless plain :=
  hopelessFirst quotedClosed.isLocal (fun _ => .string) <|
  hopelessFirst numberLocal (fun _ => .number) <|
  hopelessFirst nameLocal nameKind <|
  hopelessFirst blankLocal (fun _ => .space) <|
  hopelessLast operatorLocal .op _

/- The two ways to be without an end: in a long bracket, or without any rule. -/
inductive Endless (cs : List Char) : Prop where
  | bracket {dashes level rest} (isFront : dashes = [] ∨ dashes = ['-', '-'])
      (opens : cs = dashes ++ (longOpener level ++ rest))
      (never : longBracket? level (longOpener level ++ rest) = none)
  | plain {cause} (noBracket : longLevel? cs = none)
      (noComment : ¬ ∃ after, cs = '-' :: '-' :: after)
      (unfinished : plain cs = .unfinished cause)

theorem endless {cs : List Char} {cause : Cause} (unfinished : first cs = .unfinished cause) :
    Endless cs := by
  by_cases isComment : ∃ after, cs = '-' :: '-' :: after
  · obtain ⟨after, rfl⟩ := isComment
    change comment after = _ at unfinished
    unfold comment at unfinished
    split at unfinished
    · rename_i level opens
      cases ends : longBracket? level after with
      | some s => rw [ends] at unfinished; contradiction
      | none =>
        obtain ⟨rest, rfl⟩ := longLevelSource opens
        exact .bracket (.inr rfl) rfl ends
    · contradiction
  · rw [firstOther isComment, bracketOr] at unfinished
    split at unfinished
    · rename_i level opens
      cases ends : longBracket? level cs with
      | some s => rw [ends] at unfinished; contradiction
      | none =>
        obtain ⟨rest, rfl⟩ := longLevelSource opens
        exact .bracket (.inl rfl) rfl ends
    · rename_i noBracket
      exact .plain noBracket isComment unfinished

/- A long bracket that is part of a lexeme ends within it. -/
theorem firstBracket {dashes rest : List Char} {level : Nat}
    (isFront : dashes = [] ∨ dashes = ['-', '-'])
    (never : longBracket? level (longOpener level ++ rest) = none) :
    ∃ cause, first (dashes ++ (longOpener level ++ rest)) = .unfinished cause := by
  rcases isFront with rfl | rfl
  · have noComment : ¬ ∃ after, longOpener level ++ rest = '-' :: '-' :: after := by
      rintro ⟨after, same⟩
      simp [longOpener] at same
    rw [List.nil_append, firstOther noComment, bracketOr, longLevelExact]
    exact ⟨_, by simp [never, Result.of]; rfl⟩
  · change ∃ cause, comment (longOpener level ++ rest) = .unfinished cause
    rw [comment, longLevelExact]
    exact ⟨_, by simp [never, Result.of]; rfl⟩

theorem wholeCut {text rest : List Char} {kind : Kind}
    (found : first (text ++ rest) = .lexeme kind text rest) : Whole kind text :=
  firstFaithful.cut (b := []) found

theorem staysApart {text rest : List Char} {kind : Kind}
    (found : first (text ++ rest) = .lexeme kind text rest) : ¬ RunsOn text rest := by
  -- What the text and the piece in front of the rest give by themselves follows by cutting.
  have cut {front : List Char} (ahead : front <+: rest) :
      first (text ++ front) = .lexeme kind text front := by
    obtain ⟨more, rfl⟩ := ahead
    rw [← List.append_assoc] at found
    exact firstFaithful.cut found
  rintro (⟨filled, ahead, longer⟩ | @⟨dashes, level, front, filled, ahead, isFront, opens⟩)
  · have same := (cut ahead).symm.trans longer
    simp only [Result.lexeme.injEq] at same
    exact filled same.2.2
  · have never : longBracket? level (longOpener level ++ []) = none := by
      rw [longBracketExact]
      rfl
    obtain ⟨cause, unfinished⟩ := firstBracket isFront never
    rw [List.append_nil, ← opens, cut ahead] at unfinished
    contradiction

theorem prefixOfAppend {a b c d : List Char} (same : a ++ b = c ++ d)
    (longer : a.length < c.length) : ∃ front, front ≠ [] ∧ front <+: b ∧ a ++ front = c := by
  obtain ⟨front, rfl, rest⟩ | ⟨front, rfl, -⟩ := List.append_eq_append_iff.mp same
  · refine ⟨front, ?_, ⟨d, rest.symm⟩, rfl⟩
    rintro rfl
    simp at longer
  · rw [List.length_append] at longer
    omega

theorem apartFound {text rest : List Char} {kind : Kind} (whole : Whole kind text)
    (apart : ¬ RunsOn text rest) : first (text ++ rest) = .lexeme kind text rest := by
  cases found : first (text ++ rest) with
  | lexeme kind' a b =>
    obtain ⟨split, -⟩ := firstFaithful.splits found
    rcases Nat.lt_trichotomy text.length a.length with longer | same | shorter
    · obtain ⟨front, filled, ahead, rfl⟩ := prefixOfAppend split longer
      rw [split] at found
      exact absurd (RunsOn.lexeme filled ahead (wholeCut found)) apart
    · obtain ⟨rfl, rfl⟩ := List.append_inj split same
      have both := (wholeCut found).symm.trans whole
      simp only [Result.lexeme.injEq] at both
      rw [both.1]
    · obtain ⟨front, filled, -, rfl⟩ := prefixOfAppend split.symm shorter
      rw [List.append_assoc, List.append_cancel_left_eq] at split
      rw [← split] at found
      have cut := firstFaithful.cut found
      rw [Whole, cut] at whole
      simp only [Result.lexeme.injEq] at whole
      exact absurd whole.2.2 filled
  | unfinished cause =>
    cases endless found with
    | @bracket dashes level inner isFront opens never =>
      rw [← List.append_assoc] at opens
      rcases Nat.lt_or_ge text.length (dashes ++ longOpener level).length with shorter | longer
      · obtain ⟨front, filled, ahead, opened⟩ := prefixOfAppend opens shorter
        exact absurd (RunsOn.bracket filled ahead isFront opened) apart
      · obtain ⟨piece, rfl⟩ := List.prefix_of_prefix_length_le ⟨inner, opens.symm⟩
          (List.prefix_append text rest) longer
        rw [List.append_assoc, List.append_cancel_left_eq] at opens
        -- The bracket ends within the text, so that it ends whatever follows.
        cases ends : longBracket? level (longOpener level ++ piece) with
        | none =>
          obtain ⟨cause, unfinished⟩ := firstBracket isFront ends
          rw [Whole, List.append_assoc, unfinished] at whole
          contradiction
        | some s =>
          obtain ⟨split, -, closed⟩ := longBracketSource (longLevelExact level piece) ends
          have ended := (closed (s.2 ++ rest)).2
          rw [← List.append_assoc, ← split, List.append_assoc, opens, never] at ended
          contradiction
    | plain noBracket noComment unfinished =>
      have shorter : ¬ ∃ after, text = '-' :: '-' :: after := by
        rintro ⟨after, rfl⟩
        exact noComment ⟨after ++ rest, rfl⟩
      obtain ⟨cause, unfinished⟩ := plainHopeless text rest _ unfinished
      rw [Whole, firstOther shorter, bracketOr, longLevelFails noBracket] at whole
      dsimp only at whole
      rw [unfinished] at whole
      contradiction

theorem firstPlain {c : Char} (noBracket : c ≠ '[') (noDash : c ≠ '-') (cs : List Char) :
    first (c :: cs) = plain (c :: cs) := by
  have noComment : ¬ ∃ after, c :: cs = '-' :: '-' :: after := by
    rintro ⟨after, same⟩
    exact noDash (List.cons_eq_cons.mp same).1
  have noLevel : longLevel? (c :: cs) = none := by
    unfold longLevel?
    split
    · rename_i same
      exact absurd (List.cons_eq_cons.mp same).1 noBracket
    · rfl
  rw [firstOther noComment, bracketOr, noLevel]

theorem wholePlain {kind : Kind} {c : Char} {cs : List Char} (noBracket : c ≠ '[')
    (noDash : c ≠ '-') (found : plain (c :: cs) = .lexeme kind (c :: cs) []) :
    Whole kind (c :: cs) := by
  rw [Whole, firstPlain noBracket noDash]
  exact found

theorem noNumber {c : Char} (noDigit : c.isDigit = false) (noPoint : c ≠ '.') (cs : List Char) :
    number? (c :: cs) = none := by
  have noHexadecimal : hexadecimal? (c :: cs) = none := by
    unfold hexadecimal?
    split
    · rename_i same
      rw [(List.cons_eq_cons.mp same).1] at noDigit
      exact absurd noDigit (by decide)
    · rfl
  have noDecimal : mantissa? Char.isDigit (c :: cs) = none :=
    mantissaNone.mpr ⟨noDigit, fun point => absurd point noPoint⟩
  rw [number?, noHexadecimal, decimal?, numeral?, noDecimal]
  rfl

theorem alphaIff {c : Char} :
    c.isAlpha = true ↔ 65 ≤ c.toNat ∧ c.toNat ≤ 90 ∨ 97 ≤ c.toNat ∧ c.toNat ≤ 122 := by
  change (decide (c.val ≥ 'A'.val ∧ c.val ≤ 'Z'.val) ||
    (decide (c.val ≥ 'a'.val) && decide (c.val ≤ 'z'.val))) = true ↔ _
  simp only [Bool.or_eq_true, Bool.and_eq_true, decide_eq_true_eq]
  exact Iff.rfl

theorem digitIff {c : Char} : c.isDigit = true ↔ 48 ≤ c.toNat ∧ c.toNat ≤ 57 := by
  simp only [Char.isDigit, Bool.and_eq_true, decide_eq_true_eq]
  exact Iff.rfl

theorem startNoDigit {c : Char} (starts : isNameStart c = true) : c.isDigit = false := by
  by_contra isDigit
  rw [Bool.not_eq_false, digitIff] at isDigit
  simp only [isNameStart, Bool.or_eq_true, beq_iff_eq, alphaIff] at starts
  rcases starts with isAlpha | rfl
  · omega
  · exact absurd isDigit (by decide)

theorem noQuote {c : Char} (other : c ≠ '"' ∧ c ≠ '\'') (cs : List Char) :
    quoted? (c :: cs) = none := by
  rw [quoted?, if_neg (not_or.mpr other)]

theorem wholeName {cs : List Char} (isName : Literal.isName (String.ofList cs) = true) :
    Whole (nameKind cs) cs := by
  cases cs with
  | nil => simp [Literal.isName] at isName
  | cons c cs =>
    simp only [Literal.isName, String.toList_ofList, Bool.and_eq_true, List.all_eq_true] at isName
    obtain ⟨starts, all⟩ := isName
    have differs {d : Char} (noStart : isNameStart d = false) : c ≠ d := by
      rintro rfl
      simp [starts] at noStart
    have ends : Stops isNameChar [] := by simp [Stops]
    have found : name? (c :: cs) = some (c :: cs, []) := by
      have run := takeRun all ends
      have left := dropRun all ends
      rw [List.append_nil] at run left
      rw [name?, if_pos starts, run, left]
    refine wholePlain (differs (by decide)) (differs (by decide)) ?_
    rw [plain, noQuote ⟨differs (by decide), differs (by decide)⟩,
      noNumber (startNoDigit starts) (differs (by decide)), found]

theorem wholeDigits {cs : List Char} (filled : cs ≠ []) (all : ∀ c ∈ cs, c.isDigit = true) :
    Whole .number cs := by
  obtain ⟨c, cs, rfl⟩ := List.exists_cons_of_ne_nil filled
  have differs {d : Char} (noDigit : d.isDigit = false) : c ≠ d := by
    rintro rfl
    simp [all c List.mem_cons_self] at noDigit
  have noHexadecimal : hexadecimal? (c :: cs) = none := by
    rw [Option.eq_none_iff_forall_ne_some]
    rintro ⟨a, b⟩ found
    obtain ⟨x, digits, rest, isHex, same, -⟩ := hexadecimalSource found
    have isDigit := all x (by simp [same])
    rcases isHex with rfl | rfl <;> revert isDigit <;> decide
  have decimal : decimal? (c :: cs) = some (c :: cs, []) := by
    have mantissa : Mantissa Char.isDigit (c :: cs) ([] ++ []) :=
      .whole filled all (by simp [Stops]) (by simp)
    have pure : Exponent (fun c => c == 'e' || c == 'E') [] [] := .absent (by rintro ⟨⟩)
    simpa [decimal?] using numeralExact (by decide) mantissa pure
  refine wholePlain (differs (by decide)) (differs (by decide)) ?_
  rw [plain, noQuote ⟨differs (by decide), differs (by decide)⟩, number?, noHexadecimal, decimal]
  rfl

theorem wholeNatural (n : Nat) : Whole .number (toString n).toList := by
  have digits : (toString n).toList = Nat.toDigits 10 n := by
    rw [show toString n = Nat.repr n from rfl, Nat.repr, String.toList_ofList]
  rw [digits]
  exact wholeDigits Nat.toDigits_ne_nil
    fun c member => Nat.isDigit_of_mem_toDigits (by decide) (by decide) member

theorem escapedEnd {c : Char} (noGap : c ≠ 'z') (cs : List Char) :
    quotedEnd? '"' false ('\\' :: c :: cs) =
      (quotedEnd? '"' false cs).map fun s => ('\\' :: c :: s.1, s.2) := by
  have gap : (c == 'z') = false := by simpa using noGap
  rw [quotedEnd?, gap]

theorem unescapedEnd {c : Char} (plain : c ≠ '"' ∧ c ≠ '\\' ∧ c ≠ '\n') (cs : List Char) :
    quotedEnd? '"' false (c :: cs) = (quotedEnd? '"' false cs).map fun s => (c :: s.1, s.2) := by
  rw [quotedEndPlain plain.2.1, if_neg plain.1, if_neg (by simp [plain.2.2])]
  rfl

theorem digitPlain (n : Nat) :
    Nat.digitChar (n % 10) ≠ 'z' ∧ Nat.digitChar (n % 10) ≠ '"' ∧ Nat.digitChar (n % 10) ≠ '\\' ∧
      Nat.digitChar (n % 10) ≠ '\n' := by
  have small := Nat.mod_lt n (show 10 > 0 by decide)
  generalize n % 10 = digit at small
  revert digit
  decide

theorem quotedEncoded (cs rest : List Char) :
    quotedEnd? '"' false (cs.flatMap Literal.encodeChar ++ '"' :: rest) =
      some (cs.flatMap Literal.encodeChar ++ ['"'], rest) := by
  induction cs with
  | nil => rfl
  | cons c cs ih =>
    rw [List.flatMap_cons, List.append_assoc, List.append_assoc]
    generalize cs.flatMap Literal.encodeChar = later at ih ⊢
    unfold Literal.encodeChar
    split
    · rename_i special
      have noGap : c ≠ 'z' := by rcases special with rfl | rfl <;> decide
      simp [escapedEnd noGap, ih]
    rename_i noSpecial
    rw [not_or] at noSpecial
    split
    · simp [escapedEnd, ih]
    rename_i inLine
    split
    · simp [escapedEnd, ih]
    split
    · simp [Literal.decimalEscape, escapedEnd, unescapedEnd, digitPlain, ih]
    · simp [unescapedEnd ⟨noSpecial.2, noSpecial.1, inLine⟩, ih]

theorem wholeQuote (s : String) : Whole .string (Literal.quote s).toList := by
  have closed : quoted? (Literal.quote s).toList = some ((Literal.quote s).toList, []) := by
    rw [Literal.quote, String.toList_ofList, List.cons_append, quoted?, if_pos (.inl rfl),
      quotedEncoded]
    rfl
  rw [Literal.quote, String.toList_ofList, List.cons_append] at closed ⊢
  refine wholePlain (by decide) (by decide) ?_
  rw [plain, closed]

end Lexeme

def Token.Spelled (t : Token) : Prop := Lexeme.Whole t.kind t.value.toList

/- Every token is spelled as what it is, and none runs on into the text behind it. -/
def Tokens.Apart : List Token → Prop
  | [] => True
  | t :: ts => t.Spelled ∧ ¬ Lexeme.RunsOn t.value.toList (text ts).toList ∧ Apart ts

namespace Lexer

theorem lexesSpelled {line : Nat} {cs : List Char} {l : Lexed} (lexed : Lexes line cs l) :
    ∀ t ∈ l.tokens, t.Spelled := by
  induction lexed with
  | ends => simp
  | fails unfinished => simp
  | next found later ih =>
    refine List.forall_mem_cons.mpr ⟨?_, ih⟩
    rw [Token.Spelled, lexeme, String.toList_ofList]
    exact Lexeme.wholeCut found

theorem lexName {name : String} (isName : Literal.isName name = true)
    (free : name ∉ reservedWords) (line : Nat) :
    lexFrom 0 line name.toList =
      ⟨[lexeme .iden name.toList line], none, line + name.toList.count '\n'⟩ := by
  have isWhole := @Lexeme.wholeName name.toList (by rwa [String.ofList_toList])
  have kind : Lexeme.nameKind name.toList = .iden := by
    rw [Lexeme.nameKind, String.ofList_toList, if_neg free]
  rw [kind] at isWhole
  have only := @lexCons .iden name.toList [] (by rw [List.append_nil]; exact isWhole) line
  rwa [List.append_nil] at only

def Gives (l : Lexed) (ts : List Token) : Prop :=
  l.failure = none ∧ Tokens.spelling l.tokens = Tokens.spelling ts

theorem lexesApart {line : Nat} {cs : List Char} {l : Lexed} (lexed : Lexes line cs l)
    {ts : List Token} (whole : cs = (Tokens.text ts).toList) :
    Gives l ts → Tokens.Apart ts := by
  rintro ⟨finished, same⟩
  induction lexed generalizing ts with
  | ends =>
    have none : ts = [] := by simpa [Tokens.spelling] using same.symm
    rw [none]
    trivial
  | fails unfinished => contradiction
  | @next line kind text rest l found later ih =>
    cases ts with
    | nil => simp [Tokens.spelling] at same
    | cons t ts =>
      simp only [Tokens.spelling, List.map_cons, List.cons.injEq, Prod.mk.injEq] at same
      obtain ⟨⟨rfl, value⟩, same⟩ := same
      have spelled : t.value.toList = text := by rw [← value, lexeme, String.toList_ofList]
      rw [Tokens.textCons, String.toList_append, spelled, List.append_cancel_left_eq] at whole
      refine ⟨?_, ?_, ih whole finished same⟩
      · rw [Token.Spelled, spelled]
        exact Lexeme.wholeCut found
      · rw [spelled, ← whole]
        exact Lexeme.staysApart found

theorem apartGives {ts : List Token} (apart : Tokens.Apart ts) (line : Nat) :
    Gives (lexFrom 0 line (Tokens.text ts).toList) ts := by
  induction ts generalizing line with
  | nil => exact ⟨rfl, rfl⟩
  | cons t ts ih =>
    obtain ⟨spelled, apart, later⟩ := apart
    have found := Lexeme.apartFound spelled apart
    obtain ⟨finished, same⟩ := ih later (line + t.value.toList.count '\n')
    rw [Tokens.textCons, String.toList_append, lexCons found]
    refine ⟨finished, ?_⟩
    rw [Tokens.spelling, List.map_cons, lexeme, String.ofList_toList]
    exact congrArg ((t.kind, t.value) :: ·) same

theorem givesIff (ts : List Token) : Gives (lex (Tokens.text ts)) ts ↔ Tokens.Apart ts :=
  ⟨lexesApart (lexes 1 _) rfl, fun apart => apartGives apart 1⟩

end Lexer

end LuaExpander
