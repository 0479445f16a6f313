import LuaExpander.Proofs.Spelling
import Mathlib.Data.List.TakeWhile

/-! Texts put together. Where a text ends in a word or an operator and the next one begins with a
blank or a bracket, neither changes what the other is lexed to. -/
namespace LuaExpander

namespace Lexeme

/- No word, number or operator goes on past this character. -/
def Parts (c : Char) : Prop :=
  isNameChar c = false ∧ c ∉ ['.', '+', '-', '[', '='] ∧ ∀ o ∈ longOperators, c ∉ o

instance (c : Char) : Decidable (Parts c) := by unfold Parts; infer_instance

theorem startInner {c : Char} (starts : isNameStart c = true) : isNameChar c = true := by
  simp only [isNameStart, isNameChar, Char.isAlphanum, Bool.or_eq_true] at starts ⊢
  rcases starts with isAlpha | isLine
  · exact .inl (.inl isAlpha)
  · exact .inr isLine

theorem digitInner {c : Char} (isDigit : c.isDigit = true) : isNameChar c = true := by
  simp [isNameChar, Char.isAlphanum, isDigit]

theorem hexInner {c : Char} (isHex : isHexDigit c = true) : isNameChar c = true := by
  simp only [isHexDigit, Bool.or_eq_true, Bool.and_eq_true, decide_eq_true_eq, digitIff] at isHex
  simp only [isNameChar, Char.isAlphanum, Bool.or_eq_true, alphaIff, digitIff]
  rcases isHex with (isDigit | ⟨above, below⟩) | ⟨above, below⟩
  · exact .inl (.inr isDigit)
  · exact .inl (.inl (.inr ⟨above, Nat.le_trans below (by decide)⟩))
  · exact .inl (.inl (.inl ⟨above, Nat.le_trans below (by decide)⟩))

theorem blankOutside {c : Char} (isBlank : Text.isBlank c = true) : isNameChar c = false := by
  simp only [Text.isBlank, Bool.or_eq_true, Bool.and_eq_true, decide_eq_true_eq] at isBlank
  by_contra inner
  simp only [isNameChar, Char.isAlphanum, Bool.not_eq_false, Bool.or_eq_true, beq_iff_eq, alphaIff,
    digitIff] at inner
  rcases inner with (isAlpha | isDigit) | rfl
  · omega
  · omega
  · exact absurd isBlank (by decide)

theorem nameInner {cs a b : List Char} (found : name? cs = some (a, b)) :
    ∀ c ∈ a, isNameChar c = true := by
  cases cs with
  | nil => contradiction
  | cons c cs =>
    rw [name?] at found
    split at found
    · rename_i starts
      cases found
      exact List.forall_mem_cons.mpr ⟨startInner starts, allTaken⟩
    · contradiction

theorem mantissaInner {digit : Char → Bool} {a b : List Char} (mantissa : Mantissa digit a b) :
    ∀ c ∈ a, digit c = true ∨ c = '.' := by
  cases mantissa with
  | whole filled all stops pointless => exact fun c inside => .inl (all c inside)
  | point filled all allPart stops =>
    intro c inside
    rcases List.mem_append.mp inside with inside | inside
    · exact .inl (all c inside)
    · rcases List.mem_cons.mp inside with rfl | inside
      · exact .inr rfl
      · exact .inl (allPart c inside)

theorem exponentInner {letter : Char → Bool} {a b : List Char} (exponential : Exponent letter a b) :
    ∀ c ∈ a, letter c = true ∨ c.isDigit = true ∨ c ∈ ['+', '-'] := by
  cases exponential with
  | @power first mark digits rest isLetter isMark filled all stops =>
    intro c inside
    rcases List.mem_cons.mp inside with rfl | inside
    · exact .inl isLetter
    · rcases List.mem_append.mp inside with inside | inside
      · simp only [List.mem_cons, List.not_mem_nil, or_false] at isMark
        rcases isMark with rfl | rfl | rfl <;> simp_all
      · exact .inr (.inl (all c inside))
  | absent none => simp

theorem numeralInner {digit letter : Char → Bool}
    (digits : ∀ c, digit c = true → isNameChar c = true)
    (letters : ∀ c, letter c = true → isNameChar c = true) {cs a b : List Char}
    (found : numeral? digit letter cs = some (a, b)) :
    ∀ c ∈ a, isNameChar c = true ∨ c ∈ ['.', '+', '-'] := by
  obtain ⟨m, e, rfl, -, mantissa, exponential⟩ := numeralSource found
  intro c inside
  rcases List.mem_append.mp inside with inside | inside
  · rcases mantissaInner mantissa c inside with isDigit | rfl
    · exact .inl (digits c isDigit)
    · exact .inr (by simp)
  · rcases exponentInner exponential c inside with isLetter | isDigit | isSign
    · exact .inl (letters c isLetter)
    · exact .inl (digitInner isDigit)
    · exact .inr (List.mem_cons_of_mem _ isSign)

theorem numberInner {cs a b : List Char} (found : number? cs = some (a, b)) :
    ∀ c ∈ a, isNameChar c = true ∨ c ∈ ['.', '+', '-'] := by
  have letters {upper lower : Char} (one : isNameChar lower = true)
      (other : isNameChar upper = true) (c : Char) (isLetter : (c == lower || c == upper) = true) :
      isNameChar c = true := by
    simp only [Bool.or_eq_true, beq_iff_eq] at isLetter
    rcases isLetter with rfl | rfl
    · exact one
    · exact other
  rcases Option.or_eq_some_iff.mp found with found | ⟨-, found⟩
  · obtain ⟨x, digits, rest, isHex, -, rfl, inner⟩ := hexadecimalSource found
    refine List.forall_mem_cons.mpr ⟨.inl (by decide), List.forall_mem_cons.mpr ⟨.inl ?_, ?_⟩⟩
    · rcases isHex with rfl | rfl <;> decide
    · exact numeralInner (fun c => hexInner) (letters (by decide) (by decide)) inner
  · exact numeralInner (fun c => digitInner) (letters (by decide) (by decide)) found

theorem ofFound {kind found : Kind} {cause : Cause} {answer : Option Split} {text rest : List Char}
    (applied : Result.of kind cause answer = .lexeme found text rest) :
    answer = some (text, rest) := by
  cases answer with
  | none => contradiction
  | some s =>
    cases applied
    rfl

theorem quotedCrosses {a b text : List Char} {c : Char} (filled : a ≠ [])
    (whole : quoted? (a ++ c :: b) = some (text, [])) : ∃ cause, plain a = .unfinished cause := by
  obtain ⟨q, a, rfl⟩ := List.exists_cons_of_ne_nil filled
  have unclosed : quoted? (q :: a) = none := by
    rw [Option.eq_none_iff_forall_ne_some]
    rintro ⟨early, late⟩ found
    have ended := quotedClosed.rest found (late ++ c :: b)
    rw [← List.append_assoc, ← (quotedClosed.splits found).1, whole] at ended
    simp at ended
  have isQuote : q = '"' ∨ q = '\'' := by
    rw [List.cons_append, quoted?] at whole
    by_contra other
    rw [if_neg other] at whole
    contradiction
  rw [plain, unclosed]
  rcases isQuote with rfl | rfl <;> exact ⟨_, rfl⟩

theorem blankCrosses {a b text : List Char} {c : Char} (filled : a ≠ [])
    (whole : blank? (a ++ c :: b) = some (text, [])) : ∃ front, blank? a = some (front, []) := by
  obtain ⟨x, a, rfl⟩ := List.exists_cons_of_ne_nil filled
  have starts : Text.isBlank x = true := by
    by_contra other
    rw [List.cons_append, blank?, if_neg other] at whole
    contradiction
  rw [List.cons_append, blank?, if_pos starts, Option.some.injEq, Prod.mk.injEq,
    List.dropWhile_eq_nil_iff] at whole
  have none : a.dropWhile Text.isBlank = [] :=
    List.dropWhile_eq_nil_iff.mpr fun d member => whole.2 d (List.mem_append_left _ member)
  exact ⟨_, by rw [blank?, if_pos starts, none]⟩

theorem prefixBeyond {front rest more : List Char} {c : Char}
    (ahead : front <+: rest ++ c :: more) :
    front <+: rest ∨ ∃ b, front = rest ++ c :: b := by
  rcases Nat.le_total front.length rest.length with shorter | longer
  · exact .inl (List.prefix_of_prefix_length_le ahead (List.prefix_append _ _) shorter)
  · obtain ⟨late, rfl⟩ := List.prefix_of_prefix_length_le (List.prefix_append _ _) ahead longer
    rw [List.prefix_append_right_inj] at ahead
    cases late with
    | nil => exact .inl (by simp)
    | cons d late =>
      obtain ⟨rfl, -⟩ := List.cons_prefix_cons.mp ahead
      exact .inr ⟨late, rfl⟩

section

variable {a b text text' rest : List Char} {c : Char} {kind k : Kind} (parts : Parts c)
include parts

-- The opening bracket has no such character in it, so that the text before holds all of it.
theorem openerBefore {level : Nat} {inner : List Char}
    (opens : a ++ c :: b = longOpener level ++ inner) :
    ∃ before, a = longOpener level ++ before := by
  rcases Nat.lt_or_ge a.length (longOpener level).length with shorter | longer
  · obtain ⟨front, filled, ahead, opener⟩ := prefixOfAppend opens shorter
    obtain ⟨d, front, rfl⟩ := List.exists_cons_of_ne_nil filled
    obtain ⟨rfl, -⟩ := List.cons_prefix_cons.mp ahead
    have inside : d ∈ longOpener level := by simp [← opener]
    have other : d ≠ '[' ∧ d ≠ '=' := by
      constructor <;> rintro rfl <;> exact absurd parts (by decide)
    simp [longOpener, other] at inside
  · obtain ⟨before, rfl⟩ := List.prefix_of_prefix_length_le ⟨inner, opens.symm⟩
      (List.prefix_append a (c :: b)) longer
    exact ⟨before, rfl⟩

theorem bracketCrosses {level : Nat} {inner : List Char}
    (opens : longLevel? (a ++ c :: b) = some level)
    (ends : longBracket? level (a ++ c :: b) = some (inner, [])) :
    longLevel? a = some level ∧ longBracket? level a = none := by
  obtain ⟨rest, split⟩ := longLevelSource opens
  obtain ⟨before, rfl⟩ := openerBefore parts split
  refine ⟨longLevelExact level before, ?_⟩
  rw [Option.eq_none_iff_forall_ne_some]
  rintro ⟨early, late⟩ found
  obtain ⟨splits, -, closed⟩ := longBracketSource (longLevelExact level before) found
  have ended := (closed (late ++ c :: b)).2
  rw [← List.append_assoc, ← splits, ends] at ended
  simp at ended

theorem commentCrosses (whole : comment (a ++ c :: b) = .lexeme kind text' [])
    (found : comment a = .lexeme k text rest) : (k = .comment ∧ c ≠ '\n') ∧ rest = [] := by
  unfold comment at whole found
  cases opens : longLevel? (a ++ c :: b) with
  | some level =>
    rw [opens] at whole
    obtain ⟨⟨inner, left⟩, ends, last⟩ := Option.map_eq_some_iff.mp (ofFound whole)
    cases last
    obtain ⟨also, never⟩ := bracketCrosses parts opens ends
    rw [also] at found
    dsimp only at found
    rw [never] at found
    contradiction
  | none =>
    rw [opens] at whole
    rw [longLevelFails opens] at found
    cases found
    have inLine : (a ++ c :: b).dropWhile (· != '\n') = [] := by injection whole
    rw [List.dropWhile_eq_nil_iff] at inLine
    refine ⟨⟨rfl, by simpa using inLine c (by simp)⟩, ?_⟩
    exact List.dropWhile_eq_nil_iff.mpr fun d inside => inLine d (List.mem_append_left _ inside)

theorem plainCrosses (filled : a ≠ []) (whole : plain (a ++ c :: b) = .lexeme kind text' [])
    (found : plain a = .lexeme k text rest) : k = .space ∧ rest = [] := by
  have split := (plainFaithful.splits whole).1
  rw [List.append_nil] at split
  have inside : c ∈ text' := by simp [← split]
  -- The rule that takes the longer text: one for strings would leave the shorter one open, and none
  -- but that for blanks can take the character.
  unfold plain at whole
  split at whole
  · rename_i s closed
    cases s
    cases whole
    obtain ⟨cause, unfinished⟩ := quotedCrosses filled closed
    rw [unfinished] at found
    contradiction
  rename_i noQuote
  split at whole
  · rename_i s isNumber
    cases s
    cases whole
    rcases numberInner isNumber c inside with isInner | isInner
    · simp [parts.1] at isInner
    · exact absurd (List.mem_append_left ['[', '='] isInner) parts.2.1
  rename_i noNumber
  split at whole
  · rename_i s isName
    cases s
    cases whole
    have isInner := nameInner isName c inside
    simp [parts.1] at isInner
  rename_i noName
  split at whole
  · rename_i s isBlank
    cases s
    cases whole
    rw [plain, quotedClosed.isLocal.fails noQuote, numberLocal.fails noNumber,
      nameLocal.fails noName] at found
    obtain ⟨front, short⟩ := blankCrosses filled isBlank
    rw [short] at found
    cases found
    exact ⟨rfl, rfl⟩
  · obtain ⟨-, -, isLong | ⟨-, d, rfl, -⟩⟩ := operatorSource (ofFound whole)
    · exact absurd inside (parts.2.2 _ (List.mem_of_find?_eq_some isLong))
    · obtain ⟨x, a, rfl⟩ := List.exists_cons_of_ne_nil filled
      simp at split

theorem crosses (whole : Whole kind (a ++ c :: b)) (found : first a = .lexeme k text rest) :
    (k = .comment ∧ c ≠ '\n' ∨ k = .space) ∧ rest = [] := by
  by_cases isComment : ∃ after, a ++ c :: b = '-' :: '-' :: after
  · obtain ⟨after, same⟩ := isComment
    rw [Whole, same] at whole
    cases a with
    | nil => contradiction
    | cons x a =>
      cases a with
      | nil =>
        cases same
        exact absurd parts (by decide)
      | cons y a =>
        cases same
        obtain ⟨isComment, none⟩ := commentCrosses parts whole found
        exact ⟨.inl isComment, none⟩
  · have shorter : ¬ ∃ after, a = '-' :: '-' :: after := by
      rintro ⟨after, rfl⟩
      exact isComment ⟨after ++ c :: b, rfl⟩
    rw [Whole, firstOther isComment, bracketOr] at whole
    rw [firstOther shorter, bracketOr] at found
    cases opens : longLevel? (a ++ c :: b) with
    | some level =>
      rw [opens] at whole
      obtain ⟨also, never⟩ := bracketCrosses parts opens (ofFound whole)
      rw [also] at found
      dsimp only at found
      rw [never] at found
      contradiction
    | none =>
      rw [opens] at whole
      rw [longLevelFails opens] at found
      have filled : a ≠ [] := by
        obtain ⟨rfl, filled⟩ := plainFaithful.splits found
        simp [filled]
      obtain ⟨isSpace, none⟩ := plainCrosses parts filled whole found
      exact ⟨.inr isSpace, none⟩

/- A word or an operator keeps apart from what follows such a character, and a comment from what
follows the line. -/
theorem partsApart {more : List Char} (found : first (text ++ rest) = .lexeme k text rest)
    (solid : rest = [] → k.isBlank = false ∨ k = .comment ∧ c = '\n') :
    ¬ RunsOn text (rest ++ c :: more) := by
  rintro (⟨filled, ahead, longer⟩ | @⟨dashes, level, front, filled, ahead, isFront, opens⟩)
  · rcases prefixBeyond ahead with inside | ⟨b, rfl⟩
    · exact staysApart found (.lexeme filled inside longer)
    · rw [← List.append_assoc] at longer
      obtain ⟨isBlank, none⟩ := crosses parts longer found
      rcases solid none with notBlank | ⟨isComment, isEnd⟩
      · rcases isBlank with ⟨rfl, -⟩ | rfl <;> contradiction
      · subst isComment
        exact isBlank.elim (fun inLine => inLine.2 isEnd) (by simp)
  · rcases prefixBeyond ahead with inside | ⟨b, rfl⟩
    · exact staysApart found (.bracket filled inside isFront opens)
    · have inside : c ∈ dashes ++ longOpener level := by simp [← opens]
      have other : c ≠ '-' ∧ c ≠ '[' ∧ c ≠ '=' := by
        refine ⟨?_, ?_, ?_⟩ <;> rintro rfl <;> exact absurd parts (by decide)
      rcases isFront with rfl | rfl <;> simp [longOpener, other] at inside

end

theorem firstBlank {c : Char} (isBlank : Text.isBlank c = true) (cs : List Char) :
    first (c :: cs) =
      .lexeme .space (c :: cs.takeWhile Text.isBlank) (cs.dropWhile Text.isBlank) := by
  have differs {d : Char} (notBlank : Text.isBlank d = false) : c ≠ d := by
    rintro rfl
    simp [isBlank] at notBlank
  have outside := blankOutside isBlank
  have noDigit : c.isDigit = false := by
    by_contra digit
    simp [digitInner (by simpa using digit)] at outside
  have noStart : ¬ isNameStart c = true := fun starts => by simp [startInner starts] at outside
  rw [firstPlain (differs (by decide)) (differs (by decide)), plain,
    noQuote ⟨differs (by decide), differs (by decide)⟩, noNumber noDigit (differs (by decide)),
    name?, if_neg noStart, blank?, if_pos isBlank]

end Lexeme

theorem Tokens.stripSpace {t : Token} (isSpace : t.kind = .space) (ts : List Token) :
    strip (t :: ts) = strip ts := by
  simp [strip, isSpace, Kind.isSolid]

namespace Lexer

variable {line : Nat} {cs : List Char} {l : Lexed}

theorem lexesNone (lexed : Lexes line [] l) : l.tokens = [] := by
  generalize none : [] = cs at lexed
  cases lexed with
  | ends => rfl
  | fails unfinished => contradiction
  | next found later =>
    have filled := (Lexeme.firstFaithful.splits found).2
    exact absurd (List.append_eq_nil_iff.mp none.symm).1 filled

/- A text behind such a joint is lexed as if nothing stood before it, further down. -/
theorem lexJoined {c : Char} (parts : Lexeme.Parts c) (lexed : Lexes line cs l)
    (finished : l.failure = none) (solid : ∀ t ∈ l.tokens.getLast?, t.kind.isBlank = false)
    (more : List Char) :
    lexFrom 0 line (cs ++ c :: more) =
      let after := lexFrom 0 l.lastLine (c :: more)
      { after with tokens := l.tokens ++ after.tokens } := by
  induction lexed with
  | ends => rfl
  | fails unfinished => contradiction
  | @next line kind text rest l found later ih =>
    have isLast : rest = [] → kind.isBlank = false ∨ kind = .comment ∧ c = '\n' := by
      rintro rfl
      exact .inl (solid (lexeme kind text line) (by simp [lexesNone later]))
    have apart : ¬ Lexeme.RunsOn text (rest ++ c :: more) := Lexeme.partsApart parts found isLast
    have further := ih finished fun t inside => solid t (by
      rw [List.getLast?_cons, Option.mem_def.mp inside]
      rfl)
    rw [List.append_assoc, lexCons (Lexeme.apartFound (Lexeme.wholeCut found) apart), further]
    rfl

theorem lexesLast (lexed : Lexes line cs l) (finished : l.failure = none) :
    l.lastLine = line + cs.count '\n' := by
  induction lexed with
  | ends => rfl
  | fails unfinished => contradiction
  | next found later ih => rw [List.count_append, ← Nat.add_assoc, ih finished]

/- Where a text stands says nothing about its tokens and its failures. -/
theorem lexElsewhere (lexed : Lexes line cs l) (line' : Nat) :
    Tokens.spelling (lexFrom 0 line' cs).tokens = Tokens.spelling l.tokens ∧
      (lexFrom 0 line' cs).failure.map (·.cause) = l.failure.map (·.cause) := by
  induction lexed generalizing line' with
  | ends => exact ⟨rfl, rfl⟩
  | @fails line c cs cause unfinished =>
    have failed : lexFrom 0 line' (c :: cs) = ⟨[], some ⟨cause, some line', none⟩, line'⟩ := by
      rw [lexFrom]
      simp only [unfinished]
    rw [failed]
    exact ⟨rfl, rfl⟩
  | @next line kind text rest l found later ih =>
    obtain ⟨tokens, failure⟩ := ih (line' + text.count '\n')
    rw [lexCons found]
    exact ⟨congrArg ((kind, String.ofList text) :: ·) tokens, failure⟩

theorem lexBlank {c : Char} (isBlank : Text.isBlank c = true) (line : Nat) (cs : List Char) :
    lexFrom 0 line (c :: cs) =
      let after := lexFrom 0 (line + (c :: cs.takeWhile Text.isBlank).count '\n')
        (cs.dropWhile Text.isBlank)
      { after with
        tokens := lexeme .space (c :: cs.takeWhile Text.isBlank) line :: after.tokens } := by
  have split : (c :: cs.takeWhile Text.isBlank) ++ cs.dropWhile Text.isBlank = c :: cs := by simp
  have found := Lexeme.firstBlank isBlank cs
  rw [← split] at found
  have next := lexCons found line
  rwa [split] at next

theorem lexSpaced (line : Nat) (cs : List Char) :
    ∃ run more, (lexFrom 0 line (' ' :: cs)).tokens = lexeme .space (' ' :: run) line :: more ∧
      Tokens.strip more = Tokens.strip (lexFrom 0 line cs).tokens ∧
      (lexFrom 0 line (' ' :: cs)).failure = (lexFrom 0 line cs).failure := by
  have noLine (run : List Char) : (' ' :: run).count '\n' = run.count '\n' := by simp
  rw [lexBlank (by decide), noLine]
  refine ⟨_, _, rfl, ?_⟩
  cases cs with
  | nil => exact ⟨rfl, rfl⟩
  | cons c cs =>
    by_cases isBlank : Text.isBlank c = true
    · rw [lexBlank isBlank, List.takeWhile_cons_of_pos isBlank, List.dropWhile_cons_of_pos isBlank]
      exact ⟨(Tokens.stripSpace rfl _).symm, rfl⟩
    · rw [List.takeWhile_cons_of_neg isBlank, List.dropWhile_cons_of_neg isBlank]
      exact ⟨rfl, rfl⟩

end Lexer

end LuaExpander
