import LuaExpander.Proofs.Heading

/-! Quoted strings. A quoted string is made of items between two quotes: characters, escaped
characters, and gaps with the blanks that they skip. Where an item ends is not always certain, since
blanks behind a gap are characters as well, but where the string ends is. The lexer finds that end,
and writing a text as a literal and reading it gives the text back. -/
namespace LuaExpander

namespace Lexeme

inductive Item (quote : Char) : List Char → Prop where
  | plain {c} (other : c ≠ quote ∧ c ≠ '\\' ∧ c ≠ '\n') : Item quote [c]
  | escaped (c) : Item quote ['\\', c]
  | gap {blanks} (blank : ∀ c ∈ blanks, Text.isBlank c = true) : Item quote ('\\' :: 'z' :: blanks)

def IsQuoted (quote : Char) (text : List Char) : Prop :=
  ∃ items : List (List Char), (∀ item ∈ items, Item quote item) ∧
    text = quote :: (items.flatten ++ [quote])

variable {quote : Char} {cs a b : List Char}

/- After a gap, blanks may come before the next item. -/
theorem quotedEndItems {skipping : Bool} (found : quotedEnd? quote skipping cs = some (a, b)) :
    ∃ blanks items, a = blanks ++ (List.flatten items ++ [quote]) ∧
      (∀ item ∈ items, Item quote item) ∧ (∀ c ∈ blanks, Text.isBlank c = true) ∧
      (skipping = false → blanks = []) := by
  fun_induction quotedEnd? quote skipping cs generalizing a b with
  | case1 => contradiction
  | case2 skipping c cs ih =>
    obtain ⟨⟨inner, rest⟩, deeper, last⟩ := Option.map_eq_some_iff.mp found
    cases last
    obtain ⟨blanks, items, rfl, each, blank, none⟩ := ih deeper
    have first : Item quote ('\\' :: c :: blanks) := by
      by_cases isGap : c = 'z'
      · subst isGap
        exact .gap blank
      · rw [none (by simpa using isGap)]
        exact .escaped c
    exact ⟨[], ('\\' :: c :: blanks) :: items, by simp, List.forall_mem_cons.mpr ⟨first, each⟩,
      by simp, fun _ => rfl⟩
  | case3 skipping cs =>
    cases found
    exact ⟨[], [], rfl, by simp, by simp, fun _ => rfl⟩
  | case4 => contradiction
  | case5 => contradiction
  | case6 skipping c cs _ noQuote plain inLine ih =>
    obtain ⟨⟨inner, rest⟩, deeper, last⟩ := Option.map_eq_some_iff.mp found
    cases last
    obtain ⟨blanks, items, rfl, each, blank, none⟩ := ih deeper
    by_cases skips : (skipping && Text.isBlank c) = true
    · obtain ⟨isSkipping, isBlank⟩ := Bool.and_eq_true_iff.mp skips
      exact ⟨c :: blanks, items, rfl, each, List.forall_mem_cons.mpr ⟨isBlank, blank⟩,
        by simp [isSkipping]⟩
    · have noLine : c ≠ '\n' := by
        rintro rfl
        have isSkipping : skipping = true := by simpa using inLine
        exact skips (by rw [isSkipping]; rfl)
      have first : Item quote [c] := .plain ⟨noQuote, plain, noLine⟩
      rw [none (by simpa using skips)]
      exact ⟨[], [c] :: items, rfl, List.forall_mem_cons.mpr ⟨first, each⟩, by simp, fun _ => rfl⟩

section

variable (isQuote : quote = '"' ∨ quote = '\'')
include isQuote

theorem quotedEndBlanks {blanks : List Char} (blank : ∀ c ∈ blanks, Text.isBlank c = true) :
    quotedEnd? quote true (blanks ++ cs) =
      (quotedEnd? quote true cs).map fun s => (blanks ++ s.1, s.2) := by
  induction blanks with
  | nil => simp
  | cons c blanks ih =>
    obtain ⟨isBlank, later⟩ := List.forall_mem_cons.mp blank
    have differs {d : Char} (notBlank : Text.isBlank d = false) : c ≠ d := by
      rintro rfl
      simp [isBlank] at notBlank
    have noQuote : c ≠ quote := by rcases isQuote with rfl | rfl <;> exact differs (by decide)
    rw [List.cons_append, quotedEndPlain (differs (by decide)), if_neg noQuote, if_neg (by simp),
      isBlank, Bool.and_true, ih later, Option.map_map]
    rfl

theorem itemsEnd {items : List (List Char)} (each : ∀ item ∈ items, Item quote item)
    (skipping : Bool) (rest : List Char) :
    quotedEnd? quote skipping (items.flatten ++ quote :: rest) =
      some (items.flatten ++ [quote], rest) := by
  induction items generalizing skipping with
  | nil =>
    have noEscape : quote ≠ '\\' := by rcases isQuote with rfl | rfl <;> decide
    rw [List.flatten_nil, List.nil_append, quotedEndPlain noEscape, if_pos rfl]
    rfl
  | cons item items ih =>
    obtain ⟨first, later⟩ := List.forall_mem_cons.mp each
    cases first with
    | @plain c other =>
      rw [List.flatten_cons, List.singleton_append, List.cons_append, quotedEndPlain other.2.1,
        if_neg other.1, if_neg (by simp [other.2.2]), ih later]
      rfl
    | escaped c =>
      rw [List.flatten_cons, List.append_assoc, List.cons_append, List.singleton_append, quotedEnd?,
        ih later]
      rfl
    | @gap blanks blank =>
      rw [List.flatten_cons, List.append_assoc, List.cons_append, List.cons_append, quotedEnd?,
        beq_self_eq_true, quotedEndBlanks isQuote blank, ih later]
      simp

theorem quotedIff :
    quoted? (quote :: cs) = some (a, b) ↔ IsQuoted quote a ∧ quote :: cs = a ++ b := by
  constructor
  · intro found
    have whole := (quotedClosed.splits found).1
    rw [quoted?, if_pos isQuote] at found
    obtain ⟨⟨inner, rest⟩, ended, last⟩ := Option.map_eq_some_iff.mp found
    cases last
    obtain ⟨blanks, items, rfl, each, -, none⟩ := quotedEndItems ended
    rw [none rfl] at whole ⊢
    exact ⟨⟨items, each, rfl⟩, whole⟩
  · rintro ⟨⟨items, each, rfl⟩, whole⟩
    have inner : cs = items.flatten ++ quote :: b := by simpa using whole
    rw [inner, quoted?, if_pos isQuote, itemsEnd isQuote each]
    rfl

end

end Lexeme

namespace Lexer

open Lexeme

theorem quotedLexedExactly {quote : Char} (isQuote : quote = '"' ∨ quote = '\'') (cs : List Char)
    (line : Nat) :
    (∀ a b, IsQuoted quote a → IsQuoted quote b → a <+: quote :: cs → b <+: quote :: cs → a = b) ∧
    (∀ a rest, IsQuoted quote a → quote :: cs = a ++ rest →
      lexFrom 0 line (quote :: cs) =
        let after := lexFrom 0 (line + a.count '\n') rest
        { after with tokens := lexeme .string a line :: after.tokens }) ∧
    ((¬ ∃ a, IsQuoted quote a ∧ a <+: quote :: cs) →
      ∃ e, e.kind = .unexpectedToken ∧ e.line = some (line : Int) ∧
        lexFrom 0 line (quote :: cs) = ⟨[], some e, line⟩) := by
  have noBracket : quote ≠ '[' := by rcases isQuote with rfl | rfl <;> decide
  have noDash : quote ≠ '-' := by rcases isQuote with rfl | rfl <;> decide
  refine ⟨?_, ?_, ?_⟩
  · rintro a b quotedA quotedB ⟨restA, wholeA⟩ ⟨restB, wholeB⟩
    have found := (quotedIff isQuote).mpr ⟨quotedA, wholeA.symm⟩
    rw [(quotedIff isQuote).mpr ⟨quotedB, wholeB.symm⟩] at found
    exact (Prod.mk.inj (Option.some.inj found)).1.symm
  · intro a rest isQuoted whole
    have found : first (a ++ rest) = .lexeme .string a rest := by
      rw [← whole, firstPlain noBracket noDash, plain, (quotedIff isQuote).mpr ⟨isQuoted, whole⟩]
    rw [whole]
    exact lexCons found line
  · intro none
    have unclosed : quoted? (quote :: cs) = Option.none := by
      rw [Option.eq_none_iff_forall_ne_some]
      rintro ⟨a, b⟩ found
      obtain ⟨isQuoted, whole⟩ := (quotedIff isQuote).mp found
      exact none ⟨a, isQuoted, b, whole.symm⟩
    obtain ⟨cause, unfinished⟩ : ∃ cause, first (quote :: cs) = .unfinished cause := by
      rw [firstPlain noBracket noDash, plain, unclosed]
      rcases isQuote with rfl | rfl <;> exact ⟨_, rfl⟩
    refine ⟨⟨cause, some line, Option.none⟩, (firstFails unfinished).1, rfl, ?_⟩
    rw [lexFrom]
    simp only [unfinished]

-- The blanks behind the gap hold a line end, and the quote that follows is never closed.
theorem quotedLexedOverLines :
    IsQuoted '"' "\"a\\z \n b\"".toList ∧ (¬ ∃ a, IsQuoted '\'' a ∧ a <+: "'c".toList) ∧
      ∃ e, e.kind = .unexpectedToken ∧ e.line = some 2 ∧
        lex "\"a\\z \n b\"'c" = ⟨[⟨.string, "\"a\\z \n b\"", some 1, none, none⟩], some e, 2⟩ := by
  have isQuoted : IsQuoted '"' "\"a\\z \n b\"".toList := by
    refine ⟨[['a'], ['\\', 'z', ' ', '\n', ' '], ['b']], ?_, rfl⟩
    simp only [List.forall_mem_cons, List.not_mem_nil, false_imp_iff, implies_true, and_true]
    exact ⟨.plain (by decide), @Item.gap '"' [' ', '\n', ' '] (by simp; decide),
      .plain (by decide)⟩
  have unclosed : ¬ ∃ a, IsQuoted '\'' a ∧ a <+: "'c".toList := by
    rintro ⟨a, isQuoted, rest, whole⟩
    have found := (quotedIff (.inr rfl)).mpr ⟨isQuoted, whole.symm⟩
    have none : quoted? "'c".toList = Option.none := by decide
    exact absurd (none.symm.trans found) (by simp)
  obtain ⟨-, lexed, -⟩ := quotedLexedExactly (.inl rfl) "a\\z \n b\"'c".toList 1
  obtain ⟨-, -, fails⟩ := quotedLexedExactly (.inr rfl) ['c'] 2
  obtain ⟨e, kind, place, failed⟩ := fails unclosed
  have first := lexed _ "'c".toList isQuoted rfl
  have later : lexFrom 0 (1 + "\"a\\z \n b\"".toList.count '\n') "'c".toList = ⟨[], some e, 2⟩ :=
    failed
  rw [later] at first
  exact ⟨isQuoted, unclosed, e, kind, place, first⟩

end Lexer

namespace Literal

theorem unescapeSkips (skip : Nat) (cs : List Char) :
    unescape skip cs = unescape 0 (cs.drop skip) := by
  induction cs generalizing skip with
  | nil => simp [unescape]
  | cons c cs ih =>
    cases skip with
    | zero => rfl
    | succ skip =>
      rw [unescape, List.drop_succ_cons]
      exact ih skip

theorem unescapePlain {c : Char} (plain : c ≠ '\\') (cs : List Char) :
    unescape 0 (c :: cs) = (c :: ·) <$> unescape 0 cs := by
  rw [unescape]
  · rfl
  · simp [plain]

theorem unescapeEscape {next c : Char} {rest : List Char} {e : Escape} {more : Nat}
    (escapes : escape next rest = (e, more)) (stands : e.text = .ok [c]) :
    unescape 0 ('\\' :: next :: rest) = (c :: ·) <$> unescape 0 (rest.drop more) := by
  rw [unescape, escapes]
  dsimp only
  rw [stands, unescapeSkips]
  rfl

theorem decimalDigits {n : Nat} (small : n < 32) :
    ∃ x y z : Char, decimalEscape n = ['\\', x, y, z] ∧ x.isDigit = true ∧ y.isDigit = true ∧
      z.isDigit = true ∧ Numeral.positionalValue 10 [x, y, z] = n := by
  refine ⟨_, _, _, rfl, ?_⟩
  revert n
  decide

/- The three digits of a code are all that belongs to it, whatever follows. -/
theorem unescapeDecimal {c : Char} (small : c.toNat < 32) (rest : List Char) :
    unescape 0 (decimalEscape c.toNat ++ rest) = (c :: ·) <$> unescape 0 rest := by
  obtain ⟨x, y, z, digits, isX, isY, isZ, value⟩ := decimalDigits small
  have escapes : escape x (y :: z :: rest) = (.code c.toNat, 2) := by
    unfold escape
    rw [if_pos isX, List.takeWhile_cons_of_pos isY, List.takeWhile_cons_of_pos isZ]
    exact congrArg (fun n => (Escape.code n, 2)) value
  have stands : (Escape.code c.toNat).text = .ok [c] := by
    have below {limit : Nat} (high : 32 ≤ limit) : ¬ c.toNat ≥ limit := by omega
    rw [Escape.text, character, if_neg (below (by decide)), if_neg (below (by decide)),
      Char.ofNat_toNat]
    rfl
  rw [digits]
  exact unescapeEscape escapes stands

theorem unescapeEncoded (c : Char) (rest : List Char) :
    unescape 0 (encodeChar c ++ rest) = (c :: ·) <$> unescape 0 rest := by
  unfold encodeChar
  split
  · rename_i special
    rcases special with rfl | rfl <;> exact unescapeEscape rfl rfl
  rename_i noSpecial
  split
  · rename_i isLine
    subst isLine
    exact unescapeEscape rfl rfl
  split
  · rename_i isReturn
    subst isReturn
    exact unescapeEscape rfl rfl
  split
  · rename_i control
    exact unescapeDecimal control.1 rest
  · exact unescapePlain (not_or.mp noSpecial).1 rest

theorem unescapeQuoted (cs : List Char) : unescape 0 (cs.flatMap encodeChar) = .ok cs := by
  induction cs with
  | nil => rfl
  | cons c cs ih =>
    rw [List.flatMap_cons, unescapeEncoded, ih]
    rfl

theorem unquoteQuote (s : String) : unquote (quote s) = .ok s := by
  have inside : inner 1 1 (quote s).toList = s.toList.flatMap encodeChar := by
    simp [quote, inner]
  have noBracket : Lexeme.longLevel? (quote s).toList = none := by
    rw [quote, String.toList_ofList]
    rfl
  rw [unquote, noBracket]
  dsimp only
  rw [inside, unescapeQuoted]
  exact congrArg Except.ok (String.ofList_toList)

theorem quoteReadsBack (s : String) (line : Line) :
    ∃ t, parseTokens (quote s) line = .ok [t] ∧ t.kind = .string ∧ t.value = quote s ∧
      Tokens.asString [t] = .ok s ∧ unquote (quote s) = .ok s := by
  have found : Lexeme.first ((quote s).toList ++ []) = .lexeme .string (quote s).toList [] := by
    rw [List.append_nil]
    exact Lexeme.wholeQuote s
  have lexed := Lexer.lexCons found 1
  rw [List.append_nil] at lexed
  have parsed : parseTokens (quote s) line =
      .ok [Lexer.placed line (Lexer.lexeme .string (quote s).toList 1)] := by
    rw [Lexer.parsePlaced, Lexer.lex, lexed]
    rfl
  obtain ⟨kind, value⟩ := Lexer.placedSame line (Lexer.lexeme .string (quote s).toList 1)
  have isQuote : (Lexer.placed line (Lexer.lexeme .string (quote s).toList 1)).value = quote s := by
    rw [value, Lexer.lexeme, String.ofList_toList]
  refine ⟨_, parsed, kind, isQuote, ?_, unquoteQuote s⟩
  generalize Lexer.placed line (Lexer.lexeme .string (quote s).toList 1) = t at kind isQuote
  have kind : t.kind = .string := kind
  have alone : Tokens.strip [t] = [t] := by simp [Tokens.strip, kind, Kind.isSolid]
  rw [Tokens.asString, Tokens.single, alone]
  dsimp only
  rw [if_pos kind]
  change Tokens.readString t = _
  rw [Tokens.readString, isQuote, unquoteQuote]

end Literal

end LuaExpander
