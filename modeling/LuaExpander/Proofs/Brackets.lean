import LuaExpander.Proofs.Lexing
import LuaExpander.Token.Literal

/-! Long brackets. The lexer looks for the closing bracket of the level behind the opening one, and
reading a literal cuts as much from both ends as the opening bracket is long. Both find the text in
between, whatever stands in it or behind it, as long as the closing bracket does not come up before
its place. -/
namespace LuaExpander

namespace Lexeme

def bracketed (level : Nat) (body : List Char) : List Char :=
  longOpener level ++ (body ++ longCloser level)

/- With the mark put behind the body, the mark is not met before that place. -/
def MetLast (mark body : List Char) : Prop :=
  ∀ tail, tail <:+ body ++ mark → mark <+: tail → tail = mark

instance (mark body : List Char) : Decidable (MetLast mark body) :=
  decidable_of_iff (∀ tail ∈ (body ++ mark).tails, mark <+: tail → tail = mark)
    (by simp only [List.mem_tails]; rfl)

variable {mark body : List Char} {level : Nat}

theorem throughMetLast (filled : mark ≠ []) (metLast : MetLast mark body) (rest : List Char) :
    through? mark (body ++ (mark ++ rest)) = some (body ++ mark, rest) := by
  induction body with
  | nil =>
    obtain ⟨c, cs, rfl⟩ := List.exists_cons_of_ne_nil filled
    rw [List.nil_append, List.cons_append, through?, ← List.cons_append,
      if_pos (prefixSelf _ _), List.drop_left]
    rfl
  | cons c body ih =>
    -- A mark in front would fit in before the one behind the body.
    have still : ¬ mark.isPrefixOf (c :: (body ++ (mark ++ rest))) = true := by
      intro front
      have whole : c :: (body ++ (mark ++ rest)) = (c :: body ++ mark) ++ rest := by simp
      rw [whole, List.isPrefixOf_iff_prefix] at front
      have inside : mark <+: c :: body ++ mark :=
        List.prefix_of_prefix_length_le front (List.prefix_append _ _) (by simp; omega)
      have same := congrArg List.length (metLast _ (List.suffix_refl _) inside)
      simp at same
      omega
    have later : MetLast mark body := fun tail isTail =>
      metLast tail (isTail.trans (List.suffix_cons c _))
    rw [List.cons_append, through?, if_neg still, ih later]
    rfl

theorem bracketFound (metLast : MetLast (longCloser level) body) (rest : List Char) :
    longLevel? (bracketed level body ++ rest) = some level ∧
      longBracket? level (bracketed level body ++ rest) = some (bracketed level body, rest) := by
  have whole : bracketed level body ++ rest =
      longOpener level ++ (body ++ (longCloser level ++ rest)) := by simp [bracketed]
  rw [whole, longLevelExact, longBracketExact, throughMetLast (closerFilled level) metLast]
  exact ⟨rfl, rfl⟩

theorem firstLongString (metLast : MetLast (longCloser level) body) (rest : List Char) :
    first (bracketed level body ++ rest) = .lexeme .string (bracketed level body) rest := by
  obtain ⟨opens, found⟩ := bracketFound metLast rest
  have noComment : ¬ ∃ after, bracketed level body ++ rest = '-' :: '-' :: after := by
    rintro ⟨after, same⟩
    simp [bracketed, longOpener] at same
  rw [firstOther noComment, bracketOr, opens]
  dsimp only
  rw [found]
  rfl

theorem firstLongComment (metLast : MetLast (longCloser level) body) (rest : List Char) :
    first ('-' :: '-' :: bracketed level body ++ rest) =
      .lexeme .comment ('-' :: '-' :: bracketed level body) rest := by
  obtain ⟨opens, found⟩ := bracketFound metLast rest
  change comment (bracketed level body ++ rest) = _
  rw [comment, opens]
  dsimp only
  rw [found]
  rfl

end Lexeme

namespace Literal

open Lexeme

theorem innerBracketed (level : Nat) (body : List Char) :
    inner (level + 2) (level + 2) (bracketed level body) = body := by
  have opener : (longOpener level).length = level + 2 := by simp [longOpener]
  have closer : (longCloser level).length = level + 2 := by simp [longCloser]
  have front : (bracketed level body).length - (level + 2) = (longOpener level ++ body).length := by
    simp only [bracketed, List.length_append, closer]
    omega
  rw [inner, front, bracketed, ← List.append_assoc, List.take_left, ← opener, List.drop_left]

theorem lineEndDropped (cs : List Char) :
    cs = '\r' :: '\n' :: dropLineEnd cs ∨ cs = '\n' :: dropLineEnd cs ∨
      cs = dropLineEnd cs ∧ ¬ ['\r', '\n'] <+: cs ∧ ¬ ['\n'] <+: cs := by
  unfold dropLineEnd
  split
  · exact .inl rfl
  · exact .inr (.inl rfl)
  · rename_i noReturn noLine
    refine .inr (.inr ⟨rfl, ?_, ?_⟩)
    · rintro ⟨rest, rfl⟩
      exact noReturn rest rfl
    · rintro ⟨rest, rfl⟩
      exact noLine rest rfl

theorem unquoteBracketed (level : Nat) (body : List Char) :
    unquote (String.ofList (bracketed level body)) = .ok (String.ofList (dropLineEnd body)) := by
  have opens : longLevel? (bracketed level body) = some level := longLevelExact level _
  rw [unquote, String.toList_ofList, opens]
  dsimp only
  rw [innerBracketed]

end Literal

namespace Lexer

open Lexeme

theorem longBracketsReadBack {level : Nat} {body : List Char}
    (metLast : MetLast (longCloser level) body) (rest : List Char) (line : Nat) :
    (lexFrom 0 line (bracketed level body ++ rest) =
      let after := lexFrom 0 (line + (bracketed level body).count '\n') rest
      { after with tokens := lexeme .string (bracketed level body) line :: after.tokens }) ∧
    (lexFrom 0 line ('-' :: '-' :: bracketed level body ++ rest) =
      let after := lexFrom 0 (line + (bracketed level body).count '\n') rest
      { after with
        tokens := lexeme .comment ('-' :: '-' :: bracketed level body) line :: after.tokens }) ∧
    ∃ contents, Literal.unquote (String.ofList (bracketed level body)) =
        .ok (String.ofList contents) ∧
      (body = '\r' :: '\n' :: contents ∨ body = '\n' :: contents ∨
        body = contents ∧ ¬ ['\r', '\n'] <+: body ∧ ¬ ['\n'] <+: body) := by
  refine ⟨lexCons (firstLongString metLast rest) line, ?_, Literal.dropLineEnd body,
    Literal.unquoteBracketed level body, Literal.lineEndDropped body⟩
  have lines : ('-' :: '-' :: bracketed level body).count '\n' =
      (bracketed level body).count '\n' := by simp
  have lexed := lexCons (firstLongComment metLast rest) line
  rwa [lines] at lexed

-- A line end in front, closing brackets of other levels inside and one of this level behind.
theorem longBracketsReadBackMixed :
    MetLast (longCloser 1) "\r\n]]==] = [=[".toList ∧
      lex "[=[\r\n]]==] = [=[]=]]=]" =
        ⟨[⟨.string, "[=[\r\n]]==] = [=[]=]", some 1, none, none⟩,
          ⟨.op, "]", some 2, none, none⟩, ⟨.op, "=", some 2, none, none⟩,
          ⟨.op, "]", some 2, none, none⟩], none, 2⟩ ∧
      Literal.unquote "[=[\r\n]]==] = [=[]=]" = .ok "]]==] = [=[" := by
  have metLast : MetLast (longCloser 1) "\r\n]]==] = [=[".toList := by decide +kernel
  obtain ⟨lexed, -, contents, unquoted, isBody⟩ := longBracketsReadBack metLast "]=]".toList 1
  have later : lexFrom 0 (1 + (bracketed 1 "\r\n]]==] = [=[".toList).count '\n') "]=]".toList =
      ⟨[⟨.op, "]", some 2, none, none⟩, ⟨.op, "=", some 2, none, none⟩,
        ⟨.op, "]", some 2, none, none⟩], none, 2⟩ := by decide +kernel
  have split : "\r\n]]==] = [=[".toList = '\r' :: '\n' :: "]]==] = [=[".toList := by
    decide +kernel
  rw [split] at isBody
  obtain rfl : "]]==] = [=[".toList = contents := by simpa using isBody
  rw [later] at lexed
  exact ⟨metLast, lexed, unquoted⟩

end Lexer

end LuaExpander
