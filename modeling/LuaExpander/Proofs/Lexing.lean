import LuaExpander.Proofs.Lexemes
import LuaExpander.Token.Lexer
import LuaExpander.Token.Sequence

/-! The tokens of a text. Put together they are the text, or the part of it before the lexeme that
cannot be finished, and each stands on the line that the tokens before it have reached. The lexer
keeps nothing in mind from one lexeme to the next, so that any tokens that stand side by side are
also the tokens of their own text. -/
namespace LuaExpander

theorem Tokens.textCons (t : Token) (ts : List Token) : text (t :: ts) = t.value ++ text ts := by
  apply String.toList_injective
  simp [text]

theorem Tokens.textAppend (ts us : List Token) : text (ts ++ us) = text ts ++ text us := by
  apply String.toList_injective
  simp [text]

def Tokens.spelling (ts : List Token) : List (Kind × String) := ts.map fun t => (t.kind, t.value)

theorem Text.newlinesAppend (s t : String) : newlines (s ++ t) = newlines s + newlines t := by
  simp [newlines]

namespace Lexer

theorem lexSkips (skip line : Nat) (cs : List Char) :
    lexFrom skip line cs = lexFrom 0 line (cs.drop skip) := by
  induction cs generalizing skip with
  | nil => simp [lexFrom]
  | cons c cs ih =>
    cases skip with
    | zero => rfl
    | succ skip =>
      rw [lexFrom, List.drop_succ_cons]
      exact ih skip

def lexeme (kind : Kind) (text : List Char) (line : Nat) : Token :=
  { kind, value := String.ofList text, line := some line }

theorem lexCons {kind : Kind} {text rest : List Char}
    (found : Lexeme.first (text ++ rest) = .lexeme kind text rest) (line : Nat) :
    lexFrom 0 line (text ++ rest) =
      let after := lexFrom 0 (line + text.count '\n') rest
      { after with tokens := lexeme kind text line :: after.tokens } := by
  obtain ⟨c, front, rfl⟩ := List.exists_cons_of_ne_nil (Lexeme.firstFaithful.splits found).2
  rw [List.cons_append] at found ⊢
  rw [lexFrom]
  simp only [found]
  rw [lexSkips, List.length_cons, Nat.add_sub_cancel, List.drop_left]
  rfl

inductive Lexes : Nat → List Char → Lexed → Prop where
  | ends {line} : Lexes line [] ⟨[], none, line⟩
  | fails {line c cs cause} (unfinished : Lexeme.first (c :: cs) = .unfinished cause) :
      Lexes line (c :: cs) ⟨[], some ⟨cause, some line, none⟩, line⟩
  | next {line kind text rest l} (found : Lexeme.first (text ++ rest) = .lexeme kind text rest)
      (later : Lexes (line + text.count '\n') rest l) :
      Lexes line (text ++ rest) { l with tokens := lexeme kind text line :: l.tokens }

theorem lexes (line : Nat) (cs : List Char) : Lexes line cs (lexFrom 0 line cs) := by
  induction size : cs.length using Nat.strongRecOn generalizing line cs with
  | ind n ih =>
    cases cs with
    | nil => exact .ends
    | cons c cs =>
      cases found : Lexeme.first (c :: cs) with
      | unfinished cause =>
        rw [lexFrom]
        simp only [found]
        exact .fails found
      | lexeme kind text rest =>
        obtain ⟨whole, filled⟩ := Lexeme.firstFaithful.splits found
        have shorter : rest.length < n := by
          have := congrArg List.length whole
          have := List.length_pos_iff.mpr filled
          simp only [List.length_append] at *
          omega
        rw [whole] at found ⊢
        rw [lexCons found]
        exact .next found (ih _ shorter _ _ rfl)

theorem streamCons (t : Token) (l : Lexed) :
    Lexed.stream { l with tokens := t :: l.tokens } = t :: l.stream := by
  unfold Lexed.stream
  cases l.failure <;> rfl

theorem lineAfter (kind : Kind) (text : List Char) (line : Nat) (ts : List Token) :
    ((line + text.count '\n' : Nat) : Int) + Text.newlines (Tokens.text ts) =
      line + Text.newlines (Tokens.text (lexeme kind text line :: ts)) := by
  have here : Text.newlines (lexeme kind text line).value = text.count '\n' := by
    simp [Text.newlines, lexeme]
  rw [Tokens.textCons, Text.newlinesAppend, here]
  omega

theorem lexesFilled {line : Nat} {cs : List Char} {l : Lexed} (lexed : Lexes line cs l) :
    ∀ t ∈ l.tokens, t.value ≠ "" ∧ t.kind ≠ .eof := by
  induction lexed with
  | ends => simp
  | fails unfinished => simp
  | next found later ih =>
    have filled := (Lexeme.firstFaithful.splits found).2
    exact List.forall_mem_cons.mpr
      ⟨⟨by simpa [lexeme] using filled, Lexeme.firstKind found⟩, ih⟩

theorem lexesNew {line : Nat} {cs : List Char} {l : Lexed} (lexed : Lexes line cs l) :
    ∀ t ∈ l.tokens, t.mark = none ∧ t.serial = none := by
  induction lexed with
  | ends => simp
  | fails unfinished => simp
  | next found later ih => exact List.forall_mem_cons.mpr ⟨⟨rfl, rfl⟩, ih⟩

theorem streamNew (text : String) : ∀ t ∈ (lex text).stream, t.serial = none := by
  have new := lexesNew (lexes 1 text.toList)
  unfold Lexed.stream
  split
  · intro t member
    rcases List.mem_append.mp member with inside | isEnd
    · exact (new t inside).2
    · rw [List.mem_singleton.mp isEnd]
      rfl
  · exact fun t member => (new t member).2

theorem lexesPlaced {line : Nat} {cs : List Char} {l : Lexed} (lexed : Lexes line cs l)
    {before after : List Token} {t : Token} (split : l.stream = before ++ t :: after) :
    t.line = some (line + (Text.newlines (Tokens.text before) : Int)) := by
  induction lexed generalizing before with
  | @ends line =>
    cases before with
    | nil => cases split; rfl
    | cons u before => simp [Lexed.stream] at split
  | fails unfinished => simp [Lexed.stream] at split
  | @next line kind text rest l found later ih =>
    rw [streamCons] at split
    cases before with
    | nil => cases split; rfl
    | cons u before =>
      obtain ⟨rfl, splitLater⟩ := List.cons_eq_cons.mp split
      rw [ih splitLater, lineAfter kind]

theorem lexesWhole {line : Nat} {cs : List Char} {l : Lexed} (lexed : Lexes line cs l) :
    ∃ rest, cs = (Tokens.text l.tokens).toList ++ rest ∧
      (l.failure = none ∧ rest = [] ∨
        ∃ e, l.failure = some e ∧ rest ≠ [] ∧ Lexeme.Unfinished rest ∧ e.kind = .unexpectedToken ∧
          e.line = some (line + (Text.newlines (Tokens.text l.tokens) : Int))) := by
  induction lexed with
  | ends => exact ⟨[], rfl, .inl ⟨rfl, rfl⟩⟩
  | @fails line c cs cause unfinished =>
    obtain ⟨kind, isUnfinished⟩ := Lexeme.firstFails unfinished
    exact ⟨c :: cs, rfl, .inr ⟨_, rfl, nofun, isUnfinished, kind, rfl⟩⟩
  | @next line kind text rest l found later ih =>
    obtain ⟨left, whole, ended⟩ := ih
    refine ⟨left, ?_, ?_⟩
    · rw [whole, Tokens.textCons]
      simp [lexeme]
    · rcases ended with finished | ⟨e, failure, filled, isUnfinished, cause, place⟩
      · exact .inl finished
      · refine .inr ⟨e, failure, filled, isUnfinished, cause, ?_⟩
        rw [place, lineAfter kind]

theorem streamEnds {l : Lexed} (finished : l.failure = none) :
    l.stream = l.tokens ++ [.endOfInput (some l.lastLine)] := by
  rw [Lexed.stream, finished]

theorem lexedText {s : String} (finished : (lex s).failure = none) :
    Tokens.text (lex s).tokens = s := by
  obtain ⟨rest, whole, ⟨-, rfl⟩ | ⟨e, failure, -⟩⟩ := lexesWhole (lexes 1 s.toList)
  · rw [List.append_nil] at whole
    exact String.toList_injective whole.symm
  · rw [lex, failure] at finished
    contradiction

theorem streamText {s : String} (finished : (lex s).failure = none) :
    Tokens.text (lex s).stream = s := by
  rw [streamEnds finished, Tokens.textAppend, lexedText finished]
  exact String.toList_injective (by rw [String.toList_append]; exact List.append_nil _)

theorem lexLossless (s : String) :
    (∀ t ∈ (lex s).tokens, t.value ≠ "" ∧ t.kind ≠ .eof) ∧
    (∀ before t after, (lex s).stream = before ++ t :: after →
      t.line = some (1 + (Text.newlines (Tokens.text before) : Int))) ∧
    ((lex s).failure = none ∧
        (lex s).stream = (lex s).tokens ++ [.endOfInput (some (lex s).lastLine)] ∧
        Tokens.text (lex s).stream = s ∨
      ∃ e rest, (lex s).failure = some e ∧ (lex s).stream = (lex s).tokens ∧
        s = Tokens.text (lex s).tokens ++ rest ∧ rest ≠ "" ∧ Lexeme.Unfinished rest.toList ∧
        e.kind = .unexpectedToken ∧
        e.line = some (1 + (Text.newlines (Tokens.text (lex s).tokens) : Int))) := by
  have lexed : Lexes 1 s.toList (lex s) := lexes 1 s.toList
  refine ⟨lexesFilled lexed, fun before t after split => lexesPlaced lexed split, ?_⟩
  obtain ⟨rest, whole, ⟨finished, -⟩ | ⟨e, failure, filled, isUnfinished, cause, place⟩⟩ :=
    lexesWhole lexed
  · exact .inl ⟨finished, streamEnds finished, streamText finished⟩
  · refine .inr ⟨e, String.ofList rest, failure, ?_, ?_, ?_, ?_, cause, place⟩
    · rw [Lexed.stream, failure]
    · exact String.toList_injective (by rw [whole, String.toList_append, String.toList_ofList])
    · simpa using filled
    · rwa [String.toList_ofList]

theorem parseTokensSource {text : String} {line : Line} {ts : List Token}
    (parsed : parseTokens text line = .ok ts) :
    ∀ t ∈ ts, ∃ u ∈ (lex text).tokens, ∃ l, t = { u with line := l } := by
  unfold parseTokens at parsed
  dsimp only at parsed
  split at parsed
  · contradiction
  · cases parsed
    intro t member
    unfold Tokens.onLine at member
    split at member
    · obtain ⟨u, isToken, rfl⟩ := List.mem_map.mp member
      exact ⟨u, isToken, line, rfl⟩
    · exact ⟨t, member, t.line, rfl⟩

theorem lexesCut {line : Nat} {cs : List Char} {l : Lexed} (lexed : Lexes line cs l)
    {slice after : List Token} (split : l.tokens = slice ++ after) :
    ∃ front more, cs = front ++ more ∧ String.ofList front = Tokens.text slice ∧
      ∀ line', (lexFrom 0 line' front).failure = none ∧
        Tokens.spelling (lexFrom 0 line' front).tokens = Tokens.spelling slice := by
  induction lexed generalizing slice with
  | ends =>
    obtain ⟨rfl, rfl⟩ := List.nil_eq_append_iff.mp split
    exact ⟨[], [], rfl, rfl, fun line' => ⟨rfl, rfl⟩⟩
  | @fails line c cs cause unfinished =>
    obtain ⟨rfl, rfl⟩ := List.nil_eq_append_iff.mp split
    exact ⟨[], c :: cs, rfl, rfl, fun line' => ⟨rfl, rfl⟩⟩
  | @next line kind text rest l found later ih =>
    cases slice with
    | nil => exact ⟨[], text ++ rest, rfl, rfl, fun line' => ⟨rfl, rfl⟩⟩
    | cons t slice =>
      obtain ⟨rfl, splitLater⟩ := List.cons_eq_cons.mp split
      obtain ⟨front, more, rfl, spelled, relexed⟩ := ih splitLater
      rw [← List.append_assoc] at found
      have cut := Lexeme.firstFaithful.cut found
      refine ⟨text ++ front, more, (List.append_assoc _ _ _).symm, ?_, fun line' => ?_⟩
      · rw [String.ofList_append, spelled, Tokens.textCons]
        rfl
      · obtain ⟨finished, same⟩ := relexed (line' + text.count '\n')
        rw [lexCons cut]
        exact ⟨finished, congrArg ((kind, String.ofList text) :: ·) same⟩

theorem lexesAfter {line : Nat} {cs : List Char} {l : Lexed} (lexed : Lexes line cs l)
    {before ts : List Token} (split : l.tokens = before ++ ts) :
    ∃ line' rest l', Lexes line' rest l' ∧ l'.tokens = ts := by
  induction before generalizing line cs l with
  | nil => exact ⟨line, cs, l, lexed, split⟩
  | cons t before ih =>
    cases lexed with
    | ends => contradiction
    | fails unfinished => contradiction
    | next found later => exact ih later (List.cons_eq_cons.mp split).2

theorem sliceLexes (s : String) {slice : List Token} (isSlice : slice <:+: (lex s).tokens)
    (line : Line) :
    ∃ ts, parseTokens (Tokens.text slice) line = .ok ts ∧
      Tokens.spelling ts = Tokens.spelling slice := by
  obtain ⟨before, after, split⟩ := isSlice
  rw [List.append_assoc] at split
  obtain ⟨line', rest, l, lexed, tokens⟩ := lexesAfter (lexes 1 s.toList) split.symm
  obtain ⟨front, more, -, spelled, relexed⟩ := lexesCut lexed tokens
  obtain ⟨finished, same⟩ := relexed 1
  rw [← spelled, parseTokens, lex, String.toList_ofList, finished]
  refine ⟨_, rfl, ?_⟩
  unfold Tokens.onLine
  split
  · rw [Tokens.spelling, List.map_map]
    exact same
  · exact same

-- No hexadecimal number begins here, neither in the text nor in the slice, and the text ends in a
-- string that is not finished.
theorem sliceLexesBeforeUnfinished :
    let slice : List Token := [⟨.number, "0", some 2, none, none⟩, ⟨.iden, "x", some 2, none, none⟩,
      ⟨.op, "..", some 2, none, none⟩]
    slice <:+: (lex "a=\n0x..b'").tokens ∧ (lex "a=\n0x..b'").failure ≠ none ∧
      ∃ ts, parseTokens "0x.." = .ok ts ∧
        Tokens.spelling ts = [(.number, "0"), (.iden, "x"), (.op, "..")] := by
  intro slice
  have isSlice : slice <:+: (lex "a=\n0x..b'").tokens := by decide +kernel
  exact ⟨isSlice, by decide +kernel, sliceLexes "a=\n0x..b'" isSlice (some 0)⟩

end Lexer

end LuaExpander
