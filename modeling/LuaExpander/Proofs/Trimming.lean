import LuaExpander.Proofs.Invoking

/-! Blanks at the end of a definition. Its text may go on with blanks up to the end of the line, and
a line of a longer text does so without owning them: they are lexed together with the line end and
with what is blank behind it. Neither the name nor the parameters nor the replacement depend on
them, and no failure does. -/
namespace LuaExpander

theorem Tokens.stripEnd {ts blanks : List Token} (blank : ∀ b ∈ blanks, b.kind.isBlank = true) :
    strip (ts ++ blanks) = strip ts := by
  have hollow : ∀ b ∈ blanks, (!b.kind.isSolid) = true := by
    intro b member
    have isBlank := blank b member
    revert isBlank
    cases b.kind <;> simp [Kind.isBlank, Kind.isSolid]
  unfold strip
  rw [List.dropWhile_append]
  split
  · rename_i none
    rw [List.isEmpty_iff.mp none, List.dropWhile_eq_nil_iff.mpr hollow]
  · rw [List.reverse_append, List.dropWhile_append_of_pos fun b member =>
      hollow b (List.mem_reverse.mp member)]

namespace Reader

variable {α β : Type} {r r' : Reader} {before between after : Reader → Reader → Prop}

/- The same tokens to come, except for blanks at the end of one. -/
structure Trailed (r r' : Reader) : Prop where
  ahead : ∃ blanks, r'.cursor.ahead = r.cursor.ahead ++ blanks ∧
    ∀ b ∈ blanks, b.kind.isBlank = true ∧ b.value ≠ "("
  failure : r.cursor.failure = none ∧ r'.cursor.failure = none
  origin : r'.origin = r.origin

/- And these are not the next ones. -/
structure Faced (r r' : Reader) : Prop where
  trailed : Trailed r r'
  ends : r.cursor.ahead = [] → r'.cursor.ahead = []

/- An answer, after which the relation holds, or a failure. -/
def Ends (after : Reader → Reader → Prop) (r r' : Reader) : Except Failure α → Prop
  | .ok _ => after r r'
  | .error _ => True

/- Readers in a relation come to the same end. -/
def Agrees (before after : Reader → Reader → Prop) (x : ReaderM α) : Prop :=
  ∀ r r', before r r' → ∃ answer s s', x.run.run r = (answer, s) ∧ x.run.run r' = (answer, s') ∧
    Ends after s s' answer

theorem agreesPure (a : α) : Agrees after after (pure a : ReaderM α) :=
  fun _ _ holds => ⟨.ok a, _, _, rfl, rfl, holds⟩

theorem agreesFaced (a : α) : Agrees Faced Trailed (pure a : ReaderM α) :=
  fun _ _ faces => ⟨.ok a, _, _, rfl, rfl, faces.trailed⟩

theorem agreesThrow (e : Error) : Agrees before after (throw (.error e) : ReaderM α) :=
  fun _ _ _ => ⟨.error (.error e), _, _, rfl, rfl, trivial⟩

theorem agreesBind {x : ReaderM α} {f : α → ReaderM β} (first : Agrees before between x)
    (later : ∀ a, Agrees between after (f a)) : Agrees before after (x >>= f) := by
  intro r r' holds
  obtain ⟨answer, s, s', ran, ran', ends⟩ := first r r' holds
  rw [runBind, runBind, ran, ran']
  cases answer with
  | error e => exact ⟨.error e, _, _, rfl, rfl, ends⟩
  | ok a => exact later a s s' ends

theorem tookWhile (p : Token → Bool) (r : Reader) :
    (r.took (r.cursor.ahead.takeWhile p)).cursor.ahead = r.cursor.ahead.dropWhile p := by
  have split : r.cursor.ahead = r.cursor.ahead.takeWhile p ++ r.cursor.ahead.dropWhile p := by simp
  rw [took, Cursor.aheadDrop]
  nth_rewrite 2 [split]
  exact List.drop_left

theorem tookFailure (failure : r.cursor.failure = none ∧ r'.cursor.failure = none)
    (ts ts' : List Token) :
    (r.took ts).cursor.failure = none ∧ (r'.took ts').cursor.failure = none :=
  ⟨(Cursor.failureDrop _ _).trans failure.1, (Cursor.failureDrop _ _).trans failure.2⟩

theorem whileAgrees {p : Token → Bool} (stops : ∀ b : Token, b.kind.isBlank = true → p b = false) :
    Agrees Trailed Trailed (takeWhile p) := by
  rintro r r' ⟨⟨blanks, ahead, blank⟩, failure, origin⟩
  have left : blanks.dropWhile p = blanks := by
    rw [List.dropWhile_eq_self_iff]
    exact fun filled => by simp [stops _ (blank _ (List.getElem_mem filled)).1]
  have none : blanks.takeWhile p = [] := by
    have split : blanks.takeWhile p ++ blanks = blanks := by
      nth_rewrite 2 [← left]
      exact List.takeWhile_append_dropWhile
    simpa using split
  have same : r'.cursor.ahead.takeWhile p = r.cursor.ahead.takeWhile p := by
    rw [ahead, List.takeWhile_append, none, List.append_nil]
    split
    · rename_i all
      exact ((List.takeWhile_prefix p).eq_of_length all).symm
    · rfl
  refine ⟨.ok _, _, _, takeWhileRuns p r, same ▸ takeWhileRuns p r', ?_⟩
  refine ⟨⟨blanks, ?_, blank⟩, tookFailure failure _ _, origin⟩
  have taken := tookWhile p r'
  rw [same] at taken
  rw [taken, tookWhile, ahead, List.dropWhile_append, left]
  split
  · rename_i isEmpty
    rw [List.isEmpty_iff.mp isEmpty, List.nil_append]
  · rfl

theorem faced (faces : Faced r r') :
    (r.cursor.ahead = [] ∧ r'.cursor.ahead = []) ∨
      ∃ t rest blanks, r.cursor.ahead = t :: rest ∧ r'.cursor.ahead = t :: (rest ++ blanks) ∧
        ∀ b ∈ blanks, b.kind.isBlank = true ∧ b.value ≠ "(" := by
  obtain ⟨⟨⟨blanks, ahead, blank⟩, -, -⟩, ends⟩ := faces
  cases begins : r.cursor.ahead with
  | nil => exact .inl ⟨rfl, ends begins⟩
  | cons t rest => exact .inr ⟨t, rest, blanks, rfl, by rw [ahead, begins]; rfl, blank⟩

theorem peekAgrees : Agrees Faced Faced peek := by
  intro r r' faces
  obtain ⟨failure, failure'⟩ := faces.trailed.failure
  have origin := faces.trailed.origin
  obtain ⟨none, none'⟩ | ⟨t, rest, blanks, begins, begins', blank⟩ := faced faces
  · have same : r'.endToken = r.endToken := by rw [endToken, origin, endToken]
    exact ⟨.ok _, _, _, peekEnd none failure, same ▸ peekEnd none' failure', faces⟩
  · obtain ⟨cursor, looked, ahead, still⟩ := peekHead begins
    obtain ⟨cursor', looked', ahead', still'⟩ := peekHead begins'
    refine ⟨.ok t, _, _, looked, looked', ⟨⟨blanks, ?_, blank⟩, ?_, origin⟩, ?_⟩
    · rw [ahead, ahead']
      rfl
    · exact ⟨still.trans failure, still'.trans failure'⟩
    · simp [ahead]

theorem skipBlankAgrees : Agrees Trailed Faced skipBlank := by
  rintro r r' ⟨⟨blanks, ahead, blank⟩, failure, origin⟩
  have none : blanks.dropWhile (·.kind.isBlank) = [] :=
    List.dropWhile_eq_nil_iff.mpr fun b member => (blank b member).1
  rw [skipBlank, whileRuns, whileRuns]
  refine peekAgrees _ _ ⟨⟨?_, tookFailure failure _ _, origin⟩, ?_⟩
  all_goals rw [tookWhile, tookWhile, ahead, List.dropWhile_append, none]
  · split
    · rename_i isEmpty
      exact ⟨[], by simp [List.isEmpty_iff.mp isEmpty], by simp⟩
    · exact ⟨blanks, rfl, blank⟩
  · intro isEmpty
    rw [isEmpty]
    rfl

theorem nextAgrees : Agrees Faced Trailed next := by
  refine agreesBind peekAgrees fun t => ?_
  intro r r' faces
  by_cases isEnd : t.kind = .eof
  · rw [if_neg (not_not_intro isEnd)]
    exact ⟨.ok t, _, _, rfl, rfl, faces.trailed⟩
  · rw [if_pos isEnd]
    refine ⟨.ok t, _, _, rfl, rfl, ?_, tookFailure faces.trailed.failure _ _,
      faces.trailed.origin⟩
    obtain ⟨none, none'⟩ | ⟨u, rest, blanks, begins, begins', blank⟩ := faced faces
    · exact ⟨[], by simp [took, none, none'], by simp⟩
    · exact ⟨blanks, by simp [took, begins, begins'], blank⟩

theorem ofKindAgrees (kind : Kind) (wanted : String) :
    Agrees Trailed Trailed (ofKind kind wanted) := by
  refine agreesBind skipBlankAgrees fun _ => ?_
  refine agreesBind nextAgrees fun t => ?_
  split
  · exact agreesPure t
  · exact agreesThrow _

theorem nameAgrees : Agrees Trailed Trailed name :=
  agreesBind (ofKindAgrees _ _) fun t => agreesPure t.value

theorem expectingAgrees (expected : Expected) : Agrees Trailed Trailed (expecting expected) := by
  refine agreesBind skipBlankAgrees fun _ => ?_
  refine agreesBind nextAgrees fun t => ?_
  split
  · exact agreesPure t.value
  · exact agreesThrow _

theorem moreAgrees (stop : String) : Agrees Faced Trailed (more stop) := by
  refine agreesBind peekAgrees fun t => ?_
  split
  · intro r r' faces
    have same : r'.origin = r.origin := faces.trailed.origin
    refine ⟨.error _, _, r', rfl, ?_, trivial⟩
    rw [missing, runBind, runGet]
    dsimp only
    rw [same]
    rfl
  · exact agreesFaced t

theorem namesFromAgrees (stop : String) (turns : Nat) (found : List String) :
    Agrees Trailed Trailed (namesFrom stop turns found) := by
  induction turns generalizing found with
  | zero => exact agreesPure _
  | succ turns ih =>
    refine agreesBind nameAgrees fun word => ?_
    refine agreesBind skipBlankAgrees fun t => ?_
    split
    · exact agreesFaced _
    · refine agreesBind (moreAgrees stop) fun _ => ?_
      exact agreesBind (expectingAgrees _) fun _ => ih _

theorem namesAgrees (stop : String) : Agrees Trailed Trailed (names stop) := by
  refine agreesBind skipBlankAgrees fun t => ?_
  split
  · exact agreesFaced _
  · intro r r' faces
    -- The turns are counted by what is to come, and either count is enough.
    have more := turnsEnough stop [] r.cursor.aheadSize r'.cursor.size
    have more' := turnsEnough stop [] r'.cursor.aheadSize r.cursor.size
    rw [runBind, runBind, runGet, runGet]
    dsimp only
    rw [← more, ← more', Nat.add_comm]
    exact namesFromAgrees stop _ [] r r' faces.trailed

theorem readNameAgrees (line : Line) : Agrees Trailed Trailed (Definition.readName line) := by
  refine agreesBind skipBlankAgrees fun first => ?_
  cases first.kind with
  | iden => exact agreesBind nextAgrees fun _ => agreesPure _
  | op =>
    refine agreesBind nextAgrees fun _ => ?_
    refine agreesBind (whileAgrees ?_) fun more => agreesPure _
    intro b isBlank
    revert isBlank
    cases b.kind <;> simp [Kind.isBlank]
  | keyword | string | number | space | comment | eof => exact agreesThrow _

theorem readParamsAgrees (first : Token) (name : String) :
    Agrees Trailed Trailed (Definition.readParams first name) := by
  intro r r' trailed
  by_cases faces : Faced r r'
  · refine agreesBind peekAgrees (fun t => ?_) r r' faces
    split
    · exact agreesFaced _
    · refine agreesBind nextAgrees fun _ => ?_
      refine agreesBind (namesAgrees _) fun params => ?_
      refine agreesBind (expectingAgrees _) fun _ => ?_
      split
      · exact agreesBind (agreesThrow _) fun _ => agreesPure _
      · exact agreesPure _
  -- Otherwise one has nothing left and the other a blank, which is no parenthesis either.
  · obtain ⟨blanks, ahead, blank⟩ := trailed.ahead
    have none : r.cursor.ahead = [] := by
      by_contra some
      exact faces ⟨trailed, fun none => absurd none some⟩
    rw [none, List.nil_append] at ahead
    cases blanks with
    | nil => exact absurd ⟨trailed, fun _ => ahead⟩ faces
    | cons b blanks =>
      obtain ⟨cursor, looked, left, failure⟩ := peekHead ahead
      refine ⟨.ok Option.none, r, { r' with cursor }, ?_, ?_, ?_⟩
      · rw [Definition.readParams, runBind, peekEnd none trailed.failure.1]
        rfl
      · rw [Definition.readParams, runBind, looked]
        dsimp only
        rw [if_pos (blank b List.mem_cons_self).2]
        rfl
      · exact ⟨⟨b :: blanks, by rw [left, none]; rfl, blank⟩,
          ⟨trailed.failure.1, failure.trans trailed.failure.2⟩, trailed.origin⟩

theorem readHeaderAgrees (line : Line) : Agrees Trailed Trailed (Definition.readHeader line) := by
  refine agreesBind (readNameAgrees line) fun found => ?_
  refine agreesBind (readParamsAgrees _ _) fun params => ?_
  intro r r' trailed
  obtain ⟨blanks, ahead, blank⟩ := trailed.ahead
  have same : Tokens.strip r'.cursor.ahead = Tokens.strip r.cursor.ahead := by
    rw [ahead, Tokens.stripEnd fun b member => (blank b member).1]
  refine ⟨.ok _, _, r', rfl, ?_, trailed⟩
  rw [runBind, runGet]
  dsimp only
  rw [same]
  rfl

end Reader

namespace Definition

variable {spec : String} {line : Line}

theorem makeTrailed {spec' : String} {ts blanks : List Token}
    (parsed : parseTokens spec line = .ok ts)
    (parsed' : parseTokens spec' line = .ok (ts ++ blanks))
    (blank : ∀ b ∈ blanks, b.kind.isBlank = true ∧ b.value ≠ "(") (meaning : Option Meaning)
    (depth : Nat) : make spec' meaning depth line = make spec meaning depth line := by
  obtain ⟨answer, r, r', ran, ran', -⟩ := Reader.readHeaderAgrees line { cursor := .ofTokens ts }
    { cursor := .ofTokens (ts ++ blanks) } ⟨⟨blanks, rfl, blank⟩, ⟨rfl, rfl⟩, rfl⟩
  have same : header spec' line = header spec line := by
    rw [header, header, parsed, parsed']
    dsimp only
    rw [ran, ran']
  rw [make, make, same]

end Definition

namespace Lexeme

variable {cs a b : List Char}

theorem firstSpace (found : first cs = .lexeme .space a b) : blank? cs = some (a, b) :=
  plainSpace (firstBracketless (by simp) found)

theorem spaceBlank (found : first cs = .lexeme .space cs []) :
    ∀ c ∈ cs, Text.isBlank c = true := by
  have isBlank := firstSpace found
  cases cs with
  | nil => contradiction
  | cons c rest =>
    rw [blank?] at isBlank
    split at isBlank
    · rename_i here
      have later : rest.dropWhile Text.isBlank = [] := (Prod.mk.inj (Option.some.inj isBlank)).2
      exact List.forall_mem_cons.mpr ⟨here, List.dropWhile_eq_nil_iff.mp later⟩
    · contradiction

end Lexeme

namespace Lexer

open Tokens

theorem lexBlanks {blanks : List Char} (blank : ∀ c ∈ blanks, Text.isBlank c = true) (line : Nat)
    (more : List Char) :
    lexFrom 0 line (blanks ++ '\n' :: more) =
      let gap := blanks ++ '\n' :: more.takeWhile Text.isBlank
      let after := lexFrom 0 (line + gap.count '\n') (more.dropWhile Text.isBlank)
      { after with tokens := lexeme .space gap line :: after.tokens } := by
  have isEnd : Text.isBlank '\n' = true := by decide
  cases blanks with
  | nil => exact lexBlank isEnd line more
  | cons c blanks =>
    obtain ⟨isBlank, later⟩ := List.forall_mem_cons.mp blank
    have taken : (blanks ++ '\n' :: more).takeWhile Text.isBlank =
        blanks ++ '\n' :: more.takeWhile Text.isBlank := by
      rw [List.takeWhile_append_of_pos later, List.takeWhile_cons_of_pos isEnd]
    have left : (blanks ++ '\n' :: more).dropWhile Text.isBlank = more.dropWhile Text.isBlank := by
      rw [List.dropWhile_append_of_pos later, List.dropWhile_cons_of_pos isEnd]
    have lexed := lexBlank isBlank line (blanks ++ '\n' :: more)
    rwa [taken, left] at lexed

/- A line before its end. The blanks that it ends with go together with the line end. -/
theorem lexesLine {line : Nat} {cs : List Char} {l : Lexed} (lexed : Lexes line cs l)
    (finished : l.failure = none) (inLine : '\n' ∉ cs) (more : List Char) :
    ∃ ts blanks trail, l.tokens = ts ++ blanks ∧ text blanks = String.ofList trail ∧
      (∀ b ∈ blanks, b = lexeme .space trail line) ∧ (∀ c ∈ trail, Text.isBlank c = true) ∧
      lexFrom 0 line (cs ++ '\n' :: more) =
        let gap := trail ++ '\n' :: more.takeWhile Text.isBlank
        let after := lexFrom 0 (line + gap.count '\n') (more.dropWhile Text.isBlank)
        { after with tokens := ts ++ lexeme .space gap line :: after.tokens } := by
  induction lexed with
  | @ends line =>
    exact ⟨[], [], [], rfl, rfl, by simp, by simp, lexBlanks (by simp) line more⟩
  | fails unfinished => contradiction
  | @next line kind text rest l found later ih =>
    by_cases isLast : rest = [] ∧ kind = .space
    · obtain ⟨rfl, rfl⟩ := isLast
      rw [List.append_nil] at found ⊢
      have blank := Lexeme.spaceBlank found
      refine ⟨[], [lexeme .space text line], text, ?_, ?_, by simp, blank,
        lexBlanks blank line more⟩
      · rw [lexesNone later]
        rfl
      · rw [textCons]
        exact String.append_empty
    · have apart : ¬ Lexeme.RunsOn text (rest ++ '\n' :: more) := by
        refine Lexeme.partsApart (by decide) found fun none => ?_
        have other : kind ≠ .space := fun isSpace => isLast ⟨none, isSpace⟩
        revert other
        cases kind <;> simp [Kind.isBlank]
      have noEnd : text.count '\n' = 0 :=
        List.count_eq_zero.mpr fun inside => inLine (List.mem_append_left _ inside)
      have further := ih finished fun inside => inLine (List.mem_append_right _ inside)
      rw [noEnd, Nat.add_zero] at further
      obtain ⟨ts, blanks, trail, tokens, spelled, isSpace, blank, joined⟩ := further
      refine ⟨lexeme kind text line :: ts, blanks, trail, by rw [tokens]; rfl, spelled, isSpace,
        blank, ?_⟩
      rw [List.append_assoc, lexCons (Lexeme.apartFound (Lexeme.wholeCut found) apart), noEnd,
        Nat.add_zero, joined]
      rfl

theorem placedShown {line : Line} (shown : (Line.shown? line).isSome = true) {ts : List Token}
    (new : ∀ t ∈ ts, t.mark = none ∧ t.serial = none) :
    ts.map (placed line) = (spelling ts).map fun w => ⟨w.1, w.2, line, none, none⟩ := by
  rw [spelling, List.map_map]
  refine List.map_congr_left fun t member => ?_
  obtain ⟨unmarked, unnumbered⟩ := new t member
  rw [placed, if_pos shown, ← unmarked, unnumbered]
  rfl

end Lexer

/- A definition that is read from a line of its own and one from the tokens before the line end. -/
theorem Definition.makeTrimmed {spec : String} (finished : (Lexer.lex spec).failure = none)
    {ts blanks : List Token} (tokens : (Lexer.lex spec).tokens = ts ++ blanks)
    (blank : ∀ b ∈ blanks, b.kind.isBlank = true ∧ b.value ≠ "(") {line : Line}
    (shown : (Line.shown? line).isSome = true) (meaning : Option Meaning) (depth : Nat) :
    make spec meaning depth line = make (Tokens.text ts) meaning depth line := by
  obtain ⟨trimmed, relexed⟩ := @Lexer.runLexes spec [] ts blanks tokens
  have parsed := Lexer.parsePlaced (Tokens.text ts) line
  rw [trimmed] at parsed
  have parsed' := Lexer.parsePlaced spec line
  rw [finished, tokens, List.map_append] at parsed'
  have new (s : String) : ∀ t ∈ (Lexer.lex s).tokens, t.mark = none ∧ t.serial = none :=
    Lexer.lexesNew (Lexer.lexes 1 s.toList)
  have same : (Lexer.lex (Tokens.text ts)).tokens.map (Lexer.placed line) =
      ts.map (Lexer.placed line) := by
    have newFront : ∀ t ∈ ts, t.mark = none ∧ t.serial = none :=
      fun t member => new spec t (by simp [tokens, member])
    rw [Lexer.placedShown shown (new _), Lexer.placedShown shown newFront, relexed]
  refine makeTrailed parsed (same ▸ parsed') (List.forall_mem_map.mpr fun b member => ?_) meaning
    depth
  obtain ⟨kind, value⟩ := Lexer.placedSame line b
  rw [kind, value]
  exact blank b member

end LuaExpander
