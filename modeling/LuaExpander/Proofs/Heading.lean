import LuaExpander.Proofs.Answering
import LuaExpander.Proofs.Defining
import LuaExpander.Proofs.Joining

/-! The front of a definition. A name stands alone or directly before parameters in parentheses, and
what it is to stand for comes behind it in one text, or apart. Both come to the same. -/
namespace LuaExpander

namespace Definition

/- An identifier that is not reserved, or operators, among which a parenthesis can only come
first. -/
inductive Titled (name : String) : Prop where
  | word (isName : Literal.isName name = true) (free : name ∉ reservedWords)
  | operators (finished : (Lexer.lex name).failure = none) (filled : name ≠ "")
      (each : ∀ t ∈ (Lexer.lex name).tokens, t.kind = .op)
      (later : ∀ t ∈ (Lexer.lex name).tokens.tail, t.value ≠ "(")

/- Names between commas and the parenthesis behind them. Blanks may stand around each. -/
inductive NameList : List String → List (Kind × String) → Prop where
  | none {blanks} (blank : ∀ b ∈ blanks, b.1.isBlank = true) : NameList [] (blanks ++ [(.op, ")")])
  | last {p blanks after} (isName : Literal.isName p = true)
      (blank : ∀ b ∈ blanks, b.1.isBlank = true) (blankAfter : ∀ b ∈ after, b.1.isBlank = true) :
      NameList [p] (blanks ++ (.iden, p) :: (after ++ [(.op, ")")]))
  | more {p q ps blanks after rest} (isName : Literal.isName p = true)
      (blank : ∀ b ∈ blanks, b.1.isBlank = true) (blankAfter : ∀ b ∈ after, b.1.isBlank = true)
      (later : NameList (q :: ps) rest) :
      NameList (p :: q :: ps) (blanks ++ (.iden, p) :: (after ++ (.op, ",") :: rest))

/- The name alone, or directly before a list of distinct parameters. -/
inductive Heads (name : String) : Option (List String) → String → Prop where
  | name : Heads name none name
  | function {params tail} (finished : (Lexer.lex tail).failure = none)
      (listing : NameList params (Tokens.spelling (Lexer.lex tail).tokens))
      (distinct : params.Nodup) : Heads name (some params) (name ++ "(" ++ tail)

end Definition

namespace Tokens

theorem spelledAround {us : List Token} {front after : List (Kind × String)} {kind : Kind}
    {value : String} (spelled : spelling us = front ++ (kind, value) :: after) :
    ∃ before t behind, us = before ++ t :: behind ∧ spelling before = front ∧ t.kind = kind ∧
      t.value = value ∧ spelling behind = after := by
  obtain ⟨before, others, rfl, isFront, isRest⟩ := List.map_eq_append_iff.mp spelled
  obtain ⟨t, behind, rfl, same, isAfter⟩ := List.map_eq_cons_iff.mp isRest
  obtain ⟨kind, value⟩ := Prod.mk.inj same
  exact ⟨before, t, behind, rfl, isFront, kind, value, isAfter⟩

theorem spelledBlank {us : List Token} (blank : ∀ b ∈ spelling us, b.1.isBlank = true) :
    ∀ u ∈ us, u.kind.isBlank = true := List.forall_mem_map.mp blank

theorem spelledStrip {us ts : List Token} (same : spelling us = spelling ts) :
    spelling (strip us) = spelling (strip ts) := by
  let ends (ws : List (Kind × String)) := ws.dropWhile (!·.1.isSolid)
  have through (ts : List Token) :
      spelling (strip ts) = (ends (ends (spelling ts)).reverse).reverse := by
    simp only [ends, spelling, strip, List.dropWhile_map, ← List.map_reverse]
    rfl
  rw [through, through, same]

theorem spelledText {us ts : List Token} (same : spelling us = spelling ts) :
    text us = text ts := by
  have values := congrArg (List.map Prod.snd) same
  simp only [spelling, List.map_map] at values
  exact congrArg String.join values

end Tokens

namespace Reader

open Definition Tokens

variable {r : Reader} {us rest : List Token}

section

variable {t u : Token} {blanks after : List Token}

theorem blankSkips (ahead : r.cursor.ahead = after ++ u :: rest)
    (blank : ∀ v ∈ after, v.kind.isBlank = true) (solid : u.kind.isBlank = false) :
    ∃ r', skipBlank.run.run r = (.ok u, r') ∧ r'.cursor.ahead = u :: rest ∧ Took after r r' := by
  obtain ⟨r', ran, left, -⟩ := skipBlankHead ahead blank solid
  obtain ⟨front, took, -⟩ := skipBlankTakes ran
  exact ⟨r', ran, left, tookExactly took ahead left⟩

theorem namesFromTurn (ahead : r.cursor.ahead = blanks ++ t :: (after ++ u :: rest))
    (blank : ∀ v ∈ blanks, v.kind.isBlank = true) (isName : t.kind = .iden)
    (blankAfter : ∀ v ∈ after, v.kind.isBlank = true) (solid : u.kind.isBlank = false)
    (stop : String) (turns : Nat) (names : List String) :
    ∃ r', (namesFrom stop (turns + 1) names).run.run r = (if u.value = stop then
          return (t.value :: names).reverse
        else do
          let _ ← more stop
          let _ ← expecting (.text ",")
          namesFrom stop turns (t.value :: names)).run.run r' ∧
      r'.cursor.ahead = u :: rest ∧ Took (blanks ++ t :: after) r r' := by
  obtain ⟨between, read, one⟩ := nameReads ahead blank isName
  have left := @tookLeaves _ _ _ (after ++ u :: rest) one (by simp [ahead])
  obtain ⟨r', skipped, aheadAfter, two⟩ := blankSkips left blankAfter solid
  refine ⟨r', ?_, aheadAfter, by simpa using one.trans two⟩
  rw [namesFrom, runBind, read]
  dsimp only
  rw [runBind, skipped]

theorem moreReads (ahead : r.cursor.ahead = u :: rest) (solid : u.kind ≠ .eof) (stop : String) :
    ∃ r', (more stop).run.run r = (.ok u, r') ∧ r'.cursor.ahead = u :: rest ∧ Took [] r r' := by
  obtain ⟨cursor, looked, left, failure⟩ := peekHead ahead
  refine ⟨{ r with cursor }, ?_, left, tookNone (left.trans ahead.symm) failure⟩
  rw [more, runBind, looked]
  dsimp only
  rw [if_neg solid]
  rfl

end

theorem namesFromReads {p : String} {ps : List String} {turns : Nat} (enough : ps.length < turns)
    (listing : NameList (p :: ps) (spelling us)) (ahead : r.cursor.ahead = us ++ rest)
    (names : List String) :
    ∃ front closer r', us = front ++ [closer] ∧ closer.kind = .op ∧ closer.value = ")" ∧
      (namesFrom ")" turns names).run.run r = (.ok (names.reverse ++ p :: ps), r') ∧
      Took front r r' := by
  obtain ⟨turns, rfl⟩ := Nat.exists_eq_add_of_lt (Nat.zero_lt_of_lt enough)
  rw [Nat.zero_add] at enough ⊢
  -- By induction on the names behind the first one. A turn takes a name, and a comma unless it was
  -- the last one; the parenthesis stays ahead.
  induction ps generalizing p us r turns names with
  | nil =>
    generalize isSpelled : spelling us = ws at listing
    cases listing with
    | last isName blank blankAfter =>
      obtain ⟨before, t, others, rfl, rfl, isIden, rfl, isRest⟩ := spelledAround isSpelled
      obtain ⟨after, closer, none, rfl, rfl, isOp, closes, isNone⟩ := spelledAround isRest
      obtain rfl : none = [] := List.map_eq_nil_iff.mp isNone
      have split : r.cursor.ahead = before ++ t :: (after ++ closer :: rest) := by simp [ahead]
      obtain ⟨r', ran, -, took⟩ := namesFromTurn split (spelledBlank blank) isIden
        (spelledBlank blankAfter) (by simp [isOp, Kind.isBlank]) ")" turns names
      refine ⟨before ++ t :: after, closer, r', by simp, isOp, closes, ?_, took⟩
      rw [ran, if_pos closes, List.reverse_cons]
      rfl
  | cons q ps ih =>
    generalize isSpelled : spelling us = ws at listing
    cases listing with
    | more isName blank blankAfter later =>
      obtain ⟨before, t, others, rfl, rfl, isIden, rfl, isRest⟩ := spelledAround isSpelled
      obtain ⟨after, comma, tail, rfl, rfl, isOp, isComma, rfl⟩ := spelledAround isRest
      obtain ⟨turns, rfl⟩ := Nat.exists_eq_succ_of_ne_zero
        (show turns ≠ 0 by rintro rfl; simp at enough)
      have split : r.cursor.ahead = before ++ t :: (after ++ comma :: (tail ++ rest)) := by
        simp [ahead]
      obtain ⟨r₁, ran, left₁, one⟩ := namesFromTurn split (spelledBlank blank) isIden
        (spelledBlank blankAfter) (by simp [isOp, Kind.isBlank]) ")" (turns + 1) names
      obtain ⟨r₂, looked, left₂, two⟩ := moreReads left₁ (by simp [isOp]) ")"
      obtain ⟨r₃, taken, three⟩ := @expectingReads r₂ comma [] (tail ++ rest) left₂ (by simp)
        (by simp [isOp, Kind.isSolid]) (.text ",") (by simp [Expected.meets, isComma])
      obtain ⟨front, closer, r', rfl, closerOp, closes, named, four⟩ :=
        ih later (tookLeaves three left₂) (t.value :: names) turns (by simpa using enough)
      refine ⟨before ++ t :: after ++ comma :: front, closer, r', by simp, closerOp, closes, ?_,
        by simpa using ((one.trans two).trans three).trans four⟩
      rw [ran, if_neg (by simp [isComma]), runBind, looked]
      dsimp only
      rw [runBind, taken]
      dsimp only
      rw [named]
      simp

theorem listingBegins {p : String} {ps : List String} {ws : List (Kind × String)}
    (listing : NameList (p :: ps) ws) :
    ∃ blanks others, ws = blanks ++ (.iden, p) :: others ∧ (∀ b ∈ blanks, b.1.isBlank = true) ∧
      Literal.isName p = true ∧ NameList (p :: ps) ((.iden, p) :: others) := by
  cases listing with
  | last isName blank blankAfter =>
    exact ⟨_, _, rfl, blank, isName, @NameList.last p [] _ isName (by simp) blankAfter⟩
  | more isName blank blankAfter later =>
    exact ⟨_, _, rfl, blank, isName, @NameList.more p _ _ [] _ _ isName (by simp) blankAfter later⟩

theorem listingLong {ps : List String} {ws : List (Kind × String)} (listing : NameList ps ws) :
    ps.length ≤ ws.length := by
  induction listing with
  | none blank => simp
  | last isName blank blankAfter =>
    simp only [List.length_cons, List.length_append]
    omega
  | more isName blank blankAfter later ih =>
    simp only [List.length_cons, List.length_append] at ih ⊢
    omega

theorem namesReads {params : List String} (listing : NameList params (spelling us))
    (ahead : r.cursor.ahead = us ++ rest) :
    ∃ front closer r', us = front ++ [closer] ∧ closer.kind = .op ∧ closer.value = ")" ∧
      (names ")").run.run r = (.ok params, r') ∧ Took front r r' := by
  generalize isSpelled : spelling us = ws at listing
  cases params with
  | nil =>
    cases listing with
    | none blank =>
      obtain ⟨blanks, closer, others, rfl, rfl, isOp, closes, isNone⟩ := spelledAround isSpelled
      obtain rfl : others = [] := List.map_eq_nil_iff.mp isNone
      obtain ⟨r', skipped, -, took⟩ := @blankSkips r rest closer blanks (by simp [ahead])
        (spelledBlank blank) (by simp [isOp, Kind.isBlank])
      refine ⟨blanks, closer, r', rfl, isOp, closes, ?_, took⟩
      rw [names, runBind, skipped]
      dsimp only
      rw [if_pos closes]
      rfl
  | cons p ps =>
    obtain ⟨blanks, others, rfl, blank, isName, here⟩ := listingBegins listing
    obtain ⟨before, t, behind, rfl, rfl, isIden, rfl, rfl⟩ := spelledAround isSpelled
    obtain ⟨between, skipped, left, one⟩ := @blankSkips r (behind ++ rest) t before
      (by simp [ahead]) (spelledBlank blank) (by simp [isIden, Kind.isBlank])
    have spelled : (.iden, t.value) :: spelling behind = spelling (t :: behind) := by
      rw [← isIden]
      rfl
    rw [spelled] at here
    have enough : ps.length < between.cursor.size := by
      have long := listingLong here
      have fits := between.cursor.aheadSize
      simp only [spelling, List.length_map, List.length_cons] at long
      simp only [left, List.length_cons, List.length_append] at fits
      omega
    obtain ⟨front, closer, r', split, isOp, closes, ran, two⟩ :=
      namesFromReads enough here left []
    refine ⟨before ++ front, closer, r', by simp [split], isOp, closes, ?_, one.trans two⟩
    have other : t.value ≠ ")" := by
      intro same
      rw [same] at isName
      exact absurd isName (by decide)
    rw [names, runBind, skipped]
    dsimp only
    rw [if_neg other, runBind, runGet]
    exact ran

theorem distinctKept {params : List String} (distinct : params.Nodup) :
    params.eraseDups = params := by
  induction params with
  | nil => rfl
  | cons p ps ih =>
    obtain ⟨fresh, later⟩ := List.nodup_cons.mp distinct
    rw [List.eraseDups_cons, List.filter_eq_self.mpr, ih later]
    intro q inside
    have differs : q ≠ p := fun same => fresh (same ▸ inside)
    simpa using differs

theorem paramsRead {params : List String} {opener : Token} (opens : opener.kind = .op)
    (isOpener : opener.value = "(") (listing : NameList params (spelling us))
    (distinct : params.Nodup) (ahead : r.cursor.ahead = opener :: (us ++ rest)) (first : Token)
    (name : String) :
    ∃ r', (readParams first name).run.run r = (.ok (some params), r') ∧
      Took (opener :: us) r r' := by
  obtain ⟨cursor, looked, same, failure⟩ := peekHead ahead
  obtain ⟨r₁, moved, left₁, -⟩ := @nextHead { r with cursor } _ _ same (by simp [opens])
  obtain ⟨front, step⟩ := nextMoves moved
  have one : Took [opener] { r with cursor } r₁ := tookExactly step same left₁
  obtain ⟨front, closer, r₂, rfl, isOp, closes, named, two⟩ := namesReads listing left₁
  have left₂ : r₂.cursor.ahead = [] ++ closer :: rest :=
    tookLeaves two (by simp [left₁])
  obtain ⟨r₃, taken, three⟩ := expectingReads left₂ (by simp) (by simp [isOp, Kind.isSolid])
    (show Expected.meets (.text ")") closer = true by simp [Expected.meets, closes])
  have whole := (((tookNone (same.trans ahead.symm) failure).trans one).trans two).trans three
  refine ⟨r₃, ?_, by simpa using whole⟩
  rw [readParams, runBind, looked]
  dsimp only
  rw [if_neg (by simp [isOpener]), runBind, moved]
  dsimp only
  rw [runBind, named]
  dsimp only
  rw [runBind, taken]
  dsimp only
  rw [if_neg (by simp [distinctKept distinct])]
  rfl

theorem paramsAbsent (ends : ∀ t ∈ r.cursor.ahead.head?, t.value ≠ "(")
    (failure : r.cursor.failure = none) (first : Token) (name : String) :
    ∃ r', (readParams first name).run.run r = (.ok none, r') ∧ Took [] r r' := by
  cases ahead : r.cursor.ahead with
  | nil =>
    refine ⟨r, ?_, tookNone rfl rfl⟩
    rw [readParams, runBind, peekEnd ahead failure]
    rfl
  | cons t rest =>
    obtain ⟨cursor, looked, same, failure⟩ := peekHead ahead
    refine ⟨{ r with cursor }, ?_, tookNone (same.trans ahead.symm) failure⟩
    rw [readParams, runBind, looked]
    dsimp only
    rw [if_pos (ends t (by simp [ahead]))]
    rfl

theorem wordRead {t : Token} (isIden : t.kind = .iden) (ahead : r.cursor.ahead = t :: rest)
    (line : Line) : ∃ r', (readName line).run.run r = (.ok (t, t.value), r') ∧ Took [t] r r' := by
  obtain ⟨skipped, r', hs, hn, took⟩ := @solidReads r t [] rest ahead (by simp)
    (by simp [isIden, Kind.isSolid])
  refine ⟨r', ?_, took⟩
  rw [readName, runBind, hs]
  dsimp only
  rw [isIden]
  dsimp only
  rw [runBind, hn]
  rfl

theorem operatorsRead {t : Token} {ts : List Token} (isOp : t.kind = .op)
    (each : ∀ u ∈ ts, u.kind = .op ∧ u.value ≠ "(")
    (ends : ∀ u ∈ rest.head?, u.kind = .op → u.value = "(")
    (ahead : r.cursor.ahead = t :: (ts ++ rest)) (line : Line) :
    ∃ r', (readName line).run.run r = (.ok (t, text (t :: ts)), r') ∧ Took (t :: ts) r r' := by
  obtain ⟨skipped, r₁, hs, hn, one⟩ := @solidReads r t [] (ts ++ rest) ahead (by simp)
    (by simp [isOp, Kind.isSolid])
  have left : r₁.cursor.ahead = ts ++ rest := tookLeaves one ahead
  have run : r₁.cursor.ahead.takeWhile (fun u => u.kind == .op && u.value != "(") = ts := by
    have stops : rest.takeWhile (fun u => u.kind == .op && u.value != "(") = [] := by
      cases rest with
      | nil => rfl
      | cons u rest =>
        refine List.takeWhile_cons_of_neg ?_
        simpa using ends u rfl
    rw [left, List.takeWhile_append_of_pos (by simpa using each), stops, List.append_nil]
  have two : Took ts r₁ (r₁.took ts) := tookFront left fun u inside => by simp [(each u inside).1]
  refine ⟨_, ?_, one.trans two⟩
  rw [readName, runBind, hs]
  dsimp only
  rw [isOp]
  dsimp only
  rw [runBind, hn]
  dsimp only
  rw [whileRuns, run, textCons]
  rfl

theorem titleRead {name : String} (titled : Titled name)
    (spelled : spelling us = spelling (Lexer.lex name).tokens) (ahead : r.cursor.ahead = us ++ rest)
    (ends : ∀ t ∈ rest.head?, t.kind = .op → t.value = "(") (line : Line) :
    ∃ first r', (readName line).run.run r = (.ok (first, name), r') ∧ Took us r r' := by
  cases titled with
  | word isName free =>
    rw [Lexer.lex, Lexer.lexName isName free] at spelled
    obtain ⟨t, none, rfl, same, isNone⟩ := List.map_eq_cons_iff.mp spelled
    obtain rfl : none = [] := List.map_eq_nil_iff.mp isNone
    obtain ⟨isIden, value⟩ := Prod.mk.inj same
    have isName : t.value = name := by rw [value, Lexer.lexeme, String.ofList_toList]
    obtain ⟨r', ran, took⟩ := wordRead isIden ahead line
    exact ⟨t, r', isName ▸ ran, took⟩
  | operators finished filled each later =>
    have whole : text us = name := by rw [spelledText spelled, Lexer.lexedText finished]
    obtain ⟨t, ts, rfl⟩ := List.exists_cons_of_ne_nil
      (show us ≠ [] by rintro rfl; exact filled whole.symm)
    have kinds : ∀ w ∈ spelling (t :: ts), w.1 = .op := by
      rw [spelled]
      exact List.forall_mem_map.mpr each
    have values : ∀ w ∈ (spelling (t :: ts)).tail, w.2 ≠ "(" := by
      rw [spelled, spelling, ← List.map_tail]
      exact List.forall_mem_map.mpr later
    obtain ⟨isOp, areOps⟩ := List.forall_mem_cons.mp (List.forall_mem_map.mp kinds)
    have areOthers := List.forall_mem_map.mp values
    obtain ⟨r', ran, took⟩ := operatorsRead isOp
      (fun u inside => ⟨areOps u inside, areOthers u inside⟩) ends ahead line
    exact ⟨t, r', whole ▸ ran, took⟩

end Reader

namespace Lexer

open Definition Tokens

theorem lexOpener (line : Nat) (cs : List Char) :
    lexFrom 0 line ('(' :: cs) =
      let after := lexFrom 0 line cs
      { after with tokens := lexeme .op ['('] line :: after.tokens } :=
  lexCons (show Lexeme.first (['('] ++ cs) = .lexeme .op ['('] cs from rfl) line

theorem titledLexes {name : String} (titled : Titled name) :
    (lex name).failure = none ∧ ∀ t ∈ (lex name).tokens, t.kind.isBlank = false := by
  cases titled with
  | word isName free =>
    rw [lex, lexName isName free]
    exact ⟨rfl, by simp [lexeme, Kind.isBlank]⟩
  | operators finished filled each later =>
    exact ⟨finished, fun t inside => by simp [each t inside, Kind.isBlank]⟩

theorem functionLexes {name tail : String} (titled : Titled name)
    (finished : (lex tail).failure = none) :
    (lex (name ++ "(" ++ tail)).failure = none ∧
      spelling (lex (name ++ "(" ++ tail)).tokens =
        spelling (lex name).tokens ++ (.op, "(") :: spelling (lex tail).tokens := by
  obtain ⟨named, solid⟩ := titledLexes titled
  have joint := lexJoined (c := '(') (by decide) (lexes 1 name.toList) named
    (fun t isLast => solid t (List.mem_of_getLast? isLast)) tail.toList
  rw [lexOpener] at joint
  obtain ⟨same, failure⟩ := lexElsewhere (lexes 1 tail.toList) (lexFrom 0 1 name.toList).lastLine
  have split : (name ++ "(" ++ tail).toList = name.toList ++ '(' :: tail.toList := by simp
  rw [lex, split, joint]
  constructor
  · rw [show (lexFrom 0 1 tail.toList).failure = none from finished] at failure
    exact Option.map_eq_none_iff.mp failure
  · rw [spelling, List.map_append]
    exact congrArg (spelling (lex name).tokens ++ (.op, "(") :: ·) same

theorem listingEnds {ps : List String} {ws : List (Kind × String)} (listing : NameList ps ws) :
    ws.getLast? = some (.op, ")") := by
  induction listing with
  | none blank => simp
  | last isName blank blankAfter => simp [List.getLast?_cons]
  | more isName blank blankAfter later ih => simp [List.getLast?_append, List.getLast?_cons, ih]

theorem headLexes {name head : String} {params : Option (List String)} (titled : Titled name)
    (heads : Heads name params head) :
    (lex head).failure = none ∧ ∀ t ∈ (lex head).tokens.getLast?, t.kind.isBlank = false := by
  cases heads with
  | name =>
    obtain ⟨finished, solid⟩ := titledLexes titled
    exact ⟨finished, fun t isLast => solid t (List.mem_of_getLast? isLast)⟩
  | @function params tail finished listing distinct =>
    obtain ⟨whole, spelled⟩ := functionLexes titled finished
    refine ⟨whole, fun t isLast => ?_⟩
    have last := congrArg List.getLast? spelled
    rw [List.getLast?_append, List.getLast?_cons, listingEnds listing, spelling, List.getLast?_map,
      Option.mem_def.mp isLast] at last
    have isOp : t.kind = .op := (Prod.mk.inj (Option.some.inj last)).1
    rw [isOp]
    rfl

/- What is behind the head is lexed as if nothing stood before it, further down. -/
theorem declaredLexes {name head : String} {params : Option (List String)} (titled : Titled name)
    (heads : Heads name params head) (body : String) :
    ∃ run more, (lex (head ++ " " ++ body)).tokens =
        (lex head).tokens ++ lexeme .space (' ' :: run) (lex head).lastLine :: more ∧
      strip more = strip (lexFrom 0 (lex head).lastLine body.toList).tokens ∧
      (lex (head ++ " " ++ body)).failure =
        (lexFrom 0 (lex head).lastLine body.toList).failure := by
  obtain ⟨finished, solid⟩ := headLexes titled heads
  have joint := lexJoined (c := ' ') (by decide) (lexes 1 head.toList) finished solid body.toList
  obtain ⟨run, more, tokens, stripped, failure⟩ := lexSpaced (lex head).lastLine body.toList
  have split : (head ++ " " ++ body).toList = head.toList ++ ' ' :: body.toList := by simp
  rw [lex, split, joint]
  exact ⟨run, more, congrArg ((lex head).tokens ++ ·) tokens, stripped, failure⟩

/- The token on the line that is given, if that says something. -/
def placed (line : Line) (t : Token) : Token :=
  if (Line.shown? line).isSome then { t with line } else t

theorem placedSame (line : Line) (t : Token) :
    (placed line t).kind = t.kind ∧ (placed line t).value = t.value := by
  unfold placed
  split <;> exact ⟨rfl, rfl⟩

theorem spellingPlaced (line : Line) (ts : List Token) :
    spelling (ts.map (placed line)) = spelling ts := by
  rw [spelling, List.map_map]
  refine List.map_congr_left fun t _ => ?_
  exact Prod.ext (placedSame line t).1 (placedSame line t).2

theorem parsePlaced (body : String) (line : Line) :
    parseTokens body line = match (lex body).failure with
      | some e => .error e
      | none => .ok ((lex body).tokens.map (placed line)) := by
  unfold parseTokens Tokens.onLine placed
  dsimp only
  cases (lex body).failure with
  | some e => rfl
  | none => by_cases isShown : (Line.shown? line).isSome = true <;> simp [isShown]

end Lexer

/-! Headers -/

namespace Definition

open Tokens

theorem headerReads {line : Line} {first : Token} {name : String} {params : Option (List String)}
    {r r₁ r₂ : Reader} (named : (readName line).run.run r = (.ok (first, name), r₁))
    (listed : (readParams first name).run.run r₁ = (.ok params, r₂)) :
    (readHeader line).run.run r = (.ok ⟨first, name, params, strip r₂.cursor.ahead⟩, r₂) := by
  rw [readHeader, runBind, named]
  dsimp only
  rw [runBind, listed]
  rfl

theorem headReads {name head : String} {params : Option (List String)} (titled : Titled name)
    (heads : Heads name params head) {ts rest : List Token}
    (spelled : spelling ts = spelling (Lexer.lex head).tokens)
    (apart : ∀ t ∈ rest.head?, t.kind = .space ∧ t.value ≠ "(") (line : Line) :
    ∃ first r', (readHeader line).run.run { cursor := .ofTokens (ts ++ rest) } =
      (.ok ⟨first, name, params, strip rest⟩, r') := by
  cases heads with
  | name =>
    obtain ⟨first, r₁, named, one⟩ := @Reader.titleRead { cursor := .ofTokens (ts ++ rest) } ts rest
      name titled spelled rfl (fun t isNext isOp => by simp [(apart t isNext).1] at isOp) line
    have left₁ : r₁.cursor.ahead = rest := Reader.tookLeaves one rfl
    obtain ⟨r₂, listed, two⟩ := Reader.paramsAbsent
      (fun t isNext => (apart t (left₁ ▸ isNext)).2) one.failure first name
    have left₂ : r₂.cursor.ahead = rest := two.ahead.symm.trans left₁
    have ran := headerReads named listed
    rw [left₂] at ran
    exact ⟨first, r₂, ran⟩
  | @function params tail finished listing distinct =>
    rw [(Lexer.functionLexes titled finished).2] at spelled
    obtain ⟨us, opener, ws, rfl, isTitle, isOp, opens, isListing⟩ := spelledAround spelled
    rw [← isListing] at listing
    obtain ⟨first, r₁, named, one⟩ := @Reader.titleRead
      { cursor := .ofTokens ((us ++ opener :: ws) ++ rest) } us (opener :: (ws ++ rest)) name titled
      isTitle (by simp) (fun t isNext _ => by cases isNext; exact opens) line
    have left₁ : r₁.cursor.ahead = opener :: (ws ++ rest) :=
      Reader.tookLeaves one (by simp)
    obtain ⟨r₂, listed, two⟩ := Reader.paramsRead isOp opens listing distinct left₁ first name
    have left₂ : r₂.cursor.ahead = rest := Reader.tookLeaves two left₁
    have ran := headerReads named listed
    rw [left₂] at ran
    exact ⟨first, r₂, ran⟩

/- The definition that has a lexed text for its replacement. -/
def ofLexed (name : String) (params : Option (List String)) (depth : Nat) (line : Line)
    (body : Lexed) : Except Failure Definition :=
  match body.failure with
  | some e => .error (.error e)
  | none => .ok
      { name, params, body := .text (strip (body.tokens.map (Lexer.placed line))), depth, line }

section

variable {name head : String} {params : Option (List String)} (titled : Titled name)
  (heads : Heads name params head)
include titled heads

theorem headerHeads {spec : String} {line : Line} {rest : List Token}
    (parsed : parseTokens spec line = .ok ((Lexer.lex head).tokens.map (Lexer.placed line) ++ rest))
    (apart : ∀ t ∈ rest.head?, t.kind = .space ∧ t.value ≠ "(") :
    ∃ first, header spec line = .ok ⟨first, name, params, strip rest⟩ := by
  obtain ⟨first, r', ran⟩ :=
    headReads titled heads (Lexer.spellingPlaced line (Lexer.lex head).tokens) apart line
  refine ⟨first, ?_⟩
  rw [header, parsed]
  dsimp only
  rw [ran]

theorem makeDeclared (body : String) (depth : Nat) (line : Line) :
    make (head ++ " " ++ body) none depth line =
      ofLexed name params depth line (Lexer.lexFrom 0 (Lexer.lex head).lastLine body.toList) := by
  obtain ⟨run, more, tokens, stripped, failure⟩ := Lexer.declaredLexes titled heads body
  have parsed := Lexer.parsePlaced (head ++ " " ++ body) line
  rw [failure] at parsed
  unfold ofLexed
  cases unfinished : (Lexer.lexFrom 0 (Lexer.lex head).lastLine body.toList).failure with
  | some e =>
    rw [unfinished] at parsed
    rw [make, header, parsed]
    rfl
  | none =>
    let space := Lexer.placed line (Lexer.lexeme .space (' ' :: run) (Lexer.lex head).lastLine)
    obtain ⟨isSpace, value⟩ :=
      Lexer.placedSame line (Lexer.lexeme .space (' ' :: run) (Lexer.lex head).lastLine)
    have other : space.value ≠ "(" := by
      rw [value]
      intro same
      have begins := congrArg String.toList same
      simp [Lexer.lexeme] at begins
    rw [unfinished, tokens, List.map_append, List.map_cons] at parsed
    obtain ⟨first, read⟩ := headerHeads titled heads parsed (by
      intro t isNext
      cases isNext
      exact ⟨isSpace, other⟩)
    have left : strip (space :: more.map (Lexer.placed line)) =
        strip ((Lexer.lexFrom 0 (Lexer.lex head).lastLine body.toList).tokens.map
          (Lexer.placed line)) := by
      rw [stripSpace isSpace, stripMap fun t => (Lexer.placedSame line t).1, stripped,
        stripMap fun t => (Lexer.placedSame line t).1]
    rw [make, read, left]
    rfl

theorem makeGiven (body : String) (depth : Nat) (line : Line) :
    make head (some (.value (.text body))) depth line =
      ofLexed name params depth line (Lexer.lex body) := by
  have alone := Lexer.parsePlaced head line
  rw [(Lexer.headLexes titled heads).1] at alone
  obtain ⟨first, read⟩ := @headerHeads name head params titled heads head line []
    (by rw [List.append_nil]; exact alone) (by simp)
  have parsed := Lexer.parsePlaced body line
  have given : readBody ⟨first, name, params, []⟩ (some (.value (.text body))) line =
      (fun ts => Body.text (strip ts)) <$> Value.lexed body line := rfl
  rw [make, read]
  change (do
    let body ← readBody ⟨first, name, params, []⟩ (some (.value (.text body))) line
    return ({ name, params, body, depth, line } : Definition) : Except Failure Definition) = _
  rw [given, Value.lexed, parsed]
  unfold ofLexed
  cases (Lexer.lex body).failure <;> rfl

end

theorem lexBefore {p : String} (isName : Literal.isName p = true) (free : p ∉ reservedWords)
    {c : Char} (parts : Lexeme.Parts c) (line : Nat) (more : List Char) :
    ∃ line', (Lexer.lexFrom 0 line (p.toList ++ c :: more)).failure =
        (Lexer.lexFrom 0 line' (c :: more)).failure ∧
      spelling (Lexer.lexFrom 0 line (p.toList ++ c :: more)).tokens =
        (.iden, p) :: spelling (Lexer.lexFrom 0 line' (c :: more)).tokens := by
  have lexed := Lexer.lexes line p.toList
  rw [Lexer.lexName isName free] at lexed
  rw [Lexer.lexJoined parts lexed rfl (by simp [Lexer.lexeme, Kind.isBlank])]
  refine ⟨_, rfl, ?_⟩
  simp [spelling, Lexer.lexeme]

theorem nameUnblank {p : String} (isName : Literal.isName p = true) :
    ∃ c cs, p.toList = c :: cs ∧ Text.isBlank c = false := by
  unfold Literal.isName at isName
  cases begins : p.toList with
  | nil => simp [begins] at isName
  | cons c cs =>
    simp only [begins, Bool.and_eq_true] at isName
    refine ⟨c, cs, rfl, ?_⟩
    by_contra isBlank
    have outside := Lexeme.blankOutside (by simpa using isBlank)
    simp [Lexeme.startInner isName.1] at outside

theorem listingIndented {ps : List String} {ws : List (Kind × String)} (listing : NameList ps ws)
    {b : Kind × String} (isBlank : b.1.isBlank = true) : NameList ps (b :: ws) := by
  cases listing with
  | @none blanks blank =>
    exact @NameList.none (b :: blanks) (List.forall_mem_cons.mpr ⟨isBlank, blank⟩)
  | @last p blanks after isName blank blankAfter =>
    exact @NameList.last p (b :: blanks) after isName (List.forall_mem_cons.mpr ⟨isBlank, blank⟩)
      blankAfter
  | @more p q ps blanks after rest isName blank blankAfter later =>
    exact @NameList.more p q ps (b :: blanks) after rest isName
      (List.forall_mem_cons.mpr ⟨isBlank, blank⟩) blankAfter later

theorem lexWritten {params : List String}
    (names : ∀ p ∈ params, Literal.isName p = true ∧ p ∉ reservedWords) (line : Nat) :
    let l := Lexer.lexFrom 0 line (String.intercalate ", " params ++ ")").toList
    l.failure = none ∧ NameList params (spelling l.tokens) := by
  dsimp only
  induction params generalizing line with
  | nil => exact ⟨rfl, @NameList.none [] (by simp)⟩
  | cons p ps ih =>
    obtain ⟨⟨isName, free⟩, others⟩ := List.forall_mem_cons.mp names
    cases ps with
    | nil =>
      obtain ⟨line', failure, spelled⟩ := lexBefore isName free (c := ')') (by decide) line []
      have split : (String.intercalate ", " [p] ++ ")").toList = p.toList ++ ')' :: [] := by simp
      rw [split, failure, spelled]
      exact ⟨rfl, @NameList.last p [] [] isName (by simp) (by simp)⟩
    | cons q ps =>
      let later := (String.intercalate ", " (q :: ps) ++ ")").toList
      obtain ⟨line', failure, spelled⟩ :=
        lexBefore isName free (c := ',') (by decide) line (' ' :: later)
      have split : (String.intercalate ", " (p :: q :: ps) ++ ")").toList =
          p.toList ++ ',' :: ' ' :: later := by
        simp [later, String.intercalate_cons_cons]
      obtain ⟨c, cs, begins, notBlank⟩ := nameUnblank (others q List.mem_cons_self).1
      obtain ⟨rest, isLater⟩ : ∃ rest, later = c :: rest := by
        cases ps with
        | nil => exact ⟨_, by simp [later, begins]; rfl⟩
        | cons next ps => exact ⟨_, by simp [later, String.intercalate_cons_cons, begins]; rfl⟩
      -- The next name ends the blank behind the comma.
      have starts : later.takeWhile Text.isBlank = [] ∧ later.dropWhile Text.isBlank = later := by
        simp [isLater, notBlank]
      have isComma : Lexeme.first ([','] ++ ' ' :: later) = .lexeme .op [','] (' ' :: later) := rfl
      have comma := Lexer.lexCons isComma line'
      rw [Lexer.lexBlank (by decide), starts.1, starts.2] at comma
      obtain ⟨finished, listing⟩ := ih others _
      rw [split, failure, spelled]
      change (Lexer.lexFrom 0 line' ([','] ++ ' ' :: later)).failure = none ∧ NameList (p :: q :: ps)
        ((.iden, p) :: spelling (Lexer.lexFrom 0 line' ([','] ++ ' ' :: later)).tokens)
      rw [comma]
      exact ⟨finished, @NameList.more p q ps [] [] _ isName (by simp) (by simp)
        (@listingIndented _ _ listing (.space, " ") rfl)⟩

theorem writtenHeads (name : String) {params : List String}
    (names : ∀ p ∈ params, Literal.isName p = true ∧ p ∉ reservedWords) (distinct : params.Nodup) :
    Heads name (some params) (name ++ "(" ++ (String.intercalate ", " params ++ ")")) := by
  obtain ⟨finished, listing⟩ := lexWritten names 1
  exact .function finished listing distinct

end Definition

namespace Session

open Definition Tokens

theorem declaredAsGiven {name head : String} {params : Option (List String)}
    (titled : Titled name) (heads : Heads name params head) (body : String) (warn : Bool)
    (line : Line) (s : Session) :
    (Text.newlines head = 0 →
      (define (head ++ " " ++ body) none warn line).run.run s =
        (define head (some (.value (.text body))) warn line).run.run s) ∧
    (∀ ts, parseTokens body line = .ok ts → ∃ given us s₁ s₂,
      (define head (some (.value (.text body))) warn line).run.run s = (.ok given, s₁) ∧
      (define (head ++ " " ++ body) none warn line).run.run s =
        (.ok { given with body := .text us }, s₂) ∧
      given.name = name ∧ given.params = params ∧ given.body = .text (strip ts) ∧
      spelling us = spelling (strip ts)) ∧
    (∀ e, parseTokens body line = .error e → ∃ e',
      e.kind = .unexpectedToken ∧ e'.kind = .unexpectedToken ∧ e'.cause = e.cause ∧
      (define head (some (.value (.text body))) warn line).run.run s = (.error (.error e), s) ∧
      (define (head ++ " " ++ body) none warn line).run.run s = (.error (.error e'), s)) := by
  simp only [defineRuns, makeDeclared titled heads, makeGiven titled heads, ofLexed,
    Lexer.parsePlaced]
  have lexed : Lexer.Lexes 1 body.toList (Lexer.lex body) := Lexer.lexes 1 body.toList
  -- Both forms make the definition from the same text, lexed behind the head or from line 1 on.
  obtain ⟨same, failure⟩ := Lexer.lexElsewhere lexed (Lexer.lex head).lastLine
  refine ⟨?_, ?_, ?_⟩
  · intro inLine
    have first : (Lexer.lex head).lastLine = 1 := by
      have last := Lexer.lexesLast (Lexer.lexes 1 head.toList) (Lexer.headLexes titled heads).1
      rwa [show head.toList.count '\n' = 0 from inLine] at last
    rw [first]
    rfl
  · intro ts parsed
    cases finished : (Lexer.lex body).failure with
    | some e => rw [finished] at parsed; contradiction
    | none =>
      rw [finished] at parsed failure
      cases parsed
      rw [Option.map_eq_none_iff.mp failure]
      refine ⟨_, _, _, _, rfl, rfl, rfl, rfl, rfl, spelledStrip ?_⟩
      rw [Lexer.spellingPlaced, Lexer.spellingPlaced, same]
  · intro e parsed
    cases unfinished : (Lexer.lex body).failure with
    | none => rw [unfinished] at parsed; contradiction
    | some e =>
      rw [unfinished] at parsed failure
      cases parsed
      obtain ⟨e', unfinishedBelow, cause⟩ := Option.map_eq_some_iff.mp failure
      obtain ⟨-, -, ⟨finished, -⟩ | ⟨e₁, isFailure, -, -, kind, -⟩⟩ := Lexer.lexesWhole lexed
      · rw [finished] at unfinished
        contradiction
      · cases isFailure.symm.trans unfinished
        have alike : e'.kind = .unexpectedToken := by rw [Error.kind, cause]; exact kind
        rw [unfinishedBelow]
        exact ⟨e', kind, alike, cause, rfl, rfl⟩

theorem operatorDeclaredAsGiven :
    let op (v : String) : Token := ⟨.op, v, some 1, none, none⟩
    let word (v : String) : Token := ⟨.iden, v, some 1, none, none⟩
    (define "<-(a, b) a[=b" none).run.run {} =
        (define "<-(a, b)" (some (.value (.text "a[=b")))).run.run {} ∧
    (∃ d s, (define "<-(a, b) a[=b" none).run.run {} = (.ok d, s) ∧ d.name = "<-" ∧
      d.params = some ["a", "b"] ∧ d.body = .text [word "a", op "[", op "=", word "b"]) ∧
    ∃ e, e.kind = .unexpectedToken ∧
      (define "<-(a, b) [[a" none).run.run {} = (.error (.error e), {}) := by
  intro op word
  have titled : Titled "<-" :=
    .operators (by decide +kernel) (by decide) (by decide +kernel) (by decide +kernel)
  have heads : Heads "<-" (some ["a", "b"]) "<-(a, b)" :=
    writtenHeads "<-" (by decide +kernel) (by decide)
  obtain ⟨same, succeeds, -⟩ := declaredAsGiven titled heads "a[=b" true (some 0) {}
  obtain ⟨-, -, fails⟩ := declaredAsGiven titled heads "[[a" true (some 0) {}
  have inLine : Text.newlines "<-(a, b)" = 0 := by decide
  refine ⟨same inLine, ?_, ?_⟩
  · have parsed : parseTokens "a[=b" (some 0) = .ok [word "a", op "[", op "=", word "b"] := rfl
    obtain ⟨d, us, s, s₂, ran, -, named, listed, body, -⟩ := succeeds _ parsed
    exact ⟨d, s, (same inLine).trans ran, named, listed, body⟩
  · cases parsed : parseTokens "[[a" (some 0) with
    | ok ts =>
      have fails : (parseTokens "[[a" (some 0)).toOption.isSome = false := by decide +kernel
      rw [parsed] at fails
      contradiction
    | error e =>
      obtain ⟨e', -, kind, -, -, ran⟩ := fails e parsed
      exact ⟨e', kind, ran⟩

end Session

end LuaExpander
