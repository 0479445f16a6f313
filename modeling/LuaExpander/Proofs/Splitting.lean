import LuaExpander.Proofs.Arguments
import LuaExpander.Proofs.Spelling
import Mathlib.Data.List.DropRight

/-! Lists of arguments are split in two ways. A reader keeps the brackets that are still to be
closed; the other way only counts how deep it is, and takes operators made of several brackets for
brackets, too. No such operator comes from a text. Where brackets are matched the count is the
number of brackets to be closed, so that both ways find the same commas. -/
namespace LuaExpander.Tokens

/- An operator that counts as a bracket is one. -/
def Simple (t : Token) : Prop :=
  t.kind = .op → isBracket t.value = false → isOpening t.value = false ∧ isClosing t.value = false

theorem spelledOperator {t : Token} (spelled : t.Spelled) (isOp : t.kind = .op) :
    t.value.toList ∈ Lexeme.longOperators ∨ ∃ c, t.value.toList = [c] := by
  have origin := Lexeme.firstOrigin spelled
  generalize t.kind = kind at origin isOp
  cases origin with
  | name found =>
    rcases Lexeme.nameKindWord t.value.toList with word | word <;> simp [word] at isOp
  | operator found noName =>
    obtain ⟨-, -, long | ⟨-, c, single, -⟩⟩ := Lexeme.operatorSource found
    · exact .inl (List.mem_of_find?_eq_some long)
    · exact .inr ⟨c, single⟩
  | other inert => exact absurd isOp inert.2.2

theorem spelledSimple {t : Token} (spelled : t.Spelled) : Simple t := by
  have opening : ∀ v ∈ ["", "(", "[", "\x7b", "([", "[\x7b", "([\x7b"],
      isBracket v = true ∨ v.toList.length ≠ 1 := by decide
  have closing : ∀ v ∈ ["", ")", "]", "\x7d", ")]", "]\x7d", ")]\x7d"],
      isBracket v = true ∨ v.toList.length ≠ 1 := by decide
  have several : ∀ o ∈ Lexeme.longOperators,
      isOpening (String.ofList o) = false ∧ isClosing (String.ofList o) = false := by decide
  intro isOp noBracket
  rcases spelledOperator spelled isOp with long | ⟨c, single⟩
  · have found := several _ long
    rwa [String.ofList_toList] at found
  · rw [isOpening, isClosing, decide_eq_false_iff_not, decide_eq_false_iff_not]
    constructor
    · intro member
      simpa [noBracket, single] using opening _ member
    · intro member
      simpa [noBracket, single] using closing _ member

theorem pairCounts {opener closer : String} (pair : Reader.closerOf? opener = some closer) :
    isOpening opener = true ∧ isOpening closer = false ∧ isClosing closer = true := by
  unfold Reader.closerOf? at pair
  split at pair <;> cases pair <;> decide

theorem splitWord {t : Token} (simple : Simple t) {level : Int}
    (plain : t.kind = .op → isBracket t.value = false ∧ (level = 0 → t.value ≠ ","))
    (piece more : List Token) :
    splitFrom level piece (t :: more) = splitFrom level (t :: piece) more := by
  rw [splitFrom]
  by_cases isOp : t.kind = .op
  · obtain ⟨noBracket, noComma⟩ := plain isOp
    obtain ⟨noOpening, noClosing⟩ := simple isOp noBracket
    have noSplit : ¬ (t.value = "," ∧ level = 0) := fun split => noComma split.2 split.1
    rw [if_pos isOp, if_neg (by simp [noOpening]), if_neg (by simp [noClosing]), if_neg noSplit]
  · rw [if_neg isOp]

theorem splitBracketed {commas : Bool} {ts : List Token} (bracketed : Bracketed commas ts)
    (simple : ∀ t ∈ ts, Simple t) {level : Int} (above : 0 ≤ level)
    (inside : commas = true → level ≠ 0) (piece more : List Token) :
    splitFrom level piece (ts ++ more) = splitFrom level (ts.reverse ++ piece) more := by
  induction bracketed generalizing level piece more with
  | nil => rfl
  | @word commas t ts solid plain later ih =>
    obtain ⟨here, others⟩ := List.forall_mem_cons.mp simple
    have noComma (isOp : t.kind = .op) : isBracket t.value = false ∧ (level = 0 → t.value ≠ ",") :=
      ⟨(plain isOp).1, fun outside => (plain isOp).2 (by
        cases commas with
        | true => exact absurd outside (inside rfl)
        | false => rfl)⟩
    rw [List.cons_append, splitWord here noComma, ih others above inside]
    simp
  | @group commas opener closer inner ts opens closes pair within later ihInner ih =>
    obtain ⟨-, simpleInner, -, simpleLater⟩ :
        Simple opener ∧ (∀ t ∈ inner, Simple t) ∧ Simple closer ∧ ∀ t ∈ ts, Simple t := by
      simpa only [List.forall_mem_cons, List.forall_mem_append] using simple
    obtain ⟨opening, noOpening, closing⟩ := pairCounts pair
    have deeper : splitFrom level piece (opener :: (inner ++ closer :: (ts ++ more))) =
        splitFrom (level + 1) (opener :: piece) (inner ++ closer :: (ts ++ more)) := by
      rw [splitFrom, if_pos opens, if_pos opening]
    have back (piece : List Token) : splitFrom (level + 1) piece (closer :: (ts ++ more)) =
        splitFrom level (closer :: piece) (ts ++ more) := by
      rw [splitFrom, if_pos closes, if_neg (by simp [noOpening]), if_pos closing,
        Int.add_sub_cancel]
    rw [List.cons_append, List.append_assoc, List.cons_append, deeper,
      ihInner simpleInner (by omega) (by omega), back, ih simpleLater above inside]
    simp

theorem plainBracketed {ts : List Token} (plain : ∀ t ∈ ts, t.kind ≠ .eof ∧
    (t.kind = .op → isBracket t.value = false ∧ t.value ≠ ",")) : Bracketed false ts := by
  induction ts with
  | nil => exact .nil
  | cons t ts ih =>
    obtain ⟨⟨solid, here⟩, others⟩ := List.forall_mem_cons.mp plain
    exact .word solid (fun isOp => ⟨(here isOp).1, fun _ => (here isOp).2⟩) (ih others)

theorem splitListed {args : List (List Token)} {ts : List Token} (listed : Listed args ts)
    (simple : ∀ arg ∈ args, ∀ t ∈ arg, Simple t) : splitFrom 0 [] ts = args := by
  induction listed with
  | @last arg bracketed =>
    have whole := splitBracketed bracketed (simple arg (by simp)) (Int.le_refl 0) (by simp) [] []
    rw [List.append_nil, List.append_nil] at whole
    rw [whole, splitFrom, List.reverse_reverse]
  | @more arg comma args ts bracketed isComma later ih =>
    obtain ⟨here, others⟩ := List.forall_mem_cons.mp simple
    obtain ⟨isOp, value⟩ := isComma
    rw [splitBracketed bracketed here (Int.le_refl 0) (by simp), splitFrom, if_pos isOp, value,
      if_neg (by decide), if_neg (by decide), if_pos (by simp), ih others]
    simp

theorem stripFilled {t : Token} {ts : List Token} (member : t ∈ ts)
    (solid : t.kind.isSolid = true) :
    strip ts ≠ [] := by
  intro none
  rw [strip, List.reverse_eq_nil_iff, List.dropWhile_eq_nil_iff] at none
  have blank : ∀ u ∈ ts.dropWhile (!·.kind.isSolid), (!u.kind.isSolid) = true :=
    fun u inside => none u (List.mem_reverse.mpr inside)
  rw [← List.dropWhile_eq_nil_iff, List.dropWhile_idempotent, List.dropWhile_eq_nil_iff] at blank
  simpa [solid] using blank t member

theorem stripBlank {ts : List Token} (blank : ∀ t ∈ ts, t.kind.isSolid = false) :
    strip ts = [] := by
  have none : ts.dropWhile (!·.kind.isSolid) = [] :=
    List.dropWhile_eq_nil_iff.mpr fun t member => by simp [blank t member]
  rw [strip, none]
  rfl

theorem stripEmpty {ts : List Token} (notEnd : ∀ t ∈ ts, t.kind ≠ .eof) :
    strip ts = [] ↔ ∀ t ∈ ts, t.kind.isBlank = true := by
  constructor
  · intro none t member
    have blank : t.kind.isSolid = false := by
      cases solid : t.kind.isSolid with
      | false => rfl
      | true => exact absurd none (stripFilled member solid)
    have inside := notEnd t member
    revert blank inside
    cases t.kind <;> simp [Kind.isSolid, Kind.isBlank]
  · intro blank
    refine stripBlank fun t member => ?_
    have isBlank := blank t member
    revert isBlank
    cases t.kind <;> simp [Kind.isSolid, Kind.isBlank]

theorem splitCommasListed {args : List (List Token)} {ts : List Token} (listed : Listed args ts)
    (simple : ∀ arg ∈ args, ∀ t ∈ arg, Simple t) :
    (strip ts = [] ↔ ∃ arg, args = [arg] ∧ ∀ t ∈ arg, t.kind.isBlank = true) ∧
      (strip ts ≠ [] → splitCommas ts = args.map strip) := by
  constructor
  · cases listed with
    | last bracketed => simp [stripEmpty (bracketedSolid bracketed)]
    | @more arg comma args ts bracketed isComma later =>
      have filled := @stripFilled comma (arg ++ comma :: ts) (by simp)
        (by simp [isComma, Kind.isSolid])
      constructor
      · intro none
        contradiction
      · rintro ⟨only, same, -⟩
        cases same
        cases later
  · intro filled
    rw [splitCommas, if_neg (by simpa using filled), splitListed listed simple]

theorem splittersAgree {args : List (List Token)} {ts rest : List Token} {closer : Token}
    {r : Reader} (listed : Listed args ts) (spelled : ∀ arg ∈ args, ∀ t ∈ arg, t.Spelled)
    (closes : closer.kind = .op ∧ closer.value = ")")
    (ahead : r.cursor.ahead = ts ++ closer :: rest) :
    (∃ r', (Reader.list ")").run.run r = (.ok (args.map strip), r') ∧ r'.cursor.ahead = rest ∧
      r'.cursor.failure = r.cursor.failure ∧ r'.taken = r.taken ++ (ts ++ [closer]).toArray) ∧
    ((∃ arg, args = [arg] ∧ ∀ t ∈ arg, t.kind.isBlank = true) → splitCommas ts = []) ∧
    ((¬ ∃ arg, args = [arg] ∧ ∀ t ∈ arg, t.kind.isBlank = true) →
      splitCommas ts = args.map strip) := by
  obtain ⟨blank, split⟩ := splitCommasListed listed fun arg isArg t member =>
    spelledSimple (spelled arg isArg t member)
  have grouped : ts ++ closer :: rest = (ts ++ [closer]) ++ rest := by simp
  have front : (ts ++ closer :: rest).take (ts.length + 1) = ts ++ [closer] := by
    rw [grouped]
    exact List.take_left' (by simp)
  obtain ⟨ran, took⟩ := Reader.listReads ahead (Reader.scanListed listed closes rest)
  rw [front] at ran took
  refine ⟨⟨_, ran, Reader.tookLeaves took (ahead.trans grouped), took.failure, took.taken⟩, ?_, ?_⟩
  · intro isBlank
    rw [splitCommas, if_pos (by simpa using blank.mpr isBlank)]
  · intro noBlank
    exact split fun none => noBlank (blank.mp none)

-- Commas in two kinds of brackets, an empty argument, and a parenthesis in a comment.
theorem splittersAgreeOnBrackets :
    let word (v : String) : Token := ⟨.iden, v, some 1, none, none⟩
    let op (v : String) : Token := ⟨.op, v, some 1, none, none⟩
    let blank : Token := ⟨.space, " ", some 1, none, none⟩
    let remark : Token := ⟨.comment, "--[[)]]", some 1, none, none⟩
    let call := [word "f", op "(", word "b", op ",", op "[", word "c", op ",", op "]", op ")"]
    let args := [[word "a", remark], [], blank :: call]
    let ts := [word "a", remark, op ",", op ","] ++ blank :: call
    Listed args ts ∧ (∀ arg ∈ args, ∀ t ∈ arg, t.Spelled) ∧
    (∃ r', (Reader.list ")").run.run { cursor := .ofTokens (ts ++ [op ")", op ")"]) } =
        (.ok [[word "a"], [], call], r') ∧
      r'.cursor.ahead = [op ")"] ∧ r'.taken.toList = ts ++ [op ")"]) ∧
    splitCommas ts = [[word "a"], [], call] := by
  intro word op blank remark call args ts
  have simple : Bracketed false [word "a", remark] := plainBracketed (by decide)
  have inner : Bracketed true [word "c", op ","] :=
    .word (by decide) (by decide) (.word (by decide) (by decide) .nil)
  have outer : Bracketed true [word "b", op ",", op "[", word "c", op ",", op "]"] :=
    .word (by decide) (by decide) (.word (by decide) (by decide)
      (@Bracketed.group true (op "[") (op "]") _ [] rfl rfl rfl inner .nil))
  have last : Bracketed false (blank :: call) :=
    .word (by decide) (by decide) (.word (by decide) (by decide)
      (@Bracketed.group false (op "(") (op ")") _ [] rfl rfl rfl outer .nil))
  have listed : Listed args ts := .more simple ⟨rfl, rfl⟩ (.more .nil ⟨rfl, rfl⟩ (.last last))
  have spelled : ∀ arg ∈ args, ∀ t ∈ arg, t.Spelled := by
    have each : ∀ arg ∈ args, ∀ t ∈ arg,
        Lexeme.first t.value.toList = .lexeme t.kind t.value.toList [] := by decide +kernel
    exact each
  obtain ⟨⟨r', ran, left, -, taken⟩, -, same⟩ := @splittersAgree args ts [op ")"] (op ")")
    { cursor := .ofTokens (ts ++ [op ")", op ")"]) } listed spelled ⟨rfl, rfl⟩ rfl
  refine ⟨listed, spelled, ⟨r', ran, left, by rw [taken]; simp⟩, same ?_⟩
  simp [args]

end LuaExpander.Tokens
