import LuaExpander.Proofs.Likeness
import LuaExpander.Proofs.Replacing
import LuaExpander.Proofs.Splitting

/-! A call of a definition by text puts the arguments in the place of the parameters, all at once.
Arguments go in as they were read, with numbers by which the copies of one token are known; every
other token of the text is marked with the name, unless it is itself one of the tokens that were
read for the call. The scan goes on in front of what comes out. The number of arguments has to be that of the parameters, where nothing between the parentheses
is no argument if there are no parameters. -/
namespace LuaExpander

open Tokens

/- One and the same piece of the input. -/
def Token.Same (t u : Token) : Prop := t.serial ≠ none ∧ u.serial = t.serial

theorem Tokens.numberEachLength {numbering place : Nat} {args : List (List Token)} :
    (numberEach numbering place args).length = args.length := by
  induction args generalizing place with
  | nil => rfl
  | cons arg args ih => rw [numberEach, List.length_cons, List.length_cons, ih]

namespace Definition

/- Arguments in parentheses, after the blanks that may stand between them and the name. -/
inductive Applied (args : List (List Token)) : List Token → Prop where
  | intro {blanks opener ts closer} (blank : ∀ t ∈ blanks, t.kind.isBlank = true)
      (opens : opener.kind = .op ∧ opener.value = "(") (listed : Listed args ts)
      (closes : closer.kind = .op ∧ closer.value = ")") :
      Applied args (blanks ++ opener :: (ts ++ [closer]))

/- As many arguments as parameters, or nothing for no parameters. -/
def Fits (params : List String) (args : List (List Token)) : Prop :=
  args.length = params.length ∨
    params = [] ∧ ∃ arg, args = [arg] ∧ ∀ t ∈ arg, t.kind.isBlank = true

/- What stands for a token of the text in a call on `line` that has `read` its arguments. -/
inductive Stands (numbering : Nat) (params : List String) (args : List (List Token))
    (read : List Token) (name : String) (line : Line) : Token → List Token → Prop where
  | argument {t} {i : Nat} {arg} (isName : t.kind = .iden) (param : params[i]? = some t.value)
      (given : (numberEach numbering 0 (args.map strip))[i]? = some arg) :
      Stands numbering params args read name line t arg
  | shared {t} (other : t.kind = .iden → t.value ∉ params) (taken : ∃ u ∈ read, t.Same u) :
      Stands numbering params args read name line t [t]
  | marked {t} (other : t.kind = .iden → t.value ∉ params) (own : ¬ ∃ u ∈ read, t.Same u) :
      Stands numbering params args read name line t [t.markedBy name line]

def Substituted (numbering : Nat) (params : List String) (args : List (List Token))
    (read : List Token) (name : String) (line : Line) (value out : List Token) : Prop :=
  ∃ parts, List.Forall₂ (Stands numbering params args read name line) value parts ∧
    out = parts.flatten

variable {numbering : Nat} {params : List String} {args : List (List Token)}
  {read value : List Token} {name : String} {line : Line}

theorem standsOnce (distinct : params.Nodup) {t : Token} {out out' : List Token}
    (stands : Stands numbering params args read name line t out)
    (also : Stands numbering params args read name line t out') : out = out' := by
  cases stands with
  | argument isName param given =>
    have inside := List.mem_of_getElem? param
    cases also with
    | argument isName' param' given' =>
      have bound := (List.getElem?_eq_some_iff.mp param).1
      have place := (List.getElem?_inj bound distinct).mp (param.trans param'.symm)
      subst place
      cases given.symm.trans given'
      rfl
    | shared other taken => exact absurd inside (other isName)
    | marked other own => exact absurd inside (other isName)
  | shared other taken =>
    cases also with
    | argument isName param given => exact absurd (List.mem_of_getElem? param) (other isName)
    | shared other' taken' => rfl
    | marked other' own => contradiction
  | marked other own =>
    cases also with
    | argument isName param given => exact absurd (List.mem_of_getElem? param) (other isName)
    | shared other' taken => contradiction
    | marked other' own' => rfl

theorem substitutedOnce (distinct : params.Nodup) {out out' : List Token}
    (substituted : Substituted numbering params args read name line value out)
    (also : Substituted numbering params args read name line value out') : out = out' := by
  obtain ⟨parts, each, rfl⟩ := substituted
  obtain ⟨parts', each', rfl⟩ := also
  refine congrArg List.flatten ?_
  induction each generalizing parts' with
  | nil =>
    cases each'
    rfl
  | cons here later ih =>
    cases each' with
    | cons here' later' => rw [standsOnce distinct here here', ih _ later']

theorem countedFits (applied : Applied args read) :
    (counted params (args.map strip)).length = params.length ↔ Fits params args := by
  obtain ⟨blank, opens, listed, closes⟩ := applied
  have only : args.map strip = [[]] ↔ ∃ arg, args = [arg] ∧ ∀ t ∈ arg, t.kind.isBlank = true := by
    cases listed with
    | last bracketed => simp [stripEmpty (bracketedSolid bracketed)]
    | more bracketed isComma later => cases later <;> simp
  unfold counted Fits
  by_cases none : args.map strip = [[]] ∧ params = []
  · simp [none, only.mp none.1]
  · rw [if_neg none, List.length_map]
    constructor
    · exact .inl
    · rintro (same | ⟨noParams, blank⟩)
      · exact same
      · exact absurd ⟨only.mpr blank, noParams⟩ none

theorem countedGiven {i : Nat} {arg : List Token}
    (given : (numberEach numbering 0 (counted params (args.map strip)))[i]? = some arg) :
    (numberEach numbering 0 (args.map strip))[i]? = some arg := by
  unfold counted at given
  split at given
  · simp [numberEach] at given
  · exact given

theorem lookupGiven {found : List (List Token)} {word : String} {arg : List Token}
    (bound : (params.zip found).lookup word = some arg) :
    ∃ i : Nat, params[i]? = some word ∧ found[i]? = some arg := by
  obtain ⟨front, rest, split, -⟩ := List.lookup_eq_some_iff.mp bound
  refine ⟨front.length, ?_⟩
  have place : (params.zip found)[front.length]? = some (word, arg) := by simp [split]
  simpa using List.getElem?_zip_eq_some.mp place

theorem lookupAbsent {found : List (List Token)} (arity : found.length = params.length)
    {word : String} (unbound : (params.zip found).lookup word = none) : word ∉ params := by
  intro member
  rw [← List.map_fst_zip (Nat.le_of_eq arity.symm)] at member
  obtain ⟨pair, inside, same⟩ := List.mem_map.mp member
  have different := List.lookup_eq_none_iff.mp unbound pair inside
  simp [same] at different

theorem takenSame (read : List Token) (t : Token) :
    Scan.isTaken read.toArray t = true ↔ ∃ u ∈ read, t.Same u := by
  simp only [Scan.isTaken, Bool.and_eq_true, Array.any_eq_true', List.mem_toArray, beq_iff_eq,
    Option.isSome_iff_ne_none, Token.Same]
  constructor
  · rintro ⟨numbered, u, inside, same⟩
    exact ⟨u, inside, numbered, same⟩
  · rintro ⟨u, inside, numbered, same⟩
    exact ⟨numbered, u, inside, same⟩

section

variable {d : Definition} (function : d.params = some params)
  (arity : (counted params (args.map strip)).length = params.length)
include function arity

theorem tokenStands (nameToken t : Token) :
    Stands numbering params args read d.name nameToken.line t
      (Scan.textReplacement d nameToken
        (numberEach numbering 0 (counted params (args.map strip))) read.toArray [t]) := by
  have kept (other : t.kind = .iden → t.value ∉ params) :
      Stands numbering params args read d.name nameToken.line t
        [Scan.settle read.toArray d.name nameToken.line t] := by
    unfold Scan.settle
    split
    · rename_i taken
      exact .shared other ((takenSame read t).mp taken)
    · rename_i own
      exact .marked other fun taken => own ((takenSame read t).mpr taken)
  simp only [Scan.textReplacement, List.flatMap_singleton, function, Option.getD_some]
  by_cases isName : t.kind = .iden
  · rw [if_pos isName]
    cases bound :
        (params.zip (numberEach numbering 0 (counted params (args.map strip)))).lookup t.value with
    | some arg =>
      obtain ⟨i, param, given⟩ := lookupGiven bound
      exact .argument isName param (countedGiven given)
    | none => exact kept fun _ => lookupAbsent (numberEachLength.trans arity) bound
  · rw [if_neg isName]
    exact kept fun isIden => absurd isIden isName

theorem textSubstituted (nameToken : Token) (value : List Token) :
    Substituted numbering params args read d.name nameToken.line value
      (Scan.textReplacement d nameToken
        (numberEach numbering 0 (counted params (args.map strip))) read.toArray value) := by
  induction value with
  | nil => exact ⟨[], .nil, rfl⟩
  | cons t value ih =>
    obtain ⟨parts, each, later⟩ := ih
    refine ⟨_ :: parts, .cons (tokenStands function arity nameToken t) each, ?_⟩
    rw [List.flatten_cons, ← later]
    simp [Scan.textReplacement]

end

end Definition

theorem Reader.appliedReads {d : Definition} {params : List String} {nameToken : Token}
    {args : List (List Token)} {read rest : List Token} {r : Reader}
    (applied : Definition.Applied args read) (ahead : r.cursor.ahead = read ++ rest) :
    ∃ r', Took read r r' ∧ (d.readArguments params nameToken).run.run r =
      (if (Definition.counted params (args.map strip)).length = params.length then
          .ok (Definition.counted params (args.map strip))
        else .error (.error (.atToken (.wrongArity d.name params.length
          (Definition.counted params (args.map strip)).length) nameToken)), r') := by
  obtain @⟨blanks, opener, ts, closer, blank, opens, listed, closes⟩ := applied
  have split : r.cursor.ahead = blanks ++ opener :: (ts ++ closer :: rest) := by simp [ahead]
  have front : (ts ++ closer :: rest).take (ts.length + 1) = ts ++ [closer] := by
    rw [List.append_cons]
    exact List.take_left' (by simp)
  obtain ⟨r', took, -, ran⟩ := argumentsRead split blank
    ⟨opens.2, by simp [opens.1, Kind.isSolid]⟩ (scanListed listed closes rest)
  rw [front] at took
  exact ⟨r', took, ran⟩

namespace Scan

variable {s : Scan} {d : Definition} {params : List String} {nameToken : Token}
  {args : List (List Token)} {read rest value : List Token}

section

variable (function : d.params = some params) (applied : Definition.Applied args read)
  (ahead : s.cursor.ahead = read ++ rest)
include function applied ahead

theorem appliedGives (fits : Definition.Fits params args) :
    ∃ cursor : Cursor, cursor.ahead = rest ∧ cursor.failure = s.cursor.failure ∧
      (readArguments d nameToken).run.run s =
        (.ok (Definition.counted params (args.map strip), read.toArray), { s with cursor }) := by
  obtain ⟨r, took, ran⟩ := @Reader.appliedReads d params nameToken args read rest
    { cursor := s.cursor, origin := some nameToken } applied ahead
  rw [if_pos ((Definition.countedFits applied).mpr fits)] at ran
  refine ⟨r.cursor, Reader.tookLeaves took ahead, took.failure, ?_⟩
  have taken : r.taken = _ := took.taken
  rw [readArguments, function]
  dsimp only
  rw [runBind, runGet]
  dsimp only
  rw [ran, runBind, runSet]
  dsimp only
  rw [runPure, taken, Array.empty_append]

theorem appliedFails (unfit : ¬ Definition.Fits params args) :
    ∃ (e : Error) (cursor : Cursor), e.kind = .arityMismatch ∧ e.line = nameToken.line ∧
      (readArguments d nameToken).run.run s = (.error (.failed e), { s with cursor }) := by
  let given := (Definition.counted params (args.map strip)).length
  obtain ⟨r, took, ran⟩ := @Reader.appliedReads d params nameToken args read rest
    { cursor := s.cursor, origin := some nameToken } applied ahead
  rw [if_neg fun arity => unfit ((Definition.countedFits applied).mp arity)] at ran
  refine ⟨.atToken (.wrongArity d.name params.length given) nameToken, r.cursor, rfl, rfl, ?_⟩
  rw [readArguments, function]
  dsimp only
  rw [runBind, runGet]
  dsimp only
  rw [ran]
  rfl

end

theorem stepInvokes {ahead : List Token} (invoked : s.session.registry.invoked? nameToken = some d)
    (begun : s.cursor.ahead = nameToken :: ahead) (expand : ArgumentExpander) :
    (step expand).run.run s = (do
      let ts ← replacement expand d nameToken
      inSession (·.logReplaced nameToken ts)
      prepend ts
      return false : ScanM Bool).run.run
        { s with cursor := s.cursor.drop 1 } := by
  rw [stepTakes begun, (Registry.invokedSome invoked).1]
  generalize before : ({ s with
    cursor := s.cursor.drop 1 } : Scan) = taken
  have registry : taken.session.registry = s.session.registry := by rw [← before]
  dsimp only
  rw [runBind, plainRuns registry invoked, runBind, runBind]
  rcases (replacement expand d nameToken).run.run taken with ⟨e | ts, s'⟩ <;> rfl

theorem textInvokes {ahead : List Token} (body : d.body = .text value)
    (invoked : s.session.registry.invoked? nameToken = some d)
    (begun : s.cursor.ahead = nameToken :: ahead) {found : List (List Token)} {taken : Array Token}
    {cursor : Cursor}
    (read : (readArguments d nameToken).run.run
        { s with cursor := s.cursor.drop 1 } =
      (.ok (found, taken), { s with cursor })) :
    ∃ log, ∀ expand, (step expand).run.run s = (.ok false,
      { s.counting found with
        session.log := log
        cursor := cursor.prepend (textReplacement d nameToken (s.copies found) taken value) }) := by
  let out := textReplacement d nameToken (s.copies found) taken value
  obtain ⟨log, logged⟩ : ∃ log,
      ((s.counting found).session.logCall nameToken d (s.copies found)).logReplaced nameToken out =
        { (s.counting found).session with log } :=
    (Session.logCallAlike nameToken d _ _).trans (Session.logTextAlike _ _ _ _)
  have numbered : (numberArguments found).run.run { s with cursor } =
      (.ok (s.copies found), { s.counting found with cursor }) :=
    numberArgumentsRuns found { s with cursor }
  refine ⟨log, fun expand => ?_⟩
  rw [stepInvokes invoked begun, runBind, replacement, body]
  dsimp only
  rw [runBind, read]
  dsimp only
  rw [runBind, numbered]
  dsimp only
  rw [runBind, inSession, runModify]
  dsimp only
  rw [runPure]
  dsimp only
  rw [runBind, inSession, runModify]
  dsimp only
  rw [logged]
  rfl

theorem callSubstitutes (isIden : nameToken.kind = .iden) (unmarked : nameToken.mark = none)
    (active : s.session.registry.active? nameToken.value = some d)
    (named : d.name = nameToken.value) (function : d.params = some params)
    (distinct : params.Nodup) (body : d.body = .text value)
    (applied : Definition.Applied args read)
    (ahead : s.cursor.ahead = nameToken :: (read ++ rest)) :
    (Definition.Fits params args → ∃ (out : List Token) (cursor : Cursor) (log : _) (fresh : Nat),
      (∀ ts, Definition.Substituted s.session.fresh params args read nameToken.value nameToken.line
          value ts ↔ ts = out) ∧
      cursor.ahead = out ++ rest ∧ cursor.failure = s.cursor.failure ∧ s.session.fresh ≤ fresh ∧
      ∀ steps, run (steps + 1) s =
        run steps { s with session.log := log, session.fresh := fresh, cursor }) ∧
    (¬ Definition.Fits params args → ∃ (e : Error) (s' : Scan),
      e.kind = .arityMismatch ∧ e.line = nameToken.line ∧
      ∀ steps, run (steps + 1) s = (.error (.failed e), s')) := by
  have invoked : s.session.registry.invoked? nameToken = some d := by
    rw [Registry.invoked?, if_pos ⟨isIden, by simp [unmarked]⟩, active]
  let taken : Scan := { s with cursor := s.cursor.drop 1 }
  have begun : taken.cursor.ahead = read ++ rest := by simp [taken, ahead]
  constructor
  · intro fits
    obtain ⟨cursor, left, failure, given⟩ := @appliedGives taken d params nameToken args read rest
      function applied begun fits
    obtain ⟨log, ran⟩ := textInvokes body invoked ahead given
    have substituted := @Definition.textSubstituted s.session.fresh params args read d function
      ((Definition.countedFits applied).mpr fits) nameToken value
    rw [named] at substituted
    refine ⟨_, cursor.prepend _, log, _, fun ts => ⟨fun also => ?_, fun same => same ▸ substituted⟩,
      by rw [Cursor.aheadPrepend, left], ?_, Nat.le_add_right _ _,
      fun steps => by rw [run, ran]; rfl⟩
    · exact Definition.substitutedOnce distinct also substituted
    · rw [Cursor.failurePrepend, failure, Cursor.failureDrop]
  · intro unfit
    obtain ⟨e, cursor, kind, line, refused⟩ := @appliedFails taken d params nameToken args read
      rest function applied begun unfit
    refine ⟨e, { s with cursor }, kind, line, fun steps => ?_⟩
    rw [run, stepInvokes invoked ahead, runBind, replacement, body]
    dsimp only
    rw [runBind, refused]

-- The text names its second parameter in the place of the first, and holds the parenthesis of the
-- call.
theorem callSubstitutesOnce :
    let word (v : String) : Token := ⟨.iden, v, some 3, none, none⟩
    let op (v : String) : Token := ⟨.op, v, some 3, none, none⟩
    let opener : Token := ⟨.op, "(", some 3, none, some (0, 5)⟩
    let plus : Token := ⟨.op, "+", some 1, none, some (0, 8)⟩
    let d : Definition :=
      ⟨"F", some ["a", "b"], .text [word "a", plus, opener, word "b"], 0, none⟩
    let call (ts : List Token) : Scan :=
      { session := { registry := ({} : Registry).push d, fresh := 1 }
        cursor := .ofTokens
          (word "F" :: ⟨.space, " ", some 3, none, none⟩ :: opener :: (ts ++ [op ")", word "a"])) }
    (∃ (cursor : Cursor) (log : _) (fresh : Nat),
      cursor.ahead =
        [(word "b").numbered 1 0, ⟨.op, "+", some 3, some "F", none⟩, opener,
          (word "x").numbered 1 1, word "a"] ∧
      ∀ steps, run (steps + 1) (call [word "b", op ",", word "x"]) =
        run steps { call [word "b", op ",", word "x"] with
          session.log := log, session.fresh := fresh, cursor }) ∧
    ∃ (e : Error) (s' : Scan), e.kind = .arityMismatch ∧ e.line = some 3 ∧
      ∀ steps, run (steps + 1) (call [word "x"]) = (.error (.failed e), s') := by
  intro word op opener plus d call
  have active (ts : List Token) : (call ts).session.registry.active? "F" = some d := by
    rw [Registry.activePush (by decide), if_pos rfl]
  have one (v : String) : Bracketed false [word v] := plainBracketed (by simp [word])
  have applied {args ts} (listed : Listed args ts) : Definition.Applied args
      ([⟨.space, " ", some 3, none, none⟩] ++ opener :: (ts ++ [op ")"])) :=
    .intro (by decide) ⟨rfl, rfl⟩ listed ⟨rfl, rfl⟩
  constructor
  · have both : Listed [[word "b"], [word "x"]] [word "b", op ",", word "x"] :=
      .more (one "b") ⟨rfl, rfl⟩ (.last (one "x"))
    obtain ⟨out, cursor, log, fresh, only, ahead, -, -, ran⟩ :=
      (@callSubstitutes (call [word "b", op ",", word "x"]) d ["a", "b"] (word "F") _ _ [word "a"] _
        rfl rfl (active _) rfl rfl (by decide) rfl (applied both) rfl).1 (.inl rfl)
    refine ⟨cursor, log, fresh, ?_, ran⟩
    have parts : out = [[(word "b").numbered 1 0], [⟨.op, "+", some 3, some "F", none⟩], [opener],
        [(word "x").numbered 1 1]].flatten := by
      refine ((only _).mp ⟨_, ?_, rfl⟩).symm
      refine .cons ?_ (.cons ?_ (.cons ?_ (.cons ?_ .nil)))
      · exact .argument (i := 0) rfl rfl rfl
      · exact .marked (by decide) (by simp [Token.Same, word, op, opener, plus])
      · exact .shared (by decide) ⟨opener, by simp, by simp [Token.Same, opener]⟩
      · exact .argument (i := 1) rfl rfl rfl
    rw [ahead, parts]
    rfl
  · exact (@callSubstitutes (call [word "x"]) d ["a", "b"] (word "F") _ _ [word "a"] _ rfl rfl
      (active _) rfl rfl (by decide) rfl (applied (.last (one "x"))) rfl).2
        (by simp [Definition.Fits])

/- Lets `F` stand for the third token after the name, and gives back all three. -/
def remember : Transformer where
  name := "remember"
  id := 0
  run _ := Action.toProgram do
    let _ ← Action.read .next
    let _ ← Action.read .next
    let third ← Action.read .next
    Action.ask (.define "F(x)" (some (.token third)) (some 0))
    return (.tokens (← Action.ask .taken), .empty)

theorem readParenthesisUnmarked :
    let s := ((Session.define "T" (some (.callable remember))).run.run {}).2
    let after := s.expandUnit 9 (.text "T F()") none
    (after.2.registry.get? "F").map (fun d => (d.params, d.value.map (·.value))) =
        some (some ["x"], ["("]) ∧
      after.1.toOption.map (·.map fun t => (t.value, t.mark)) =
        some [(" ", none), ("(", none), ("", none)] := by
  decide +kernel

end Scan

end LuaExpander
