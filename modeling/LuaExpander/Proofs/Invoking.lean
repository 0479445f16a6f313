import LuaExpander.Proofs.Failing
import LuaExpander.Proofs.Heading
import LuaExpander.Proofs.Matching

/-! Definitions that are made can be invoked. The name of one was read from the tokens of a text, an
identifier or operators side by side; lexed once more before a blank it comes out as the same
tokens, and a search among all definitions that begins with the first of them finds this one, with
the whole name for its token. -/
namespace LuaExpander

theorem Lexeme.nameSpelled {cs a b : List Char} (found : name? cs = some (a, b)) :
    Literal.isName (String.ofList a) = true := by
  cases cs with
  | nil => contradiction
  | cons c cs =>
    rw [name?] at found
    split at found
    · rename_i starts
      cases found
      simp [Literal.isName, starts]
    · contradiction

namespace Lexer

open Tokens

variable {line : Nat} {cs : List Char} {l : Lexed}

theorem lexesNamed (lexed : Lexes line cs l) :
    ∀ t ∈ l.tokens, t.kind = .iden → Literal.isName t.value = true := by
  induction lexed with
  | ends => simp
  | fails unfinished => simp
  | next found later ih =>
    refine List.forall_mem_cons.mpr ⟨fun isIden => ?_, ih⟩
    cases Lexeme.firstOrigin found with
    | name isName => exact Lexeme.nameSpelled isName
    | operator isOperator noName => contradiction
    | other inert => exact absurd isIden inert.1

/- Tokens that stand side by side in a text, lexed on their own. -/
theorem runLexes {s : String} {before run after : List Token}
    (split : (lex s).tokens = before ++ (run ++ after)) :
    (lex (text run)).failure = none ∧ spelling (lex (text run)).tokens = spelling run := by
  obtain ⟨line', rest, l, lexed, tokens⟩ := lexesAfter (lexes 1 s.toList) split
  obtain ⟨front, more, -, spelled, relexed⟩ := lexesCut lexed tokens
  rw [← spelled, lex, String.toList_ofList]
  exact relexed 1

end Lexer

namespace Definition

open Tokens

/- What a name is read from: an identifier, or operators that no parenthesis is among but the
first. -/
theorem nameRuns {line : Line} {r r' : Reader} {t : Token} {name : String}
    (ran : (readName line).run.run r = (.ok (t, name), r')) :
    ∃ before run, r.cursor.ahead = before ++ (run ++ r'.cursor.ahead) ∧ name = text run ∧
      ((∃ t, run = [t] ∧ t.kind = .iden) ∨
        ∃ t more, run = t :: more ∧ t.kind = .op ∧ ∀ u ∈ more, u.kind = .op ∧ u.value ≠ "(") := by
  obtain ⟨first, between, skipped, ran⟩ := bindSucceeds ran
  obtain ⟨blanks, took, ahead⟩ := Reader.skipBlankTakes skipped
  -- The token that was looked at is the one that is taken.
  have taken {u : Token} {after : Reader} (solid : first.kind ≠ .eof)
      (moved : Reader.next.run.run between = (.ok u, after)) :
      r.cursor.ahead = blanks ++ first :: after.cursor.ahead := by
    obtain ⟨rest, left⟩ := List.head?_eq_some_iff.mp (ahead.resolve_right solid)
    obtain ⟨after', moved', left', -⟩ := Reader.nextHead left solid
    cases moved.symm.trans moved'
    rw [took.ahead, left, left']
  cases kind : first.kind with
  | iden =>
    rw [kind] at ran
    obtain ⟨u, after, moved, ran⟩ := bindSucceeds ran
    cases ran
    exact ⟨blanks, [t], taken (by simp [kind]) moved, by simp [text], .inl ⟨t, rfl, kind⟩⟩
  | op =>
    rw [kind] at ran
    obtain ⟨u, after, moved, ran⟩ := bindSucceeds ran
    obtain ⟨more, last, followed, ran⟩ := bindSucceeds ran
    cases ran
    obtain ⟨isRun, tookRun⟩ := Reader.takeWhileTakes (by
      intro t goesOn isEnd
      simp [isEnd] at goesOn) followed
    have each : ∀ u ∈ more, u.kind = .op ∧ u.value ≠ "(" := by
      intro u member
      rw [isRun] at member
      simpa using List.all_eq_true.mp List.all_takeWhile u member
    refine ⟨blanks, t :: more, ?_, (textCons t more).symm, .inr ⟨t, more, rfl, kind, each⟩⟩
    rw [taken (by simp [kind]) moved, tookRun.ahead]
    rfl
  | keyword | string | number | space | comment | eof =>
    rw [kind] at ran
    cases ran

theorem readNameTitled {spec : String} {line : Line} {ts : List Token}
    (parsed : parseTokens spec line = .ok ts) {t : Token} {name : String} {r' : Reader}
    (ran : (readName line).run.run { cursor := .ofTokens ts } = (.ok (t, name), r')) :
    Titled name := by
  have classed := parseTokensClassed parsed
  obtain ⟨before, run, ahead, rfl, isRun⟩ := nameRuns ran
  have ahead : ts = before ++ (run ++ r'.cursor.ahead) := ahead
  rw [Lexer.parsePlaced] at parsed
  split at parsed
  · contradiction
  obtain rfl : (Lexer.lex spec).tokens.map (Lexer.placed line) = ts := Except.ok.inj parsed
  obtain ⟨us, others, split, -, isRest⟩ := List.map_eq_append_iff.mp ahead
  obtain ⟨vs, after, rfl, isRun', -⟩ := List.map_eq_append_iff.mp isRest
  rcases isRun with ⟨t, rfl, isIden⟩ | ⟨t, more, rfl, isOp, each⟩
  · obtain ⟨v, rfl, rfl⟩ := List.map_eq_singleton_iff.mp isRun'
    obtain ⟨kind, value⟩ := Lexer.placedSame line v
    have free := (classed (Lexer.placed line v) (by simp [ahead])).iden isIden
    have isName := Lexer.lexesNamed (Lexer.lexes 1 spec.toList) v
      (show v ∈ (Lexer.lex spec).tokens by simp [split]) (kind.symm.trans isIden)
    rw [show text [Lexer.placed line v] = v.value by simp [text, value]]
    exact .word isName (value ▸ free)
  · obtain ⟨finished, relexed⟩ := Lexer.runLexes split
    have spelled : spelling vs = spelling (t :: more) := by
      rw [← isRun', Lexer.spellingPlaced]
    rw [spelledText spelled] at finished relexed
    rw [spelled] at relexed
    refine .operators finished ?_ ?_ ?_
    · intro none
      rw [none] at relexed
      contradiction
    · have kinds : ∀ w ∈ spelling (t :: more), w.1 = .op :=
        List.forall_mem_map.mpr (List.forall_mem_cons.mpr ⟨isOp, fun u member => (each u member).1⟩)
      rw [← relexed] at kinds
      exact List.forall_mem_map.mp kinds
    · have values : ∀ w ∈ (spelling (t :: more)).tail, w.2 ≠ "(" :=
        List.forall_mem_map.mpr fun u member => (each u member).2
      rw [← relexed, spelling, ← List.map_tail] at values
      exact fun u member => values _ (List.mem_map_of_mem member)

theorem makeTitled {spec : String} {meaning : Option Meaning} {depth : Nat} {line : Line}
    {d : Definition} (made : make spec meaning depth line = .ok d) : Titled d.name := by
  obtain ⟨ts, first, r, parsed, named⟩ := makeReadsName made
  exact readNameTitled parsed named

end Definition

theorem Lexeme.blankParts {c : Char} (isBlank : Text.isBlank c = true) : Parts c := by
  have apart {cs : List Char} (solid : cs.all (fun d => !Text.isBlank d) = true) : c ∉ cs := by
    intro member
    have notBlank := List.all_eq_true.mp solid c member
    simp [isBlank] at notBlank
  have solid : longOperators.all (fun o => o.all fun d => !Text.isBlank d) = true := by decide
  exact ⟨blankOutside isBlank, apart (by decide), fun o member =>
    apart (List.all_eq_true.mp solid o member)⟩

namespace Lexer

open Definition Tokens

theorem titledSpaced {name gap : String} (titled : Titled name) (filled : gap ≠ "")
    (blank : ∀ c ∈ gap.toList, Text.isBlank c = true) :
    (lex (name ++ gap)).failure = none ∧ (lex (name ++ gap)).tokens =
      (lex name).tokens ++ [lexeme .space gap.toList (lex name).lastLine] := by
  obtain ⟨c, cs, isGap⟩ := List.exists_cons_of_ne_nil
    (show gap.toList ≠ [] by simpa [String.toList_eq_nil_iff] using filled)
  rw [isGap] at blank ⊢
  obtain ⟨isBlank, later⟩ := List.forall_mem_cons.mp blank
  obtain ⟨finished, solid⟩ := titledLexes titled
  have joint := lexJoined (Lexeme.blankParts isBlank) (lexes 1 name.toList) finished
    (fun t isLast => solid t (List.mem_of_getLast? isLast)) cs
  have taken : cs.takeWhile Text.isBlank = cs := List.takeWhile_eq_self_iff.mpr later
  have none : cs.dropWhile Text.isBlank = [] := List.dropWhile_eq_nil_iff.mpr later
  rw [lexBlank isBlank, taken, none] at joint
  rw [lex, String.toList_append, isGap, joint]
  exact ⟨rfl, rfl⟩

end Lexer

namespace Registry

open Tokens

variable {r : Registry} {t gap : Token} {ops more : List Token} {c : Cursor} {d : Definition}

/- Only the end of the operators or the bound ends a run, and the name is within the bound. -/
theorem runReaches {limit length : Nat} (areOps : ∀ u ∈ ops, u.kind = .op)
    (filled : ∀ u ∈ ops, u.value ≠ "") (ends : gap.kind ≠ .op)
    (within : ops ≠ [] → length + (text ops).length ≤ limit) :
    operatorRun limit length (ops ++ gap :: more) = ops := by
  obtain ⟨left, whole, stops⟩ := operatorRunStops limit length (ops ++ gap :: more)
  have all : operators (ops ++ gap :: more) = ops := by
    rw [operators, List.takeWhile_append_of_pos (by simpa using areOps),
      List.takeWhile_cons_of_neg (by simpa using ends), List.append_nil]
  generalize operatorRun limit length (ops ++ gap :: more) = run at whole stops
  rw [all] at whole
  suffices none : left = [] by rw [whole, none, List.append_nil]
  by_contra some
  have reached := stops some
  have bound := within (by simp [whole, some])
  have further : 0 < (text left).length :=
    textFilled some fun u member => filled u (by simp [whole, member])
  rw [whole, textAppend, String.length_append] at bound
  omega

theorem findRun (isOp : t.kind = .op) (areOps : ∀ u ∈ ops, u.kind = .op)
    (filled : ∀ u ∈ ops, u.value ≠ "") (active : r.operator? (text (t :: ops)) = some d)
    (within : ops ≠ [] → (text (t :: ops)).length ≤ r.longest)
    (unmarked : ∀ u ∈ t :: ops, u.mark = none) (ahead : c.ahead = ops ++ gap :: more)
    (ends : gap.kind ≠ .op) :
    ∃ nameToken c', r.find t c = (.ok ⟨some ⟨d, nameToken⟩, 0⟩, c') ∧
      nameToken.value = text (t :: ops) ∧ (ops = [] → nameToken = t) ∧
      c'.ahead = gap :: more ∧ c'.failure = c.failure := by
  have run : operatorRun r.longest t.value.length c.ahead = ops := by
    rw [ahead]
    refine runReaches areOps filled ends fun some => ?_
    have bound := within some
    rwa [textCons, String.length_append] at bound
  have found : longestName r (t :: ops) 0 (ops.length + 1) =
      (some (ops.length + 1, text (t :: ops), d), 0) := by
    have all : (t :: ops).take (ops.length + 1) = t :: ops := by simp
    have active : r.ops[text (t :: ops)]?.bind (·.top?) = some d := active
    have free : (t :: ops).any (·.mark == some (text (t :: ops))) = false := by
      rw [List.any_eq_false]
      intro u member
      simp [unmarked u member]
    simp only [longestName, all, active, free]
    rfl
  have filledTable : r.ops.isEmpty = false := by
    by_contra empty
    have none : r.ops = ∅ := by simpa using empty
    simp [operator?, none] at active
  have left : c.ahead.drop ops.length = gap :: more := by simp [ahead]
  obtain ⟨seen, rest, looks, isAhead, failure⟩ :=
    @lookedSucceeds c ops (decide ((text (t :: ops)).length < r.longest)) (.inr (by simp [left]))
  obtain ⟨c', answer, after, still⟩ := chosenAmong ahead (isAhead.trans left) failure found seen
  have ran : r.find t c =
      (.ok (Named.search t (some (ops.length + 1, text (t :: ops), d), 0)), c') := by
    have runs := matchOperatorRuns r t c
    simp only [run, looks] at runs
    rw [← answer, ← runs, find, isOp]
    simp [filledTable]
  refine ⟨_, c', ran, ?_, ?_, after.trans left, still⟩
  · cases ops with
    | nil => simp [text]
    | cons u ops => simp
  · rintro rfl
    rfl

theorem operatorPushed (isOperator : Literal.isName d.name = false) (r : Registry) :
    (r.push d).operator? d.name = some d ∧ d.name.length ≤ (r.push d).longest := by
  constructor
  · simp [operator?, push, setStack, isOperator, Stack.push, Stack.isEmpty, Stack.top?]
  · simp only [push, isOperator, Bool.false_eq_true, if_false]
    exact Nat.le_max_right _ _

end Registry

namespace Definition

open Tokens

/- Operators are in the table of operators: none of them begins like an identifier. -/
theorem operatorsUnnamed {name : String} (finished : (Lexer.lex name).failure = none)
    (filled : name ≠ "") (each : ∀ t ∈ (Lexer.lex name).tokens, t.kind = .op) :
    ∃ t ops, (Lexer.lex name).tokens = t :: ops ∧ Literal.isName name = false := by
  have whole := Lexer.lexedText finished
  have classed : ∀ t ∈ (Lexer.lex name).tokens, t.Classed :=
    Lexer.lexesClassed (Lexer.lexes 1 name.toList)
  cases tokens : (Lexer.lex name).tokens with
  | nil =>
    rw [tokens] at whole
    exact absurd whole.symm filled
  | cons t ops =>
    refine ⟨t, ops, rfl, ?_⟩
    rw [tokens, textCons] at whole
    rw [← whole]
    exact (classed t (by simp [tokens])).op (each t (by simp [tokens])) _

theorem titledFound {d : Definition} (titled : Titled d.name) (r : Registry) :
    ∃ t ops, (Lexer.lex d.name).tokens = t :: ops ∧
      ∀ gap more c, gap.kind ≠ .op → c.ahead = ops ++ gap :: more →
        ∃ nameToken c', (r.push d).find t c = (.ok ⟨some ⟨d, nameToken⟩, 0⟩, c') ∧
          nameToken.value = d.name ∧ c'.ahead = gap :: more ∧ c'.failure = c.failure := by
  cases titled with
  | word isName free =>
    let t := Lexer.lexeme .iden d.name.toList 1
    have value : t.value = d.name := String.ofList_toList
    refine ⟨t, [], by rw [Lexer.lex, Lexer.lexName isName free], fun gap more c _ ahead => ?_⟩
    have found := Registry.matchPushed r value isName rfl
    exact ⟨t, c, congrArg (fun search => (Except.ok search, c)) found, value, ahead, rfl⟩
  | operators finished filled each later =>
    obtain ⟨t, ops, tokens, isOperator⟩ := operatorsUnnamed finished filled each
    refine ⟨t, ops, tokens, fun gap more c ends ahead => ?_⟩
    have lexed : Lexer.Lexes 1 d.name.toList (Lexer.lex d.name) := Lexer.lexes 1 d.name.toList
    have whole := Lexer.lexedText finished
    have full := Lexer.lexesFilled lexed
    have unmarked := Lexer.lexesNew lexed
    rw [tokens] at whole each full unmarked
    obtain ⟨isOp, areOps⟩ := List.forall_mem_cons.mp each
    obtain ⟨active, within⟩ := Registry.operatorPushed isOperator r
    rw [← whole] at active within
    obtain ⟨nameToken, c', found, value, -, left, failure⟩ := Registry.findRun isOp areOps
      (fun u member => (full u (List.mem_cons_of_mem t member)).1) active (fun _ => within)
      (fun u member => (unmarked u member).1) ahead ends
    exact ⟨nameToken, c', found, value.trans whole, left, failure⟩

end Definition

namespace Session

open Definition Tokens

theorem definedInvoked {spec : String} {meaning : Option Meaning} {warn : Bool} {line : Line}
    {s s' : Session} {d : Definition}
    (made : (define spec meaning warn line).run.run s = (.ok d, s')) {gap : String}
    (filled : gap ≠ "") (blank : ∀ c ∈ gap.toList, Text.isBlank c = true) :
    ∃ t ops space, (Lexer.lex (d.name ++ gap)).failure = none ∧
      (Lexer.lex (d.name ++ gap)).tokens = t :: (ops ++ [space]) ∧
      space.kind = .space ∧ space.value = gap ∧
      ∀ c more, c.ahead = ops ++ space :: more →
        ∃ nameToken c', s'.registry.find t c = (.ok ⟨some ⟨d, nameToken⟩, 0⟩, c') ∧
          nameToken.value = d.name ∧ c'.ahead = space :: more ∧ c'.failure = c.failure := by
  rw [defineRuns] at made
  split at made
  · rename_i d' isMade
    cases made
    have titled := makeTitled isMade
    obtain ⟨lexed, tokens⟩ := Lexer.titledSpaced titled filled blank
    obtain ⟨t, ops, named, finds⟩ := titledFound titled s.registry
    rw [named] at tokens
    refine ⟨t, ops, _, lexed, tokens, rfl, String.ofList_toList, fun c more ahead => ?_⟩
    rw [installRegistry]
    exact finds _ more c (by simp [Lexer.lexeme]) ahead
  · cases made

-- A shorter name and a longer one that begin alike are defined as well.
theorem operatorInvokedAmongOthers :
    let text (name : String) : Definition := ⟨name, none, .text [], 0, none⟩
    let op (value : String) : Token := ⟨.op, value, some 1, none, none⟩
    let tab : Token := ⟨.space, "\t", some 1, none, none⟩
    let s : Session := { registry := (({} : Registry).push (text "...")).push (text "...==-==") }
    (Lexer.lex "...==-\t").tokens = [op "...", op "==", op "-", tab] ∧
    ∃ d s' nameToken c', (define " ...==-(a) a" none).run.run s = (.ok d, s') ∧
      s'.registry.find (op "...") (.ofTokens [op "==", op "-", tab]) =
        (.ok ⟨some ⟨d, nameToken⟩, 0⟩, c') ∧
      nameToken.value = "...==-" ∧ c'.ahead = [tab] := by
  intro text op tab s
  have named : ((define " ...==-(a) a" none).run.run s).1.toOption.map (·.name) =
      some "...==-" := by decide +kernel
  have lexed : (Lexer.lex "...==-\t").tokens = [op "...", op "==", op "-", tab] := by
    decide +kernel
  rcases made : (define " ...==-(a) a" none).run.run s with ⟨f | d, s'⟩
  · rw [made] at named
    contradiction
  rw [made] at named
  have isName : d.name = "...==-" := Option.some.inj named
  obtain ⟨t, ops, space, -, tokens, -, -, finds⟩ :=
    definedInvoked made (show "\t" ≠ "" by decide) (eachChar (by decide))
  rw [isName] at tokens finds
  have isGap : "...==-" ++ "\t" = "...==-\t" := by decide
  rw [isGap, lexed] at tokens
  obtain ⟨rfl, isRest⟩ := List.cons.inj tokens
  have split : [op "==", op "-"] ++ [tab] = ops ++ [space] := isRest
  obtain ⟨rfl, last⟩ := List.append_inj' split rfl
  obtain ⟨rfl, -⟩ := List.cons.inj last
  obtain ⟨nameToken, c', found, value, left, -⟩ := finds (.ofTokens [op "==", op "-", tab]) [] rfl
  exact ⟨lexed, d, s', nameToken, c', rfl, found, value, left⟩

end Session

end LuaExpander
