import LuaExpander.Proofs.Enough
import LuaExpander.Proofs.Likeness
import LuaExpander.Proofs.Replacing

/-! Scans follow what becomes of tokens when all definitions are texts but one, which answers its
argument. The scan of an argument and a unit replace names in the same way, and differ only in what
they do with blocks and with the end of the input. -/
namespace LuaExpander

open Tokens

namespace Scan

variable {r : Registry} {own d : Definition} {f : Transformer} {t : Token} {value : List Token}
  {args : List (List Token)} {ts rest : List Token} {s s' : Scan}

theorem calledReads (called : d.Called s.cursor.ahead args rest)
    (failure : s.cursor.failure = none) :
    ∃ taken cursor, (readArguments d t).run.run s = (.ok (args, taken), { s with cursor }) ∧
      cursor.ahead = rest ∧ cursor.failure = none := by
  cases params : d.params with
  | none =>
    cases called with
    | bare object =>
      refine ⟨#[], s.cursor, ?_, rfl, failure⟩
      rw [readArguments, params]
      rfl
    | applied function =>
      rw [params] at function
      contradiction
  | some ps =>
    obtain ⟨r, ran, ahead, still⟩ := @Reader.calledArguments d ps t
      { cursor := s.cursor, origin := some t } args params rest called failure
    refine ⟨r.taken, r.cursor, ?_, ahead, still⟩
    rw [readArguments, params]
    dsimp only
    rw [runBind, runGet]
    dsimp only
    rw [ran]
    rfl

theorem gatheredCalled {taken : Array Token} (gathered : Gathered d t s args taken s') :
    d.Called s.cursor.ahead args s'.cursor.ahead := by
  cases gathered with
  | bare object => exact .bare object
  | applied function read => exact Reader.argumentsCalled function read

/- A scan before and after a name is replaced: then `ahead` is to come, and `fresh` is the next
number. -/
structure Replaced (ahead : List Token) (fresh : Nat) (s s' : Scan) : Prop extends Framed s s' where
  ahead : s'.cursor.ahead = ahead
  failure : s'.cursor.failure = none
  session : Session.Alike { s.session with fresh } s'.session

theorem replacedBy {session : Session} {fresh : Nat} {cursor : Cursor}
    (alike : Session.Alike { s.session with fresh } session) (rests : cursor.ahead = rest)
    (spent : cursor.failure = none) (t : Token) (ts : List Token) :
    Replaced (ts ++ rest) fresh s
      { s with session := session.logReplaced t ts, cursor := cursor.prepend ts } :=
  ⟨⟨rfl, rfl, rfl⟩, by rw [Cursor.aheadPrepend, rests], spent,
    alike.trans (Session.logTextAlike _ _ _ session)⟩

theorem runInvoked (ahead : s.cursor.ahead = t :: ts) (invoked : r.invoked? t = some d) (n : Nat) :
    run (n + 1) s =
      match (plain (argument (run n)) t).run.run { s with cursor := s.cursor.drop 1 } with
      | (.ok (), after) => run n after
      | (.error e, after) => (.error e, after) := by
  rw [run, stepTakes ahead, (Registry.invokedSome invoked).1]
  dsimp only
  rw [runBind]
  rcases (plain (argument (run n)) t).run.run { s with cursor := s.cursor.drop 1 } with
    ⟨e | ⟨⟨⟩⟩, after⟩ <;> rfl

theorem invokedReplaces (registry : s.session.registry = r) (ahead : s.cursor.ahead = t :: ts)
    (invoked : r.invoked? t = some d) {n : Nat} {all : List Token}
    (ran : run (n + 1) s = (.ok all, s')) :
    ∃ us between, Replaces (argument (run n)) d t { s with cursor := s.cursor.drop 1 } us between := by
  rw [runInvoked ahead invoked] at ran
  rcases passed : (plain (argument (run n)) t).run.run { s with cursor := s.cursor.drop 1 } with
    ⟨e | ⟨⟨⟩⟩, after⟩
  · rw [passed] at ran
    cases ran
  · rw [plainRuns (s := { s with cursor := s.cursor.drop 1 }) registry invoked] at passed
    obtain ⟨us, between, became, -⟩ := bindSucceeds passed
    exact ⟨us, between, replacementSucceeds became⟩

theorem textCalled (registry : s.session.registry = r) (ahead : s.cursor.ahead = t :: ts)
    (invoked : r.invoked? t = some d) (body : d.body = .text value) {n : Nat} {all : List Token}
    (ran : run (n + 1) s = (.ok all, s')) : ∃ args rest, d.Called ts args rest := by
  obtain ⟨us, between, replaces⟩ := invokedReplaces registry ahead invoked ran
  cases replaces with
  | call isCall =>
    rw [body] at isCall
    contradiction
  | text isText gathered =>
    have called := gatheredCalled gathered
    rw [show (s.cursor.drop 1).ahead = ts by simp [ahead]] at called
    exact ⟨_, _, called⟩

section

variable (registry : s.session.registry = r) (ahead : s.cursor.ahead = t :: ts)
  (failure : s.cursor.failure = none)
include registry ahead failure

theorem textReplaces (invoked : r.invoked? t = some d) (body : d.body = .text value)
    (new : ∀ u ∈ value, u.serial = none) (called : d.Called ts args rest) :
    ∃ after, Replaced (textReplacement d t (numberEach s.session.fresh 0 args) #[] value ++ rest)
        (s.session.fresh + min args.length 1) s after ∧
      ∀ n, run (n + 1) s = run n after := by
  let taken : Scan := { s with cursor := s.cursor.drop 1 }
  have left : taken.cursor.ahead = ts := by simp [taken, ahead]
  have still : taken.cursor.failure = none := by simpa [taken] using failure
  obtain ⟨front, cursor, read, rests, spent⟩ := @calledReads d t args rest taken (left ▸ called) still
  let copies := numberEach s.session.fresh 0 args
  let counted := { s.session with fresh := s.session.fresh + min args.length 1 }
  have replaces (expand : ArgumentExpander) : (replacement expand d t).run.run taken =
      (.ok (textReplacement d t copies #[] value),
        { s with session := counted.logCall t d copies, cursor }) := by
    unfold replacement
    rw [body]
    dsimp only
    rw [runBind, read]
    dsimp only
    rw [runBind, numberArgumentsRuns]
    dsimp only
    rw [runBind, inSession, runModify]
    dsimp only
    rw [runPure, textReplacementNew new]
    rfl
  refine ⟨_, replacedBy (Session.logCallAlike t d copies counted) rests spent t _, fun n => ?_⟩
  rw [runInvoked ahead invoked, plainInvokes (s := taken) registry invoked (replaces _)]

end

/- The scan of an argument, once the tokens to come have their numbers. -/
def opening (arg : List Token) (s : Scan) : Scan :=
  { session := { s.session with fresh := s.session.fresh + 1 }
    cursor := .ofTokens arg
    nested := true }

theorem callReturns (returns : own.ReturnsArgument f) {more : List Token} (taken : Array Token) :
    (callTransformer own f t [more] taken).run.run s =
      (.ok (more.map (settle taken own.name t.line)), s) := by
  obtain ⟨param, params⟩ := returns.function
  have function : own.isFunction = true := by simp [Definition.isFunction, params]
  rw [callTransformer, runBind, runGet]
  dsimp only
  simp only [function, if_true, returns.returns, Program.run]
  rfl

theorem calledOnce {param : String} (params : own.params = some [param])
    (called : own.Called ts args rest) : ∃ arg, args = [arg] := by
  cases called with
  | bare object =>
    rw [params] at object
    contradiction
  | applied function _ _ _ _ arity =>
    cases params.symm.trans function
    exact List.length_eq_one_iff.mp arity

theorem callOpens (returns : own.ReturnsArgument f) (registry : s.session.registry = r)
    (ahead : s.cursor.ahead = t :: ts) (invoked : r.invoked? t = some own) {n : Nat}
    {all : List Token} (ran : run (n + 1) s = (.ok all, s')) :
    ∃ arg rest front more last, own.Called (numberAt s.session.fresh 0 ts) [arg] rest ∧
      numberAt s.session.fresh 0 ts = front ++ rest ∧
      run n (s.opening arg) = (.ok more, last) := by
  obtain ⟨us, between, replaces⟩ := invokedReplaces registry ahead invoked ran
  cases replaces with
  | text isText =>
    rw [returns.body] at isText
    contradiction
  | call isCall numbers gathered expands called =>
    cases numbers
    have left : ((s.cursor.drop 1).number s.session.fresh).1.ahead =
        numberAt s.session.fresh 0 ts := by simp [ahead]
    obtain ⟨param, params⟩ := returns.function
    have reads := gatheredCalled gathered
    obtain ⟨arg, rfl⟩ := calledOnce params reads
    obtain ⟨front, read, -⟩ := Definition.calledFront reads
    obtain ⟨more, session, _, answered, -⟩ := expandArgumentsSucceeds expands
    obtain ⟨-, unchanged⟩ := gatheredFramed gathered
    rw [unchanged] at answered
    obtain ⟨last, opens, -⟩ := argumentSucceeds answered
    exact ⟨arg, _, front, more, last, left ▸ reads, left ▸ read, opens⟩

section

variable (returns : own.ReturnsArgument f) (registry : s.session.registry = r)
  (ahead : s.cursor.ahead = t :: ts) (failure : s.cursor.failure = none)
  (invoked : r.invoked? t = some own)
include returns registry ahead failure invoked

theorem callReplaces {front arg more : List Token} {last : Scan} {fresh : Nat}
    (called : own.Called (numberAt s.session.fresh 0 ts) [arg] rest)
    (read : numberAt s.session.fresh 0 ts = front ++ rest)
    (alike : Session.Alike { s.session with fresh } last.session) :
    ∃ after, Replaced (more.map (settle front.toArray own.name t.line) ++ rest) fresh s after ∧
      ∀ n, run n (s.opening arg) = (.ok more, last) → run (n + 1) s = run n after := by
  let numbered : Scan :=
    { s with cursor := ((s.cursor.drop 1).number s.session.fresh).1
             session.fresh := s.session.fresh + 1 }
  have left : numbered.cursor.ahead = numberAt s.session.fresh 0 ts := by simp [numbered, ahead]
  have still : numbered.cursor.failure = none := by simpa [numbered] using failure
  obtain ⟨taken, cursor, gathers, rests, spent⟩ :=
    @calledReads own t [arg] rest numbered (left ▸ called) still
  obtain ⟨others, behind, split, -, -, rfl, moved, same, -, gathered⟩ :=
    argumentsRead (readArgumentsSucceeds gathers)
  obtain rfl : cursor = moved := congrArg Scan.cursor gathered
  cases same.symm.trans rests
  cases List.append_cancel_right ((left.symm.trans split).symm.trans read)
  refine ⟨_, replacedBy (alike.trans (Session.logCallAlike t own [more] last.session)) rests spent t _,
    fun n ran => ?_⟩
  have opens : run n { session := numbered.session, cursor := .ofTokens arg, nested := true } =
      (.ok more, last) := ran
  have expanded : (expandArguments (argument (run n)) [arg]).run.run { numbered with cursor } =
      (.ok [more], { numbered with session := last.session, cursor }) := by
    rw [expandArguments, runBind, runGet]
    dsimp only
    rw [argument, opens]
    rfl
  have replaces : (replacement (argument (run n)) own t).run.run
      { s with cursor := s.cursor.drop 1 } =
        (.ok (more.map (settle front.toArray own.name t.line)),
          { s with session := last.session.logCall t own [more], cursor }) := by
    unfold replacement
    rw [returns.body]
    dsimp only
    rw [runBind, show number.run.run { s with cursor := s.cursor.drop 1 } = (.ok (), numbered)
      from rfl]
    dsimp only
    rw [runBind, gathers]
    dsimp only
    rw [runBind, expanded]
    dsimp only
    rw [runBind, inSession, runModify]
    exact callReturns returns front.toArray
  rw [runInvoked ahead invoked,
    plainInvokes (s := { s with cursor := s.cursor.drop 1 }) registry invoked replaces]

end

end Scan

/- Nothing, or the end of the input. -/
def Tokens.Ending (ending : List Token) : Prop :=
  ending = [] ∨ ∃ last, ending = [last] ∧ last.kind = .eof

theorem Tokens.endingUnplaced {ending ending' : List Token} (isEnd : Ending ending)
    (same : unplaced ending' = unplaced ending) : Ending ending' := by
  rcases isEnd with rfl | ⟨last, rfl, kind⟩
  · exact .inl (List.map_eq_nil_iff.mp same)
  · obtain ⟨last', rfl, sameLast⟩ := List.map_eq_singleton_iff.mp same
    exact .inr ⟨last', rfl, (Token.unplacedSame sameLast).1.trans kind⟩

theorem Tokens.numberAtUnplaced (n place : Nat) (ts : List Token) :
    unplaced (numberAt n place ts) = unplaced ts := by
  induction ts generalizing place with
  | nil => rfl
  | cons t ts ih =>
    obtain ⟨serial, same⟩ := Token.numberedSame n place t
    exact congrArg₂ List.cons (by rw [same]; rfl) (ih (place + 1))

theorem Definition.calledEnding {d : Definition} {ahead ending rest : List Token}
    {args : List (List Token)} (isEnd : Ending ending) :
    d.Called (ahead ++ ending) args rest ↔
      ∃ before, rest = before ++ ending ∧ d.Called ahead args before := by
  rcases isEnd with rfl | ⟨last, rfl, kind⟩
  · simp
  · constructor
    · exact calledBefore kind
    · rintro ⟨before, rfl, called⟩
      exact calledAfter kind called

namespace Scan

variable {r : Registry} {own d : Definition} {f : Transformer} {calls : Bool} {t : Token}
  {ts out all ending : List Token} {fresh n : Nat} {s s' : Scan}

structure Inner (r : Registry) (fresh : Nat) (ahead out : List Token) (s : Scan) : Prop where
  registry : s.session.registry = r
  fresh : s.session.fresh = fresh
  ahead : s.cursor.ahead = ahead
  failure : s.cursor.failure = none
  out : s.out.toList = out
  nested : s.nested = true

theorem innerOpening (registry : s.session.registry = r) (arg : List Token) :
    Inner r (s.session.fresh + 1) arg [] (s.opening arg) :=
  ⟨registry, rfl, rfl, rfl, rfl, rfl⟩

theorem innerStill (ops : r.ops.isEmpty = true) (inner : Inner r fresh (t :: ts) out s)
    (solid : t.kind ≠ .eof) (uninvoked : r.invoked? t = none) :
    ∃ s', Inner r fresh ts (out ++ [t]) s' ∧ s.session.Alike s'.session ∧
      ∀ n, run (n + 1) s = run n s' := by
  let taken : Cursor := s.cursor.drop 1
  have left : taken.ahead = ts := by simp [taken, inner.ahead]
  have whole : taken.failure = none := by simpa [taken] using inner.failure
  have pushed : (s.out.push t).toList = out ++ [t] := by rw [Array.toList_push, inner.out]
  by_cases kind : t.kind = .keyword
  · refine ⟨{ s with cursor := taken, out := s.out.push t },
      ⟨inner.registry, inner.fresh, left, whole, pushed, inner.nested⟩, .refl _, fun n => ?_⟩
    rw [run, stepTakes inner.ahead, kind]
    dsimp only
    rw [runBind, keyword, runBind, emit, runModify]
    dsimp only
    rw [runBind, runGet]
    dsimp only
    rw [if_pos inner.nested]
    rfl
  · obtain ⟨held, cursor, found, ahead, failure⟩ := stillPasses ops uninvoked ts taken left whole
    have logged := logHeldAlike t held s.session
    refine ⟨{ s with session := logHeld t held s.session, cursor, out := s.out.push t },
      ⟨?_, (logHeldFresh t held s.session).trans inner.fresh, ahead, failure, pushed,
        inner.nested⟩, logged, fun n => ?_⟩
    · exact (logHeldQuiet t held s.session).registry.trans inner.registry
    · have passes (expand : ArgumentExpander) :
          (plain expand t).run.run { s with cursor := taken } = (.ok (),
            { s with session := logHeld t held s.session, cursor, out := s.out.push t }) := by
        rw [plain, runBind, runGet]
        dsimp only
        rw [inner.registry, found]
        rfl
      have stepped (expand : ArgumentExpander) : (step expand).run.run s = (.ok false,
          { s with session := logHeld t held s.session, cursor, out := s.out.push t }) := by
        rw [stepTakes inner.ahead]
        split
        · contradiction
        · contradiction
        · rw [runBind, passes]
          rfl
      rw [run, stepped]

theorem innerReplaced {ahead ahead' : List Token} {fresh' : Nat} (inner : Inner r fresh ahead out s)
    (replaced : Replaced ahead' fresh' s s') : Inner r fresh' ahead' out s' := by
  obtain ⟨log, same⟩ := replaced.session
  refine ⟨?_, by rw [same], replaced.ahead, replaced.failure, replaced.out ▸ inner.out,
    replaced.nested.trans inner.nested⟩
  rw [same]
  exact inner.registry

theorem innerDone (inner : Inner r fresh [] out s) (n : Nat) : run (n + 1) s = (.ok out, s) := by
  have ends (expand : ArgumentExpander) : (step expand).run.run s = (.ok true, s) := by
    rw [step, runBind, nextEnd inner.ahead inner.failure]
    dsimp only
    rw [runBind, runGet]
    dsimp only
    rw [if_pos inner.nested]
    rfl
  rw [run, ends]
  dsimp only
  rw [inner.out]

theorem alikeFresh {a b c : Session} {fresh : Nat} (first : a.Alike b)
    (second : Session.Alike { b with fresh } c) : Session.Alike { a with fresh } c := by
  obtain ⟨log, rfl⟩ := first
  exact second

theorem replacedAlike {ahead : List Token} {fresh fresh' : Nat} {c : Session}
    (replaced : Replaced ahead fresh s s')
    (later : Session.Alike { s'.session with fresh := fresh' } c) :
    Session.Alike { s.session with fresh := fresh' } c := by
  obtain ⟨log, same⟩ := replaced.session
  rw [same] at later
  exact later

theorem innerExpands (ops : r.ops.isEmpty = true) (returns : own.ReturnsArgument f)
    {fresh' : Nat} {more : List Token} (expands : r.Expands own calls fresh ts fresh' more)
    (inner : Inner r fresh ts out s) :
    ∃ k s', Session.Alike { s.session with fresh := fresh' } s'.session ∧
      ∀ n, run (n + k) s = (.ok (out ++ more), s') := by
  induction expands generalizing out s with
  | done =>
    obtain rfl := inner.fresh
    exact ⟨1, s, .refl _, fun n => by rw [List.append_nil]; exact innerDone inner n⟩
  | still solid uninvoked later ih =>
    obtain ⟨between, after, alike, first⟩ := innerStill ops inner solid uninvoked
    obtain ⟨k, last, quiet, ends⟩ := ih after
    refine ⟨k + 1, last, alikeFresh alike quiet, fun n => ?_⟩
    rw [← Nat.add_assoc, first, ends, List.append_assoc]
    rfl
  | replaced invoked other body new called later ih =>
    obtain rfl := inner.fresh
    obtain ⟨after, replaced, first⟩ :=
      textReplaces inner.registry inner.ahead inner.failure invoked body new called
    obtain ⟨k, last, quiet, ends⟩ := ih (innerReplaced inner replaced)
    refine ⟨k + 1, last, replacedAlike replaced quiet, fun n => ?_⟩
    rw [← Nat.add_assoc, first, ends]
  | @answered _ _ _ _ arg _ _ _ _ _ allowed invoked called read opened later ihOpened ih =>
    obtain rfl := inner.fresh
    obtain ⟨k, last, alike, opens⟩ := ihOpened (innerOpening inner.registry arg)
    obtain ⟨after, replaced, first⟩ :=
      callReplaces returns inner.registry inner.ahead inner.failure invoked called read alike
    obtain ⟨l, final, quiet, ends⟩ := ih (innerReplaced inner replaced)
    refine ⟨l + k + 1, final, replacedAlike replaced quiet, fun n => ?_⟩
    have steps := first (n + l + k) (opens (n + l))
    rw [← Nat.add_assoc, ← Nat.add_assoc, steps, Nat.add_right_comm, ends]

/- All runs of so many steps on arguments are followed. -/
def Followed (r : Registry) (own : Definition) (calls : Bool) (n : Nat) : Prop :=
  ∀ {ts out all : List Token} {fresh : Nat} {s s' : Scan}, Inner r fresh ts out s →
    (∀ t ∈ ts, t.kind ≠ .eof) → (calls = false → ∀ t ∈ ts, t.Avoids own.name) →
    run n s = (.ok all, s') → ∃ more fresh', r.Expands own calls fresh ts fresh' more ∧
      all = out ++ more ∧ Session.Alike { s.session with fresh := fresh' } s'.session

/- What is said of kinds and values holds of all that is brought by texts. -/
theorem broughtKeeps {holds : Token → Prop} {name : String}
    (serials : ∀ {u : Token} serial, holds u → holds { u with serial })
    (created : ∀ {u : Token}, u.Avoids name → holds u) (before : ∀ t ∈ ts, holds t) {u : Token}
    (brought : u.Brought n name ts) : holds u := by
  rcases brought with ⟨v, member, copied⟩ | ⟨-, -, avoids⟩
  · obtain ⟨serial, rfl⟩ := Token.copiedSame copied
    exact serials serial (before v member)
  · exact created avoids

/- A name is replaced on the way to the result `all`, and what comes in its place is scanned next. -/
def Proceeds (r : Registry) (own : Definition) (calls : Bool) (n : Nat) (ts ending all : List Token)
    (s s' : Scan) : Prop :=
  ∃ fresh next ending' after, Replaced (next ++ ending') fresh s after ∧
    unplaced ending' = unplaced ending ∧ run n after = (.ok all, s') ∧
    (∀ u ∈ next, u.kind ≠ .eof) ∧ (calls = false → ∀ u ∈ next, u.Avoids own.name) ∧
    ∀ {fresh' more}, r.Expands own calls fresh next fresh' more →
      r.Expands own calls s.session.fresh ts fresh' more

section

variable (around : r.StaticAround own.name) (isEnd : Ending ending)
  (registry : s.session.registry = r) (ahead : s.cursor.ahead = t :: (ts ++ ending))
  (failure : s.cursor.failure = none) (solid : ∀ u ∈ t :: ts, u.kind ≠ .eof)
  (ran : run (n + 1) s = (.ok all, s'))
include around isEnd registry ahead failure solid ran

theorem answeredProceeds (returns : own.ReturnsArgument f) (allowed : calls = true)
    (followed : Followed r own calls n) (invoked : r.invoked? t = some own) :
    Proceeds r own calls n (t :: ts) ending all s s' := by
  have barred (none : calls = false) {P : Prop} : P := absurd none (by simp [allowed])
  obtain ⟨arg, whole, front, more, last, called, read, opens⟩ :=
    callOpens returns registry ahead invoked ran
  have split := numberAtAppend s.session.fresh 0 ts ending
  generalize given : numberAt s.session.fresh (0 + ts.length) ending = ending' at split
  have sameEnd : unplaced ending' = unplaced ending := given ▸ numberAtUnplaced _ _ ending
  have calledAhead := called
  rw [split] at calledAhead
  obtain ⟨rest, rfl, calledHere⟩ :=
    (Definition.calledEnding (endingUnplaced isEnd sameEnd)).mp calledAhead
  have readHere : numberAt s.session.fresh 0 ts = front ++ rest :=
    List.append_cancel_right (split.symm.trans (read.trans (List.append_assoc ..).symm))
  have solidBrought {u : Token} (brought : u.Brought s.session.fresh own.name (t :: ts)) :
      u.kind ≠ .eof := broughtKeeps (fun _ solid => solid) (fun avoids => avoids.1) solid brought
  have solidArg : ∀ u ∈ arg, u.kind ≠ .eof := fun u inside => by
    have isFront := Registry.calledInFront calledHere readHere u inside
    exact solidBrought (Registry.broughtNumbered u (readHere ▸ List.mem_append_left rest isFront))
  obtain ⟨inner, between, expands, rfl, alike⟩ :=
    followed (innerOpening registry arg) solidArg (fun none => barred none) opens
  obtain ⟨after, replaced, steps⟩ :=
    callReplaces returns registry ahead failure invoked called read alike
  rw [← List.append_assoc] at replaced
  refine ⟨between, _, ending', after, replaced, sameEnd, steps n opens ▸ ran, fun u inside => ?_,
    fun none => barred none, fun later =>
      .answered allowed invoked calledHere readHere expands later⟩
  exact solidBrought (Registry.broughtAnswered calledHere readHere
    (Registry.expandsSource around expands) t.line u inside)

theorem replacedProceeds (invoked : r.invoked? t = some d) (other : t.value ≠ own.name)
    (avoids : calls = false → ∀ u ∈ t :: ts, u.Avoids own.name) :
    Proceeds r own calls n (t :: ts) ending all s s' := by
  obtain ⟨-, -, found⟩ := Registry.invokedSome invoked
  obtain ⟨value, body, texts⟩ := around.texts t.value d found other
  have new := fun u inside => (texts u inside).1
  obtain ⟨args, whole, called⟩ := textCalled registry ahead invoked body ran
  obtain ⟨after, replaced, steps⟩ := textReplaces registry ahead failure invoked body new called
  obtain ⟨rest, rfl, calledHere⟩ := (Definition.calledEnding isEnd).mp called
  rw [← List.append_assoc] at replaced
  have brought := @Registry.broughtReplaced r own s.session.fresh around t d invoked other value
    body ts rest args calledHere
  refine ⟨_, _, ending, after, replaced, rfl, steps n ▸ ran, fun u inside => ?_,
    fun none u inside => ?_, fun later => .replaced invoked other body new calledHere later⟩
  · exact broughtKeeps (fun _ solid => solid) (fun avoids => avoids.1) solid (brought u inside)
  · exact broughtKeeps (fun _ avoids => avoids) id (avoids none) (brought u inside)

theorem invokedProceeds (active : r.active? own.name = some own) (returns : own.ReturnsArgument f)
    (followed : Followed r own calls n) (invoked : r.invoked? t = some d)
    (avoids : calls = false → ∀ u ∈ t :: ts, u.Avoids own.name) :
    Proceeds r own calls n (t :: ts) ending all s s' := by
  by_cases named : t.value = own.name
  · obtain ⟨kind, -, found⟩ := Registry.invokedSome invoked
    rw [named, active] at found
    cases found
    have allowed : calls = true := by
      cases calls with
      | true => rfl
      | false => exact absurd ⟨kind, named⟩ (avoids rfl t List.mem_cons_self).2
    exact answeredProceeds around isEnd registry ahead failure solid ran returns allowed followed
      invoked
  · exact replacedProceeds around isEnd registry ahead failure solid ran invoked named avoids

end

theorem innerFollows (around : r.StaticAround own.name) (active : r.active? own.name = some own)
    (returns : own.ReturnsArgument f) (n : Nat) : Followed r own calls n := by
  induction n with
  | zero =>
    intro ts out all fresh s s' inner solid avoids ran
    cases ran
  | succ n ih =>
    intro ts out all fresh s s' inner solid avoids ran
    obtain rfl := inner.fresh
    cases ts with
    | nil =>
      rw [innerDone inner] at ran
      cases ran
      exact ⟨[], s.session.fresh, .done, by simp, .refl _⟩
    | cons t ts =>
      cases invoked : r.invoked? t with
      | none =>
        obtain ⟨here, later⟩ := List.forall_mem_cons.mp solid
        obtain ⟨between, after, alike, first⟩ := innerStill around.ops inner here invoked
        rw [first] at ran
        obtain ⟨more, fresh', expands, rfl, quiet⟩ :=
          ih after later (fun none => (List.forall_mem_cons.mp (avoids none)).2) ran
        exact ⟨t :: more, fresh', .still here invoked expands, by simp, alikeFresh alike quiet⟩
      | some d =>
        obtain ⟨_, next, ending, after, replaced, sameEnd, ran, solid, avoids, expands⟩ :=
          invokedProceeds around (.inl rfl) inner.registry
            (by rw [inner.ahead, List.append_nil]) inner.failure solid ran active returns ih invoked
            avoids
        obtain rfl : ending = [] := List.map_eq_nil_iff.mp sameEnd
        rw [List.append_nil] at replaced
        obtain ⟨more, fresh', later, same, quiet⟩ :=
          ih (innerReplaced inner replaced) solid avoids ran
        exact ⟨more, fresh', expands later, same, replacedAlike replaced quiet⟩

/-! Units -/

/- The end is met, and all blocks are closed then. -/
theorem unitEndsHere {last : Token} (isEnd : last.kind = .eof) (ready : Ready r [last] out s)
    (ran : run n s = (.ok all, s')) : all = out ++ [last] ∧ Balanced out := by
  have more (k : Nat) : run (n + k) s = (.ok all, s') := by
    rw [runEnough (by simp [ran]) (Nat.le_add_right n k), ran]
  by_cases outside : level out = 0
  · obtain ⟨final, -, returns⟩ := endReturns ready isEnd (.inr rfl) outside
    cases (more 2).symm.trans (returns n)
    exact ⟨rfl, ready.below, outside⟩
  · obtain ⟨k, e, final, -, -, -, fails⟩ := endUnbalances ready isEnd (.inr rfl) outside
    cases (more k).symm.trans (fails n)

theorem readyReplaced {ahead ahead' : List Token} {fresh : Nat} (ready : Ready r ahead out s)
    (replaced : Replaced ahead' fresh s s') :
    Ready r ahead' out s' ∧ s'.session.fresh = fresh := by
  obtain ⟨log, same⟩ := replaced.session
  refine ⟨?_, by rw [same]⟩
  exact {
    registry := by rw [same]; exact ready.registry
    words := by rw [same]; exact ready.words
    waiting := by rw [same]; exact ready.waiting
    depth := by rw [same]; exact ready.depth
    below := ready.below
    ahead := replaced.ahead
    failure := replaced.failure
    out := replaced.out ▸ ready.out
    unit := replaced.nested.trans ready.unit
    finishing := replaced.finishing.trans ready.finishing }

theorem unitFollows (around : r.StaticAround own.name) (active : r.active? own.name = some own)
    (returns : own.ReturnsArgument f) {last : Token} (isEnd : last.kind = .eof)
    (ready : Ready r (ts ++ [last]) out s) (solid : ∀ t ∈ ts, t.kind ≠ .eof)
    (avoids : calls = false → ∀ t ∈ ts, t.Avoids own.name) (ran : run n s = (.ok all, s')) :
    ∃ more fresh' last', r.Expands own calls s.session.fresh ts fresh' more ∧
      last'.unplaced = last.unplaced ∧ all = out ++ more ++ [last'] ∧ Balanced (out ++ more) := by
  induction n generalizing ts out s last with
  | zero => cases ran
  | succ n ih =>
    cases ts with
    | nil =>
      obtain ⟨rfl, balanced⟩ := unitEndsHere isEnd ready ran
      exact ⟨[], s.session.fresh, last, .done, rfl, by simp, by simpa using balanced⟩
    | cons t ts =>
      cases invoked : r.invoked? t with
      | none =>
        obtain ⟨here, later⟩ := List.forall_mem_cons.mp solid
        obtain ⟨answer, given, stepped⟩ :=
          passRuns ready (stillPasses around.ops invoked (ts ++ [last])) here
        rw [run, stepped] at ran
        cases given with
        | breaks => cases ran
        | goes after still =>
          obtain ⟨more, fresh', last', expands, same, rfl, balanced⟩ := ih isEnd after later
            (fun none => (List.forall_mem_cons.mp (avoids none)).2) ran
          rw [still] at expands
          exact ⟨t :: more, fresh', last', .still here invoked expands, same, by simp,
            by simpa using balanced⟩
      | some d =>
        obtain ⟨_, next, ending, after, replaced, sameEnd, ran, solid, avoids, expands⟩ :=
          invokedProceeds around (.inr ⟨last, rfl, isEnd⟩) ready.registry ready.ahead
            ready.failure solid ran active returns (innerFollows around active returns n) invoked
            avoids
        obtain ⟨last', rfl, sameLast⟩ := List.map_eq_singleton_iff.mp sameEnd
        obtain ⟨readyAfter, rfl⟩ := readyReplaced ready replaced
        obtain ⟨more, fresh', final, later, same, whole, balanced⟩ :=
          ih ((Token.unplacedSame sameLast).1.trans isEnd) readyAfter solid avoids ran
        exact ⟨more, fresh', final, expands later, same.trans sameLast, whole, balanced⟩

theorem unitExpands (ops : r.ops.isEmpty = true) (returns : own.ReturnsArgument f) {fresh' : Nat}
    {more : List Token} (expands : r.Expands own calls fresh ts fresh' more) {last : Token}
    (isEnd : last.kind = .eof) (ready : Ready r (ts ++ [last]) out s)
    (begins : s.session.fresh = fresh) (balanced : Balanced (out ++ more)) :
    ∃ k last' s', last'.unplaced = last.unplaced ∧
      ∀ n, run (n + k) s = (.ok (out ++ more ++ [last']), s') := by
  induction expands generalizing out s last with
  | done =>
    rw [List.append_nil] at balanced
    obtain ⟨final, -, ends⟩ := endReturns ready isEnd (.inr rfl) balanced.2
    refine ⟨2, last, final, rfl, fun n => ?_⟩
    rw [List.append_nil, ends]
  | @still _ t rest _ more solid uninvoked later ih =>
    obtain ⟨answer, given, stepped⟩ :=
      passRuns ready (stillPasses ops uninvoked (rest ++ [last])) solid
    rw [← List.singleton_append, ← List.append_assoc] at balanced
    cases given with
    | breaks unopened =>
      exact absurd balanced (unopenedUnbalanced (unopenedAppend unopened more))
    | goes after unused =>
      obtain ⟨k, last', final, same, ends⟩ := ih isEnd after (unused.trans begins) balanced
      refine ⟨k + 1, last', final, same, fun n => ?_⟩
      rw [← Nat.add_assoc, run, stepped]
      dsimp only
      rw [ends]
      simp
  | replaced invoked other body new called later ih =>
    subst begins
    obtain ⟨after, replaced, first⟩ := textReplaces ready.registry ready.ahead ready.failure invoked
      body new ((Definition.calledEnding (.inr ⟨last, rfl, isEnd⟩)).mpr ⟨_, rfl, called⟩)
    rw [← List.append_assoc] at replaced
    obtain ⟨readyAfter, same⟩ := readyReplaced ready replaced
    obtain ⟨k, last', final, sameLast, ends⟩ := ih isEnd readyAfter same balanced
    refine ⟨k + 1, last', final, sameLast, fun n => ?_⟩
    rw [← Nat.add_assoc, first, ends]
  | @answered _ t ahead _ arg rest _ _ _ _ allowed invoked called read opened later _ ih =>
    subst begins
    have split := numberAtAppend s.session.fresh 0 ahead [last]
    generalize given : numberAt s.session.fresh (0 + ahead.length) [last] = ending at split
    have sameEnd : unplaced ending = unplaced [last] := given ▸ numberAtUnplaced _ _ [last]
    obtain ⟨last', rfl, sameLast⟩ := List.map_eq_singleton_iff.mp sameEnd
    have isEnd' : last'.kind = .eof := (Token.unplacedSame sameLast).1.trans isEnd
    obtain ⟨k, inner, alike, opens⟩ := innerExpands ops returns opened
      (innerOpening ready.registry arg)
    have whole := (Definition.calledEnding (.inr ⟨last', rfl, isEnd'⟩)).mpr ⟨_, rfl, called⟩
    have wholeRead := split.trans ((congrArg (· ++ [last']) read).trans (List.append_assoc ..))
    obtain ⟨after, replaced, first⟩ := callReplaces returns ready.registry ready.ahead ready.failure
      invoked (split ▸ whole) wholeRead alike
    rw [← List.append_assoc] at replaced
    obtain ⟨readyAfter, same⟩ := readyReplaced ready replaced
    obtain ⟨l, final, last, sameFinal, ends⟩ := ih isEnd' readyAfter same balanced
    refine ⟨l + k + 1, final, last, sameFinal.trans sameLast, fun n => ?_⟩
    have steps := first (n + l + k) (opens (n + l))
    rw [← Nat.add_assoc, ← Nat.add_assoc, steps, Nat.add_right_comm, ends]

end Scan

end LuaExpander
