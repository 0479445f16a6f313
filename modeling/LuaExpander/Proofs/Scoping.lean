import LuaExpander.Proofs.Changes
import LuaExpander.Proofs.Stacks
import LuaExpander.Proofs.Waiting
import Mathlib.Data.List.Infix
import Mathlib.Data.List.Induction

/-! Scopes and blocks. A run enters and leaves blocks, defines names, takes definitions back and
defines names until the end of a block, in any order. When a block ends, every name that was
defined directly in it until its end has the definitions back that it had before, and all other
names keep theirs. -/
namespace LuaExpander

inductive Move where
  | enter (t : Token)
  | leave (t : Token)
  | define (spec : String) (meaning : Option Definition.Meaning) (warn : Bool) (line : Line)
  | undefine (name : String)
  | scope (name : String) (meaning : Option Definition.Meaning)

namespace Session

/- A move that fails changes nothing. A block that is left lets its handlers fire. -/
def perform (s : Session) : Move → Session
  | .enter t => s.enterBlock t
  | .leave t =>
    match s.leaveBlock t with
    | .ok (handlers, s) => (Scan.runHandlers t handlers { session := s }).2.session
    | .error _ => s
  | .define spec meaning warn line => ((declare spec meaning warn line).run.run s).2
  | .undefine name => s.undefine name
  | .scope name meaning => ((scope name meaning).run.run s).2

def performAll (s : Session) (moves : List Move) : Session := moves.foldl perform s

theorem performAllSnoc (s : Session) (moves : List Move) (m : Move) :
    s.performAll (moves ++ [m]) = (s.performAll moves).perform m :=
  List.foldl_append.trans rfl

theorem keptAlong {holds : Session → Prop} {s : Session} {moves : List Move} (start : holds s)
    (step : ∀ front m, front ++ [m] <+: moves → holds (s.performAll front) →
      holds ((s.performAll front).perform m)) : holds (s.performAll moves) := by
  induction moves using List.reverseRecOn with
  | nil => exact start
  | append_singleton moves m ih =>
    rw [performAllSnoc]
    refine step moves m (List.prefix_refl _) (ih ?_)
    intro front m' isFront
    exact step front m' (isFront.trans (List.prefix_append moves [m]))

def Scopes (s : Session) (name : String) (m : Move) : Prop :=
  ∃ meaning d s', m = .scope name meaning ∧ (scope name meaning).run.run s = (.ok d, s')

theorem unscopedMove {s : Session} {m : Move} (other : ∀ name meaning, m ≠ .scope name meaning) :
    ∀ name, ¬ s.Scopes name m := by
  rintro name ⟨meaning, d, s', same, -⟩
  exact other name meaning same

/- Only scopes wait in a run, and only for depths that have not been vacated. -/
structure Tame (s : Session) : Prop where
  restores : ∀ depth, ∀ h ∈ s.blocks.waiting depth, ∃ subject height, h = .restore subject height
  vacant : ∀ depth, s.blocks.depth < depth → s.blocks.waiting depth = []

theorem resetTame (s : Session) : s.reset.Tame := by
  constructor
  · intro depth h member
    rw [reset, Blocks.waitingReset] at member
    contradiction
  · intro depth _
    exact Blocks.waitingReset s.blocks depth

def cut : Registry → Handler → Registry
  | r, .restore subject height => r.restore subject height
  | r, .program _ _ => r

theorem runRestores {t : Token} {handlers : List Handler} {f : Frame}
    (restores : ∀ h ∈ handlers, ∃ subject height, h = .restore subject height) :
    (Scan.runHandlers t handlers f).2.session.registry = handlers.foldl cut f.session.registry ∧
      (Scan.runHandlers t handlers f).2.session.blocks = f.session.blocks ∧
      ∃ ts, (Scan.runHandlers t handlers f).1 = .ok ts := by
  induction handlers generalizing f with
  | nil => exact ⟨rfl, rfl, [], rfl⟩
  | cons h hs ih =>
    obtain ⟨subject, height, rfl⟩ := restores h List.mem_cons_self
    obtain ⟨registry, blocks, more, answered⟩ :=
      @ih { f with session := f.session.restore subject height }
        (fun h member => restores h (List.mem_cons_of_mem _ member))
    rw [Scan.runHandlers, Scan.runHandler]
    dsimp only
    rcases ran : Scan.runHandlers t hs { f with session := f.session.restore subject height } with
      ⟨answer, g⟩
    rw [ran] at registry blocks answered
    cases answered
    refine ⟨?_, blocks.trans (restoreBlocks subject height f.session), _, rfl⟩
    rw [List.foldl_cons, cut, ← restoreRegistry]
    exact registry

inductive Moved (s : Session) : Move → Session → Prop where
  | failed {m} (unscoped : ∀ name, ¬ s.Scopes name m)
      (outermost : ∀ t, m = .leave t → s.blocks.depth = 0) : Moved s m s
  | entered {t s'} (registry : s'.registry = s.registry)
      (blocks : s'.blocks = s.blocks.enter) : Moved s (.enter t) s'
  | left {t s'}
      (registry : s'.registry = (s.blocks.waiting s.blocks.depth).reverse.foldl cut s.registry)
      (depth : s.blocks.depth = s'.blocks.depth + 1)
      (waiting : ∀ d, s'.blocks.waiting d = if d = s.blocks.depth then [] else s.blocks.waiting d) :
      Moved s (.leave t) s'
  | defined {spec meaning warn line d s'} (registry : s'.registry = s.registry.push d)
      (blocks : s'.blocks = s.blocks) : Moved s (.define spec meaning warn line) s'
  | undefined {name s'} (registry : s'.registry = s.registry.undefine name)
      (blocks : s'.blocks = s.blocks) : Moved s (.undefine name) s'
  | bound {name meaning d s'} (scopes : s.Scopes name (.scope name meaning))
      (registry : s'.registry = s.registry.push d) (depth : s'.blocks.depth = s.blocks.depth)
      (waiting : ∀ d, s'.blocks.waiting d = if d = s.blocks.depth then
        s.blocks.waiting d ++ [.restore name (s.registry.height name)] else s.blocks.waiting d) :
      Moved s (.scope name meaning) s'

theorem leaveMoved {s : Session} (tame : s.Tame) (t : Token) :
    Moved s (.leave t) (s.perform (.leave t)) := by
  rw [perform]
  cases left : s.leaveBlock t with
  | error e =>
    have outermost := Blocks.leaveFails (leaveBlockFails left)
    exact .failed (unscopedMove (by simp)) (fun _ _ => outermost)
  | ok pair =>
    obtain ⟨handlers, session⟩ := pair
    obtain ⟨inner, same⟩ := leaveBlockSucceeds left
    obtain ⟨depth, rfl, -, waiting⟩ := Blocks.leaveSucceeds inner
    obtain ⟨registry, blocks, -⟩ := @runRestores t _ { session := session } (fun h member =>
      tame.restores s.blocks.depth h (List.mem_reverse.mp member))
    refine .left ?_ ?_ ?_
    · rw [← same]
      exact registry
    · rw [blocks]
      exact depth
    · rw [blocks]
      exact waiting

theorem moved {s : Session} (tame : s.Tame) (m : Move) : Moved s m (s.perform m) := by
  cases m with
  | enter t => exact .entered (enterBlockRegistry t s) (enterBlockBlocks t s)
  | leave t => exact leaveMoved tame t
  | define spec meaning warn line =>
    rw [perform]
    rcases declareCases spec meaning warn line s with refused | same
    · rw [refused]
      exact .failed (unscopedMove (by simp)) (by simp)
    · rw [same]
      rcases ran : (define spec meaning warn line).run.run s with ⟨f | d, s'⟩
      · rw [defineFails ran]
        exact .failed (unscopedMove (by simp)) (by simp)
      · obtain ⟨-, registry, blocks⟩ := defineSucceeds ran
        exact .defined registry blocks
  | undefine name => exact .undefined rfl rfl
  | scope name meaning =>
    rw [perform]
    rcases ran : (scope name meaning).run.run s with ⟨f | d, s'⟩
    · rw [scopeFails ran]
      refine .failed ?_ (by simp)
      rintro other ⟨_, _, _, same, succeeded⟩
      cases same
      rw [ran] at succeeded
      cases succeeded
    · obtain ⟨-, registry, blocks⟩ := scopeSucceeds ran
      obtain ⟨place, here, depth, -, waiting⟩ := Blocks.deferSucceeds blocks
      have current : place = s.blocks.depth := by
        rw [Option.getD_none] at here
        omega
      subst current
      exact .bound ⟨meaning, d, s', rfl, ran⟩ registry depth waiting

theorem movedTame {s s' : Session} {m : Move} (tame : s.Tame) (step : Moved s m s') : s'.Tame := by
  cases step with
  | failed => exact tame
  | entered registry blocks =>
    constructor
    · rw [blocks]
      exact tame.restores
    · rw [blocks]
      intro depth below
      exact tame.vacant depth (Nat.lt_of_succ_lt below)
  | left registry depth waiting =>
    constructor
    · intro d h member
      rw [waiting] at member
      split at member
      · contradiction
      · exact tame.restores d h member
    · intro d below
      rw [waiting]
      split
      · rfl
      · exact tame.vacant d (by omega)
  | defined registry blocks => exact ⟨blocks ▸ tame.restores, blocks ▸ tame.vacant⟩
  | undefined registry blocks => exact ⟨blocks ▸ tame.restores, blocks ▸ tame.vacant⟩
  | bound scopes registry depth waiting =>
    constructor
    · intro d h member
      rw [waiting] at member
      split at member
      · rcases List.mem_append.mp member with old | new
        · exact tame.restores d h old
        · exact ⟨_, _, List.mem_singleton.mp new⟩
      · exact tame.restores d h member
    · intro d below
      rw [depth] at below
      rw [waiting, if_neg (by omega)]
      exact tame.vacant d below

theorem performAllTame {s : Session} (tame : s.Tame) (moves : List Move) :
    (s.performAll moves).Tame :=
  keptAlong tame fun _ m _ still => movedTame still (moved still m)

def StaysIn (opened : Session) (inside : List Move) : Prop :=
  ∀ front, front <+: inside → opened.blocks.depth ≤ (opened.performAll front).blocks.depth

def ScopedIn (opened : Session) (inside : List Move) (name : String) : Prop :=
  ∃ front m, front ++ [m] <+: inside ∧
    (opened.performAll front).blocks.depth = opened.blocks.depth ∧
    (opened.performAll front).Scopes name m

def Elsewhere (name : String) (depth : Nat) (s : Session) : Prop :=
  ∀ height, .restore name height ∉ s.blocks.waiting depth

theorem elsewhereStep {s s' : Session} {m : Move} {name : String} {depth : Nat}
    (step : Moved s m s') (inside : depth ≤ s'.blocks.depth)
    (unscoped : s.blocks.depth = depth → ¬ s.Scopes name m) (before : Elsewhere name depth s) :
    Elsewhere name depth s' := by
  cases step with
  | failed => exact before
  | entered registry blocks =>
    rw [Elsewhere, blocks]
    exact before
  | left registry left waiting =>
    intro height
    rw [waiting, if_neg (by omega)]
    exact before height
  | defined registry blocks =>
    rw [Elsewhere, blocks]
    exact before
  | undefined registry blocks =>
    rw [Elsewhere, blocks]
    exact before
  | bound scopes registry same waiting =>
    intro height
    rw [waiting]
    split
    · rename_i here
      intro member
      rcases List.mem_append.mp member with old | new
      · exact before height old
      · cases List.mem_singleton.mp new
        exact unscoped here.symm scopes
    · exact before height

theorem elsewhereAlong {opened : Session} {inside : List Move} {name : String} (tame : opened.Tame)
    (fresh : opened.blocks.waiting opened.blocks.depth = []) (stays : StaysIn opened inside)
    (unscoped : ¬ ScopedIn opened inside name) :
    Elsewhere name opened.blocks.depth (opened.performAll inside) := by
  refine keptAlong (by simp [Elsewhere, fresh]) ?_
  intro front m isFront before
  refine elsewhereStep (moved (performAllTame tame front) m) ?_ ?_ before
  · rw [← performAllSnoc]
    exact stays _ isFront
  · intro here scopes
    exact unscoped ⟨front, m, isFront, here, scopes⟩

theorem cutElsewhere {name : String} {handlers : List Handler}
    (elsewhere : ∀ height, .restore name height ∉ handlers) (r : Registry) :
    (handlers.foldl cut r).stack? name = r.stack? name := by
  induction handlers generalizing r with
  | nil => rfl
  | cons h hs ih =>
    have later :=
      ih (fun height member => elsewhere height (List.mem_cons_of_mem _ member)) (cut r h)
    rw [List.foldl_cons, later]
    cases h with
    | program => rfl
    | restore subject height =>
      have different : name ≠ subject := by
        rintro rfl
        exact elsewhere height List.mem_cons_self
      exact Registry.stackRestore height r different

theorem elsewhereEnd {s s' : Session} {t : Token} {name : String} (step : Moved s (.leave t) s')
    (elsewhere : Elsewhere name s.blocks.depth s) :
    s'.registry.stack? name = s.registry.stack? name := by
  cases step with
  | failed => rfl
  | left registry _ _ =>
    rw [registry]
    exact cutElsewhere (fun height member => elsewhere height (List.mem_reverse.mp member)) _

/- The handler leaves the name at least so many definitions. -/
def Spares (name : String) (height : Nat) : Handler → Prop
  | .restore subject remaining => subject = name → height ≤ remaining
  | .program _ _ => True

/- What has to hold of a name, from its first scope in the block on, for it to have the definitions
back that it had before. The handlers at the depth of the block fire in reverse: the late ones spare
what is to remain, then the one of the first scope cuts back to it, and the early ones are for other
names. -/
structure Based (name : String) (base : List Definition) (depth : Nat) (s : Session) : Prop where
  under : base <+: s.registry.definitions name
  here : ∃ early late, s.blocks.waiting depth = early ++ .restore name base.length :: late ∧
    (∀ height, .restore name height ∉ early) ∧ ∀ h ∈ late, Spares name base.length h
  deeper : ∀ d, depth < d → ∀ h ∈ s.blocks.waiting d, Spares name base.length h

theorem cutSpares {name : String} {base : List Definition} {handlers : List Handler} {r : Registry}
    (spares : ∀ h ∈ handlers, Spares name base.length h) (before : base <+: r.definitions name) :
    base <+: (handlers.foldl cut r).definitions name := by
  induction handlers generalizing r with
  | nil => exact before
  | cons h hs ih =>
    refine ih (fun h member => spares h (List.mem_cons_of_mem _ member)) ?_
    cases h with
    | program => exact before
    | restore subject remaining =>
      rw [cut, Registry.definitionsRestore]
      split
      · rename_i same
        exact List.prefix_take_iff.mpr ⟨before, spares _ List.mem_cons_self same.symm⟩
      · exact before

theorem basedStart {s s' : Session} {m : Move} {name : String} (tame : s.Tame) (step : Moved s m s')
    (scopes : s.Scopes name m) (elsewhere : Elsewhere name s.blocks.depth s) :
    Based name (s.registry.definitions name) s.blocks.depth s' := by
  obtain ⟨meaning, d, last, rfl, ran⟩ := scopes
  cases step with
  | failed unscoped _ => exact absurd ⟨meaning, d, last, rfl, ran⟩ (unscoped name)
  | bound _ registry depth waiting =>
    constructor
    · rw [registry, Registry.definitionsPush]
      split
      · exact List.prefix_append _ _
      · exact List.prefix_refl _
    · refine ⟨s.blocks.waiting s.blocks.depth, [], ?_, elsewhere, by simp⟩
      rw [waiting, if_pos rfl, Registry.definitionsLength]
    · intro d below h member
      rw [waiting, if_neg (by omega), tame.vacant d below] at member
      contradiction

theorem basedStep {s s' : Session} {m : Move} {name : String} {base : List Definition} {depth : Nat}
    (step : Moved s m s') (inside : depth ≤ s'.blocks.depth)
    (kept : m = .undefine name → base.length ≤ s'.registry.height name)
    (before : Based name base depth s) : Based name base depth s' := by
  obtain ⟨under, ⟨early, late, here, others, above⟩, deeper⟩ := before
  cases step with
  | failed => exact ⟨under, ⟨early, late, here, others, above⟩, deeper⟩
  | entered registry blocks =>
    refine ⟨registry ▸ under, ⟨early, late, ?_, others, above⟩, ?_⟩
    · rw [blocks]
      exact here
    · rw [blocks]
      exact deeper
  | left registry left waiting =>
    refine ⟨?_, ⟨early, late, ?_, others, above⟩, ?_⟩
    · rw [registry]
      refine cutSpares (fun h member => ?_) under
      exact deeper _ (by omega) h (List.mem_reverse.mp member)
    · rw [waiting, if_neg (by omega), here]
    · intro d below h member
      rw [waiting] at member
      split at member
      · contradiction
      · exact deeper d below h member
  | defined registry blocks =>
    refine ⟨?_, ⟨early, late, blocks ▸ here, others, above⟩, blocks ▸ deeper⟩
    rw [registry, Registry.definitionsPush]
    split
    · exact under.trans (List.prefix_append _ _)
    · exact under
  | @undefined gone _ registry blocks =>
    refine ⟨?_, ⟨early, late, blocks ▸ here, others, above⟩, blocks ▸ deeper⟩
    by_cases same : name = gone
    · have high := kept (by rw [same])
      rw [← Registry.definitionsLength] at high
      rw [registry, Registry.definitionsUndefine, if_pos same] at high ⊢
      exact List.prefix_of_prefix_length_le under (List.dropLast_prefix _) high
    · rw [registry, Registry.definitionsUndefine, if_neg same]
      exact under
  | @bound subject _ _ _ scopes registry same waiting =>
    have spared : Spares name base.length (.restore subject (s.registry.height subject)) := by
      rintro rfl
      rw [← Registry.definitionsLength]
      exact under.length_le
    refine ⟨?_, ?_, ?_⟩
    · rw [registry, Registry.definitionsPush]
      split
      · exact under.trans (List.prefix_append _ _)
      · exact under
    · by_cases current : depth = s.blocks.depth
      · refine ⟨early, late ++ [.restore subject (s.registry.height subject)], ?_, others, ?_⟩
        · rw [waiting, if_pos current, here]
          simp
        · intro h member
          rcases List.mem_append.mp member with old | new
          · exact above h old
          · rw [List.mem_singleton.mp new]
            exact spared
      · exact ⟨early, late, by rw [waiting, if_neg current, here], others, above⟩
    · intro d below h member
      rw [waiting] at member
      split at member
      · rcases List.mem_append.mp member with old | new
        · exact deeper d below h old
        · rw [List.mem_singleton.mp new]
          exact spared
      · exact deeper d below h member

theorem basedEnd {s s' : Session} {t : Token} {name : String} {base : List Definition}
    (step : Moved s (.leave t) s') (inner : 0 < s.blocks.depth)
    (before : Based name base s.blocks.depth s) :
    s'.registry.definitions name = base ∧ (base = [] → s'.registry.stack? name = none) := by
  obtain ⟨under, ⟨early, late, here, others, above⟩, -⟩ := before
  cases step with
  | failed _ outermost =>
    have := outermost t rfl
    omega
  | left registry _ _ =>
    -- The late handlers fire, then that of the first scope, then the early ones.
    have spared : base <+: (late.reverse.foldl cut s.registry).definitions name :=
      cutSpares (fun h member => above h (List.mem_reverse.mp member)) under
    have last : s'.registry = early.reverse.foldl cut
        ((late.reverse.foldl cut s.registry).restore name base.length) := by
      rw [registry, here]
      simp [cut]
    have same := cutElsewhere (fun height member => others height (List.mem_reverse.mp member))
      ((late.reverse.foldl cut s.registry).restore name base.length)
    rw [← last] at same
    constructor
    · rw [Registry.definitions, Registry.stack, same]
      change Registry.definitions name _ = base
      rw [Registry.definitionsRestore, if_pos rfl]
      exact (List.prefix_iff_eq_take.mp spared).symm
    · rintro rfl
      rw [same]
      exact Registry.restoreToNone name _

/- A block that has just been entered. -/
structure Fresh (opened : Session) : Prop where
  tame : opened.Tame
  waiting : opened.blocks.waiting opened.blocks.depth = []
  inner : 0 < opened.blocks.depth

theorem enteredFresh {s : Session} (tame : s.Tame) (t : Token) : (s.perform (.enter t)).Fresh := by
  refine ⟨movedTame tame (moved tame (.enter t)), ?_, ?_⟩
  · rw [perform, enterBlockBlocks]
    exact tame.vacant _ (Nat.lt_succ_self _)
  · rw [perform, enterBlockBlocks]
    exact Nat.succ_pos _

theorem basedAlong {opened : Session} {front rest : List Move} {m : Move} {name : String}
    (fresh : opened.Fresh) (stays : StaysIn opened (front ++ m :: rest))
    (here : (opened.performAll front).blocks.depth = opened.blocks.depth)
    (scopes : (opened.performAll front).Scopes name m) (first : ¬ ScopedIn opened front name)
    (kept : ∀ between, between ++ [.undefine name] <+: rest →
      (opened.performAll front).registry.height name ≤
        (opened.performAll (front ++ m :: between ++ [.undefine name])).registry.height name) :
    Based name ((opened.performAll front).registry.definitions name) opened.blocks.depth
      (opened.performAll (front ++ m :: rest)) := by
  have tame := performAllTame fresh.tame front
  have elsewhere := elsewhereAlong fresh.tame fresh.waiting
    (fun f isFront => stays f (isFront.trans (List.prefix_append _ _))) first
  rw [← here] at elsewhere
  have started := basedStart tame (moved tame m) scopes elsewhere
  have later (moves : List Move) : opened.performAll (front ++ m :: moves) =
      ((opened.performAll front).perform m).performAll moves := List.foldl_append
  rw [later]
  refine keptAlong (here ▸ started) ?_
  intro between m' isFront before
  have reached : (((opened.performAll front).perform m).performAll between).perform m' =
      opened.performAll (front ++ m :: between ++ [m']) := by
    rw [performAllSnoc, later]
  have tameHere := performAllTame (movedTame tame (moved tame m)) between
  refine basedStep (moved tameHere m') ?_ ?_ before
  · rw [reached]
    refine stays _ ?_
    rw [List.append_assoc, List.prefix_append_right_inj]
    exact List.cons_prefix_cons.mpr ⟨rfl, isFront⟩
  · rintro rfl
    rw [reached, Registry.definitionsLength]
    exact kept between isFront

theorem scopesEndWithBlock {start opened : Session} {before inside : List Move} {opener : Token}
    (reached : start.reset.performAll (before ++ [.enter opener]) = opened)
    (stays : StaysIn opened inside)
    (returns : (opened.performAll inside).blocks.depth = opened.blocks.depth)
    (closer : Token) (name : String) :
    let closed := opened.performAll (inside ++ [.leave closer])
    (∀ front m rest, inside = front ++ m :: rest →
      (opened.performAll front).blocks.depth = opened.blocks.depth →
      (opened.performAll front).Scopes name m → ¬ ScopedIn opened front name →
      (∀ between, between ++ [.undefine name] <+: rest →
        (opened.performAll front).registry.height name ≤
          (opened.performAll (front ++ m :: between ++ [.undefine name])).registry.height name) →
      closed.registry.stack name = (opened.performAll front).registry.stack name ∧
        ((opened.performAll front).registry.stack? name = none →
          closed.registry.stack? name = none)) ∧
    (¬ ScopedIn opened inside name →
      closed.registry.stack? name = (opened.performAll inside).registry.stack? name) := by
  intro closed
  have fresh : opened.Fresh := by
    rw [← reached, performAllSnoc]
    exact enteredFresh (performAllTame (resetTame start) before) opener
  have closes : Moved (opened.performAll inside) (.leave closer) closed := by
    rw [show closed = _ from performAllSnoc _ _ _]
    exact moved (performAllTame fresh.tame inside) _
  have inner := fresh.inner
  rw [← returns] at inner
  constructor
  · rintro front m rest rfl here scopes first kept
    have based := basedAlong fresh stays here scopes first kept
    rw [← returns] at based
    obtain ⟨same, absent⟩ := basedEnd closes inner based
    exact ⟨Stack.toListInjective same, fun none => absent (Registry.definitionsAbsent none)⟩
  · intro unscoped
    have elsewhere := elsewhereAlong fresh.tame fresh.waiting stays unscoped
    rw [← returns] at elsewhere
    exact elsewhereEnd closes elsewhere

-- Two scopes of one name, with a definition and its removal around the second.
theorem scopesEndWithBlockTwice :
    let word (w : String) : Token := ⟨.keyword, w, some 1, none, none⟩
    let opened := ({} : Session).reset.performAll
      ([.define "X 0" none true (some 1)] ++ [.enter (word "do")])
    let rest : List Move := [.define "X 2" none true (some 2),
      .scope "X" (some (.value (.text "3"))), .undefine "X"]
    let inside := .scope "X" (some (.value (.text "1"))) :: rest
    let closed := opened.performAll (inside ++ [.leave (word "end")])
    (opened.performAll inside).registry.height "X" = 3 ∧ closed.registry.height "X" = 1 ∧
      closed.registry.stack "X" = opened.registry.stack "X" := by
  intro word opened rest inside closed
  have stays : ∀ front ∈ inside.inits, 1 ≤ (opened.performAll front).blocks.depth := by
    decide +kernel
  have high : ∀ between ∈ rest.inits, 1 ≤ (opened.performAll
      (.scope "X" (some (.value (.text "1"))) :: between)).registry.height "X" := by
    decide +kernel
  have succeeds : ((scope "X" (some (.value (.text "1")))).run.run opened).1.isOk = true := by
    decide +kernel
  have scopes : opened.Scopes "X" (.scope "X" (some (.value (.text "1")))) := by
    rcases ran : (scope "X" (some (.value (.text "1")))).run.run opened with ⟨f | d, s'⟩
    · rw [ran] at succeeds
      cases succeeds
    · exact ⟨_, d, s', rfl, ran⟩
  have ends := @scopesEndWithBlock _ opened _ inside _ rfl
    (fun front isFront => stays front ((List.mem_inits front inside).mpr isFront))
    (by decide +kernel) (word "end") "X"
  refine ⟨by decide +kernel, by decide +kernel, ?_⟩
  refine (ends.1 [] _ rest rfl rfl scopes ?_ ?_).1
  · rintro ⟨front, m, isFront, -⟩
    simp at isFront
  · intro between isFront
    exact high _ ((List.mem_inits _ rest).mpr isFront)

end Session

end LuaExpander
