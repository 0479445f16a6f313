import LuaExpander.Proofs.Following
import LuaExpander.Proofs.Lexing

/-! Calls of a transformer that answers its argument. The argument is expanded before the call. Of
what comes out, the tokens that were read from the input stay as they are; all others are marked
anew, and the scan goes over them once more. -/
namespace LuaExpander

open Tokens

theorem Tokens.unplacedAppend {ts us vs : List Token} (same : unplaced ts = unplaced (us ++ vs)) :
    ∃ us' vs', ts = us' ++ vs' ∧ unplaced us' = unplaced us ∧ unplaced vs' = unplaced vs := by
  rw [unplaced, unplaced, List.map_append, List.map_eq_append_iff] at same
  exact same

theorem Tokens.unplacedOne {ts : List Token} {t : Token} (same : unplaced ts = unplaced [t]) :
    ∃ u, ts = [u] ∧ u.unplaced = t.unplaced :=
  List.map_eq_singleton_iff.mp same

theorem Tokens.textMap {f : Token → Token} (same : ∀ t, (f t).value = t.value)
    (ts : List Token) : text (ts.map f) = text ts := by
  simp [text, Function.comp_def, same]

theorem Tokens.unplacedText {ts us : List Token} (same : unplaced ts = unplaced us) :
    text ts = text us := by
  have kept (t : Token) : t.unplaced.value = t.value := rfl
  rw [← textMap kept, ← textMap kept us]
  exact congrArg text same

theorem Tokens.balancedMap {f : Token → Token} (outward : Outward f) (ts : List Token) :
    Balanced (ts.map f) ↔ Balanced ts := by
  have opens : Token.opensBlock ∘ f = Token.opensBlock := by
    funext t
    simp [Token.opensBlock, outward t]
  have closes : Token.closesBlock ∘ f = Token.closesBlock := by
    funext t
    simp [Token.closesBlock, outward t]
  have levels (ts : List Token) : level (ts.map f) = level ts := by
    rw [level, level, List.countP_map, List.countP_map, opens, closes]
  have below : NeverBelow (ts.map f) ↔ NeverBelow ts := by
    constructor
    · intro below front isFront
      rw [← levels]
      exact below _ (isFront.map f)
    · intro below front isFront
      obtain ⟨n, rfl⟩ : ∃ n, front = (ts.map f).take n := ⟨_, List.prefix_iff_eq_take.mp isFront⟩
      rw [← List.map_take, levels]
      exact below _ (List.take_prefix n ts)
  rw [Balanced, Balanced, levels, below]

theorem Tokens.balancedUnplaced {ts us : List Token} (same : unplaced ts = unplaced us) :
    Balanced ts ↔ Balanced us := by
  have kept : Outward Token.unplaced := fun _ => ⟨rfl, rfl⟩
  rw [← balancedMap kept, ← balancedMap kept us]
  exact iff_of_eq (congrArg Balanced same)

/- A token that a replacement has brought, marked by another one. -/
def Token.remarked (name : String) (t : Token) : Token :=
  if t.mark = none then t else { t with mark := some name }

theorem Token.remarkedSame (name : String) : Outward (remarked name) := by
  intro t
  unfold remarked
  split <;> exact ⟨rfl, rfl⟩

theorem Tokens.remarkedUnplaced {ts us : List Token} (same : unplaced ts = unplaced us)
    (name : String) :
    unplaced (ts.map (·.remarked name)) = unplaced (us.map (·.remarked name)) := by
  have swap (t : Token) : (t.remarked name).unplaced = t.unplaced.remarked name := by
    unfold Token.remarked
    split
    · rename_i none
      exact (if_pos none).symm
    · rename_i marked
      exact (if_neg marked).symm
  have swapped (ts : List Token) :
      unplaced (ts.map (·.remarked name)) = (unplaced ts).map (·.remarked name) := by
    simp [unplaced, swap]
  rw [swapped, swapped, same]

namespace Registry

variable {r : Registry} {own : Definition} {calls : Bool} {n n' : Nat} {ts out : List Token}

theorem expandsUninvoked (expands : r.Expands own calls n ts n' out) :
    ∀ u ∈ out, u.kind ≠ .eof ∧ r.invoked? u = none := by
  induction expands with
  | done => simp
  | still solid uninvoked _ ih => exact List.forall_mem_cons.mpr ⟨⟨solid, uninvoked⟩, ih⟩
  | replaced _ _ _ _ _ _ ih => exact ih
  | answered _ _ _ _ _ _ _ ih => exact ih

theorem expandsStill (n : Nat) (still : ∀ t ∈ ts, t.kind ≠ .eof ∧ r.invoked? t = none) :
    r.Expands own calls n ts n ts := by
  induction ts with
  | nil => exact .done
  | cons t ts ih =>
    obtain ⟨⟨solid, uninvoked⟩, later⟩ := List.forall_mem_cons.mp still
    exact .still solid uninvoked (ih later)

/- The name is replaced wherever it stands without a mark. -/
theorem expandsAvoids (around : r.StaticAround own.name) (active : r.active? own.name = some own)
    (expands : r.Expands own calls n ts n' out) (unmarked : ∀ t ∈ ts, t.mark = none) :
    ∀ u ∈ out, u.Avoids own.name := by
  intro u inside
  obtain ⟨solid, uninvoked⟩ := expandsUninvoked expands u inside
  rcases expandsSource around expands u inside with ⟨t, member, copied⟩ | ⟨-, -, avoids⟩
  · refine ⟨solid, fun named => ?_⟩
    obtain ⟨serial, same⟩ := Token.copiedSame copied
    have mark : u.mark = none := by rw [same]; exact unmarked t member
    rw [invoked?, if_pos ⟨named.1, by simp [mark]⟩, named.2, active] at uninvoked
    contradiction
  · exact avoids

/- What was read stays as it is, and all else is marked by the call. -/
theorem settledRemarked (around : r.StaticAround own.name) {ahead front rest arg more : List Token}
    {between : Nat} (called : own.Called (numberAt n 0 ahead) [arg] rest)
    (read : numberAt n 0 ahead = front ++ rest) (known : ∀ u ∈ ahead, u.Known n)
    (inner : r.Expands own calls (n + 1) arg between more) (unmarked : ∀ u ∈ arg, u.mark = none)
    (line : Line) :
    unplaced (more.map (Scan.settle front.toArray own.name line)) =
      unplaced (more.map (·.remarked own.name)) := by
  rw [unplaced, unplaced, List.map_map, List.map_map]
  refine List.map_congr_left fun u inside => ?_
  simp only [Function.comp_apply, settleOlder around called read known inner line u inside]
  rcases expandsSource around inner u inside with ⟨a, isArg, copied⟩ | ⟨newer, marked, -⟩
  · have isRead : a ∈ numberAt n 0 ahead :=
      read ▸ List.mem_append_left rest (calledInFront called read a isArg)
    obtain rfl := Token.copiedGiven (numberAtNumbers a isRead) copied
    rw [if_pos (Token.olderKnown (numberAtNumbers u isRead) (knownNumberAt known u isRead)),
      Token.remarked, if_pos (unmarked u isArg)]
  · rw [if_neg (by simp [Token.newerNotOlder newer]), Token.remarked, if_neg marked]
    rfl

end Registry

theorem Scan.callScans {r : Registry} {own : Definition} {f : Transformer}
    (around : r.StaticAround own.name) (returns : own.ReturnsArgument f) {t : Token}
    {ahead out : List Token} {s : Scan} (ready : Ready r (t :: ahead) out s)
    (known : ∀ u ∈ ahead, u.Known s.session.fresh) (invoked : r.invoked? t = some own)
    {arg rest : List Token} (called : own.Called ahead [arg] rest)
    (unmarked : ∀ u ∈ arg, u.mark = none) {alone more : List Token} {n n' : Nat}
    (same : unplaced alone = unplaced arg) (knownAlone : ∀ u ∈ alone, u.Known n)
    (expands : r.Expands own true n alone n' more) :
    ∃ k ts rest' s', unplaced ts = unplaced (more.map (·.remarked own.name)) ∧
      unplaced rest' = unplaced rest ∧ Ready r (ts ++ rest') out s' ∧
      ∀ n, run (n + k + 1) s = run (n + k) s' := by
  have outward : Outward Token.unplaced := fun _ => ⟨rfl, rfl⟩
  obtain ⟨args', rest', called', sameArgs, sameRest⟩ :=
    Definition.calledAlike outward outward (numberAtUnplaced s.session.fresh 0 ahead) called
  obtain ⟨arg', rfl, sameArg⟩ := List.map_eq_singleton_iff.mp sameArgs
  obtain ⟨front, read, -⟩ := Definition.calledFront called'
  obtain ⟨between, more', inner, sameMore⟩ := Registry.expandsAlike around expands
    (Token.datedNone.mpr (Eq.trans sameArg same.symm)) (by simp) (by simp)
    fun _ => ⟨knownAlone, Registry.knownArgument called' read known⟩
  have unmarked' : ∀ u ∈ arg', u.mark = none := by
    intro u inside
    obtain ⟨v, isArg, same⟩ := unplacedMember sameArg inside
    exact (Token.unplacedSame same).2.2 ▸ unmarked v isArg
  obtain ⟨k, last, alike, opens⟩ :=
    innerExpands around.ops returns inner (innerOpening ready.registry arg')
  obtain ⟨after, replaced, first⟩ :=
    callReplaces returns ready.registry ready.ahead ready.failure invoked called' read alike
  refine ⟨k, _, rest', after, ?_, sameRest, (readyReplaced ready replaced).1,
    fun n => first (n + k) (opens n)⟩
  rw [List.nil_append, Registry.settledRemarked around called' read known inner unmarked',
    remarkedUnplaced (Token.datedNone.mp sameMore)]

/- A call with one argument, up to the end of the input. -/
inductive Definition.CallOf (d : Definition) (arg : List Token) (last : Token) :
    List Token → Prop where
  | intro {name opener closer}
      (isName : name.kind = .iden ∧ name.value = d.name ∧ name.mark = none)
      (opens : opener.kind = .op ∧ opener.value = "(")
      (closes : closer.kind = .op ∧ closer.value = ")") :
      CallOf d arg last (name :: opener :: (arg ++ [closer, last]))

namespace Session

/- The tokens of a source, apart from their places. No token has a number that is still to be
given. -/
structure Reads (s : Session) (source : Source) (ts : List Token) : Prop where
  unnumbered : source.Unnumbered
  failure : source.cursor.failure = none
  ahead : unplaced source.cursor.ahead = unplaced ts
  known : ∀ u ∈ source.cursor.ahead, u.Known s.fresh

theorem readsText {text : String} {ts : List Token} (finished : (Lexer.lex text).failure = none)
    (same : unplaced (Lexer.lex text).stream = unplaced ts) (s : Session) :
    s.Reads (.text text) ts where
  unnumbered number := by simp [Source.name?]
  failure := finished
  ahead := same
  known u member := by simp [Token.Known, Lexer.streamNew text u member]

/- With enough steps the source gives the text. -/
def Gives (s : Session) (source : Source) (unitName : Option String) (result : String) : Prop :=
  ∃ enough, ∀ steps, enough ≤ steps →
    ∃ ts, (s.expandUnit steps source unitName).1 = .ok ts ∧ text ts = result

section Units

variable {s : Session} (silent : ∀ word, s.blocks.handlersFor word = []) {d : Definition}
  {t : Transformer} {arg more : List Token} {last : Token} {unitName : Option String}

include silent in
theorem unitBegins {source : Source} (failure : source.cursor.failure = none)
    (unitName : Option String) :
    ∃ start, Scan.Ready s.registry source.cursor.ahead [] start ∧ start.session.fresh = s.fresh ∧
      ∀ steps, Scan.unit steps (s.unitStart source unitName) = Scan.run steps start := by
  obtain ⟨start, ready, same, begun⟩ := Scan.beginRuns (Scan.startReady silent failure unitName)
  refine ⟨start, ready, ?_, fun steps => ?_⟩
  · rw [same]
    exact logTextFresh _ _ _ _
  · rw [Scan.unit, begun]

variable (returns : d.ReturnsArgument t) (active : s.registry.active? d.name = some d)
  (around : s.registry.StaticAround d.name)

include silent returns active around in
theorem unitComesTo (calls : Bool) {source : Source} (failure : source.cursor.failure = none)
    (ahead : source.cursor.ahead = arg ++ [last]) (isEnd : last.kind = .eof)
    (solid : ∀ u ∈ arg, u.kind ≠ .eof) (avoids : calls = false → ∀ u ∈ arg, u.Avoids d.name)
    {steps : Nat} {out : List Token} (ran : (s.expandUnit steps source unitName).1 = .ok out) :
    ∃ more fresh last', s.registry.Expands d calls s.fresh arg fresh more ∧ Balanced more ∧
      last'.unplaced = last.unplaced ∧ out = more ++ [last'] := by
  obtain ⟨start, ready, fresh, begun⟩ := unitBegins silent failure unitName
  rcases unit : s.expandUnit steps source unitName with ⟨answer, after⟩
  rw [unit] at ran
  obtain rfl : answer = .ok out := ran
  obtain ⟨final, whole, -⟩ := expandUnitSucceeds unit
  rw [begun] at whole
  rw [ahead] at ready
  obtain ⟨more, fresh', last', expands, same, rfl, balanced⟩ :=
    Scan.unitFollows around active returns isEnd ready solid avoids whole
  rw [fresh] at expands
  exact ⟨more, fresh', last', expands, balanced, same, rfl⟩

include silent returns active around in
theorem callGives {call : List Token} (isCall : d.CallOf arg last call) (isEnd : last.kind = .eof)
    (bracketed : Bracketed false arg) {source : Source} (reads : s.Reads source call)
    (unmarked : ∀ u ∈ arg, u.mark = none) {alone : List Token}
    (same : unplaced alone = unplaced (strip arg)) (known : ∀ u ∈ alone, u.Known s.fresh)
    {fresh : Nat} (expands : s.registry.Expands d true s.fresh alone fresh more)
    {n n' : Nat} {final : List Token}
    (again : s.registry.Expands d false n (more.map (·.remarked d.name)) n' final)
    (balanced : Balanced final) : s.Gives source unitName (text (final ++ [last])) := by
  obtain ⟨param, params⟩ := returns.function
  obtain ⟨start, ready, fresh, begun⟩ := unitBegins silent reads.failure unitName
  obtain @⟨name, opener, closer, ⟨kind, value, unmarkedName⟩, opens, closes⟩ := isCall
  obtain ⟨name', later, split, sameName, sameLater⟩ := List.map_eq_cons_iff.mp reads.ahead
  rw [split] at ready
  have invoked : s.registry.invoked? name' = some d := by
    rw [Registry.invokedUnplaced sameName, Registry.invoked?, if_pos (by simp [kind, unmarkedName]),
      value, active]
  have outward : Outward Token.unplaced := fun _ => ⟨rfl, rfl⟩
  obtain ⟨args', rest', called, sameArgs, sameRest⟩ := Definition.calledAlike outward outward
    sameLater (Definition.bracketedCalled params opens closes bracketed [last])
  obtain ⟨arg', rfl, sameArg⟩ := List.map_eq_singleton_iff.mp sameArgs
  have unmarked' : ∀ u ∈ arg', u.mark = none := by
    intro u inside
    obtain ⟨v, isArg, same⟩ := unplacedMember sameArg inside
    exact (Token.unplacedSame same).2.2 ▸ unmarked v (Reader.strippedMember isArg)
  have knownLater : ∀ u ∈ later, u.Known start.session.fresh := fun u inside =>
    fresh ▸ reads.known u (split ▸ List.mem_cons_of_mem name' inside)
  obtain ⟨k, ts, rest, between, sameText, sameBack, readyBetween, first⟩ := Scan.callScans around
    returns ready knownLater invoked called unmarked' (same.trans sameArg.symm) known expands
  obtain ⟨last', rfl, sameLast⟩ := unplacedOne (sameBack.trans sameRest)
  obtain ⟨_, final', again', sameFinal⟩ := @Registry.expandsAlike s.registry d false n n'
    between.session.fresh _ ts final [] [] around again (Token.datedNone.mpr sameText) (by simp)
    (by simp) (fun impossible => by contradiction)
  have sameFinal := Token.datedNone.mp sameFinal
  obtain ⟨l, last'', after, sameEnd, second⟩ := Scan.unitExpands around.ops returns again'
    ((Token.unplacedSame sameLast).1.trans isEnd) readyBetween rfl
    ((balancedUnplaced sameFinal).mpr balanced)
  refine ⟨l + k + 1, fun steps many => ⟨final' ++ [last''], ?_, ?_⟩⟩
  · obtain ⟨n, rfl⟩ := Nat.exists_eq_add_of_le' many
    have ran : Scan.run (n + (l + k + 1)) start = (.ok (final' ++ [last'']), after) := by
      rw [← Nat.add_assoc, ← Nat.add_assoc, first, Nat.add_right_comm, second]
      rfl
    exact (expandUnitReturns (admitsUnnumbered reads.unnumbered unitName s) ((begun _).trans ran)).1
  · refine unplacedText ?_
    unfold unplaced at sameFinal ⊢
    simp [sameFinal, sameEnd, sameLast]

end Units

section Calls

variable {s : Session} {d : Definition} {t : Transformer} {arg call : List Token} {last : Token}
  {whole alone : Source} {unitName : Option String} {steps : Nat} {out : List Token}
  (silent : ∀ word, s.blocks.handlersFor word = []) (returns : d.ReturnsArgument t)
  (active : s.registry.active? d.name = some d) (around : s.registry.StaticAround d.name)
  (bracketed : Bracketed false arg) (unmarked : ∀ u ∈ arg, u.mark = none)
  (isEnd : last.kind = .eof) (readsArgument : s.Reads alone (strip arg ++ [last]))
  (expanded : (s.expandUnit steps alone unitName).1 = .ok out)

include silent returns active around bracketed unmarked isEnd readsArgument expanded

/- What the argument comes to alone. -/
theorem aloneComesTo :
    ∃ ts more fresh last', unplaced ts = unplaced (strip arg) ∧ (∀ u ∈ ts, u.Known s.fresh) ∧
      s.registry.Expands d true s.fresh ts fresh more ∧ (∀ u ∈ more, u.Avoids d.name) ∧
      Balanced more ∧ last'.unplaced = last.unplaced ∧ out = more ++ [last'] := by
  obtain ⟨ts, back, split, same, sameBack⟩ := unplacedAppend readsArgument.ahead
  obtain ⟨end', rfl, sameEnd⟩ := unplacedOne sameBack
  have origin (u : Token) (inside : u ∈ ts) : u.kind ≠ .eof ∧ u.mark = none := by
    obtain ⟨v, isArg, sameToken⟩ := unplacedMember same inside
    obtain ⟨kind, -, mark⟩ := Token.unplacedSame sameToken
    have member := Reader.strippedMember isArg
    exact ⟨kind ▸ bracketedSolid bracketed v member, mark ▸ unmarked v member⟩
  obtain ⟨more, fresh, last', expands, balanced, sameLast, rfl⟩ := unitComesTo silent returns active
    around true readsArgument.failure split ((Token.unplacedSame sameEnd).1.trans isEnd)
    (fun u inside => (origin u inside).1) (fun impossible => by contradiction) expanded
  refine ⟨ts, more, fresh, last', same, fun u inside => ?_, expands, ?_, balanced,
    sameLast.trans sameEnd, rfl⟩
  · exact readsArgument.known u (split ▸ List.mem_append_left [end'] inside)
  · exact Registry.expandsAvoids around active expands fun u inside => (origin u inside).2

variable (isCall : d.CallOf arg last call) (readsCall : s.Reads whole call)
include isCall readsCall

theorem callGivesAgain {more : Nat} {out' : List Token}
    (ran : (s.expandUnit more (.tokens (out.map (·.remarked d.name))) unitName).1 = .ok out') :
    s.Gives whole unitName (text out') := by
  obtain ⟨ts, first, fresh, last', same, known, expands, avoids, -, sameLast, rfl⟩ :=
    aloneComesTo silent returns active around bracketed unmarked isEnd readsArgument expanded
  have outward := Token.remarkedSame d.name
  have avoidsAgain : ∀ u ∈ first.map (·.remarked d.name), u.Avoids d.name := by
    intro u member
    obtain ⟨v, inside, rfl⟩ := List.mem_map.mp member
    rw [Token.Avoids, (outward v).1, (outward v).2]
    exact avoids v inside
  have ahead : (Source.tokens ((first ++ [last']).map (·.remarked d.name))).cursor.ahead =
      first.map (·.remarked d.name) ++ [last'.remarked d.name] := by
    simp [Source.cursor]
  have isEnd' : (last'.remarked d.name).kind = .eof :=
    (outward last').1.trans ((Token.unplacedSame sameLast).1.trans isEnd)
  obtain ⟨final, n', last'', again, balanced, sameEnd, rfl⟩ := unitComesTo silent returns active
    around false rfl ahead isEnd' (fun u inside => (avoidsAgain u inside).1)
    (fun _ => avoidsAgain) ran
  have sameText : text (final ++ [last'']) = text (final ++ [last]) := by
    have value : last''.value = last.value := (Token.unplacedSame sameEnd).2.1.trans
      ((outward last').2.trans (Token.unplacedSame sameLast).2.1)
    simp [text, value]
  rw [sameText]
  exact callGives silent returns active around isCall isEnd bracketed readsCall unmarked same known
    expands again balanced

theorem callGivesSame
    (undefined : ∀ u ∈ out, u.kind = .iden → s.registry.active? u.value = none) :
    s.Gives whole unitName (text out) := by
  obtain ⟨ts, first, fresh, last', same, known, expands, avoids, balanced, sameLast, rfl⟩ :=
    aloneComesTo silent returns active around bracketed unmarked isEnd readsArgument expanded
  have outward := Token.remarkedSame d.name
  have still : ∀ u ∈ first.map (·.remarked d.name),
      u.kind ≠ .eof ∧ s.registry.invoked? u = none := by
    intro u member
    obtain ⟨v, inside, rfl⟩ := List.mem_map.mp member
    rw [Registry.invoked?, (outward v).1, (outward v).2]
    refine ⟨(avoids v inside).1, ?_⟩
    split
    · rename_i isName
      exact undefined v (List.mem_append_left [last'] inside) isName.1
    · rfl
  have sameText : text (first.map (·.remarked d.name) ++ [last]) = text (first ++ [last']) := by
    rw [textAppend, textAppend, textMap fun u => (outward u).2]
    simp [text, (Token.unplacedSame sameLast).2.1]
  rw [← sameText]
  exact callGives silent returns active around isCall isEnd bracketed readsCall unmarked same known
    expands (Registry.expandsStill 0 still) ((balancedMap outward first).mpr balanced)

end Calls

/- Of the tokens that a transformer answers, those that were read for its arguments stay as they
are. An argument that is answered is scanned once more, with all tokens that replacements have
brought marked by the call; where no defined name is left in it, that makes no difference. -/
theorem argumentExpandsAgain (d : Definition) (t : Transformer) (s : Session) :
    (∀ {expand params nameToken scan scan' ts}, d.body = .callable t → d.params = some params →
      (Scan.replacement expand d nameToken).run.run scan = (.ok ts, scan') →
      Scan.Settles expand d t nameToken scan ts) ∧
    ∀ {arg call : List Token} {last : Token} {whole alone : Source} {unitName : Option String}
      {steps : Nat} {out : List Token},
      (∀ word, s.blocks.handlersFor word = []) → d.ReturnsArgument t →
      s.registry.active? d.name = some d → s.registry.StaticAround d.name → Bracketed false arg →
      (∀ u ∈ arg, u.mark = none) → last.kind = .eof → d.CallOf arg last call →
      s.Reads whole call → s.Reads alone (strip arg ++ [last]) →
      (s.expandUnit steps alone unitName).1 = .ok out →
      (∀ {more out'},
        (s.expandUnit more (.tokens (out.map (·.remarked d.name))) unitName).1 = .ok out' →
        s.Gives whole unitName (text out')) ∧
      ((∀ u ∈ out, u.kind = .iden → s.registry.active? u.value = none) →
        s.Gives whole unitName (text out)) := by
  refine ⟨Scan.replacementSettles, ?_⟩
  intro arg call last whole alone unitName steps out silent returns active around bracketed
    unmarked isEnd isCall readsCall readsArgument expanded
  constructor
  · intro more out' ran
    exact callGivesAgain silent returns active around bracketed unmarked isEnd readsArgument
      expanded isCall readsCall ran
  · intro undefined
    exact callGivesSame silent returns active around bracketed unmarked isEnd readsArgument
      expanded isCall readsCall undefined

/- Keeps its argument, whatever the name it is bound to. -/
def keep : Transformer where
  name := "keep"
  id := 0
  run
    | .applied [arg] => .done (.tokens arg) .empty
    | _ => .done .nothing .empty

theorem argumentExpandsAgainAfterHeld :
    let word (w : String) : Token := ⟨.iden, w, some 1, none, none⟩
    let op (w : String) : Token := ⟨.op, w, some 1, none, none⟩
    let blank : Token := ⟨.space, " ", some 1, none, none⟩
    let a : Definition := ⟨"A", none, .text [word "b"], 0, none⟩
    let x : Definition := ⟨"X", none, .text [word "X", blank, word "y"], 0, none⟩
    let d : Definition := ⟨"ID", some ["x"], .callable keep, 0, none⟩
    let s : Session := { registry := ((({} : Registry).push a).push x).push d }
    (∃ ts, ts.map (fun u => (u.value, u.mark)) =
        [("X", some "ID"), (" ", some "ID"), ("y", some "ID")] ∧
      Scan.Settles (Scan.argument (Scan.run 9)) d keep (word "ID")
        { session := s, cursor := .ofTokens [op "(", word "X", op ")"] } ts) ∧
    s.Gives (.text "ID( A + (1, ID(X)) )") none "b + (1, X y y y)" ∧
    s.Gives (.text "ID( A + (1, 2) )") none "b + (1, 2)" := by
  intro word op blank a x d s
  have silent (w : String) : s.blocks.handlersFor w = [] := by simp [s, Blocks.handlersFor]
  have active (w : String) : s.registry.active? w = if w = "ID" then some d
      else if w = "X" then some x else if w = "A" then some a else none := by
    rw [Registry.activePush (by decide), Registry.activePush (by decide),
      Registry.activePush (by decide)]
    simp [a, x, d, Registry.active?]
  have around : s.registry.StaticAround d.name := by
    refine ⟨by decide +kernel, fun w e found other => ?_⟩
    rw [active, if_neg other] at found
    split at found
    · cases found
      exact ⟨_, rfl, by simp [Token.Avoids, word, blank, d]⟩
    · split at found
      · cases found
        exact ⟨_, rfl, by simp [Token.Avoids, word, d]⟩
      · contradiction
  have returns : d.ReturnsArgument keep := ⟨⟨"x", rfl⟩, rfl, fun _ => rfl⟩
  have returned {ran : Except Stop (List Token)} (isOk : ran.toOption.isSome = true) :
      ran = .ok (ran.toOption.getD []) := by
    cases ran with
    | error e => contradiction
    | ok ts => rfl
  let arg (inner : List Token) : List Token := [blank, word "A", blank, op "+", blank] ++
    op "(" :: (([⟨.number, "1", some 1, none, none⟩, op ",", blank] ++ inner) ++ op ")" :: [blank])
  let own : List Token := [word "ID", op "(", word "X", op ")"]
  let two : List Token := [⟨.number, "2", some 1, none, none⟩]
  let last : Token := .endOfInput (some 1)
  have isCall (inner : List Token) : d.CallOf (arg inner) last
      (word "ID" :: op "(" :: (arg inner ++ [op ")", last])) :=
    .intro ⟨rfl, rfl, rfl⟩ ⟨rfl, rfl⟩ ⟨rfl, rfl⟩
  have bracketed {inner : List Token} (within : Bracketed true inner) :
      Bracketed false (arg inner) := by
    refine .word (by decide) (by decide) (.word (by decide) (by decide) (.word (by decide)
      (by decide) (.word (by decide) (by decide) (.word (by decide) (by decide) (.group rfl rfl rfl
        (.word (by decide) (by decide) (.word (by decide) (by decide) (.word (by decide)
          (by decide) within))) (.word (by decide) (by decide) .nil))))))
  have ownBracketed : Bracketed true own :=
    .word (by decide) (by decide) (@Bracketed.group true (op "(") (op ")") [word "X"] [] rfl rfl rfl
      (.word (by decide) (by decide) .nil) .nil)
  obtain ⟨settles, passes⟩ := argumentExpandsAgain d keep s
  obtain ⟨again, -⟩ := @passes (arg own) _ last (.text "ID( A + (1, ID(X)) )")
    (.text "A + (1, ID(X))") none 99 _ silent returns (active "ID") around (bracketed ownBracketed)
    (by decide) rfl (isCall own) (readsText (by decide +kernel) (by decide +kernel) s)
    (readsText (by decide +kernel) (by decide +kernel) s) (returned (by decide +kernel))
  obtain ⟨-, same⟩ := @passes (arg two) _ last (.text "ID( A + (1, 2) )") (.text "A + (1, 2)") none
    99 _ silent returns (active "ID") around
    (bracketed (.word (by decide) (by decide) .nil)) (by decide) rfl (isCall two)
    (readsText (by decide +kernel) (by decide +kernel) s)
    (readsText (by decide +kernel) (by decide +kernel) s) (returned (by decide +kernel))
  refine ⟨?_, ?_, ?_⟩
  · have marks : ((Scan.replacement (Scan.argument (Scan.run 9)) d (word "ID")).run.run
        { session := s, cursor := .ofTokens [op "(", word "X", op ")"] }).1.toOption.map
          (·.map fun u => (u.value, u.mark)) =
        some [("X", some "ID"), (" ", some "ID"), ("y", some "ID")] := by decide +kernel
    rcases ran : (Scan.replacement (Scan.argument (Scan.run 9)) d (word "ID")).run.run
      { session := s, cursor := .ofTokens [op "(", word "X", op ")"] } with ⟨e | ts, scan⟩
    · rw [ran] at marks
      cases marks
    · rw [ran] at marks
      exact ⟨ts, Option.some.inj marks, settles rfl rfl ran⟩
  · refine Eq.mp (congrArg (s.Gives _ none) ?_) (@again 99 _ (returned (by decide +kernel)))
    decide +kernel
  · refine Eq.mp (congrArg (s.Gives _ none) ?_) (same (by decide +kernel))
    decide +kernel

-- `X` is left alone in its own replacement. The call marks it anew, and it is replaced again.
theorem heldNameExpandsAgain :
    let defines := do
      let _ ← define "X X y" none
      define "ID(x)" (some (.callable keep))
    let s := (defines.run.run {}).2
    (s.expandUnit 9 (.text "X") none).1.toOption.map text = some "X y" ∧
      (s.expandUnit 9 (.text "ID(X)") none).1.toOption.map text = some "X y y" := by
  decide +kernel

end Session

end LuaExpander
