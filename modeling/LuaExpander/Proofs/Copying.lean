import LuaExpander.Proofs.Answering
import LuaExpander.Proofs.Calls
import LuaExpander.Proofs.Loops

/-! The transformers of loops. One reads the loop and answers the copies of its body, one begins a
copy with a value for the variable, and one ends it all. -/
namespace LuaExpander

/- The definition of a name as an integer, until a block ends. -/
def Definition.counting (name : String) (n : Int) (depth : Nat) : Definition :=
  { name, params := none, body := .text (Lexer.integerTokens n), depth, line := some 0 }

namespace Standard

theorem describeShort {n : Int} (short : Number.Short n) :
    (Value.number (.int n)).describe = .ok (toString n) := by
  rw [Value.describe, Number.shortText short]

theorem stepYields {f : Frame} {r : Reader} {gap var gap' number : Token} {rest : List Token}
    (reader : f.reader = some r)
    (ahead : r.cursor.ahead = gap :: var :: gap' :: number :: rest)
    (blank : gap.kind = .space) (isVar : var.kind = .iden)
    (isName : Literal.isName var.value = true) (free : var.value ∉ reservedWords)
    (blank' : gap'.kind = .space) {n : Int} (short : Number.Short n)
    (isNumber : number.kind = .number ∧ number.value = toString n)
    {c : Contexts Value} {old : Value} (contexts : f.session.contexts = c.push unrollContext old) :
    ∃ blocks session r',
      Action.Yields f unrollStep (.nothing, .empty) { session, reader := some r' } ∧
        r'.cursor.ahead = rest ∧ r'.cursor.failure = r.cursor.failure ∧
        f.session.blocks.defer (.restore var.value (f.session.registry.height var.value)) none =
          .ok blocks ∧
        Session.Alike { f.session with
          registry := f.session.registry.push (.counting var.value n f.session.blocks.depth)
          contexts := c.push unrollContext (.number (.int n))
          blocks } session := by
  obtain ⟨named, readName, tookName⟩ := @Reader.nameReads r var [gap] _ ahead
    (by simp [blank, Kind.isBlank]) isVar
  have between := Reader.tookLeaves tookName (by rw [ahead]; rfl)
  obtain ⟨counted, readNumber, tookNumber⟩ := @Reader.numberReads named number [gap'] _ between
    (by simp [blank', Kind.isBlank]) isNumber.1 (.int n)
    (by rw [isNumber.2, Numeral.readInteger short])
  have left := Reader.tookLeaves tookNumber (by rw [between]; rfl)
  obtain ⟨published, updated, log, rfl⟩ := Session.contextUpdates (describeShort short)
    (contexts ▸ Contexts.pushAgain old (.number (.int n)))
  obtain ⟨blocks, session, deferred, scopes, alike⟩ := Session.scopeBegins
    (s := { f.session with contexts := c.push unrollContext (.number (.int n)), log })
    (Definition.makeInteger isName free n f.session.blocks.depth)
  refine ⟨blocks, session, counted, ?_, left, tookNumber.failure.trans tookName.failure, deferred,
    .trans ⟨log, rfl⟩ alike⟩
  refine Action.yieldsBind (Action.yieldsRead reader readName) ?_
  refine Action.yieldsBind (Action.yieldsRead rfl readNumber) ?_
  refine Action.yieldsBind (Action.yieldsContext updated) ?_
  rw [Number.shortText short]
  exact Action.yieldsBind (Action.yieldsScope scopes) (Action.yieldsPure _)

theorem doneYields {f : Frame} {c : Contexts Value} {old : Value}
    (kept : c.table[unrollContext]? ≠ some Stack.empty)
    (contexts : f.session.contexts = c.push unrollContext old) :
    ∃ session, Action.Yields f unrollDone (.nothing, .empty) { f with session } ∧
      Session.Alike { f.session with contexts := c } session := by
  obtain ⟨session, popped, alike⟩ := Session.contextPops (contexts ▸ Contexts.popPushed kept old)
  exact ⟨session, Action.yieldsBind (Action.yieldsContext popped) (Action.yieldsPure _), alike⟩

/- A copy of the body for a value, with all else made by `put`. -/
def copied (put : Kind → String → Token) (var : String) (body : List Token) (n : Int) :
    List Token :=
  put .keyword "do" :: put .space " " :: put .iden "__UNROLL_STEP__" :: put .space " " ::
    put .iden var :: put .space " " :: put .number (toString n) :: (body ++ [put .keyword "end"])

def further (put : Kind → String → Token) (var : String) (body : List Token) (values : List Int) :
    List Token :=
  values.flatMap fun n => put .space " " :: copied put var body n

/- The copies for all values, with blanks between them. -/
def spread (put : Kind → String → Token) (var : String) (body : List Token) : List Int → List Token
  | [] => []
  | n :: ns => copied put var body n ++ further put var body ns

/- A token of the replacement for a loop. -/
def placed (line : Line) (kind : Kind) (value : String) : Token :=
  ⟨kind, value, line, some "_UNROLL_", none⟩

def raw (kind : Kind) (value : String) : Token := { kind, value }

theorem copiedMap (f : Token → Token) (put : Kind → String → Token) (var : String)
    (body : List Token) (n : Int) :
    (copied put var body n).map f =
      copied (fun kind value => f (put kind value)) var (body.map f) n := by
  simp [copied]

theorem spreadMap (f : Token → Token) (put : Kind → String → Token) (var : String)
    (body : List Token) (values : List Int) :
    (spread put var body values).map f =
      spread (fun kind value => f (put kind value)) var (body.map f) values := by
  cases values with
  | nil => rfl
  | cons n ns => simp [spread, further, List.map_flatMap, copiedMap]

theorem copyBuilds {var : String} {body : List Token} {n : Int} (short : Number.Short n)
    (b : Builder) : ∃ b', copy var body b n = .ok b' ∧
      b'.toTokens = b.toTokens ++ copied raw var body n := by
  unfold copy Builder.number
  rw [Number.shortText short]
  refine ⟨_, rfl, ?_⟩
  simp [Builder.toTokens, Builder.keyword, Builder.space, Builder.iden, Builder.token,
    Builder.tokens, copied, raw]

theorem moreCopiesBuild {var : String} {body : List Token} {values : List Int}
    (short : ∀ n ∈ values, Number.Short n) (b : Builder) :
    ∃ b', moreCopies var body values b = .ok b' ∧
      b'.toTokens = b.toTokens ++ further raw var body values := by
  induction values generalizing b with
  | nil => exact ⟨b, rfl, by simp [further]⟩
  | cons n ns ih =>
    obtain ⟨here, later⟩ := List.forall_mem_cons.mp short
    obtain ⟨one, copies, tokens⟩ := @copyBuilds var body n here b.space
    obtain ⟨b', builds, all⟩ := ih later one
    refine ⟨b', ?_, ?_⟩
    · rw [moreCopies, copies]
      exact builds
    · rw [all, tokens]
      simp [further, Builder.space, Builder.token, Builder.toTokens, raw]

theorem copiesBuild {var : String} {body : List Token} {values : List Int}
    (short : ∀ n ∈ values, Number.Short n) :
    ∃ b, copies var body values = .ok b ∧
      b.toTokens = spread raw var body values ++ [raw .iden "__UNROLL_DONE__"] := by
  cases values with
  | nil => exact ⟨_, rfl, rfl⟩
  | cons n ns =>
    obtain ⟨here, later⟩ := List.forall_mem_cons.mp short
    obtain ⟨one, copied, tokens⟩ := @copyBuilds var body n here .empty
    obtain ⟨b, more, all⟩ := @moreCopiesBuild var body ns later one
    refine ⟨b.iden "__UNROLL_DONE__", ?_, ?_⟩
    · rw [copies, copied]
      dsimp only [bind, Except.bind]
      rw [more]
      rfl
    · rw [show (b.iden "__UNROLL_DONE__").toTokens = b.toTokens ++ [raw .iden "__UNROLL_DONE__"] by
        simp [Builder.iden, Builder.token, Builder.toTokens, raw], all, tokens]
      simp [spread, Builder.empty, Builder.toTokens]

theorem unrollYields {l : Loop} {f : Frame} {r : Reader} {front body rest : List Token}
    {closer : Token} (short : Number.Short l.first ∧ Number.Short l.last ∧ Number.Short l.step)
    (moves : l.step ≠ 0) (reader : f.reader = some r) (opening : l.Opening front)
    (ahead : r.cursor.ahead = front ++ (body ++ closer :: rest))
    (notEnd : ∀ t ∈ body, t.kind ≠ .eof) (balanced : Tokens.Balanced body)
    (isCloser : closer.closesBlock = true) (origin : Token) :
    ∃ b session r', Action.Yields f (unroll origin) (.nothing, b) { session, reader := some r' } ∧
      Reader.Took (front ++ (body ++ [closer])) r r' ∧
      b.toTokens = spread raw l.var body (progression l.first l.last l.step) ++
        [raw .iden "__UNROLL_DONE__"] ∧
      Session.Alike { f.session with
        contexts := f.session.contexts.push unrollContext (.number (.int l.first)) } session := by
  obtain @⟨gap, var, gap', equals, bounds, keyword, blank, isVar, blank', isEquals, isBounds,
    isKeyword⟩ := opening
  obtain ⟨named, readName, tookName⟩ := @Reader.nameReads r var [gap] _ ahead
    (by simp [blank, Kind.isBlank]) isVar.1
  have afterName := Reader.tookLeaves tookName (by rw [ahead]; rfl)
  obtain ⟨equated, readEquals, tookEquals⟩ := @Reader.expectingReads named equals [gap'] _ afterName
    (by simp [blank', Kind.isBlank]) (by simp [isEquals, Kind.isSolid]) (.text "=")
    (by simp [Expected.meets, isEquals])
  have afterEquals : equated.cursor.ahead = bounds ++ keyword :: (body ++ closer :: rest) := by
    rw [Reader.tookLeaves tookEquals (by rw [afterName]; rfl)]
    simp
  obtain ⟨bounded, readBounds, tookBounds⟩ := Reader.uptoReads afterEquals
    (Loop.boundsTokens isBounds) (by simp [isKeyword]) isKeyword.2
  have afterBounds := Reader.tookLeaves tookBounds afterEquals
  obtain ⟨opened, readKeyword, tookKeyword⟩ := @Reader.expectingReads bounded keyword [] _
    afterBounds (by simp) (by simp [isKeyword, Kind.isSolid]) (.text "do")
    (by simp [Expected.meets, isKeyword])
  obtain ⟨closed, readBlock, tookBlock⟩ := Reader.blockReads
    (Reader.tookLeaves tookKeyword (by rw [afterBounds]; rfl)) notEnd balanced isCloser
  obtain ⟨session, pushed, alike⟩ :=
    @Session.contextPushes unrollContext _ _ (describeShort short.1) f.session
  obtain ⟨built, copied, tokens⟩ := @copiesBuild l.var body (progression l.first l.last l.step)
    (progressionShort moves short.1 short.2.1)
  obtain ⟨three, numbers⟩ := Loop.boundsRead isBounds short
  refine ⟨built, session, closed, ?_, ?_, tokens, alike⟩
  · refine Action.yieldsBind (Action.yieldsRead reader readName) ?_
    refine Action.yieldsBind (Action.yieldsRead rfl readEquals) ?_
    refine Action.yieldsBind (Action.yieldsRead rfl readBounds) ?_
    rw [if_neg (by simp [three]), numbers]
    refine Action.yieldsBind (Action.yieldsPure _) ?_
    rw [Standard.bounds, if_neg moves]
    refine Action.yieldsBind (Action.yieldsPure _) ?_
    refine Action.yieldsBind (Action.yieldsRead rfl readKeyword) ?_
    refine Action.yieldsBind (Action.yieldsRead rfl readBlock) ?_
    refine Action.yieldsBind (Action.yieldsContext pushed) ?_
    rw [isVar.2, copied]
    exact Action.yieldsPure _
  · have whole := (tookName.trans tookEquals).trans (tookBounds.trans (tookKeyword.trans tookBlock))
    simpa using whole

theorem settledSpread {taken body : List Token} (numbered : ∀ t ∈ taken, t.serial ≠ none)
    (within : ∀ t ∈ body, t ∈ taken) (line : Line) (var : String) (values : List Int) :
    ((spread raw var body values ++ [raw .iden "__UNROLL_DONE__"]).map
        (Scan.settle taken.toArray "_UNROLL_" line)).map Token.fresh =
      spread (placed line) var (body.map Token.fresh) values ++
        [placed line .iden "__UNROLL_DONE__"] := by
  have marked (kind : Kind) (value : String) :
      (Scan.settle taken.toArray "_UNROLL_" line (raw kind value)).fresh =
        placed line kind value := by
    have apart : (raw kind value).serial ∉ taken.map (·.serial) := by
      intro member
      obtain ⟨t, isTaken, same⟩ := List.mem_map.mp member
      exact numbered t isTaken same
    rw [Scan.settleNumbered numbered, if_neg apart]
    rfl
  have kept : body.map (fun t => (Scan.settle taken.toArray "_UNROLL_" line t).fresh) =
      body.map Token.fresh := by
    refine List.map_congr_left fun t member => ?_
    rw [Scan.settleNumbered numbered, if_pos (List.mem_map_of_mem (within t member))]
  rw [List.map_map, List.map_append, spreadMap]
  simp only [Function.comp_def, marked, kept, List.map_cons, List.map_nil]

end Standard

end LuaExpander
