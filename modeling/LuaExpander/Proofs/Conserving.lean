import LuaExpander.Proofs.Lookahead

/-! Reading loses no token. Whatever becomes of an operation, it has taken a beginning of the tokens
to come, with no end of the input in it, and has written it down. So the tokens taken by any
operations, and after them the tokens still to come, are the tokens that there were at first. -/
namespace LuaExpander.Reader

variable {α β : Type}

/- The operation takes a beginning of the tokens to come, whether it succeeds or fails, as long as
the source itself does not fail. -/
def Consumes (x : ReaderM α) : Prop :=
  ∀ r : Reader, r.cursor.failure = none → ∃ front, Took front r (x.run.run r).2

theorem consumesNone {x : ReaderM α} (still : ∀ r, (x.run.run r).2 = r) : Consumes x := by
  intro r _
  rw [still]
  exact ⟨[], tookNone rfl rfl⟩

theorem consumesBind {x : ReaderM α} {f : α → ReaderM β} (first : Consumes x)
    (later : ∀ a, Consumes (f a)) : Consumes (x >>= f) := by
  intro r complete
  obtain ⟨front, took⟩ := first r complete
  rw [runBind]
  rcases ran : x.run.run r with ⟨e | a, between⟩ <;> rw [ran] at took
  · exact ⟨front, took⟩
  · obtain ⟨more, tookMore⟩ := later a between (took.failure.trans complete)
    exact ⟨front ++ more, took.trans tookMore⟩

theorem consumesGet {f : Reader → ReaderM α} (later : ∀ r, Consumes (f r)) :
    Consumes (get >>= f) := fun r => later r r

theorem peekConsumes : Consumes peek := by
  intro r complete
  obtain ⟨first, cursor, peeked, same, still⟩ := Cursor.peekSucceeds complete
  rw [peekRuns, peeked]
  exact ⟨[], tookNone same (still.trans complete.symm)⟩

theorem whileConsumes {p : Token → Bool} (solid : ∀ t, p t = true → t.kind ≠ .eof) :
    Consumes (takeWhile p) := fun _ _ => ⟨_, (takeWhileTakes solid rfl).2⟩

/- Only a source that fails keeps the token to come from being seen. -/
theorem nextConsumes : Consumes next := by
  intro r complete
  rcases ran : next.run.run r with ⟨e | t, r'⟩
  · obtain ⟨front, took⟩ := peekConsumes r complete
    rw [next, runBind] at ran
    rcases looked : peek.run.run r with ⟨f | t, between⟩ <;> rw [looked] at ran took
    · cases ran
      exact ⟨front, took⟩
    · dsimp only at ran
      split at ran <;> cases ran
  · exact nextMoves ran

theorem skipBlankConsumes : Consumes skipBlank := by
  refine consumesBind (whileConsumes fun t isBlank isEnd => ?_) fun _ => peekConsumes
  simp [isEnd, Kind.isBlank] at isBlank

theorem ofKindConsumes (kind : Kind) (wanted : String) : Consumes (ofKind kind wanted) := by
  refine consumesBind skipBlankConsumes fun _ => consumesBind nextConsumes fun t => ?_
  split <;> exact consumesNone fun _ => rfl

theorem nameConsumes : Consumes name :=
  consumesBind (ofKindConsumes _ _) fun _ => consumesNone fun _ => rfl

theorem expectingConsumes (expected : Expected) : Consumes (expecting expected) := by
  refine consumesBind skipBlankConsumes fun _ => consumesBind nextConsumes fun t => ?_
  split <;> exact consumesNone fun _ => rfl

theorem moreConsumes (stop : String) : Consumes (more stop) := by
  refine consumesBind peekConsumes fun t => ?_
  split <;> exact consumesNone fun _ => rfl

theorem namesFromConsumes (stop : String) (turns : Nat) (names : List String) :
    Consumes (namesFrom stop turns names) := by
  induction turns generalizing names with
  | zero => exact consumesNone fun _ => rfl
  | succ turns ih =>
    refine consumesBind nameConsumes fun found => consumesBind skipBlankConsumes fun t => ?_
    split
    · exact consumesNone fun _ => rfl
    · exact consumesBind (moreConsumes stop) fun _ =>
        consumesBind (expectingConsumes _) fun _ => ih _

theorem namesConsumes (stop : String) : Consumes (names stop) := by
  refine consumesBind skipBlankConsumes fun t => ?_
  split
  · exact consumesNone fun _ => rfl
  · exact consumesGet fun _ => namesFromConsumes stop _ []

theorem uptoConsumes (stop : String) : Consumes (upto stop) := by
  refine consumesBind (whileConsumes fun t goesOn => ?_) fun ts =>
    consumesBind (moreConsumes stop) fun _ => consumesNone fun _ => rfl
  simpa using (Bool.and_eq_true_iff.mp goesOn).1

theorem lineConsumes : Consumes line := by
  refine consumesBind (whileConsumes fun t goesOn isEnd => ?_) fun ts =>
    consumesBind peekConsumes fun _ => consumesNone fun _ => rfl
  simp [isEnd] at goesOn

/- A scan that finds what it looks for takes no end of the input; one that does not is followed by
taking all tokens before the end. -/
theorem throughConsumes (stop : String) {scan : List Token → Option (α × Nat)}
    (cuts : Cuts scan) : Consumes (through stop scan) := by
  have missed : Consumes (takeWhile (·.kind ≠ .eof) >>= fun _ => peek >>= missing stop :
      ReaderM α) :=
    consumesBind (whileConsumes fun t goesOn => by simpa using goesOn) fun _ =>
      consumesBind peekConsumes fun _ => consumesNone fun _ => rfl
  intro r complete
  rw [throughRuns]
  cases found : scan r.cursor.ahead with
  | none => exact missed r complete
  | some result => exact ⟨_, tookFront (List.take_append_drop _ _).symm (cuts.solid found)⟩

theorem consumesSame {x y : ReaderM α} (same : ∀ r, y.run.run r = x.run.run r)
    (consumes : Consumes x) : Consumes y := by
  intro r complete
  rw [same]
  exact consumes r complete

theorem performConsumes (op : Op) : Consumes (perform op) := by
  cases op with
  | peek => exact peekConsumes
  | next => exact nextConsumes
  | skipBlank => exact skipBlankConsumes
  | name => exact nameConsumes
  | number => exact consumesBind (ofKindConsumes _ _) fun _ => consumesNone fun _ => rfl
  | string => exact consumesBind (ofKindConsumes _ _) fun _ => consumesNone fun _ => rfl
  | expecting expected => exact expectingConsumes expected
  | names stop => exact namesConsumes stop
  | list stop => exact consumesSame (listRuns stop) (throughConsumes stop (scanListCut stop [] []))
  | upto stop => exact uptoConsumes stop
  | line => exact lineConsumes
  | block => exact consumesSame blockRuns (throughConsumes "end" (scanBlockCut 0))

/- The reader after all operations, each performed whatever became of those before it. -/
def performAll (r : Reader) (ops : List Op) : Reader :=
  ops.foldl (fun r op => ((perform op).run.run r).2) r

theorem performAllConsumes (ops : List Op) {r : Reader} (complete : r.cursor.failure = none) :
    ∃ front, Took front r (r.performAll ops) := by
  induction ops generalizing r with
  | nil => exact ⟨[], tookNone rfl rfl⟩
  | cons op ops ih =>
    obtain ⟨front, took⟩ := performConsumes op r complete
    obtain ⟨more, tookMore⟩ := ih (took.failure.trans complete)
    exact ⟨front ++ more, took.trans tookMore⟩

theorem streamConserved (ts : List Token) (origin : Option Token) (ops : List Op) :
    let r := performAll ⟨.ofTokens ts, origin, #[]⟩ ops
    (∃ rest, r.cursor.rest.1 = .ok rest ∧ r.taken.toList ++ rest = ts) ∧
      ∀ t ∈ r.taken, t.kind ≠ .eof := by
  intro r
  obtain ⟨front, took⟩ : ∃ front, Took front ⟨.ofTokens ts, origin, #[]⟩ r :=
    performAllConsumes ops rfl
  have taken : r.taken = front.toArray := took.taken.trans Array.empty_append
  have complete : r.cursor.failure = none := took.failure
  refine ⟨⟨r.cursor.ahead, ?_, ?_⟩, ?_⟩
  · rw [Cursor.restAhead, complete]
  · rw [taken]
    exact took.ahead.symm
  · rw [taken]
    simpa using took.solid

end LuaExpander.Reader
