import LuaExpander.Proofs.Identity
import LuaExpander.Proofs.Likeness

/-! A source is read no further than it has to be. Cursors that share the tokens which have been
drawn are alike until one more token is drawn, and for good if they share all tokens and the error
after them. So a text that is lexed as its tokens are wanted does as well as the list of its tokens;
and what a unit makes of a source follows from the tokens that it has drawn, whether the others have
been lexed, could be lexed, or are there at all. -/
namespace LuaExpander

namespace Cursor

def undrawn (c : Cursor) : Nat := c.ahead.length - c.pending.length

/- The same tokens to come, except for `left` tokens, which have not been drawn, and for what the
other source has in their place. If there are no such tokens the sources end in the same way. -/
def Shares (left : Nat) (c c' : Cursor) : Prop :=
  ∃ front back back', c.ahead = front ++ back ∧ back.length = left ∧ c'.ahead = front ++ back' ∧
    c'.pending.length = c.pending.length ∧ c.pending.length ≤ front.length ∧
    (left = 0 → back' = [] ∧ c'.failure = c.failure)

def Passed (left : Nat) (c : Cursor) : Prop := c.undrawn < left

variable {left : Nat} {c c' : Cursor}

theorem sharesWhole : Shares 0 c c' ↔
    c'.ahead = c.ahead ∧ c'.pending.length = c.pending.length ∧ c'.failure = c.failure := by
  constructor
  · rintro ⟨front, back, back', ahead, length, ahead', pending, -, ends⟩
    obtain ⟨rfl, failure⟩ := ends rfl
    cases List.eq_nil_of_length_eq_zero length
    exact ⟨ahead'.trans ahead.symm, pending, failure⟩
  · rintro ⟨ahead, pending, failure⟩
    refine ⟨c.ahead, [], [], by simp, rfl, by simp [ahead], pending, ?_, fun _ => ⟨rfl, failure⟩⟩
    simp [Cursor.ahead]

theorem undrawnDrop (n : Nat) (c : Cursor) : (c.drop n).undrawn ≤ c.undrawn := by
  simp only [undrawn, aheadDrop, pendingDrop, List.length_drop]
  omega

theorem undrawnNone (ahead : c.ahead = []) : c.undrawn = 0 := by
  rw [undrawn, ahead, List.length_nil, Nat.zero_sub]

theorem undrawnPrepend (ts : List Token) (c : Cursor) : (c.prepend ts).undrawn = c.undrawn := by
  have pending : (c.prepend ts).pending = ts ++ c.pending := rfl
  simp only [undrawn, aheadPrepend, pending, List.length_append]
  omega

theorem undrawnNext (c : Cursor) : c.next.2.undrawn ≤ c.undrawn := by
  have outcome := c.given
  generalize c.next = result at outcome
  cases outcome with
  | token ahead failure pending =>
    simp only [undrawn, ahead, pending, List.length_cons, List.length_tail]
    omega
  | none => exact Nat.le_refl _
  | error _ _ none => rw [undrawnNone none]; exact Nat.zero_le _

theorem sharesPrepend (ts : List Token) :
    Parallel (Shares left) (Passed left) fun c => ((), c.prepend ts) where
  stays passed := by
    rw [Passed, undrawnPrepend]
    exact passed
  agrees := by
    rintro c c' ⟨front, back, back', ahead, length, ahead', pending, within, ends⟩
    refine .inr ⟨rfl, ts ++ front, back, back', ?_, length, ?_, ?_, ?_, ends⟩
    · simp [ahead]
    · simp [ahead']
    · simp [prepend, pending]
    · simp only [prepend, List.length_append]
      omega

theorem sharesNumber (fresh : Nat) :
    Parallel (Shares left) (Passed left) fun c => ((), (c.number fresh).1) where
  stays {c} passed := by
    have pending : (c.number fresh).1.pending.length = c.pending.length := Tokens.numberAtLength ..
    simpa only [Passed, undrawn, aheadNumber, Tokens.numberAtLength, pending] using passed
  agrees := by
    rintro c c' ⟨front, back, back', ahead, length, ahead', pending, within, ends⟩
    refine .inr ⟨rfl, Tokens.numberAt fresh 0 front, Tokens.numberAt fresh (0 + front.length) back,
      Tokens.numberAt fresh (0 + front.length) back', ?_, ?_, ?_, ?_, ?_, ?_⟩
    · rw [aheadNumber, ahead, Tokens.numberAtAppend]
    · rw [Tokens.numberAtLength, length]
    · rw [aheadNumber, ahead', Tokens.numberAtAppend]
    · simpa [number] using pending
    · simpa [number] using within
    · intro none
      obtain ⟨rfl, failure⟩ := ends none
      exact ⟨rfl, by rw [failureNumber, failureNumber, failure]⟩

theorem sharesDrop (n : Nat) : Parallel (Shares left) (Passed left) fun c => ((), c.drop n) where
  stays passed := Nat.lt_of_le_of_lt (undrawnDrop n _) passed
  agrees := by
    rintro c c' ⟨front, back, back', ahead, rfl, ahead', pending, within, ends⟩
    by_cases few : n ≤ front.length
    · refine .inr ⟨rfl, front.drop n, back, back', ?_, rfl, ?_, ?_, ?_, ?_⟩
      · simp [ahead, List.drop_append_of_le_length few]
      · simp [ahead', List.drop_append_of_le_length few]
      · simp [pending]
      · simp only [pendingDrop, List.length_drop]
        omega
      · simpa using ends
    · rcases Nat.eq_zero_or_pos back.length with none | positive
      · obtain ⟨rfl, failure⟩ := ends none
        cases List.eq_nil_of_length_eq_zero none
        refine .inr ⟨rfl, sharesWhole.mpr ⟨?_, ?_, ?_⟩⟩
        · simp [ahead, ahead']
        · simp [pending]
        · simpa using failure
      · refine .inl ?_
        simp only [Passed, undrawn, aheadDrop, pendingDrop, ahead, List.length_drop,
          List.length_append]
        omega

theorem sharesNext : Parallel (Shares left) (Passed left) next where
  stays passed := Nat.lt_of_le_of_lt (undrawnNext _) passed
  agrees := by
    rintro c c' ⟨front, back, back', ahead, length, ahead', pending, within, ends⟩
    cases front with
    | cons t front =>
      have both := (@sharesDrop left 1).agrees
        ⟨t :: front, back, back', ahead, length, ahead', pending, within, ends⟩
      rw [nextToken ahead, nextToken ahead']
      exact both.imp_right fun shares => ⟨rfl, shares.2⟩
    | nil =>
      cases back with
      | nil =>
        subst length
        obtain ⟨rfl, failure⟩ := ends rfl
        refine .inr ?_
        cases fails : c.failure with
        | none =>
          rw [nextNone ahead fails, nextNone ahead' (failure.trans fails)]
          exact ⟨rfl, sharesWhole.mpr ⟨ahead'.trans ahead.symm, pending, failure⟩⟩
        | some e =>
          obtain ⟨d, failed, none, spent⟩ := nextError ahead fails
          obtain ⟨d', failed', none', spent'⟩ := nextError ahead' (failure.trans fails)
          rw [failed, failed']
          refine ⟨rfl, sharesWhole.mpr ⟨none'.trans none.symm, ?_, spent'.trans spent.symm⟩⟩
          rw [(List.append_eq_nil_iff.mp none).1, (List.append_eq_nil_iff.mp none').1]
      | cons t back =>
        refine .inl ?_
        rw [List.nil_append] at ahead
        rw [nextToken ahead]
        simp only [Passed, undrawn, aheadDrop, ahead, List.length_drop, List.length_cons] at length ⊢
        omega

theorem sharesPeek : Parallel (Shares left) (Passed left) peek := by
  -- What is answered goes back, be it a token or nothing.
  have later (answer : Except Error (Option Token)) : Parallel (Shares left) (Passed left)
      fun c => (answer, c.prepend answer.toOption.join.toList) :=
    (sharesPrepend _).follow (g := fun _ c => (answer, c)) fun _ => Parallel.answer _
  refine (sharesNext.follow later).ofSame fun c => ?_
  unfold peek
  rcases c.next with ⟨e | _ | t, c'⟩ <;> rfl

section

variable (positive : 0 < left)
include positive

theorem dropBeyond {front back : List Token} (ahead : c.ahead = front ++ back)
    (length : back.length = left) (more : List Token) :
    Passed left (c.drop (front ++ more).length) ∨
      more = [] ∧ (c.drop (front ++ more).length).ahead.length = left := by
  cases more with
  | nil => exact .inr ⟨rfl, by simp [ahead, length]⟩
  | cons t more =>
    refine .inl ?_
    simp only [Passed, undrawn, aheadDrop, pendingDrop, ahead, List.length_drop,
      List.length_append, List.length_cons]
    omega

theorem dropThrough {front back : List Token} (ahead : c.ahead = front ++ back)
    (length : back.length = left) {n : Nat} (beyond : front.length < n) :
    Passed left (c.drop ((front ++ back).take n).length) := by
  have taken : (front ++ back).take n = front ++ back.take (n - front.length) := by
    rw [List.take_append, List.take_of_length_le (Nat.le_of_lt beyond)]
  rw [taken]
  rcases dropBeyond positive ahead length (back.take (n - front.length)) with passed | ⟨none, -⟩
  · exact passed
  · rcases List.take_eq_nil_iff.mp none with zero | empty
    · omega
    · simp [empty] at length
      omega

theorem peekPasses (edge : c.ahead.length = left) : Passed left c.peek.2 := by
  have same := congrArg List.length c.aheadPeek
  cases ahead : c.ahead with
  | nil => simp_all
  | cons t rest =>
    have pending : c.peek.2.pending = t :: (c.drop 1).pending := by rw [peekToken ahead]; rfl
    simp only [Passed, undrawn, pending, List.length_cons]
    omega

end

end Cursor

namespace Registry

variable {limit length : Nat} {front : List Token}

theorem operatorRunInside
    (ends : operatorRun limit length front = front → limit ≤ length + (Tokens.text front).length)
    (back : List Token) :
    operatorRun limit length (front ++ back) = operatorRun limit length front := by
  induction front generalizing length with
  | nil =>
    have long : ¬ length < limit := Nat.not_lt.mpr (ends rfl)
    cases back with
    | nil => rfl
    | cons t back => simp [operatorRun, long]
  | cons t front ih =>
    rw [List.cons_append, operatorRun, operatorRun]
    split
    · rename_i taken
      rw [operatorRun, if_pos taken, Tokens.textCons, String.length_append, ← Nat.add_assoc] at ends
      rw [ih fun whole => ends (by rw [whole])]
    · rfl

theorem operatorRunBeyond (whole : operatorRun limit length front = front)
    (short : length + (Tokens.text front).length < limit) (back : List Token) :
    operatorRun limit length (front ++ back) =
      front ++ operatorRun limit (length + (Tokens.text front).length) back := by
  induction front generalizing length with
  | nil => rfl
  | cons t front ih =>
    rw [operatorRun] at whole
    rw [Tokens.textCons, String.length_append, ← Nat.add_assoc] at short ⊢
    split at whole
    · rename_i taken
      rw [List.cons_append, operatorRun, if_pos taken, ih (List.cons.inj whole).2 short]
      rfl
    · contradiction

variable {left : Nat}

theorem chosenParallel (r : Registry) (t : Token) (run : List Token)
    (seen : Except Error (Option Token)) :
    Parallel (Cursor.Shares left) (Cursor.Passed left) (chosen r t run seen) := by
  have put (ts : List Token) (search : Search) :
      Parallel (Cursor.Shares left) (Cursor.Passed left) fun c =>
        ((.ok search : Except Error Search), c.prepend ts) :=
    (Cursor.sharesPrepend ts).follow (g := fun _ c => (Except.ok search, c))
      fun _ => Parallel.answer _
  cases seen with
  | error e => exact Parallel.answer _
  | ok first =>
    unfold chosen
    rcases longestName r (t :: run) 0 (run.length + 1) with ⟨_ | ⟨n, name, definition⟩, held⟩
    · exact put _ _
    · exact put _ _

theorem lookedParallel (run : List Token) (short : Bool) :
    Parallel (Cursor.Shares left) (Cursor.Passed left) (looked run short) := by
  have dropped := @Cursor.sharesDrop left run.length
  cases short with
  | false => exact dropped.follow fun _ => Parallel.answer _
  | true => exact dropped.follow fun _ => Cursor.sharesPeek

theorem lookedBeyond (positive : 0 < left) {c : Cursor} {front back : List Token}
    (ahead : c.ahead = front ++ back) (length : back.length = left) (more : List Token)
    {short : Bool} (looks : more = [] → short = true) :
    Cursor.Passed left (looked (front ++ more) short c).2 := by
  unfold looked
  rcases Cursor.dropBeyond positive ahead length more with passed | ⟨none, edge⟩
  · split
    · exact Cursor.sharesPeek.stays passed
    · exact passed
  · rw [if_pos (looks none)]
    exact Cursor.peekPasses positive edge

theorem matchOperatorParallel (r : Registry) (t : Token) :
    Parallel (Cursor.Shares left) (Cursor.Passed left) (r.matchOperator t) where
  stays {c} passed := by
    rw [matchOperatorRuns]
    exact (chosenParallel r t _ _).stays ((lookedParallel _ _).stays passed)
  agrees {c c'} shares := by
    have settled (run : operatorRun r.longest t.value.length c.ahead =
        operatorRun r.longest t.value.length c'.ahead) :
        Cursor.Passed left (r.matchOperator t c).2 ∨
          (r.matchOperator t c').1 = (r.matchOperator t c).1 ∧
            Cursor.Shares left (r.matchOperator t c).2 (r.matchOperator t c').2 := by
      rw [matchOperatorRuns, matchOperatorRuns, run]
      exact ((lookedParallel _ _).follow (chosenParallel r t _)).agrees shares
    rcases Nat.eq_zero_or_pos left with rfl | positive
    · exact settled (by rw [(Cursor.sharesWhole.mp shares).1])
    obtain ⟨front, back, back', ahead, length, ahead', -⟩ := shares
    -- Either the run ends among the tokens at hand, or one more has to be looked at.
    by_cases ends : operatorRun r.longest t.value.length front = front →
        r.longest ≤ t.value.length + (Tokens.text front).length
    · exact settled (by rw [ahead, ahead', operatorRunInside ends, operatorRunInside ends])
    · refine .inl ?_
      obtain ⟨whole, short⟩ := Classical.not_imp.mp ends
      rw [matchOperatorRuns]
      refine (chosenParallel r t _ _).stays ?_
      rw [ahead, operatorRunBeyond whole (Nat.lt_of_not_le short)]
      refine lookedBeyond positive ahead length _ fun none => ?_
      rw [none, List.append_nil, Tokens.textCons, String.length_append]
      exact decide_eq_true (Nat.lt_of_not_le short)

theorem findParallel (t : Token) (r : Registry) :
    Parallel (Cursor.Shares left) (Cursor.Passed left) (r.find t) := by
  unfold find
  cases t.kind with
  | op =>
    dsimp only
    split
    · exact Parallel.answer _
    · exact matchOperatorParallel r t
  | iden | keyword | string | number | space | comment | eof => exact Parallel.answer _

end Registry

namespace Reader

variable {α β : Type} {left : Nat}

/- What has been read of the source does not tell apart readers of which one has `left` tokens that
have not been read. -/
def Near (left : Nat) (x : ReaderM α) : Prop :=
  Parallel (Alike (Cursor.Shares left)) (Gone (Cursor.Passed left)) x.run.run

/- A source is read further where nothing else is left. -/
def Looks (left : Nat) (x : ReaderM α) : Prop :=
  ∀ r : Reader, r.cursor.ahead.length = left → Gone (Cursor.Passed left) (x.run.run r).2

theorem bindSame {x : ReaderM α} {f g : α → ReaderM β} {r : Reader}
    (same : ∀ a r', x.run.run r = (.ok a, r') → (f a).run.run r' = (g a).run.run r') :
    (x >>= f).run.run r = (x >>= g).run.run r := by
  rw [runBind, runBind]
  rcases first : x.run.run r with ⟨e | a, between⟩
  · rfl
  · exact same a between first

theorem missingNear (stop : String) (last : Token) : Near left (missing stop last : ReaderM α) :=
  Parallel.get (by rintro r _ ⟨cursor, shares, rfl⟩; rfl) fun _ => Parallel.answer _

theorem looksBind {x : ReaderM α} {f : α → ReaderM β} (looks : Looks left x)
    (later : ∀ a, Near left (f a)) : Looks left (x >>= f) := by
  intro r edge
  have passed := looks r edge
  rw [runBind]
  rcases first : x.run.run r with ⟨e | a, between⟩
  · rwa [first] at passed
  · rw [first] at passed
    exact (later a).stays passed

theorem moreLater (stop : String) (t : Token) :
    Near left (if t.kind = .eof then missing stop t else return t) := by
  split
  · exact missingNear stop t
  · exact Parallel.answer _

theorem turnsEnough (stop : String) {turns : Nat} (names : List String) {r : Reader}
    (enough : r.cursor.ahead.length < turns) (more : Nat) :
    (namesFrom stop (turns + more) names).run.run r = (namesFrom stop turns names).run.run r := by
  induction turns generalizing names r with
  | zero => contradiction
  | succ turns ih =>
    rw [Nat.succ_add]
    refine bindSame fun found named hn => ?_
    refine bindSame fun t skipped hs => ?_
    split
    · rfl
    · refine bindSame fun u seen hm => ?_
      refine bindSame fun comma last he => ?_
      refine ih _ ?_
      obtain ⟨front, t, first, member, -⟩ := nameTakes hn
      obtain ⟨blanks, second, -⟩ := skipBlankTakes hs
      have third := moreTakes hm
      obtain ⟨signs, fourth⟩ := expectingTakes he
      have whole := congrArg List.length (((first.trans second).trans third).trans fourth).ahead
      have some := List.length_pos_of_mem member
      simp only [List.length_append] at whole
      omega

/- What a scan takes decides what it answers. -/
structure Cuts (scan : List Token → Option (α × Nat)) : Prop where
  solid {ts a n} : scan ts = some (a, n) → ∀ t ∈ ts.take n, t.kind ≠ .eof
  cut {ts a n} : scan ts = some (a, n) → ∀ more, scan (ts.take n ++ more) = some (a, n)

/- A scan that ends within the tokens at hand takes no notice of those behind them. -/
theorem cutsWithin {scan : List Token → Option (α × Nat)} (cuts : Cuts scan)
    {front rest : List Token} {a : α} {n : Nat} (found : scan (front ++ rest) = some (a, n))
    (few : n ≤ front.length) (other : List Token) : scan (front ++ other) = some (a, n) := by
  have cut := cuts.cut found (front.drop n ++ other)
  rwa [List.take_append_of_le_length few, ← List.append_assoc, List.take_append_drop] at cut

theorem scanBlockCut (level : Nat) : Cuts (scanBlock level) where
  solid found := by
    obtain ⟨closer, split, solid⟩ := scanBlockTakes found
    rwa [split]
  cut {ts body n} found more := by
    induction ts generalizing level n body with
    | nil => simp [scanBlock] at found
    | cons t ts ih =>
      have further {level : Nat} (deeper : (scanBlock level ts).map
          (fun found => (t :: found.1, found.2 + 1)) = some (body, n)) :
          ∃ m, n = m + 1 ∧ (scanBlock level (ts.take m ++ more)).map
            (fun found => (t :: found.1, found.2 + 1)) = some (body, n) := by
        obtain ⟨⟨inner, m⟩, here, last⟩ := Option.map_eq_some_iff.mp deeper
        cases last
        exact ⟨m, rfl, by rw [ih level here]; rfl⟩
      suffices again : ∃ m, n = m + 1 ∧
          scanBlock level (t :: (ts.take m ++ more)) = some (body, n) by
        obtain ⟨m, rfl, cut⟩ := again
        exact cut
      unfold scanBlock at found ⊢
      dsimp only at found ⊢
      split at found
      · contradiction
      · rename_i solid
        simp only [if_neg solid]
        split at found
        · rename_i opens
          simp only [if_pos opens]
          exact further found
        · rename_i plain
          simp only [if_neg plain]
          split at found
          · rename_i closes
            simp only [if_pos closes]
            cases level with
            | zero =>
              cases found
              exact ⟨0, rfl, rfl⟩
            | succ level => exact further found
          · rename_i inner
            simp only [if_neg inner]
            exact further found

theorem scanListCut (stop : String) (closers : List String) (arg : List Token) :
    Cuts (scanList stop closers arg) where
  solid found := (scanListTakes found).1
  cut {ts args n} found more := by
    induction ts generalizing closers arg args n with
    | nil => simp [scanList] at found
    | cons t ts ih =>
      have further {closers : List String} {arg : List Token}
          (add : List (List Token) → List (List Token)) (deeper : (scanList stop closers arg ts).map
            (fun found => (add found.1, found.2 + 1)) = some (args, n)) :
          ∃ m, n = m + 1 ∧ (scanList stop closers arg (ts.take m ++ more)).map
            (fun found => (add found.1, found.2 + 1)) = some (args, n) := by
        obtain ⟨⟨inner, m⟩, here, last⟩ := Option.map_eq_some_iff.mp deeper
        cases last
        exact ⟨m, rfl, by rw [ih closers arg here]; rfl⟩
      suffices again : ∃ m, n = m + 1 ∧
          scanList stop closers arg (t :: (ts.take m ++ more)) = some (args, n) by
        obtain ⟨m, rfl, cut⟩ := again
        exact cut
      unfold scanList at found ⊢
      dsimp only at found ⊢
      split at found
      · contradiction
      rename_i solid
      simp only [if_neg solid]
      split at found
      · rename_i isOp
        simp only [if_pos isOp]
        split at found
        · rename_i stops
          simp only [if_pos stops]
          cases found
          exact ⟨0, rfl, rfl⟩
        rename_i goesOn
        simp only [if_neg goesOn]
        split at found
        · rename_i comma
          simp only [if_pos comma]
          exact further (_ :: ·) found
        rename_i inner
        simp only [if_neg inner]
        split at found
        · exact further id found
        · split at found
          · rename_i closes
            simp only [if_pos closes]
            exact further id found
          · rename_i other
            simp only [if_neg other]
            exact further id found
      · rename_i other
        simp only [if_neg other]
        exact further id found

theorem tookNear (ts : List Token) : Near left (modify (took ts)) where
  stays passed := (Cursor.sharesDrop ts.length).stays passed
  agrees := by
    rintro r _ ⟨cursor, shares, rfl⟩
    rcases (Cursor.sharesDrop ts.length).agrees shares with passed | ⟨-, after⟩
    · exact .inl passed
    · exact .inr ⟨rfl, _, after, rfl⟩

theorem peekNear : Near left peek where
  stays passed := by
    rw [peekRuns]
    exact Cursor.sharesPeek.stays passed
  agrees := by
    rintro r _ ⟨cursor, shares, rfl⟩
    rw [peekRuns, peekRuns]
    rcases Cursor.sharesPeek.agrees shares with passed | ⟨same, after⟩
    · exact .inl passed
    · exact .inr ⟨by simp only [same, endToken], _, after, rfl⟩

theorem peekLooks (positive : 0 < left) : Looks left peek := by
  intro r edge
  rw [peekRuns]
  exact Cursor.peekPasses positive edge

/- All tokens at hand satisfy the condition: then the next one has to be looked at. -/
theorem whilePasses (positive : 0 < left) {p : Token → Bool} {g : List Token → ReaderM α}
    {r : Reader} {front back : List Token} (later : ∀ ts, Near left (g ts))
    (looks : ∀ ts, Looks left (g ts)) (ahead : r.cursor.ahead = front ++ back)
    (length : back.length = left) (all : ∀ t ∈ front, p t = true) :
    Gone (Cursor.Passed left) ((takeWhile p >>= g).run.run r).2 := by
  have taken : r.cursor.ahead.takeWhile p = front ++ back.takeWhile p := by
    rw [ahead, List.takeWhile_append_of_pos all]
  rw [whileRuns, taken]
  rcases Cursor.dropBeyond positive ahead length (back.takeWhile p) with passed | ⟨-, edge⟩
  · exact (later _).stays passed
  · exact looks _ _ edge

theorem whileNear {p : Token → Bool} {g : List Token → ReaderM α}
    (later : ∀ ts, Near left (g ts)) (looks : 0 < left → ∀ ts, Looks left (g ts)) :
    Near left (takeWhile p >>= g) where
  stays passed := by
    rw [whileRuns]
    exact (later _).stays ((tookNear _).stays passed)
  agrees := by
    rintro r _ ⟨cursor, shares, rfl⟩
    have both (ts : List Token) : Near left (modify (took ts) >>= fun _ => g ts) :=
      Parallel.bind (tookNear ts) fun _ => later ts
    rw [whileRuns, whileRuns]
    rcases Nat.eq_zero_or_pos left with rfl | positive
    · rw [(Cursor.sharesWhole.mp shares).1]
      exact (both _).agrees ⟨cursor, shares, rfl⟩
    obtain ⟨front, back, back', ahead, length, ahead', -⟩ := id shares
    by_cases all : ∀ t ∈ front, p t = true
    · have passed := whilePasses positive later (looks positive) ahead length all
      rw [whileRuns] at passed
      exact .inl passed
    · have inside (back : List Token) : (front ++ back).takeWhile p = front.takeWhile p := by
        rw [List.takeWhile_append, if_neg]
        intro whole
        exact all (List.all_eq_true.mp ((List.takeWhile_prefix p).eq_of_length whole ▸
          List.all_takeWhile))
      rw [ahead, ahead', inside, inside]
      exact (both _).agrees ⟨cursor, shares, rfl⟩

theorem skipBlankNear : Near left skipBlank :=
  whileNear (fun _ => peekNear) fun positive _ => peekLooks positive

theorem nextNear : Near left next := by
  refine Parallel.bind peekNear fun t => ?_
  split
  · exact Parallel.bind (tookNear _) fun _ => Parallel.answer _
  · exact Parallel.answer _

theorem ofKindNear (kind : Kind) (wanted : String) : Near left (ofKind kind wanted) := by
  refine Parallel.bind skipBlankNear fun _ => ?_
  refine Parallel.bind nextNear fun t => ?_
  split <;> exact Parallel.answer _

theorem nameNear : Near left name :=
  Parallel.bind (ofKindNear _ _) fun _ => Parallel.answer _

theorem expectingNear (expected : Expected) : Near left (expecting expected) := by
  refine Parallel.bind skipBlankNear fun _ => ?_
  refine Parallel.bind nextNear fun t => ?_
  split <;> exact Parallel.answer _

theorem moreNear (stop : String) : Near left (more stop) :=
  Parallel.bind peekNear (moreLater stop)

theorem uptoNear (stop : String) : Near left (upto stop) :=
  whileNear (fun _ => Parallel.bind (moreNear stop) fun _ => Parallel.answer _)
    fun positive _ =>
      looksBind (looksBind (peekLooks positive) (moreLater stop)) fun _ => Parallel.answer _

theorem lineNear : Near left line :=
  whileNear (fun _ => Parallel.bind peekNear fun _ => Parallel.answer _)
    fun positive _ => looksBind (peekLooks positive) fun _ => Parallel.answer _

theorem namesFromNear (stop : String) (turns : Nat) (names : List String) :
    Near left (namesFrom stop turns names) := by
  induction turns generalizing names with
  | zero => exact Parallel.answer _
  | succ turns ih =>
    refine Parallel.bind nameNear fun found => ?_
    refine Parallel.bind skipBlankNear fun t => ?_
    split
    · exact Parallel.answer _
    · refine Parallel.bind (moreNear stop) fun _ => ?_
      exact Parallel.bind (expectingNear _) fun _ => ih _

theorem namesNear (stop : String) : Near left (names stop) := by
  refine Parallel.bind skipBlankNear fun t => ?_
  split
  · exact Parallel.answer _
  · constructor
    · exact fun passed => (namesFromNear stop _ []).stays passed
    · intro r r' alike
      let turns := max r.cursor.size r'.cursor.size
      have grown (r : Reader) (within : r.cursor.size ≤ turns) :
          (namesFrom stop r.cursor.size []).run.run r = (namesFrom stop turns []).run.run r := by
        have same := turnsEnough stop [] r.cursor.aheadSize (turns - r.cursor.size)
        rw [← same, Nat.add_sub_cancel' within]
      rw [runBind, runBind, runGet, runGet]
      dsimp only
      rw [grown r (by omega), grown r' (by omega)]
      exact (namesFromNear stop turns []).agrees alike

theorem throughNear (stop : String) {scan : List Token → Option (α × Nat)} (cuts : Cuts scan) :
    Near left (through stop scan) := by
  have later (_ : List Token) : Near left (peek >>= missing stop : ReaderM α) :=
    Parallel.bind peekNear (missingNear stop)
  have looks (positive : 0 < left) (_ : List Token) :
      Looks left (peek >>= missing stop : ReaderM α) :=
    looksBind (peekLooks positive) (missingNear stop)
  constructor
  · intro r passed
    rw [throughRuns]
    rcases scan r.cursor.ahead with _ | ⟨a, n⟩
    · exact (whileNear later looks).stays passed
    · exact (tookNear _).stays passed
  · rintro r _ ⟨cursor, shares, rfl⟩
    have took (ts : List Token) (a : α) : Near left (modify (took ts) >>= fun _ => pure a) :=
      Parallel.bind (tookNear _) fun _ => Parallel.answer _
    rcases Nat.eq_zero_or_pos left with rfl | positive
    · rw [throughRuns, throughRuns, (Cursor.sharesWhole.mp shares).1]
      rcases scan r.cursor.ahead with _ | ⟨a, n⟩
      · exact (whileNear later looks).agrees ⟨cursor, shares, rfl⟩
      · exact (took _ a).agrees ⟨cursor, shares, rfl⟩
    obtain ⟨front, back, back', ahead, length, ahead', pulled, within⟩ := id shares
    rw [throughRuns, throughRuns, ahead, ahead']
    cases found : scan (front ++ back) with
    | some result =>
      obtain ⟨a, n⟩ := result
      by_cases few : n ≤ front.length
      · rw [cutsWithin cuts found few]
        dsimp only
        rw [List.take_append_of_le_length few, List.take_append_of_le_length few]
        exact (took _ a).agrees ⟨cursor, shares, rfl⟩
      · exact .inl (Cursor.dropThrough positive ahead length (Nat.lt_of_not_le few))
    | none =>
      cases found' : scan (front ++ back') with
      | none => exact (whileNear later looks).agrees ⟨cursor, shares, rfl⟩
      | some result =>
        obtain ⟨a, n⟩ := result
        have many : ¬ n ≤ front.length := by
          intro few
          cases (cutsWithin cuts found' few back).symm.trans found
        refine .inl (whilePasses positive later (looks positive) ahead length fun t member => ?_)
        refine decide_eq_true (cuts.solid found' t ?_)
        rw [List.take_append, List.take_of_length_le (Nat.le_of_not_le many)]
        exact List.mem_append_left _ member

theorem listNear (stop : String) : Near left (list stop) :=
  Parallel.ofSame (listRuns stop) (throughNear stop (scanListCut stop [] []))

theorem performNear (op : Op) : Near left (perform op) := by
  cases op with
  | peek => exact peekNear
  | next => exact nextNear
  | skipBlank => exact skipBlankNear
  | name => exact nameNear
  | number => exact Parallel.bind (ofKindNear _ _) fun _ => Parallel.answer _
  | string => exact Parallel.bind (ofKindNear _ _) fun _ => Parallel.answer _
  | expecting expected => exact expectingNear expected
  | names stop => exact namesNear stop
  | list stop => exact listNear stop
  | upto stop => exact uptoNear stop
  | line => exact lineNear
  | block => exact Parallel.ofSame blockRuns (throughNear "end" (scanBlockCut 0))

theorem argumentsNear (d : Definition) (params : List String) (t : Token) :
    Near left (d.readArguments params t) := by
  refine Parallel.bind skipBlankNear fun first => ?_
  dsimp only
  split
  · exact Parallel.answer _
  · refine Parallel.bind nextNear fun _ => ?_
    refine Parallel.bind (listNear ")") fun args => ?_
    generalize (if args = [[]] ∧ params = [] then [] else args) = args
    split <;> exact Parallel.answer _

end Reader

theorem lookahead (left : Nat) : Likeness (Cursor.Shares left) (Cursor.Passed left) where
  next := Cursor.sharesNext
  peek := Cursor.sharesPeek
  prepend := Cursor.sharesPrepend
  number := Cursor.sharesNumber
  find := Registry.findParallel
  read := Reader.performNear
  arguments := Reader.argumentsNear

/-! Lexers -/

namespace Lexer

/- What a lexer answers to one request after another. -/
def answers : List Op → Lexer → List (Except Error Answer)
  | [], _ => []
  | op :: ops, l => (l.perform op).1 :: answers ops (l.perform op).2

/- The same with all tokens of the main text in a list, and the error after them, and with every
other text lexed on its own. -/
def listed : List Op → List Token → Option Error → List (Except Error Answer)
  | [], _, _ => []
  | .tokens text :: ops, _, _ => .ok .begun :: listed ops (lex text).stream (lex text).failure
  | .parse text line :: ops, ts, failure =>
    (parseTokens text line).map .parsed :: listed ops ts failure
  | .next :: ops, t :: ts, failure => .ok (.token (some t)) :: listed ops ts failure
  | .next :: ops, [], some e => .error e :: listed ops [] none
  | .next :: ops, [], none => .ok (.token none) :: listed ops [] none

/- Whatever a clone was used for, the text is lexed from its beginning. -/
theorem cloneParses (clone : Lexing) (text : String) (line : Line) :
    (clone.input text).all.1.map (Tokens.onLine line) = parseTokens text line := by
  rw [Lexing.all, Lexing.allFromLexes (Nat.le_refl _), parseTokens]
  dsimp only [Lexing.input, lex]
  cases (lexFrom 0 1 text.toList).failure <;> rfl

theorem parseAside (text : String) (line : Line) (l : Lexer) :
    (l.parse text line).1 = parseTokens text line ∧ (l.parse text line).2.main = l.main := by
  unfold parse
  cases l.clones with
  | nil => exact ⟨cloneParses l.main.lexing text line, rfl⟩
  | cons clone others => exact ⟨cloneParses clone text line, rfl⟩

theorem answersListed (ops : List Op) (l : Lexer) :
    answers ops l = listed ops l.main.ahead l.main.failure := by
  induction ops generalizing l with
  | nil => rfl
  | cons op ops ih =>
    rw [answers, ih]
    cases op with
    | tokens text => rfl
    | parse text line =>
      obtain ⟨parsed, main⟩ := parseAside text line l
      rw [perform, listed, parsed, main]
    | next =>
      have outcome := l.main.drawn
      dsimp only [perform, next]
      generalize l.main.draw = result at outcome
      cases outcome with
      | token ahead failure =>
        rw [ahead, failure]
        rfl
      | none ahead failure =>
        rw [ahead, failure]
        rfl
      | error ahead failure none spent =>
        rw [ahead, failure, none, spent]
        rfl

end Lexer

namespace Session

variable {steps left : Nat} {source other : Source} {unitName : Option String} {s : Session}

/- How many tokens of its source a unit has drawn. -/
def drawn (steps : Nat) (source : Source) (unitName : Option String) (s : Session) : Nat :=
  source.cursor.ahead.length - (Scan.unit steps (s.unitStart source unitName)).2.cursor.undrawn

theorem sourcePending (source : Source) : source.cursor.pending = [] := by
  cases source <;> rfl

theorem failUnitLexer (e : Error) (line : Nat) (s : Session) :
    failUnit e { s with lexerLine := line } = { s.failUnit e with lexerLine := line } := by
  unfold failUnit logText
  dsimp only
  split <;> rfl

/- The units end alike; the lexer may stand elsewhere. -/
def EndAlike (ended ended' : Except Stop (List Token) × Session) : Prop :=
  ended'.1 = ended.1 ∧ ∃ line, ended'.2 = { ended.2 with lexerLine := line }

theorem closeUnitAgain (answer : Except Stop (List Token)) {scan scan' : Scan}
    (same : scan'.session = scan.session) :
    EndAlike (closeUnit answer scan) (closeUnit answer scan') := by
  unfold closeUnit
  dsimp only
  rw [same]
  rcases answer with ((e | f) | _) | ts
  · dsimp only
    simp only [failUnitLexer]
    exact ⟨rfl, _, rfl⟩
  · exact ⟨rfl, _, rfl⟩
  · exact ⟨rfl, _, rfl⟩
  · exact ⟨rfl, _, rfl⟩

/- Units on sources that share what the one draws. -/
theorem unitShares (titles : other.title unitName = source.title unitName)
    (shares : Cursor.Shares left source.cursor other.cursor)
    (within : ¬ Cursor.Passed left (Scan.unit steps (s.unitStart source unitName)).2.cursor) :
    EndAlike (s.expandUnit steps source unitName) (s.expandUnit steps other unitName) := by
  by_cases admits : s.Admits source unitName
  · have admitted : s.Admits other unitName := by rwa [Admits, titles]
    have starts : (s.unitStart source unitName).Alike True (Cursor.Shares left)
        (s.unitStart other unitName) :=
      ⟨_, other.cursor, .refl _, shares, by rw [unitStart, titles]; rfl⟩
    obtain ⟨answers, session, cursor, like, -, after⟩ :=
      ((Scan.unitParallel (lookahead left) steps).agrees starts).resolve_left within
    rw [expandUnitAdmitted admits, expandUnitAdmitted admitted, answers]
    exact closeUnitAgain _ (by rw [after]; exact like.same trivial)
  · have refused : ¬ s.Admits other unitName := by rwa [Admits, titles]
    rw [expandUnitRefused admits, expandUnitRefused refused, titles]
    exact ⟨rfl, _, rfl⟩

theorem unitIgnoresUndrawn (titles : other.title unitName = source.title unitName)
    (more : s.drawn steps source unitName < source.cursor.ahead.length)
    (same : other.cursor.ahead.take (s.drawn steps source unitName) =
      source.cursor.ahead.take (s.drawn steps source unitName)) :
    EndAlike (s.expandUnit steps source unitName) (s.expandUnit steps other unitName) := by
  have shares : Cursor.Shares (source.cursor.ahead.length - s.drawn steps source unitName)
      source.cursor other.cursor := by
    refine ⟨source.cursor.ahead.take (s.drawn steps source unitName), _,
      other.cursor.ahead.drop (s.drawn steps source unitName),
      (List.take_append_drop _ _).symm, List.length_drop, ?_, ?_, ?_, ?_⟩
    · rw [← same, List.take_append_drop]
    · rw [sourcePending, sourcePending]
    · rw [sourcePending]
      exact Nat.zero_le _
    · omega
  refine unitShares titles shares ?_
  simp only [Cursor.Passed, drawn] at more ⊢
  omega

theorem unitEagerAsLazy {text : String} {ts : List Token}
    (complete : (Cursor.ofText text).rest.1 = .ok ts) (steps : Nat) (unitName : Option String)
    (s : Session) :
    EndAlike (s.expandUnit steps (.text text) unitName)
      (s.expandUnit steps (.tokens ts) unitName) ∧
    (∀ other : Source, other.title unitName = (Source.text text).title unitName →
      s.drawn steps (.text text) unitName < ts.length →
      other.cursor.ahead.take (s.drawn steps (.text text) unitName) =
        ts.take (s.drawn steps (.text text) unitName) →
      EndAlike (s.expandUnit steps (.text text) unitName)
        (s.expandUnit steps other unitName)) ∧
    ∀ ops lexer, Lexer.answers ops lexer = Lexer.listed ops lexer.main.ahead lexer.main.failure := by
  obtain ⟨finished, rfl⟩ :
      (Cursor.ofText text).failure = none ∧ (Cursor.ofText text).ahead = ts := by
    rw [Cursor.restAhead] at complete
    cases failure : (Cursor.ofText text).failure with
    | some e =>
      rw [failure] at complete
      cases complete
    | none =>
      rw [failure] at complete
      exact ⟨rfl, Except.ok.inj complete⟩
  refine ⟨?_, fun other titles more same => unitIgnoresUndrawn titles more same,
    Lexer.answersListed⟩
  -- No token is left out, so that no draw goes too far.
  exact unitShares rfl (Cursor.sharesWhole.mpr ⟨rfl, rfl, finished.symm⟩) (Nat.not_lt_zero _)

-- The unit fails at its first token. What comes after a blank cannot be lexed in the other text.
theorem unitEagerAsLazyOfBadRest :
    let s : Session := {}
    let lazy := s.expandUnit 5 (.text "end x") none
    let ts := (Lexer.lex "end x").stream
    (Cursor.ofText "end x").rest.1 = .ok ts ∧ (Lexer.lex "end \"").failure ≠ none ∧
      EndAlike lazy (s.expandUnit 5 (.tokens ts) none) ∧
      EndAlike lazy (s.expandUnit 5 (.text "end \"") none) := by
  intro s lazy ts
  have complete : (Cursor.ofText "end x").rest.1 = .ok ts := by decide +kernel
  have bad : (Lexer.lex "end \"").failure ≠ none := by decide +kernel
  have more : s.drawn 5 (.text "end x") none < ts.length := by decide +kernel
  have same : (Source.text "end \"").cursor.ahead.take (s.drawn 5 (.text "end x") none) =
      ts.take (s.drawn 5 (.text "end x") none) := by
    decide +kernel
  obtain ⟨first, second, -⟩ := unitEagerAsLazy complete 5 none s
  exact ⟨complete, bad, first, second _ rfl more same⟩

end Session

end LuaExpander
