import LuaExpander.Proofs.Heading
import LuaExpander.Proofs.Lookahead

/-! Reading that comes to the end of the input. Names, arguments, the tokens up to a given one and
the rest of a block all end with something that is looked for. If it is not there, all tokens are
taken and the end is not. What is missing is then what was looked for, except among names: where a
name is due, the end is a wrong token. -/
namespace LuaExpander

namespace Reader

/- The tokens before the end of the input, and the value of the end as it is seen. -/
structure RunsOut (r : Reader) (body : List Token) (value : String) : Prop where
  solid : ∀ t ∈ body, t.kind ≠ .eof
  seen : (∃ last rest, r.cursor.ahead = body ++ last :: rest ∧ last.kind = .eof ∧
      last.value = value) ∨
    r.cursor.ahead = body ∧ r.cursor.failure = none ∧ value = ""

/- What an operation looks for. -/
def Op.stop? : Op → Option String
  | .names stop | .list stop | .upto stop => some stop
  | .block => some "end"
  | _ => none

/- Names between commas up to the end of the input, which has the given value. A name is `due` at
the beginning and after a comma. -/
inductive Enumerates (stop value : String) : Bool → List Token → Prop where
  | due : Enumerates stop value true []
  | named {t after} (isName : t.kind = .iden) (blankAfter : ∀ b ∈ after, b.kind.isBlank = true)
      (other : value ≠ stop) : Enumerates stop value false (t :: after)
  | more {due t after comma blanks rest} (isName : t.kind = .iden)
      (blankAfter : ∀ b ∈ after, b.kind.isBlank = true) (solid : comma.kind.isBlank = false)
      (isComma : comma.value = ",") (other : "," ≠ stop)
      (blank : ∀ b ∈ blanks, b.kind.isBlank = true) (later : Enumerates stop value due rest) :
      Enumerates stop value due (t :: (after ++ comma :: (blanks ++ rest)))

/- The value of the first token, which may be the end. -/
def firstValue (value : String) (ts : List Token) : String :=
  (ts.head?.map (·.value)).getD value

/- The brackets still to be closed, the innermost first. -/
def pend (closers : List String) (t : Token) : List String :=
  if t.kind = .op then
    match closerOf? t.value with
    | some closer => closer :: closers
    | none => if closers.head? = some t.value then closers.tail else closers
  else closers

/- The operation comes to the end of the input, which has the given value, before it has found what
it looks for. -/
inductive Unstopped (value : String) : Op → Bool → List Token → Prop where
  | names {stop due blanks ts} (blank : ∀ b ∈ blanks, b.kind.isBlank = true)
      (other : firstValue value ts ≠ stop) (enumerates : Enumerates stop value due ts) :
      Unstopped value (.names stop) due (blanks ++ ts)
  | list {stop body} (inside : ∀ front t rest, body = front ++ t :: rest → t.kind = .op →
      t.value = stop → front.foldl pend [] ≠ []) : Unstopped value (.list stop) false body
  | upto {stop body} (other : ∀ t ∈ body, t.value ≠ stop) : Unstopped value (.upto stop) false body
  | block {body} (above : Tokens.NeverBelow body) : Unstopped value .block false body

section

variable {r r' : Reader} {front body blanks rest : List Token} {value stop : String} {t : Token}

theorem RunsOut.behind (ends : RunsOut r body value) : ∃ tail, r.cursor.ahead = body ++ tail := by
  rcases ends.seen with ⟨last, rest, ahead, -⟩ | ⟨ahead, -⟩
  · exact ⟨last :: rest, ahead⟩
  · exact ⟨[], by rw [ahead, List.append_nil]⟩

theorem runsOutAfter (ends : RunsOut r (front ++ body) value) (took : Took front r r') :
    RunsOut r' body value where
  solid t member := ends.solid t (List.mem_append_right _ member)
  seen := by
    rcases ends.seen with ⟨last, rest, ahead, isEnd⟩ | ⟨ahead, finished, isEmpty⟩
    · rw [List.append_assoc] at ahead
      exact .inl ⟨last, rest, tookLeaves took ahead, isEnd⟩
    · exact .inr ⟨tookLeaves took ahead, took.failure.trans finished, isEmpty⟩

theorem runsOutNow (ends : RunsOut r body value) (took : Took body r r') :
    RunsOut r' [] value :=
  runsOutAfter (by rwa [List.append_nil]) took

theorem peekEnds (ends : RunsOut r [] value) :
    ∃ last r', peek.run.run r = (.ok last, r') ∧ last.kind = .eof ∧ last.value = value ∧
      Took [] r r' := by
  rcases ends.seen with ⟨last, rest, ahead, isEnd, isValue⟩ | ⟨ahead, finished, isEmpty⟩
  · obtain ⟨cursor, looked, still, failure⟩ := peekHead ahead
    exact ⟨last, _, looked, isEnd, isValue, tookNone (still.trans ahead.symm) failure⟩
  · exact ⟨_, r, peekEnd ahead finished, rfl, isEmpty.symm, tookNone rfl rfl⟩

theorem whileBefore (ends : RunsOut r body value) {p : Token → Bool}
    (noEnd : ∀ t, p t = true → t.kind ≠ .eof) :
    r.cursor.ahead.takeWhile p = body.takeWhile p := by
  rcases ends.seen with ⟨last, rest, ahead, isEnd, -⟩ | ⟨ahead, -⟩
  · have stops : p last = false := by
      cases holds : p last with
      | false => rfl
      | true => exact absurd isEnd (noEnd last holds)
    rw [ahead, List.takeWhile_append]
    split
    · rename_i all
      rw [List.takeWhile_cons_of_neg (by simp [stops]), List.append_nil,
        (List.takeWhile_prefix p).eq_of_length all]
    · rfl
  · rw [ahead]

/- Taking tokens that go on to the end. -/
theorem whileEnds (ends : RunsOut r body value) {p : Token → Bool}
    (noEnd : ∀ t, p t = true → t.kind ≠ .eof) (all : ∀ t ∈ body, p t = true) :
    r.cursor.ahead.takeWhile p = body ∧ Took body r (r.took body) ∧
      RunsOut (r.took body) [] value := by
  obtain ⟨tail, ahead⟩ := ends.behind
  have took := tookFront ahead ends.solid
  refine ⟨?_, took, runsOutNow ends took⟩
  rw [whileBefore ends noEnd, List.takeWhile_eq_self_iff]
  exact all

theorem skipBlankEnds (ends : RunsOut r blanks value)
    (blank : ∀ b ∈ blanks, b.kind.isBlank = true) :
    ∃ last r', skipBlank.run.run r = (.ok last, r') ∧ last.kind = .eof ∧ last.value = value ∧
      Took blanks r r' := by
  obtain ⟨taken, took, left⟩ := @whileEnds _ _ _ ends (·.kind.isBlank) (by
    intro t isBlank isEnd
    simp [isEnd, Kind.isBlank] at isBlank) blank
  obtain ⟨last, r', looked, isEnd, isValue, none⟩ := peekEnds left
  refine ⟨last, r', ?_, isEnd, isValue, by simpa using took.trans none⟩
  rw [skipBlank, whileRuns, taken]
  exact looked

theorem nextEnds (ends : RunsOut r [] value) :
    ∃ last r', next.run.run r = (.ok last, r') ∧ last.kind = .eof ∧ last.value = value ∧
      Took [] r r' := by
  obtain ⟨last, r', looked, isEnd, isValue, none⟩ := peekEnds ends
  refine ⟨last, r', ?_, isEnd, isValue, none⟩
  rw [next, runBind, looked]
  dsimp only
  rw [if_neg (not_not_intro isEnd)]
  rfl

theorem nameFails {u : Token} {between : Reader} (skipped : skipBlank.run.run r = (.ok u, between))
    (taken : next.run.run between = (.ok t, r')) (noName : t.kind ≠ .iden) :
    name.run.run r = (.error (.error (.atToken (.wrongToken "a name" t.value) t)), r') := by
  rw [name, runBind, ofKind, runBind, skipped]
  dsimp only
  rw [runBind, taken]
  dsimp only
  rw [if_neg noName]
  rfl

theorem nameEnds (ends : RunsOut r blanks value) (blank : ∀ b ∈ blanks, b.kind.isBlank = true) :
    ∃ e r', name.run.run r = (.error (.error e), r') ∧
      e.cause = .wrongToken "a name" value ∧ Took blanks r r' := by
  obtain ⟨_, between, skipped, -, -, one⟩ := skipBlankEnds ends blank
  obtain ⟨last, r', looked, isEnd, rfl, none⟩ := nextEnds (runsOutNow ends one)
  exact ⟨_, r', nameFails skipped looked (by simp [isEnd]), rfl, by simpa using one.trans none⟩

theorem missingEnds {α : Type} (last : Token) :
    ∃ e, (missing stop last : ReaderM α).run.run r = (.error (.error e), r) ∧
      e.cause = .missingStop stop :=
  ⟨_, rfl, rfl⟩

theorem moreEnds (ends : RunsOut r [] value) :
    ∃ e r', (more stop).run.run r = (.error (.error e), r') ∧ e.cause = .missingStop stop ∧
      Took [] r r' := by
  obtain ⟨last, r', looked, isEnd, -, none⟩ := peekEnds ends
  obtain ⟨e, failed, isCause⟩ := @missingEnds r' stop Token last
  refine ⟨e, r', ?_, isCause, none⟩
  rw [more, runBind, looked]
  dsimp only
  rw [if_pos isEnd, failed]

/- The operation succeeds, or fails at a token before the end, which it has taken. -/
def Settles {α : Type} (x : ReaderM α) (r : Reader) (body : List Token) : Prop :=
  (∃ a r', x.run.run r = (.ok a, r')) ∨
    ∃ e r' front t, x.run.run r = (.error (.error e), r') ∧ e.line = t.line ∧
      front ++ [t] <+: body ∧ Took (front ++ [t]) r r'

theorem settlesAfter {α : Type} {x y : ReaderM α}
    (ran : x.run.run r = y.run.run r') (took : Took front r r') (settles : Settles y r' body) :
    Settles x r (front ++ body) := by
  rcases settles with ⟨a, r'', later⟩ | ⟨e, r'', more, t, failed, line, isFront, tookMore⟩
  · exact .inl ⟨a, r'', ran.trans later⟩
  · refine .inr ⟨e, r'', front ++ more, t, ran.trans failed, line, ?_, ?_⟩
    · rw [List.append_assoc]
      exact (List.prefix_append_right_inj front).mpr isFront
    · rw [List.append_assoc]
      exact took.trans tookMore

theorem nameRefuses (ahead : r.cursor.ahead = blanks ++ t :: rest)
    (blank : ∀ u ∈ blanks, u.kind.isBlank = true) (solid : t.kind.isSolid = true)
    (noName : t.kind ≠ .iden) :
    ∃ e r', name.run.run r = (.error (.error e), r') ∧ e.line = t.line ∧
      Took (blanks ++ [t]) r r' := by
  obtain ⟨between, r', skipped, taken, took⟩ := solidReads ahead blank solid
  exact ⟨_, r', nameFails skipped taken noName, rfl, took⟩

theorem commaRefuses (ahead : r.cursor.ahead = t :: rest) (solid : t.kind.isSolid = true)
    (other : t.value ≠ ",") :
    ∃ e r', (expecting (.text ",")).run.run r = (.error (.error e), r') ∧ e.line = t.line ∧
      Took [t] r r' := by
  obtain ⟨skipped, r', hs, hn, took⟩ := @solidReads r t [] rest ahead (by simp) solid
  refine ⟨.atToken (.missingToken (.text ",") t.value) t, r', ?_, rfl, took⟩
  rw [expecting, runBind, hs]
  dsimp only
  rw [runBind, hn]
  dsimp only
  rw [if_neg (by simpa [Expected.meets] using other)]
  rfl

theorem blankSplit (body : List Token) :
    ∃ blanks rest, body = blanks ++ rest ∧ (∀ b ∈ blanks, b.kind.isBlank = true) ∧
      ∀ t ∈ rest.head?, t.kind.isBlank = false := by
  refine ⟨_, _, List.takeWhile_append_dropWhile.symm,
    List.all_eq_true.mp (@List.all_takeWhile _ (·.kind.isBlank) body), ?_⟩
  intro t isNext
  have head := List.head?_dropWhile_not (fun t : Token => t.kind.isBlank) body
  rw [Option.mem_def.mp isNext] at head
  exact head

theorem solidOf (noBlank : t.kind.isBlank = false) (noEnd : t.kind ≠ .eof) :
    t.kind.isSolid = true := by
  revert noBlank noEnd
  cases t.kind <;> simp [Kind.isSolid, Kind.isBlank]

section

variable {after : List Token} (blank : ∀ b ∈ blanks, b.kind.isBlank = true)
  (isName : t.kind = .iden) (blankAfter : ∀ b ∈ after, b.kind.isBlank = true)
include blank isName blankAfter

/- A turn behind whose name the input ends. -/
theorem namesFromLast (ends : RunsOut r (blanks ++ t :: after) value) (turns : Nat)
    (names : List String) :
    ∃ r', (namesFrom stop (turns + 1) names).run.run r = (if value = stop then
          return (t.value :: names).reverse
        else do
          let _ ← more stop
          let _ ← expecting (.text ",")
          namesFrom stop turns (t.value :: names)).run.run r' ∧
      Took (blanks ++ t :: after) r r' := by
  obtain ⟨tail, ahead⟩ := ends.behind
  have split : r.cursor.ahead = blanks ++ t :: (after ++ tail) := by simp [ahead]
  obtain ⟨between, read, one⟩ := nameReads split blank isName
  have left : RunsOut between after value := runsOutAfter (by simpa using ends) one
  obtain ⟨last, r', skipped, isEnd, rfl, two⟩ := skipBlankEnds left blankAfter
  refine ⟨r', ?_, by simpa using one.trans two⟩
  rw [namesFrom, runBind, read]
  dsimp only
  rw [runBind, skipped]

/- A turn behind whose name there is a comma. -/
theorem namesFromComma {comma : Token}
    (ends : RunsOut r (blanks ++ t :: (after ++ comma :: rest)) value)
    (solid : comma.kind.isBlank = false) (isComma : comma.value = ",") (other : "," ≠ stop)
    (turns : Nat) (names : List String) :
    ∃ r', (namesFrom stop (turns + 1) names).run.run r =
        (namesFrom stop turns (t.value :: names)).run.run r' ∧
      Took (blanks ++ t :: (after ++ [comma])) r r' := by
  obtain ⟨tail, ahead⟩ := ends.behind
  have split : r.cursor.ahead = blanks ++ t :: (after ++ comma :: (rest ++ tail)) := by simp [ahead]
  have noEnd : comma.kind ≠ .eof := ends.solid comma (by simp)
  obtain ⟨r₁, ran, left₁, one⟩ := namesFromTurn split blank isName blankAfter solid stop turns names
  obtain ⟨r₂, looked, left₂, two⟩ := moreReads left₁ noEnd stop
  obtain ⟨r₃, taken, three⟩ := @expectingReads r₂ comma [] (rest ++ tail) left₂ (by simp)
    (solidOf solid noEnd) (.text ",") (by simp [Expected.meets, isComma])
  refine ⟨r₃, ?_, by simpa using (one.trans two).trans three⟩
  rw [ran, if_neg (by rwa [isComma]), runBind, looked]
  dsimp only
  rw [runBind, taken]

/- A turn that does not bring the next one, because there is neither a comma nor the end. -/
theorem namesFromStays {u : Token} (ends : RunsOut r (blanks ++ t :: (after ++ u :: rest)) value)
    (solid : u.kind.isBlank = false) (other : u.value = stop ∨ u.value ≠ ",") (turns : Nat)
    (names : List String) :
    Settles (namesFrom stop (turns + 1) names) r (blanks ++ t :: (after ++ u :: rest)) := by
  obtain ⟨tail, ahead⟩ := ends.behind
  have split : r.cursor.ahead = blanks ++ t :: (after ++ u :: (rest ++ tail)) := by simp [ahead]
  have noEnd : u.kind ≠ .eof := ends.solid u (by simp)
  obtain ⟨r₁, ran, left₁, one⟩ := namesFromTurn split blank isName blankAfter solid stop turns names
  by_cases found : u.value = stop
  · rw [if_pos found] at ran
    exact .inl ⟨_, r₁, ran.trans (runPure _ _)⟩
  · rw [if_neg found] at ran
    obtain ⟨r₂, looked, left₂, two⟩ := moreReads left₁ noEnd stop
    obtain ⟨e, r₃, failed, line, three⟩ :=
      commaRefuses left₂ (solidOf solid noEnd) (other.resolve_left found)
    refine .inr ⟨e, r₃, blanks ++ t :: after, u, ?_, line, ?_, ?_⟩
    · rw [ran, runBind, looked]
      dsimp only
      rw [runBind, failed]
    · exact ⟨rest, by simp⟩
    · simpa using (one.trans two).trans three

end

theorem namesFromEnds {due : Bool} (enumerates : Enumerates stop value due body) {turns : Nat}
    (enough : body.length < turns) (blank : ∀ b ∈ blanks, b.kind.isBlank = true)
    (ends : RunsOut r (blanks ++ body) value) (names : List String) :
    ∃ e r', (namesFrom stop turns names).run.run r = (.error (.error e), r') ∧
      e.cause = (if due then .wrongToken "a name" value else .missingStop stop) ∧
      Took (blanks ++ body) r r' := by
  obtain ⟨turns, rfl⟩ := Nat.exists_eq_succ_of_ne_zero (Nat.ne_zero_of_lt enough)
  -- The blanks in front are those behind the last comma, which the turn before has not taken.
  induction enumerates generalizing r turns names blanks with
  | due =>
    rw [List.append_nil] at ends ⊢
    obtain ⟨e, r', failed, isCause, took⟩ := nameEnds ends blank
    refine ⟨e, r', ?_, isCause, took⟩
    rw [namesFrom, runBind, failed]
  | named isName blankAfter other =>
    obtain ⟨between, ran, one⟩ := namesFromLast blank isName blankAfter ends turns names
    obtain ⟨e, r', failed, isCause, two⟩ := @moreEnds _ _ stop (runsOutNow ends one)
    refine ⟨e, r', ?_, isCause, by simpa using one.trans two⟩
    rw [ran, if_neg other, runBind, failed]
  | @more due t after comma between rest isName blankAfter solid isComma other blankNext later ih =>
    obtain ⟨r₁, ran, one⟩ :=
      namesFromComma blank isName blankAfter ends solid isComma other turns names
    simp only [List.length_append, List.length_cons] at enough
    obtain ⟨turns, rfl⟩ : ∃ fewer, turns = fewer + 1 := ⟨turns - 1, by omega⟩
    obtain ⟨e, r', failed, isCause, two⟩ := ih blankNext (runsOutAfter (by simpa using ends) one)
      (t.value :: names) turns (by omega)
    exact ⟨e, r', ran.trans failed, isCause, by simpa using one.trans two⟩

theorem namesFromSettles {turns : Nat} (enough : body.length < turns)
    (solid : ∀ t ∈ body.head?, t.kind.isBlank = false)
    (blank : ∀ b ∈ blanks, b.kind.isBlank = true) (ends : RunsOut r (blanks ++ body) value)
    (names : List String) :
    (∃ due, Enumerates stop value due body) ∨
      Settles (namesFrom stop turns names) r (blanks ++ body) := by
  -- A turn looks for a name and at what stands behind it; either may be the end instead.
  induction turns generalizing r blanks body names with
  | zero => omega
  | succ turns ih =>
    cases body with
    | nil => exact .inl ⟨true, .due⟩
    | cons t others =>
      by_cases noName : t.kind ≠ .iden
      · obtain ⟨tail, ahead⟩ := ends.behind
        rw [List.append_assoc, List.cons_append] at ahead
        obtain ⟨e, r', failed, line, took⟩ := nameRefuses ahead blank
          (solidOf (solid t rfl) (ends.solid t (by simp))) noName
        refine .inr (.inr ⟨e, r', blanks, t, ?_, line, ⟨others, by simp⟩, took⟩)
        rw [namesFrom, runBind, failed]
      rw [not_not] at noName
      obtain ⟨after, others, rfl, blankAfter, solid⟩ := blankSplit others
      cases others with
      | nil =>
        rw [List.append_nil] at ends ⊢
        by_cases found : value = stop
        · obtain ⟨r', ran, -⟩ :=
            @namesFromLast _ _ _ stop _ _ blank noName blankAfter ends turns names
          rw [if_pos found] at ran
          exact .inr (.inl ⟨_, r', ran.trans (runPure _ _)⟩)
        · exact .inl ⟨false, .named noName blankAfter found⟩
      | cons u others =>
        by_cases other : u.value = stop ∨ u.value ≠ ","
        · exact .inr (namesFromStays blank noName blankAfter ends (solid u rfl) other turns names)
        obtain ⟨noStop, isComma⟩ := not_or.mp other
        rw [not_not] at isComma
        have goesOn : "," ≠ stop := by rwa [← isComma]
        obtain ⟨r', ran, took⟩ := namesFromComma blank noName blankAfter ends (solid u rfl) isComma
          goesOn turns names
        obtain ⟨next, others, rfl, blankNext, solidNext⟩ := blankSplit others
        simp only [List.length_append, List.length_cons] at enough
        have left : RunsOut r' (next ++ others) value := runsOutAfter (by simpa using ends) took
        rcases ih (by omega) solidNext blankNext left (t.value :: names) with
          ⟨due, enumerates⟩ | settles
        · exact .inl ⟨due,
            .more noName blankAfter (solid u rfl) isComma goesOn blankNext enumerates⟩
        · have whole := settlesAfter ran took settles
          simp only [List.append_assoc, List.cons_append, List.nil_append] at whole
          exact .inr whole

theorem skipBlankSees (solid : ∀ t ∈ body.head?, t.kind.isBlank = false)
    (blank : ∀ b ∈ blanks, b.kind.isBlank = true) (ends : RunsOut r (blanks ++ body) value) :
    ∃ t r', skipBlank.run.run r = (.ok t, r') ∧ t.value = firstValue value body ∧
      Took blanks r r' := by
  cases body with
  | nil =>
    rw [List.append_nil] at ends
    obtain ⟨last, r', skipped, -, isValue, took⟩ := skipBlankEnds ends blank
    exact ⟨last, r', skipped, isValue, took⟩
  | cons t others =>
    obtain ⟨tail, ahead⟩ := ends.behind
    rw [List.append_assoc, List.cons_append] at ahead
    obtain ⟨r', skipped, -, took⟩ := blankSkips ahead blank (solid t rfl)
    exact ⟨t, r', skipped, rfl, took⟩

theorem enumeratesSolid {due : Bool} (enumerates : Enumerates stop value due body) :
    ∀ t ∈ body.head?, t.kind.isBlank = false := by
  cases enumerates with
  | due => simp
  | named isName => simp [isName, Kind.isBlank]
  | more isName => simp [isName, Kind.isBlank]

theorem namesBegin (solid : ∀ t ∈ body.head?, t.kind.isBlank = false)
    (blank : ∀ b ∈ blanks, b.kind.isBlank = true) (ends : RunsOut r (blanks ++ body) value)
    (other : firstValue value body ≠ stop) :
    ∃ r' turns, (names stop).run.run r = (namesFrom stop turns []).run.run r' ∧
      body.length < turns ∧ Took blanks r r' := by
  obtain ⟨t, r', skipped, isValue, took⟩ := skipBlankSees solid blank ends
  obtain ⟨tail, ahead⟩ := (runsOutAfter ends took).behind
  refine ⟨r', r'.cursor.size, ?_, ?_, took⟩
  · rw [names, runBind, skipped]
    dsimp only
    rw [if_neg (by rwa [isValue]), runBind, runGet]
  · have fits := r'.cursor.aheadSize
    simp only [ahead, List.length_append] at fits
    omega

theorem namesEnds {due : Bool} (blank : ∀ b ∈ blanks, b.kind.isBlank = true)
    (other : firstValue value body ≠ stop) (enumerates : Enumerates stop value due body)
    (ends : RunsOut r (blanks ++ body) value) :
    ∃ e r', (names stop).run.run r = (.error (.error e), r') ∧
      e.cause = (if due then .wrongToken "a name" value else .missingStop stop) ∧
      Took (blanks ++ body) r r' := by
  obtain ⟨between, turns, ran, enough, one⟩ :=
    namesBegin (enumeratesSolid enumerates) blank ends other
  obtain ⟨e, r', failed, isCause, two⟩ :=
    @namesFromEnds between _ [] _ _ _ enumerates _ enough (by simp) (runsOutAfter ends one) []
  exact ⟨e, r', ran.trans failed, isCause, one.trans two⟩

theorem namesSettles (ends : RunsOut r body value) :
    (∃ due, Unstopped value (.names stop) due body) ∨ Settles (names stop) r body := by
  obtain ⟨blanks, others, rfl, blank, solid⟩ := blankSplit body
  by_cases found : firstValue value others = stop
  · obtain ⟨t, r', skipped, isValue, took⟩ := skipBlankSees solid blank ends
    refine .inr (.inl ⟨[], r', ?_⟩)
    rw [names, runBind, skipped]
    dsimp only
    rw [if_pos (by rw [isValue, found])]
    rfl
  · obtain ⟨between, turns, ran, enough, took⟩ := namesBegin solid blank ends found
    have left := runsOutAfter ends took
    rcases @namesFromSettles between _ [] _ stop _ enough solid (by simp) left [] with
      ⟨due, enumerates⟩ | settles
    · exact .inl ⟨due, .names blank found enumerates⟩
    · exact .inr (settlesAfter ran took settles)

theorem throughEnds {α : Type} {scan : List Token → Option (α × Nat)}
    (missed : scan r.cursor.ahead = none) (ends : RunsOut r body value) :
    ∃ e r', (through stop scan).run.run r = (.error (.error e), r') ∧
      e.cause = .missingStop stop ∧ Took body r r' := by
  obtain ⟨taken, took, left⟩ := @whileEnds _ _ _ ends (·.kind ≠ .eof) (by simp) (by
    simpa using ends.solid)
  obtain ⟨last, r', looked, -, -, none⟩ := peekEnds left
  obtain ⟨e, failed, isCause⟩ := @missingEnds r' stop α last
  refine ⟨e, r', ?_, isCause, by simpa using took.trans none⟩
  rw [through, runBind, runGet]
  dsimp only
  rw [missed]
  dsimp only
  rw [whileRuns, taken, runBind, looked]
  exact failed

theorem throughSettles {α : Type} {scan : List Token → Option (α × Nat)}
    (found : scan r.cursor.ahead ≠ none) : Settles (through stop scan) r body := by
  obtain ⟨⟨a, n⟩, found⟩ := Option.ne_none_iff_exists'.mp found
  refine .inl ⟨a, r.took (r.cursor.ahead.take n), ?_⟩
  rw [through, runBind, runGet]
  dsimp only
  rw [found]
  rfl

theorem scanBefore {α : Type} {scan : List Token → Option (α × Nat)}
    (before : ∀ (ts rest : List Token) (last : Token), last.kind = .eof →
      scan (ts ++ last :: rest) = scan ts) (ends : RunsOut r body value) :
    scan r.cursor.ahead = scan body := by
  rcases ends.seen with ⟨last, rest, ahead, isEnd, -⟩ | ⟨ahead, -⟩
  · rw [ahead, before _ _ _ isEnd]
  · rw [ahead]

theorem scanListStep (solid : t.kind ≠ .eof) {closers : List String}
    (goesOn : ¬ (t.kind = .op ∧ t.value = stop ∧ closers = [])) (arg : List Token) :
    ∃ arg', scanList stop closers arg (t :: body) = none ↔
      scanList stop (pend closers t) arg' body = none := by
  rw [scanList, if_neg solid, pend]
  by_cases isOp : t.kind = .op
  · have noStop : ¬ (closers.isEmpty ∧ t.value = stop) := fun stops =>
      goesOn ⟨isOp, stops.2, List.isEmpty_iff.mp stops.1⟩
    rw [if_pos isOp, if_neg noStop, if_pos isOp]
    by_cases splits : closers.isEmpty ∧ t.value = ","
    · obtain rfl := List.isEmpty_iff.mp splits.1
      rw [if_pos splits, splits.2]
      exact ⟨[], Option.map_eq_none_iff⟩
    · rw [if_neg splits]
      refine ⟨t :: arg, ?_⟩
      cases closerOf? t.value with
      | some closer => exact Option.map_eq_none_iff
      | none =>
        dsimp only
        split <;> exact Option.map_eq_none_iff
  · rw [if_neg isOp, if_neg isOp]
    exact ⟨t :: arg, Option.map_eq_none_iff⟩

theorem scanListMisses (solid : ∀ t ∈ body, t.kind ≠ .eof) (closers : List String)
    (arg : List Token) :
    scanList stop closers arg body = none ↔ ∀ front t rest, body = front ++ t :: rest →
      t.kind = .op → t.value = stop → front.foldl pend closers ≠ [] := by
  induction body generalizing closers arg with
  | nil => simp [scanList]
  | cons u body ih =>
    obtain ⟨here, later⟩ := List.forall_mem_cons.mp solid
    by_cases stops : u.kind = .op ∧ u.value = stop ∧ closers = []
    · obtain ⟨isOp, isStop, rfl⟩ := stops
      have found : scanList stop [] arg (u :: body) ≠ none := by
        rw [scanList, if_neg here, if_pos isOp, if_pos ⟨rfl, isStop⟩]
        simp
      exact iff_of_false found fun inside => inside [] u body rfl isOp isStop rfl
    · obtain ⟨arg', step⟩ := @scanListStep body stop u here closers stops arg
      rw [step, ih later]
      constructor
      · intro inside front t rest split isOp isStop
        cases front with
        | nil =>
          obtain ⟨rfl, -⟩ := List.cons_eq_cons.mp split
          exact fun outside => stops ⟨isOp, isStop, outside⟩
        | cons v front =>
          obtain ⟨rfl, same⟩ := List.cons_eq_cons.mp split
          exact inside front t rest same isOp isStop
      · intro inside front t rest split
        exact inside (u :: front) t rest (by rw [split]; rfl)

theorem scanBlockBefore {level : Nat} {ts rest : List Token} {last : Token}
    (isEnd : last.kind = .eof) : scanBlock level (ts ++ last :: rest) = scanBlock level ts := by
  induction ts generalizing level with
  | nil => simp [scanBlock, isEnd]
  | cons t ts ih => simp only [List.cons_append, scanBlock, ih]

theorem scanBlockMisses (solid : ∀ t ∈ body, t.kind ≠ .eof) (level : Nat) :
    scanBlock level body = none ↔
      ∀ front, front <+: body → 0 ≤ (level : Int) + Tokens.level front := by
  induction body generalizing level with
  | nil =>
    refine iff_of_true rfl fun front isFront => ?_
    rw [List.prefix_nil.mp isFront, show Tokens.level [] = 0 from rfl]
    omega
  | cons t body ih =>
    obtain ⟨here, later⟩ := List.forall_mem_cons.mp solid
    have step : (∀ front, front <+: t :: body → 0 ≤ (level : Int) + Tokens.level front) ↔
        ∀ front, front <+: body → 0 ≤ (level : Int) + Tokens.level [t] + Tokens.level front := by
      constructor
      · intro above front isFront
        rw [Int.add_assoc, ← Tokens.levelCons]
        exact above _ (List.cons_prefix_cons.mpr ⟨rfl, isFront⟩)
      · intro above front isFront
        rcases List.prefix_cons_iff.mp isFront with rfl | ⟨front, rfl, inside⟩
        · rw [show Tokens.level [] = 0 from rfl]
          omega
        · rw [Tokens.levelCons, ← Int.add_assoc]
          exact above front inside
    unfold scanBlock
    dsimp only
    rw [step, if_neg here]
    cases opener : t.opensBlock with
    | true =>
      rw [if_pos rfl, Option.map_eq_none_iff, ih later, Tokens.levelOpener opener]
      rfl
    | false =>
      rw [if_neg (by simp)]
      cases closer : t.closesBlock with
      | true =>
        rw [if_pos rfl, Tokens.levelCloser closer]
        cases level with
        | zero =>
          refine iff_of_false (by simp) fun above => ?_
          have first := above [] List.nil_prefix
          rw [show Tokens.level [] = 0 from rfl] at first
          omega
        | succ level =>
          rw [show ((level + 1 : Nat) : Int) + -1 = level by omega]
          exact Option.map_eq_none_iff.trans (ih later level)
      | false =>
        rw [if_neg (by simp), Option.map_eq_none_iff, ih later, Tokens.levelInert ⟨opener, closer⟩,
          Int.add_zero]

theorem listMisses (ends : RunsOut r body value) :
    scanList stop [] [] r.cursor.ahead = none ↔ Unstopped value (.list stop) false body := by
  rw [scanBefore (fun _ _ _ isEnd => scanListBefore isEnd) ends, scanListMisses ends.solid]
  refine ⟨.list, fun unstopped => ?_⟩
  cases unstopped with
  | list inside => exact inside

theorem blockMisses (ends : RunsOut r body value) :
    scanBlock 0 r.cursor.ahead = none ↔ Unstopped value .block false body := by
  rw [scanBefore (fun _ _ _ isEnd => scanBlockBefore isEnd) ends, scanBlockMisses ends.solid]
  simp only [Int.ofNat_zero, Int.zero_add]
  refine ⟨.block, fun unstopped => ?_⟩
  cases unstopped with
  | block above => exact above

theorem uptoEnds (other : ∀ t ∈ body, t.value ≠ stop) (ends : RunsOut r body value) :
    ∃ e r', (upto stop).run.run r = (.error (.error e), r') ∧ e.cause = .missingStop stop ∧
      Took body r r' := by
  obtain ⟨taken, took, left⟩ := @whileEnds _ _ _ ends
    (fun t => t.kind ≠ .eof && t.value ≠ stop)
    (fun t goesOn => by simpa using (Bool.and_eq_true_iff.mp goesOn).1)
    (fun t member => by simp [ends.solid t member, other t member])
  obtain ⟨e, r', failed, isCause, none⟩ := @moreEnds _ _ stop left
  refine ⟨e, r', ?_, isCause, by simpa using took.trans none⟩
  rw [upto, whileRuns, taken, runBind, failed]

theorem uptoSettles (ends : RunsOut r body value) :
    (∃ due, Unstopped value (.upto stop) due body) ∨ Settles (upto stop) r body := by
  cases found : body.find? (·.value = stop) with
  | none => exact .inl ⟨false, .upto (by simpa using found)⟩
  | some t =>
    obtain ⟨isStop, front, rest, rfl, before⟩ := List.find?_eq_some_iff_append.mp found
    obtain ⟨tail, ahead⟩ := ends.behind
    rw [List.append_assoc, List.cons_append] at ahead
    have goesOn : ∀ u ∈ front, u.kind ≠ .eof ∧ u.value ≠ stop := fun u member =>
      ⟨ends.solid u (List.mem_append_left _ member), by simpa using before u member⟩
    obtain ⟨r', ran, -⟩ := uptoReads ahead goesOn (ends.solid t (by simp)) (by simpa using isStop)
    exact .inr (.inl ⟨front, r', ran⟩)

/-! All four -/

theorem unstoppedFails {op : Op} {due : Bool} (unstopped : Unstopped value op due body)
    (searches : op.stop? = some stop) (ends : RunsOut r body value) :
    ∃ e r', (perform op).run.run r = (.error (.error e), r') ∧
      e.cause = (if due then .wrongToken "a name" value else .missingStop stop) ∧
      Took body r r' := by
  cases unstopped with
  | names blank other enumerates =>
    cases searches
    exact namesEnds blank other enumerates ends
  | list inside =>
    cases searches
    obtain ⟨e, r', failed, ends⟩ := throughEnds ((listMisses ends).mpr (.list inside)) ends
    exact ⟨e, r', (listRuns _ r).trans failed, ends⟩
  | upto other =>
    cases searches
    exact uptoEnds other ends
  | block above =>
    cases searches
    obtain ⟨e, r', failed, ends⟩ := throughEnds ((blockMisses ends).mpr (.block above)) ends
    exact ⟨e, r', (blockRuns r).trans failed, ends⟩

theorem stoppedSettles {op : Op} (searches : op.stop? = some stop) (ends : RunsOut r body value) :
    (∃ due, Unstopped value op due body) ∨ Settles (perform op) r body := by
  cases op with
  | names => exact namesSettles ends
  | upto => exact uptoSettles ends
  | list stop =>
    by_cases missed : scanList stop [] [] r.cursor.ahead = none
    · exact .inl ⟨false, (listMisses ends).mp missed⟩
    · exact .inr (settlesAfter (listRuns stop r) (tookNone rfl rfl) (throughSettles missed))
  | block =>
    by_cases missed : scanBlock 0 r.cursor.ahead = none
    · exact .inl ⟨false, (blockMisses ends).mp missed⟩
    · exact .inr (settlesAfter (blockRuns r) (tookNone rfl rfl) (throughSettles missed))
  | _ => contradiction

theorem endBeforeStop {op : Op} (searches : op.stop? = some stop) (ends : RunsOut r body value) :
    (∀ due, Unstopped value op due body → ∃ e r',
      (perform op).run.run r = (.error (.error e), r') ∧
      e.kind = (if due then .unexpectedToken else .expectedTokenMissing) ∧
      Took body r r') ∧
    ((∃ due, Unstopped value op due body) ∨ Settles (perform op) r body) := by
  refine ⟨fun due unstopped => ?_, stoppedSettles searches ends⟩
  obtain ⟨e, r', failed, isCause, took⟩ := unstoppedFails unstopped searches ends
  refine ⟨e, r', failed, ?_, took⟩
  rw [Error.kind, isCause]
  cases due <;> rfl

end

-- The parentheses are closed before the bracket is opened, and the last one is inside of it.
theorem endBeforeStopInBracket :
    RunsOut ⟨.ofText "(a),[ )", none, #[]⟩ (Lexer.lex "(a),[ )").tokens "" ∧
      ∃ e r', (list ")").run.run ⟨.ofText "(a),[ )", none, #[]⟩ =
          (.error (.error e), r') ∧
        e.kind = .expectedTokenMissing ∧ r'.taken.toList = (Lexer.lex "(a),[ )").tokens ∧
        r'.cursor.ahead = [.endOfInput (some 1)] := by
  have ends : RunsOut ⟨.ofText "(a),[ )", none, #[]⟩ (Lexer.lex "(a),[ )").tokens "" :=
    ⟨by decide +kernel, .inl ⟨.endOfInput (some 1), [], by decide +kernel, rfl, rfl⟩⟩
  have unstopped : Unstopped "" (.list ")") false (Lexer.lex "(a),[ )").tokens :=
    (listMisses ends).mp (by decide +kernel)
  obtain ⟨e, r', failed, isKind, took⟩ :=
    (@endBeforeStop _ _ _ _ (.list ")") rfl ends).1 _ unstopped
  refine ⟨ends, e, r', failed, isKind, ?_, tookLeaves took (by decide +kernel)⟩
  simp [took.taken]

-- A name is due behind the comma.
theorem namesEndUnexpectedly :
    RunsOut ⟨.ofText "a,", none, #[]⟩ (Lexer.lex "a,").tokens "" ∧
      ∃ e r', (names ")").run.run ⟨.ofText "a,", none, #[]⟩ =
          (.error (.error e), r') ∧
        e.kind = .unexpectedToken ∧ r'.cursor.ahead = [.endOfInput (some 1)] := by
  have tokens : (Lexer.lex "a,").tokens =
      [⟨.iden, "a", some 1, none, none⟩, ⟨.op, ",", some 1, none, none⟩] := by decide +kernel
  have ends : RunsOut ⟨.ofText "a,", none, #[]⟩ (Lexer.lex "a,").tokens "" :=
    ⟨by decide +kernel, .inl ⟨.endOfInput (some 1), [], by decide +kernel, rfl, rfl⟩⟩
  have enumerates : Enumerates ")" "" true (Lexer.lex "a,").tokens := by
    rw [tokens]
    exact @Enumerates.more ")" "" true _ [] _ [] [] rfl (by simp) rfl rfl (by decide) (by simp) .due
  obtain ⟨e, r', failed, isCause, took⟩ :=
    @namesEnds _ _ [] "" ")" true (by simp) (by rw [tokens]; decide) enumerates ends
  refine ⟨ends, e, r', failed, ?_, tookLeaves took (by decide +kernel)⟩
  rw [Error.kind, isCause]
  rfl

end Reader

end LuaExpander
