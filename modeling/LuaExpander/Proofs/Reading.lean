import LuaExpander.Definition
import LuaExpander.Proofs.Drawing

/-! What reading takes. An operation that succeeds takes a beginning of the tokens to come and
writes it down; what it answers is made of these tokens, and the end of the input is not among
them. -/
namespace LuaExpander.Reader

structure Took (front : List Token) (r r' : Reader) : Prop where
  ahead : r.cursor.ahead = front ++ r'.cursor.ahead
  taken : r'.taken = r.taken ++ front.toArray
  solid : ∀ t ∈ front, t.kind ≠ .eof
  failure : r'.cursor.failure = r.cursor.failure

theorem tookNone {r : Reader} {cursor : Cursor} (same : cursor.ahead = r.cursor.ahead)
    (failure : cursor.failure = r.cursor.failure) : Took [] r { r with cursor } :=
  ⟨same.symm, Array.append_empty.symm, by simp, failure⟩

theorem Took.trans {a b c : Reader} {first second : List Token} (one : Took first a b)
    (other : Took second b c) : Took (first ++ second) a c where
  ahead := by rw [one.ahead, other.ahead, List.append_assoc]
  taken := by simp [other.taken, one.taken, Array.append_assoc]
  solid t member := (List.mem_append.mp member).elim (one.solid t) (other.solid t)
  failure := other.failure.trans one.failure

theorem tookFront {r : Reader} {front rest : List Token} (ahead : r.cursor.ahead = front ++ rest)
    (solid : ∀ t ∈ front, t.kind ≠ .eof) : Took front r (r.took front) where
  ahead := by simp [took, ahead]
  taken := rfl
  solid := solid
  failure := Cursor.failureDrop _ _

theorem takeWhileTakes {p : Token → Bool} (solid : ∀ t, p t = true → t.kind ≠ .eof)
    {r r' : Reader} {ts : List Token} (ran : (takeWhile p).run.run r = (.ok ts, r')) :
    ts = r.cursor.ahead.takeWhile p ∧ Took ts r r' := by
  rw [takeWhileRuns] at ran
  cases ran
  refine ⟨rfl, tookFront List.takeWhile_append_dropWhile.symm fun t member => ?_⟩
  exact solid t (List.all_eq_true.mp List.all_takeWhile t member)

theorem peekTakes {r r' : Reader} {t : Token} (ran : peek.run.run r = (.ok t, r')) :
    Took [] r r' ∧
      (r.cursor.ahead.head? = some t ∨ r.cursor.ahead = [] ∧ t = r.endToken) := by
  rw [peekRuns] at ran
  cases ahead : r.cursor.ahead with
  | cons u rest =>
    have same := ahead ▸ r.cursor.aheadPeek
    rw [Cursor.peekToken ahead] at ran same
    cases ran
    exact ⟨tookNone (same.trans ahead.symm) (Cursor.failureDrop _ _), .inl rfl⟩
  | nil =>
    cases failure : r.cursor.failure with
    | none =>
      rw [Cursor.peekNone ahead failure] at ran
      cases ran
      exact ⟨tookNone rfl rfl, .inr ⟨rfl, rfl⟩⟩
    | some e =>
      obtain ⟨c', failed, -⟩ := Cursor.peekError ahead failure
      rw [failed] at ran
      cases ran

theorem nextTakes {r r' : Reader} {t : Token} (ran : next.run.run r = (.ok t, r')) :
    t.kind ≠ .eof ∧ Took [t] r r' ∨ t.kind = .eof ∧ Took [] r r' := by
  obtain ⟨u, between, looked, ran⟩ := bindSucceeds ran
  obtain ⟨none, seen⟩ := peekTakes looked
  by_cases isEnd : u.kind = .eof
  · rw [if_neg (not_not_intro isEnd)] at ran
    cases ran
    exact .inr ⟨isEnd, none⟩
  · rw [if_pos isEnd] at ran
    cases ran
    rcases seen with head | ⟨-, rfl⟩
    · obtain ⟨rest, ahead⟩ := List.head?_eq_some_iff.mp head
      have front : between.cursor.ahead = [t] ++ rest := by
        rw [← List.nil_append between.cursor.ahead, ← none.ahead, ahead]
        rfl
      exact .inl ⟨isEnd, none.trans (tookFront front (by simpa using isEnd))⟩
    · exact absurd rfl isEnd

theorem nextMoves {r r' : Reader} {t : Token} (ran : next.run.run r = (.ok t, r')) :
    ∃ front, Took front r r' := by
  rcases nextTakes ran with ⟨-, one⟩ | ⟨-, none⟩
  · exact ⟨_, one⟩
  · exact ⟨_, none⟩

theorem skipBlankTakes {r r' : Reader} {t : Token} (ran : skipBlank.run.run r = (.ok t, r')) :
    ∃ front, Took front r r' ∧ (r'.cursor.ahead.head? = some t ∨ t.kind = .eof) := by
  obtain ⟨blanks, between, skipped, looked⟩ := bindSucceeds ran
  obtain ⟨-, front⟩ := takeWhileTakes (by
    intro t isBlank isEnd
    simp [isEnd, Kind.isBlank] at isBlank) skipped
  obtain ⟨none, seen⟩ := peekTakes looked
  refine ⟨_, front.trans none, ?_⟩
  rcases seen with head | ⟨-, rfl⟩
  · refine .inl ?_
    rw [← head, none.ahead]
    rfl
  · exact .inr rfl

theorem ofKindTakes {kind : Kind} {wanted : String} {r r' : Reader} {t : Token}
    (solid : kind ≠ .eof) (ran : (ofKind kind wanted).run.run r = (.ok t, r')) :
    ∃ front, Took front r r' ∧ t ∈ front ∧ t.kind = kind := by
  obtain ⟨u, skipped, hs, ran⟩ := bindSucceeds ran
  obtain ⟨v, between, hn, ran⟩ := bindSucceeds ran
  obtain ⟨front, took, -⟩ := skipBlankTakes hs
  split at ran
  · rename_i isKind
    cases ran
    rcases nextTakes hn with ⟨-, one⟩ | ⟨isEnd, -⟩
    · exact ⟨_, took.trans one, by simp, isKind⟩
    · exact absurd (isKind.symm.trans isEnd) solid
  · cases ran

theorem nameTakes {r r' : Reader} {word : String} (ran : name.run.run r = (.ok word, r')) :
    ∃ front t, Took front r r' ∧ t ∈ front ∧ t.kind = .iden ∧ t.value = word := by
  obtain ⟨t, between, found, ran⟩ := bindSucceeds ran
  obtain ⟨front, took, member, kind⟩ := ofKindTakes (by simp) found
  cases ran
  exact ⟨front, t, took, member, kind, rfl⟩

theorem numberTakes {r r' : Reader} {n : Number} (ran : number.run.run r = (.ok n, r')) :
    ∃ front, Took front r r' := by
  obtain ⟨t, between, found, ran⟩ := bindSucceeds ran
  obtain ⟨front, took, -⟩ := ofKindTakes (by simp) found
  obtain ⟨-, rfl⟩ := Prod.mk.inj ran
  exact ⟨front, took⟩

theorem expectingTakes {expected : Expected} {r r' : Reader} {value : String}
    (ran : (expecting expected).run.run r = (.ok value, r')) : ∃ front, Took front r r' := by
  obtain ⟨u, skipped, hs, ran⟩ := bindSucceeds ran
  obtain ⟨v, between, hn, ran⟩ := bindSucceeds ran
  obtain ⟨front, took, -⟩ := skipBlankTakes hs
  split at ran
  · cases ran
    rcases nextTakes hn with ⟨-, one⟩ | ⟨-, none⟩
    · exact ⟨_, took.trans one⟩
    · exact ⟨_, took.trans none⟩
  · cases ran

theorem moreTakes {stop : String} {r r' : Reader} {t : Token}
    (ran : (more stop).run.run r = (.ok t, r')) : Took [] r r' := by
  obtain ⟨u, between, hp, ran⟩ := bindSucceeds ran
  obtain ⟨none, -⟩ := peekTakes hp
  split at ran
  · cases ran
  · cases ran
    exact none

theorem namesFromTakes {stop : String} {turns : Nat} {found names : List String} {r r' : Reader}
    (ran : (namesFrom stop turns found).run.run r = (.ok names, r')) :
    ∃ front, Took front r r' := by
  induction turns generalizing found r with
  | zero =>
    cases ran
    exact ⟨[], tookNone rfl rfl⟩
  | succ turns ih =>
    obtain ⟨word, named, hn, ran⟩ := bindSucceeds ran
    obtain ⟨t, skipped, hs, ran⟩ := bindSucceeds ran
    obtain ⟨front, u, first, -⟩ := nameTakes hn
    obtain ⟨blanks, second, -⟩ := skipBlankTakes hs
    by_cases ends : t.value = stop
    · rw [if_pos ends] at ran
      cases ran
      exact ⟨_, first.trans second⟩
    · rw [if_neg ends] at ran
      obtain ⟨u, looked, hm, ran⟩ := bindSucceeds ran
      obtain ⟨comma, between, hc, ran⟩ := bindSucceeds ran
      obtain ⟨third, comma⟩ := expectingTakes hc
      obtain ⟨rest, last⟩ := ih ran
      exact ⟨_, (((first.trans second).trans (moreTakes hm)).trans comma).trans last⟩

theorem namesTakes {stop : String} {names : List String} {r r' : Reader}
    (ran : (Reader.names stop).run.run r = (.ok names, r')) : ∃ front, Took front r r' := by
  obtain ⟨t, skipped, hs, ran⟩ := bindSucceeds ran
  obtain ⟨blanks, first, -⟩ := skipBlankTakes hs
  by_cases ends : t.value = stop
  · rw [if_pos ends] at ran
    cases ran
    exact ⟨_, first⟩
  · rw [if_neg ends, runBind, runGet] at ran
    obtain ⟨front, last⟩ := namesFromTakes ran
    exact ⟨_, first.trans last⟩

theorem uptoTakes {stop : String} {r r' : Reader} {ts : List Token}
    (ran : (upto stop).run.run r = (.ok ts, r')) : Took ts r r' := by
  obtain ⟨us, between, hw, ran⟩ := bindSucceeds ran
  obtain ⟨u, last, hm, ran⟩ := bindSucceeds ran
  cases ran
  obtain ⟨-, front⟩ := takeWhileTakes (by
    intro t goesOn
    simp only [Bool.and_eq_true, decide_eq_true_eq] at goesOn
    exact goesOn.1) hw
  simpa using front.trans (moreTakes hm)

theorem lineTakes {r r' : Reader} {ts : List Token} (ran : line.run.run r = (.ok ts, r')) :
    Took ts r r' := by
  obtain ⟨us, between, hw, ran⟩ := bindSucceeds ran
  obtain ⟨u, last, hp, ran⟩ := bindSucceeds ran
  cases ran
  obtain ⟨-, front⟩ := takeWhileTakes (by
    intro t goesOn isEnd
    simp [isEnd] at goesOn) hw
  obtain ⟨none, -⟩ := peekTakes hp
  simpa using front.trans none

theorem throughTakes {α : Type} {stop : String} {scan : List Token → Option (α × Nat)}
    {r r' : Reader} {a : α} (ran : (through stop scan).run.run r = (.ok a, r')) :
    ∃ n, scan r.cursor.ahead = some (a, n) ∧ r' = r.took (r.cursor.ahead.take n) := by
  rw [through, runBind, runGet] at ran
  dsimp only at ran
  cases found : scan r.cursor.ahead with
  | some pair =>
    rw [found] at ran
    cases ran
    exact ⟨pair.2, rfl, rfl⟩
  | none =>
    rw [found] at ran
    obtain ⟨us, between, -, ran⟩ := bindSucceeds ran
    obtain ⟨u, last, -, ran⟩ := bindSucceeds ran
    cases ran

theorem scanBlockTakes {level n : Nat} {ts body : List Token}
    (found : scanBlock level ts = some (body, n)) :
    ∃ closer, ts.take n = body ++ [closer] ∧ ∀ t ∈ body ++ [closer], t.kind ≠ .eof := by
  induction ts generalizing level n body with
  | nil => simp [scanBlock] at found
  | cons t ts ih =>
    have further {level : Nat} (solid : t.kind ≠ .eof)
        (deeper : (scanBlock level ts).map (fun found => (t :: found.1, found.2 + 1)) =
          some (body, n)) :
        ∃ closer, (t :: ts).take n = body ++ [closer] ∧
          ∀ t ∈ body ++ [closer], t.kind ≠ .eof := by
      obtain ⟨⟨inner, m⟩, here, last⟩ := Option.map_eq_some_iff.mp deeper
      cases last
      obtain ⟨closer, split, solids⟩ := ih here
      exact ⟨closer, by simp [split], List.forall_mem_cons.mpr ⟨solid, solids⟩⟩
    unfold scanBlock at found
    dsimp only at found
    split at found
    · contradiction
    · rename_i solid
      split at found
      · exact further solid found
      · split at found
        · split at found
          · cases found
            exact ⟨t, rfl, by simpa using solid⟩
          · exact further solid found
        · exact further solid found

theorem blockTakes {r r' : Reader} {body : List Token} (ran : block.run.run r = (.ok body, r')) :
    ∃ closer, Took (body ++ [closer]) r r' := by
  rw [blockRuns] at ran
  obtain ⟨n, found, rfl⟩ := throughTakes ran
  obtain ⟨closer, split, solid⟩ := scanBlockTakes found
  refine ⟨closer, split ▸ tookFront (List.take_append_drop n _).symm ?_⟩
  rwa [split]

theorem strippedMember {t : Token} {ts : List Token} (member : t ∈ Tokens.strip ts) : t ∈ ts := by
  have inner := (List.dropWhile_suffix _).subset (List.mem_reverse.mp member)
  exact (List.dropWhile_suffix _).subset (List.mem_reverse.mp inner)

theorem scanListTakes {stop : String} {closers : List String} {arg ts : List Token}
    {args : List (List Token)} {n : Nat}
    (found : scanList stop closers arg ts = some (args, n)) :
    (∀ t ∈ ts.take n, t.kind ≠ .eof) ∧ ∀ a ∈ args, ∀ t ∈ a, t ∈ arg ∨ t ∈ ts.take n := by
  induction ts generalizing closers arg args n with
  | nil => simp [scanList] at found
  | cons t ts ih =>
    have further {closers : List String} (solid : t.kind ≠ .eof)
        (deeper : (scanList stop closers (t :: arg) ts).map
          (fun found => (found.1, found.2 + 1)) = some (args, n)) :
        (∀ u ∈ (t :: ts).take n, u.kind ≠ .eof) ∧
          ∀ a ∈ args, ∀ u ∈ a, u ∈ arg ∨ u ∈ (t :: ts).take n := by
      obtain ⟨⟨inner, m⟩, here, last⟩ := Option.map_eq_some_iff.mp deeper
      cases last
      obtain ⟨solids, within⟩ := ih here
      refine ⟨List.forall_mem_cons.mpr ⟨solid, solids⟩, fun a isArg u member => ?_⟩
      rcases within a isArg u member with before | after
      · rcases List.mem_cons.mp before with rfl | earlier
        · exact .inr List.mem_cons_self
        · exact .inl earlier
      · exact .inr (List.mem_cons_of_mem t after)
    unfold scanList at found
    dsimp only at found
    split at found
    · contradiction
    rename_i solid
    split at found
    · split at found
      · cases found
        refine ⟨by simpa using solid, fun a isArg u member => ?_⟩
        cases List.mem_singleton.mp isArg
        exact .inl (List.mem_reverse.mp (strippedMember member))
      · split at found
        · obtain ⟨⟨inner, m⟩, here, last⟩ := Option.map_eq_some_iff.mp found
          cases last
          obtain ⟨solids, within⟩ := ih here
          refine ⟨List.forall_mem_cons.mpr ⟨solid, solids⟩, fun a isArg u member => ?_⟩
          rcases List.mem_cons.mp isArg with rfl | later
          · exact .inl (List.mem_reverse.mp (strippedMember member))
          · rcases within a later u member with none | after
            · contradiction
            · exact .inr (List.mem_cons_of_mem t after)
        · split at found
          · exact further solid found
          · split at found
            · exact further solid found
            · exact further solid found
    · exact further solid found

theorem listTakes {stop : String} {r r' : Reader} {args : List (List Token)}
    (ran : (list stop).run.run r = (.ok args, r')) :
    ∃ front, Took front r r' ∧ ∀ arg ∈ args, ∀ t ∈ arg, t ∈ front := by
  rw [listRuns] at ran
  obtain ⟨n, found, rfl⟩ := throughTakes ran
  obtain ⟨solid, within⟩ := scanListTakes found
  refine ⟨r.cursor.ahead.take n, tookFront (List.take_append_drop n _).symm solid, ?_⟩
  intro arg isArg t member
  exact (within arg isArg t member).resolve_left (by simp)

theorem definedNameTakes {line : Line} {found : Token × String} {r r' : Reader}
    (ran : (Definition.readName line).run.run r = (.ok found, r')) : ∃ front, Took front r r' := by
  obtain ⟨first, skipped, hs, ran⟩ := bindSucceeds ran
  obtain ⟨blanks, one, -⟩ := skipBlankTakes hs
  cases kind : first.kind with
  | iden =>
    rw [kind] at ran
    obtain ⟨u, after, hn, ran⟩ := bindSucceeds ran
    cases ran
    obtain ⟨front, last⟩ := nextMoves hn
    exact ⟨_, one.trans last⟩
  | op =>
    rw [kind] at ran
    obtain ⟨u, after, hn, ran⟩ := bindSucceeds ran
    obtain ⟨more, last, hw, ran⟩ := bindSucceeds ran
    cases ran
    obtain ⟨front, two⟩ := nextMoves hn
    obtain ⟨-, run⟩ := takeWhileTakes (by
      intro t goesOn isEnd
      simp [isEnd] at goesOn) hw
    exact ⟨_, (one.trans two).trans run⟩
  | keyword | string | number | space | comment | eof =>
    rw [kind] at ran
    cases ran

theorem paramsTake {first : Token} {name : String} {params : Option (List String)} {r r' : Reader}
    (ran : (Definition.readParams first name).run.run r = (.ok params, r')) :
    ∃ front, Took front r r' := by
  obtain ⟨t, looked, hp, ran⟩ := bindSucceeds ran
  obtain ⟨none, -⟩ := peekTakes hp
  by_cases absent : t.value ≠ "("
  · rw [if_pos absent] at ran
    cases ran
    exact ⟨_, none⟩
  rw [if_neg absent] at ran
  obtain ⟨u, opened, hn, ran⟩ := bindSucceeds ran
  obtain ⟨found, named, hs, ran⟩ := bindSucceeds ran
  obtain ⟨closer, closed, hc, ran⟩ := bindSucceeds ran
  obtain ⟨opener, one⟩ := nextMoves hn
  obtain ⟨names, two⟩ := namesTakes hs
  obtain ⟨last, three⟩ := expectingTakes hc
  have whole := ((none.trans one).trans two).trans three
  by_cases twice : found.eraseDups.length ≠ found.length
  · rw [if_pos twice] at ran
    cases ran
  · rw [if_neg twice] at ran
    cases ran
    exact ⟨_, whole⟩

theorem headerTakes {line : Line} {h : Definition.Header} {r r' : Reader}
    (ran : (Definition.readHeader line).run.run r = (.ok h, r')) :
    ∃ front, Took front r r' ∧ h.rest = Tokens.strip r'.cursor.ahead := by
  obtain ⟨⟨first, name⟩, named, hn, ran⟩ := bindSucceeds ran
  obtain ⟨params, between, hp, ran⟩ := bindSucceeds ran
  rw [runBind, runGet] at ran
  cases ran
  obtain ⟨front, one⟩ := definedNameTakes hn
  obtain ⟨rest, two⟩ := paramsTake hp
  exact ⟨_, one.trans two, rfl⟩

theorem headerRuns {spec : String} {line : Line} {h : Definition.Header}
    (read : Definition.header spec line = .ok h) :
    ∃ ts r', parseTokens spec line = .ok ts ∧
      (Definition.readHeader line).run.run { cursor := .ofTokens ts } = (.ok h, r') := by
  unfold Definition.header at read
  cases parsed : parseTokens spec line with
  | error e => rw [parsed] at read; cases read
  | ok ts =>
    rw [parsed] at read
    exact ⟨ts, _, rfl, Prod.ext read rfl⟩

theorem argumentsTake {d : Definition} {params : List String} {nameToken : Token} {r r' : Reader}
    {args : List (List Token)}
    (ran : (d.readArguments params nameToken).run.run r = (.ok args, r')) :
    ∃ front, Took front r r' ∧ ∀ arg ∈ args, ∀ t ∈ arg, t ∈ front := by
  obtain ⟨t, skipped, hs, ran⟩ := bindSucceeds ran
  obtain ⟨blanks, first, -⟩ := skipBlankTakes hs
  split at ran
  · obtain ⟨u, between, impossible, -⟩ := bindSucceeds ran
    cases impossible
  obtain ⟨u, opened, hn, ran⟩ := bindSucceeds ran
  obtain ⟨found, listed, hl, ran⟩ := bindSucceeds ran
  obtain ⟨front, last, within⟩ := listTakes hl
  obtain ⟨middle, second⟩ := nextMoves hn
  have whole := (first.trans second).trans last
  dsimp only at ran
  by_cases arity : (if found = [[]] ∧ params = [] then [] else found).length ≠ params.length
  · rw [if_pos arity] at ran
    obtain ⟨u, between, impossible, -⟩ := bindSucceeds ran
    cases impossible
  rw [if_neg arity] at ran
  cases ran
  refine ⟨_, whole, fun arg isArg t member => ?_⟩
  split at isArg
  · contradiction
  · exact List.mem_append_right _ (within arg isArg t member)

end LuaExpander.Reader
