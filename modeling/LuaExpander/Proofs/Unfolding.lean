import LuaExpander.Registry
import Mathlib.Logic.Relation
import Mathlib.Order.WellFoundedSet
import Std.Data.ExtTreeMap.Lemmas

/-! What an identifier stands for when replacements are replaced in turn, all the way down. That is
defined if no definition comes to mention itself by way of others; that it mentions itself does no
harm, since a token that comes out of a replacement does not invoke the definition it comes from. -/
namespace LuaExpander.Registry

def active? (name : String) (r : Registry) : Option Definition := r.idens[name]?.bind (·.top?)

def invoked? (t : Token) (r : Registry) : Option Definition :=
  if t.kind = .iden ∧ t.mark ≠ some t.value then r.active? t.value else none

def replaced (d : Definition) (t : Token) : List Token := d.value.map (·.markedBy t.value t.line)

def Mentions (r : Registry) (name other : String) : Prop :=
  (∃ d, r.active? name = some d ∧ ∃ t ∈ d.value, t.kind = .iden ∧ t.value = other) ∧
    (r.active? other).isSome ∧ other ≠ name

def Acyclic (r : Registry) : Prop := ∀ name, ¬ Relation.TransGen r.Mentions name name

theorem invokedSome {t : Token} {r : Registry} {d : Definition} (invoked : r.invoked? t = some d) :
    t.kind = .iden ∧ t.mark ≠ some t.value ∧ r.active? t.value = some d := by
  unfold invoked? at invoked
  split at invoked
  · rename_i free
    exact ⟨free.1, free.2, invoked⟩
  · contradiction

theorem activeKey {name : String} {r : Registry} (active : (r.active? name).isSome) :
    name ∈ r.idens.keys := by
  rw [Std.ExtTreeMap.mem_keys, ← Std.ExtTreeMap.isSome_getElem?_iff_mem]
  unfold active? at active
  cases found : r.idens[name]? with
  | none => simp [found] at active
  | some s => rfl

theorem activePush {d : Definition} (isName : Literal.isName d.name = true) (name : String)
    (r : Registry) :
    (r.push d).active? name = if name = d.name then some d else r.active? name := by
  have table : (r.push d).idens = r.idens.insert d.name ((r.stack d.name).push d) := by
    rw [push, setStack, if_pos isName]
    rfl
  rw [active?, table]
  by_cases same : name = d.name
  · rw [same, Std.ExtTreeMap.getElem?_insert_self, if_pos rfl]
    rfl
  · have different : compare d.name name ≠ .eq := by
      simpa using Ne.symm same
    rw [Std.ExtTreeMap.getElem?_insert, if_neg different, if_neg same]
    rfl

theorem acyclicOfRank {r : Registry} (rank : String → Nat)
    (falls : ∀ name other, r.Mentions name other → rank other < rank name) : r.Acyclic := by
  intro name cycle
  have below : ∀ other, Relation.TransGen r.Mentions name other → rank other < rank name := by
    intro other path
    induction path with
    | single mentions => exact falls _ _ mentions
    | tail _ mentions ih => exact (falls _ _ mentions).trans ih
  exact Nat.lt_irrefl _ (below name cycle)

-- Only names of the table are related, and these are finitely many.
theorem mentionsWellFounded {r : Registry} (acyclic : r.Acyclic) :
    WellFounded fun other name => r.Mentions name other := by
  let below (other name : String) : Prop := Relation.TransGen r.Mentions name other
  have order : IsStrictOrder String below := {
    irrefl := acyclic
    trans := fun _ _ _ first second => second.trans first }
  have finite : {name | name ∈ r.idens.keys}.Finite := List.finite_toSet r.idens.keys
  have wellFounded : {name | name ∈ r.idens.keys}.WellFoundedOn below := finite.wellFoundedOn
  refine Subrelation.wf ?_ (Set.wellFoundedOn_iff.mp wellFounded)
  intro other name mentions
  obtain ⟨d, active, -⟩ := mentions.1
  exact ⟨.single mentions, activeKey mentions.2.1, activeKey (by rw [active]; rfl)⟩

def Yields (r : Registry) (u t : Token) : Prop := ∃ d, r.invoked? t = some d ∧ u ∈ replaced d t

theorem yieldsMentions {r : Registry} {u t : Token} (yields : r.Yields u t)
    (invoked : (r.invoked? u).isSome) : r.Mentions t.value u.value := by
  obtain ⟨d, here, member⟩ := yields
  obtain ⟨w, inside, rfl⟩ := List.mem_map.mp member
  obtain ⟨e, found⟩ := Option.isSome_iff_exists.mp invoked
  obtain ⟨kind, unmarked, active⟩ := invokedSome found
  refine ⟨⟨d, (invokedSome here).2.2, w, inside, kind, rfl⟩, by rw [active]; rfl, ?_⟩
  rintro same
  exact unmarked (congrArg some same.symm)

theorem yieldsWellFounded {r : Registry} (acyclic : r.Acyclic) : WellFounded r.Yields := by
  have byName := InvImage.wf Token.value (mentionsWellFounded acyclic)
  refine ⟨fun t => ?_⟩
  induction t using byName.induction with
  | _ t ih =>
    refine ⟨t, fun u yields => ?_⟩
    cases invoked : r.invoked? u with
    | some d => exact ih u (yieldsMentions yields (by rw [invoked]; rfl))
    | none =>
      refine ⟨u, ?_⟩
      rintro w ⟨d, impossible, -⟩
      rw [invoked] at impossible
      contradiction

def unfolded (r : Registry) (acyclic : r.Acyclic) (t : Token) : List Token :=
  match _invoked : r.invoked? t with
  | none => [t]
  | some d => (replaced d t).attach.flatMap fun u => unfolded r acyclic u.1
termination_by (yieldsWellFounded acyclic).wrap t
decreasing_by exact ⟨d, _invoked, u.2⟩

def unfoldedAll (r : Registry) (acyclic : r.Acyclic) (ts : List Token) : List Token :=
  ts.flatMap (r.unfolded acyclic)

theorem unfoldedStill {r : Registry} (acyclic : r.Acyclic) {t : Token}
    (still : r.invoked? t = none) : r.unfolded acyclic t = [t] := by
  rw [unfolded]
  split
  · rfl
  · simp_all

theorem unfoldedReplaced {r : Registry} (acyclic : r.Acyclic) {t : Token} {d : Definition}
    (invoked : r.invoked? t = some d) :
    r.unfolded acyclic t = r.unfoldedAll acyclic (replaced d t) := by
  rw [unfolded]
  split
  · simp_all
  · rename_i e found
    rw [invoked] at found
    cases found
    simp [unfoldedAll]

end LuaExpander.Registry
