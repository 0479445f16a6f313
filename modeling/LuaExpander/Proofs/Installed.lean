import LuaExpander.Proofs.Standards
import LuaExpander.Proofs.Tables
import LuaExpander.Proofs.Unfolding

/-! What names mean once the standard definitions are made. Each definition begins with a name,
and a name has the transformer of the definition that begins with it. -/
namespace LuaExpander

/- The name has a standard definition, which takes no arguments. -/
def Registry.Offers (r : Registry) (name : String)
    (act : Token → Action (Value × Builder)) : Prop :=
  ∃ d transformer, r.active? name = some d ∧ d.params = none ∧ d.body = .callable transformer ∧
    transformer.run = Standard.bare act

theorem Registry.getPush (d : Definition) (r : Registry) (name : String) :
    (r.push d).get? name = if name = d.name then some d else r.get? name := by
  rw [get?, stackPush]
  split <;> rfl

namespace Standard

/- The text before a transformer is a name, possibly with parameters. -/
def Heads (spec name : String) (params : Option (List String)) : Prop :=
  ∃ first, Definition.header spec (some 0) = .ok ⟨first, name, params, []⟩

theorem makeHeads {spec : String} {t : Transformer} {depth : Nat} {d : Definition}
    (made : Definition.make spec (some (.callable t)) depth (some 0) = .ok d) :
    Heads spec d.name d.params ∧ d.body = .callable t := by
  obtain ⟨⟨first, name, params, rest⟩, front, made⟩ := exceptSucceeds made
  obtain ⟨body, isBody, made⟩ := exceptSucceeds made
  cases made
  cases rest with
  | nil =>
    cases isBody
    exact ⟨⟨first, front⟩, rfl⟩
  | cons u us => cases isBody

/- A name has the meaning of an entry, or that which it had before. -/
theorem installAllMeans {entries : List (String × String × (Call → Program))} {s s' : Session}
    (ran : (installAll entries).run.run s = (.ok (), s')) (sound : s.registry.Sound) :
    s'.registry.Sound ∧ s'.blocks = s.blocks ∧
      ∀ name, s'.registry.get? name = s.registry.get? name ∨
      ∃ e ∈ entries, ∃ d id, Heads e.1 name d.params ∧ d.body = .callable ⟨e.2.1, id, e.2.2⟩ ∧
        s'.registry.get? name = some d := by
  induction entries generalizing s with
  | nil =>
    cases ran
    exact ⟨sound, rfl, fun name => .inl rfl⟩
  | cons entry entries ih =>
    obtain ⟨spec, title, run⟩ := entry
    rw [installAll, runBind, runGet] at ran
    dsimp only at ran
    rw [runBind, runSet] at ran
    dsimp only at ran
    obtain ⟨d, between, made, ran⟩ := bindSucceeds ran
    obtain ⟨isMade, registry, blocks⟩ := Session.defineSucceeds made
    obtain ⟨heads, body⟩ := makeHeads isMade
    have free : Free d.name := Definition.makeFree isMade
    have first : between.registry.Sound := registry ▸ Registry.pushSound sound free
    obtain ⟨after, same, means⟩ := ih ran first
    refine ⟨after, same.trans blocks, fun name => ?_⟩
    rcases means name with same | ⟨e, member, later⟩
    · rw [registry, Registry.getPush] at same
      by_cases isName : name = d.name
      · rw [if_pos isName] at same
        exact .inr ⟨_, List.mem_cons_self, d, _, isName ▸ heads, body, same⟩
      · rw [if_neg isName] at same
        exact .inl same
    · exact .inr ⟨e, List.mem_cons_of_mem _ member, later⟩

/- The names and parameters that the definitions begin with, and the names of the transformers. -/
def titles : List ((String × Option (List String)) × String) :=
  [(("__FILE__", none), "file"), (("__LINE__", none), "line"),
   (("_STR_", some ["x"]), "stringize"), (("_CONCAT_", some ["a", "b"]), "concat"),
   (("@", none), "directive"), (("_UNROLL_", none), "unroll"),
   (("__UNROLL_STEP__", none), "unroll_step"), (("__UNROLL_DONE__", none), "unroll_done")]

theorem headsTitled {e : String × String × (Call → Program)} (member : e ∈ definitions)
    {name : String} {params : Option (List String)} (heads : Heads e.1 name params) :
    ((name, params), e.2.1) ∈ titles := by
  let head := fun e : String × String × (Call → Program) =>
    ((Definition.header e.1 (some 0)).toOption.map fun h => (h.name, h.params), e.2.1)
  have all : definitions.map head = titles.map fun x => (some x.1, x.2) := by decide +kernel
  obtain ⟨first, front⟩ := heads
  have listed : (some (name, params), e.2.1) ∈ definitions.map head :=
    List.mem_map.mpr ⟨e, member, by simp [head, front, Except.toOption]⟩
  rw [all] at listed
  obtain ⟨⟨head, title⟩, inside, same⟩ := List.mem_map.mp listed
  cases same
  exact inside

theorem installMeans : (install {}).registry.Sound ∧ (install {}).blocks = {} ∧ ∀ name d,
    (install {}).registry.get? name = some d →
      ∃ e ∈ definitions, ∃ id, ((name, d.params), e.2.1) ∈ titles ∧
        d.body = .callable ⟨e.2.1, id, e.2.2⟩ := by
  have installs : ((installAll definitions).run.run {}).1.isOk = true := by decide +kernel
  rcases ran : (installAll definitions).run.run {} with ⟨e | ⟨⟨⟩⟩, s⟩
  · rw [ran] at installs
    contradiction
  · rw [show install {} = s from congrArg Prod.snd ran]
    obtain ⟨sound, blocks, means⟩ := installAllMeans ran Registry.emptySound
    refine ⟨sound, blocks, fun name d found => ?_⟩
    rcases means name with same | ⟨e, member, d', id, heads, body, here⟩
    · rw [found] at same
      simp [Registry.get?, Registry.stack?] at same
    · cases found.symm.trans here
      exact ⟨e, member, id, headsTitled member heads, body⟩

theorem installDefined : ∀ x ∈ titles, ((install {}).registry.get? x.1.1).isSome = true := by
  decide +kernel

theorem installOffers {name title : String} {act : Token → Action (Value × Builder)}
    (member : ((name, none), title) ∈ titles) (isName : Literal.isName name = true)
    (only : ∀ x ∈ titles, x.1.1 = name → x = ((name, none), title))
    (runs : ∀ e ∈ definitions, e.2.1 = title → e.2.2 = bare act) :
    (install {}).registry.Offers name act := by
  obtain ⟨d, found⟩ := Option.isSome_iff_exists.mp (installDefined _ member)
  obtain ⟨e, isEntry, id, inside, body⟩ := installMeans.2.2 name d found
  have same := only _ inside rfl
  simp only [Prod.mk.injEq, true_and] at same
  refine ⟨d, _, ?_, same.1, body, runs e isEntry same.2⟩
  rw [Registry.get?, Registry.stack?, if_pos isName] at found
  exact found

end Standard

end LuaExpander
