import LuaExpander.CommandLine.Folder

/-! Writing a file changes that file and nothing else: all other files have the contents that they
had, and every path leads where it led. -/
namespace LuaExpander.CommandLine.Folder

variable {f g h : Folder} {place : Path} {contents : ByteArray}

theorem lookupCons (path : Path) (old : ByteArray) (rest : List (Path × ByteArray)) (other : Path) :
    List.lookup other ((path, old) :: rest) =
      if other = path then some old else rest.lookup other := by
  by_cases same : other = path
  · simp [same]
  · simp [List.lookup_cons, beq_false_of_ne same, same]

theorem lookupReplaced {files : List (Path × ByteArray)} {other : Path}
    (present : other = place → files.any (·.1 == place) = true) :
    (files.map fun entry => if entry.1 == place then (place, contents) else entry).lookup other =
      if other = place then some contents else files.lookup other := by
  induction files with
  | nil => by_cases same : other = place <;> simp_all
  | cons entry rest ih =>
    obtain ⟨path, old⟩ := entry
    grind [lookupCons]

theorem lookupAdded {files : List (Path × ByteArray)} (absent : ¬ files.any (·.1 == place) = true)
    (other : Path) :
    (files ++ [(place, contents)]).lookup other =
      if other = place then some contents else files.lookup other := by
  induction files with
  | nil => simp [lookupCons]
  | cons entry rest ih =>
    obtain ⟨path, old⟩ := entry
    grind [lookupCons]

theorem getSet (f : Folder) (place : Path) (contents : ByteArray) (other : Path) :
    (f.set place contents).get? other = if other = place then some contents else f.get? other := by
  unfold set get?
  split
  · exact lookupReplaced fun _ => by assumption
  · exact lookupAdded (by assumption) other

theorem isFolderSet (f : Folder) (place : Path) (contents : ByteArray) (path : Path) :
    (f.set place contents).isFolder path =
      (f.isFolder path || (path.isPrefixOf place && path != place)) := by
  unfold set isFolder
  split
  · rename_i present
    obtain ⟨entry, inside, same⟩ := List.any_eq_true.mp present
    rw [Bool.eq_iff_iff]
    simp only [List.any_map, List.any_eq_true, Bool.or_eq_true, Function.comp]
    grind
  · simp

/- The same folders are inside. -/
def SameTree (f g : Folder) : Prop := ∀ path ≠ [], g.isFolder path = f.isFolder path

theorem followSame (same : SameTree f g) (place : Path) (names : List String) :
    g.follow place names = f.follow place names := by
  fun_induction follow f place names with
  | case1 place => rfl
  | _ => simp_all [follow, same (_ ++ [_]) (by simp)]

theorem locateSame (same : SameTree f g) (path : String) : g.locate path = f.locate path := by
  simp only [locate, followSame same]

/- A path leads through folders that are there. -/
theorem followThrough {names : List String} {place target : Path}
    (inside : ∀ path ≠ [], path <+: place → f.isFolder path = true)
    (followed : f.follow place names = some target) :
    ∀ path ≠ [], path <+: target → path ≠ target → f.isFolder path = true := by
  fun_induction follow f place names with
  | case1 place => simp at followed
  | case2 place last bad => simp at followed
  | case3 place last good =>
    obtain rfl := Option.some.inj followed
    intro path filled front differs
    exact inside path filled ((List.prefix_concat_iff.mp front).resolve_left differs)
  | case4 place part rest _ same ih => exact ih inside followed
  | case5 place rest _ _ empty => simp at followed
  | case6 place rest _ _ filled ih =>
    refine ih (fun path isFilled front => inside path isFilled ?_) followed
    exact front.trans (List.dropLast_prefix place)
  | case7 place part rest _ _ _ enters ih =>
    refine ih (fun path isFilled front => ?_) followed
    rcases List.prefix_concat_iff.mp front with rfl | shorter
    · exact enters
    · exact inside path isFilled shorter
  | case8 => simp at followed

theorem locatedThrough {path : String} (located : f.locate path = some place) :
    ∀ path ≠ [], path <+: place → path ≠ place → f.isFolder path = true := by
  unfold locate at located
  split at located
  · simp at located
  · refine followThrough (fun path filled front => ?_) located
    exact absurd (List.prefix_nil.mp front) filled

theorem setTree {path : String} (located : f.locate path = some place) (contents : ByteArray) :
    SameTree f (f.set place contents) := by
  intro other filled
  have through := locatedThrough located other filled
  rw [isFolderSet, Bool.eq_iff_iff]
  simp only [Bool.or_eq_true, Bool.and_eq_true, List.isPrefixOf_iff_prefix, bne_iff_ne]
  constructor
  · rintro (before | ⟨front, differs⟩)
    · exact before
    · exact through front differs
  · exact .inl

/- Only files at certain places may have changed. -/
structure Within (touched : Path → Prop) (f g : Folder) : Prop where
  tree : SameTree f g
  others : ∀ place, ¬ touched place → g.get? place = f.get? place

namespace Within

variable {touched : Path → Prop}

theorem refl (f : Folder) : Within touched f f := ⟨fun _ _ => rfl, fun _ _ => rfl⟩

theorem trans (first : Within touched f g) (second : Within touched g h) : Within touched f h where
  tree path filled := (second.tree path filled).trans (first.tree path filled)
  others place free := (second.others place free).trans (first.others place free)

theorem widen {wider : Path → Prop} (within : Within touched f g)
    (covers : ∀ place, touched place → wider place) : Within wider f g where
  tree := within.tree
  others place free := within.others place fun held => free (covers place held)

theorem locate (within : Within touched f g) (path : String) : g.locate path = f.locate path :=
  locateSame within.tree path

theorem read (within : Within touched f g) {path : String}
    (free : ∀ place, f.locate path = some place → ¬ touched place) : g.read path = f.read path := by
  unfold Folder.read
  rw [within.locate]
  cases located : f.locate path with
  | none => rfl
  | some place => exact within.others place (free place located)

theorem ofSet {path : String} (located : f.locate path = some place) (contents : ByteArray) :
    Within (· = place) f (f.set place contents) where
  tree := setTree located contents
  others other free := by rw [getSet, if_neg free]

end Within

/- A file can be written: a path leads to it, and it is no folder. -/
def Open (f : Folder) (path : String) : Prop :=
  ∃ place, f.locate path = some place ∧ f.isFolder place = false

theorem followFilled {names : List String} {place target : Path}
    (followed : f.follow place names = some target) : target ≠ [] := by
  fun_induction follow f place names with
  | case3 place last good =>
    obtain rfl := Option.some.inj followed
    simp
  | _ => simp_all

theorem Within.stillOpen {touched : Path → Prop} (within : Within touched f g) {path : String}
    (isOpen : f.Open path) : g.Open path := by
  obtain ⟨place, located, free⟩ := isOpen
  refine ⟨place, (within.locate path).trans located, ?_⟩
  unfold Folder.locate at located
  split at located
  · simp at located
  · exact (within.tree place (followFilled located)).trans free

theorem overwriteWithin (f : Folder) (path text : String) :
    Within (f.locate path = some ·) f (f.overwrite path text) := by
  unfold overwrite
  cases located : f.locate path with
  | none => exact .refl f
  | some place =>
    refine (Within.ofSet located _).widen fun other same => ?_
    rw [same]

theorem written {path : String} (isOpen : f.Open path) (text : String) :
    ∃ g, f.create path = some g ∧ Within (f.locate path = some ·) f (g.overwrite path text) ∧
      (g.overwrite path text).read path = some text.toUTF8 := by
  obtain ⟨place, located, free⟩ := isOpen
  have created : f.create path = some (f.set place .empty) := by
    simp [create, located, free]
  have first : Within (· = place) f (f.set place .empty) := .ofSet located _
  have located' : (f.set place .empty).locate path = some place :=
    (first.locate path).trans located
  have overwritten : (f.set place .empty).overwrite path text =
      (f.set place .empty).set place text.toUTF8 := by
    simp [overwrite, located', getSet, ByteArray.extract_eq_empty_iff.mpr]
  have second : Within (· = place) (f.set place .empty)
      ((f.set place .empty).set place text.toUTF8) := .ofSet located' _
  refine ⟨_, created, ?_, ?_⟩
  · rw [overwritten]
    exact (first.trans second).widen fun other same => by rw [same, located]
  · rw [overwritten, read, second.locate, located', Option.bind_some, getSet, if_pos rfl]

end LuaExpander.CommandLine.Folder
