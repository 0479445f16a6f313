import LuaExpander.CommandLine.Run
import LuaExpander.Proofs.Changes

/-! The definitions of the command line are made and taken back in the order in which they are
given, up to the first that is refused. The text that is kept of an option tells definitions from
removals by an equals sign and a minus sign at the end; so a removal is taken for a definition when
there is an equals sign in its name. -/
namespace LuaExpander.CommandLine

theorem splitNone {cs : List Char} (bare : '=' ∉ cs) : splitAssignment cs = (cs, none) := by
  have whole : cs.dropWhile (· ≠ '=') = [] := by
    induction cs with
    | nil => rfl
    | cons c cs ih =>
      obtain ⟨first, later⟩ := List.ne_and_not_mem_of_not_mem_cons bare
      simp only [List.dropWhile_cons, Ne.symm first, ne_eq, not_false_eq_true, decide_true, if_true]
      exact ih later
  simp only [splitAssignment, whole]

theorem splitSome {front : List Char} (bare : '=' ∉ front) (back : List Char) :
    splitAssignment (front ++ '=' :: back) = (front, some back) := by
  have differs : ∀ c ∈ front, decide (c ≠ '=') = true := by
    intro c inside
    simp only [decide_eq_true_eq]
    rintro rfl
    exact bare inside
  unfold splitAssignment
  rw [List.dropWhile_append_of_pos differs, List.takeWhile_append_of_pos differs]
  simp

/- The options that define and remove. -/
inductive Choice where
  | plain (name : String)
  | valued (name value : String)
  | removal (name : String)

namespace Choice

def item : Choice → Item
  | plain name => .define name
  | valued name value => .define (name ++ "=" ++ value)
  | removal name => .undefine name

/- A name ends where the equals sign is, and one that stands alone has no minus sign at its end. -/
def Formed : Choice → Prop
  | plain name => '=' ∉ name.toList ∧ name.toList.getLast? ≠ some '-'
  | valued name _ => '=' ∉ name.toList
  | removal _ => True

/- The session with a definition made, and whether it could be made. -/
def making (spec : String) (s : Session) : Bool × Session :=
  let (answer, s) := (Session.define spec none).run.run s
  (answer.isOk, s)

def effect : Choice → Session → Bool × Session
  | plain name, s => making (name ++ " 1") s
  | valued name value, s => making (name ++ " " ++ value) s
  | removal name, s => (true, s.undefine name)

def foldAll : List Choice → Session → Bool × Session
  | [], s => (true, s)
  | choice :: rest, s =>
    match choice.effect s with
    | (true, s) => foldAll rest s
    | (false, s) => (false, s)

/- What an option is taken for. -/
def taken : Choice → Choice
  | removal name =>
    match splitAssignment name.toList with
    | (front, some back) => valued (String.ofList front) (String.ofList back ++ "-")
    | (_, none) => removal name
  | choice => choice

theorem takenPlainly {name : String} (bare : '=' ∉ name.toList) :
    (removal name).taken = removal name := by
  simp only [taken, splitNone bare]

theorem takenForDefinition {name front back : String} (spelled : name = front ++ "=" ++ back)
    (bare : '=' ∉ front.toList) : (removal name).taken = valued front (back ++ "-") := by
  have split := splitSome bare back.toList
  simp [taken, spelled, split]

/- The outcome of an operation, without its answer. -/
def outcome (x : SessionM Unit) (s : Session) : Bool × Session :=
  ((x.run.run s).1.isOk, (x.run.run s).2)

theorem outcomeDefine (spec : String) (s : Session) :
    outcome (do let _ ← Session.define spec none) s = making spec s := by
  unfold outcome making
  rw [runBind]
  rcases (Session.define spec none).run.run s with ⟨e | d, s'⟩ <;> rfl

theorem applyPlain {name : String} (formed : (plain name).Formed) (s : Session) :
    outcome (Item.applyText name.toList) s = making (name ++ " 1") s := by
  obtain ⟨bare, kept⟩ := formed
  have spelled : Item.spec name.toList = name ++ " 1" := by
    simp only [Item.spec, splitNone bare]
    apply String.toList_injective
    simp
  have defines : (!name.toList.contains '=' && name.toList.getLast? == some '-') = false := by
    simp [bare, kept]
  simp only [Item.applyText, defines, spelled]
  exact outcomeDefine _ s

theorem applyValued {name : String} (bare : '=' ∉ name.toList) (value : String) (s : Session) :
    outcome (Item.applyText (name ++ "=" ++ value).toList) s = making (name ++ " " ++ value) s := by
  have letters : (name ++ "=" ++ value).toList = name.toList ++ '=' :: value.toList := by simp
  have spelled : Item.spec (name ++ "=" ++ value).toList = name ++ " " ++ value := by
    simp only [Item.spec, letters, splitSome bare]
    apply String.toList_injective
    simp
  have defines : (!(name ++ "=" ++ value).toList.contains '=' &&
      (name ++ "=" ++ value).toList.getLast? == some '-') = false := by
    simp
  simp only [Item.applyText, defines, spelled]
  exact outcomeDefine _ s

theorem applyRemoval {name : String} (bare : '=' ∉ name.toList) (s : Session) :
    outcome (Item.applyText (name ++ "-").toList) s = (true, s.undefine name) := by
  have removes : (!(name ++ "-").toList.contains '=' &&
      (name ++ "-").toList.getLast? == some '-') = true := by
    simp [bare]
  have spelled : String.ofList (name ++ "-").toList.dropLast = name := by simp
  simp only [Item.applyText, removes, spelled]
  rfl

theorem applyTaken (choice : Choice) (formed : choice.Formed) (s : Session) :
    outcome choice.item.apply s = choice.taken.effect s := by
  cases choice with
  | plain name => exact applyPlain formed s
  | valued name value => exact applyValued formed value s
  | removal name =>
    by_cases assigned : '=' ∈ name.toList
    · obtain ⟨front, back, letters, bare⟩ := List.eq_append_cons_of_mem assigned
      have spelled : name = String.ofList front ++ "=" ++ String.ofList back := by
        apply String.toList_injective
        simp [letters]
      have bare' : '=' ∉ (String.ofList front).toList := by simpa using bare
      rw [takenForDefinition spelled bare']
      have text : (removal name).item.text =
          String.ofList front ++ "=" ++ (String.ofList back ++ "-") := by
        simp only [item, Item.text, spelled, String.append_assoc]
      unfold Item.apply
      rw [text]
      exact applyValued bare' _ s
    · rw [takenPlainly assigned]
      exact applyRemoval assigned s

theorem applyAllTaken {choices : List Choice} (formed : ∀ choice ∈ choices, choice.Formed)
    (s : Session) :
    outcome (Item.applyAll (choices.map item)) s = foldAll (choices.map taken) s := by
  induction choices generalizing s with
  | nil => rfl
  | cons choice rest ih =>
    have first := applyTaken choice (formed choice (by simp)) s
    have later := ih fun other inside => formed other (by simp [inside])
    simp only [List.map_cons, Item.applyAll, foldAll]
    rw [← first]
    unfold outcome
    rw [runBind]
    rcases choice.item.apply.run.run s with ⟨f | ⟨⟩, s'⟩
    · rfl
    · exact later s'

end Choice

theorem beginOutcome (o : Options) :
    o.begin.1 = (Choice.outcome (Item.applyAll o.items) o.session).1 ∧
      o.begin.2.registry = (Choice.outcome (Item.applyAll o.items) o.session).2.registry := by
  unfold Options.begin Choice.outcome
  rcases (Item.applyAll o.items).run.run o.session with ⟨(e | f) | ⟨⟩, s⟩
  · exact ⟨rfl, (Session.reportQuiet _ _ _ _ s).registry⟩
  · exact ⟨rfl, (Session.reportQuiet _ _ _ _ s).registry⟩
  · exact ⟨rfl, rfl⟩

open Choice in
theorem predefinedInOrder {o : Options} {choices : List Choice}
    (formed : ∀ choice ∈ choices, choice.Formed) (given : o.items = choices.map item) :
    ((∀ name, removal name ∈ choices → '=' ∉ name.toList) →
      o.begin.1 = (foldAll choices o.session).1 ∧
        o.begin.2.registry = (foldAll choices o.session).2.registry) ∧
    (o.begin.1 = (foldAll (choices.map taken) o.session).1 ∧
      o.begin.2.registry = (foldAll (choices.map taken) o.session).2.registry) ∧
    ∀ front back : String, '=' ∉ front.toList →
      (removal (front ++ "=" ++ back)).taken = valued front (back ++ "-") := by
  have folded : o.begin.1 = (foldAll (choices.map taken) o.session).1 ∧
      o.begin.2.registry = (foldAll (choices.map taken) o.session).2.registry := by
    rw [← applyAllTaken formed, ← given]
    exact beginOutcome o
  refine ⟨fun bare => ?_, folded, fun _ _ => takenForDefinition rfl⟩
  have kept : choices.map taken = choices := by
    refine (List.map_congr_left fun choice inside => ?_).trans (List.map_id choices)
    cases choice with
    | plain name => rfl
    | valued name value => rfl
    | removal name => exact takenPlainly (bare name inside)
  rwa [kept] at folded

-- Options that name an operator macro and stop at a definition without a name.
open Choice in
theorem predefinedInOrderUpToRefused :
    let choices := [valued "A" "1=2", plain "->", removal "A", valued "" "", plain "B"]
    let o : Options := { items := choices.map item }
    o.begin.1 = (foldAll choices o.session).1 ∧
      o.begin.2.registry = (foldAll choices o.session).2.registry := by
  refine (predefinedInOrder ?_ rfl).1 ?_
  · simp [Formed]
  · simp

-- The option that removes `=` defines `-` instead.
open Choice in
theorem removalDefines :
    let o : Options := { items := [(removal "=").item], builtins := false }
    (removal "=").Formed ∧ o.begin.2.registry.isDefined "-" = true ∧
      (foldAll [removal "="] o.session).2.registry.isDefined "-" = false := by
  refine ⟨trivial, ?_, ?_⟩
  · decide +kernel
  · decide +kernel

end LuaExpander.CommandLine
