import LuaExpander.Proofs.Scanning
import LuaExpander.Proofs.Stacks
import LuaExpander.Proofs.Waiting
import LuaExpander.Standard

/-! Scopes and units. Throughout a unit, a definition that is to last until a block ends stood
already before the unit, or a handler waits that will take it back. So a unit that succeeds takes
back all such definitions that it made. Those that stood before it remain: the beginning of a unit
forgets the handlers that wait, and a unit that fails does not let them fire.

A session does not know which of its definitions are of that sort. A ledger does, which is kept
beside it. -/
namespace LuaExpander

/- The definitions of each name, the newest last, and the name under which each was scoped, if it
was. -/
def Ledger := String → List (Definition × Option String)

namespace Ledger

def unscoped (r : Registry) : Ledger := fun name => (r.definitions name).map fun d => (d, none)

def push (d : Definition) (scopedAs : Option String) (l : Ledger) : Ledger := fun name =>
  if name = d.name then l name ++ [(d, scopedAs)] else l name

def undefine (gone : String) (l : Ledger) : Ledger := fun name =>
  if name = gone then (l name).dropLast else l name

def restore (subject : String) (height : Nat) (l : Ledger) : Ledger := fun name =>
  if name = subject then (l name).take height else l name

def Records (l : Ledger) (r : Registry) : Prop :=
  ∀ name, (l name).map Prod.fst = r.definitions name

def Stands (l : Ledger) (name : String) (place : Nat) (d : Definition) : Prop :=
  (l name)[place]? = some (d, some name)

variable {l : Ledger} {r : Registry} {name subject : String} {place height : Nat} {d : Definition}

theorem unscopedRecords (r : Registry) : (unscoped r).Records r := by
  intro name
  simp [unscoped, Function.comp_def]

theorem unscopedStands : ¬ (unscoped r).Stands name place d := by
  simp [Stands, unscoped]

theorem recordsHeight (records : l.Records r) (name : String) : (l name).length = r.height name := by
  rw [← Registry.definitionsLength, ← records name, List.length_map]

theorem pushRecords (records : l.Records r) (d : Definition) (scopedAs : Option String) :
    (l.push d scopedAs).Records (r.push d) := by
  intro name
  rw [push, Registry.definitionsPush, ← records name]
  split
  · rw [List.map_append, List.map_singleton]
  · rfl

theorem undefineRecords (records : l.Records r) (gone : String) :
    (l.undefine gone).Records (r.undefine gone) := by
  intro name
  rw [undefine, Registry.definitionsUndefine, ← records name]
  split
  · exact List.map_dropLast
  · rfl

theorem restoreRecords (records : l.Records r) (subject : String) (height : Nat) :
    (l.restore subject height).Records (r.restore subject height) := by
  intro name
  rw [restore, Registry.definitionsRestore, ← records name]
  split
  · exact List.map_take
  · rfl

theorem pushStands {made : Definition} {scopedAs : Option String}
    (stands : (l.push made scopedAs).Stands name place d) :
    l.Stands name place d ∨ scopedAs = some name ∧ place = (l name).length := by
  rw [Stands, push] at stands
  split at stands
  · rcases Nat.lt_trichotomy place (l name).length with old | here | beyond
    · rw [List.getElem?_append_left old] at stands
      exact .inl stands
    · rw [here, List.getElem?_concat_length] at stands
      cases stands
      exact .inr ⟨rfl, here⟩
    · rw [List.getElem?_eq_none (by simp; omega)] at stands
      contradiction
  · exact .inl stands

theorem undefineStands {gone : String} (stands : (l.undefine gone).Stands name place d) :
    l.Stands name place d := by
  rw [Stands, undefine] at stands
  split at stands
  · rw [List.getElem?_dropLast] at stands
    split at stands
    · exact stands
    · contradiction
  · exact stands

theorem restoreStands (stands : (l.restore subject height).Stands name place d) :
    l.Stands name place d ∧ (name = subject → place < height) := by
  rw [Stands, restore] at stands
  split at stands
  · rw [List.getElem?_take] at stands
    split at stands
    · rename_i low
      exact ⟨stands, fun _ => low⟩
    · contradiction
  · rename_i different
    exact ⟨stands, fun same => absurd same different⟩

/- What a change of the session does to the ledger. -/
inductive Noted (s s' : Session) (l : Ledger) : Ledger → Prop where
  | same (changed : Session.Change s s') (registry : s'.registry = s.registry) : Noted s s' l l
  | define {spec : String} {meaning : Option Definition.Meaning} {line : Line} {d : Definition}
      (made : Definition.make spec meaning s.blocks.depth line = .ok d)
      (registry : s'.registry = s.registry.push d) (blocks : s'.blocks = s.blocks) :
      Noted s s' l (l.push d none)
  | scope {name : String} {meaning : Option Definition.Meaning} {d : Definition}
      (made : Definition.make name meaning s.blocks.depth (some 0) = .ok d)
      (registry : s'.registry = s.registry.push d)
      (blocks : s.blocks.defer (.restore name (s.registry.height name)) none = .ok s'.blocks) :
      Noted s s' l (l.push d (some name))
  | undefine (name : String) (registry : s'.registry = s.registry.undefine name)
      (blocks : s'.blocks = s.blocks) : Noted s s' l (l.undefine name)

/- The ledger, kept from `start` on, when the session has come to `s` and the handlers `due` have yet
to fire. -/
inductive Written (first : Ledger) (start : Session) :
    List Handler → Session → Ledger → Prop where
  | begins : Written first start [] start first
  | also {handlers due s l} (before : Written first start due s l) :
      Written first start (handlers ++ due) s l
  | changed {due s s' l l'} (before : Written first start due s l) (noted : Noted s s' l l') :
      Written first start due s' l'
  | restored {subject height due s l}
      (before : Written first start (.restore subject height :: due) s l) :
      Written first start due (s.restore subject height) (l.restore subject height)
  | fired {name run due s l} (before : Written first start (.program name run :: due) s l) :
      Written first start due s l
  | finished {t handlers blocks s l} (before : Written first start [] s l)
      (finished : s.blocks.finish t = .ok (handlers, blocks)) :
      Written first start handlers { s with blocks } l
  | entered {t due s l} (before : Written first start due s l) :
      Written first start due (s.enterBlock t) l
  | left {t handlers s s' l} (before : Written first start [] s l)
      (left : s.leaveBlock t = .ok (handlers, s')) : Written first start handlers s' l

theorem changeNoted {s s' : Session} (changed : Session.Change s s') (l : Ledger) :
    ∃ l', Noted s s' l l' := by
  cases changed with
  | quiet same => exact ⟨l, .same (.quiet same) same.registry⟩
  | define made registry blocks => exact ⟨_, .define made registry blocks⟩
  | scope made registry blocks => exact ⟨_, .scope made registry blocks⟩
  | undefine name registry blocks => exact ⟨_, .undefine name registry blocks⟩
  | defer registry blocks => exact ⟨l, .same (.defer registry blocks) registry⟩
  | onKeyword registry blocks => exact ⟨l, .same (.onKeyword registry blocks) registry⟩

/- There is a ledger of everything that a scan does. -/
theorem writtenInvariant (first : Ledger) (start : Session) :
    Scan.BlockInvariant fun due s => ∃ l, Written first start due s l where
  also := fun ⟨l, before⟩ => ⟨l, .also before⟩
  change := fun changed ⟨l, before⟩ => by
    obtain ⟨l', noted⟩ := changeNoted changed l
    exact ⟨l', .changed before noted⟩
  restored := fun ⟨_, before⟩ => ⟨_, .restored before⟩
  fired := fun ⟨l, before⟩ => ⟨l, .fired before⟩
  finished := fun finished ⟨l, before⟩ => ⟨l, .finished before finished⟩
  entered := fun ⟨l, before⟩ => ⟨l, .entered before⟩
  left := fun left ⟨l, before⟩ => ⟨l, .left before left⟩

theorem notedRecords {s s' : Session} {l l' : Ledger} (noted : Noted s s' l l')
    (records : l.Records s.registry) : l'.Records s'.registry := by
  cases noted with
  | same changed registry => exact registry ▸ records
  | define made registry blocks => exact registry ▸ pushRecords records _ _
  | scope made registry blocks => exact registry ▸ pushRecords records _ _
  | undefine name registry blocks => exact registry ▸ undefineRecords records name

theorem writtenRecords {first : Ledger} {start s : Session} {due : List Handler} {l : Ledger}
    (records : first.Records start.registry) (written : Written first start due s l) :
    l.Records s.registry := by
  induction written with
  | begins => exact records
  | also before ih => exact ih
  | changed before noted ih => exact notedRecords noted ih
  | restored before ih => exact Session.restoreRegistry _ _ _ ▸ restoreRecords ih _ _
  | fired before ih => exact ih
  | finished before finished ih => exact ih
  | entered before ih =>
    rw [Session.enterBlockRegistry]
    exact ih
  | left before left ih => exact (Session.leaveBlockSucceeds left).2 ▸ ih

/- A handler is due or waits that cuts the definitions of the name off at this place or below. -/
def Arranged (name : String) (place : Nat) (due : List Handler) (blocks : Blocks Handler) : Prop :=
  ∃ height, height ≤ place ∧
    (.restore name height ∈ due ∨ ∃ depth, .restore name height ∈ blocks.waiting depth)

def Covered (first l : Ledger) (due : List Handler) (blocks : Blocks Handler) : Prop :=
  ∀ name place d, l.Stands name place d →
    first.Stands name place d ∨ Arranged name place due blocks

variable {first l' : Ledger} {due due' : List Handler} {b b' : Blocks Handler}

theorem arrangedMore (before : Arranged name place due b) (more : ∀ h ∈ due, h ∈ due')
    (waiting : ∀ depth, ∀ h ∈ b.waiting depth, h ∈ due' ∨ h ∈ b'.waiting depth) :
    Arranged name place due' b' := by
  obtain ⟨height, low, isDue | ⟨depth, waits⟩⟩ := before
  · exact ⟨height, low, .inl (more _ isDue)⟩
  · rcases waiting depth _ waits with isDue | waits
    · exact ⟨height, low, .inl isDue⟩
    · exact ⟨height, low, .inr ⟨depth, waits⟩⟩

/- If nothing stands that did not stand before, it is enough that no handler is lost. -/
theorem coveredFewer (before : Covered first l due b)
    (fewer : ∀ name place d, l'.Stands name place d → l.Stands name place d)
    (more : ∀ h ∈ due, h ∈ due')
    (waiting : ∀ depth, ∀ h ∈ b.waiting depth, h ∈ due' ∨ h ∈ b'.waiting depth) :
    Covered first l' due' b' := by
  intro name place d stands
  rcases before name place d (fewer name place d stands) with stood | arranged
  · exact .inl stood
  · exact .inr (arrangedMore arranged more waiting)

theorem changeWaits {s s' : Session} (changed : Session.Change s s') (depth : Nat) (h : Handler)
    (waits : h ∈ s.blocks.waiting depth) : h ∈ s'.blocks.waiting depth := by
  cases changed with
  | quiet same => exact same.blocks ▸ waits
  | define made registry blocks => exact blocks ▸ waits
  | scope made registry blocks => exact Blocks.deferKeeps blocks depth h waits
  | undefine name registry blocks => exact blocks ▸ waits
  | defer registry blocks => exact Blocks.deferKeeps blocks depth h waits
  | onKeyword registry blocks =>
    rw [blocks]
    exact waits

theorem coveredNoted {s s' : Session} (noted : Noted s s' l l') (records : l.Records s.registry)
    (before : Covered first l due s.blocks) : Covered first l' due s'.blocks := by
  cases noted with
  | same changed registry =>
    exact coveredFewer before (fun _ _ _ stands => stands) (fun _ member => member)
      (fun depth h waits => .inr (changeWaits changed depth h waits))
  | define made registry blocks =>
    refine coveredFewer before ?_ (fun _ member => member) (fun _ _ waits => .inr (blocks ▸ waits))
    intro name place d stands
    rcases pushStands stands with old | ⟨impossible, -⟩
    · exact old
    · contradiction
  | @scope subject _ _ made registry blocks =>
    intro name place d stands
    rcases pushStands stands with old | ⟨own, here⟩
    · rcases before name place d old with stood | arranged
      · exact .inl stood
      · exact .inr (arrangedMore arranged (fun _ member => member)
          (fun depth h waits => .inr (Blocks.deferKeeps blocks depth h waits)))
    · cases own
      obtain ⟨depth, -, -, -, waits⟩ := Blocks.deferSucceeds blocks
      refine .inr ⟨place, Nat.le_refl _, .inr ⟨depth, ?_⟩⟩
      rw [waits, if_pos rfl, here, recordsHeight records]
      exact List.mem_append_right _ List.mem_cons_self
  | undefine gone registry blocks =>
    exact coveredFewer before (fun _ _ _ stands => undefineStands stands) (fun _ member => member)
      (fun _ _ waits => .inr (blocks ▸ waits))

theorem coveredRestored (before : Covered first l (.restore subject height :: due) b) :
    Covered first (l.restore subject height) due b := by
  intro name place d stands
  obtain ⟨old, low⟩ := restoreStands stands
  rcases before name place d old with stood | ⟨reached, above, isDue | waits⟩
  · exact .inl stood
  · rcases List.mem_cons.mp isDue with now | later
    · -- The handler that fires now has cut the definition off.
      cases now
      have := low rfl
      omega
    · exact .inr ⟨reached, above, .inl later⟩
  · exact .inr ⟨reached, above, .inr waits⟩

theorem coveredFired {word : String} {run : Token → Program}
    (before : Covered first l (.program word run :: due) b) : Covered first l due b := by
  intro name place d stands
  rcases before name place d stands with stood | ⟨height, above, isDue | waits⟩
  · exact .inl stood
  · rcases List.mem_cons.mp isDue with impossible | later
    · contradiction
    · exact .inr ⟨height, above, .inl later⟩
  · exact .inr ⟨height, above, .inr waits⟩

/- The handlers of one depth wait no more and are due. -/
theorem coveredDue {handlers : List Handler} {vacated : Nat} (before : Covered first l [] b)
    (isDue : handlers = (b.waiting vacated).reverse)
    (waiting : ∀ depth, b'.waiting depth = if depth = vacated then [] else b.waiting depth) :
    Covered first l handlers b' := by
  refine coveredFewer before (fun _ _ _ stands => stands) (by simp) ?_
  intro depth h waits
  rw [waiting]
  split
  · rename_i here
    rw [isDue, List.mem_reverse, ← here]
    exact .inl waits
  · exact .inr waits

theorem writtenCovered {start s : Session} (records : first.Records start.registry)
    (written : Written first start due s l) : Covered first l due s.blocks := by
  induction written with
  | begins => exact fun _ _ _ stands => .inl stands
  | also before ih =>
    exact coveredFewer ih (fun _ _ _ stands => stands)
      (fun _ member => List.mem_append_right _ member) (fun _ _ waits => .inr waits)
  | changed before noted ih => exact coveredNoted noted (writtenRecords records before) ih
  | restored before ih =>
    rw [Session.restoreBlocks]
    exact coveredRestored ih
  | fired before ih => exact coveredFired ih
  | finished before finished ih =>
    obtain ⟨-, -, isDue, -, waiting⟩ := Blocks.finishSucceeds finished
    exact coveredDue ih isDue waiting
  | entered before ih =>
    refine coveredFewer ih (fun _ _ _ stands => stands) (fun _ member => member) ?_
    intro depth h waits
    rw [Session.enterBlockBlocks]
    exact .inr waits
  | left before left ih =>
    obtain ⟨-, isDue, -, waiting⟩ := Blocks.leaveSucceeds (Session.leaveBlockSucceeds left).1
    exact coveredDue ih isDue waiting

end Ledger

namespace Session

/- The ledger that is kept in a unit, when its session has come to `now`. -/
def UnitWrites (s : Session) (source : Source) (unitName : Option String) (first : Ledger)
    (now : Session) (l : Ledger) : Prop :=
  Ledger.Written first (s.unitStart source unitName).session [] now l

theorem unitRecords {s now : Session} {source : Source} {unitName : Option String}
    {first l : Ledger} (records : first.Records s.registry)
    (writes : s.UnitWrites source unitName first now l) :
    l.Records now.registry ∧ first.Covered l [] now.blocks := by
  have same : (s.unitStart source unitName).session.registry = s.registry := beginUnitRegistry _ s
  exact ⟨Ledger.writtenRecords (same ▸ records) writes,
    Ledger.writtenCovered (same ▸ records) writes⟩

theorem visitsWritten {steps source unitName s scan}
    (visits : UnitVisits steps source unitName s scan) (first : Ledger) :
    (∃ l, s.UnitWrites source unitName first scan.session l) ∧ scan.nested = false := by
  obtain ⟨start, began, visited⟩ := visits
  have inv := Ledger.writtenInvariant first (s.unitStart source unitName).session
  obtain ⟨written, framed⟩ := Scan.beginKeeps inv.toInvariant began ⟨first, .begins⟩
  exact Scan.visitsKeep inv visited framed.nested written

theorem scopesEndWithUnit (steps : Nat) (source : Source) (unitName : Option String) (s : Session)
    {first : Ledger} (records : first.Records s.registry) :
    (∀ scan, s.UnitVisits steps source unitName scan →
      (∃ l, s.UnitWrites source unitName first scan.session l) ∧
      ∀ l, s.UnitWrites source unitName first scan.session l →
        l.Records scan.session.registry ∧ ∀ name place d, l.Stands name place d →
          first.Stands name place d ∨ ∃ depth height, height ≤ place ∧
            .restore name height ∈ scan.session.blocks.waiting depth) ∧
    ∀ ts s', s.expandUnit steps source unitName = (.ok ts, s') →
      (∃ l, s.UnitWrites source unitName first s' l) ∧
      ∀ l, s.UnitWrites source unitName first s' l →
        l.Records s'.registry ∧ ∀ name place d, l.Stands name place d →
          first.Stands name place d := by
  constructor
  · intro scan visits
    refine ⟨(visitsWritten visits first).1, fun l writes => ?_⟩
    obtain ⟨recorded, covered⟩ := unitRecords records writes
    refine ⟨recorded, fun name place d stands => ?_⟩
    rcases covered name place d stands with stood | ⟨height, low, isDue | ⟨depth, waits⟩⟩
    · exact .inl stood
    · contradiction
    · exact .inr ⟨depth, height, low, waits⟩
  · intro ts s' ran
    obtain ⟨final, whole, quiet⟩ := expandUnitSucceeds ran
    obtain ⟨start, began, scanned⟩ := Scan.unitSucceeds whole
    obtain ⟨left, last, visits, ended, -⟩ := Scan.runVisits scanned
    obtain ⟨⟨l, written⟩, unit⟩ := visitsWritten ⟨start, began, visits⟩ first
    obtain ⟨t, -, -, session, checked⟩ := Scan.lastStep ended unit
    rw [session] at quiet
    refine ⟨⟨l, .changed written (.same (.quiet quiet) quiet.registry)⟩, fun l' writes => ?_⟩
    obtain ⟨recorded, covered⟩ := unitRecords records writes
    refine ⟨recorded, fun name place d stands => ?_⟩
    have nothing := ((Blocks.checkFinishedOk _ _).mp checked).2
    rcases covered name place d stands with stood | ⟨height, low, isDue | ⟨depth, waits⟩⟩
    · exact stood
    · contradiction
    · rw [quiet.blocks, nothing] at waits
      contradiction

theorem scopesEndWithUnitAtTop :
    let s := Standard.install {}
    let source : Source := .text "@scope X 1\nx = X"
    let after := s.expandUnit 99 source none
    after.1.toOption.map Tokens.text = some "\nx = 1" ∧
      (∃ l, s.UnitWrites source none (.unscoped s.registry) after.2 l) ∧
      ∀ l, s.UnitWrites source none (.unscoped s.registry) after.2 l →
        ∀ name place d, ¬ l.Stands name place d := by
  intro s source after
  have output : after.1.toOption.map Tokens.text = some "\nx = 1" := by decide +kernel
  have ran : s.expandUnit 99 source none = after := rfl
  clear_value after s
  obtain ⟨answer, s'⟩ := after
  cases answer with
  | error e => contradiction
  | ok ts =>
    obtain ⟨written, each⟩ :=
      (scopesEndWithUnit 99 source none s (Ledger.unscopedRecords s.registry)).2 ts s' ran
    exact ⟨output, written, fun l writes name place d stands =>
      Ledger.unscopedStands ((each l writes).2 name place d stands)⟩

-- A unit that fails keeps its scopes, and a unit that succeeds those that were made before it.
theorem scopesOutliveUnits :
    let s := Standard.install {}
    let failed := s.expandUnit 99 (.text "do\n@scope X 1\nx = X\n") none
    let returned := ((scope "X" (some (.value (.text "1")))).run.run s).2.expandUnit 99
      (.text "x = X") none
    (s.registry.definitions "X").map (·.describe) = [] ∧
    (failed.1.isOk = false ∧
      (failed.2.registry.definitions "X").map (·.describe) = ["X='1'"]) ∧
    returned.1.isOk = true ∧
      (returned.2.registry.definitions "X").map (·.describe) = ["X='1'"] := by
  decide +kernel

end Session

end LuaExpander
