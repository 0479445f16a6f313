import LuaExpander.CommandLine.Run
import LuaExpander.Proofs.Aside
import LuaExpander.Proofs.Failing
import LuaExpander.Proofs.Folders

/-! A run of the command line is all or nothing. The units are expanded one after the other, those
behind one that has failed as well; the output has the texts of all of them, and is written only
when none has failed and all definitions of the command line were accepted. -/
namespace LuaExpander

namespace Session

/- The session with the failure of a unit given out. -/
def noting (s : Session) : Except Stop (List Token) → Session
  | .error (.failed (.error e)) => s.reportError e
  | _ => s

/- Units with their names and texts, each expanded in the session that the one before has left. -/
def batch (steps : Nat) :
    List (String × String) → Session → List (Except Stop (List Token)) × Session
  | [], s => ([], s)
  | (name, text) :: rest, s =>
    let first := s.expandUnit steps (.text text) (some name)
    let later := batch steps rest (first.2.noting first.1)
    (first.1 :: later.1, later.2)

theorem expandUnitErrors (steps : Nat) (source : Source) (unitName : Option String) (s : Session) :
    (s.expandUnit steps source unitName).2.errors = s.errors := by
  rcases expandUnitCases steps source unitName s with refused | ⟨-, closes⟩
  · rw [refused]
    rfl
  · have begun : (s.unitStart source unitName).session.errors = s.errors :=
      errorsAside.logText _ _ _ _
    have scanned := Scan.unitLasts (errorsAside.lasting s.errors) steps
      (s.unitStart source unitName) begun
    rw [closes, ← scanned]
    rcases (Scan.unit steps (s.unitStart source unitName)).1 with ((e | f) | _) | ts
    · exact errorsAside.logText _ _ _ _
    · rfl
    · rfl
    · rfl

theorem textUnitThrows {steps : Nat} {text : String} {unitName : Option String} {s : Session}
    {f : Failure} (failed : (s.expandUnit steps (.text text) unitName).1 = .error (.failed f)) :
    f.IsError := by
  rw [expandUnitAnswer (admitsText text unitName s)] at failed
  rcases answer : (Scan.unit steps (s.unitStart (.text text) unitName)).1 with ((e | x) | _) | ts <;>
    rw [answer] at failed <;> cases failed
  · exact trivial
  · exact Scan.unitThrows steps _ answer

theorem reportErrors (unitName : Option UnitName) (line : Line) (message : String) (s : Session) :
    (s.report .error unitName line message).errors = s.errors + 1 :=
  congrArg (· + 1) (errorsAside.logText _ line 0 s)

theorem batchErrors {steps : Nat} {units : List (String × String)} {s : Session}
    (ends : ∀ answer ∈ (s.batch steps units).1, answer ≠ .error .starved) :
    (s.batch steps units).2.errors = s.errors + (s.batch steps units).1.countP (!·.isOk) := by
  induction units generalizing s with
  | nil => rfl
  | cons unit rest ih =>
    obtain ⟨name, text⟩ := unit
    simp only [batch, List.mem_cons, forall_eq_or_imp] at ends ⊢
    obtain ⟨here, later⟩ := ends
    have same := expandUnitErrors steps (.text text) (some name) s
    rw [ih later]
    rcases answered : (s.expandUnit steps (.text text) (some name)).1 with ((e | f) | _) | ts
    · rw [List.countP_cons_of_pos rfl]
      simp only [noting, reportError, reportErrors, same]
      omega
    · exact (textUnitThrows answered).elim
    · exact absurd answered here
    · rw [List.countP_cons_of_neg (by simp [Except.isOk, Except.toBool])]
      simp only [noting, same]

end Session

namespace CommandLine

/- The texts of inputs, read from a desk one after the other. -/
def Desk.texts (d : Desk) : List Input → Option (List String)
  | [] => some []
  | .standard :: rest => (Desk.texts { d with input := "" } rest).map (d.input :: ·)
  | .file path :: rest =>
    ((d.folder.read path).bind Text.decode).bind fun text => (d.texts rest).map (text :: ·)

theorem deskBind {α β : Type} (act : StateM Desk α) (f : α → StateM Desk β) (d : Desk) :
    (act >>= f).run d = (f (act.run d).1).run (act.run d).2 := rfl

theorem hostBind {α β : Type} (act : StateM Desk α) (f : α → RunM (StateM Desk) β) (d : Desk) :
    ((liftM act : RunM (StateM Desk) α) >>= f).run.run d =
      (f (act.run d).1).run.run (act.run d).2 := rfl

theorem liftRuns {α : Type} (act : StateM Desk α) (d : Desk) :
    (ExceptT.lift act : RunM (StateM Desk) α).run.run d = (.ok (act.run d).1, (act.run d).2) := rfl

theorem liftBind {α β : Type} (act : StateM Desk α) (f : α → RunM (StateM Desk) β) (d : Desk) :
    ((ExceptT.lift act : RunM (StateM Desk) α) >>= f).run.run d =
      (f (act.run d).1).run.run (act.run d).2 := rfl

theorem errRuns (text : String) (d : Desk) :
    (Desk.host.err text).run d = ((), { d with err := d.err ++ text }) := rfl

theorem writeRuns {d : Desk} {path : String} {folder : Folder}
    (created : d.folder.create path = some folder) (text : String) :
    (Desk.host.write path text).run d = (true, { d with folder := folder.overwrite path text }) := by
  simp only [Host.write, Desk.host, bind_pure_comp, bind_assoc, StateT.run_bind, StateT.run_get,
    pure_bind, created, StateT.run_map, StateT.run_modify, map_pure, ↓reduceIte]
  rfl

/- The place of the log. -/
def Options.Logs (o : Options) (f : Folder) (place : Path) : Prop :=
  o.logPath?.bind f.locate = some place

theorem logsWithin {touched : Path → Prop} {f g : Folder} (within : Folder.Within touched f g)
    (o : Options) : o.Logs g = o.Logs f := by
  have same : g.locate = f.locate := funext within.locate
  unfold Options.Logs
  rw [same]

theorem writeLogRuns {o : Options} {d : Desk}
    (isOpen : ∀ path, o.logPath? = some path → d.folder.Open path) (p : Progress) :
    ∃ folder, (writeLog Desk.host o p).run.run d = (.ok (), { d with folder }) ∧
      Folder.Within (o.Logs d.folder) d.folder folder := by
  unfold writeLog Options.Logs
  cases logs : o.logPath? with
  | none => exact ⟨d.folder, rfl, .refl _⟩
  | some path =>
    obtain ⟨folder, created, within, -⟩ := Folder.written (isOpen path logs)
      (Log.render (p.session.log.getD #[]).toList)
    refine ⟨folder.overwrite path _, ?_, within⟩
    dsimp only
    rw [hostBind, writeRuns created]
    rfl

/- The texts of the units that were expanded. -/
def expansions (answers : List (Except Stop (List Token))) : List String :=
  answers.filterMap fun answer => answer.toOption.map Tokens.text

namespace Progress

/- What becomes of a run with the answers of further units and the session that they leave. -/
def after (p : Progress) (outcome : List (Except Stop (List Token)) × Session) : Progress :=
  { p with session := outcome.2, texts := p.texts ++ expansions outcome.1 }

theorem afterNone (p : Progress) : p.after ([], p.session) = p := by
  simp [after, expansions]

theorem afterCons (p : Progress) (answer : Except Stop (List Token)) (between : Session)
    (later : List (Except Stop (List Token)) × Session) :
    (p.after ([answer], between)).after later = p.after (answer :: later.1, later.2) := by
  simp [after, expansions, ← List.filterMap_append]

theorem settleFailed (p : Progress) (e : Error) (session : Session) :
    settle { p with session } (.error e) = p.after ([.error (.failed e)], session.reportError e) := by
  simp [settle, after, expansions, Except.toOption]

end Progress

theorem expandInputRuns {steps : Nat} {o : Options} {input : Input} {d : Desk} {text left : String}
    (isOpen : ∀ path, o.logPath? = some path → d.folder.Open path)
    (isRead : (readInput Desk.host input).run d = (some text, { d with input := left }))
    (p : Progress) {answer : Except Stop (List Token)} {session : Session}
    (expanded : p.session.expandUnit steps (.text text) (some input.name) = (answer, session))
    (ends : answer ≠ .error .starved) :
    ∃ folder, (expandInput Desk.host steps o p input).run.run d =
        (.ok (p.after ([answer], session.noting answer)), { d with input := left, folder }) ∧
      Folder.Within (o.Logs d.folder) d.folder folder := by
  obtain ⟨folder, logged, within⟩ := writeLogRuns (d := { d with input := left }) isOpen
    { p with session }
  refine ⟨folder, ?_, within⟩
  unfold expandInput
  rw [liftBind, isRead]
  rcases answer with ((e | f) | _) | ts
  · dsimp only
    rw [expanded, runBind, logged, Progress.settleFailed]
    rfl
  · exact (Session.textUnitThrows (congrArg Prod.fst expanded)).elim
  · exact absurd rfl ends
  · dsimp only
    rw [expanded, runBind, logged]
    rfl

/- The units of a run: its inputs with their texts. -/
def unitsOf (inputs : List Input) (texts : List String) : List (String × String) :=
  (inputs.map Input.name).zip texts

theorem textsWithin {touched : Path → Prop} {inputs : List Input} (d d' : Desk)
    (input : d'.input = d.input) (within : Folder.Within touched d.folder d'.folder)
    (free : ∀ path, .file path ∈ inputs → ∀ place, d.folder.locate path = some place →
      ¬ touched place) : d'.texts inputs = d.texts inputs := by
  induction inputs generalizing d d' with
  | nil => rfl
  | cons first rest ih =>
    have later := fun path (inside : .file path ∈ rest) => free path (by simp [inside])
    cases first with
    | standard =>
      simp only [Desk.texts, input]
      rw [ih { d with input := "" } { d' with input := "" } rfl within later]
    | file path =>
      simp only [Desk.texts]
      rw [ih d d' input within later, within.read (free path (by simp))]

/- One input after the other: the first is read from the desk as it is. -/
theorem textsCons {input : Input} {rest : List Input} {d : Desk} {texts : List String}
    (readable : d.texts (input :: rest) = some texts) :
    ∃ text more left, texts = text :: more ∧
      (readInput Desk.host input).run d = (some text, { d with input := left }) ∧
      Desk.texts { d with input := left } rest = some more := by
  cases input with
  | standard =>
    obtain ⟨more, later, rfl⟩ := Option.map_eq_some_iff.mp readable
    exact ⟨d.input, more, "", rfl, rfl, later⟩
  | file path =>
    obtain ⟨text, here, found⟩ := Option.bind_eq_some_iff.mp readable
    obtain ⟨more, later, rfl⟩ := Option.map_eq_some_iff.mp found
    refine ⟨text, more, d.input, rfl, ?_, later⟩
    rw [← here]
    rfl

theorem expandInputsRuns {steps : Nat} {o : Options} {inputs : List Input} {d : Desk}
    {texts : List String} (readable : d.texts inputs = some texts)
    (isOpen : ∀ path, o.logPath? = some path → d.folder.Open path)
    (free : ∀ path, .file path ∈ inputs → ∀ place, d.folder.locate path = some place →
      ¬ o.Logs d.folder place) (p : Progress)
    (ends : ∀ answer ∈ (p.session.batch steps (unitsOf inputs texts)).1,
      answer ≠ .error .starved) :
    ∃ input folder, (expandInputs Desk.host steps o p inputs).run.run d =
        (.ok (p.after (p.session.batch steps (unitsOf inputs texts))), { d with input, folder }) ∧
      Folder.Within (o.Logs d.folder) d.folder folder := by
  induction inputs generalizing d p texts with
  | nil =>
    refine ⟨d.input, d.folder, ?_, .refl _⟩
    rw [expandInputs, runPure, unitsOf, List.map_nil, List.zip_nil_left, Session.batch,
      Progress.afterNone]
  | cons input rest ih =>
    obtain ⟨text, more, left, rfl, isRead, later⟩ := textsCons readable
    rcases expanded : p.session.expandUnit steps (.text text) (some input.name) with
      ⟨answer, session⟩
    have units : unitsOf (input :: rest) (text :: more) =
        (input.name, text) :: unitsOf rest more := rfl
    rw [units] at ends ⊢
    simp only [Session.batch, expanded, List.mem_cons, forall_eq_or_imp] at ends ⊢
    obtain ⟨folder, here, within⟩ := expandInputRuns isOpen isRead p expanded ends.1
    -- The log is all that has changed, and it is no input.
    have free' : ∀ path, .file path ∈ rest → ∀ place, d.folder.locate path = some place →
        ¬ o.Logs d.folder place := fun path inside => free path (by simp [inside])
    have next : Desk.texts { d with input := left, folder } rest = some more :=
      (textsWithin { d with input := left } { d with input := left, folder } rfl within free').trans later
    obtain ⟨input', folder', ran, within'⟩ := ih next
      (fun path logs => within.stillOpen (isOpen path logs))
      (by simpa only [within.locate, logsWithin within] using free')
      (p.after ([answer], session.noting answer)) ends.2
    refine ⟨input', folder', ?_, within.trans (logsWithin within o ▸ within')⟩
    rw [expandInputs, runBind, here]
    dsimp only
    rw [ran, Progress.afterCons]
    rfl

/- What of the messages goes to standard output. -/
def Options.shown (o : Options) (text : String) : String :=
  if o.diagnostics = .standardOutput then text else ""

/- The place of the messages. -/
def Options.Tells (o : Options) (f : Folder) (place : Path) : Prop :=
  ∃ path, o.diagnostics = .file path ∧ f.locate path = some place

theorem tellsWithin {touched : Path → Prop} {f g : Folder} (within : Folder.Within touched f g)
    (o : Options) : o.Tells g = o.Tells f := by
  have same : g.locate = f.locate := funext within.locate
  unfold Options.Tells
  rw [same]

theorem announceRuns (o : Options) (p : Progress) (d : Desk) :
    ∃ folder err, (p.announce Desk.host o).run d =
        ({ p with said := p.session.diagnostics.toList.length },
         { d with folder, err,
                  out := d.out ++ o.shown (lines (p.session.diagnostics.toList.drop p.said)) }) ∧
      Folder.Within (o.Tells d.folder) d.folder folder := by
  unfold Progress.announce Options.shown Options.Tells
  cases o.diagnostics with
  | standardError =>
    refine ⟨d.folder, d.err ++ lines (p.session.diagnostics.toList.drop p.said), ?_, .refl _⟩
    rw [if_neg (by simp), String.append_empty]
    rfl
  | standardOutput => exact ⟨d.folder, d.err, rfl, .refl _⟩
  | file path =>
    refine ⟨d.folder.overwrite path (lines (p.session.diagnostics.toList.drop p.said)), d.err, ?_,
      (Folder.overwriteWithin d.folder path _).widen fun place located => ⟨path, rfl, located⟩⟩
    rw [if_neg (by simp), String.append_empty]
    rfl

theorem finishRuns (o : Options) (p : Progress) (d : Desk) :
    ∃ folder err, (finish Desk.host o p).run d =
        (.finished (if p.session.errors = 0 then 0 else 1),
         { d with folder, err,
                  out := d.out ++
                    o.shown (lines ((p.session.finish.diagnostics.toList).drop p.said)) }) ∧
      Folder.Within (o.Tells d.folder) d.folder folder := by
  obtain ⟨folder, err, told, within⟩ := announceRuns o { p with session := p.session.finish } d
  unfold finish
  rw [deskBind, told]
  by_cases elsewhere : o.diagnostics ≠ .standardError
  · refine ⟨folder, err ++ p.session.finish.summary o.diagnostics.name, ?_, within⟩
    rw [if_pos elsewhere]
    rfl
  · refine ⟨folder, err, ?_, within⟩
    rw [if_neg elsewhere]
    rfl

/- What a run has written to where its output goes, among the messages of the session `s`: a text,
or nothing. -/
structure Options.Wrote (o : Options) (s : Session) (text : Option String) (d d' : Desk) : Prop where
  stream : o.output = "-" → d'.out = d.out ++ o.shown (lines s.diagnostics.toList) ++ text.getD "" ++
    o.shown (lines [s.countText])
  file : o.output ≠ "-" →
    d'.folder.read o.output = (text.map String.toUTF8).or (d.folder.read o.output)

theorem writeOutputRuns {o : Options} {d : Desk} (isOpen : o.output ≠ "-" → d.folder.Open o.output)
    (p : Progress) :
    let text := if p.session.errors = 0 then some (String.join p.texts) else none
    ∃ folder out, (writeOutput Desk.host o p).run.run d = (.ok (), { d with folder, out }) ∧
      (o.output = "-" → out = d.out ++ text.getD "" ∧ folder = d.folder) ∧
      (o.output ≠ "-" → out = d.out ∧
        Folder.Within (d.folder.locate o.output = some ·) d.folder folder ∧
        folder.read o.output = (text.map String.toUTF8).or (d.folder.read o.output)) := by
  unfold writeOutput
  by_cases good : p.session.errors = 0
  · simp only [if_pos good]
    by_cases streamed : o.output = "-"
    · refine ⟨d.folder, d.out ++ String.join p.texts, ?_, fun _ => ⟨rfl, rfl⟩, absurd streamed⟩
      rw [if_pos streamed]
      rfl
    · obtain ⟨folder, created, within, reads⟩ :=
        Folder.written (isOpen streamed) (String.join p.texts)
      refine ⟨folder.overwrite o.output (String.join p.texts), d.out, ?_,
        fun same => absurd same streamed, fun _ => ⟨rfl, within, reads⟩⟩
      rw [if_neg streamed, hostBind, writeRuns created]
      rfl
  · simp only [if_neg good]
    refine ⟨d.folder, d.out, rfl, fun _ => ⟨?_, rfl⟩, fun _ => ⟨rfl, .refl _, ?_⟩⟩
    · simp
    · simp

/- A run leaves the places of its inputs and its output to them. -/
structure Options.Usable (o : Options) (f : Folder) : Prop where
  output : o.output ≠ "-" → f.Open o.output
  log : ∀ path, o.logPath? = some path → f.Open path
  inputs : ∀ path, .file path ∈ o.inputs → ∀ place, f.locate path = some place → ¬ o.Logs f place
  kept : o.output ≠ "-" → ∀ place, f.locate o.output = some place →
    ¬ o.Logs f place ∧ ¬ o.Tells f place

theorem shownAppend (o : Options) (a b : String) : o.shown (a ++ b) = o.shown a ++ o.shown b := by
  unfold Options.shown
  split
  · rfl
  · simp

theorem linesAppend (a b : List String) : lines (a ++ b) = lines a ++ lines b := by
  simp [lines, String.join_append]

theorem lastRuns {o : Options} {d : Desk} (isOpen : o.output ≠ "-" → d.folder.Open o.output)
    (kept : o.output ≠ "-" → ∀ place, d.folder.locate o.output = some place →
      ¬ o.Tells d.folder place) (p : Progress) :
    let text := if p.session.errors = 0 then some (String.join p.texts) else none
    ∃ d', (do writeOutput Desk.host o p; ExceptT.lift (finish Desk.host o p)).run.run d =
        (.ok (.finished (if p.session.errors = 0 then 0 else 1)), d') ∧
      (o.output = "-" → d'.out = d.out ++ text.getD "" ++
        o.shown (lines (p.session.finish.diagnostics.toList.drop p.said))) ∧
      (o.output ≠ "-" →
        d'.folder.read o.output = (text.map String.toUTF8).or (d.folder.read o.output)) := by
  obtain ⟨folder, out, wrote, streamed, filed⟩ := writeOutputRuns isOpen p
  obtain ⟨last, err, finished, within⟩ := finishRuns o p { d with folder, out }
  refine ⟨((finish Desk.host o p).run { d with folder, out }).2, ?_, fun isStream => ?_,
    fun isFile => ?_⟩
  · rw [runBind, wrote]
    dsimp only
    rw [liftRuns, finished]
  · rw [finished, (streamed isStream).1]
  · rw [finished]
    obtain ⟨-, changed, reads⟩ := filed isFile
    refine (within.read fun place located => ?_).trans reads
    rw [tellsWithin changed]
    exact kept isFile place ((changed.locate _).symm.trans located)

theorem closingRuns {o : Options} {d : Desk} (isOpen : o.output ≠ "-" → d.folder.Open o.output)
    (kept : o.output ≠ "-" → ∀ place, d.folder.locate o.output = some place →
      ¬ o.Tells d.folder place) {p : Progress} (unsaid : p.said = 0) :
    ∃ d', (do
        let p ← if o.diagnostics.isStream then ExceptT.lift (p.announce Desk.host o) else pure p
        writeOutput Desk.host o p
        ExceptT.lift (finish Desk.host o p)).run.run d =
        (.ok (.finished (if p.session.errors = 0 then 0 else 1)), d') ∧
      o.Wrote p.session (if p.session.errors = 0 then some (String.join p.texts) else none) d d' := by
  have messages : p.session.finish.diagnostics.toList =
      p.session.diagnostics.toList ++ [p.session.countText] := by
    simp [Session.finish]
  by_cases isStream : o.diagnostics.isStream = true
  · obtain ⟨folder, err, told, within⟩ := announceRuns o p d
    rw [if_pos isStream, liftBind, told]
    obtain ⟨d', ran, streamed, filed⟩ := lastRuns
      (d := { d with folder, err, out := d.out ++ o.shown (lines p.session.diagnostics.toList) })
      (fun isFile => within.stillOpen (isOpen isFile))
      (fun isFile place located => tellsWithin within o ▸
        kept isFile place ((within.locate _).symm.trans located))
      { p with said := p.session.diagnostics.toList.length }
    rw [unsaid, List.drop_zero]
    refine ⟨d', ran, fun toStream => ?_, fun isFile => (filed isFile).trans ?_⟩
    · rw [streamed toStream, messages, List.drop_left]
    · rw [within.read (kept isFile)]
  · rw [if_neg isStream]
    obtain ⟨d', ran, streamed, filed⟩ := lastRuns isOpen kept p
    refine ⟨d', ran, fun toStream => ?_, filed⟩
    have nowhere (text : String) : o.shown text = "" := by
      unfold Options.shown
      cases channel : o.diagnostics <;> simp_all [Channel.isStream]
    rw [streamed toStream, nowhere, nowhere, nowhere]
    simp

/-! Whole runs -/

theorem installAllErrors (definitions : List (String × String × (Call → Program))) :
    Session.Avoids (·.errors) (Standard.installAll definitions) := by
  induction definitions with
  | nil => exact Session.avoidsPure ()
  | cons definition rest ih =>
    refine Session.avoidsGet fun s => ?_
    have later := Session.avoidsBind (f := fun _ => Standard.installAll rest)
      (Session.errorsAside.define definition.1
        (some (.callable ⟨definition.2.1, s.fresh, definition.2.2⟩)) true (some 0)) fun _ => ih
    exact later s.ticket.2

theorem installErrors (s : Session) : (Standard.install s).errors = s.errors := by
  unfold Standard.install
  have kept := installAllErrors Standard.definitions s
  dsimp only at kept
  exact kept

theorem sessionErrors (o : Options) : o.session.errors = 0 := by
  unfold Options.session
  dsimp only
  split
  · rw [installErrors]
  · rfl

theorem applyAllErrors (items : List Item) : Session.Avoids (·.errors) (Item.applyAll items) := by
  induction items with
  | nil => exact Session.avoidsPure ()
  | cons item rest ih =>
    refine Session.avoidsBind ?_ fun _ => ih
    unfold Item.apply Item.applyText
    split
    · exact Session.avoidsModify fun _ => rfl
    · exact Session.avoidsBind (Session.errorsAside.define _ _ _ _) fun _ =>
        Session.avoidsPure ()

theorem applyAllThrows (items : List Item) : Throws Failure.IsError (Item.applyAll items) := by
  induction items with
  | nil => exact throwsPure ()
  | cons item rest ih =>
    refine throwsBind ?_ fun _ => ih
    unfold Item.apply Item.applyText
    split
    · exact throwsModify _
    · exact throwsBind (Session.defineThrows _ _ _) fun _ => throwsPure ()

namespace Options

/- The definitions of the command line. -/
def defined (o : Options) : Except Failure Unit × Session :=
  (Item.applyAll o.items).run.run o.session

/- The answers of the units, and the session that they leave. -/
def outcome (o : Options) (steps : Nat) (texts : List String) :
    List (Except Stop (List Token)) × Session :=
  if o.defined.1.isOk then o.defined.2.batch steps (unitsOf o.inputs texts) else ([], o.begin.2)

def isGood (o : Options) (steps : Nat) (texts : List String) : Bool :=
  o.defined.1.isOk && (o.outcome steps texts).1.all (·.isOk)

theorem outcomeAccepted (o : Options) (accepted : o.defined.1.isOk = true) (steps : Nat)
    (texts : List String) :
    o.outcome steps texts = o.defined.2.batch steps (unitsOf o.inputs texts) := if_pos accepted

theorem definedErrors (o : Options) : o.defined.2.errors = 0 :=
  (applyAllErrors o.items o.session).trans (sessionErrors o)

end Options

theorem beginAccepts {o : Options} (accepted : o.defined.1.isOk = true) :
    o.begin = (true, o.defined.2) := by
  unfold Options.defined at accepted ⊢
  unfold Options.begin
  rcases made : (Item.applyAll o.items).run.run o.session with ⟨f | ⟨⟩, s⟩
  · simp [made, Except.isOk, Except.toBool] at accepted
  · rfl

theorem beginRefuses {o : Options} (refused : ¬ o.defined.1.isOk = true) :
    o.begin.1 = false ∧ o.begin.2.errors ≠ 0 := by
  unfold Options.defined at refused
  unfold Options.begin
  rcases made : (Item.applyAll o.items).run.run o.session with ⟨(e | f) | ⟨⟩, s⟩
  · exact ⟨rfl, by simp [Session.reportError, Session.reportErrors]⟩
  -- Items have no meanings of their own, which is where faults come from.
  · exact (applyAllThrows o.items o.session _ (congrArg Prod.fst made)).elim
  · simp [made, Except.isOk, Except.toBool] at refused

theorem processExpands {steps : Nat} {o : Options} {d : Desk} {texts : List String}
    (readable : d.texts o.inputs = some texts) (usable : o.Usable d.folder)
    (accepted : o.defined.1.isOk = true)
    (ends : ∀ answer ∈ (o.outcome steps texts).1, answer ≠ .error .starved) :
    let outcome := o.outcome steps texts
    ∃ d', (process Desk.host steps o).run.run d =
        (.ok (.finished (if outcome.2.errors = 0 then 0 else 1)), d') ∧
      o.Wrote outcome.2
        (if outcome.2.errors = 0 then some (String.join (expansions outcome.1)) else none) d d' := by
  rw [o.outcomeAccepted accepted] at ends ⊢
  unfold process
  rw [hostBind, errRuns, beginAccepts accepted]
  -- Notes on words of the command line go out first, and not where the output goes.
  generalize d.err ++ lines _ = err
  obtain ⟨input, folder, ran, within⟩ := expandInputsRuns
    ((textsWithin d { d with err } rfl (.refl _) usable.inputs).trans readable) usable.log
    usable.inputs { session := o.defined.2 } ends
  obtain ⟨d', closed, wrote⟩ := closingRuns (d := { d with err, input, folder })
    (fun isFile => within.stillOpen (usable.output isFile))
    (fun isFile place located => tellsWithin within o ▸
      (usable.kept isFile place ((within.locate _).symm.trans located)).2)
    (p := Progress.after { session := o.defined.2 }
      (o.defined.2.batch steps (unitsOf o.inputs texts))) rfl
  refine ⟨d', ?_, wrote.stream, fun isFile => (wrote.file isFile).trans ?_⟩
  · dsimp only
    rw [if_pos rfl, runBind, ran]
    exact closed
  · rw [within.read fun place located => (usable.kept isFile place located).1]
    rfl

theorem processRefuses {o : Options} {d : Desk} (usable : o.Usable d.folder)
    (refused : ¬ o.defined.1.isOk = true) (steps : Nat) :
    ∃ d', (process Desk.host steps o).run.run d = (.ok (.finished 1), d') ∧
      o.Wrote o.begin.2 none d d' := by
  obtain ⟨stops, errors⟩ := beginRefuses refused
  unfold process
  rw [hostBind, errRuns]
  generalize d.err ++ lines _ = err
  obtain ⟨folder, err', finished, within⟩ := finishRuns o { session := o.begin.2 } { d with err }
  rw [if_neg errors] at finished
  refine ⟨((finish Desk.host o { session := o.begin.2 }).run { d with err }).2, ?_,
    fun _ => ?_, fun isFile => ?_⟩
  · dsimp only
    rw [stops, if_neg (by simp), liftRuns, finished]
  · rw [finished]
    have messages : o.begin.2.finish.diagnostics.toList =
        o.begin.2.diagnostics.toList ++ [o.begin.2.countText] := by
      simp [Session.finish]
    simp only [messages, List.drop_zero, linesAppend, shownAppend, Option.getD_none,
      String.append_empty, String.append_assoc]
  · rw [finished]
    exact within.read fun place located => (usable.kept isFile place located).2

theorem batchLength (steps : Nat) (units : List (String × String)) (s : Session) :
    (s.batch steps units).1.length = units.length := by
  induction units generalizing s with
  | nil => rfl
  | cons unit rest ih => simp [Session.batch, ih]

theorem textsLength {inputs : List Input} {d : Desk} {texts : List String}
    (readable : d.texts inputs = some texts) : texts.length = inputs.length := by
  induction inputs generalizing d texts with
  | nil =>
    obtain rfl := Option.some.inj readable
    rfl
  | cons input rest ih =>
    obtain ⟨text, more, left, rfl, -, later⟩ := textsCons readable
    simp [ih later]

theorem goodErrors {o : Options} {steps : Nat} {texts : List String}
    (accepted : o.defined.1.isOk = true)
    (ends : ∀ answer ∈ (o.outcome steps texts).1, answer ≠ .error .starved) :
    (o.outcome steps texts).2.errors = (o.outcome steps texts).1.countP (!·.isOk) := by
  rw [o.outcomeAccepted accepted] at ends ⊢
  rw [Session.batchErrors ends, o.definedErrors, Nat.zero_add]

theorem runFinishes {steps : Nat} {arguments : List String} {d₀ d d' : Desk} {o : Options}
    {ending : Ending}
    (opened : (acceptAll Desk.host {} (requests arguments)).run.run d₀ = (.ok o, d))
    (ran : (process Desk.host steps o).run.run d = (.ok ending, d')) :
    (run Desk.host steps arguments).run d₀ = (ending, d') := by
  have whole : (acceptAll Desk.host {} (requests arguments) >>= process Desk.host steps).run.run d₀ =
      (.ok ending, d') := by
    rw [runBind, opened]
    exact ran
  unfold run
  dsimp only
  rw [deskBind, whole]
  rfl

theorem outputAllOrNothing {steps : Nat} {arguments : List String} {d₀ d : Desk} {o : Options}
    {texts : List String}
    (opened : (acceptAll Desk.host {} (requests arguments)).run.run d₀ = (.ok o, d))
    (readable : d.texts o.inputs = some texts) (usable : o.Usable d.folder)
    (ends : ∀ answer ∈ (o.outcome steps texts).1, answer ≠ .error .starved) :
    (∃ d', (run Desk.host steps arguments).run d₀ =
        (.finished (if o.isGood steps texts then 0 else 1), d') ∧
      o.Wrote (o.outcome steps texts).2
        (if o.isGood steps texts then some (String.join (expansions (o.outcome steps texts).1))
          else none) d d') ∧
    (o.defined.1.isOk = true →
      (o.outcome steps texts).1.length = o.inputs.length ∧
      ∀ out err, ∃ p d', (expandInputs Desk.host steps o { session := o.defined.2 } o.inputs).run.run
          { d with out, err } = (.ok p, d') ∧
        p.session.errors = (o.outcome steps texts).1.countP (!·.isOk)) := by
  constructor
  · by_cases accepted : o.defined.1.isOk = true
    · have good : o.isGood steps texts = decide ((o.outcome steps texts).2.errors = 0) := by
        rw [goodErrors accepted ends, Bool.eq_iff_iff]
        simp [Options.isGood, accepted]
      obtain ⟨d', ran, wrote⟩ := processExpands readable usable accepted ends
      refine ⟨d', runFinishes opened ?_, ?_⟩
      · simpa only [good, decide_eq_true_eq] using ran
      · simpa only [good, decide_eq_true_eq] using wrote
    · have bad : o.isGood steps texts = false := by simp [Options.isGood, accepted]
      have outcome : o.outcome steps texts = ([], o.begin.2) := if_neg accepted
      obtain ⟨d', ran, wrote⟩ := processRefuses usable accepted steps
      rw [bad, outcome]
      exact ⟨d', runFinishes opened ran, wrote⟩
  · intro accepted
    have batch := o.outcomeAccepted accepted steps texts
    refine ⟨?_, fun out err => ?_⟩
    · rw [batch, batchLength]
      simp [unitsOf, textsLength readable]
    · obtain ⟨input, folder, ran, -⟩ := expandInputsRuns
        ((textsWithin d { d with out, err } rfl (.refl _) usable.inputs).trans readable)
        usable.log usable.inputs { session := o.defined.2 } (batch ▸ ends)
      refine ⟨_, _, ran, ?_⟩
      rw [← goodErrors accepted ends, batch]
      rfl

-- Two files; the second one uses a definition that the first has made from one of the options.
theorem outputAllOrNothingOfTwo :
    let d : Desk := { folder := { files :=
      [(["a.lua"], "@define Y X\n".toUTF8), (["b.lua"], "y = Y\n".toUTF8)] } }
    ∃ d', (run Desk.host 99 ["-D", "X=2", "a.lua", "b.lua", "-o", "out.lua"]).run d =
        (.finished 0, d') ∧ d'.folder.read "out.lua" = some "\ny = 2\n".toUTF8 := by
  intro d
  let o : Options :=
    { inputs := [.file "a.lua", .file "b.lua"], output := "out.lua", items := [.define "X=2"] }
  have usable : o.Usable d.folder := by
    refine ⟨fun _ => ⟨["out.lua"], by decide +kernel, by decide +kernel⟩, ?_, ?_, ?_⟩
    · simp [o, Options.logPath?]
    · simp [o, Options.Logs, Options.logPath?]
    · simp [o, Options.Logs, Options.Tells, Options.logPath?]
  have good : o.isGood 99 ["@define Y X\n", "y = Y\n"] = true := by decide +kernel
  have ends : ∀ answer ∈ (o.outcome 99 ["@define Y X\n", "y = Y\n"]).1,
      answer ≠ .error .starved := by
    intro answer inside starved
    have isOk := List.all_eq_true.mp (Bool.and_eq_true_iff.mp good).2 answer inside
    simp [starved, Except.isOk, Except.toBool] at isOk
  have opened : (acceptAll Desk.host {} (requests
      ["-D", "X=2", "a.lua", "b.lua", "-o", "out.lua"])).run.run d = (.ok o, d) := rfl
  obtain ⟨d', ran, wrote⟩ := (outputAllOrNothing opened (by decide +kernel) usable ends).1
  rw [good] at ran wrote
  refine ⟨d', ran, (wrote.file (by decide)).trans ?_⟩
  have text : String.join (expansions (o.outcome 99 ["@define Y X\n", "y = Y\n"]).1) =
      "\ny = 2\n" := by
    decide +kernel
  rw [if_pos rfl, text]
  rfl

end CommandLine

end LuaExpander
