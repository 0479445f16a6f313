import LuaExpander.Proofs.Copying
import LuaExpander.Proofs.Installed
import LuaExpander.Proofs.Views

/-! Unrolled loops. A loop is replaced by copies of its body and by calls that do the bookkeeping,
and the scan goes through them as through any other tokens. What comes out is the body once for each
value, and all is then as it was before the loop. -/
namespace LuaExpander

/- The standard definitions for loops are active, and `@` is the only operator with a definition. -/
structure Registry.Unrolls (r : Registry) : Prop where
  sound : r.Sound
  loop : r.Offers "_UNROLL_" Standard.unroll
  step : r.Offers "__UNROLL_STEP__" fun _ => Standard.unrollStep
  done : r.Offers "__UNROLL_DONE__" fun _ => Standard.unrollDone
  operators : ∀ name, r.operator? name ≠ none → name = "@"

/- The loop counts a name through integers, and nothing in its body is replaced but that name. -/
structure Loop.Fits (l : Loop) (r : Registry) : Prop where
  isName : Literal.isName l.var = true
  free : l.var ∉ reservedWords
  short : Number.Short l.first ∧ Number.Short l.last ∧ Number.Short l.step
  moves : l.step ≠ 0
  balanced : Tokens.Balanced l.body
  lexed : ∀ t ∈ l.body, t.kind ≠ .eof ∧ t.value ≠ "" ∧ t.mark = none
  undefined : ∀ t ∈ l.body, t.kind = .iden → t.value ≠ l.var → r.active? t.value = none
  noDirective : ∀ t ∈ l.body, t.value ≠ "@"

theorem Registry.activeNamed {r : Registry} (sound : r.Sound) {name : String} {d : Definition}
    (active : r.active? name = some d) : d.name = name := by
  obtain ⟨stack, isStack, top⟩ := Option.bind_eq_some_iff.mp active
  exact (sound.idens name stack isStack).2.1 d (List.mem_of_mem_head? top)

namespace View
open Scan Standard

variable {v w : View} {t : Token} {rest : List Token}

theorem leadsOffered {name : String} {act : Token → Action (Value × Builder)}
    (sound : v.registry.Sound) (offers : v.registry.Offers name act) (ahead : v.ahead = t :: rest)
    (isName : t.kind = .iden ∧ t.value = name) (unmarked : t.mark ≠ some name)
    (calls : ∀ (s : Scan) (u : Token), s.Calm → u.fresh = t →
      v = { s.view with ahead := u.fresh :: s.view.ahead } →
      (∀ x ∈ s.cursor.ahead, x.serial ≠ none) →
      ∃ b session reader,
        Action.Yields
          { session := s.session, reader := some { cursor := s.cursor, origin := some u } }
          (act u) (.nothing, b) { session, reader := some reader } ∧
        let ts := b.toTokens.map (settle reader.taken name u.line)
        Calm { s with session, cursor := reader.cursor.prepend ts } ∧
          view { s with session, cursor := reader.cursor.prepend ts } = w) : Leads v w := by
  obtain ⟨d, transformer, active, params, body, runs⟩ := offers
  have named := Registry.activeNamed sound active
  have invoked : v.registry.invoked? t = some d := by
    rw [Registry.invoked?, if_pos ⟨isName.1, by rw [isName.2]; exact unmarked⟩, isName.2, active]
  refine leadsCall ahead invoked params body fun s u calm same here numbered => ?_
  obtain ⟨b, session, reader, yields, after⟩ := calls s u calm same here numbered
  refine ⟨b, session, reader, ?_, ?_⟩
  · rw [runs]
    exact Action.programYields yields
  · rw [named]
    exact after

theorem leadsStep {gap var gap' number : Token} (sound : v.registry.Sound)
    (offers : v.registry.Offers "__UNROLL_STEP__" fun _ => unrollStep)
    (ahead : v.ahead = t :: gap :: var :: gap' :: number :: rest)
    (isStep : t.kind = .iden ∧ t.value = "__UNROLL_STEP__")
    (unmarked : t.mark ≠ some "__UNROLL_STEP__") (blank : gap.kind = .space)
    (isVar : var.kind = .iden) (isName : Literal.isName var.value = true)
    (free : var.value ∉ reservedWords) (blank' : gap'.kind = .space) {n : Int}
    (short : Number.Short n) (isNumber : number.kind = .number ∧ number.value = toString n)
    {c : Contexts Value} {old : Value} (contexts : v.contexts = c.push unrollContext old) :
    Leads v { v with
      registry := v.registry.push (.counting var.value n v.depth)
      contexts := c.push unrollContext (.number (.int n))
      waiting := fun d => if d = v.depth then
        v.waiting d ++ [.restore var.value (v.registry.height var.value)] else v.waiting d
      ahead := rest } := by
  refine leadsOffered sound offers ahead isStep unmarked fun s u calm same here numbered => ?_
  subst here
  have tokens : s.cursor.ahead.map Token.fresh = gap :: var :: gap' :: number :: rest :=
    (List.cons_eq_cons.mp ahead).2
  obtain ⟨gap, ts, isAhead, isGap, tokens⟩ := List.map_eq_cons_iff.mp tokens
  obtain ⟨var, ts, rfl, same₁, tokens⟩ := List.map_eq_cons_iff.mp tokens
  obtain ⟨gap', ts, rfl, same₂, tokens⟩ := List.map_eq_cons_iff.mp tokens
  obtain ⟨number, ts, rfl, same₃, rfl⟩ := List.map_eq_cons_iff.mp tokens
  subst isGap same₁ same₂ same₃
  let start : Reader := { cursor := s.cursor, origin := some u }
  obtain ⟨blocks, session, r', yields, left, failure, deferred, alike⟩ :=
    @stepYields { session := s.session, reader := some start } start gap var gap' number ts rfl
      isAhead blank isVar isName free blank' n short isNumber c old contexts
  obtain ⟨place, isPlace, depth, keywords, waiting⟩ := Blocks.deferSucceeds deferred
  obtain rfl : s.session.blocks.depth = place := Int.ofNat_inj.mp isPlace
  refine ⟨.empty, session, r', yields,
    calmAlike alike { s with cursor := r'.cursor.prepend [] } ⟨fun word => ?_, ?_, calm.unit⟩, ?_⟩
  · simpa only [Blocks.handlersFor, keywords] using calm.words word
  · exact failure.trans calm.failure
  · refine (viewAlike alike { s with cursor := r'.cursor.prepend [] }).trans ?_
    simp only [view, Cursor.aheadPrepend, left, depth, waiting, List.nil_append]
    rfl

theorem leadsDone (sound : v.registry.Sound)
    (offers : v.registry.Offers "__UNROLL_DONE__" fun _ => unrollDone) (ahead : v.ahead = t :: rest)
    (isDone : t.kind = .iden ∧ t.value = "__UNROLL_DONE__")
    (unmarked : t.mark ≠ some "__UNROLL_DONE__") {c : Contexts Value} {old : Value}
    (kept : c.table[unrollContext]? ≠ some Stack.empty)
    (contexts : v.contexts = c.push unrollContext old) :
    Leads v { v with contexts := c, ahead := rest } := by
  refine leadsOffered sound offers ahead isDone unmarked fun s u calm same here numbered => ?_
  subst here
  obtain ⟨rfl, rfl⟩ := List.cons_eq_cons.mp ahead
  let start : Reader := { cursor := s.cursor, origin := some u }
  obtain ⟨session, yields, alike⟩ :=
    @doneYields { session := s.session, reader := some start } c old kept contexts
  exact ⟨.empty, session, start, yields,
    calmAlike alike { s with cursor := s.cursor.prepend [] } ⟨calm.words, calm.failure, calm.unit⟩,
    viewAlike alike { s with cursor := s.cursor.prepend [] }⟩

/- A token that stands for itself where `@` is the only operator with a definition. -/
structure Unnamed (r : Registry) (t : Token) : Prop where
  notEnd : t.kind ≠ .eof
  notKeyword : t.kind ≠ .keyword
  still : r.invoked? t = none
  word : t.kind = .op → t.value ≠ "" ∧ t.value ≠ "@"

theorem leadsUnnamed (operators : ∀ name, v.registry.operator? name ≠ none → name = "@")
    (ahead : v.ahead = t :: rest) (unnamed : Unnamed v.registry t) :
    Leads v { v with ahead := rest, text := v.text ++ t.value } := by
  refine leadsPass ahead unnamed.notEnd unnamed.notKeyword fun u more same => ?_
  subst same
  refine Registry.unnamedPasses unnamed.still fun isOp run isFront filled kinds => ?_
  obtain ⟨spelled, noDirective⟩ := unnamed.word isOp
  obtain ⟨first, others, rfl⟩ := List.exists_cons_of_ne_nil filled
  obtain ⟨rfl, -⟩ := List.cons_prefix_cons.mp isFront
  refine Decidable.byContradiction fun named => ?_
  have whole : first.value.toList ++ (Tokens.text others).toList = ['@'] := by
    rw [← String.toList_append, ← Tokens.textCons, operators _ named]
    rfl
  rcases List.append_eq_singleton_iff.mp whole with ⟨none, -⟩ | ⟨one, -⟩
  · exact spelled (String.toList_inj.mp none)
  · exact noDirective (String.toList_inj.mp one)

theorem leadsUnnamedAll (operators : ∀ name, v.registry.operator? name ≠ none → name = "@")
    {ts : List Token} (ahead : v.ahead = ts ++ rest) (unnamed : ∀ t ∈ ts, Unnamed v.registry t) :
    Leads v { v with ahead := rest, text := v.text ++ Tokens.text ts } := by
  induction ts generalizing v with
  | nil =>
    have same : { v with ahead := rest, text := v.text ++ Tokens.text [] } = v := by
      rw [show Tokens.text [] = "" from rfl, String.append_empty]
      exact congrArg (fun ahead => { v with ahead }) ahead.symm
    rw [same]
    exact .refl v
  | cons t ts ih =>
    obtain ⟨here, later⟩ := List.forall_mem_cons.mp unnamed
    have one := leadsUnnamed operators ahead here
    have others := @ih { v with ahead := ts ++ rest, text := v.text ++ t.value } operators rfl later
    rw [Tokens.textCons, ← String.append_assoc]
    exact one.trans others

/- A name that counts is replaced by its integer, all of which then goes out. -/
theorem leadsCounting {n : Int} {d : Nat}
    (operators : ∀ name, v.registry.operator? name ≠ none → name = "@")
    (active : v.registry.active? t.value = some (.counting t.value n d))
    (ahead : v.ahead = t :: rest) (isIden : t.kind = .iden) (unmarked : t.mark = none) :
    Leads v { v with ahead := rest, text := v.text ++ toString n } := by
  have invoked : v.registry.invoked? t = some (.counting t.value n d) := by
    rw [Registry.invoked?, if_pos ⟨isIden, by simp [unmarked]⟩, active]
  let value := (Lexer.integerTokens n).map (·.markedBy t.value t.line)
  have text : Tokens.text value = toString n := by
    rw [← Lexer.integerText, Tokens.text, List.map_map]
    rfl
  have unnamed : ∀ u ∈ value, Unnamed v.registry u := by
    intro u member
    obtain ⟨x, inside, rfl⟩ := List.mem_map.mp member
    rcases Lexer.integerKinds n x inside with ⟨isOp, isMinus⟩ | isNumber
    · constructor <;> simp [Token.markedBy, isOp, isMinus, Registry.invoked?]
    · constructor <;> simp [Token.markedBy, isNumber, Registry.invoked?]
  rw [← text]
  exact (leadsName ahead invoked rfl rfl rfl).trans
    (@leadsUnnamedAll { v with ahead := value ++ rest } rest operators value rfl unnamed)

section

variable {l : Loop} {r : Registry} {n : Int} {d : Nat} (unrolls : r.Unrolls) (fits : l.Fits r)
  (registry : v.registry = r.push (.counting l.var n d))
include unrolls fits registry

theorem operatorsStill : ∀ name, v.registry.operator? name ≠ none → name = "@" := by
  rw [registry, @Registry.pushIden (.counting l.var n d) fits.isName r]
  exact unrolls.operators

theorem leadsBodyToken (member : t ∈ l.body) (ahead : v.ahead = t.fresh :: rest)
    (noOpener : t.opensBlock = false) (noCloser : t.closesBlock = false) :
    Leads v { v with ahead := rest, text := v.text ++ l.tokenText n t } := by
  obtain ⟨notEnd, filled, unmarked⟩ := fits.lexed t member
  have operators := operatorsStill unrolls fits registry
  have active (name : String) : v.registry.active? name =
      if name = l.var then some (.counting l.var n d) else r.active? name := by
    rw [registry]
    exact @Registry.activePush (.counting l.var n d) fits.isName name r
  rw [Loop.tokenText]
  by_cases isVar : t.kind = .iden ∧ t.value = l.var
  · rw [if_pos isVar]
    refine @leadsCounting v t.fresh rest n d operators ?_ ahead isVar.1 unmarked
    have named : t.fresh.value = l.var := isVar.2
    rw [active, if_pos named, named]
  rw [if_neg isVar]
  by_cases isKeyword : t.kind = .keyword
  · exact @leadsInert v t.fresh rest ahead isKeyword noOpener noCloser
  have still : v.registry.invoked? t = none := by
    rw [Registry.invoked?]
    split
    · rename_i isIden
      have other : t.value ≠ l.var := fun same => isVar ⟨isIden.1, same⟩
      rw [active, if_neg other]
      exact fits.undefined t member isIden.1 other
    · rfl
  exact @leadsUnnamed v t.fresh rest operators ahead
    ⟨notEnd, isKeyword, still, fun _ => ⟨filled, fits.noDirective t member⟩⟩

/- Blocks that the body opens are closed in it, and nothing waits for their ends. -/
theorem leadsBody {base m k : Nat} {ts : List Token} (climbs : Tokens.Climbs m ts k)
    (within : ∀ t ∈ ts, t ∈ l.body) (depth : v.depth = base + m)
    (vacant : ∀ d, base < d → v.waiting d = []) (ahead : v.ahead = ts.map Token.fresh ++ rest) :
    Leads v { v with
      ahead := rest
      depth := base + k
      text := v.text ++ String.join (ts.map (l.tokenText n)) } := by
  have keeps {t : Token} (isKeyword : t.kind = .keyword) : l.tokenText n t = t.value := by
    simp [Loop.tokenText, isKeyword]
  induction climbs generalizing v with
  | nil =>
    rw [List.map_nil, String.join_nil, String.append_empty]
    obtain ⟨r, c, depth, waiting, ahead, text, finishing⟩ := v
    cases depth
    cases ahead
    exact .refl _
  | @opens m k t ts opener later ih =>
    obtain ⟨-, others⟩ := List.forall_mem_cons.mp within
    let next : View := { v with
      ahead := ts.map Token.fresh ++ rest
      depth := v.depth + 1
      text := v.text ++ t.value }
    have one : Leads v next := @leadsOpen v t.fresh _ ahead opener
    have more := @ih next registry others (by simp [next, depth, Nat.add_assoc]) vacant rfl
    rw [List.map_cons, String.join_cons, ← String.append_assoc, keeps (Tokens.opensKeyword opener)]
    exact one.trans more
  | @closes m k t ts closer noOpener later ih =>
    obtain ⟨-, others⟩ := List.forall_mem_cons.mp within
    have none : v.waiting v.depth = [] := vacant _ (by omega)
    have still : (fun d => if d = v.depth then [] else v.waiting d) = v.waiting := by
      funext d
      split
      · rename_i here
        rw [here, none]
      · rfl
    let next : View := { v with
      ahead := ts.map Token.fresh ++ rest
      depth := base + m
      text := v.text ++ t.value }
    have one := @leadsClose v t.fresh _ ahead closer (base + m) depth (by simp [none])
    rw [still, none] at one
    have more := @ih next registry others rfl vacant rfl
    rw [List.map_cons, String.join_cons, ← String.append_assoc, keeps (Tokens.closesKeyword closer)]
    exact one.trans more
  | @inert m k t ts noOpener noCloser later ih =>
    obtain ⟨here, others⟩ := List.forall_mem_cons.mp within
    let next : View := { v with
      ahead := ts.map Token.fresh ++ rest
      text := v.text ++ l.tokenText n t }
    have one : Leads v next := leadsBodyToken unrolls fits registry here ahead noOpener noCloser
    have more := @ih next registry others depth vacant rfl
    rw [List.map_cons, String.join_cons, ← String.append_assoc]
    exact one.trans more

end

theorem leadsBlank {line : Line}
    (operators : ∀ name, v.registry.operator? name ≠ none → name = "@")
    (ahead : v.ahead = placed line .space " " :: rest) :
    Leads v { v with ahead := rest, text := v.text ++ " " } :=
  leadsUnnamed operators ahead (by constructor <;> simp [placed, Registry.invoked?])

section

variable {l : Loop} {line : Line} {c : Contexts Value} {old : Value} (unrolls : v.registry.Unrolls)
  (fits : l.Fits v.registry) (vacant : ∀ d, v.depth < d → v.waiting d = [])
include unrolls fits vacant

theorem leadsCopy {n : Int} (short : Number.Short n)
    (ahead : v.ahead = copied (placed line) l.var (l.body.map Token.fresh) n ++ rest)
    (contexts : v.contexts = c.push unrollContext old) :
    Leads v { v with
      contexts := c.push unrollContext (.number (.int n))
      ahead := rest
      text := v.text ++ l.copyText n } := by
  let body := l.body.map Token.fresh ++ placed line .keyword "end" :: rest
  let call := placed line .iden "__UNROLL_STEP__" :: placed line .space " " ::
    placed line .iden l.var :: placed line .space " " :: placed line .number (toString n) :: body
  let opened : View := { v with
    depth := v.depth + 1
    ahead := placed line .space " " :: call
    text := v.text ++ "do" }
  let called : View := { opened with ahead := call, text := opened.text ++ " " }
  let stepped : View := { called with
    registry := v.registry.push (.counting l.var n (v.depth + 1))
    contexts := c.push unrollContext (.number (.int n))
    waiting := fun d => if d = v.depth + 1 then
      v.waiting d ++ [.restore l.var (v.registry.height l.var)] else v.waiting d
    ahead := body }
  let finished : View := { stepped with
    ahead := placed line .keyword "end" :: rest
    text := stepped.text ++ l.bodyText n }
  have opens : Leads v opened := leadsOpen (by simpa [copied, call, body] using ahead) rfl
  have calls : Leads opened called := @leadsBlank opened _ line unrolls.operators rfl
  have steps : Leads called stepped := @leadsStep called _ _ _ _ _ _ unrolls.sound unrolls.step rfl
    ⟨rfl, rfl⟩ (by simp [placed]) rfl rfl fits.isName fits.free rfl n short ⟨rfl, rfl⟩ c old
    contexts
  have beyond (d : Nat) (deeper : v.depth + 1 < d) : stepped.waiting d = [] := by
    simp only [stepped]
    rw [if_neg (by omega), vacant d (by omega)]
  have finishes : Leads stepped finished :=
    @leadsBody stepped _ l v.registry n (v.depth + 1) unrolls fits rfl (v.depth + 1) 0 0 l.body
      (Tokens.balancedClimbs fits.balanced) (fun _ member => member) rfl beyond rfl
  have due : finished.waiting finished.depth =
      [.restore l.var (v.registry.height l.var)] := by
    simp [finished, stepped, called, opened, vacant (v.depth + 1)]
  have restored : [Handler.restore l.var (v.registry.height l.var)].reverse.foldl Session.cut
      finished.registry = v.registry :=
    @Registry.restorePushed v.registry (.counting l.var n (v.depth + 1)) unrolls.sound fits.isName
  have still : (fun d => if d = finished.depth then [] else finished.waiting d) = v.waiting := by
    funext d
    by_cases here : d = v.depth + 1
    · simp [finished, stepped, called, opened, here, vacant (v.depth + 1)]
    · simp [finished, stepped, called, opened, here]
  have closes := @leadsClose finished _ _ rfl rfl v.depth rfl (by simp [due])
  rw [due, restored, still] at closes
  have text : finished.text ++ "end" = v.text ++ l.copyText n := by
    simp [finished, stepped, called, opened, Loop.copyText, String.append_assoc]
  rw [← text]
  exact (((opens.trans calls).trans steps).trans finishes).trans closes

/- The context holds some value or other meanwhile. -/
theorem leadsFurther {values : List Int} (short : ∀ n ∈ values, Number.Short n)
    (ahead : v.ahead = further (placed line) l.var (l.body.map Token.fresh) values ++ rest)
    (contexts : v.contexts = c.push unrollContext old) :
    ∃ last, Leads v { v with
      contexts := c.push unrollContext last
      ahead := rest
      text := v.text ++ String.join (values.map fun n => " " ++ l.copyText n) } := by
  induction values generalizing v old with
  | nil =>
    refine ⟨old, ?_⟩
    rw [List.map_nil, String.join_nil, String.append_empty]
    cases v
    cases contexts
    cases ahead
    exact .refl _
  | cons n ns ih =>
    obtain ⟨here, later⟩ := List.forall_mem_cons.mp short
    let copy := copied (placed line) l.var (l.body.map Token.fresh) n ++
      (further (placed line) l.var (l.body.map Token.fresh) ns ++ rest)
    have passes : Leads v _ := @leadsBlank v copy line unrolls.operators
      (by simpa [further, copy] using ahead)
    have copies := @leadsCopy { v with ahead := copy, text := v.text ++ " " } _ l line c old unrolls
      fits vacant n here rfl contexts
    obtain ⟨last, goesOn⟩ := @ih { v with
      contexts := c.push unrollContext (.number (.int n))
      ahead := further (placed line) l.var (l.body.map Token.fresh) ns ++ rest
      text := v.text ++ " " ++ l.copyText n } _ unrolls fits vacant later rfl rfl
    refine ⟨last, ?_⟩
    have text : v.text ++ " " ++ l.copyText n ++
        String.join (ns.map fun n => " " ++ l.copyText n) =
          v.text ++ String.join ((n :: ns).map fun n => " " ++ l.copyText n) := by
      simp [String.append_assoc]
    rw [← text]
    exact (passes.trans copies).trans goesOn

theorem leadsSpread {values : List Int} (short : ∀ n ∈ values, Number.Short n)
    (ahead : v.ahead = spread (placed line) l.var (l.body.map Token.fresh) values ++ rest)
    (contexts : v.contexts = c.push unrollContext old) :
    ∃ last, Leads v { v with
      contexts := c.push unrollContext last
      ahead := rest
      text := v.text ++ l.text values } := by
  cases values with
  | nil =>
    refine ⟨old, ?_⟩
    rw [Loop.text, List.map_nil, String.intercalate_nil, String.append_empty]
    cases v
    cases contexts
    cases ahead
    exact .refl _
  | cons n ns =>
    obtain ⟨here, later⟩ := List.forall_mem_cons.mp short
    have copies := leadsCopy unrolls fits vacant here
      (by simpa only [spread, List.append_assoc] using ahead) contexts
    obtain ⟨last, goesOn⟩ := @leadsFurther { v with
      contexts := c.push unrollContext (.number (.int n))
      ahead := further (placed line) l.var (l.body.map Token.fresh) ns ++ rest
      text := v.text ++ l.copyText n } _ l line c _ unrolls fits vacant ns later rfl rfl
    refine ⟨last, ?_⟩
    have text : v.text ++ l.copyText n ++ String.join (ns.map fun n => " " ++ l.copyText n) =
        v.text ++ l.text (n :: ns) := by
      rw [Loop.textCons, String.append_assoc]
    rw [← text]
    exact copies.trans goesOn

end

/- The loop is replaced by its copies. -/
theorem leadsUnroll {l : Loop} {name closer : Token} {front : List Token}
    (unrolls : v.registry.Unrolls) (fits : l.Fits v.registry)
    (spelled : Tokens.spelling (name :: front) = l.header) (unmarked : name.mark = none)
    (isCloser : closer.closesBlock = true)
    (ahead : v.ahead = (name :: (front ++ (l.body ++ closer :: rest))).map Token.fresh) :
    Leads v { v with
      contexts := v.contexts.push unrollContext (.number (.int l.first))
      ahead := spread (placed name.line) l.var (l.body.map Token.fresh)
          (progression l.first l.last l.step) ++
        placed name.line .iden "__UNROLL_DONE__" :: rest.map Token.fresh } := by
  have isName : name.kind = .iden ∧ name.value = "_UNROLL_" :=
    Prod.mk.inj (List.cons_eq_cons.mp spelled).1
  refine @leadsOffered v _ name.fresh _ _ _ unrolls.sound unrolls.loop ahead isName
    (by simp [Token.fresh, unmarked]) fun s u calm same here numbered => ?_
  subst here
  have tokens : s.cursor.ahead.map Token.fresh =
      (front ++ (l.body ++ closer :: rest)).map Token.fresh := (List.cons_eq_cons.mp ahead).2
  rw [List.map_append, List.map_append, List.map_cons] at tokens
  obtain ⟨first, others, isAhead, isFront, tokens⟩ := List.map_eq_append_iff.mp tokens
  obtain ⟨body, others, rfl, isBody, tokens⟩ := List.map_eq_append_iff.mp tokens
  obtain ⟨last, left, rfl, isLast, isRest⟩ := List.map_eq_cons_iff.mp tokens
  have opening : l.Opening first := by
    have still (ts : List Token) : Tokens.spelling (ts.map Token.fresh) = Tokens.spelling ts :=
      List.map_map
    refine @Loop.headerOpens l name first ?_
    rw [← spelled, ← still, ← still (name :: front), List.map_cons, isFront, List.map_cons]
  have notEnd (t : Token) (member : t ∈ body) : t.kind ≠ .eof := by
    have inside : t.fresh ∈ l.body.map Token.fresh := isBody ▸ List.mem_map_of_mem member
    obtain ⟨x, isInside, isSame⟩ := List.mem_map.mp inside
    have kinds : x.fresh.kind = t.fresh.kind := by rw [isSame]
    exact kinds ▸ (fits.lexed x isInside).1
  have closes : last.fresh.closesBlock = true := isLast ▸ isCloser
  let start : Reader := { cursor := s.cursor, origin := some u }
  obtain ⟨b, session, r', yields, took, built, alike⟩ := @unrollYields l
    { session := s.session, reader := some start } start first body left last fits.short fits.moves
    rfl opening isAhead notEnd (Tokens.balancedAlike isBody fits.balanced) closes u
  let read := first ++ (body ++ [last])
  have isTaken : r'.taken = read.toArray := took.taken.trans Array.empty_append
  have within (t : Token) (member : t ∈ read) : t.serial ≠ none := by
    have whole : s.cursor.ahead = read ++ r'.cursor.ahead := took.ahead
    exact numbered t (whole ▸ List.mem_append_left _ member)
  have line : u.line = name.line := by
    have lines : u.fresh.line = name.fresh.line := by rw [same]
    exact lines
  let ts := b.toTokens.map (settle r'.taken "_UNROLL_" u.line)
  have settled : ts.map Token.fresh =
      spread (placed name.line) l.var (l.body.map Token.fresh)
        (progression l.first l.last l.step) ++ [placed name.line .iden "__UNROLL_DONE__"] := by
    rw [← isBody]
    simp only [ts, built, isTaken, line]
    exact settledSpread within
      (fun t member => List.mem_append_right _ (List.mem_append_left _ member)) _ _ _
  have remains : r'.cursor.ahead = left :=
    Reader.tookLeaves took (isAhead.trans (by simp))
  refine ⟨b, session, r', yields, ?_, ?_⟩
  · exact calmAlike alike { s with cursor := r'.cursor.prepend ts }
      ⟨calm.words, took.failure.trans calm.failure, calm.unit⟩
  · refine (viewAlike alike { s with cursor := r'.cursor.prepend ts }).trans ?_
    simp only [view, Cursor.aheadPrepend, List.map_append, settled, remains, isRest, List.append_assoc]
    rfl

/- Wherever a loop stands in a unit, it gives its text and leaves all else as it was. -/
theorem leadsLoop {l : Loop} {opening : List Token} {closer : Token}
    (unrolls : v.registry.Unrolls) (fits : l.Fits v.registry)
    (vacant : ∀ d, v.depth < d → v.waiting d = [])
    (kept : v.contexts.table[unrollContext]? ≠ some Stack.empty)
    (written : l.Written opening closer)
    (ahead : v.ahead = (opening ++ (l.body ++ closer :: rest)).map Token.fresh) :
    Leads v { v with
      ahead := rest.map Token.fresh
      text := v.text ++ l.text (progression l.first l.last l.step) } := by
  let values := progression l.first l.last l.step
  obtain ⟨name, front, rfl, -⟩ := List.map_eq_cons_iff.mp written.spelled
  have unmarked : name.mark = none := written.unmarked name List.mem_cons_self
  have isCloser : closer.closesBlock = true := by
    simp [Token.closesBlock, written.closer, blockClosers]
  let begun : View := { v with
    contexts := v.contexts.push unrollContext (.number (.int l.first))
    ahead := spread (placed name.line) l.var (l.body.map Token.fresh) values ++
      placed name.line .iden "__UNROLL_DONE__" :: rest.map Token.fresh }
  have begins : Leads v begun := leadsUnroll unrolls fits written.spelled unmarked isCloser ahead
  obtain ⟨last, spreads⟩ := @leadsSpread begun _ l name.line v.contexts _ unrolls fits vacant values
    (progressionShort fits.moves fits.short.1 fits.short.2.1) rfl rfl
  have ends := @leadsDone { begun with
    contexts := v.contexts.push unrollContext last
    ahead := placed name.line .iden "__UNROLL_DONE__" :: rest.map Token.fresh
    text := v.text ++ l.text values } _ _ unrolls.sound unrolls.done rfl ⟨rfl, rfl⟩
    (by simp [placed]) v.contexts last kept rfl
  exact (begins.trans spreads).trans ends

end View

/-! Units -/

/- The unit consists of these tokens, be it with an end of the input after them or without. -/
def Source.Holds (source : Source) (ts : List Token) : Prop :=
  source.cursor.failure = none ∧ (source.cursor.ahead = ts ∨
    ∃ e, source.cursor.ahead = ts ++ [e] ∧ e.kind = .eof ∧ e.value = "")

theorem Standard.installUnrolls : (install {}).registry.Unrolls where
  sound := installMeans.1
  loop := @installOffers "_UNROLL_" "unroll" _ (by decide) (by decide) (by decide)
    (by simp [definitions])
  step := @installOffers "__UNROLL_STEP__" "unroll_step" _ (by decide) (by decide) (by decide)
    (by simp [definitions])
  done := @installOffers "__UNROLL_DONE__" "unroll_done" _ (by decide) (by decide) (by decide)
    (by simp [definitions])
  operators name defined := by
    obtain ⟨d, found⟩ := Option.ne_none_iff_exists'.mp defined
    obtain ⟨stack, isStack, top⟩ := Option.bind_eq_some_iff.mp found
    have noName := (installMeans.1.ops name stack isStack).2.2.1
    have found : (install {}).registry.get? name = some d := by
      rw [Registry.get?, Registry.stack?, if_neg (by simp [noName])]
      exact found
    obtain ⟨e, -, -, inside, -⟩ := installMeans.2.2 name d found
    have only : ∀ x ∈ titles, Literal.isName x.1.1 = false → x.1.1 = "@" := by decide
    exact only _ inside noName

namespace Loop
open Standard

theorem expandsToCopies {l : Loop} {r : Registry} {opening : List Token} {closer : Token}
    (unrolls : r.Unrolls) (fits : l.Fits r) (written : l.Written opening closer) :
    ∃ values, l.Counts values ∧
      (∀ (s : Session) (source : Source) (unitName : Option String),
        s.Admits source unitName → s.registry = r → (∀ word, s.blocks.handlersFor word = []) →
        source.Holds (opening ++ (l.body ++ [closer])) →
        ∃ enough, ∀ steps, enough ≤ steps → ∃ ts after,
          s.expandUnit steps source unitName = (.ok ts, after) ∧
            Tokens.text ts = l.text values ∧ after.registry = r ∧ after.contexts = .empty ∧
            after.blocks.depth = 0) ∧
      ∀ (s : Scan) (rest : List Token), s.Calm → s.session.registry = r →
        s.cursor.ahead = opening ++ (l.body ++ closer :: rest) →
        (∀ depth, s.session.blocks.depth < depth → s.session.blocks.waiting depth = []) →
        (s.session.contexts.isActive "_UNROLL_" = true →
          s.session.contexts.value? "_UNROLL_" ≠ none) →
        ∃ s', Scan.Reaches s s' ∧ s'.Calm ∧ s'.view = { s.view with
          ahead := rest.map Token.fresh
          text := s.view.text ++ l.text values } := by
  refine ⟨progression l.first l.last l.step, progressionAt fits.moves, ?_, ?_⟩
  · rintro s source unitName admits rfl quiet ⟨failure, tokens⟩
    obtain ⟨rest, isAhead, isEnd⟩ : ∃ rest,
        source.cursor.ahead = opening ++ (l.body ++ closer :: rest) ∧
          (rest = [] ∨ ∃ e, rest = [e] ∧ e.kind = .eof ∧ e.value = "") := by
      rcases tokens with bare | ⟨e, ended, isEnd⟩
      · exact ⟨[], bare, .inl rfl⟩
      · exact ⟨[e], by simpa using ended, .inr ⟨e, rfl, isEnd⟩⟩
    have leads := @View.leadsLoop (.start s.registry (source.cursor.ahead.map Token.fresh)) rest l
      opening closer unrolls fits (fun _ _ => rfl) (by simp [View.start, Contexts.empty]) written
      (by rw [isAhead]; rfl)
    have isLast : rest.map Token.fresh = [] ∨
        ∃ e : Token, rest.map Token.fresh = [e] ∧ e.kind = .eof ∧ e.value = "" := by
      rcases isEnd with rfl | ⟨e, rfl, isEnd⟩
      · exact .inl rfl
      · exact .inr ⟨e.fresh, rfl, isEnd⟩
    have ran := View.unitLeads quiet failure leads rfl (fun _ => rfl) rfl isLast admits
    dsimp only [View.start] at ran
    rwa [String.empty_append] at ran
  · rintro s rest calm rfl isAhead vacant valued
    exact @View.leadsLoop s.view rest l opening closer unrolls fits vacant
      (Contexts.valuedKept valued) written (congrArg (List.map Token.fresh) isAhead) s calm rfl

-- Down to a negative value, with a block in the body: as a unit, and inside of another loop, where
-- a scope is to end later.
theorem expandsToCopiesDownward :
    (∃ enough, ∀ steps, enough ≤ steps → ∃ ts after,
      (Standard.install {}).expandUnit steps
          (.text "_UNROLL_ i = 3, -1, -2 do f(i) do i=x end end") none = (.ok ts, after) ∧
        Tokens.text ts =
          "do  f(3) do 3=x end end do  f(1) do 1=x end end do  f(-1) do -1=x end end" ∧
        after.registry = (Standard.install {}).registry ∧ after.contexts = .empty ∧
        after.blocks.depth = 0) ∧
    let s : Scan := {
      session := { Standard.install {} with
        blocks := { depth := 1, deferred := Std.ExtTreeMap.insert {} 1 [.restore "i" 0] }
        contexts := Contexts.empty.push "_UNROLL_" (.number (.int 7)) }
      cursor := .ofTokens (Lexer.lex "_UNROLL_ i = 3, -1, -2 do f(i) do i=x end end").tokens }
    ∃ s', Scan.Reaches s s' ∧ s'.view = { s.view with
      ahead := []
      text := s.view.text ++
        "do  f(3) do 3=x end end do  f(1) do 1=x end end do  f(-1) do -1=x end end" } := by
  let tokens := (Lexer.lex "_UNROLL_ i = 3, -1, -2 do f(i) do i=x end end").tokens
  let l : Loop := ⟨"i", 3, -1, -2, (tokens.drop 17).take 14⟩
  let closer : Token := ⟨.keyword, "end", some 1, none, none⟩
  have fits : l.Fits (Standard.install {}).registry := {
    isName := by decide
    free := by decide
    short := by refine ⟨?_, ?_, ?_⟩ <;> exact Number.shortDigit (by decide)
    moves := by decide
    balanced := by decide +kernel
    lexed := by decide +kernel
    undefined := by decide +kernel
    noDirective := by decide +kernel }
  have written : l.Written (tokens.take 17) closer :=
    ⟨by decide +kernel, by decide +kernel, by decide⟩
  have whole : tokens = tokens.take 17 ++ (l.body ++ [closer]) := by decide +kernel
  obtain ⟨values, counts, unit, inside⟩ := expandsToCopies installUnrolls fits written
  have three : values = progression 3 (-1) (-2) := countsOnly counts (progressionAt fits.moves)
  have text : l.text (progression 3 (-1) (-2)) =
      "do  f(3) do 3=x end end do  f(1) do 1=x end end do  f(-1) do -1=x end end" := by
    decide +kernel
  rw [three, text] at unit inside
  constructor
  · refine unit (Standard.install {}) _ none (Session.admitsText _ none _) rfl (fun word => ?_)
      ⟨by decide +kernel, .inr ⟨.endOfInput (some 1), by decide +kernel, rfl, rfl⟩⟩
    rw [installMeans.2.1]
    simp [Blocks.handlersFor]
  · intro s
    have quiet (word : String) : s.session.blocks.handlersFor word = [] := by
      dsimp only [s, Blocks.handlersFor]
      rw [Std.ExtTreeMap.getElem?_empty]
      rfl
    have vacant (depth : Nat) (deeper : 1 < depth) : s.session.blocks.waiting depth = [] := by
      have other : compare 1 depth ≠ .eq := by simp [Nat.ne_of_lt deeper]
      dsimp only [s, Blocks.waiting]
      rw [Std.ExtTreeMap.getElem?_insert, if_neg other, Std.ExtTreeMap.getElem?_empty]
      rfl
    have valued : s.session.contexts.value? "_UNROLL_" ≠ none := by
      dsimp only [s]
      rw [Contexts.value?, Contexts.stackPush]
      simp [Stack.push, Stack.top?]
    have registry : s.session.registry = (Standard.install {}).registry := by dsimp only [s]
    obtain ⟨s', reaches, -, view⟩ :=
      inside s [] ⟨quiet, rfl, rfl⟩ registry whole vacant fun _ => valued
    exact ⟨s', reaches, view⟩

end Loop

end LuaExpander
