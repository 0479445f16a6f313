import LuaExpander.Proofs.Calls
import LuaExpander.Proofs.Identity
import LuaExpander.Proofs.Standards

/-! The output of a unit and its text. Where definitions are made from texts, or are the standard
ones, every token that goes out is spelled as what it is, negative numbers in one token apart; so
lexing the text of the output gives the output back exactly if these are absent and no token runs
on into the text behind it. -/
namespace LuaExpander

namespace Token

theorem fitsAny {nested : Bool} {t : Token} (fits : t.Fits true) : t.Fits nested :=
  ⟨fits.1, .inl (fits.2.resolve_right fun isEnd => Bool.noConfusion isEnd.1)⟩

theorem fitsSolid {nested : Bool} {t : Token} (fits : t.Fits nested) (solid : t.kind ≠ .eof) :
    t.Fits true :=
  ⟨fits.1, .inl (fitsWorded fits solid)⟩

theorem fitsEnd {nested : Bool} {t : Token} (fits : t.Fits nested) (isEnd : t.kind = .eof) :
    nested = false ∧ t.value = "" := by
  rcases fits.2 with worded | ⟨unit, -, empty⟩
  · exact absurd isEnd (wordedSolid worded)
  · exact ⟨unit, empty⟩

theorem fitsNumbered {nested : Bool} {t : Token} (fits : t.Fits nested) (numbering place : Nat) :
    (t.numbered numbering place).Fits nested := by
  obtain ⟨serial, same⟩ := t.numberedSame numbering place
  rw [same]
  exact fits

end Token

theorem Cursor.peekAhead {c c' : Cursor} {found : Option Token}
    (peeked : c.peek = (.ok found, c')) : c'.ahead = c.ahead ∧ c'.failure = c.failure := by
  cases here : c.ahead with
  | cons t rest =>
    rw [peekToken here] at peeked
    cases peeked
    simp [putBack, here]
  | nil =>
    cases failure : c.failure with
    | none =>
      rw [peekNone here failure] at peeked
      cases peeked
      exact ⟨here, failure⟩
    | some e =>
      obtain ⟨after, failed, -⟩ := peekError here failure
      cases failed.symm.trans peeked

namespace Registry

variable {p : Definition → Prop} {r : Registry} {t : Token}

def Active (r : Registry) (d : Definition) : Prop :=
  ∃ name, r.active? name = some d ∨ r.operator? name = some d

theorem allActive (all : r.All p) {d : Definition} (active : r.Active d) : p d := by
  obtain ⟨name, iden | op⟩ := active
  · obtain ⟨stack, found, top⟩ := Option.bind_eq_some_iff.mp iden
    exact all.idens name stack found d (List.mem_of_mem_head? top)
  · obtain ⟨stack, found, top⟩ := Option.bind_eq_some_iff.mp op
    exact all.ops name stack found d (List.mem_of_mem_head? top)

/- A definition that is found is an active one, and its name stands where the token stood; the
operators of the name are taken. Otherwise everything is still ahead. -/
structure Sought (r : Registry) (t : Token) (c : Cursor) (search : Search) (c' : Cursor) :
    Prop where
  ahead : ∃ run, c.ahead = run ++ c'.ahead ∧ ∀ u ∈ run, u.kind = .op
  failure : c'.failure = c.failure
  still : search.found = none → c'.ahead = c.ahead ∧ r.invoked? t = none
  found : ∀ m, search.found = some m → r.Active m.definition ∧ m.nameToken.line = t.line

theorem longestNameActive {run : List Token} {held n m : Nat} {name : String}
    {d : Definition} {later : Nat} (found : longestName r run held n = (some (m, name, d), later)) :
    r.Active d := by
  induction n generalizing held with
  | zero => cases found
  | succ n ih =>
    rw [longestName] at found
    split at found
    · exact ih found
    · rename_i active
      split at found
      · exact ih found
      · cases found
        exact ⟨_, .inr active⟩

theorem matchOperatorSought (isOp : t.kind = .op) {c c' : Cursor} {search : Search}
    (ran : r.matchOperator t c = (.ok search, c')) : Sought r t c search c' := by
  obtain ⟨isFront, kinds⟩ := operatorRunFront r.longest t.value.length c.ahead
  rw [matchOperatorRuns] at ran
  generalize operatorRun r.longest t.value.length c.ahead = run at isFront kinds ran
  generalize decide ((Tokens.text (t :: run)).length < r.longest) = short at ran
  have looks {found : Option Token} {rest : Cursor} (same : looked run short c = (.ok found, rest)) :
      rest.ahead = c.ahead.drop run.length ∧ rest.failure = c.failure := by
    unfold looked at same
    split at same
    · obtain ⟨ahead, failure⟩ := Cursor.peekAhead same
      rw [ahead, failure, Cursor.aheadDrop, Cursor.failureDrop]
      exact ⟨rfl, rfl⟩
    · cases same
      exact ⟨Cursor.aheadDrop _ c, Cursor.failureDrop _ c⟩
  rcases same : looked run short c with ⟨e | found, rest⟩ <;> rw [same] at ran
  · cases ran
  unfold chosen at ran
  dsimp only at ran
  obtain ⟨later, failure⟩ := looks same
  have whole : c.ahead = run ++ rest.ahead := by
    rw [later]
    exact (List.prefix_iff_eq_append.mp isFront).symm
  split at ran
  · rename_i n name definition held isNamed
    cases ran
    refine ⟨⟨run.take (n - 1), ?_, fun u member => kinds u (List.mem_of_mem_take member)⟩, failure,
      by rintro ⟨⟩, ?_⟩
    · rw [Cursor.aheadPrepend, ← List.append_assoc, List.take_append_drop]
      exact whole
    · rintro m ⟨⟩
      refine ⟨longestNameActive isNamed, ?_⟩
      dsimp only
      split <;> rfl
  · cases ran
    have still : (rest.prepend run).ahead = c.ahead := by rw [Cursor.aheadPrepend, whole]
    exact ⟨⟨[], still.symm, by simp⟩, failure, fun _ => ⟨still, by simp [invoked?, isOp]⟩,
      by rintro m ⟨⟩⟩

theorem findSought {c c' : Cursor} {search : Search} (ran : r.find t c = (.ok search, c')) :
    Sought r t c search c' := by
  unfold find at ran
  split at ran
  · rename_i isOp
    split at ran
    · cases ran
      exact ⟨⟨[], rfl, by simp⟩, rfl, fun _ => ⟨rfl, by simp [invoked?, isOp]⟩, by rintro m ⟨⟩⟩
    · exact matchOperatorSought isOp ran
  · cases ran
    refine ⟨⟨[], rfl, by simp⟩, rfl, fun none => ⟨rfl, ?_⟩, fun m found => ?_⟩
    · unfold matchIden at none
      split at none
      · rename_i inactive
        simp [invoked?, active?, inactive]
      · split at none
        · rename_i held
          simp [invoked?, held]
        · cases none
    · unfold matchIden at found
      split at found
      · cases found
      · rename_i active
        split at found <;> cases found
        exact ⟨⟨_, .inl active⟩, rfl⟩
  · rename_i noIden
    cases ran
    exact ⟨⟨[], rfl, by simp⟩, rfl, fun _ => ⟨rfl, if_neg fun free => noIden free.1⟩,
      by rintro m ⟨⟩⟩

end Registry

namespace Scan

variable {taken : Array Token} {name : String} {line : Line} {nested : Bool}

theorem settleFits {t : Token} (given : t.Given) {n : Nat} (placed : line = some (n : Int)) :
    (settle taken name line t).Fits true := by
  unfold settle
  split
  · rename_i isOne
    have numbered : t.serial ≠ none := by
      intro none
      simp [isTaken, none] at isOne
    exact ⟨given.2.resolve_left numbered, .inl given.1⟩
  · exact ⟨⟨n, placed⟩, .inl given.1⟩

/- Everything ahead fits, and what has gone out are words. -/
structure Fair (s : Scan) : Prop where
  session : s.session.Fair
  ahead : ∀ t ∈ s.cursor.ahead, t.Fits s.nested
  out : ∀ t ∈ s.out.toList, t.Fits true

theorem fairLogged {s : Scan} (fair : s.Fair) {session : Session}
    (quiet : Session.Quiet s.session session) : Fair { s with session } :=
  ⟨Session.fairQuiet fair.session quiet, fair.ahead, fair.out⟩

theorem fairNumber {s s' : Scan} (ran : number.run.run s = (.ok (), s')) (fair : s.Fair) :
    s'.Fair := by
  have quiet := (numberSucceeds ran).2
  cases ran
  refine ⟨Session.fairQuiet fair.session quiet, fun t member => ?_, fair.out⟩
  have numbered : t ∈ (s.cursor.number s.session.fresh).1.ahead := member
  rw [Cursor.aheadNumber] at numbered
  obtain ⟨u, inside, place, rfl⟩ := Tokens.numberAtSource t numbered
  exact Token.fitsNumbered (fair.ahead u inside) s.session.fresh place

theorem fairArguments {d : Definition} {nameToken : Token} {s s' : Scan} {args : List (List Token)}
    (gathered : Gathered d nameToken s args taken s') (fair : s.Fair) :
    s'.Fair ∧ s'.nested = s.nested ∧ ∀ arg ∈ args, ∀ t ∈ arg, t.Fits true := by
  obtain ⟨front, rest, ahead, solid, within, -, cursor, rfl, -, rfl⟩ := argumentsRead gathered
  have fits := fair.ahead
  rw [ahead] at fits
  refine ⟨⟨fair.session, fun t member => fits t (List.mem_append_right _ member), fair.out⟩,
    rfl, fun arg isArg t member => ?_⟩
  have inFront := within arg isArg t member
  exact Token.fitsSolid (fits t (List.mem_append_left _ inFront)) (solid t inFront)

theorem textFits {d : Definition} {nameToken : Token} {args : List (List Token)}
    {value : List Token} (placed : nameToken.Placed) (given : ∀ t ∈ value, t.Given)
    (fits : ∀ arg ∈ args, ∀ t ∈ arg, t.Fits true) :
    ∀ t ∈ textReplacement d nameToken args taken value, t.Fits true := by
  obtain ⟨n, line⟩ := placed
  intro t member
  rcases textReplacementMember member with ⟨arg, isArg, inside⟩ | ⟨u, inside, rfl⟩
  · exact fits arg isArg t inside
  · exact settleFits (given u inside) line

def Fairly (expand : ArgumentExpander) : Prop :=
  ∀ {arg ts s s'}, (∀ t ∈ arg, t.Fits true) → expand arg s = (.ok ts, s') → s.Fair → s'.Fair

theorem fairExpanded {expand : ArgumentExpander} (fairly : Fairly expand)
    {args expanded : List (List Token)} {s s' : Scan}
    (fits : ∀ arg ∈ args, ∀ t ∈ arg, t.Fits true)
    (ran : (expandArguments expand args).run.run s = (.ok expanded, s')) (fair : s.Fair) :
    s'.Fair ∧ s'.nested = s.nested := by
  induction args generalizing s expanded s' with
  | nil =>
    cases ran
    exact ⟨fair, rfl⟩
  | cons arg rest ih =>
    obtain ⟨here, later⟩ := List.forall_mem_cons.mp fits
    obtain ⟨ts, session, more, answered, others, rfl⟩ := expandArgumentsSucceeds ran
    obtain ⟨after, nested⟩ :=
      ih later others ⟨fairly here answered fair.session, fair.ahead, fair.out⟩
    exact ⟨after, nested⟩

theorem suppliesGiven {d : Definition} {r : Value × Builder} {given : List Token}
    (supplies : Standard.Supplies r) (tokens : (callResult d r).toTokens = .ok given) :
    ∀ t ∈ given, t.Given := by
  obtain ⟨b, all, rfl | rfl⟩ := supplies
  · rw [callResult] at tokens
    split at tokens <;> cases tokens
    · simp
    · exact all
  · cases tokens
    exact all

theorem fairCall {d : Definition} {t : Transformer} (standard : t.Standard) {nameToken : Token}
    (placed : nameToken.Placed) {args : List (List Token)} {s s' : Scan} {ts : List Token}
    (ran : (callTransformer d t nameToken args taken).run.run s = (.ok ts, s')) (fair : s.Fair) :
    s'.Fair ∧ s'.nested = s.nested ∧ ∀ t ∈ ts, t.Fits true := by
  obtain ⟨r, f, given, answered, tokens, rfl, rfl⟩ := callAnswered ran
  have start : Frame.Fair s.nested
      { session := s.session
        reader := if d.isFunction then none
          else some { cursor := s.cursor, origin := some nameToken } } := by
    refine ⟨fair.session, fun r isReader => ?_⟩
    split at isReader <;> cases isReader
    exact fair.ahead
  have isPlaced : ∀ origin, (if d.isFunction then Call.applied args else .bare nameToken) =
      .bare origin → origin.Placed := by
    intro origin isBare
    split at isBare <;> cases isBare
    exact placed
  obtain ⟨ends, supplies⟩ := Standard.standardServes start standard isPlaced answered
  refine ⟨⟨ends.session, fun t member => ?_, fair.out⟩, rfl, ?_⟩
  · cases reader : f.reader with
    | none =>
      rw [reader] at member
      exact fair.ahead t member
    | some r =>
      rw [reader] at member
      exact ends.ahead r reader t member
  · obtain ⟨n, line⟩ := placed
    intro t member
    obtain ⟨u, inside, rfl⟩ := List.mem_map.mp member
    exact settleFits (suppliesGiven supplies tokens u inside) line

theorem fairReplacement {expand : ArgumentExpander} (fairly : Fairly expand) {d : Definition}
    (isFair : d.Fair) {nameToken : Token} (placed : nameToken.Placed) {s s' : Scan}
    {ts : List Token} (ran : (replacement expand d nameToken).run.run s = (.ok ts, s'))
    (fair : s.Fair) : s'.Fair ∧ s'.nested = s.nested ∧ ∀ t ∈ ts, t.Fits true := by
  unfold Definition.Fair at isFair
  cases replacementSucceeds ran with
  | @text value args taken read body gathered =>
    rw [body] at isFair
    obtain ⟨fairRead, nested, fits⟩ := fairArguments gathered fair
    have quiet := Session.logCallQuiet nameToken d (read.copies args) (read.counting args).session
    have counted : Fair (read.counting args) :=
      ⟨Session.fairQuiet fairRead.session ⟨rfl, rfl⟩, fairRead.ahead, fairRead.out⟩
    refine ⟨fairLogged counted quiet, nested, textFits placed isFair fun arg isArg t member => ?_⟩
    obtain ⟨own, isOwn, u, inside, place, rfl⟩ := Tokens.numberEachSource arg isArg t member
    exact Token.fitsNumbered (fits own isOwn u inside) _ place
  | @call t numbered args taken read expanded between _ _ body numbers gathered expands called =>
    rw [body] at isFair
    obtain ⟨fairRead, nestedRead, fits⟩ := fairArguments gathered (fairNumber numbers fair)
    obtain ⟨fairExpanded, nestedExpanded⟩ := fairExpanded fairly fits expands fairRead
    have quiet := Session.logCallQuiet nameToken d expanded between.session
    obtain ⟨after, nestedCall, all⟩ :=
      fairCall isFair placed called (fairLogged fairExpanded quiet)
    have nestedNumber := (numberSucceeds numbers).1.nested
    exact ⟨after, nestedCall.trans (nestedExpanded.trans (nestedRead.trans nestedNumber)), all⟩

theorem fairEmit {s : Scan} (fair : s.Fair) {t : Token} (fits : t.Fits true) :
    Fair { s with out := s.out.push t } := by
  refine ⟨fair.session, fair.ahead, fun u member => ?_⟩
  rw [Array.toList_push, List.mem_append, List.mem_singleton] at member
  rcases member with before | rfl
  · exact fair.out u before
  · exact fits

theorem fairSought {t : Token} {s : Scan} {search : Registry.Search} {cursor : Cursor}
    (seeks : Registry.Sought s.session.registry t s.cursor search cursor) (fair : s.Fair) :
    Fair { s with session := logHeld t search.held s.session, cursor } := by
  obtain ⟨run, ahead, -⟩ := seeks.ahead
  refine ⟨Session.fairQuiet fair.session (logHeldQuiet t search.held s.session),
    fun u member => fair.ahead u ?_, fair.out⟩
  rw [ahead]
  exact List.mem_append_right run member

theorem fairPlain {expand : ArgumentExpander} (fairly : Fairly expand) {t : Token}
    (fits : t.Fits true) {s s' : Scan} (ran : (plain expand t).run.run s = (.ok (), s'))
    (fair : s.Fair) : s'.Fair ∧ s'.nested = s.nested := by
  cases plainSucceeds ran with
  | emitted sought none =>
    exact ⟨fairEmit (fairSought (Registry.findSought sought) fair) fits, rfl⟩
  | @replaced search cursor m ts between sought found became =>
    have seeks := Registry.findSought sought
    obtain ⟨active, line⟩ := seeks.found m found
    have isFair := Registry.allActive fair.session.definitions active
    have placed : m.nameToken.Placed := by
      rw [Token.Placed, line]
      exact fits.1
    obtain ⟨after, nested, all⟩ :=
      fairReplacement fairly isFair placed became (fairSought seeks fair)
    have quiet := Session.logTextQuiet ("Replacement = " ++ Text.quoted (Tokens.text ts))
      m.nameToken.line 1 between.session
    refine ⟨⟨Session.fairQuiet after.session quiet, fun u member => ?_, after.out⟩, nested⟩
    dsimp only at member
    rw [Cursor.aheadPrepend] at member
    rcases List.mem_append.mp member with inside | rest
    · exact Token.fitsAny (all u inside)
    · exact after.ahead u rest

theorem fairRestores {t : Token} {handlers : List Handler} (restores : Session.Restores handlers)
    {f f' : Frame} {ts : List Token} (ran : runHandlers t handlers f = (.ok ts, f'))
    (fair : f.session.Fair) : ts = [] ∧ f'.session.Fair ∧ f'.reader = f.reader := by
  induction handlers generalizing f ts with
  | nil =>
    cases ran
    exact ⟨rfl, fair, rfl⟩
  | cons h hs ih =>
    obtain ⟨⟨subject, height, rfl⟩, later⟩ := List.forall_mem_cons.mp restores
    rw [runHandlers, runHandler] at ran
    dsimp only at ran
    rcases rest : runHandlers t hs { f with session := f.session.restore subject height } with
      ⟨e | more, last⟩
    · rw [rest] at ran
      cases ran
    · rw [rest] at ran
      cases ran
      obtain ⟨rfl, after, reader⟩ := ih later rest (Session.fairRestore fair subject height)
      exact ⟨rfl, after, reader⟩

theorem fairDeferred {handlers : List Handler} (restores : Session.Restores handlers) {t : Token}
    {s s' : Scan} (ran : (fireDeferred handlers t).run.run s = (.ok (), s')) (fair : s.Fair) :
    s'.Fair ∧ s'.nested = s.nested := by
  obtain ⟨ts, f, answered, rfl⟩ := fireSucceeds ran
  obtain ⟨rfl, after, reader⟩ := fairRestores restores answered fair.session
  refine ⟨⟨after, ?_, fair.out⟩, rfl⟩
  rw [reader]
  exact fair.ahead

theorem fairKeyword {t : Token} (fits : t.Fits true) {s s' : Scan}
    (ran : (keyword t).run.run s = (.ok (), s')) (fair : s.Fair) :
    s'.Fair ∧ s'.nested = s.nested := by
  have emitted := fairEmit fair fits
  cases nested : s.nested with
  | true =>
    rw [nestedKeyword ran nested]
    exact ⟨emitted, nested⟩
  | false =>
    cases keywordSucceeds ran nested with
    | opens opener fired =>
      have entered : Fair { s with session := s.session.enterBlock t, out := s.out.push t } :=
        ⟨Session.fairEnter fair.session t, emitted.ahead, emitted.out⟩
      rw [silentKeyword (entered.session.silent _) fired]
      exact ⟨entered, nested⟩
    | @closes handlers session between closer left waited fired =>
      obtain ⟨inner, registry⟩ := Session.leaveBlockSucceeds left
      obtain ⟨-, due, keywords, waiting⟩ := Blocks.leaveSucceeds inner
      obtain ⟨fairLeft, restores⟩ :=
        Session.fairVacate fair.session registry due keywords waiting
      have vacated : Fair { s with session, out := s.out.push t } :=
        ⟨fairLeft, emitted.ahead, emitted.out⟩
      obtain ⟨after, same⟩ := fairDeferred restores waited vacated
      rw [silentKeyword (after.session.silent _) fired]
      exact ⟨after, same.trans nested⟩
    | other inert fired =>
      rw [silentKeyword (emitted.session.silent _) fired]
      exact ⟨emitted, nested⟩

theorem fairAtEnd {t : Token} {s s' : Scan} {done : Bool}
    (ran : (atEnd t).run.run s = (.ok done, s')) (first : s.finishing = false)
    (fits : t.Fits s.nested) (fair : s.Fair) :
    done = false ∧ s'.Fair ∧ s'.nested = s.nested := by
  obtain ⟨isFalse, handlers, blocks, fired, finished, atKeyword, atDepth⟩ := atEndFinishes ran first
  obtain ⟨-, -, due, keywords, waiting⟩ := Blocks.finishSucceeds finished
  obtain ⟨fairLeft, restores⟩ :=
    @Session.fairVacate _ { s.session with blocks } fair.session _ _ rfl due keywords waiting
  have vacated : Fair { s with session := { s.session with blocks },
                               cursor := s.cursor.prepend [t],
                               finishing := true } :=
    ⟨fairLeft, List.forall_mem_cons.mpr ⟨fits, fair.ahead⟩, fair.out⟩
  obtain rfl := silentKeyword (vacated.session.silent "END") atKeyword
  obtain ⟨after, nested⟩ := fairDeferred restores atDepth vacated
  exact ⟨isFalse, after, nested⟩

/- A step goes on, or it ends an argument, or it puts out the end of a unit. -/
inductive Went (s : Scan) : Bool → Scan → Prop where
  | on {s'} (fair : s'.Fair) (nested : s'.nested = s.nested) : Went s false s'
  | argument {s'} (fair : s'.session.Fair) (nested : s.nested = true) : Went s true s'
  | ended {s' last} (fair : s'.session.Fair) (isEnd : last.kind = .eof ∧ last.value = "")
      (out : s'.out = s.out.push last) : Went s true s'

theorem missingEndFits {s : Scan} (fair : s.Fair) : (missingEnd s.out).Fits false := by
  refine ⟨?_, .inr ⟨rfl, rfl, rfl⟩⟩
  change ∃ n : Nat, Line.orElse (s.out.back?.bind (·.line)) (some 1) = some (n : Int)
  cases last : s.out.back? with
  | none => exact ⟨1, rfl⟩
  | some t =>
    obtain ⟨n, line⟩ := (fair.out t (Array.mem_toList_iff.mpr (Array.mem_of_back? last))).1
    rw [Option.bind_some, line, Line.orElse]
    split
    · exact ⟨n, rfl⟩
    · exact ⟨1, rfl⟩

theorem nextFits {s : Scan} (fair : s.Fair) {cursor : Cursor} {t : Token}
    (next : s.cursor.next = (.ok (some t), cursor)) :
    t.Fits s.nested ∧ Fair { s with cursor } := by
  have fits := fair.ahead
  rw [(Cursor.aheadGiven next).1] at fits
  obtain ⟨here, later⟩ := List.forall_mem_cons.mp fits
  exact ⟨here, fair.session, later, fair.out⟩

theorem nextNone {s : Scan} {cursor : Cursor} (next : s.cursor.next = (.ok none, cursor)) :
    cursor = s.cursor ∧ s.cursor.ahead = [] ∧ s.cursor.failure = none := by
  have outcome := s.cursor.given
  rw [next] at outcome
  cases outcome with
  | none ahead failure => exact ⟨rfl, ahead, failure⟩

theorem stepWent {expand : ArgumentExpander} (fairly : Fairly expand) {s s' : Scan} {done : Bool}
    (ran : (step expand).run.run s = (.ok done, s')) (fair : s.Fair) : Went s done s' := by
  cases stepSucceeds ran with
  | argumentEnds next nested => exact .argument fair.session nested
  | @ends cursor t _ _ next kind ran =>
    have ending : t.Fits s.nested ∧ Fair { s with cursor } := by
      rcases next with ⟨next, unit, rfl⟩ | next
      · obtain ⟨rfl, -⟩ := nextNone next
        exact ⟨unit ▸ missingEndFits fair, fair⟩
      · exact nextFits fair next
    obtain ⟨fits, after⟩ := ending
    cases finishing : s.finishing with
    | false =>
      obtain ⟨rfl, fairAfter, nested⟩ := fairAtEnd ran finishing fits after
      exact .on fairAfter nested
    | true =>
      obtain ⟨rfl, -, rfl⟩ := atEndAgain ran finishing
      exact .ended fair.session ⟨kind, (Token.fitsEnd fits kind).2⟩ rfl
  | keyword next kind ran =>
    obtain ⟨fits, after⟩ := nextFits fair next
    obtain ⟨fairAfter, nested⟩ := fairKeyword (Token.fitsSolid fits (by simp [kind])) ran after
    exact .on fairAfter nested
  | plain next solid ran =>
    obtain ⟨fits, after⟩ := nextFits fair next
    obtain ⟨fairAfter, nested⟩ := fairPlain fairly (Token.fitsSolid fits solid.1) ran after
    exact .on fairAfter nested

theorem fairlyArgument {steps : Nat}
    (whole : ∀ {s s' ts}, run steps s = (.ok ts, s') → s.Fair → s'.session.Fair) :
    Fairly (argument (run steps)) := by
  intro arg ts session session' fits ran fair
  obtain ⟨last, answered, rfl⟩ := argumentSucceeds ran
  exact whole answered ⟨fair, fits, by simp⟩

theorem runFair {steps : Nat} {s s' : Scan} {ts : List Token} (ran : run steps s = (.ok ts, s'))
    (fair : s.Fair) :
    s'.session.Fair ∧ (s.nested = false → ∃ body last, ts = body ++ [last] ∧ last.kind = .eof ∧
      last.value = "" ∧ ∀ t ∈ body, t.Worded) := by
  induction steps generalizing s ts s' with
  | zero => cases ran
  | succ steps ih =>
    obtain ⟨done, between, stepped, rest⟩ := runSucceeds ran
    have went := stepWent (fairlyArgument fun ran fair => (ih ran fair).1) stepped fair
    cases went with
    | on after nested => exact nested ▸ ih rest after
    | argument after nested =>
      cases rest
      exact ⟨after, by simp [nested]⟩
    | @ended last _ after isEnd out =>
      cases rest
      refine ⟨after, fun _ => ⟨s.out.toList, _, ?_, isEnd.1, isEnd.2, fun t member => ?_⟩⟩
      · rw [out, Array.toList_push]
      · exact (fair.out t member).2.resolve_right (by simp)

theorem silentBegin {s s' : Scan} (silent : ∀ word, s.session.blocks.handlersFor word = [])
    (ran : begin.run.run s = (.ok (), s')) :
    ∃ cursor, s' = { s with cursor } ∧ cursor.ahead = s.cursor.ahead ∧
      cursor.failure = s.cursor.failure := by
  rw [begin, runBind, runGet] at ran
  dsimp only at ran
  rw [silent, if_neg (by simp)] at ran
  obtain ⟨first, cursor, peeked, fired⟩ := fireBeginSucceeds ran
  obtain rfl := silentKeyword (s := { s with cursor }) (silent "BEGIN") fired
  exact ⟨cursor, rfl, Cursor.peekAhead peeked⟩

theorem beginFair {s s' : Scan} (ran : begin.run.run s = (.ok (), s')) (fair : s.Fair) :
    s'.Fair ∧ s'.nested = s.nested := by
  obtain ⟨cursor, rfl, ahead, -⟩ := silentBegin fair.session.silent ran
  exact ⟨⟨fair.session, ahead ▸ fair.ahead, fair.out⟩, rfl⟩

end Scan

/-! Units -/

theorem Lexer.streamFits (text : String) : ∀ t ∈ (lex text).stream, t.Fits false := by
  intro t member
  have lexed : Lexes 1 text.toList (lex text) := lexes 1 text.toList
  obtain ⟨before, after, split⟩ := List.append_of_mem member
  refine ⟨⟨1 + Text.newlines (Tokens.text before), ?_⟩, ?_⟩
  · simpa using lexesPlaced lexed split
  · unfold Lexed.stream at member
    split at member
    · rcases List.mem_append.mp member with inside | isEnd
      · exact .inl (.inl (lexesSpelled lexed t inside))
      · obtain rfl := List.mem_singleton.mp isEnd
        exact .inr ⟨rfl, rfl, rfl⟩
    · exact .inl (.inl (lexesSpelled lexed t member))

theorem Lexer.streamGives {text : String} {body : List Token} {last : Token}
    (isEnd : last.kind = .eof ∧ last.value = "") :
    (lex text).failure = none ∧
      Tokens.spelling (lex text).stream = Tokens.spelling (body ++ [last]) ↔
      Gives (lex text) body := by
  refine and_congr_right fun finished => ?_
  simp [Lexed.stream, finished, Tokens.spelling, isEnd, Token.endOfInput]

namespace Definition

def Meaning.Ordinary : Meaning → Prop
  | .value v => ∃ text, v = .text text
  | .callable t => t.Standard

/- Made from a text, or one of the standard definitions. -/
def Ordinary (d : Definition) : Prop :=
  ∃ spec meaning depth line base, (∀ m ∈ meaning, Meaning.Ordinary m) ∧
    make spec meaning depth line = .ok base ∧ d.body = base.body

theorem ordinaryFair {d : Definition} (ordinary : d.Ordinary) : d.Fair := by
  obtain ⟨spec, meaning, depth, line, base, means, made, body⟩ := ordinary
  have fair : base.Fair := by
    refine makeFair (fun m isMeaning => ?_) made
    have isOrdinary := means m isMeaning
    cases m with
    | value v =>
      obtain ⟨text, rfl⟩ := isOrdinary
      exact fun line ts parsed => parseTokensGiven (Value.lexedTokens parsed)
    | callable t => exact isOrdinary
  rw [Fair, body]
  exact fair

end Definition

theorem Registry.allMono {p q : Definition → Prop} (stronger : ∀ d, p d → q d) {r : Registry}
    (all : r.All p) : r.All q where
  idens name s found d member := stronger d (all.idens name s found d member)
  ops name s found d member := stronger d (all.ops name s found d member)

namespace Session

variable {s : Session} {source : String} {unitName : Option String}

theorem unitStartFair (ordinary : s.registry.All Definition.Ordinary)
    (silent : ∀ word, s.blocks.handlersFor word = []) :
    (s.unitStart (.text source) unitName).Fair where
  session := {
    definitions := by
      rw [unitStart, beginUnitRegistry]
      exact Registry.allMono (fun _ => Definition.ordinaryFair) ordinary
    silent := by
      rw [unitStart, beginUnitBlocks]
      exact silent
    scopes depth := by
      rw [unitStart, beginUnitBlocks, Blocks.waitingReset]
      rintro h ⟨⟩ }
  ahead := Lexer.streamFits source
  out := by simp [unitStart]

theorem unitWorded {steps : Nat} {ts : List Token}
    (ordinary : s.registry.All Definition.Ordinary)
    (silent : ∀ word, s.blocks.handlersFor word = [])
    (ran : (s.expandUnit steps (.text source) unitName).1 = .ok ts) :
    ∃ body last, ts = body ++ [last] ∧ last.kind = .eof ∧ last.value = "" ∧
      ∀ t ∈ body, t.Worded := by
  obtain ⟨last, whole, -⟩ := expandUnitSucceeds (Prod.ext ran rfl)
  obtain ⟨start, began, ran⟩ := Scan.unitSucceeds whole
  obtain ⟨fair, nested⟩ := Scan.beginFair began (unitStartFair ordinary silent)
  exact (Scan.runFair ran fair).2 nested

theorem defineOrdinary {s s' : Session} {spec : String} {meaning : Option Definition.Meaning}
    {warn : Bool} {line : Line} {d : Definition} (means : ∀ m ∈ meaning, m.Ordinary)
    (ran : (define spec meaning warn line).run.run s = (.ok d, s'))
    (ordinary : s.registry.All Definition.Ordinary) :
    s'.registry.All Definition.Ordinary ∧ s'.blocks = s.blocks := by
  obtain ⟨made, registry, blocks⟩ := defineSucceeds ran
  have here : d.Ordinary := ⟨spec, meaning, _, line, d, means, made, rfl⟩
  exact ⟨registry ▸ Registry.allPush ordinary here, blocks⟩

theorem installAllOrdinary {entries : List (String × String × (Call → Program))}
    (within : ∀ entry ∈ entries, entry ∈ Standard.definitions) {s s' : Session}
    (ran : (Standard.installAll entries).run.run s = (.ok (), s'))
    (ordinary : s.registry.All Definition.Ordinary) :
    s'.registry.All Definition.Ordinary ∧ s'.blocks = s.blocks := by
  induction entries generalizing s with
  | nil =>
    cases ran
    exact ⟨ordinary, rfl⟩
  | cons entry entries ih =>
    obtain ⟨spec, name, run⟩ := entry
    obtain ⟨here, later⟩ := List.forall_mem_cons.mp within
    rw [Standard.installAll, runBind, runGet] at ran
    dsimp only at ran
    rw [runBind, runSet] at ran
    dsimp only at ran
    obtain ⟨d, between, made, ran⟩ := bindSucceeds ran
    have isStandard : Transformer.Standard ⟨name, s.ticket.1, run⟩ := ⟨_, here, rfl⟩
    have means : ∀ m ∈ some (Definition.Meaning.callable ⟨name, s.ticket.1, run⟩), m.Ordinary := by
      rintro _ ⟨⟩
      exact isStandard
    obtain ⟨first, same⟩ := defineOrdinary means made ordinary
    obtain ⟨all, blocks⟩ := ih later ran first
    exact ⟨all, blocks.trans same⟩

theorem emptyOrdinary : ({} : Session).registry.All Definition.Ordinary where
  idens name stack found := by simp at found
  ops name stack found := by simp at found

theorem standardOrdinary : (Standard.install {}).registry.All Definition.Ordinary ∧
    (Standard.install {}).blocks = {} := by
  have installs : ((Standard.installAll Standard.definitions).run.run {}).1.isOk = true := by
    decide +kernel
  rcases ran : (Standard.installAll Standard.definitions).run.run {} with ⟨e | ⟨⟨⟩⟩, s⟩
  · rw [ran] at installs
    contradiction
  · have last : Standard.install {} = s := congrArg Prod.snd ran
    rw [last]
    exact installAllOrdinary (fun _ member => member) ran emptyOrdinary

theorem standardWith {spec : String}
    (defines : ((define spec none).run.run (Standard.install {})).1.isOk = true) :
    let s := ((define spec none).run.run (Standard.install {})).2
    s.registry.All Definition.Ordinary ∧ ∀ word, s.blocks.handlersFor word = [] := by
  rcases ran : (define spec none).run.run (Standard.install {}) with ⟨e | d, s⟩
  · rw [ran] at defines
    cases defines
  · obtain ⟨ordinary, blocks⟩ := standardOrdinary
    obtain ⟨all, same⟩ := defineOrdinary (by simp) ran ordinary
    refine ⟨all, fun word => ?_⟩
    rw [same, blocks]
    simp [Blocks.handlersFor]

theorem unitOutputLexes {s : Session} {source : String} {unitName : Option String} {steps : Nat}
    {ts : List Token} (ordinary : s.registry.All Definition.Ordinary)
    (silent : ∀ word, s.blocks.handlersFor word = [])
    (ran : (s.expandUnit steps (.text source) unitName).1 = .ok ts) :
    ∃ body last, ts = body ++ [last] ∧ last.kind = .eof ∧ last.value = "" ∧
      (∀ t ∈ body, t.Spelled ∨ t.Negative) ∧
      ((Lexer.lex (Tokens.text ts)).failure = none ∧
        Tokens.spelling (Lexer.lex (Tokens.text ts)).stream = Tokens.spelling ts ↔
        Tokens.Apart body) := by
  obtain ⟨body, last, rfl, kind, value, worded⟩ := unitWorded ordinary silent ran
  refine ⟨body, last, rfl, kind, value, worded, ?_⟩
  have text : Tokens.text (body ++ [last]) = Tokens.text body := by
    rw [Tokens.textAppend, Tokens.textCons, value]
    exact String.append_empty
  rw [text, Lexer.streamGives ⟨kind, value⟩]
  exact Lexer.givesIff body

-- With a blank in front, the two minuses stay apart.
theorem unitOutputLexesUnrolled :
    let s := ((define "X -1" none).run.run (Standard.install {})).2
    let ran := (s.expandUnit 99 (.text "_UNROLL_ i = 1, 2 do(f)(i - X) end") none).1
    ∃ body last, ran = .ok (body ++ [last]) ∧
      Tokens.text (body ++ [last]) = "do (f)(1 - -1) end do (f)(2 - -1) end" ∧
      Tokens.Apart body := by
  intro s ran
  have text : ran.toOption.map Tokens.text = some "do (f)(1 - -1) end do (f)(2 - -1) end" := by
    decide +kernel
  have spelling : ran.toOption.map Tokens.spelling =
      some (Tokens.spelling (Lexer.lex "do (f)(1 - -1) end do (f)(2 - -1) end").stream) := by
    decide +kernel
  obtain ⟨ordinary, silent⟩ := @standardWith "X -1" (by decide +kernel)
  have same : (s.expandUnit 99 (.text "_UNROLL_ i = 1, 2 do(f)(i - X) end") none).1 = ran := rfl
  clear_value ran
  cases ran with
  | error e => cases text
  | ok ts =>
    obtain ⟨body, last, rfl, -, -, -, apart⟩ := unitOutputLexes ordinary silent same
    refine ⟨body, last, rfl, Option.some.inj text, apart.mp ?_⟩
    rw [Option.some.inj text]
    exact ⟨by decide +kernel, (Option.some.inj spelling).symm⟩

-- The minus of the source and that of the text are together the beginning of a comment.
theorem outputRunsTogether :
    let s := ((define "X -1" none).run.run (Standard.install {})).2
    let output := (s.expandUnit 99 (.text "5-X") none).1.toOption
    (s.registry.All Definition.Ordinary ∧ ∀ word, s.blocks.handlersFor word = []) ∧
      output.map Tokens.spelling =
        some [(.number, "5"), (.op, "-"), (.op, "-"), (.number, "1"), (.eof, "")] ∧
      output.map (fun ts => Tokens.spelling (Lexer.lex (Tokens.text ts)).stream) =
        some [(.number, "5"), (.comment, "--1"), (.eof, "")] := by
  have ordinary := @standardWith "X -1" (by decide +kernel)
  exact ⟨ordinary, by decide +kernel, by decide +kernel⟩

end Session

end LuaExpander
