import LuaExpander.Proofs.Balance
import LuaExpander.Proofs.Integers
import LuaExpander.Proofs.Splitting
import LuaExpander.Standard

/-! Loops as they are written, and the values that they go through. The bounds of a loop are read as
the integers that were written there, and counting from the first one by the step ends with the last
value that is not beyond the last one. -/
namespace LuaExpander

/- `_UNROLL_ var = first, last, step do body end`. -/
structure Loop where
  var : String
  first : Int
  last : Int
  step : Int
  body : List Token

namespace Loop

/- An integer is a number, after a minus if it is negative. -/
def integer (n : Int) : List (Kind × String) := Tokens.spelling (Lexer.integerTokens n)

def header (l : Loop) : List (Kind × String) :=
  let blank := (.space, " ")
  let comma := (.op, ",")
  [(.iden, "_UNROLL_"), blank, (.iden, l.var), blank, (.op, "="), blank] ++ integer l.first ++
    [comma, blank] ++ integer l.last ++ [comma, blank] ++ integer l.step ++
    [blank, (.keyword, "do")]

/- The tokens of a loop before and after its body. -/
structure Written (l : Loop) (opening : List Token) (closer : Token) : Prop where
  spelled : Tokens.spelling opening = l.header
  unmarked : ∀ t ∈ opening, t.mark = none
  closer : closer.kind = .keyword ∧ closer.value = "end"

/- The values that the loop goes through, in their order. -/
def Counts (l : Loop) (values : List Int) : Prop :=
  ∀ (k : Nat) (v : Int), values[k]? = some v ↔
    v = l.first + k * l.step ∧ (0 < l.step → v ≤ l.last) ∧ (l.step < 0 → l.last ≤ v)

/- The value stands in the place of the variable. -/
def tokenText (l : Loop) (v : Int) (t : Token) : String :=
  if t.kind = .iden ∧ t.value = l.var then toString v else t.value

def bodyText (l : Loop) (v : Int) : String := String.join (l.body.map (l.tokenText v))

def copyText (l : Loop) (v : Int) : String := "do " ++ l.bodyText v ++ "end"

/- The copies for all values, with one blank between them. -/
def text (l : Loop) (values : List Int) : String := String.intercalate " " (values.map l.copyText)

theorem countsOnly {l : Loop} {values others : List Int} (counts : l.Counts values)
    (also : l.Counts others) : values = others :=
  List.ext_getElem? fun k => Option.ext fun v => (counts k v).trans (also k v).symm

theorem textCons (l : Loop) (n : Int) (ns : List Int) :
    l.text (n :: ns) = l.copyText n ++ String.join (ns.map fun n => " " ++ l.copyText n) := by
  induction ns generalizing n with
  | nil => simp [text]
  | cons m ns ih =>
    simp only [text, List.map_cons] at ih ⊢
    simp [String.intercalate_cons_cons, ih, String.append_assoc]

end Loop

namespace Standard

theorem countInside {room step : Int} (positive : 0 < step) (k : Nat) :
    k < (room / step + 1).toNat ↔ k * step ≤ room := by
  have inside : (k : Int) ≤ room / step ↔ k * step ≤ room := Int.le_ediv_iff_mul_le positive
  omega

theorem progressionAt {first last step : Int} (moves : step ≠ 0) (k : Nat) (v : Int) :
    (progression first last step)[k]? = some v ↔
      v = first + k * step ∧ (0 < step → v ≤ last) ∧ (step < 0 → last ≤ v) := by
  have among (count : Nat) :
      ((List.range count).map fun (k : Nat) => first + k * step)[k]? = some v ↔
        k < count ∧ first + k * step = v := by
    by_cases inside : k < count <;> simp [inside]
  rw [progression, among]
  by_cases up : 0 < step
  · have inside := @countInside (last - first) step up k
    rw [if_pos up]
    omega
  · have inside := @countInside (first - last) (-step) (by omega) k
    rw [Int.mul_neg] at inside
    rw [if_neg up]
    omega

theorem progressionShort {first last step : Int} (moves : step ≠ 0) (start : Number.Short first)
    (stop : Number.Short last) : ∀ v ∈ progression first last step, Number.Short v := by
  intro v member
  obtain ⟨k, found⟩ := List.mem_iff_getElem?.mp member
  obtain ⟨value, up, down⟩ := (progressionAt moves k v).mp found
  unfold Number.Short at start stop ⊢
  generalize Nat.pow 10 Number.digitLimit = limit at start stop ⊢
  rcases Int.lt_or_gt_of_ne moves with negative | positive
  · have back : (k : Int) * step ≤ 0 :=
      Int.mul_nonpos_of_nonneg_of_nonpos (Int.natCast_nonneg k) (Int.le_of_lt negative)
    have := down negative
    omega
  · have forth : 0 ≤ (k : Int) * step :=
      Int.mul_nonneg (Int.natCast_nonneg k) (Int.le_of_lt positive)
    have := up positive
    omega

end Standard

namespace Tokens

theorem stripBetween {before ts after : List Token}
    (front : ∀ t ∈ before, t.kind.isSolid = false) (filled : ts ≠ [])
    (solid : ∀ t ∈ ts, t.kind.isSolid = true) (back : ∀ t ∈ after, t.kind.isSolid = false) :
    strip (before ++ (ts ++ after)) = ts := by
  have stays {us : List Token} (filled : us ≠ []) (solid : ∀ t ∈ us, t.kind.isSolid = true)
      (more : List Token) : (us ++ more).dropWhile (!·.kind.isSolid) = us ++ more := by
    obtain ⟨u, us, rfl⟩ := List.exists_cons_of_ne_nil filled
    rw [List.cons_append, List.dropWhile_cons_of_neg (by simp [solid u List.mem_cons_self])]
  have reversed : (after.reverse ++ ts.reverse).dropWhile (!·.kind.isSolid) = ts.reverse := by
    rw [List.dropWhile_append_of_pos fun t member => by simp [back t (List.mem_reverse.mp member)]]
    have := @stays ts.reverse (by simpa using filled)
      (fun t member => solid t (List.mem_reverse.mp member)) []
    rwa [List.append_nil] at this
  rw [strip, List.dropWhile_append_of_pos fun t member => by simp [front t member],
    stays filled solid, List.reverse_append, reversed, List.reverse_reverse]

end Tokens

namespace Loop

theorem digitsText (n : Nat) : String.ofList (Nat.toDigits 10 n) = toString (n : Int) := by
  have digits := signOf n
  rw [if_neg (by omega), List.nil_append, Int.natAbs_natCast] at digits
  rw [← digits, String.ofList_toList]

/- The tokens of an integer in a loop. -/
inductive Shows (n : Int) : List Token → Prop where
  | positive {t} (sign : 0 ≤ n) (kind : t.kind = .number) (value : t.value = toString n) :
      Shows n [t]
  | negative {minus t} (sign : n < 0) (isOp : minus.kind = .op) (isMinus : minus.value = "-")
      (kind : t.kind = .number) (value : t.value = toString (-n)) : Shows n [minus, t]

theorem integerSpelled (n : Int) :
    integer n = (if n < 0 then [(.op, "-")] else []) ++ [(.number, toString (n.natAbs : Int))] := by
  rw [← digitsText]
  unfold integer Lexer.integerTokens
  split <;> rfl

theorem integerShows {n : Int} {ts : List Token} (spelled : Tokens.spelling ts = integer n) :
    Shows n ts := by
  rw [integerSpelled] at spelled
  split at spelled
  · rename_i sign
    obtain ⟨minus, ts, rfl, isMinus, spelled⟩ := List.map_eq_cons_iff.mp spelled
    obtain ⟨t, rfl, isNumber⟩ := List.map_eq_singleton_iff.mp spelled
    obtain ⟨minusKind, minusValue⟩ := Prod.mk.inj isMinus
    obtain ⟨kind, value⟩ := Prod.mk.inj isNumber
    exact .negative sign minusKind minusValue kind (by rw [value]; congr 1; omega)
  · rename_i sign
    obtain ⟨t, rfl, isNumber⟩ := List.map_eq_singleton_iff.mp spelled
    obtain ⟨kind, value⟩ := Prod.mk.inj isNumber
    exact .positive (by omega) kind (by rw [value]; congr 1; omega)

theorem integerNoWord (n : Int) : toString n ≠ "do" := by
  intro same
  exact absurd (integerAmong n 'd' (by rw [same]; decide)) (by decide)

theorem showsSolid {n : Int} {ts : List Token} (shows : Shows n ts) :
    ts ≠ [] ∧ ∀ t ∈ ts, t.kind.isSolid = true ∧ t.value ≠ "do" ∧
      (t.kind = .op → t.value = "-") := by
  cases shows with
  | positive sign kind value =>
    have noWord := integerNoWord n
    simp_all [Kind.isSolid]
  | negative sign isOp isMinus kind value =>
    have noWord := integerNoWord (-n)
    simp_all [Kind.isSolid]

theorem showsStrip {n : Int} {before ts after : List Token}
    (front : ∀ t ∈ before, t.kind.isSolid = false) (shows : Shows n ts)
    (back : ∀ t ∈ after, t.kind.isSolid = false) : Tokens.strip (before ++ (ts ++ after)) = ts := by
  obtain ⟨filled, solid⟩ := showsSolid shows
  exact Tokens.stripBetween front filled (fun t member => (solid t member).1) back

theorem showsRead {n : Int} (short : Number.Short n) {ts : List Token} (shows : Shows n ts) :
    Tokens.asNumber ts = .ok (.int n) := by
  have same := @showsStrip n [] ts [] (by simp) shows (by simp)
  rw [List.nil_append, List.append_nil] at same
  rw [Tokens.asNumber, Tokens.single, same]
  cases shows with
  | positive sign kind value =>
    dsimp only
    rw [if_pos kind]
    dsimp only [bind, Except.bind]
    rw [Tokens.readNumber, value, Numeral.readInteger short]
  | negative sign isOp isMinus kind value =>
    have opposite : Number.Short (-n) := by
      rwa [Number.Short, Int.natAbs_neg]
    dsimp only
    rw [if_pos ⟨isMinus, kind⟩, Tokens.readNumber, value, Numeral.readInteger opposite]
    dsimp only [Functor.map, Except.map, Number.neg]
    rw [Int.neg_neg]

/- An integer with blanks around it. -/
inductive Part (n : Int) : List Token → Prop where
  | intro {before ts after} (front : ∀ t ∈ before, t.kind = .space ∧ t.value = " ")
      (shows : Shows n ts) (back : ∀ t ∈ after, t.kind = .space ∧ t.value = " ") :
      Part n (before ++ (ts ++ after))

theorem partSpelled {n : Int} {before after : List (Kind × String)} {ts : List Token}
    (front : ∀ x ∈ before, x = (.space, " ")) (back : ∀ x ∈ after, x = (.space, " "))
    (spelled : Tokens.spelling ts = before ++ (integer n ++ after)) : Part n ts := by
  have blanks {us : List Token} (all : ∀ x ∈ Tokens.spelling us, x = (.space, " ")) :
      ∀ t ∈ us, t.kind = .space ∧ t.value = " " :=
    fun t member => Prod.mk.inj (all _ (List.mem_map_of_mem member))
  obtain ⟨a, later, rfl, rfl, others⟩ := List.map_eq_append_iff.mp spelled
  obtain ⟨b, c, rfl, isInteger, rfl⟩ := List.map_eq_append_iff.mp others
  exact .intro (blanks front) (integerShows isInteger) (blanks back)

theorem partRead {n : Int} (short : Number.Short n) {ts : List Token} (part : Part n ts) :
    Tokens.asNumber (Tokens.strip ts) = .ok (.int n) := by
  obtain ⟨front, shows, back⟩ := part
  rw [showsStrip (fun t member => by rw [(front t member).1]; rfl) shows
    (fun t member => by rw [(back t member).1]; rfl)]
  exact showsRead short shows

theorem partTokens {n : Int} {ts : List Token} (part : Part n ts) :
    ∀ t ∈ ts, t.kind ≠ .eof ∧ t.value ≠ "do" ∧ (t.kind = .op → t.value = "-") := by
  obtain ⟨front, shows, back⟩ := part
  intro t member
  have blank (isBlank : t.kind = .space ∧ t.value = " ") :
      t.kind ≠ .eof ∧ t.value ≠ "do" ∧ (t.kind = .op → t.value = "-") := by
    simp [isBlank]
  rcases List.mem_append.mp member with one | rest
  · exact blank (front t one)
  rcases List.mem_append.mp rest with one | one
  · obtain ⟨solid, noWord, isMinus⟩ := (showsSolid shows).2 t one
    exact ⟨fun isEnd => by simp [isEnd, Kind.isSolid] at solid, noWord, isMinus⟩
  · exact blank (back t one)

theorem partBracketed {n : Int} {ts : List Token} (part : Part n ts) :
    Tokens.Bracketed false ts ∧ ∀ t ∈ ts, Tokens.Simple t := by
  have minus {t : Token} (member : t ∈ ts) (isOp : t.kind = .op) : t.value = "-" :=
    (partTokens part t member).2.2 isOp
  constructor
  · refine Tokens.plainBracketed fun t member => ⟨(partTokens part t member).1, fun isOp => ?_⟩
    rw [minus member isOp]
    decide
  · intro t member isOp _
    rw [minus member isOp]
    decide

/- Three integers with commas between them. -/
inductive Bounds (l : Loop) : List Token → Prop where
  | intro {a comma b comma' c} (first : Part l.first a)
      (isComma : comma.kind = .op ∧ comma.value = ",") (last : Part l.last b)
      (isOther : comma'.kind = .op ∧ comma'.value = ",") (step : Part l.step c) :
      Bounds l (a ++ comma :: (b ++ comma' :: c))

theorem boundsTokens {l : Loop} {ts : List Token} (bounds : Bounds l ts) :
    ∀ t ∈ ts, t.kind ≠ .eof ∧ t.value ≠ "do" := by
  obtain ⟨first, isComma, last, isOther, step⟩ := bounds
  have within {n : Int} {us : List Token} (part : Part n us) :
      ∀ t ∈ us, t.kind ≠ .eof ∧ t.value ≠ "do" :=
    fun t member => ⟨(partTokens part t member).1, (partTokens part t member).2.1⟩
  intro t member
  simp only [List.mem_append, List.mem_cons] at member
  rcases member with one | rfl | one | rfl | one
  · exact within first t one
  · simp [isComma]
  · exact within last t one
  · simp [isOther]
  · exact within step t one

theorem boundsRead {l : Loop} {ts : List Token} (bounds : Bounds l ts)
    (short : Number.Short l.first ∧ Number.Short l.last ∧ Number.Short l.step) :
    (Tokens.splitCommas ts).length = 3 ∧ (Tokens.splitCommas ts).mapM Tokens.asNumber =
      .ok [.int l.first, .int l.last, .int l.step] := by
  obtain @⟨a, comma, b, comma', c, first, isComma, last, isOther, step⟩ := bounds
  obtain ⟨bracketed, simple⟩ := partBracketed first
  obtain ⟨bracketed', simple'⟩ := partBracketed last
  obtain ⟨bracketed'', simple''⟩ := partBracketed step
  have listed : Tokens.Listed [a, b, c] (a ++ comma :: (b ++ comma' :: c)) :=
    .more bracketed isComma (.more bracketed' isOther (.last bracketed''))
  have filled := @Tokens.stripFilled comma (a ++ comma :: (b ++ comma' :: c)) (by simp)
    (by simp [isComma, Kind.isSolid])
  have simples : ∀ arg ∈ [a, b, c], ∀ t ∈ arg, Tokens.Simple t :=
    List.forall_mem_cons.mpr ⟨simple, List.forall_mem_cons.mpr ⟨simple', by simpa using simple''⟩⟩
  have split : Tokens.splitCommas (a ++ comma :: (b ++ comma' :: c)) =
      [Tokens.strip a, Tokens.strip b, Tokens.strip c] :=
    (Tokens.splitCommasListed listed simples).2 filled
  rw [split]
  refine ⟨rfl, ?_⟩
  rw [List.mapM_cons, partRead short.1 first, List.mapM_cons, partRead short.2.1 last,
    List.mapM_cons, partRead short.2.2 step]
  rfl

/- What follows the name of the loop, up to the body. -/
inductive Opening (l : Loop) : List Token → Prop where
  | intro {gap var gap' equals bounds keyword}
      (blank : gap.kind = .space) (isVar : var.kind = .iden ∧ var.value = l.var)
      (blank' : gap'.kind = .space) (isEquals : equals.kind = .op ∧ equals.value = "=")
      (isBounds : Bounds l bounds) (isKeyword : keyword.kind = .keyword ∧ keyword.value = "do") :
      Opening l (gap :: var :: gap' :: equals :: (bounds ++ [keyword]))

theorem headerOpens {l : Loop} {name : Token} {front : List Token}
    (spelled : Tokens.spelling (name :: front) = l.header) : Opening l front := by
  have grouped : l.header = (.iden, "_UNROLL_") :: (.space, " ") :: (.iden, l.var) ::
      (.space, " ") :: (.op, "=") ::
        (([(.space, " ")] ++ (integer l.first ++ [])) ++ (.op, ",") ::
          (([(.space, " ")] ++ (integer l.last ++ [])) ++ (.op, ",") ::
            ([(.space, " ")] ++ (integer l.step ++ [(.space, " ")]))) ++ [(.keyword, "do")]) := by
    simp [header]
  rw [grouped] at spelled
  have spelled := (List.cons_eq_cons.mp spelled).2
  obtain ⟨gap, ts, rfl, blank, spelled⟩ := List.map_eq_cons_iff.mp spelled
  obtain ⟨var, ts, rfl, isVar, spelled⟩ := List.map_eq_cons_iff.mp spelled
  obtain ⟨gap', ts, rfl, blank', spelled⟩ := List.map_eq_cons_iff.mp spelled
  obtain ⟨equals, ts, rfl, isEquals, spelled⟩ := List.map_eq_cons_iff.mp spelled
  obtain ⟨bounds, last, rfl, within, isLast⟩ := List.map_eq_append_iff.mp spelled
  obtain ⟨keyword, rfl, isKeyword⟩ := List.map_eq_singleton_iff.mp isLast
  obtain ⟨a, ts, rfl, first, others⟩ := List.map_eq_append_iff.mp within
  obtain ⟨comma, ts, rfl, isComma, others⟩ := List.map_eq_cons_iff.mp others
  obtain ⟨b, ts, rfl, second, others⟩ := List.map_eq_append_iff.mp others
  obtain ⟨comma', c, rfl, isOther, third⟩ := List.map_eq_cons_iff.mp others
  have none : ∀ x ∈ ([] : List (Kind × String)), x = (.space, " ") := by simp
  have one : ∀ x ∈ [((.space, " ") : Kind × String)], x = (.space, " ") := by simp
  have isBounds := Bounds.intro (partSpelled one none first) (Prod.mk.inj isComma)
    (partSpelled one none second) (Prod.mk.inj isOther) (partSpelled one one third)
  exact .intro (Prod.mk.inj blank).1 (Prod.mk.inj isVar) (Prod.mk.inj blank').1
    (Prod.mk.inj isEquals) isBounds (Prod.mk.inj isKeyword)

end Loop

end LuaExpander
