import LuaExpander.Session

/-! The standard definitions.

* `__FILE__` and `__LINE__`: the name of the unit as a string literal, and the line.
* `_STR_(x)`: a string literal with the text of the argument.
* `_CONCAT_(a, b)`: one name made of two.
* `@define`, `@undef`, `@scope`: definitions in the source, up to the end of the line.
* `_UNROLL_ var = first, last, step do BODY end`: a copy of the body as a block for each value, with
  `var` defined as that value and the context `_UNROLL_` holding it. The copies begin with
  `__UNROLL_STEP__` and all ends with `__UNROLL_DONE__`, which do the bookkeeping. -/
namespace LuaExpander.Standard

def built (b : Builder) : Action (Value × Builder) := pure (.nothing, b)

/- Ends with a replacement as the value. -/
def answered (b : Builder) : Action (Value × Builder) := pure (.builder b, .empty)

def file : Action (Value × Builder) := do
  match ← Action.ask .unitName with
  | some (.text name) => built (Builder.empty.string name)
  | some (.descriptor _) => Action.fail (.fault (.notIterable "int"))
  | none => built (Builder.empty.string "")

def lineText : Line → String
  | some n => toString n
  | none => "None"

def line (origin : Token) : Action (Value × Builder) :=
  built (Builder.empty.token .number (lineText origin.line))

def stringize (x : List Token) : Action (Value × Builder) :=
  answered (Builder.empty.string (Tokens.text x))

def concat (a b : List Token) : Action (Value × Builder) := do
  let name := Tokens.text (Tokens.strip a) ++ Tokens.text (Tokens.strip b)
  if Literal.isName name && name ∉ reservedWords then answered (Builder.empty.iden name)
  else Action.error (.notOneName name) a.head?

def directive : Action (Value × Builder) := do
  let t ← Action.read .skipBlank
  let word ← Action.read .name
  match word with
  | "define" =>
    let text ← Action.read .line
    Action.ask (.define (Tokens.text text) none t.line)
  | "undef" =>
    let name ← Action.read .name
    Action.ask (.undefine name)
  | "scope" =>
    let name ← Action.read .name
    let text ← Action.read .line
    Action.ask (.scope name (some (.tokens text)))
  | _ => Action.error (.unknownDirective word) (some t)
  built .empty

/- The values from `first` to `last` by `step`, which is not zero. -/
def progression (first last step : Int) : List Int :=
  let count := if 0 < step then (last - first) / step + 1 else (first - last) / (-step) + 1
  (List.range count.toNat).map fun (k : Nat) => first + k * step

def unrollContext : String := "_UNROLL_"

def copy (var : String) (body : List Token) (b : Builder) (value : Int) : Except Fault Builder := do
  let head := ((b.keyword "do").space.iden "__UNROLL_STEP__").space.iden var
  return ((← head.space.number (.int value)).tokens body).keyword "end"

def moreCopies (var : String) (body : List Token) : List Int → Builder → Except Fault Builder
  | [], b => .ok b
  | value :: values, b => do moreCopies var body values (← copy var body b.space value)

def copies (var : String) (body : List Token) (values : List Int) : Except Fault Builder := do
  match values with
  | [] => return Builder.empty.iden "__UNROLL_DONE__"
  | value :: values =>
    let b ← moreCopies var body values (← copy var body .empty value)
    return b.iden "__UNROLL_DONE__"

def bounds (origin : Token) : List Number → Action (Int × Int × Int)
  | [.int first, .int last] => pure (first, last, 1)
  | [.int first, .int last, .int step] =>
    if step = 0 then Action.error .unrollStandstill (some origin) else pure (first, last, step)
  | _ => Action.error .unrollFraction (some origin)

def unroll (origin : Token) : Action (Value × Builder) := do
  let var ← Action.read .name
  let _ ← Action.read (.expecting (.text "="))
  let parts := Tokens.splitCommas (← Action.read (.upto "do"))
  if parts.length ≠ 2 ∧ parts.length ≠ 3 then Action.error .unrollBounds (some origin)
  else
    let (first, last, step) ← bounds origin (← Action.ofExcept (parts.mapM Tokens.asNumber))
    let _ ← Action.read (.expecting (.text "do"))
    let body ← Action.read .block
    let _ ← Action.ask (.context (.push unrollContext (.number (.int first))))
    match copies var body (progression first last step) with
    | .ok b => built b
    | .error f => Action.fail (.fault f)

def unrollStep : Action (Value × Builder) := do
  let var ← Action.read .name
  let value ← Action.read .number
  let _ ← Action.ask (.context (.update unrollContext (.number value)))
  match value.text with
  | .ok text =>
    Action.ask (.scope var (some (.text text)))
    built .empty
  | .error f => Action.fail (.fault f)

def unrollDone : Action (Value × Builder) := do
  let _ ← Action.ask (.context (.pop unrollContext))
  built .empty

def bare (act : Token → Action (Value × Builder)) : Call → Program
  | .bare origin => (act origin).toProgram
  | .applied _ => .done .nothing .empty

def unary (act : List Token → Action (Value × Builder)) : Call → Program
  | .applied [x] => (act x).toProgram
  | _ => .done .nothing .empty

def binary (act : List Token → List Token → Action (Value × Builder)) : Call → Program
  | .applied [x, y] => (act x y).toProgram
  | _ => .done .nothing .empty

def definitions : List (String × String × (Call → Program)) :=
  [("__FILE__", "file", bare fun _ => file),
   ("__LINE__", "line", bare line),
   ("_STR_(x)", "stringize", unary stringize),
   ("_CONCAT_(a, b)", "concat", binary concat),
   ("@", "directive", bare fun _ => directive),
   ("_UNROLL_", "unroll", bare unroll),
   ("__UNROLL_STEP__", "unroll_step", bare fun _ => unrollStep),
   ("__UNROLL_DONE__", "unroll_done", bare fun _ => unrollDone)]

def installAll : List (String × String × (Call → Program)) → SessionM Unit
  | [] => return
  | (spec, name, run) :: rest => do
    let (id, s) := (← get).ticket
    set s
    let _ ← Session.define spec (some (.callable ⟨name, id, run⟩))
    installAll rest

def install (s : Session) : Session := ((installAll definitions).run.run s).2

end LuaExpander.Standard
