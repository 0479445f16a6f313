import LuaExpander.Definition
import Std.Data.ExtTreeMap.Basic

/-! All definitions, in two name spaces: identifiers and operators. Each name has a stack of
definitions, of which the top one is active. -/
namespace LuaExpander

abbrev Table := Std.ExtTreeMap String (Stack Definition)

structure Registry where
  idens : Table := {}
  ops : Table := {}
  -- The length of the longest operator that was ever defined.
  longest : Nat := 0

namespace Registry

def stack? (name : String) (r : Registry) : Option (Stack Definition) :=
  if Literal.isName name then r.idens[name]? else r.ops[name]?

def stack (name : String) (r : Registry) : Stack Definition := (r.stack? name).getD .empty

/- Gives a name its definitions; a name without any is not kept. -/
def setStack (name : String) (s : Stack Definition) (r : Registry) : Registry :=
  let change (table : Table) : Table := if s.isEmpty then table.erase name else table.insert name s
  if Literal.isName name then { r with idens := change r.idens } else { r with ops := change r.ops }

def get? (name : String) (r : Registry) : Option Definition := (r.stack? name).bind (·.top?)

def isDefined (name : String) (r : Registry) : Bool := (r.stack? name).isSome

def push (d : Definition) (r : Registry) : Registry :=
  let longest := if Literal.isName d.name then r.longest else max r.longest d.name.length
  { r.setStack d.name ((r.stack d.name).push d) with longest }

def undefine (name : String) (r : Registry) : Registry :=
  match r.stack? name with
  | some s => r.setStack name s.pop
  | none => r

def height (name : String) (r : Registry) : Nat := (r.stack name).height

def restore (name : String) (height : Nat) (r : Registry) : Registry :=
  match r.stack? name with
  | some s => r.setStack name (s.truncate height)
  | none => r

/- The operators that follow directly, as long as the texts before each are shorter than `limit`;
`length` is that of the text so far. -/
def takeOperators (limit length : Nat) (c : Cursor) : List Token × Cursor :=
  let more (length : Nat) (t : Token) :=
    if length < limit ∧ t.kind = .op then some (length + t.value.length) else none
  c.takeFrom more c.size length

structure Match where
  definition : Definition
  nameToken : Token

/- The outcome of a search, and how many definitions were held back because the text came out of
their own replacement. -/
structure Search where
  found : Option Match
  held : Nat

def longestName (r : Registry) (run : List Token) (held : Nat) :
    Nat → Option (Nat × String × Definition) × Nat
  | 0 => (none, held)
  | n + 1 =>
    let part := run.take (n + 1)
    let name := Tokens.text part
    match r.ops[name]?.bind (·.top?) with
    | none => longestName r run held n
    | some d =>
      if part.any (·.mark == some name) then longestName r run (held + 1) n
      else (some (n + 1, name, d), held)

/- The definition invoked by an operator and those that follow it. What does not belong to the name
stays ahead. -/
def matchOperator (t : Token) (r : Registry) (c : Cursor) : Except Error Search × Cursor :=
  let (run, rest) := takeOperators r.longest t.value.length c
  let short : Bool := (Tokens.text (t :: run)).length < r.longest
  match if short then rest.peek else (.ok none, rest) with
  | (.error e, rest) => (.error e, rest)
  | (.ok _, rest) =>
    match longestName r (t :: run) 0 (run.length + 1) with
    | (some (n, name, definition), held) =>
      let nameToken := if n > 1 then { t with value := name, serial := none } else t
      (.ok ⟨some ⟨definition, nameToken⟩, held⟩, rest.prepend (run.drop (n - 1)))
    | (none, held) => (.ok ⟨none, held⟩, rest.prepend run)

def matchIden (t : Token) (r : Registry) : Search :=
  match r.idens[t.value]?.bind (·.top?) with
  | none => ⟨none, 0⟩
  | some definition => if t.mark = some t.value then ⟨none, 1⟩ else ⟨some ⟨definition, t⟩, 0⟩

def find (t : Token) (r : Registry) (c : Cursor) : Except Error Search × Cursor :=
  match t.kind with
  | .op => if r.ops.isEmpty then (.ok ⟨none, 0⟩, c) else r.matchOperator t c
  | .iden => (.ok (r.matchIden t), c)
  | _ => (.ok ⟨none, 0⟩, c)

def describe (r : Registry) : String :=
  "<Macros " ++ toString r.idens.size ++ " idens, " ++ toString r.ops.size ++ " ops>"

end Registry

end LuaExpander
