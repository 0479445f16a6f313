import LuaExpander.Error
import LuaExpander.Stack
import Std.Data.ExtTreeMap.Basic

/-! Named stacks of published values. A construct that is being expanded pushes a value under its
name, changes it as it goes on and pops it at its end; meanwhile the value can be asked for. -/
namespace LuaExpander

structure Contexts (α : Type) where
  table : Std.ExtTreeMap String (Stack α) := {}

namespace Contexts

variable {α : Type}

def empty : Contexts α := {}

def stack (name : String) (c : Contexts α) : Stack α := c.table[name]?.getD .empty

def isActive (name : String) (c : Contexts α) : Bool := c.table.contains name

def depth (name : String) (c : Contexts α) : Nat := (c.stack name).height

def value? (name : String) (c : Contexts α) : Option α := (c.stack name).top?

def push (name : String) (value : α) (c : Contexts α) : Contexts α :=
  ⟨c.table.insert name ((c.stack name).push value)⟩

def update (name : String) (value : α) (c : Contexts α) : Except Fault (Contexts α) :=
  if c.isActive name then .ok ⟨c.table.insert name ((c.stack name).replaceTop value)⟩
  else .error (.inactiveContext name)

def pop (name : String) (c : Contexts α) : Except Fault (α × Contexts α) :=
  match c.value? name with
  | none => .error (.inactiveContext name)
  | some value =>
    let rest := (c.stack name).pop
    .ok (value, ⟨if rest.isEmpty then c.table.erase name else c.table.insert name rest⟩)

/- A value is there while `inside` runs and is popped after it, whether or not it fails. A failure of
the pop comes before one of `inside`. -/
def nest {β : Type} (name : String) (value : α) (inside : Contexts α → Except Fault β × Contexts α)
    (c : Contexts α) : Except Fault β × Contexts α :=
  let (answer, c) := inside (c.push name value)
  match c.pop name with
  | .ok (_, c) => (answer, c)
  | .error f => (.error f, c)

def toList (c : Contexts α) : List (String × Stack α) := c.table.toList

def describe (c : Contexts α) : String :=
  "<MacroContexts ["
    ++ String.intercalate ", " (c.toList.map fun entry => Text.quoted entry.1) ++ "]>"

end Contexts

end LuaExpander
