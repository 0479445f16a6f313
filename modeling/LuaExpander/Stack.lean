/-! Stacks: the last value pushed is on top. -/
namespace LuaExpander

structure Stack (α : Type) where
  -- The values, the top one first.
  items : List α
  deriving DecidableEq, Repr

namespace Stack

variable {α : Type}

def empty : Stack α := ⟨[]⟩

def ofList (xs : List α) : Stack α := ⟨xs.reverse⟩

def toList (s : Stack α) : List α := s.items.reverse

def height (s : Stack α) : Nat := s.items.length

def isEmpty (s : Stack α) : Bool := s.items.isEmpty

def push (x : α) (s : Stack α) : Stack α := ⟨x :: s.items⟩

def top? (s : Stack α) : Option α := s.items.head?

def pop (s : Stack α) : Stack α := ⟨s.items.tail⟩

def replaceTop (x : α) (s : Stack α) : Stack α := s.pop.push x

def truncate (height : Nat) (s : Stack α) : Stack α :=
  ⟨s.items.drop (s.items.length - height)⟩

def truncateAt (position : Int) (s : Stack α) : Stack α :=
  s.truncate (if position < 0 then (s.height + position).toNat else position.toNat)

end Stack

end LuaExpander
