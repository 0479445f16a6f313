import LuaExpander.Error
import Std.Data.ExtTreeMap.Basic

/-! The block depth of the source, and the handlers that wait for a depth to be vacated or for a
keyword. Depth 0 is the whole unit and is vacated at the end of the input. Only the books are kept
here; what a handler does is up to the expansion. -/
namespace LuaExpander

structure Blocks (η : Type) where
  depth : Nat := 0
  deferred : Std.ExtTreeMap Nat (List η) := {}
  keywords : Std.ExtTreeMap String (List η) := {}

namespace Blocks

variable {η : Type}

def empty : Blocks η := {}

def reset (b : Blocks η) : Blocks η := { b with depth := 0, deferred := {} }

def waiting (depth : Nat) (b : Blocks η) : List η := b.deferred[depth]?.getD []

def defer (handler : η) (depth : Option Int) (b : Blocks η) : Except Fault (Blocks η) :=
  let depth := depth.getD b.depth
  if depth < 0 then .error (.negativeDepth depth)
  else
    let depth := depth.toNat
    .ok { b with deferred := b.deferred.insert depth (b.waiting depth ++ [handler]) }

def handlersFor (word : String) (b : Blocks η) : List η := b.keywords[word]?.getD []

def onKeyword (word : String) (handler : η) (b : Blocks η) : Blocks η :=
  { b with keywords := b.keywords.insert word (b.handlersFor word ++ [handler]) }

def enter (b : Blocks η) : Blocks η := { b with depth := b.depth + 1 }

/- Leaves the current block. The handlers of the depth are answered, the last registered first, and
wait no more. -/
def leave (t : Token) (b : Blocks η) : Except Error (List η × Blocks η) :=
  match b.depth with
  | 0 => .error (.atToken (.unopenedBlock t.value) t)
  | depth + 1 =>
    .ok ((b.waiting (depth + 1)).reverse,
      { b with depth, deferred := b.deferred.erase (depth + 1) })

def finish (t : Token) (b : Blocks η) : Except Error (List η × Blocks η) :=
  if b.depth = 0 then
    .ok ((b.waiting 0).reverse, { b with deferred := b.deferred.erase 0 })
  else .error (.atToken (.unclosedBlocks b.depth) t)

def pending (b : Blocks η) : List (Nat × List η) := b.deferred.toList

def checkFinished (t : Token) (b : Blocks η) : Except Error Unit :=
  if b.depth = 0 then
    let count := b.pending.foldl (fun n entry => n + entry.2.length) 0
    if count = 0 then .ok ()
    else .error (.atToken (.unfiredHandlers count (b.pending.map (·.1))) t)
  else .error (.atToken (.unclosedBlocks b.depth) t)

def describe (b : Blocks η) : String := "<Blocks depth " ++ toString b.depth ++ ">"

end Blocks

end LuaExpander
