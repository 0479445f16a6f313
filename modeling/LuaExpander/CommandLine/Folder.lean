/-! What a run of the command line needs from outside: files and the standard streams. A folder of
files is such a place as a value, for runs that touch nothing else; folders inside it are there as
long as a file is in them. -/
namespace LuaExpander.CommandLine

structure Host (m : Type → Type) where
  read : String → m (Option ByteArray)
  -- Makes a file empty or a new one; answers whether it can be written.
  create : String → m Bool
  -- Writes over the front of a file.
  overwrite : String → String → m Unit
  input : m String
  out : String → m Unit
  err : String → m Unit

def Host.write {m : Type → Type} [Monad m] (host : Host m) (path text : String) : m Bool := do
  if ← host.create path then
    host.overwrite path text
    return true
  return false

abbrev Path := List String

structure Folder where
  files : List (Path × ByteArray) := []

namespace Folder

def get? (f : Folder) (path : Path) : Option ByteArray := f.files.lookup path

def set (f : Folder) (path : Path) (contents : ByteArray) : Folder :=
  if f.files.any (·.1 == path) then
    ⟨f.files.map fun entry => if entry.1 == path then (path, contents) else entry⟩
  else ⟨f.files ++ [(path, contents)]⟩

def isFolder (f : Folder) (path : Path) : Bool :=
  f.files.any fun entry => path.isPrefixOf entry.1 && path != entry.1

/- Follows the parts of a path from a folder on. Only existing folders can be passed through, and
none leads out of the folder as a whole. -/
def follow (f : Folder) (place : Path) : List String → Option Path
  | [] => none
  | [last] => if last ∈ ["", ".", ".."] then none else some (place ++ [last])
  | part :: rest =>
    if part ∈ ["", "."] then follow f place rest
    else if part = ".." then
      if place.isEmpty then none else follow f place.dropLast rest
    else if f.isFolder (place ++ [part]) then follow f (place ++ [part]) rest
    else none

def parts : List Char → List String
  | [] => [""]
  | c :: cs =>
    if c = '/' then "" :: parts cs
    else
      match parts cs with
      | first :: rest => String.ofList (c :: first.toList) :: rest
      | [] => [String.singleton c]

def locate (f : Folder) (path : String) : Option Path :=
  if path.toList.head? = some '/' ∨ path.toList.contains '\x00' then none
  else f.follow [] (parts path.toList)

def read (f : Folder) (path : String) : Option ByteArray := (f.locate path).bind f.get?

def create (f : Folder) (path : String) : Option Folder :=
  match f.locate path with
  | some place => if f.isFolder place then none else some (f.set place .empty)
  | none => none

def overwrite (f : Folder) (path text : String) : Folder :=
  match f.locate path with
  | some place =>
    let front := text.toUTF8
    let old := (f.get? place).getD .empty
    f.set place (front ++ old.extract front.size old.size)
  | none => f

def pathText (path : Path) : String := String.intercalate "/" path

def changes (before after : Folder) : List (Path × ByteArray) :=
  after.files.filter fun entry =>
    match before.get? entry.1 with
    | some old => old.toList != entry.2.toList
    | none => true

end Folder

structure Desk where
  folder : Folder := {}
  input : String := ""
  out : String := ""
  err : String := ""

def Desk.host : Host (StateM Desk) where
  read path := do return (← get).folder.read path
  create path := do
    match (← get).folder.create path with
    | some folder =>
      modify fun d => { d with folder }
      return true
    | none => return false
  overwrite path text := modify fun d => { d with folder := d.folder.overwrite path text }
  input := modifyGet fun d => (d.input, { d with input := "" })
  out text := modify fun d => { d with out := d.out ++ text }
  err text := modify fun d => { d with err := d.err ++ text }

end LuaExpander.CommandLine
