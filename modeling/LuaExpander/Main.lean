import LuaExpander.CommandLine.Run

/-! The program: runs of the command line on the files of the machine. -/
namespace LuaExpander.CommandLine

partial def readAll (stream : IO.FS.Stream) (sofar : ByteArray) : IO ByteArray := do
  let chunk ← stream.read 65536
  if chunk.isEmpty then return sofar else readAll stream (sofar ++ chunk)

def succeeds (act : IO Unit) : IO Bool := do
  try
    act
    return true
  catch _ => return false

def machine : Host IO where
  read path := do
    try return some (← IO.FS.readBinFile path)
    catch _ => return none
  create path := succeeds (IO.FS.writeFile path "")
  overwrite path text := do
    let handle ← IO.FS.Handle.mk path .readWrite
    handle.putStr text
    handle.flush
  input := do
    let bytes ← readAll (← IO.getStdin) .empty
    return (Text.decode bytes).getD ""
  out text := do
    let stream ← IO.getStdout
    stream.putStr text
    stream.flush
  err text := do
    let stream ← IO.getStderr
    stream.putStr text
    stream.flush

/- Steps that no unit of a reasonable size will use up. -/
def stepLimit : Nat := 1000000000000

end LuaExpander.CommandLine

open LuaExpander.CommandLine in
def main (arguments : List String) : IO UInt32 := do
  match ← run machine stepLimit arguments with
  | .finished code | .stopped code => return code.toUInt32
