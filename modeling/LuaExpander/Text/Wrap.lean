import LuaExpander.Text.Word

/-! Blanks and lines, and wrapping a line of text to a width. A line is cut into chunks: runs of
spaces, dashes between words and words, which may end at a hyphen. As many chunks as fit go on each
line of the result; a chunk too long for any line is broken. Chunks of spaces are dropped where
lines are broken. -/
namespace LuaExpander.Text

/- White space of any kind: controls that space out text, the separators 0x1c to 0x1f and the space
characters of all scripts. -/
def isBlank (c : Char) : Bool :=
  let n := c.toNat
  (9 ≤ n && n ≤ 13) || (28 ≤ n && n ≤ 32) || n = 0x85 || n = 0xa0 || n = 0x1680
    || (0x2000 ≤ n && n ≤ 0x200a) || n = 0x2028 || n = 0x2029 || n = 0x202f || n = 0x205f
    || n = 0x3000

def trim (cs : List Char) : List Char :=
  ((cs.dropWhile isBlank).reverse.dropWhile isBlank).reverse

def isLineEnd (c : Char) : Bool :=
  let n := c.toNat
  (10 ≤ n && n ≤ 13) || (28 ≤ n && n ≤ 30) || n = 0x85 || n = 0x2028 || n = 0x2029

/- The lines of a text without their ends. `line` holds what the current line has so far, last
character first. A text that ends with a line end has no further, empty line. -/
def linesFrom (line : List Char) : List Char → List (List Char)
  | [] => if line.isEmpty then [] else [line.reverse]
  | '\r' :: '\n' :: rest => line.reverse :: linesFrom [] rest
  | c :: rest =>
    if isLineEnd c then line.reverse :: linesFrom [] rest else linesFrom (c :: line) rest

def lines (s : String) : List (List Char) := linesFrom [] s.toList

def newlines (s : String) : Nat := s.toList.count '\n'

def spaced (column : Nat) : List Char → List Char
  | [] => []
  | c :: cs =>
    if c = '\t' then
      let width := 8 - column % 8
      List.replicate width ' ' ++ spaced (column + width) cs
    else if 10 ≤ c.toNat ∧ c.toNat ≤ 13 then ' ' :: spaced (column + 1) cs
    else c :: spaced (column + 1) cs

def isWordMark (c : Char) : Bool := isWord c || c ∈ ['!', '"', '\'', '&', '.', ',', '?']

def dashesAhead (cs : List Char) : Bool :=
  2 ≤ (cs.takeWhile (· = '-')).length
    && ((cs.dropWhile (· = '-')).head?.map isWord).getD false

/- May a word be broken after the hyphen that follows `before`, whose last character comes first?
There have to be two letters before the hyphen, possibly with a hyphen between them. -/
def breaksBefore : List Char → Bool
  | a :: b :: rest =>
    (isWordLetter a && isWordLetter b)
      || (b = '-' && isWordLetter a && (rest.head?.map isWordLetter).getD false)
  | _ => false

def breaksAfter : List Char → Bool
  | a :: b :: rest =>
    isWordLetter a
      && (isWordLetter b || (b = '-' && (rest.head?.map isWordLetter).getD false))
  | _ => false

/- How much more of `cs` belongs to a word that has begun. `before` is what precedes, the last
character first. -/
def wordLength (before : List Char) : List Char → Nat
  | [] => 0
  | c :: cs =>
    if c = '-' && breaksBefore before && breaksAfter cs then 1
    else if c = ' ' then 0
    else if (before.head?.map isWordMark).getD false && dashesAhead (c :: cs) then 0
    else wordLength (c :: before) cs + 1

def chunkLength (before : List Char) : List Char → Nat
  | [] => 0
  | c :: cs =>
    if c = ' ' then (cs.takeWhile (· = ' ')).length + 1
    else if (before.head?.map isWordMark).getD false && dashesAhead (c :: cs) then
      ((c :: cs).takeWhile (· = '-')).length
    else wordLength (c :: before) cs + 1

def chunksFrom (before : List Char) : Nat → List Char → List (List Char)
  | 0, _ => []
  | _, [] => []
  | count + 1, cs =>
    let n := chunkLength before cs
    cs.take n :: chunksFrom ((cs.take n).reverse ++ before) count (cs.drop n)

def chunks (cs : List Char) : List (List Char) := chunksFrom [] cs.length cs

def isBlankChunk (chunk : List Char) : Bool := chunk.all isBlank

def fill (width : Int) (length : Nat) :
    List (List Char) → List (List Char) × List (List Char) × Nat
  | [] => ([], [], length)
  | chunk :: more =>
    if (length + chunk.length : Int) ≤ width then
      let (line, rest, length) := fill width (length + chunk.length) more
      (chunk :: line, rest, length)
    else ([], chunk :: more, length)

/- Where a chunk is broken that has `room` on the line: after the last hyphen in it that follows
something else, if there is one. -/
def breakAt (room : Nat) (chunk : List Char) : Nat :=
  let fitting := chunk.take room
  let kept := (fitting.reverse.dropWhile (· ≠ '-')).length
  if room < chunk.length && 1 < kept && (chunk.take (kept - 1)).any (· ≠ '-') then kept
  else room

def breakLong (width : Int) (line rest : List (List Char)) (length : Nat) :
    List (List Char) × List (List Char) :=
  match rest with
  | chunk :: more =>
    if (chunk.length : Int) > width then
      let room := if width < 1 then 1 else (width - length).toNat
      let n := breakAt room chunk
      (line ++ [chunk.take n], chunk.drop n :: more)
    else (line, rest)
  | [] => (line, [])

def dropLastBlank (line : List (List Char)) : List (List Char) :=
  match line.getLast? with
  | some chunk => if isBlankChunk chunk then line.dropLast else line
  | none => line

structure Margins where
  width : Nat
  first : List Char
  others : List Char
  deriving DecidableEq, Repr

def wrapChunks (m : Margins) (started : Bool) : Nat → List (List Char) → List (List Char)
  | 0, _ => []
  | _, [] => []
  | turns + 1, chunk :: more =>
    let indent := if started then m.others else m.first
    let width : Int := (m.width : Int) - indent.length
    let rest := if started && isBlankChunk chunk then more else chunk :: more
    let (line, rest, length) := fill width 0 rest
    let (line, rest) := breakLong width line rest length
    let line := dropLastBlank line
    if line.isEmpty then wrapChunks m started turns rest
    else (indent ++ line.flatten) :: wrapChunks m true turns rest

def wrap (m : Margins) (cs : List Char) : List (List Char) :=
  let cs := spaced 0 cs
  let parts := chunks cs
  wrapChunks m false (2 * cs.length + parts.length + 2) parts

end LuaExpander.Text
