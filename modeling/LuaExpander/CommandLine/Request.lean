import LuaExpander.CommandLine.Word

/-! What a command line asks for, in the order in which it is done. -/
namespace LuaExpander.CommandLine

inductive Request where
  | inputs (paths : List String)
  | output (path : String)
  | define (text : String)
  | undefine (name : String)
  | noBuiltins
  | log (path : Option String)
  | diagnostics (path : Option String)
  | verbose
  | help
  | version
  -- A word that nobody asked for; it is noted and left out.
  | unknown (text : String)
  | misuse (message : String)
  deriving DecidableEq, Repr

def Switch.request : Switch → Option String → Request
  | .help, _ => .help
  | .output, v => .output (v.getD "")
  | .define, v => .define (v.getD "")
  | .undefine, v => .undefine (v.getD "")
  | .noBuiltins, _ => .noBuiltins
  | .log, v => .log v
  | .diagnostics, v => .diagnostics v
  | .verbose, _ => .verbose
  | .version, _ => .version

def complaint (s : Switch) (text : String) : String := "argument " ++ s.label ++ ": " ++ text

def ignoredValue (s : Switch) (value : List Char) : String :=
  complaint s ("ignored explicit argument " ++ Text.quoted (String.ofList value))

structure Cluster where
  complete : List Request
  waiting : Option Switch
  deriving DecidableEq, Repr

/- A short option and what follows it in the same word: its value, with or without an equals sign,
or more short options. -/
def cluster (s : Switch) : List Char → Except String Cluster
  | [] => .ok ⟨[], some s⟩
  | c :: cs =>
    match s.arity with
    | .bare =>
      if c = '=' then .error (ignoredValue s cs)
      else if c = '-' then .error (ignoredValue s (c :: cs))
      else
        match shortNames.lookup c with
        | some next => do
          let more ← cluster next cs
          return { more with complete := s.request none :: more.complete }
        | none => .ok ⟨[s.request none, .unknown (String.ofList ('-' :: c :: cs))], none⟩
    | _ =>
      let value := if c = '=' then cs else c :: cs
      .ok ⟨[s.request (some (String.ofList value))], none⟩

def longOption (s : Switch) : Option String → Except String Cluster
  | none => .ok ⟨[], some s⟩
  | some value =>
    if s.arity = .bare then .error (ignoredValue s value.toList)
    else .ok ⟨[s.request (some value)], none⟩

inductive Part where
  | plain (text : String)
  | separator
  | option (requests : List Request)
  | misuse (message : String)
  deriving DecidableEq, Repr

def Cluster.finish (c : Cluster) (value : Option String) : Part :=
  match c.waiting with
  | none => .option c.complete
  | some s =>
    if s.arity = .valued ∧ value = none then .misuse (complaint s "expected one argument")
    else .option (c.complete ++ [s.request value])

def Word.cluster? : Word → Option (Except String Cluster)
  | .short s cs => some (cluster s cs)
  | .long s value => some (longOption s value)
  | .plain _ | .separator | .unknown _ => none

def Word.takesNext (w : Word) : Bool :=
  match w.cluster? with
  | some (.ok ⟨_, some s⟩) => s.arity ≠ .bare
  | _ => false

def Word.part (w : Word) (value : Option String) : Part :=
  match w.cluster?, w with
  | some (.ok c), _ => c.finish value
  | some (.error message), _ => .misuse message
  | none, .plain text => .plain text
  | none, .unknown text => .option [.unknown text]
  | none, _ => .separator

def parts : List Word → List Part
  | [] => []
  | [w] => [w.part none]
  | w :: .plain text :: ws =>
    if w.takesNext then w.part (some text) :: parts ws
    else w.part none :: parts (.plain text :: ws)
  | w :: next :: ws => w.part none :: parts (next :: ws)

def Part.text : Part → String
  | .plain text => text
  | _ => "--"

def plainWords (named : Bool) (texts : List String) : List Request :=
  if texts.isEmpty then []
  else if named then texts.map .unknown
  else [.inputs texts]

def lastWords (named : Bool) (before after : List String) : List Request :=
  if named then (before ++ "--" :: after).map .unknown else plainWords false (before ++ after)

/- The requests of the parts; `plain` has the plain words directly before them, and `named` tells
whether inputs have been named. -/
def readParts (named : Bool) (plain : List String) : List Part → List Request
  | [] => plainWords named plain
  | .plain text :: ps => readParts named (plain ++ [text]) ps
  | .separator :: ps => lastWords named plain (ps.map Part.text)
  | .option found :: ps =>
    plainWords named plain ++ found ++ readParts (named || !plain.isEmpty) [] ps
  | .misuse message :: _ => plainWords named plain ++ [.misuse message]

def requests (arguments : List String) : List Request :=
  match readWords (if arguments.isEmpty then ["--help"] else arguments) with
  | .ok ws => readParts false [] (parts ws)
  | .error message => [.misuse message]

end LuaExpander.CommandLine
