import LuaExpander.Program

/-! Scripts: transformers and handlers as data. A script is a list of steps over variables and a
builder; it ends with the value of the first step that answers one. -/
namespace LuaExpander.Script

inductive Method where
  | strip
  | splitCommas
  | asName
  | asNumber
  | asString
  deriving DecidableEq, Repr

inductive Expr where
  | value (v : Value)
  | list (items : List Expr)
  | var (name : String)
  | lex (text : String)
  | built
  | builder (tokens : Expr)
  | depth
  | context (name : String)
  | isDefined (name : Expr)
  | line
  | taken
  | concat (items : List Expr)
  | add (a b : Expr)
  | greater (a b : Expr)
  | equal (a b : Expr)
  | length (e : Expr)
  | item (e : Expr) (index : Int)
  | tokenValue (e : Expr)
  | method (e : Expr) (m : Method)
  deriving Repr

inductive Addition where
  | token (kind : Kind) (value : Expr)
  | string (contents : Expr)
  | number (n : Expr)
  | tokens (ts : Expr)
  | names (ns : Expr)
  deriving Repr

inductive ContextMethod where
  | push
  | update
  | pop
  | valueOf
  | isActive
  | depth
  | reset
  deriving DecidableEq, Repr

inductive Step where
  | read (var : Option String) (op : Reader.Op)
  | put (a : Addition)
  | set (var : Option String) (e : Expr)
  | note (e : Expr)
  | answer (e : Expr)
  | branch (condition : Expr) (yes no : List Step)
  | loop (var : Option String) (e : Expr) (body : List Step)
  | define (life : Lifetime) (spec value : Expr)
  | defineScript (life : Lifetime) (spec : Expr) (name : String) (body : List Step)
  | undefine (e : Expr)
  | defer (level : Expr) (name : String) (body : List Step)
  | onKeyword (word name : String) (body : List Step)
  | context (var : Option String) (m : ContextMethod) (name : String) (args : List Expr)
  -- Publishes a value during the steps, whether or not they fail.
  | nest (name : String) (e : Expr) (body : List Step)
  | raise (f : Failure)
  deriving Repr

end LuaExpander.Script
