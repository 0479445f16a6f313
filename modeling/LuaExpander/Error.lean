import LuaExpander.Token

/-! What can go wrong. An `Error` is a reason to give up the unit at hand and knows where it arose.
A `Fault` is a failure inside a single operation on values; a call that ends in one becomes an
error of the unit, located at the call. -/
namespace LuaExpander

inductive Fault where
  | notANumber (text : String)
  | notAHexInteger (text : String)
  | notAHexFloat
  | hexFloatTooLarge
  | noSuchCharacter
  | characterTooLarge
  | tooManyDigits
  | inactiveContext (name : String)
  | negativeDepth (depth : Int)
  | notTokens (type value : String)
  | lacking (type what : String)
  | notText (type : String)
  | notIterable (type : String)
  | notJoinable (type other : String)
  | notAddable (left right : String)
  | notComparable (relation left right : String)
  | noLength (type : String)
  | notAPath (type : String)
  | noItems (type : String)
  | noSuchItem (what : String)
  | integerTooLarge
  | unknownVariable (name : String)
  | raised (kind message : String)
  deriving DecidableEq, Repr

def Fault.noReader (operation : String) : Fault := .lacking "NoneType" operation

def Fault.kind : Fault → String
  | .notANumber _ | .notAHexInteger _ | .notAHexFloat | .noSuchCharacter | .tooManyDigits
  | .negativeDepth _ => "ValueError"
  | .hexFloatTooLarge | .characterTooLarge | .integerTooLarge => "OverflowError"
  | .inactiveContext _ | .unknownVariable _ => "KeyError"
  | .notTokens _ _ | .notText _ | .notIterable _ | .notJoinable _ _ | .notAddable _ _
  | .notComparable _ _ _ | .noLength _ | .notAPath _ | .noItems _ => "TypeError"
  | .lacking _ _ => "AttributeError"
  | .noSuchItem _ => "IndexError"
  | .raised kind _ => kind

def Fault.message : Fault → String
  | .notANumber text => "could not convert string to float: " ++ Text.quoted text
  | .notAHexInteger text =>
    "invalid literal for int() with base 16: " ++ String.ofList ((Text.quoted text).toList.take 200)
  | .notAHexFloat => "invalid hexadecimal floating-point string"
  | .hexFloatTooLarge => "hexadecimal value too large to represent as a float"
  | .noSuchCharacter => "chr() arg not in range(0x110000)"
  | .characterTooLarge => "Python int too large to convert to C int"
  | .tooManyDigits =>
    "Exceeds the limit (4300 digits) for integer string conversion; "
      ++ "use sys.set_int_max_str_digits() to increase the limit"
  | .inactiveContext name =>
    Text.quoted ("Macro context " ++ Text.quoted name ++ " is not active")
  | .negativeDepth depth => "Cannot defer a handler to depth " ++ toString depth ++ "."
  | .notTokens type value => "Cannot make tokens from " ++ type ++ " " ++ value
  | .lacking type what => "'" ++ type ++ "' object has no attribute " ++ Text.quoted what
  | .notText type => "expected str instance, " ++ type ++ " found"
  | .notIterable type => "'" ++ type ++ "' object is not iterable"
  | .notJoinable type other =>
    "can only concatenate " ++ type ++ " (not \"" ++ other ++ "\") to " ++ type
  | .notAddable left right =>
    "unsupported operand type(s) for +: '" ++ left ++ "' and '" ++ right ++ "'"
  | .notComparable relation left right =>
    "'" ++ relation ++ "' not supported between instances of '" ++ left ++ "' and '" ++ right
      ++ "'"
  | .noLength type => "object of type '" ++ type ++ "' has no len()"
  | .notAPath type => "expected str, bytes or os.PathLike object, not " ++ type
  | .noItems type => "'" ++ type ++ "' object is not subscriptable"
  | .noSuchItem what => what ++ " index out of range"
  | .integerTooLarge => "int too large to convert to float"
  | .unknownVariable name => Text.quoted name
  | .raised _ message => message

inductive ErrorKind where
  | general
  | unexpectedToken
  | expectedTokenMissing
  | typeMismatch
  | arityMismatch
  | unbalancedBlock
  | unterminatedScope
  | undefinedInvocation
  deriving DecidableEq, Repr

def ErrorKind.name : ErrorKind → String
  | .general => "MacroError"
  | .unexpectedToken => "UnexpectedToken"
  | .expectedTokenMissing => "ExpectedTokenMissing"
  | .typeMismatch => "TypeMismatch"
  | .arityMismatch => "ArityMismatch"
  | .unbalancedBlock => "UnbalancedBlock"
  | .unterminatedScope => "UnterminatedScope"
  | .undefinedInvocation => "UndefinedMacroInvocation"

inductive Expected where
  | kind (k : Kind)
  | text (value : String)
  deriving DecidableEq, Repr

def Expected.meets (expected : Expected) (t : Token) : Bool :=
  match expected with
  | .kind k => t.kind == k
  | .text value => t.value == value

def Expected.describe : Expected → String
  | .kind k => k.word
  | .text value => Text.quoted value

inductive Cause where
  | unfinishedString (text : String)
  | unfinishedComment (opener : String)
  | unfinishedLongString (opener : String)
  | wrongToken (wanted got : String)
  | missingToken (expected : Expected) (got : String)
  | missingStop (stop : String)
  | missingName
  | reservedName (word : String)
  | notAName (value : String)
  | duplicateParameter (name : String)
  | textAfterName (text name : String)
  | missingArguments (name got : String)
  | wrongShape (wanted got : String)
  | wrongArity (name : String) (wanted given : Nat)
  | unopenedBlock (word : String)
  | unclosedBlocks (depth : Nat)
  | unfiredHandlers (count : Nat) (depths : List Nat)
  | callFailed (name : String) (fault : Fault)
  | handlerFailed (name : String) (fault : Fault)
  | unknownDirective (word : String)
  | notOneName (text : String)
  | unrollBounds
  | unrollFraction
  | unrollStandstill
  | raised (kind : ErrorKind) (message : String)
  deriving DecidableEq, Repr

namespace Cause

def kind : Cause → ErrorKind
  | unfinishedString _ | unfinishedComment _ | unfinishedLongString _ | wrongToken _ _
  | reservedName _ | notAName _ | duplicateParameter _ | textAfterName _ _
  | unknownDirective _ => .unexpectedToken
  | missingToken _ _ | missingStop _ | missingName | missingArguments _ _
  | unrollBounds => .expectedTokenMissing
  | wrongShape _ _ | notOneName _ | unrollFraction | unrollStandstill => .typeMismatch
  | wrongArity _ _ _ => .arityMismatch
  | unopenedBlock _ | unclosedBlocks _ => .unbalancedBlock
  | unfiredHandlers _ _ => .unterminatedScope
  | callFailed _ _ | handlerFailed _ _ => .undefinedInvocation
  | raised k _ => k

/- The value of a token as a message gives it; an empty one stands for the end of the input. -/
def gotText (value : String) : String :=
  Text.quoted (if value.isEmpty then "end of input" else value)

def message : Cause → String
  | unfinishedString text => "Unfinished string " ++ Text.quoted text
  | unfinishedComment opener => "Unfinished long comment starting with " ++ Text.quoted opener
  | unfinishedLongString opener => "Unfinished long string starting with " ++ Text.quoted opener
  | wrongToken wanted got => "Expected " ++ wanted ++ ", got " ++ Text.quoted got
  | missingToken expected got => "Expected " ++ expected.describe ++ ", got " ++ gotText got
  | missingStop stop => "Expected " ++ Text.quoted stop ++ " before end of input"
  | missingName => "Macro definition requires a name"
  | reservedName word => "Keyword " ++ Text.quoted word ++ " cannot be a macro name"
  | notAName value =>
    "Macro definition " ++ Text.quoted value ++ " requires an identifier or operator name"
  | duplicateParameter name => "Duplicate parameter name in macro " ++ name
  | textAfterName text name => "Unexpected " ++ Text.quoted text ++ " after macro name " ++ name
  | missingArguments name got =>
    "Macro " ++ name ++ " requires an argument list, got " ++ gotText got
  | wrongShape wanted got => "Expected " ++ wanted ++ ", got " ++ Text.quoted got
  | wrongArity name wanted given =>
    "Macro " ++ name ++ " takes " ++ toString wanted ++ " argument(s), " ++ toString given
      ++ " given"
  | unopenedBlock word => Text.quoted word ++ " without a matching block opener"
  | unclosedBlocks depth => toString depth ++ " block(s) not closed at end of input"
  | unfiredHandlers count depths =>
    toString count ++ " scope handler(s) never fired, for depth "
      ++ String.intercalate ", " (depths.map toString)
  | callFailed name fault => "Macro " ++ name ++ " failed: " ++ fault.kind ++ ": " ++ fault.message
  | handlerFailed name fault =>
    "Handler " ++ name ++ " failed: " ++ fault.kind ++ ": " ++ fault.message
  | unknownDirective word => "Unknown directive @" ++ word
  | notOneName text => "_CONCAT_ result " ++ Text.quoted text ++ " is not a name"
  | unrollBounds => "_UNROLL_ requires first, last and optional step"
  | unrollFraction => "_UNROLL_ bounds must be integers"
  | unrollStandstill => "_UNROLL_ step cannot be 0"
  | raised _ text => text

end Cause

/- The name of a unit. A file that was opened without a path has a number for a name. -/
inductive UnitName where
  | text (name : String)
  | descriptor (number : Int)
  deriving DecidableEq, Repr

namespace UnitName

instance : Coe String UnitName := ⟨.text⟩

/- An empty text and the number 0 are no names. -/
def isGiven : UnitName → Bool
  | text name => !name.isEmpty
  | descriptor number => number != 0

def shown : UnitName → String
  | text name => name
  | descriptor number => toString number

end UnitName

structure Error where
  cause : Cause
  line : Line := none
  -- The unit it arose in; filled in by the unit if the error came without.
  unitName : Option UnitName := none
  deriving DecidableEq, Repr

namespace Error

def kind (e : Error) : ErrorKind := e.cause.kind

def message (e : Error) : String := e.cause.message

def kindName (e : Error) : String := e.kind.name

def atToken (cause : Cause) (t : Token) : Error := ⟨cause, t.line, none⟩

def ownUnit? (e : Error) : Option UnitName := e.unitName.filter (·.isGiven)

def inUnit (e : Error) (name : UnitName) : Error :=
  { e with unitName := some (e.ownUnit?.getD name) }

def describe (e : Error) : String :=
  let place := (e.ownUnit?.getD "<unknown>").shown
  let place := match Line.shown? e.line with
    | some n => place ++ ":" ++ toString n
    | none => place
  place ++ ": " ++ e.kindName ++ ": " ++ e.message

end Error

inductive Failure where
  | error (e : Error)
  | fault (f : Fault)
  deriving DecidableEq, Repr

instance : Coe Error Failure := ⟨.error⟩

instance : Coe Fault Failure := ⟨.fault⟩

end LuaExpander
