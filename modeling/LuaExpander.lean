import LuaExpander.Blocks
import LuaExpander.Builder
import LuaExpander.CommandLine.Folder
import LuaExpander.CommandLine.Run
import LuaExpander.CommandLine.Options
import LuaExpander.CommandLine.Request
import LuaExpander.CommandLine.Word
import LuaExpander.Contexts
import LuaExpander.Cursor
import LuaExpander.Definition
import LuaExpander.Error
import LuaExpander.Expansion
import LuaExpander.Log
import LuaExpander.Main
import LuaExpander.Number
import LuaExpander.Numeral.Read
import LuaExpander.Numeral.Double
import LuaExpander.Numeral.Shortest
import LuaExpander.Program
import LuaExpander.Program.Run
import LuaExpander.Proofs.Balance
import LuaExpander.Proofs.Changes
import LuaExpander.Proofs.Running
import LuaExpander.Proofs.Scanning
import LuaExpander.Proofs.Stacks
import LuaExpander.Proofs.Waiting
import LuaExpander.Reader
import LuaExpander.Registry
import LuaExpander.Script
import LuaExpander.Script.Run
import LuaExpander.Session
import LuaExpander.Stack
import LuaExpander.Standard
import LuaExpander.Text.Wrap
import LuaExpander.Text.Lowercase
import LuaExpander.Text.Quoted
import LuaExpander.Text.Word
import LuaExpander.Token
import LuaExpander.Token.Lexeme
import LuaExpander.Token.Lexer
import LuaExpander.Token.Literal
import LuaExpander.Token.Sequence
import LuaExpander.Value
import LuaExpander.Value.Operations
import LuaExpander.Proofs.Scoping
import LuaExpander.Proofs.UnitScopes
import LuaExpander.Proofs.Rescanning
import LuaExpander.Proofs.Lexemes
import LuaExpander.Proofs.Lexing
import LuaExpander.Proofs.Deferring
import LuaExpander.Proofs.Identity
import LuaExpander.Proofs.Lasting
import LuaExpander.Proofs.Reading
import LuaExpander.Proofs.Tables
import LuaExpander.Proofs.Enough
import LuaExpander.Proofs.Failing
import LuaExpander.Proofs.Spelling
import LuaExpander.Proofs.Splitting
import LuaExpander.Proofs.Substituting
import LuaExpander.Proofs.Defining
import LuaExpander.Proofs.Standards
import LuaExpander.Proofs.Calls
import LuaExpander.Proofs.Output
import LuaExpander.Proofs.Arguments
import LuaExpander.Proofs.Replacing
import LuaExpander.Proofs.Returning
import LuaExpander.Proofs.Texts
import LuaExpander.Proofs.Likeness
import LuaExpander.Proofs.Logging
import LuaExpander.Proofs.Lookahead
import LuaExpander.Proofs.Matching
import LuaExpander.Proofs.Predefining
import LuaExpander.Proofs.Folders
import LuaExpander.Proofs.Batches
import LuaExpander.Proofs.Integers
import LuaExpander.Proofs.Views
import LuaExpander.Proofs.Answering
import LuaExpander.Proofs.Loops
import LuaExpander.Proofs.Unrolling
import LuaExpander.Proofs.Joining
import LuaExpander.Proofs.Heading
import LuaExpander.Proofs.Quoting
import LuaExpander.Proofs.Invoking
import LuaExpander.Proofs.Trimming
import LuaExpander.Proofs.Directives
import LuaExpander.Proofs.Brackets
import LuaExpander.Proofs.Rounding
import LuaExpander.Proofs.Numerals
import LuaExpander.Proofs.Endings
import LuaExpander.Proofs.Conserving
import LuaExpander.Proofs.Vacating
import LuaExpander.Proofs.Feeding
import LuaExpander.Operation
import LuaExpander.Proofs.Drawing
import LuaExpander.Proofs.Faultless
import LuaExpander.Proofs.Following
