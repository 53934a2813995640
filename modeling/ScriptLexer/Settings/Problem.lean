import ScriptLexer.Settings.Basic
import ScriptLexer.Text.Measure
import ScriptLexer.Text.Shown

/-!
# What is wrong with a settings text

A settings text is refused for the first thing that is wrong with it, at a byte of the text. Data
that breaks off, data that is malformed, and well-formed data of the wrong shape are told apart.

* `Problem.text`: the words for what is wrong.
* `Problem.category`: which of the three it is.
* `Failure.locate`: the line and column of a byte.
* `Failure.message`: the words with the line and column.
-/

namespace ScriptLexer

/-- What stood where something else was expected. -/
inductive Found
  | null
  | boolean (value : Bool)
  | integer (value : Int)
  | float (value : Binary64)
  | string (text : String)
  | sequence
  | map
  deriving DecidableEq

/-- The words for what stood there. -/
def Found.text : Found → String
  | null => "null"
  | boolean value => "boolean `" ++ Settings.boolText value ++ "`"
  | integer value => "integer `" ++ value.repr ++ "`"
  | float value => "floating point `" ++ value.dataForm?.getD "null" ++ "`"
  | string text => "string " ++ Shown.quoted text
  | sequence => "sequence"
  | map => "map"

/-- What was expected where something else stood. -/
inductive Expected
  | settings
  | boolean
  | size
  | unit
  deriving DecidableEq

/-- The words for what was expected. -/
def Expected.text : Expected → String
  | settings => "struct CreamConfig"
  | boolean => "a boolean"
  | size => "usize"
  | unit => "unit"

/-- The kinds of problems. -/
inductive Category
  | eof
  | malformed
  | data
  deriving DecidableEq

/-- Why a settings text is refused. -/
inductive Problem
  | eofInValue
  | eofInObject
  | eofInList
  | eofInString
  | expectedColon
  | expectedCommaOrBrace
  | expectedCommaOrBracket
  | expectedIdent
  | expectedValue
  | keyNotString
  | trailingComma
  | trailingCharacters
  | controlCharacter
  | invalidEscape
  | invalidNumber
  | numberOutOfRange
  | loneSurrogate
  | unfinishedSurrogate
  | unknownField (name : String)
  | duplicateField (field : Field)
  | unknownFormat (name : String)
  | tooFewElements (count : Nat)
  | negativeSize (value : Int)
  | wrongType (found : Found) (expected : Expected)
  deriving DecidableEq

namespace Problem

/-- The words for a problem. -/
def text : Problem → String
  | eofInValue => "EOF while parsing a value"
  | eofInObject => "EOF while parsing an object"
  | eofInList => "EOF while parsing a list"
  | eofInString => "EOF while parsing a string"
  | expectedColon => "expected `:`"
  | expectedCommaOrBrace => "expected `,` or `\x7d`"
  | expectedCommaOrBracket => "expected `,` or `]`"
  | expectedIdent => "expected ident"
  | expectedValue => "expected value"
  | keyNotString => "key must be a string"
  | trailingComma => "trailing comma"
  | trailingCharacters => "trailing characters"
  | controlCharacter => "control character (\\u0000-\\u001F) found while parsing a string"
  | invalidEscape => "invalid escape"
  | invalidNumber => "invalid number"
  | numberOutOfRange => "number out of range"
  | loneSurrogate => "lone leading surrogate in hex escape"
  | unfinishedSurrogate => "unexpected end of hex escape"
  | unknownField name => "unknown field `" ++ name ++ "`, expected one of " ++
      ", ".intercalate (Field.all.map fun f => "`" ++ f.name ++ "`")
  | duplicateField field => "duplicate field `" ++ field.name ++ "`"
  | unknownFormat name => "unknown variant `" ++ name ++ "`, expected `text` or `json`"
  | tooFewElements count =>
      "invalid length " ++ count.repr ++ ", expected struct CreamConfig with 4 elements"
  | negativeSize value =>
      "invalid value: " ++ (Found.integer value).text ++ ", expected " ++ Expected.size.text
  | wrongType found expected =>
      "invalid type: " ++ found.text ++ ", expected " ++ expected.text

/-- Whether the text broke off, is malformed, or holds the wrong data. -/
def category : Problem → Category
  | eofInValue | eofInObject | eofInList | eofInString => .eof
  | unknownField _ | duplicateField _ | unknownFormat _ | tooFewElements _ | negativeSize _
  | wrongType _ _ => .data
  | _ => .malformed

end Problem

/-- A problem at a line and a column, the column counted in bytes. -/
structure Failure where
  problem : Problem
  line : Nat
  column : Nat
  deriving DecidableEq

namespace Failure

/-- A problem behind the first `offset` bytes of a text. -/
def locate (text : List Char) (problem : Problem) (offset : Nat) : Failure :=
  let before := (Text.splitBytes offset text).1
  let lastLine := before.reverse.takeWhile (· ≠ '\n')
  ⟨problem, 1 + Text.newlines before,
    Text.byteWidth lastLine + (offset - Text.byteWidth before)⟩

/-- The words for a failure. -/
def message (f : Failure) : String :=
  f.problem.text ++ " at line " ++ f.line.repr ++ " column " ++ f.column.repr

end Failure

end ScriptLexer
