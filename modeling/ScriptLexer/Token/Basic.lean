import ScriptLexer.Number.Notation
import ScriptLexer.Text.Span

/-!
# Tokens

A token is a lexeme with its kind, value, line and span. The value suits the kind by the type:
numbers carry a number, strings a text, and all other kinds nothing.

* `Token.plain`: a token without a value, which a literal kind does not allow.
* `Token.number`, `Token.string`, `Token.eof`: the other tokens.
* `Token.listing`: the line that lists a token.
* `Token.same`: equality of all parts, numbers compared as numbers.
-/

namespace ScriptLexer

/-- The value of a token. -/
inductive Literal
  | none
  | number (value : Binary64)
  | string (text : String)
  deriving DecidableEq

namespace Literal

/-- Equality of values, where numbers are compared as numbers. -/
def sameValue : Literal → Literal → Bool
  | none, none => true
  | number x, number y => x.numericEq y
  | string s, string t => decide (s = t)
  | _, _ => false

def isNone : Literal → Bool
  | none => true
  | _ => false

def asNumber? : Literal → Option Binary64
  | number value => some value
  | _ => Option.none

def asText? : Literal → Option String
  | string text => some text
  | _ => Option.none

/-- The value as it is listed: a string is its own text. -/
def listing : Literal → String
  | none => "null"
  | number value => value.plain
  | string text => text

/-- The kinds that a value belongs to. -/
def Suits : Literal → Kind → Prop
  | none, kind => kind.isLiteral = false
  | number _, kind => kind = .number
  | string _, kind => kind = .string

end Literal

/-- A lexeme with its kind, value and place. -/
@[ext]
structure Token where
  kind : Kind
  lexeme : String
  literal : Literal
  line : Nat
  span : Span
  suits : literal.Suits kind

namespace Token

/-- A token of a kind that carries no value. -/
def plain (kind : Kind) (lexeme : String) (line : Nat) (span : Span) : Except Fault Token :=
  if h : kind.isLiteral = false then .ok ⟨kind, lexeme, .none, line, span, h⟩
  else .error (.missingLiteral kind)

def number (value : Binary64) (lexeme : String) (line : Nat) (span : Span) : Token :=
  ⟨.number, lexeme, .number value, line, span, rfl⟩

def string (text : String) (lexeme : String) (line : Nat) (span : Span) : Token :=
  ⟨.string, lexeme, .string text, line, span, rfl⟩

/-- The token that ends a text, at the position after its last byte. -/
def eof (line : Nat) (position : UInt32) : Token :=
  ⟨.eof, "", .none, line, .empty position, rfl⟩

def isEof (t : Token) : Bool :=
  t.kind == .eof

/-- Equality of all parts, where numbers are compared as numbers. -/
def same (a b : Token) : Bool :=
  decide (a.kind = b.kind) && decide (a.lexeme = b.lexeme) && a.literal.sameValue b.literal
    && decide (a.line = b.line) && decide (a.span = b.span)

/-- Kind, lexeme and value with a space between. -/
def listing (t : Token) : String :=
  t.kind.name ++ " " ++ t.lexeme ++ " " ++ t.literal.listing

end Token

end ScriptLexer
