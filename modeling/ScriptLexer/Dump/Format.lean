import ScriptLexer.Dump.Quoted
import ScriptLexer.Token.Basic

/-!
# Dumps of tokens

A dump has an entry for each token, closed by a line feed.

* `TokenFormat.entry`: a token's entry, as its listing or as a line of data.
* `TokenFormat.dump`: the entries of many tokens.
* `Token.data`: the object that a line of data holds; its keys stand in alphabetical order.
-/

namespace ScriptLexer

/-- How the tokens of a dump are written. -/
inductive TokenFormat
  | text
  | json
  deriving DecidableEq

/-- The name of a format in settings and options. -/
def TokenFormat.name : TokenFormat → String
  | text => "text"
  | json => "json"

/-- The format of a name. -/
def TokenFormat.ofName? (s : String) : Option TokenFormat :=
  [text, json].find? (·.name == s)

/-- The value of a token as data; numbers without a data form are null. -/
def Literal.data : Literal → String
  | none => "null"
  | number value => value.dataForm?.getD "null"
  | string text => Quoted.quote text

/-- A token as an object of data. -/
def Token.data (t : Token) : String :=
  "\x7b\"lexeme\":" ++ Quoted.quote t.lexeme ++ ",\"line\":" ++ t.line.repr ++ ",\"literal\":" ++
    t.literal.data ++ ",\"type\":" ++ Quoted.quote t.kind.name ++ "\x7d"

/-- The entry of a token in a dump. -/
def TokenFormat.entry (format : TokenFormat) (t : Token) : String :=
  match format with
  | text => t.listing ++ "\n"
  | json => t.data ++ "\n"

/-- The entries of tokens in their order. -/
def TokenFormat.dump (format : TokenFormat) (tokens : Array Token) : String :=
  tokens.foldl (fun written t => written ++ format.entry t) ""

end ScriptLexer
