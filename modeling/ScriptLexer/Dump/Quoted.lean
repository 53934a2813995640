/-!
# Quoted strings of data

A text in quotes, where the quote, the backslash and the control characters below U+0020 are
escaped and everything else stands for itself.

* `Quoted.escape`: the written form of one character.
* `Quoted.quote`: the written form of a text.
-/

namespace ScriptLexer.Quoted

/-- The digit of a number below sixteen. -/
def hexDigit (n : Nat) : Char :=
  Nat.digitChar n

/-- The written form of a character: a short escape where there is one, the code in four
hexadecimal digits for the other control characters, the character itself otherwise. -/
def escape (c : Char) : List Char :=
  match c with
  | '"' => ['\\', '"']
  | '\\' => ['\\', '\\']
  | '\x08' => ['\\', 'b']
  | '\t' => ['\\', 't']
  | '\n' => ['\\', 'n']
  | '\x0c' => ['\\', 'f']
  | '\r' => ['\\', 'r']
  | c =>
    if c.toNat < 0x20 then ['\\', 'u', '0', '0', hexDigit (c.toNat / 16), hexDigit (c.toNat % 16)]
    else [c]

/-- The characters of a quoted text, quotes included. -/
def quoteChars (cs : List Char) : List Char :=
  '"' :: cs.flatMap escape ++ ['"']

/-- A text in quotes. -/
def quote (text : String) : String :=
  String.ofList (quoteChars text.toList)

end ScriptLexer.Quoted
