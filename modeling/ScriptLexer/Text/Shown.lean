import ScriptLexer.Character.Unseen

/-!
# Texts shown inside messages

A text that a message shows stands in quotes. Quotes, backslashes and characters that would not be
seen as themselves are escaped.

* `Shown.quoted`: a text in quotes.
-/

namespace ScriptLexer.Shown

/-- The shown form of a character: a letter escape for the most common controls, the code in braces
for the other unseen characters. -/
def showChar (c : Char) : List Char :=
  match c with
  | '"' => ['\\', '"']
  | '\\' => ['\\', '\\']
  | '\n' => ['\\', 'n']
  | '\t' => ['\\', 't']
  | '\r' => ['\\', 'r']
  | '\x00' => ['\\', '0']
  | c =>
    if isUnseen c then '\\' :: 'u' :: '\x7b' :: Nat.toDigits 16 c.toNat ++ ['\x7d'] else [c]

/-- A text in quotes as a message shows it. -/
def quoted (text : String) : String :=
  String.ofList ('"' :: text.toList.flatMap showChar ++ ['"'])

end ScriptLexer.Shown
