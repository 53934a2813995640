import ScriptLexer.Report.Diagnostic
import ScriptLexer.Token.Basic

/-!
# The first lexeme of a text

A text that is not empty begins with a lexeme: characters that become a token, that are skipped, or
that are rejected with a message. No decision looks further than two characters past the lexeme.

* `Lexeme.first`: the first lexeme and what follows it.
* `Lexeme.first_append`: the two together are the text.
* `Lexeme.first_rest_lt`: what follows is shorter than the text.
-/

namespace ScriptLexer

/-- A letter or an underscore, of the ASCII range. -/
def isWordStart (c : Char) : Bool :=
  c == '_' || c.isAlpha

/-- A character that continues a word. -/
def isWordPart (c : Char) : Bool :=
  c == '_' || c.isAlphanum

/-- A blank that stays on its line. -/
def isLineBlank (c : Char) : Bool :=
  c == ' ' || c == '\t' || c == '\r'

/-- What kind of token a lexeme becomes, and with which value. -/
inductive Shape
  | plain (kind : Kind)
  | number (value : Binary64)
  | string (text : String)
  deriving DecidableEq

/-- What becomes of a lexeme. -/
inductive Verdict
  | token (shape : Shape)
  | skipped
  | rejected (message : Message)
  deriving DecidableEq

/-- The characters of a lexeme and what becomes of them. -/
structure Lexeme where
  text : List Char
  verdict : Verdict
  deriving DecidableEq

/-- The mark that a character is in every context. -/
def Punctuation.single? : Char → Option Punctuation
  | '(' => some .leftParen
  | ')' => some .rightParen
  | '\x7b' => some .leftBrace
  | '\x7d' => some .rightBrace
  | ',' => some .comma
  | '.' => some .dot
  | '-' => some .minus
  | '+' => some .plus
  | ';' => some .semicolon
  | '*' => some .star
  | _ => none

/-- The marks that a character is alone and with an equals sign after it. -/
def Punctuation.pair? : Char → Option (Punctuation × Punctuation)
  | '!' => some (.bang, .bangEqual)
  | '=' => some (.equal, .equalEqual)
  | '>' => some (.greater, .greaterEqual)
  | '<' => some (.less, .lessEqual)
  | _ => none

namespace Lexeme

/-- The lexeme of a mark. -/
def ofMark (text : List Char) (mark : Punctuation) : Lexeme :=
  ⟨text, .token (.plain (.punctuation mark))⟩

/-- A mark that an equals sign extends. -/
def paired (c : Char) (alone joined : Punctuation) : List Char → Lexeme × List Char
  | '=' :: rest => (ofMark [c, '='] joined, rest)
  | rest => (ofMark [c] alone, rest)

/-- A comment after its two slashes. It ends in front of the line feed, which no byte of a longer
character equals, so the bytes alone tell where. -/
def comment (rest : List Char) : Lexeme × List Char :=
  let (body, after) := Text.splitBytes (Text.bytesBefore 10 rest) rest
  (⟨'/' :: '/' :: body, .skipped⟩, after)

/-- A slash, or a comment if another follows. -/
def slash : List Char → Lexeme × List Char
  | '/' :: rest => comment rest
  | rest => (ofMark ['/'] .slash, rest)

/-- A string after its opening quote: up to the next quote, whatever comes before it. -/
def quoted (rest : List Char) : Lexeme × List Char :=
  let body := rest.takeWhile (· ≠ '"')
  match rest.dropWhile (· ≠ '"') with
  | quote :: after =>
    (⟨'"' :: body ++ [quote], .token (.string (String.ofList body))⟩, after)
  | [] => (⟨'"' :: body, .rejected .unterminatedString⟩, [])

/-- The number written by a whole part and a fraction. -/
def numberValue (whole fraction : List Char) : Binary64 :=
  Decimal.toBinary64 ⟨Nat.ofDigitChars 10 (whole ++ fraction) 0, -fraction.length⟩

/-- A number that begins with `c`: digits, and a fraction if a digit follows the point. -/
def number (c : Char) (rest : List Char) : Lexeme × List Char :=
  let whole := c :: rest.takeWhile Char.isDigit
  match rest.dropWhile Char.isDigit with
  | '.' :: d :: more =>
    if d.isDigit then
      let fraction := d :: more.takeWhile Char.isDigit
      (⟨whole ++ '.' :: fraction, .token (.number (numberValue whole fraction))⟩,
        more.dropWhile Char.isDigit)
    else (⟨whole, .token (.number (numberValue whole []))⟩, '.' :: d :: more)
  | after => (⟨whole, .token (.number (numberValue whole []))⟩, after)

/-- A word that begins with `c`. -/
def word (c : Char) (rest : List Char) : Lexeme × List Char :=
  let text := c :: rest.takeWhile isWordPart
  (⟨text, .token (.plain (.ofWord (String.ofList text)))⟩, rest.dropWhile isWordPart)

/-- The first lexeme of a text that begins with `c`, and what follows it. -/
def first (c : Char) (rest : List Char) : Lexeme × List Char :=
  match Punctuation.single? c with
  | some mark => (ofMark [c] mark, rest)
  | none =>
    match Punctuation.pair? c with
    | some (alone, joined) => paired c alone joined rest
    | none =>
      if c = '/' then slash rest
      else if c = '\n' ∨ isLineBlank c then (⟨[c], .skipped⟩, rest)
      else if c = '"' then quoted rest
      else if c.isDigit then number c rest
      else if isWordStart c then word c rest
      else (⟨[c], .rejected .unexpectedCharacter⟩, rest)

variable (c : Char) (rest : List Char)

private theorem paired_append (alone joined : Punctuation) :
    (paired c alone joined rest).1.text ++ (paired c alone joined rest).2 = c :: rest := by
  unfold paired
  split <;> rfl

private theorem slash_append : (slash rest).1.text ++ (slash rest).2 = '/' :: rest := by
  unfold slash
  split
  · simpa [comment] using Text.splitBytes_append _ _
  · rfl

private theorem quoted_append : (quoted rest).1.text ++ (quoted rest).2 = '"' :: rest := by
  have h := List.takeWhile_append_dropWhile (p := (· ≠ '"')) (l := rest)
  unfold quoted
  split
  next quote after hd =>
    rw [hd] at h
    simpa using h
  next hd =>
    rw [hd] at h
    simpa using h

private theorem number_append : (number c rest).1.text ++ (number c rest).2 = c :: rest := by
  have h := List.takeWhile_append_dropWhile (p := Char.isDigit) (l := rest)
  unfold number
  split
  next d more hd =>
    rw [hd] at h
    split <;> simpa using h
  next => simp

/-- The first lexeme and what follows it are the text. -/
theorem first_append : (first c rest).1.text ++ (first c rest).2 = c :: rest := by
  unfold first
  split
  · rfl
  · split
    · exact paired_append ..
    · split
      next h => exact h ▸ slash_append rest
      · split
        · rfl
        · split
          next h => exact h ▸ quoted_append rest
          · split
            · exact number_append c rest
            · split
              · simp [word]
              · rfl

/-- A lexeme has a character. -/
theorem first_text_ne_nil : (first c rest).1.text ≠ [] := by
  unfold first paired slash comment quoted number word ofMark
  repeat' split
  all_goals simp

/-- What follows the first lexeme is shorter than the text. -/
theorem first_rest_lt : (first c rest).2.length < (c :: rest).length := by
  have h := congrArg List.length (first_append c rest)
  have hpos := List.length_pos_iff.2 (first_text_ne_nil c rest)
  rw [List.length_append] at h
  omega

end Lexeme

end ScriptLexer
