/-!
# Diagnostics

A diagnostic is a finding about a text: a line, a message and how grave it is. Known messages have
a code; any other text has code zero and counts as an error.

* `Message.known`, `Message.lookup?`: the messages with a code.
* `Diagnostic.ofText`: a finding from free text, with the code of the message it spells.
* `Diagnostic.ofText_severity`: what such a finding holds.
* `Diagnostic.text`: the line that tells a finding.
-/

namespace ScriptLexer

/-- How grave a finding is. -/
inductive Severity
  | error
  | warning
  | message
  deriving DecidableEq

/-- The name of a severity as data. -/
def Severity.name : Severity → String
  | error => "error"
  | warning => "warning"
  | message => "message"

/-- The word for a severity in a told finding. -/
def Severity.label : Severity → String
  | error => "Error"
  | warning => "Warning"
  | message => "Message"

/-- A text with a code. -/
structure Message where
  code : UInt32
  severity : Severity
  text : String
  deriving DecidableEq

namespace Message

/-- A character that begins no lexeme. -/
def unexpectedCharacter : Message := ⟨1001, .error, "Unexpected character."⟩

/-- A string without its closing quote. -/
def unterminatedString : Message := ⟨1002, .error, "Unterminated string."⟩

/-- All messages with a code. -/
def known : List Message := [unexpectedCharacter, unterminatedString]

/-- The known message with exactly this text. -/
def lookup? (text : String) : Option Message :=
  known.find? (·.text == text)

end Message

/-- A finding on a line; `location` stands between its label and its text. -/
structure Diagnostic where
  line : Nat
  location : String
  message : String
  code : UInt32
  severity : Severity
  deriving DecidableEq

namespace Diagnostic

/-- The finding of a known message. -/
def ofMessage (message : Message) (line : Nat) : Diagnostic :=
  ⟨line, "", message.text, message.code, message.severity⟩

def withLocation (d : Diagnostic) (location : String) : Diagnostic :=
  { d with location := location }

/-- The finding of a text: a known message where it spells one, else an error without a code. -/
def ofText (line : Nat) (location text : String) : Diagnostic :=
  match Message.lookup? text with
  | some message => (ofMessage message line).withLocation location
  | none => ⟨line, location, text, 0, .error⟩

theorem ofText_line (line : Nat) (location text : String) :
    (ofText line location text).line = line := by
  unfold ofText
  split <;> rfl

theorem ofText_location (line : Nat) (location text : String) :
    (ofText line location text).location = location := by
  unfold ofText
  split <;> rfl

theorem ofText_message (line : Nat) (location text : String) :
    (ofText line location text).message = text := by
  unfold ofText
  split
  next message h => simpa [withLocation, ofMessage] using List.find?_some h
  · rfl

/-- A finding from free text is an error, whether or not its message is known. -/
theorem ofText_severity (line : Nat) (location text : String) :
    (ofText line location text).severity = .error := by
  unfold ofText
  split
  next message h =>
    have hm := List.mem_of_find?_eq_some h
    simp only [Message.known, List.mem_cons, List.not_mem_nil, or_false] at hm
    rcases hm with rfl | rfl <;> rfl
  · rfl

def isError (d : Diagnostic) : Bool :=
  d.severity == .error

/-- The line that tells a finding. -/
def text (d : Diagnostic) : String :=
  "[line " ++ d.line.repr ++ "] " ++ d.severity.label ++ d.location ++ ": " ++ d.message

end Diagnostic

end ScriptLexer
