import ScriptLexer.Dump.Format

/-!
# Settings and options

A settings file may say how tokens are written, whether findings are coloured, and how the prompt
keeps its history; every field may be missing. Options are what a run goes by: each field of the
settings, or its default.

* `Field.name`, `Field.ofName?`: the names of the fields.
* `Settings.text`: the canonical text of settings.
* `Options.ofSettings`: the options that settings and defaults give.
-/

namespace ScriptLexer

/-- The fields of a settings file. -/
inductive Field
  | tokenFormat
  | color
  | history
  | maxHistorySize
  deriving DecidableEq

namespace Field

/-- All fields, in the order in which they are written. -/
def all : List Field := [tokenFormat, color, history, maxHistorySize]

def name : Field → String
  | tokenFormat => "tokenFormat"
  | color => "color"
  | history => "history"
  | maxHistorySize => "maxHistorySize"

def ofName? (s : String) : Option Field :=
  all.find? (·.name == s)

end Field

/-- What a settings file says. -/
structure Settings where
  tokenFormat : Option TokenFormat
  color : Option Bool
  history : Option Bool
  maxHistorySize : Option UInt64
  deriving DecidableEq

namespace Settings

/-- The name under which a settings file is looked up. -/
def fileName : String := "cream.json"

/-- Settings that say nothing. -/
def empty : Settings := ⟨none, none, none, none⟩

/-- A value as data, null where there is none. -/
def valueText {α : Type} (write : α → String) : Option α → String
  | some a => write a
  | none => "null"

/-- A truth value as data. -/
def boolText (b : Bool) : String :=
  if b then "true" else "false"

/-- The value of a field as data. -/
def fieldText (s : Settings) : Field → String
  | .tokenFormat => valueText (fun f => Quoted.quote f.name) s.tokenFormat
  | .color => valueText boolText s.color
  | .history => valueText boolText s.history
  | .maxHistorySize => valueText (fun n => n.toNat.repr) s.maxHistorySize

/-- The canonical text: an object with all four fields in their order and no blanks. -/
def text (s : Settings) : String :=
  let members := Field.all.map fun f => Quoted.quote f.name ++ ":" ++ s.fieldText f
  "\x7b" ++ ",".intercalate members ++ "\x7d"

end Settings

/-- What a run goes by. A colour that is not set is left to the terminal. -/
structure Options where
  tokenFormat : TokenFormat
  color : Option Bool
  history : Bool
  maxHistorySize : UInt64
  deriving DecidableEq

namespace Options

/-- How many lines the history keeps unless settings say otherwise. -/
def defaultHistorySize : UInt64 := 1000

/-- The options of a run without settings. -/
def default : Options := ⟨.text, none, true, defaultHistorySize⟩

/-- Each field of the settings, or its default. -/
def ofSettings (s : Settings) : Options where
  tokenFormat := s.tokenFormat.getD default.tokenFormat
  color := s.color
  history := s.history.getD default.history
  maxHistorySize := s.maxHistorySize.getD default.maxHistorySize

end Options

end ScriptLexer
