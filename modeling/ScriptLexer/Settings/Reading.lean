import ScriptLexer.Settings.Numeral

/-!
# Reading settings

A settings text is an object of fields, or a list of all four values in their order. Each value may
be null. The first problem ends the reading.

* `Settings.read`: the settings that a text holds, or why it is refused.
* `Draft`: the fields read so far; every member of an object fills one.
-/

namespace ScriptLexer

/-- The fields read so far; a field that was null is read, too. -/
structure Draft where
  tokenFormat : Option (Option TokenFormat)
  color : Option (Option Bool)
  history : Option (Option Bool)
  maxHistorySize : Option (Option UInt64)
  deriving DecidableEq

/-- The value of a field. -/
inductive FieldValue
  | tokenFormat (value : Option TokenFormat)
  | color (value : Option Bool)
  | history (value : Option Bool)
  | maxHistorySize (value : Option UInt64)
  deriving DecidableEq

namespace Draft

def empty : Draft := ⟨none, none, none, none⟩

/-- Whether a field has been read. -/
def has (d : Draft) : Field → Bool
  | .tokenFormat => d.tokenFormat.isSome
  | .color => d.color.isSome
  | .history => d.history.isSome
  | .maxHistorySize => d.maxHistorySize.isSome

def put (d : Draft) : FieldValue → Draft
  | .tokenFormat value => { d with tokenFormat := some value }
  | .color value => { d with color := some value }
  | .history value => { d with history := some value }
  | .maxHistorySize value => { d with maxHistorySize := some value }

/-- How many fields have not been read. -/
def missing (d : Draft) : Nat :=
  Field.all.countP fun f => !d.has f

/-- The settings of the fields that were read. -/
def settings (d : Draft) : Settings :=
  ⟨d.tokenFormat.join, d.color.join, d.history.join, d.maxHistorySize.join⟩

end Draft

/-- The field that a value belongs to. -/
def FieldValue.field : FieldValue → Field
  | tokenFormat _ => .tokenFormat
  | color _ => .color
  | history _ => .history
  | maxHistorySize _ => .maxHistorySize

namespace FieldValue

theorem field_tokenFormat (value : Option TokenFormat) : (tokenFormat value).field = .tokenFormat :=
  rfl

theorem field_color (value : Option Bool) : (color value).field = .color := rfl

theorem field_history (value : Option Bool) : (history value).field = .history := rfl

theorem field_maxHistorySize (value : Option UInt64) :
    (maxHistorySize value).field = .maxHistorySize := rfl

end FieldValue

theorem Draft.missing_put_lt {d : Draft} {v : FieldValue} (h : d.has v.field = false) :
    (d.put v).missing < d.missing := by
  cases v <;> simp_all [FieldValue.field, has, put, missing, Field.all, List.countP_cons]

namespace Cursor

/-- Refuse a value of a wrong type behind it. Lists and objects are refused in front. -/
def wrongType {α : Type} (c : Cursor) (expected : Expected) : Except Refusal α := do
  match c.pending with
  | 'n' :: rest => (← (c.past 1 rest).keyword ['u', 'l', 'l']).refuse (.wrongType .null expected)
  | 't' :: rest =>
    (← (c.past 1 rest).keyword ['r', 'u', 'e']).refuse (.wrongType (.boolean true) expected)
  | 'f' :: rest =>
    (← (c.past 1 rest).keyword ['a', 'l', 's', 'e']).refuse (.wrongType (.boolean false) expected)
  | '"' :: rest =>
    let (text, c) ← (c.past 1 rest).string
    c.refuse (.wrongType (.string text) expected)
  | '[' :: _ => c.refuse (.wrongType .sequence expected)
  | '\x7b' :: _ => c.refuse (.wrongType .map expected)
  | d :: _ =>
    if d = '-' ∨ d.isDigit then
      let (numeral, c) ← Numeral.read c
      c.refuse (.wrongType numeral.found expected)
    else c.refuseNext .expectedValue
  | [] => c.refuseNext .expectedValue

/-- Past the colon of a member. -/
def colon (c : Cursor) : Except Refusal Cursor :=
  let c := c.skipBlanks
  match c.pending with
  | [] => c.refuseNext .eofInObject
  | ':' :: rest => .ok (c.past 1 rest)
  | _ => c.refuseNext .expectedColon

/-- The format of a name, refused at the cursor if there is none. -/
def formatOf (c : Cursor) (name : String) : Except Refusal TokenFormat :=
  match TokenFormat.ofName? name with
  | some format => .ok format
  | none => c.refuse (.unknownFormat name)

/-- Past a format written as a member with the value null, from behind the opening brace. -/
def formatMember (c : Cursor) : Except Refusal (TokenFormat × Cursor) := do
  let c := c.skipBlanks
  match c.pending with
  | [] => c.refuseNext .eofInObject
  | '\x7d' :: _ => c.refuseNext .expectedValue
  | '"' :: rest =>
    let (name, c) ← (c.past 1 rest).string
    let format ← c.formatOf name
    let c := (← c.colon).skipBlanks
    let c ← match c.pending with
      | [] => c.refuseNext .eofInValue
      | 'n' :: rest => (c.past 1 rest).keyword ['u', 'l', 'l']
      | _ => c.wrongType .unit
    let c := c.skipBlanks
    match c.pending with
    | [] => c.refuse .eofInObject
    | '\x7d' :: rest => return (format, c.past 1 rest)
    | _ => c.refuse .expectedValue
  | _ => c.refuseNext .keyNotString

/-- Past a format. -/
def format (c : Cursor) : Except Refusal (TokenFormat × Cursor) := do
  match c.pending with
  | [] => c.refuseNext .eofInValue
  | '"' :: rest =>
    let (name, c) ← (c.past 1 rest).string
    return (← c.formatOf name, c)
  | '\x7b' :: rest => (c.past 1 rest).formatMember
  | _ => c.refuseNext .expectedValue

/-- Past a truth value. -/
def boolean (c : Cursor) : Except Refusal (Bool × Cursor) := do
  match c.pending with
  | [] => c.refuseNext .eofInValue
  | 't' :: rest => return (true, ← (c.past 1 rest).keyword ['r', 'u', 'e'])
  | 'f' :: rest => return (false, ← (c.past 1 rest).keyword ['a', 'l', 's', 'e'])
  | _ => c.wrongType .boolean

/-- Past a size: a natural number of 64 bits. -/
def size (c : Cursor) : Except Refusal (UInt64 × Cursor) := do
  match c.pending with
  | [] => c.refuseNext .eofInValue
  | d :: _ =>
    if d = '-' ∨ d.isDigit then
      let (numeral, c) ← Numeral.read c
      match numeral with
      | .natural value => return (value, c)
      | .negative magnitude => c.refuse (.negativeSize (-magnitude))
      | .float value => c.refuse (.wrongType (.float value) .size)
    else c.wrongType .size

/-- Past null or a value. -/
def orNull {α : Type} (value : Cursor → Except Refusal (α × Cursor)) (c : Cursor) :
    Except Refusal (Option α × Cursor) := do
  let c := c.skipBlanks
  match c.pending with
  | 'n' :: rest => return (none, ← (c.past 1 rest).keyword ['u', 'l', 'l'])
  | _ =>
    let (a, c) ← value c
    return (some a, c)

/-- Past the value of a field. -/
def fieldValue : (field : Field) → Cursor →
    Except Refusal ({ v : FieldValue // v.field = field } × Cursor)
  | .tokenFormat, c => do
    let (value, c) ← c.orNull format
    return (⟨.tokenFormat value, FieldValue.field_tokenFormat value⟩, c)
  | .color, c => do
    let (value, c) ← c.orNull boolean
    return (⟨.color value, FieldValue.field_color value⟩, c)
  | .history, c => do
    let (value, c) ← c.orNull boolean
    return (⟨.history value, FieldValue.field_history value⟩, c)
  | .maxHistorySize, c => do
    let (value, c) ← c.orNull size
    return (⟨.maxHistorySize value, FieldValue.field_maxHistorySize value⟩, c)

/-- Refuse a member for its name, behind the blanks that follow and a closing brace. -/
def refuseName {α : Type} (c : Cursor) (problem : Problem) : Except Refusal α :=
  let c := c.skipBlanks
  match c.pending with
  | '\x7d' :: rest => (c.past 1 rest).refuse problem
  | _ => c.refuse problem

/-- In front of the key of a member that is not the first, from behind a value. None when the object
ends there. -/
def nextKey (c : Cursor) : Except Refusal (Option Cursor) :=
  let c := c.skipBlanks
  match c.pending with
  | [] => c.refuseNext .eofInObject
  | '\x7d' :: _ => .ok none
  | ',' :: rest =>
    let c := (c.past 1 rest).skipBlanks
    match c.pending with
    | [] => c.refuseNext .eofInValue
    | '\x7d' :: _ => c.refuseNext .trailingComma
    | _ => .ok (some c)
  | _ => c.refuseNext .expectedCommaOrBrace

/-- In front of the key of the first member, from behind the opening brace. None for an empty
object. -/
def firstKey (c : Cursor) : Except Refusal (Option Cursor) :=
  let c := c.skipBlanks
  match c.pending with
  | [] => c.refuseNext .eofInObject
  | '\x7d' :: _ => .ok none
  | _ => .ok (some c)

/-- The field that a key names, with the cursor behind the key. -/
def key (c : Cursor) : Except Refusal (String × Cursor) :=
  match c.pending with
  | '"' :: rest => (c.past 1 rest).string
  | _ => c.refuseNext .keyNotString

/-- Past the brace that closes an object. -/
def closingBrace (c : Cursor) : Cursor :=
  let c := c.skipBlanks
  c.past 1 c.pending.tail

/-- In front of the next value of a list, from behind `count` values. -/
def element (count : Nat) (c : Cursor) : Except Refusal Cursor :=
  let c := c.skipBlanks
  match c.pending with
  | [] => c.refuseNext .eofInList
  | ']' :: rest => (c.past 1 rest).refuse (.tooFewElements count)
  | d :: rest =>
    if count = 0 then .ok c
    else if d = ',' then
      let c := (c.past 1 rest).skipBlanks
      match c.pending with
      | [] => c.refuseNext .eofInValue
      | ']' :: _ => c.refuseNext .trailingComma
      | _ => .ok c
    else c.refuseNext .expectedCommaOrBracket

/-- Past the bracket that closes a list, from behind its last value. -/
def closingBracket (c : Cursor) : Except Refusal Cursor :=
  let c := c.skipBlanks
  match c.pending with
  | [] => c.refuseNext .eofInList
  | ']' :: rest => .ok (c.past 1 rest)
  | ',' :: rest =>
    let c := (c.past 1 rest).skipBlanks
    match c.pending with
    | ']' :: _ => c.refuseNext .trailingComma
    | _ => c.refuseNext .trailingCharacters
  | _ => c.refuseNext .trailingCharacters

end Cursor

namespace Draft

/-- Past a member of an object, which fills a field that was missing. -/
def member (draft : Draft) (c : Cursor) :
    Except Refusal ({ d : Draft // d.missing < draft.missing } × Cursor) := do
  let (name, c) ← c.key
  match Field.ofName? name with
  | none => c.refuseName (.unknownField name)
  | some field =>
    if h : draft.has field = false then
      let c ← c.colon
      let (value, c) ← c.fieldValue field
      return (⟨draft.put value.1, missing_put_lt (by rw [value.2, h])⟩, c)
    else c.refuseName (.duplicateField field)

/-- Past the members that are left of an object and its closing brace. -/
def members (draft : Draft) (first : Bool) (c : Cursor) : Except Refusal (Draft × Cursor) := do
  match ← if first then c.firstKey else c.nextKey with
  | none => return (draft, c.closingBrace)
  | some key =>
    let (⟨filled, _⟩, c) ← draft.member key
    members filled false c
termination_by draft.missing

/-- Past the values that are left of a list and its closing bracket. -/
def elements : List Field → Nat → Draft → Cursor → Except Refusal (Draft × Cursor)
  | [], _, draft, c => return (draft, ← c.closingBracket)
  | field :: fields, count, draft, c => do
    let c ← c.element count
    let (value, c) ← c.fieldValue field
    elements fields (count + 1) (draft.put value.1) c

end Draft

namespace Settings

/-- Past the settings that a text begins with. -/
def readAt (c : Cursor) : Except Refusal (Settings × Cursor) := do
  let c := c.skipBlanks
  match c.pending with
  | [] => c.refuseNext .eofInValue
  | '\x7b' :: rest =>
    let (draft, c) ← Draft.empty.members true (c.past 1 rest)
    return (draft.settings, c)
  | '[' :: rest =>
    let (draft, c) ← Draft.elements Field.all 0 .empty (c.past 1 rest)
    return (draft.settings, c)
  | _ => c.wrongType .settings

/-- The settings that a whole text holds. -/
def readAll (text : List Char) : Except Refusal Settings := do
  let (settings, c) ← readAt (.start text)
  let c := c.skipBlanks
  if c.pending.isEmpty then return settings else c.refuseNext .trailingCharacters

/-- The settings that a text holds, or what is wrong with it and where. -/
def read (text : String) : Except Failure Settings :=
  (readAll text.toList).mapError fun r => Failure.locate text.toList r.problem r.offset

theorem read_eq_ok_iff_readAll {text : String} {s : Settings} :
    read text = .ok s ↔ readAll text.toList = .ok s := by
  unfold read
  cases readAll text.toList with
  | error refusal => exact iff_of_false nofun nofun
  | ok found =>
    show (.ok found : Except Failure Settings) = .ok s ↔ _
    rw [Except.ok.injEq, Except.ok.injEq]

end Settings

end ScriptLexer
