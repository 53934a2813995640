import ScriptLexer.Character.LineClass

/-!
# Where lines may break

A text is cut into pieces between which a line may break, by the Unicode line breaking algorithm. It
works on atoms: a character with the marks on it. Words of a script that only a dictionary tells
apart stay whole, since there is no dictionary here; for the larger of these scripts a notice says
so.

* `LineBreak.atoms`: the atoms of a text.
* `LineBreak.keeps`: whether two neighbouring atoms stay on one line.
* `LineBreak.pieces`: the pieces of a text.
* `LineBreak.flatten_pieces`: the pieces together are the text.
* `LineBreak.notices`: the notices for a text.
-/

namespace ScriptLexer.LineBreak

/-- A character with the marks on it, or a whole run of letters that only a dictionary divides. -/
structure Atom where
  base : Char
  marks : List Char
  lineClass : LineClass
  isRun : Bool
  deriving DecidableEq

namespace Atom

/-- The characters of an atom. -/
def text (a : Atom) : List Char :=
  a.base :: a.marks

/-- An atom of one of some classes. -/
def isIn (a : Atom) (classes : List LineClass) : Bool :=
  classes.contains a.lineClass

/-- Whether the atom has East Asian width. Marks that attach to nothing have not. -/
def isEast (a : Atom) : Bool :=
  isEastAsian a.base && LineClass.of a.base ≠ .mark

/-- Whether a joiner ends the atom. -/
def endsInJoiner (a : Atom) : Bool :=
  a.marks.getLastD a.base == '\u200D'

end Atom

/-! ## Atoms -/

/-- Whether a character is a letter of a script whose words only a dictionary tells apart. -/
def needsDictionary (c : Char) : Bool :=
  LineClass.of c = .dictionary

/-- The larger scripts whose words only a dictionary tells apart. -/
inductive Script
  | thai
  | lao
  | myanmar
  | khmer
  deriving DecidableEq

/-- The name of a script. -/
def Script.name : Script → String
  | thai => "Thai"
  | lao => "Lao"
  | myanmar => "Myanmar"
  | khmer => "Khmer"

/-- The script of a letter that needs a dictionary, if it is one of the larger ones. -/
def Script.of? (c : Char) : Option Script :=
  let code := c.toNat
  if 0xE01 ≤ code ∧ code ≤ 0xE7F then some thai
  else if 0xE80 ≤ code ∧ code ≤ 0xEFF then some lao
  else if 0x1000 ≤ code ∧ code ≤ 0x109F ∨ 0xA9E0 ≤ code ∧ code ≤ 0xA9FF
    ∨ 0xAA60 ≤ code ∧ code ≤ 0xAA7F then some myanmar
  else if 0x1780 ≤ code ∧ code ≤ 0x17FF ∨ 0x19E0 ≤ code ∧ code ≤ 0x19FF then some khmer
  else none

/-- The text in segments: a run of letters that need a dictionary is one, every other character is
one by itself. -/
def segments (cs : List Char) : List (List Char) :=
  cs.splitBy fun a b => needsDictionary a && needsDictionary b

/-- The parts of a run, one for each script. -/
def runs (segment : List Char) : List (List Char) :=
  segment.splitBy fun a b => decide (Script.of? a = Script.of? b)

/-- A run as an atom. -/
def Atom.ofRun? : List Char → Option Atom
  | [] => none
  | c :: cs => some ⟨c, cs, .letter, true⟩

/-- Marks that follow no character that could take them: the first takes the others. -/
def loose : List Char → List Atom
  | [] => []
  | mark :: marks => [⟨mark, marks, .letter, false⟩]

/-- Whether a mark attaches to a character of a class. -/
def takesMarks (lineClass : LineClass) : Bool :=
  lineClass ∉ [.paragraph, .carriageReturn, .lineFeed, .nextLine, .space, .zeroWidthSpace]

/-- Put a segment in front of marks that still have to attach and of the atoms behind them. -/
def prepend (segment : List Char) (rest : List Char × List Atom) : List Char × List Atom :=
  match segment with
  | [] => rest
  | [c] =>
    match LineClass.of c with
    | .mark | .joiner => (c :: rest.1, rest.2)
    | .dictionary => ([], ⟨c, rest.1, .letter, false⟩ :: rest.2)
    | lineClass =>
      if takesMarks lineClass then ([], ⟨c, rest.1, lineClass, false⟩ :: rest.2)
      else ([], ⟨c, [], lineClass, false⟩ :: (loose rest.1 ++ rest.2))
  | segment =>
    ([], (runs segment).filterMap Atom.ofRun? ++ (loose rest.1 ++ rest.2))

/-- The atoms of a text. -/
def atoms (cs : List Char) : List Atom :=
  let rest := (segments cs).foldr prepend ([], [])
  loose rest.1 ++ rest.2

theorem flatten_splitBy_loop {r : Char → Char → Bool} (cs : List Char) :
    ∀ (last : Char) (group : List Char) (groups : List (List Char)),
      (List.splitBy.loop r cs last group groups).flatten =
        groups.reverse.flatten ++ ((last :: group).reverse ++ cs) := by
  induction cs with
  | nil =>
    intro last group groups
    change (((last :: group).reverse :: groups).reverse).flatten = _
    simp
  | cons c cs ih =>
    intro last group groups
    change (match r last c with
      | true => List.splitBy.loop r cs c (last :: group) groups
      | false => List.splitBy.loop r cs c [] ((last :: group).reverse :: groups)).flatten = _
    cases r last c <;> simp [ih]

theorem flatten_splitBy (r : Char → Char → Bool) (cs : List Char) :
    (cs.splitBy r).flatten = cs := by
  cases cs with
  | nil => rfl
  | cons c cs => exact flatten_splitBy_loop cs c [] []

theorem flatMap_text_loose (marks : List Char) : (loose marks).flatMap Atom.text = marks := by
  cases marks <;> simp [loose, Atom.text]

theorem flatMap_text_ofRuns (groups : List (List Char)) :
    (groups.filterMap Atom.ofRun?).flatMap Atom.text = groups.flatten := by
  induction groups with
  | nil => rfl
  | cons group groups ih =>
    cases group <;> simp [List.filterMap_cons, Atom.ofRun?, Atom.text, ih]

theorem text_prepend (segment : List Char) (rest : List Char × List Atom) :
    (prepend segment rest).1 ++ (prepend segment rest).2.flatMap Atom.text =
      segment ++ (rest.1 ++ rest.2.flatMap Atom.text) := by
  unfold prepend
  split
  · rfl
  · split <;> (try split) <;> simp [Atom.text, flatMap_text_loose]
  · rw [List.flatMap_append, List.flatMap_append, flatMap_text_ofRuns, flatMap_text_loose, runs,
      flatten_splitBy, List.nil_append]

/-- The atoms together are the text. -/
theorem flatMap_text_atoms (cs : List Char) : (atoms cs).flatMap Atom.text = cs := by
  have all (parts : List (List Char)) :
      (parts.foldr prepend ([], [])).1 ++ (parts.foldr prepend ([], [])).2.flatMap Atom.text =
        parts.flatten := by
    induction parts with
    | nil => rfl
    | cons part parts ih => simp [text_prepend, ih]
  simp only [atoms, List.flatMap_append, flatMap_text_loose]
  rw [all, segments, flatten_splitBy]

/-! ## The rules -/

/-- The classes that end a line in every case. -/
def lineEnds : List LineClass :=
  [.paragraph, .carriageReturn, .lineFeed, .nextLine]

/-- The quotation marks. -/
def quotations : List LineClass :=
  [.quotation, .quotationStart, .quotationEnd]

/-- The letters. -/
def letters : List LineClass :=
  [.letter, .hebrew]

/-- The signs that stand before or after a number. -/
def units : List LineClass :=
  [.beforeNumber, .afterNumber]

/-- Whether the first of some atoms is of one of some classes, or there is none. -/
def startsIn (atoms : List Atom) (classes : List LineClass) : Bool :=
  atoms.head?.all (·.isIn classes)

/-- Whether the first of some atoms is there and of a class. -/
def startsWith (atoms : List Atom) (lineClass : LineClass) : Bool :=
  atoms.head?.any (·.lineClass = lineClass)

/-- Whether an atom stands for a syllable of the aksara kind. -/
def isAksara (a : Atom) : Bool :=
  a.isIn [.aksara, .aksaraStart] || a.base == '\u25CC'

/-- Whether an atom is an aksara that takes a subscript. -/
def takesSubscript (a : Atom) : Bool :=
  a.lineClass = .aksara || a.base == '\u25CC'

/-- Rules on ends of lines, spaces and joiners, which come before all others. The answer tells
whether the atoms stay on one line, if a rule says so. The atoms up to the first one are given
backwards. -/
def controlRule (before : List Atom) (b : Atom) : Option Bool :=
  match before with
  | [] => some true
  | a :: _ =>
    if a.isRun then some false
    else if a.lineClass = .carriageReturn ∧ b.lineClass = .lineFeed then some true
    else if a.isIn lineEnds then some false
    else if b.isIn lineEnds || b.isIn [.space, .zeroWidthSpace] then some true
    else if startsWith (before.dropWhile (·.lineClass = .space)) .zeroWidthSpace then some false
    else if a.endsInJoiner then some true
    else if a.lineClass = .wordJoiner ∨ b.lineClass = .wordJoiner then some true
    else if a.lineClass = .glue then some true
    else if b.lineClass = .glue ∧ ¬ a.isIn [.space, .breakAfter, .hyphen] then some true
    else none

/-- Rules on brackets, marks and quotations with spaces between. -/
def spacedRule (before : List Atom) (b : Atom) (after : List Atom) : Option Bool :=
  let ground := before.dropWhile (·.lineClass = .space)
  if b.isIn [.closing, .parenthesis, .exclamation, .separator, .slash] then some true
  else if startsWith ground .opening then some true
  else if startsWith ground .quotationStart
    && startsIn ground.tail
      (lineEnds ++ quotations ++ [.opening, .glue, .space, .zeroWidthSpace]) then some true
  else if b.lineClass = .quotationEnd
    && startsIn after (lineEnds ++ quotations ++ [.space, .glue, .wordJoiner, .closing,
      .parenthesis, .exclamation, .separator, .slash, .zeroWidthSpace]) then some true
  else if (startsWith ground .closing || startsWith ground .parenthesis)
    && b.lineClass = .nonstarter then some true
  else if startsWith ground .breakAround && b.lineClass = .breakAround then some true
  else if startsWith before .space then some false
  else none

/-- Rules on quotations, objects, hyphens and characters that begin or end no line, for an atom `a`
with others before it. -/
def hyphenRule (before : List Atom) (a b : Atom) : Option Bool :=
  if a.isIn quotations || b.isIn quotations then some true
  else if a.lineClass = .object ∨ b.lineClass = .object then some false
  else if b.isIn [.breakAfter, .hyphen, .nonstarter] then some true
  else if a.lineClass = .breakBefore then some true
  else if a.isIn [.hyphen, .breakAfter] && startsWith before .hebrew then some true
  else if a.lineClass = .slash ∧ b.lineClass = .hebrew then some true
  else if b.lineClass = .leader then some true
  else none

/-- Whether two atoms belong to one number or to a number with its unit. -/
def inNumber (a b : Atom) : Bool :=
  (a.isIn [.closing, .parenthesis, .digit] && b.isIn units)
    || (a.isIn units && b.isIn [.opening, .digit])
    || (a.isIn [.hyphen, .separator, .digit, .slash] && b.lineClass = .digit)

/-- Whether two atoms are parts of one word: letters, digits, and the units of numbers. -/
def inWord (a b : Atom) : Bool :=
  let pictures : List LineClass := [.ideograph, .emojiBase, .emojiModifier]
  (a.isIn letters && b.lineClass = .digit)
    || (a.lineClass = .digit && b.isIn letters)
    || (a.lineClass = .beforeNumber && b.isIn pictures)
    || (a.isIn pictures && b.lineClass = .afterNumber)
    || (a.isIn units && b.isIn letters)
    || (a.isIn letters && b.isIn units)
    || inNumber a b
    || (a.isIn (.separator :: letters) && b.isIn letters)

/-- Whether two atoms are parts of one Korean syllable, or one with its unit. -/
def inSyllable (a b : Atom) : Bool :=
  let syllables : List LineClass := [.jamoL, .jamoV, .jamoT, .syllableLV, .syllableLVT]
  (a.lineClass = .jamoL && b.isIn [.jamoL, .jamoV, .syllableLV, .syllableLVT])
    || (a.isIn [.jamoV, .syllableLV] && b.isIn [.jamoV, .jamoT])
    || (a.isIn [.jamoT, .syllableLVT] && b.lineClass = .jamoT)
    || (a.isIn syllables && b.lineClass = .afterNumber)
    || (a.lineClass = .beforeNumber && b.isIn syllables)

/-- Whether two atoms are parts of one aksara. -/
def inAksara (before : List Atom) (a b : Atom) (after : List Atom) : Bool :=
  (a.lineClass = .aksaraBefore && isAksara b)
    || (isAksara a && b.isIn [.finalVirama, .virama])
    || (before.head?.any isAksara && a.lineClass = .virama && takesSubscript b)
    || (isAksara a && isAksara b && startsWith after .finalVirama)

/-- Whether two atoms are a word and a bracket on it, a flag, or an emoji and its modifier. -/
def inSign (before : List Atom) (a b : Atom) : Bool :=
  (a.isIn (.digit :: letters) && b.lineClass = .opening && !b.isEast)
    || (a.lineClass = .parenthesis && !a.isEast && b.isIn (.digit :: letters))
    || (b.lineClass = .regional
      && ((a :: before).takeWhile (·.lineClass = .regional)).length % 2 = 1)
    || (b.lineClass = .emojiModifier && (a.lineClass = .emojiBase || isReservedPictograph a.base))

/-- Whether two neighbouring atoms stay on one line, for the atoms up to the first, given backwards,
and the atoms behind the second. -/
def keeps (before : List Atom) (b : Atom) (after : List Atom) : Bool :=
  match controlRule before b, before with
  | some answer, _ => answer
  | none, [] => true
  | none, a :: earlier =>
    match spacedRule before b after with
    | some answer => answer
    | none =>
      match hyphenRule earlier a b with
      | some answer => answer
      | none => inWord a b || inSyllable a b || inAksara earlier a b after || inSign earlier a b

/-! ## Pieces -/

/-- The pieces of some atoms behind the beginning of one, of which the characters and the atoms
before are given backwards. What comes before a run counts no more behind it. -/
def continued (begun : List Char) (before : List Atom) : List Atom → List (List Char)
  | [] => if begun.isEmpty then [] else [begun.reverse]
  | b :: after =>
    let earlier := if before.head?.any (·.isRun) then [] else before
    if keeps before b after then continued (b.text.reverse ++ begun) (b :: earlier) after
    else begun.reverse :: continued b.text.reverse (b :: earlier) after

/-- The pieces of a text between which a line may break. -/
def pieces (cs : List Char) : List (List Char) :=
  continued [] [] (atoms cs)

theorem flatten_continued (begun : List Char) (before after : List Atom) :
    (continued begun before after).flatten = begun.reverse ++ after.flatMap Atom.text := by
  induction after generalizing begun before with
  | nil => cases begun <;> simp [continued]
  | cons b after ih =>
    simp only [continued]
    split <;> split <;> simp [ih]

/-- The pieces together are the text. -/
@[simp] theorem flatten_pieces (cs : List Char) : (pieces cs).flatten = cs := by
  simp [pieces, flatten_continued, flatMap_text_atoms]

/-- The notices for a text: one for every run of a larger script. -/
def notices (cs : List Char) : List String :=
  ((segments cs).filter (1 < ·.length)).flatMap fun segment =>
    (runs segment).filterMap fun run =>
      (run.head?.bind Script.of?).map fun script =>
        "ICU4X data error: No segmentation model for complex script: " ++ script.name

end ScriptLexer.LineBreak
