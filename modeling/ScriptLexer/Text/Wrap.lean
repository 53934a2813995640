import ScriptLexer.Character.Alphanumeric
import ScriptLexer.Text.Control
import ScriptLexer.Text.LineBreak

/-!
# Wrapping text

A text is laid out in lines of a given width. A line may break where the line breaking algorithm
allows it, except that of all hyphens only those between letters or digits count, and inside a word
only if it is wider than a line. Spaces vanish where a line breaks.

* `Wrap.words`: the words of a line of text.
* `Wrap.lines`: the lines in which a line of text is laid out.
* `Wrap.block`: the lines of a text, the first with an indent of its own.
-/

namespace ScriptLexer.Wrap

/-- A word with the spaces behind it. -/
structure Word where
  text : List Char
  spaces : Nat
  deriving DecidableEq

/-- The columns of a word without its spaces. -/
def Word.width (w : Word) : Nat :=
  Control.width w.text

/-- A text as a word: the spaces at its end are those behind the word. -/
def Word.ofText (text : List Char) : Word :=
  let kept := (text.reverse.dropWhile (· = ' ')).reverse
  ⟨kept, text.length - kept.length⟩

/-! ## Words -/

/-- Whether a text ends in a hyphen, seen or not, behind which the algorithm's break does not
count. -/
def endsInHyphen (piece : List Char) : Bool :=
  piece.getLast? = some '-' ∨ piece.getLast? = some '\u00AD'

/-- Join the pieces that end in a hyphen to the next. -/
def joinHyphens : List (List Char) → List (List Char)
  | [] => []
  | piece :: pieces =>
    match joinHyphens pieces with
    | next :: more =>
      if endsInHyphen piece then (piece ++ next) :: more else piece :: next :: more
    | [] => [piece]

/-- Join the last two pieces if the last one ends in a hyphen: the end of the line is then not told
apart from the break before it. -/
def joinEnd (pieces : List (List Char)) : List (List Char) :=
  match pieces.reverse with
  | last :: previous :: more =>
    if endsInHyphen last then ((previous ++ last) :: more).reverse else pieces
  | _ => pieces

/-- Cut a text into parts with given numbers of drawn characters, of which `count` are still wanting
for the part that has begun, given backwards. What is not drawn goes with the character behind it;
at the end of the text, with the one before it. -/
def cutFrom (begun : List Char) (count : Nat) (counts : List Nat) :
    List (Char × Bool) → List (List Char)
  | [] => if begun.isEmpty then [] else [begun.reverse]
  | (c, isDrawn) :: rest =>
    let wanting (n : Nat) : Nat := if isDrawn then n - 1 else n
    match count, counts with
    | 0, next :: more => begun.reverse :: cutFrom [c] (wanting next) more rest
    | count, counts => cutFrom (c :: begun) (wanting count) counts rest

/-- The words of a line of text, as breaks that the algorithm allows divide it. -/
def wholeWords (text : List Char) : List Word :=
  let pieces := joinEnd (joinHyphens (LineBreak.pieces (Control.drawn text)))
  let counts := pieces.map (·.length)
  (cutFrom [] (counts.headD 0) counts.tail (Control.marked text)).map .ofText

/-- The parts of a word between its hyphens, for the part that has begun, given backwards. A hyphen
counts if it has a letter or digit on both sides. -/
def hyphenParts (begun : List Char) : List Char → List (List Char)
  | [] => [begun.reverse]
  | c :: rest =>
    if c = '-' ∧ begun.head?.any isLetterOrNumber ∧ rest.head?.any isLetterOrNumber then
      (c :: begun).reverse :: hyphenParts [] rest
    else hyphenParts (c :: begun) rest

/-- A word divided after its hyphens. The last part keeps the spaces. -/
def divide (w : Word) : List Word :=
  let parts := hyphenParts [] w.text
  parts.dropLast.map (⟨·, 0⟩) ++ (parts.getLast?.map (⟨·, w.spaces⟩)).toList

/-- The parts of a word that fit into a width, for the part that has begun, given backwards with its
width. -/
def fittingParts (width : Nat) (begun : List Char) (used : Nat) :
    List (Char × Bool) → List (List Char)
  | [] => [begun.reverse]
  | (c, false) :: rest => fittingParts width (c :: begun) used rest
  | (c, true) :: rest =>
    let columns := Columns.ofChar c
    if 0 < used ∧ width < used + columns then
      begun.reverse :: fittingParts width [c] columns rest
    else fittingParts width (c :: begun) (used + columns) rest

/-- A word in parts that fit into a width. The last part keeps the spaces. -/
def breakWord (width : Nat) (w : Word) : List Word :=
  if w.width ≤ width then [w]
  else
    let parts := fittingParts width [] 0 (Control.marked w.text)
    parts.dropLast.map (⟨·, 0⟩) ++ (parts.getLast?.map (⟨·, w.spaces⟩)).toList

/-- The words of a line of text that fit into a width. -/
def words (width : Nat) (text : List Char) : List Word :=
  ((wholeWords text).flatMap divide).flatMap (breakWord width)

/-! ## Lines -/

/-- Words in lines: each line takes words while they fit, and at least one. The line that has begun
is given backwards. -/
def firstFit (width : Nat) (line : List Word) (used : Nat) : List Word → List (List Word)
  | [] => [line.reverse]
  | w :: ws =>
    if width < used + w.width ∧ line ≠ [] then
      line.reverse :: firstFit width [w] (w.width + w.spaces) ws
    else firstFit width (w :: line) (used + w.width + w.spaces) ws

/-- The characters of a line of words, without the spaces at its end. -/
def lineText : List Word → List Char
  | [] => []
  | [last] => last.text
  | w :: ws => w.text ++ List.replicate w.spaces ' ' ++ lineText ws

/-- The lines in which a line of text is laid out. It begins with an empty word, so that a word too
wide for what is left of the first line goes to the next. -/
def lines (width : Nat) (text : List Char) : List (List Char) :=
  (firstFit width [⟨[], 0⟩] 0 (words width text)).map lineText

/-- The lines of a text, indented, each closed by a line feed. The width counts the indent. -/
def block (width : Nat) (first other : String) (text : String) : String :=
  let all := (text.toList.splitOn '\n').flatMap (lines (width - other.length))
  match all with
  | [] => ""
  | line :: more =>
    first ++ String.ofList line ++ "\n" ++
      String.join (more.map fun line => other ++ String.ofList line ++ "\n")

/-- The notices for the lines of a text, each closed by a line feed. -/
def notices (text : String) : String :=
  String.join ((text.toList.splitOn '\n').flatMap fun line =>
    (LineBreak.notices (Control.drawn line)).map (· ++ "\n"))

end ScriptLexer.Wrap
