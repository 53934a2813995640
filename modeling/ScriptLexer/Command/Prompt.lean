import ScriptLexer.Text.Blank
import ScriptLexer.Text.Cluster
import ScriptLexer.Text.Measure

/-!
# Lines of a prompt

The bytes given to a prompt are lines, each closed by a line feed except that the last one may lack
it. A carriage return in front of the line feed belongs to the end of the line.

* `Prompt.lines`: the lines, none where the bytes are no text.
* `Prompt.edit`: a line with its backspaces applied.
-/

namespace ScriptLexer.Prompt

/-- The backspace, which takes back the cluster before it. -/
def backspace : Char := '\x08'

/-- A line that is being typed: its characters, given backwards, and the sizes of the clusters that
can be taken back, the last one first. A size is kept in one byte, so a cluster of 256 bytes or more
is taken back only by what its size has over a multiple of 256. -/
structure Draft where
  typed : List Char
  sizes : List UInt8
  deriving DecidableEq

namespace Draft

/-- Nothing typed. -/
def empty : Draft := ⟨[], []⟩

/-- With the last bytes taken back, as many whole characters as they are. -/
def takeBack : Nat → List Char → List Char
  | _, [] => []
  | 0, typed => typed
  | bytes + 1, c :: typed =>
    if c.utf8Size ≤ bytes + 1 then takeBack (bytes + 1 - c.utf8Size) typed else c :: typed

/-- With a cluster typed. -/
def type (d : Draft) (cluster : List Char) : Draft :=
  if cluster = [backspace] then
    match d.sizes with
    | [] => d
    | size :: sizes => ⟨takeBack size.toNat d.typed, sizes⟩
  else ⟨cluster.reverse ++ d.typed, (Text.byteWidth cluster).toUInt8 :: d.sizes⟩

/-- What has been typed. -/
def text (d : Draft) : String :=
  String.ofList d.typed.reverse

end Draft

/-- A line with its backspaces applied. -/
def edit (line : String) : String :=
  ((Cluster.ofText line.toList).foldl Draft.type .empty).text

/-- The text of a line from its bytes without the line feed. -/
def text? (bytes : List UInt8) : Option String :=
  (String.fromUTF8? bytes.toByteArray).map edit

/-- The bytes of a closed line, without a carriage return at its end. -/
def unclose (bytes : List UInt8) : List UInt8 :=
  if bytes.getLast? = some 13 then bytes.dropLast else bytes

/-- The lines of pieces between line feeds: all but the last are closed. -/
def ofPieces : List (List UInt8) → List (Option String)
  | [] => []
  | [last] => if last.isEmpty then [] else [text? last]
  | closed :: more => text? (unclose closed) :: ofPieces more

/-- The lines of some bytes. -/
def lines (bytes : ByteArray) : List (Option String) :=
  ofPieces (bytes.data.toList.splitOn 10)

end ScriptLexer.Prompt
