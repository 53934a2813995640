import ScriptLexer.Fault
import ScriptLexer.Text.Measure

/-!
# Spans

A span is a start and a length in bytes, both 32-bit words. A length may reach past the last
position; every question about the end of such a span is a fault.

* `Span.stop`, `Span.range`: the end and both ends.
* `Span.contains`: a position before the start is answered without looking at the end.
* `Span.ofBounds`, `Span.ofRange`: a span from its ends; a range of wide positions keeps their low
  32 bits only.
-/

namespace ScriptLexer

/-- A run of bytes in a text. -/
structure Span where
  start : UInt32
  length : UInt32
  deriving DecidableEq

namespace Span

/-- The span between two positions. -/
def ofBounds (start stop : UInt32) : Except Fault Span :=
  if start ≤ stop then .ok ⟨start, stop - start⟩ else .error .reversedBounds

/-- The span of a range of positions of any size: each end is cut to its low 32 bits before the two
are compared. -/
def ofRange (start stop : Nat) : Except Fault Span :=
  ofBounds start.toUInt32 stop.toUInt32

/-- The span of no bytes at a position. -/
def empty (position : UInt32) : Span :=
  ⟨position, 0⟩

/-- The position after the last byte. -/
def stop (s : Span) : Except Fault UInt32 :=
  if s.start.toNat + s.length.toNat < UInt32.size then .ok (s.start + s.length)
  else .error .endOverflow

def isEmpty (s : Span) : Bool :=
  s.length == 0

/-- Whether a position lies in the span. -/
def contains (s : Span) (position : UInt32) : Except Fault Bool :=
  if position < s.start then .ok false else do
    let stop ← s.stop
    return decide (position < stop)

/-- Both ends, as positions of a text. -/
def range (s : Span) : Except Fault (Nat × Nat) := do
  let stop ← s.stop
  return (s.start.toNat, stop.toNat)

/-- The ends with two dots between them. -/
def dotted (s : Span) : Except Fault String := do
  let stop ← s.stop
  return s.start.toNat.repr ++ ".." ++ stop.toNat.repr

/-- The ends as a half-open interval. -/
def interval (s : Span) : Except Fault String := do
  let stop ← s.stop
  return "[" ++ s.start.toNat.repr ++ ", " ++ stop.toNat.repr ++ ")"

/-- The characters of a text under the span, if it lies in the text and on character boundaries. -/
def slice? (s : Span) (text : String) : Except Fault (Option String) := do
  let (start, stop) ← s.range
  return (Text.slice? text.toList start stop).map String.ofList

end Span

end ScriptLexer
