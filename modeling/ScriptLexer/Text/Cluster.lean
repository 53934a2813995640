import ScriptLexer.Character.ClusterClass

/-!
# Clusters

A cluster is what a reader takes for one character: a letter with its marks, a Korean syllable in
parts, a flag, an emoji made of several.

* `Cluster.ofText`: the clusters of a text.
* `Cluster.flatten_ofText`: the clusters together are the text.
-/

namespace ScriptLexer.Cluster

/-- Whether a class extends the cluster before it. -/
def isExtender (c : ClusterClass) : Bool :=
  c = .extender ∨ c = .linker ∨ c = .nonJoiner

/-- Whether a class may stand between two consonants that a linker joins. -/
def isConnecting (c : ClusterClass) : Bool :=
  c = .extender ∨ c = .linker ∨ c = .joiner

/-- Whether a cluster, given backwards, waits for a second pictograph: it has one, extended or not,
and a joiner behind it. -/
def awaitsPictograph : List ClusterClass → Bool
  | .joiner :: before => (before.dropWhile isExtender).head? = some .pictograph
  | _ => false

/-- Whether a cluster, given backwards, waits for a second consonant: it has one, with a linker
among the characters behind it. -/
def awaitsConsonant (before : List ClusterClass) : Bool :=
  (before.takeWhile isConnecting).contains .linker ∧
    (before.dropWhile isConnecting).head? = some .consonant

/-- Whether a character of a class belongs to a cluster, of which the classes are given
backwards. -/
def belongs (before : List ClusterClass) (next : ClusterClass) : Bool :=
  match before, next with
  | [], _ => true
  | .carriageReturn :: _, .lineFeed => true
  | .carriageReturn :: _, _ | .lineFeed :: _, _ | .control :: _, _ => false
  | _, .carriageReturn | _, .lineFeed | _, .control => false
  | _, .extender | _, .linker | _, .nonJoiner | _, .joiner | _, .spacingMark => true
  | .prepended :: _, _ => true
  | .jamoL :: _, .jamoL | .jamoL :: _, .jamoV => true
  | .jamoL :: _, .syllableLV | .jamoL :: _, .syllableLVT => true
  | .syllableLV :: _, .jamoV | .syllableLV :: _, .jamoT => true
  | .jamoV :: _, .jamoV | .jamoV :: _, .jamoT => true
  | .syllableLVT :: _, .jamoT | .jamoT :: _, .jamoT => true
  | before, .consonant => awaitsConsonant before
  | before, .pictograph => awaitsPictograph before
  | .regional :: before, .regional => !before.contains .regional
  | _, _ => false

/-- The clusters of a text behind the beginning of one, of which the characters and their classes
are given backwards. -/
def continued (begun : List Char) (classes : List ClusterClass) : List Char → List (List Char)
  | [] => if begun.isEmpty then [] else [begun.reverse]
  | c :: cs =>
    if belongs classes (ClusterClass.of c) then
      continued (c :: begun) (ClusterClass.of c :: classes) cs
    else begun.reverse :: continued [c] [ClusterClass.of c] cs

/-- The clusters of a text. -/
def ofText (cs : List Char) : List (List Char) :=
  continued [] [] cs

theorem flatten_continued (begun : List Char) (classes : List ClusterClass) (cs : List Char) :
    (continued begun classes cs).flatten = begun.reverse ++ cs := by
  induction cs generalizing begun classes with
  | nil =>
    unfold continued
    split
    next h => simp [List.isEmpty_iff.1 h]
    next => simp
  | cons c cs ih =>
    unfold continued
    split <;> simp [ih]

/-- The clusters together are the text. -/
@[simp] theorem flatten_ofText (cs : List Char) : (ofText cs).flatten = cs :=
  flatten_continued [] [] cs

end ScriptLexer.Cluster
