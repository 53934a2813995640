import ScriptLexer.Files.Path

/-!
# Files

A run sees files only through two questions: whether a path names a regular file, and what its bytes
are. A tree of files answers both. It begins at a root and has a current folder, its links are
followed, and the system may refuse to go on at any place of it.

* `Disk`: the two questions.
* `Disk.readText`: the text of a file.
* `FileTree.walk`: where a path leads, or why it leads nowhere.
* `FileTree.disk`: the answers of a tree.
* `FileTree.makeFolder`: a tree with one more folder, if it can be made.
* `FileTree.makeFolders`: a tree with a folder and those that were missing above it, as far as they
  could be made.
-/

namespace ScriptLexer

/-- Why something cannot be read or written. -/
inductive FileError
  | notFound
  | notFolder
  | isFolder
  | notText
  | nameTooLong
  | nulInName
  | noSpace
  | alreadyThere
  | tooManyLinks
  | other (words : String)
  deriving DecidableEq

/-- The words of the system for an error. -/
def FileError.message : FileError → String
  | notFound => "No such file or directory (os error 2)"
  | notFolder => "Not a directory (os error 20)"
  | isFolder => "Is a directory (os error 21)"
  | notText => "stream did not contain valid UTF-8"
  | nameTooLong => "File name too long (os error 36)"
  | nulInName => "file name contained an unexpected NUL byte"
  | noSpace => "No space left on device (os error 28)"
  | alreadyThere => "File exists (os error 17)"
  | tooManyLinks => "Too many levels of symbolic links (os error 40)"
  | other words => words

/-- What a run can ask of the files. -/
structure Disk where
  isFile : String → Bool
  read : String → Except FileError ByteArray

/-- The disk of some paths that have been looked up; every other path names nothing. -/
def Disk.ofContents (contents : List (String × Except FileError ByteArray)) : Disk where
  isFile path := match contents.lookup path with
    | some (.ok _) => true
    | _ => false
  read path := (contents.lookup path).getD (.error .notFound)

/-- The text of a file, whose bytes have to be UTF-8. -/
def Disk.readText (d : Disk) (path : String) : Except FileError String := do
  let bytes ← d.read path
  match String.fromUTF8? bytes with
  | some text => return text
  | none => .error .notText

/-- What can be at a place. A link leads on along its path. -/
inductive Entry
  | file (content : ByteArray)
  | folder
  | link (path : String)

/-- What can be done at a place: go through a folder, read a file, or make something in a folder. -/
inductive Access
  | pass
  | read
  | make
  deriving DecidableEq

/-- Entries by their places, which are the names that lead to them from the root, with the place of
the current folder, and why the system refuses something at a place, if it does. The folders above
an entry and above the current folder need not be listed. -/
structure FileTree where
  entries : List (List String × Entry)
  current : List String
  refusal? : Access → List String → Option FileError

/-- Where one piece of a path leads: to a place, or along the path of a link. -/
inductive Turn
  | arrive (place : List String)
  | follow (path : String)
  deriving DecidableEq

namespace FileTree

/-- How many links a path may lead along. -/
def maxLinks : Nat := 40

/-- The tree of some paths below the current folder, where nothing is refused. -/
def ofPaths (current : List String) (files : List (String × Entry)) : FileTree where
  entries := files.map fun (path, entry) =>
    (current ++ (Path.pieces path).filter (!Path.isIdle ·), entry)
  current := current
  refusal? _ _ := none

/-- The entry at a place. -/
def lookup? (t : FileTree) (place : List String) : Option Entry :=
  if place.isEmpty then some .folder
  else
    match t.entries.find? (·.1 == place) with
    | some (_, entry) => some entry
    | none =>
      if place.isPrefixOf t.current || t.entries.any (fun e => place.isPrefixOf e.1) then
        some .folder
      else none

/-- A place can be gone through for a piece behind it: it is a folder, and the system does not
refuse that. An empty piece asks for the folder only. -/
def checkFolder (t : FileTree) (place : List String) (piece : String) : Except FileError Unit :=
  match t.lookup? place with
  | none => .error .notFound
  | some .folder =>
    match if piece = "" then none else t.refusal? .pass place with
    | some error => .error error
    | none => .ok ()
  | some _ => .error .notFolder

/-- Where a piece leads from a place. -/
def step (t : FileTree) (place : List String) (piece : String) : Except FileError Turn := do
  t.checkFolder place piece
  if Path.isIdle piece then return .arrive place
  else if piece = ".." then return .arrive place.dropLast
  else if Path.maxPieceSize < piece.utf8ByteSize then .error .nameTooLong
  else
    match t.lookup? (place ++ [piece]) with
    | none => .error .notFound
    | some (.link path) => return .follow path
    | some _ => return .arrive (place ++ [piece])

/-- Where pieces are counted from: the root if the first is empty, as behind a slash, else some
place. -/
def origin (place : List String) (pieces : List String) : List String :=
  if pieces.head? = some "" then [] else place

/-- Where pieces lead from a place, if it is known where they lead from the first link on. -/
def walkWith (t : FileTree) (follow : List String → List String → Except FileError (List String)) :
    List String → List String → Except FileError (List String)
  | place, [] => .ok place
  | place, piece :: more =>
    match t.step place piece with
    | .error error => .error error
    | .ok (.arrive next) => t.walkWith follow next more
    | .ok (.follow path) => follow (origin place (Path.pieces path)) (Path.pieces path ++ more)

/-- Where pieces lead from a place, along no more than some number of links. -/
def walk (t : FileTree) : Nat → List String → List String → Except FileError (List String)
  | 0 => t.walkWith fun _ _ => .error .tooManyLinks
  | links + 1 => t.walkWith (t.walk links)

/-- The pieces of a path that the system takes. -/
def taken (path : String) : Except FileError (List String) :=
  if path.toList.contains '\x00' then .error .nulInName
  else if path = "" then .error .notFound
  else if Path.maxSize < path.utf8ByteSize then .error .nameTooLong
  else .ok (Path.pieces path)

/-- The place that a path leads to. -/
def place (t : FileTree) (path : String) : Except FileError (List String) := do
  let pieces ← taken path
  t.walk maxLinks (origin t.current pieces) pieces

/-- The entry that a path leads to. -/
def resolve (t : FileTree) (path : String) : Except FileError Entry := do
  match t.lookup? (← t.place path) with
  | some entry => return entry
  | none => .error .notFound

/-- The answers of a tree. -/
def disk (t : FileTree) : Disk where
  isFile path := match t.resolve path with
    | .ok (.file _) => true
    | _ => false
  read path := do
    let place ← t.place path
    match t.refusal? .read place with
    | some error => .error error
    | none =>
      match t.lookup? place with
      | some (.file content) => return content
      | some _ => .error .isFolder
      | none => .error .notFound

/-- Whether a path leads to a folder. -/
def isFolder (t : FileTree) (path : String) : Bool :=
  match t.resolve path with
  | .ok .folder => true
  | _ => false

/-- The tree with a folder at one more place. -/
def addFolder (t : FileTree) (place : List String) : FileTree :=
  { t with entries := t.entries ++ [(place, .folder)] }

/-- The tree with a folder at a path, where nothing may be yet. The folder that it is made in has to
be there, and the system may refuse to make it. -/
def makeFolder (t : FileTree) (path : String) : Except FileError FileTree := do
  let pieces ← taken path
  match pieces.reverse.dropWhile (· = "") with
  | [] => .error .alreadyThere
  | name :: above =>
    let place ← t.walk maxLinks (origin t.current pieces) above.reverse
    t.checkFolder place name
    if name = "." ∨ name = ".." then .error .alreadyThere
    else if Path.maxPieceSize < name.utf8ByteSize then .error .nameTooLong
    else if (t.lookup? (place ++ [name])).isSome then .error .alreadyThere
    else
      match t.refusal? .make place with
      | some error => .error error
      | none => .ok (t.addFolder (place ++ [name]))

/-- The tree with the folders of a path and of the paths above it, and why not all of them could be
made. The path is tried first, the ones above it only where they are missing; the folders that were
made before a failure stay. -/
def makeFolders (t : FileTree) : List String → FileTree × Option FileError
  | [] => (t, some (.other "failed to create whole tree"))
  | path :: above =>
    if path = "" then (t, none)
    else
      match t.makeFolder path with
      | .ok made => (made, none)
      | .error .notFound =>
        match t.makeFolders above with
        | (made, some error) => (made, some error)
        | (made, none) =>
          match made.makeFolder path with
          | .ok made => (made, none)
          | .error error => (made, if made.isFolder path then none else some error)
      | .error error => (t, if t.isFolder path then none else some error)

end FileTree

end ScriptLexer
