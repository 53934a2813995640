import ScriptLexer.Settings.Reading
import ScriptLexer.Files.Tree

/-!
# Settings files

* `Settings.find?`: the settings file directly inside a folder.
* `Settings.load`: the settings of a file, or why there are none.
* `LoadFailure.message`, `LoadFailure.cause`: the words for it.
-/

namespace ScriptLexer

/-- Why a settings file cannot be used. -/
inductive LoadFailure
  | unreadable (path : String) (error : FileError)
  | invalid (path : String) (failure : Failure)
  deriving DecidableEq

namespace LoadFailure

/-- What failed, with the path of the file. -/
def message : LoadFailure → String
  | unreadable path _ => "could not read config file '" ++ path ++ "'"
  | invalid path _ => "invalid config file '" ++ path ++ "'"

/-- Why it failed. -/
def cause : LoadFailure → String
  | unreadable _ error => error.message
  | invalid _ failure => failure.message

end LoadFailure

namespace Settings

/-- The settings file directly inside a folder, if there is a regular file of that name. -/
def find? (disk : Disk) (folder : String) : Option String :=
  let candidate := Path.join folder fileName
  if disk.isFile candidate then some candidate else none

/-- The settings that a file holds. -/
def load (disk : Disk) (path : String) : Except LoadFailure Settings :=
  match disk.readText path with
  | .error error => .error (.unreadable path error)
  | .ok text => (read text).mapError (.invalid path)

variable {disk : Disk} {path text : String}

theorem load_of_unreadable {error : FileError} (h : disk.readText path = .error error) :
    load disk path = .error (.unreadable path error) := by
  rw [load, h]

theorem load_of_invalid {failure : Failure} (h : disk.readText path = .ok text)
    (hread : read text = .error failure) : load disk path = .error (.invalid path failure) := by
  rw [load, h]
  dsimp only
  rw [hread]
  rfl

theorem load_of_read {s : Settings} (h : disk.readText path = .ok text)
    (hread : read text = .ok s) : load disk path = .ok s := by
  rw [load, h]
  dsimp only
  rw [hread]
  rfl

end Settings

end ScriptLexer
