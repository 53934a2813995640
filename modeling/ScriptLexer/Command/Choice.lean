import ScriptLexer.Command.Arguments
import ScriptLexer.Settings.File

/-!
# The options of a run

The settings file that an argument names is used and no other; without that argument, the one in the
folder of the script, if it is there. What an argument says goes before the settings, field by
field.

* `Arguments.settingsFile?`: the settings file of a run.
* `Arguments.options`: the options of a run.
* `Arguments.paths`: the paths that a run may ask the disk about.
-/

namespace ScriptLexer.Arguments

/-- The script of a run, none for the prompt. -/
def script? (a : Arguments) : Option String :=
  a.scripts.head?

/-- The folder in which a settings file is looked for: the one that holds the script, the current
one if the script's path has no folder or there is no script. -/
def settingsFolder (a : Arguments) : String :=
  match a.script?.bind Path.parent? with
  | some folder => if folder = "" then "." else folder
  | none => "."

/-- The settings file of a run, if it has one. -/
def settingsFile? (disk : Disk) (a : Arguments) : Option String :=
  match a.config with
  | some path => some path
  | none => Settings.find? disk a.settingsFolder

/-- The paths that a run may ask the disk about. -/
def paths (a : Arguments) : List String :=
  a.config.getD (Path.join a.settingsFolder Settings.fileName) :: a.script?.toList

/-- The options with those that the arguments give in place. -/
def override (a : Arguments) (o : Options) : Options :=
  { o with
    tokenFormat := a.format.getD o.tokenFormat
    color := if a.color then some true else if a.noColor then some false else o.color }

/-- The options of a run, or why its settings file cannot be used. -/
def options (disk : Disk) (a : Arguments) : Except LoadFailure Options :=
  match a.settingsFile? disk with
  | none => .ok (a.override .default)
  | some path => (Settings.load disk path).map fun settings => a.override (.ofSettings settings)

end ScriptLexer.Arguments
