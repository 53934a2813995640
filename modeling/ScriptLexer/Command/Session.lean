import ScriptLexer.Command.Run

/-!
# A run on files

A run changes the files only at its prompt. If it is to keep a history, it makes the folder of the
history before it takes a line, whether or not that succeeds, loads the lines of earlier sessions,
and saves its own when it comes to the end. The lines come through an editor, which keeps the
history.

What was done to the files stays also when the run ends in a fault.

* `historyFile`, `historyFolder`: where the history is kept.
* `LineEditor`: the editor of the prompt, seen from its history.
* `LineEditor.OffTerminal`: what is assumed of one whose input is no terminal.
* `runIn`: a run with a tree of files as its state.
-/

namespace ScriptLexer

/-- The folder of the history: in the one for the data of the user, or in the current one if there
is no such folder. -/
def historyFolder (data : Option String) : String :=
  Path.join (data.getD ".") "cream-cheese"

/-- The file of the history. -/
def historyFile (data : Option String) : String :=
  Path.join (historyFolder data) "history.txt"

/-- An editor of lines, seen from the history that it keeps: a new history, of no more than some
lines, which are noted by themselves or not; the history with the lines of a file; with a line that
was read; and the files once it is saved at a path. -/
structure LineEditor (η : Type) where
  start : (maxSize : UInt64) → (noting : Bool) → η
  load : η → Except FileError ByteArray → η
  read : η → String → η
  save : η → (path : String) → FileTree → FileTree

/-- What an editor does whose input is no terminal: no line comes into its history, and a history
that is as it was loaded is saved without a change to the files. -/
structure LineEditor.OffTerminal {η : Type} (editor : LineEditor η) : Prop where
  read_eq : ∀ history line, editor.read history line = history
  save_loaded : ∀ maxSize noting content path tree,
    editor.save (editor.load (editor.start maxSize noting) content) path tree = tree

/-- The editor of an input that is no terminal, whose history is what was in its file. -/
def LineEditor.piped : LineEditor (Option ByteArray) where
  start _ _ := none
  load history
    | .ok content => some content
    | .error _ => history
  read history _ := history
  save _ _ tree := tree

/-- What works on files and can end in a fault, which leaves the files as they have become. -/
abbrev OnFiles (α : Type) := ExceptT Fault (StateM FileTree) α

section

variable {η : Type} (editor : LineEditor η)

/-- The history that a prompt begins with. If it is kept at a path, its folder is made first. -/
def LineEditor.begin (options : Options) : Option String → OnFiles η
  | none => return editor.start options.maxHistorySize options.history
  | some path => do
    if let some folder := Path.parent? path then
      modify fun tree => (tree.makeFolders (Path.ancestors folder)).1
    let content := (← get).disk.read path
    return editor.load (editor.start options.maxHistorySize options.history) content

/-- Save what a session has given back. -/
def LineEditor.finish : Option String → Option η → OnFiles Unit
  | some path, some history => modify (editor.save history path)
  | _, _ => return

/-- The prompt of a run. -/
def runPromptIn (data : Option String) (streams : Streams) (options : Options) (p : Printing) :
    OnFiles Outcome := do
  let path? := if options.history then some (historyFile data) else none
  let history ← editor.begin options path?
  let (outcome, history?) ← converse editor.read options (Prompt.lines streams.input) history p
  editor.finish path? history?
  return outcome

/-- The run of a list of arguments. -/
def runIn (data : Option String) (streams : Streams) (arguments : List String) :
    OnFiles Outcome := do
  let disk := (← get).disk
  match Course.ofArguments disk streams arguments with
  | .ended outcome => return outcome
  | .script options path p => runScript disk options path p
  | .prompt options p => runPromptIn editor data streams options p

end

end ScriptLexer
