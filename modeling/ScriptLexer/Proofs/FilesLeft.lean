import ScriptLexer.Command.Session
import ScriptLexer.Proofs.GrownTrees
import ScriptLexer.Proofs.PromptRuns

/-!
# What a run leaves on the disk

A run makes the folder of its history as soon as it comes to the prompt with a history to keep, as
far as that can be made, and it makes nothing else. What it has made stays also when a later line of
the prompt ends in a fault.

* `parent?_historyFile`: the folder of the history is the one that its file is in.
* `KeepsHistory`: a run comes to the prompt with a history to keep.
* `course_cases`: a run ends at once, scans a script, or comes to the prompt.
* `converse_history`: a session whose lines are not noted gives back the history that it began with.
* `runIn_eq`: the outcome of a run on files is that of `run`, and what it leaves of them.
* `run_leaves_files`: what is left of the tree, whatever the outcome.
-/

namespace ScriptLexer

/-! ## The folder of the history -/

theorem exists_pieces_historyFolder (data : Option String) :
    ∃ front, Path.pieces (historyFolder data) = front ++ ["cream-cheese"] :=
  Path.pieces_join _ (by decide)

theorem historyFolder_ne_empty (data : Option String) : historyFolder data ≠ "" := by
  obtain ⟨front, hfront⟩ := exists_pieces_historyFolder data
  intro hempty
  rw [hempty] at hfront
  have hpieces : Path.pieces "" = [""] := rfl
  have hlast := congrArg List.getLast? hfront
  rw [hpieces, List.getLast?_concat] at hlast
  exact absurd hlast (by decide)

/-- The file of the history has its name behind a slash. -/
theorem historyFile_eq (data : Option String) :
    historyFile data = historyFolder data ++ "/" ++ "history.txt" := by
  have hlast : (historyFolder data).toList.getLast? ≠ some '/' := by
    obtain ⟨front, hfront⟩ := Path.exists_join_eq (data.getD ".") "cream-cheese"
    have hend : "cream-cheese".toList.getLast? = some 'e' := rfl
    rw [historyFolder, hfront, String.toList_append, List.getLast?_append, hend]
    simp
  rw [historyFile, Path.join, if_neg (not_or.2 ⟨historyFolder_ne_empty data, hlast⟩)]

/-- **The folder of the history** is the one that its file is in. -/
theorem parent?_historyFile (data : Option String) :
    Path.parent? (historyFile data) = some (historyFolder data) := by
  rw [historyFile_eq]
  refine Path.parent?_append (historyFolder_ne_empty data) ?_ (by decide) (by decide)
  intro last hlast
  obtain ⟨front, hfront⟩ := exists_pieces_historyFolder data
  rw [hfront] at hlast
  -- the folder itself has a name
  cases front with
  | nil => cases hlast
  | cons first front =>
    rw [List.cons_append, List.tail_cons, List.getLast?_concat] at hlast
    obtain rfl := Option.some.inj hlast
    decide

/-! ## Runs that come to the prompt -/

/-- A run comes to the prompt with a history to keep: it has no script, and its options are found
and ask for one. -/
def KeepsHistory (disk : Disk) (arguments : List String) : Prop :=
  ∃ a options, Request.ofArguments arguments = .run a ∧ a.scripts = [] ∧
    a.options disk = .ok options ∧ options.history = true

section

variable {disk : Disk} {streams : Streams} {arguments : List String} {options : Options}
  {p : Printing} {outcome : Outcome}

/-- **A run ends at once, scans a script, or comes to the prompt**: only this without a script and
with options. -/
theorem course_cases (disk : Disk) (streams : Streams) (arguments : List String) :
    (∃ outcome, Course.ofArguments disk streams arguments = .ended outcome ∧
      outcome.keepsHistory = false) ∨
    (∃ options path p, Course.ofArguments disk streams arguments = .script options path p) ∨
    ∃ a options p, Course.ofArguments disk streams arguments = .prompt options p ∧
      Request.ofArguments arguments = .run a ∧ a.scripts = [] ∧ a.options disk = .ok options := by
  cases hrequest : Request.ofArguments arguments with
  | run a =>
    rw [course_of_request hrequest]
    by_cases hmany : 1 < a.scripts.length
    · exact .inl ⟨_, Arguments.course_of_many hmany, rfl⟩
    cases hoptions : a.options disk with
    | error failure => exact .inl ⟨_, Arguments.course_of_unsettled hmany hoptions, rfl⟩
    | ok options =>
      match hscripts : a.scripts with
      | [] =>
        exact .inr (.inr ⟨a, _, _, Arguments.course_of_prompt hoptions hscripts, rfl, hscripts,
          hoptions⟩)
      | [path] => exact .inr (.inl ⟨_, _, _, Arguments.course_of_script hoptions hscripts⟩)
      | _ :: _ :: _ => simp [hscripts] at hmany
  | _ => exact .inl ⟨_, by rw [Course.ofArguments, hrequest], rfl⟩

/-- A run that comes to the prompt keeps a history as its options ask. -/
theorem keepsHistory_of_prompt
    (h : Course.ofArguments disk streams arguments = .prompt options p) :
    KeepsHistory disk arguments ↔ options.history = true := by
  constructor
  · rintro ⟨a, options', hrequest, hscripts, hoptions, hhistory⟩
    rw [course_of_request hrequest, Arguments.course_of_prompt hoptions hscripts] at h
    cases h
    exact hhistory
  · intro hhistory
    rcases course_cases disk streams arguments with
      ⟨outcome, hcourse, -⟩ | ⟨options', path, p', hcourse⟩ | ⟨a, options', p', hcourse, ha⟩
    · rw [h] at hcourse
      cases hcourse
    · rw [h] at hcourse
      cases hcourse
    · cases h.symm.trans hcourse
      exact ⟨a, options, ha.1, ha.2.1, ha.2.2, hhistory⟩

/-- Other runs keep none. -/
theorem not_keepsHistory {course : Course}
    (h : Course.ofArguments disk streams arguments = course)
    (hcourse : ∀ options p, course ≠ .prompt options p) : ¬ KeepsHistory disk arguments := by
  rintro ⟨a, options, hrequest, hscripts, hoptions, -⟩
  rw [course_of_request hrequest, Arguments.course_of_prompt hoptions hscripts] at h
  exact hcourse _ _ h.symm

/-! ## What an outcome tells of the history -/

/-- A script keeps no history. -/
theorem runScript_keepsHistory {path : String} (h : runScript disk options path p = .ok outcome) :
    outcome.keepsHistory = false := by
  unfold runScript at h
  cases htext : disk.readText path with
  | error error =>
    simp only [htext] at h
    cases h
    rfl
  | ok text =>
    simp only [htext] at h
    obtain ⟨⟨q, refused?⟩, -, h⟩ := exists_of_bind h
    cases refused? <;>
      · cases h
        rfl

/-- The prompt keeps one as its options ask, however it ends. A history that is given back is the
one that it began with, if no line is noted. -/
theorem converse_history {η : Type} {note : η → String → η} {history : η}
    {lines : List (Option String)} {history? : Option η}
    (h : converse note options lines history p = .ok (outcome, history?)) :
    outcome.keepsHistory = options.history ∧
      ((∀ history line, note history line = history) →
        ∀ left, history? = some left → left = history) := by
  induction lines generalizing history p with
  | nil =>
    cases h
    exact ⟨rfl, fun _ left hleft => (Option.some.inj hleft).symm⟩
  | cons line lines ih =>
    cases line with
    | none =>
      cases h
      exact ⟨rfl, fun _ left hleft => by cases hleft⟩
    | some line =>
      rw [converse] at h
      split at h
      · cases h
        refine ⟨rfl, fun hnote left hleft => ?_⟩
        rw [← Option.some.inj hleft, hnote]
      · obtain ⟨⟨q, refused?⟩, -, h⟩ := exists_of_bind h
        cases refused? with
        | some error =>
          cases h
          exact ⟨rfl, fun _ left hleft => by cases hleft⟩
        | none =>
          obtain ⟨hkeeps, hleft⟩ := ih h
          refine ⟨hkeeps, fun hnote left hl => ?_⟩
          rw [hleft hnote left hl, hnote]

/-- An outcome tells whether the run kept a history. -/
theorem run_keepsHistory (h : run disk streams arguments = .ok outcome) :
    outcome.keepsHistory = true ↔ KeepsHistory disk arguments := by
  unfold run at h
  rcases course_cases disk streams arguments with
    ⟨outcome', hcourse, hkeeps⟩ | ⟨options, path, p, hcourse⟩ | ⟨a, options, p, hcourse, -⟩
  · have hnot : ¬ KeepsHistory disk arguments := not_keepsHistory hcourse (by simp)
    simp only [hcourse] at h
    cases h
    simp [hkeeps, hnot]
  · have hnot : ¬ KeepsHistory disk arguments := not_keepsHistory hcourse (by simp)
    simp only [hcourse] at h
    simp [runScript_keepsHistory h, hnot]
  · rw [keepsHistory_of_prompt hcourse]
    simp only [hcourse, runPrompt] at h
    cases hsession : converse (fun history _ => history) options (Prompt.lines streams.input) ()
        p with
    | error fault => simp [hsession, Except.map] at h
    | ok ended =>
      simp only [hsession, Except.map] at h
      cases h
      rw [(converse_history hsession).1]

end

/-! ## The files of a run -/

/-- A step on the files, and what follows it if it does not end in a fault. -/
theorem OnFiles.run_bind {α β : Type} (x : OnFiles α) (next : α → OnFiles β) (tree : FileTree) :
    (x >>= next).run.run tree =
      match x.run.run tree with
      | (.ok a, left) => (next a).run.run left
      | (.error fault, left) => (.error fault, left) := by
  have hstep : (x >>= next).run.run tree =
      (ExceptT.bindCont next (x.run.run tree).1).run (x.run.run tree).2 := rfl
  rw [hstep]
  obtain ⟨answer, left⟩ := x.run.run tree
  cases answer <;> rfl

variable {η : Type} {editor : LineEditor η}

/-- The folder of the history is made before the history is loaded. -/
theorem LineEditor.begin_some {options : Options} {path folder : String}
    (hfolder : Path.parent? path = some folder) (tree : FileTree) :
    (editor.begin options (some path)).run.run tree =
      (.ok (editor.load (editor.start options.maxHistorySize options.history)
        ((tree.makeFolders (Path.ancestors folder)).1.disk.read path)),
        (tree.makeFolders (Path.ancestors folder)).1) := by
  unfold begin
  simp only [hfolder]
  rfl

/-- A session that is saved at the end, where no line is noted and to save the history that it
begins with changes nothing. -/
theorem session_eq {note : η → String → η} {history : η} {path? : Option String}
    (hnote : ∀ history line, note history line = history)
    (hsave : ∀ path tree, path? = some path → editor.save history path tree = tree)
    (options : Options) (lines : List (Option String)) (p : Printing) (tree : FileTree) :
    (do
      let (outcome, history?) ← converse note options lines history p
      editor.finish path? history?
      return outcome : OnFiles Outcome).run.run tree = (runPrompt options lines p, tree) := by
  rw [OnFiles.run_bind, ← converse_outcome note options lines history p]
  cases hsession : converse note options lines history p with
  | error fault => rfl
  | ok ended =>
    obtain ⟨outcome, history?⟩ := ended
    have hleft := (converse_history hsession).2 hnote
    cases path? with
    | none => rfl
    | some path =>
      cases history? with
      | none => rfl
      | some left =>
        obtain rfl := hleft left rfl
        have hsaved := hsave path tree rfl
        show (Except.ok outcome, editor.save left path tree) = (Except.ok outcome, tree)
        rw [hsaved]

/-- **The prompt on files**, where the input is no terminal. It has the outcome of the prompt
without files, and leaves the folder of the history if it is to keep one. -/
theorem runPromptIn_eq (hoff : editor.OffTerminal) (data : Option String) (streams : Streams)
    (options : Options) (p : Printing) (tree : FileTree) :
    (runPromptIn editor data streams options p).run.run tree =
      (runPrompt options (Prompt.lines streams.input) p,
        if options.history then (tree.makeFolders (Path.ancestors (historyFolder data))).1
        else tree) := by
  unfold runPromptIn
  cases options.history with
  | false =>
    exact session_eq hoff.read_eq (by simp) options _ p tree
  | true =>
    simp only [if_true]
    rw [OnFiles.run_bind, LineEditor.begin_some (parent?_historyFile data)]
    exact session_eq hoff.read_eq (fun _ _ _ => hoff.save_loaded _ _ _ _ _) options _ p _

open Classical in
/-- **A run with the files as its state** has the outcome of `run`, and makes the folder of its
history if it keeps one. -/
theorem runIn_eq (hoff : editor.OffTerminal) (data : Option String) (tree : FileTree)
    (streams : Streams) (arguments : List String) :
    (runIn editor data streams arguments).run.run tree = (run tree.disk streams arguments,
      if KeepsHistory tree.disk arguments then
        (tree.makeFolders (Path.ancestors (historyFolder data))).1 else tree) := by
  have hget : (get : OnFiles FileTree).run.run tree = (.ok tree, tree) := rfl
  unfold runIn run
  rw [OnFiles.run_bind, hget]
  cases hcourse : Course.ofArguments tree.disk streams arguments with
  | ended outcome =>
    have hnot : ¬ KeepsHistory tree.disk arguments := not_keepsHistory hcourse (by simp)
    simp only [hcourse, if_neg hnot]
    rfl
  | script options path p =>
    have hnot : ¬ KeepsHistory tree.disk arguments := not_keepsHistory hcourse (by simp)
    simp only [hcourse, if_neg hnot]
    rfl
  | prompt options p =>
    simp only [hcourse, runPromptIn_eq hoff, keepsHistory_of_prompt hcourse]

/-- **What a run leaves of a tree of files**, whatever its outcome, where the input is no terminal:
all that was there, and no more than folders where the path to the one of its history, or a path
above that, leads to. Only a run that comes to the prompt with a history to keep makes them. It makes
as many as the system lets it, and unless that fails the folder of the history is there. -/
theorem run_leaves_files {η : Type} (editor : LineEditor η) (hoff : editor.OffTerminal)
    (data : Option String) (tree : FileTree) (streams : Streams) (arguments : List String) :
    ∃ left, (runIn editor data streams arguments).run.run tree =
        (run tree.disk streams arguments, left) ∧
      tree.Grown (left.LedBy (Path.ancestors (historyFolder data))) left ∧
      (∀ path entry, tree.resolve path = .ok entry → left.resolve path = .ok entry) ∧
      (∀ path content, tree.disk.read path = .ok content → left.disk.read path = .ok content) ∧
      (¬ KeepsHistory tree.disk arguments → left = tree) ∧
      (KeepsHistory tree.disk arguments → ∃ failure?,
        tree.makeFolders (Path.ancestors (historyFolder data)) = (left, failure?) ∧
        (failure? = none → left.isFolder (historyFolder data) = true)) ∧
      ∀ outcome, run tree.disk streams arguments = .ok outcome →
        (outcome.keepsHistory = true ↔ KeepsHistory tree.disk arguments) := by
  classical
  refine ⟨_, runIn_eq hoff data tree streams arguments, ?_⟩
  by_cases hkeeps : KeepsHistory tree.disk arguments
  · simp only [hkeeps, if_true]
    have hgrown := tree.grown_makeFolders (Path.ancestors (historyFolder data))
    refine ⟨hgrown, fun _ _ => hgrown.resolve_eq, fun _ _ => hgrown.read_eq,
      fun h => absurd trivial h, fun _ => ⟨_, rfl, ?_⟩, fun _ h => ?_⟩
    · obtain ⟨above, habove⟩ := Path.exists_ancestors_eq (historyFolder data)
      rw [habove]
      exact FileTree.isFolder_of_makeFolders (historyFolder_ne_empty data)
    · simpa [hkeeps] using run_keepsHistory h
  · simp only [hkeeps, if_false]
    exact ⟨.refl _ _, fun _ _ h => h, fun _ _ h => h, fun _ => trivial,
      fun h => absurd h id, fun _ h => by simpa [hkeeps] using run_keepsHistory h⟩

theorem LineEditor.piped_offTerminal : LineEditor.piped.OffTerminal :=
  ⟨fun _ _ => rfl, fun _ _ _ _ _ => rfl⟩

/-- A run without arguments and lines, where the folder for the data of the user is missing too and
nothing can be made in it once it is there. -/
theorem run_leaves_files_refused :
    let denied : FileError := .other "Permission denied (os error 13)"
    let tree : FileTree := ⟨[(["home", "a"], .file "x".toUTF8)], ["home"], fun access place =>
      if access = .make ∧ place = ["home", "data"] then some denied else none⟩
    LineEditor.piped.OffTerminal ∧
      ∃ left, (runIn LineEditor.piped (some "/home/data") ⟨"".toUTF8, none, false⟩ []).run.run tree =
          (.ok ⟨0, "", "", true⟩, left) ∧
        tree.makeFolders ["/home/data/cream-cheese", "/home/data", "/home", "/"] =
          (left, some denied) ∧
        left.isFolder "/home/data" = true ∧ left.isFolder "/home/data/cream-cheese" = false ∧
        left.disk.read "a" = .ok "x".toUTF8 := by
  intro denied tree
  have hpaths : Path.ancestors (historyFolder (some "/home/data")) =
      ["/home/data/cream-cheese", "/home/data", "/home", "/"] := by
    have hcheese : Path.parent? (historyFolder (some "/home/data")) = some "/home/data" := by
      decide +kernel
    have hdata : Path.parent? "/home/data" = some "/home" := by decide +kernel
    have hhome : Path.parent? "/home" = some "/" := by decide +kernel
    have hroot : Path.parent? "/" = none := by decide +kernel
    rw [Path.ancestors_of_some hcheese, Path.ancestors_of_some hdata,
      Path.ancestors_of_some hhome, Path.ancestors_of_none hroot]
    rfl
  have hkeeps : KeepsHistory tree.disk [] :=
    ⟨.empty, .default, by decide +kernel, rfl, by decide +kernel, rfl⟩
  have houtcome : run tree.disk ⟨"".toUTF8, none, false⟩ [] = .ok ⟨0, "", "", true⟩ := by
    decide +kernel
  obtain ⟨left, hrun, -, -, hread, -, hmade, -⟩ := run_leaves_files LineEditor.piped
    LineEditor.piped_offTerminal (some "/home/data") tree ⟨"".toUTF8, none, false⟩ []
  obtain ⟨failure?, hmade, -⟩ := hmade hkeeps
  rw [hpaths] at hmade
  rw [houtcome] at hrun
  have hleft : left =
      (tree.makeFolders ["/home/data/cream-cheese", "/home/data", "/home", "/"]).1 := by
    rw [hmade]
  have hfailure : (tree.makeFolders ["/home/data/cream-cheese", "/home/data", "/home", "/"]).2 =
      some denied := by decide +kernel
  refine ⟨LineEditor.piped_offTerminal, left, hrun, ?_, ?_, ?_, ?_⟩
  · rw [hleft, ← hfailure]
  · rw [hleft]
    decide +kernel
  · rw [hleft]
    decide +kernel
  · exact hread _ _ (by decide +kernel)

end ScriptLexer
