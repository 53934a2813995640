import ScriptLexer.Proofs.Printing

/-!
# Runs of a script

A run of one script needs its settings, then the script, then an output that takes the tokens one by
one. The first of these that fails ends it with one exit code: a missing input before anything is
printed, a token that the output refuses behind those before it. A run that has them all prints
every token, and its exit code tells whether there was a finding. More than one script is refused
before anything is looked at.

* `Arguments.course_of_many` and its sisters: where arguments lead.
* `Arguments.SettingsUnusable`: there is a settings file, but it gives no settings.
* `Streams.Refuse`: the output comes to refuse a part of the dump of a text.
* `ScriptRun`: how a run of one script can go, and its outcome.
* `ScriptRun.exists_outcome`, `ScriptRun.run_eq`: every run goes in one of these ways.
* `script_run_outcome`: the exit code and what is written.
-/

namespace ScriptLexer

/-! ## Where arguments lead -/

/-- A run leads where its arguments do, unless they are wrong or ask for something else. -/
theorem course_of_request {disk : Disk} {streams : Streams} {arguments : List String}
    {a : Arguments} (h : Request.ofArguments arguments = .run a) :
    Course.ofArguments disk streams arguments = a.course disk streams := by
  simp only [Course.ofArguments, h]

namespace Arguments

variable {disk : Disk} {streams : Streams} {a : Arguments}

theorem course_of_many (h : 1 < a.scripts.length) :
    a.course disk streams = .ended ⟨Outcome.usage, "", usageText, false⟩ := by
  rw [course, if_pos h]

theorem course_of_unsettled (h : ¬ 1 < a.scripts.length) {failure : LoadFailure}
    (hoptions : a.options disk = .error failure) : a.course disk streams =
      .ended ⟨RunFailure.exitCode, "", (RunFailure.settings failure).report, false⟩ := by
  rw [course, if_neg h]
  simp only [hoptions, Printing.fail, Console.fresh, String.empty_append]

variable {options : Options} (hoptions : a.options disk = .ok options)
include hoptions

theorem course_of_script {path : String} (h : a.scripts = [path]) : a.course disk streams =
    .script options path ⟨⟨streams.refusal?, ""⟩,
      .fresh (options.color.getD streams.errorsShown) true⟩ := by
  have hscript : a.script? = some path := by simp [script?, h]
  rw [course, if_neg (by simp [h])]
  simp only [hoptions, hscript]

theorem course_of_prompt (h : a.scripts = []) : a.course disk streams =
    .prompt options ⟨⟨streams.refusal?, ""⟩,
      .fresh (options.color.getD streams.errorsShown) true⟩ := by
  have hscript : a.script? = none := by simp [script?, h]
  rw [course, if_neg (by simp [h])]
  simp only [hoptions, hscript]

end Arguments

/-! ## What a run needs -/

/-- A run has a settings file that cannot be read as text, or whose text gives no settings. -/
def Arguments.SettingsUnusable (disk : Disk) (a : Arguments) : Prop :=
  ∃ file, a.settingsFile? disk = some file ∧
    ∀ text, disk.readText file = .ok text → ∃ failure, Settings.read text = .error failure

theorem Arguments.options_error_iff {disk : Disk} {a : Arguments} :
    (∃ failure, a.options disk = .error failure) ↔ a.SettingsUnusable disk := by
  unfold options SettingsUnusable
  cases a.settingsFile? disk with
  | none => simp
  | some file =>
    cases htext : disk.readText file with
    | error error => simp [Except.map, Settings.load_of_unreadable htext, htext]
    | ok text =>
      cases hread : Settings.read text with
      | error failure => simp [Except.map, Settings.load_of_invalid htext hread, htext, hread]
      | ok s => simp [Except.map, Settings.load_of_read htext hread, htext, hread]

/-- The format and the log have no part in what can be wrong with the options, nor in the colour. -/
theorem Arguments.options_with (disk : Disk) (a : Arguments) (format : Option TokenFormat)
    (verbose : Bool) :
    (∀ failure, a.options disk = .error failure →
      options disk { a with format := format, verbose := verbose } = .error failure) ∧
    ∀ o, a.options disk = .ok o → ∃ o',
      options disk { a with format := format, verbose := verbose } = .ok o' ∧
        o'.color = o.color := by
  have hfile : settingsFile? disk { a with format := format, verbose := verbose } =
      a.settingsFile? disk := rfl
  unfold options
  rw [hfile]
  cases a.settingsFile? disk with
  | none => simp [override]
  | some file => cases hload : Settings.load disk file <;> simp [hload, Except.map, override]

/-- An output comes to refuse a part of the dump of a text: one of its tokens, or to be flushed
behind the last one. -/
def Streams.Refuse (streams : Streams) (text : String) : Prop :=
  ∃ r tokens diagnostics, streams.refusal? = some r ∧
    scanAlone text = .ok (tokens, diagnostics) ∧ r.granted ≤ tokens.size

/-- How a run of one script goes: what fails first ends it. -/
inductive ScriptRun (disk : Disk) (streams : Streams) (a : Arguments) (path : String) :
    Outcome → Prop
  | unsettled {failure : LoadFailure} (hoptions : a.options disk = .error failure) :
    ScriptRun disk streams a path
      ⟨RunFailure.exitCode, "", (RunFailure.settings failure).report, false⟩
  | unread {options : Options} {error : FileError} (hoptions : a.options disk = .ok options)
      (htext : disk.readText path = .error error) :
    ScriptRun disk streams a path
      ⟨RunFailure.exitCode, "", (RunFailure.script path error).report, false⟩
  | refused {options : Options} {text : String} {tokens : Array Token}
      {diagnostics : List Diagnostic} {r : Output.Refusal} {given : List (Option Token)}
      {s : Scanner Collection} (hoptions : a.options disk = .ok options)
      (htext : disk.readText path = .ok text)
      (hscan : scanAlone text = .ok (tokens, diagnostics)) (hout : streams.refusal? = some r)
      (hr : r.granted ≤ tokens.size)
      (hpull : (Scanner.ofText text Collection.empty).pull (r.granted + 1) = .ok (given, s)) :
    ScriptRun disk streams a path ⟨RunFailure.exitCode,
      options.tokenFormat.dump (tokens.take r.granted) ++
        r.beginning (tokens[r.granted]?.elim "" options.tokenFormat.entry),
      shownAll (options.color.getD streams.errorsShown) s.reporter.entries.toList ++
        (RunFailure.output r.error).report, false⟩
  | printed {options : Options} {text : String} {tokens : Array Token}
      {diagnostics : List Diagnostic} (hoptions : a.options disk = .ok options)
      (htext : disk.readText path = .ok text)
      (hscan : scanAlone text = .ok (tokens, diagnostics))
      (hout : ∀ r, streams.refusal? = some r → tokens.size < r.granted) :
    ScriptRun disk streams a path ⟨if diagnostics = [] then 0 else Outcome.dataError,
      options.tokenFormat.dump tokens,
      shownAll (options.color.getD streams.errorsShown) diagnostics, false⟩

namespace ScriptRun

variable {disk : Disk} {streams : Streams} {a : Arguments} {path : String} {outcome : Outcome}

theorem exists_outcome (disk : Disk) (streams : Streams) (a : Arguments) (path : String)
    (hsize : ∀ text, disk.readText path = .ok text → text.utf8ByteSize < UInt32.size) :
    ∃ outcome, ScriptRun disk streams a path outcome := by
  cases hoptions : a.options disk with
  | error failure => exact ⟨_, .unsettled hoptions⟩
  | ok options =>
    cases htext : disk.readText path with
    | error error => exact ⟨_, .unread hoptions htext⟩
    | ok text =>
      have hfits := hsize text htext
      have hscan := scanAlone_eq hfits
      cases hout : streams.refusal? with
      | none => exact ⟨_, .printed hoptions htext hscan (by simp [hout])⟩
      | some r =>
        rcases Nat.lt_or_ge (scanned text.toList).toArray.size r.granted with hlt | hle
        · refine ⟨_, .printed hoptions htext hscan fun r' hr' => ?_⟩
          rw [hout] at hr'
          cases hr'
          exact hlt
        · exact ⟨_, .refused hoptions htext hscan hout hle (pull_ofText hfits _ _)⟩

/-- A script that is printed as a whole. -/
theorem printed_eq {options : Options} {text : String} {tokens : Array Token}
    {diagnostics : List Diagnostic} {refusal? : Option Output.Refusal} {colored : Bool}
    (hfits : text.utf8ByteSize < UInt32.size) (htext : disk.readText path = .ok text)
    (hscan : scanAlone text = .ok (tokens, diagnostics))
    (hout : ∀ r, refusal? = some r → tokens.size < r.granted) :
    runScript disk options path ⟨⟨refusal?, ""⟩, .fresh colored true⟩ =
      .ok ⟨if diagnostics = [] then 0 else Outcome.dataError, options.tokenFormat.dump tokens,
        shownAll colored diagnostics, false⟩ := by
  have hflag : (if (!diagnostics.isEmpty) = true then Outcome.dataError else 0) =
      if diagnostics = [] then 0 else Outcome.dataError := by
    by_cases hnone : diagnostics = [] <;> simp [hnone]
  have hprint : ∃ left, (Printing.mk ⟨refusal?, ""⟩ (.fresh colored true)).scanText
      options.tokenFormat text = .ok (⟨⟨left, options.tokenFormat.dump tokens⟩,
        ⟨colored, ⟨true, shownAll colored diagnostics⟩, !diagnostics.isEmpty⟩⟩, none) := by
    cases refusal? with
    | none =>
      have hall := Printing.scanText_eq (p := ⟨⟨none, ""⟩, .fresh colored true⟩) rfl rfl
        options.tokenFormat text
      rw [hscan] at hall
      exact ⟨none, by simpa [Console.fresh, Except.map] using hall⟩
    | some r =>
      obtain ⟨left, hall⟩ := Printing.scanText_granted hfits
        (p := ⟨⟨some r, ""⟩, .fresh colored true⟩) rfl rfl hscan (hout r rfl) options.tokenFormat
      exact ⟨_, by simpa [Console.fresh] using hall⟩
  obtain ⟨left, hprint⟩ := hprint
  simp only [runScript, htext, hprint, bind, Except.bind, Printing.finish, hflag]
  rfl

/-- **A run of one script** has one of the outcomes. -/
theorem run_eq {arguments : List String} (h : ScriptRun disk streams a path outcome)
    (hrequest : Request.ofArguments arguments = .run a) (hs : a.scripts = [path])
    (hsize : ∀ text, disk.readText path = .ok text → text.utf8ByteSize < UInt32.size) :
    run disk streams arguments = .ok outcome := by
  rw [run, course_of_request hrequest]
  -- the cases stand in the order in which a run meets the failures, so each knows what went well
  cases h with
  | unsettled hoptions => rw [Arguments.course_of_unsettled (by simp [hs]) hoptions]
  | unread hoptions htext =>
    rw [Arguments.course_of_script hoptions hs]
    simp only [runScript, htext, Printing.fail, Console.fresh, String.empty_append]
    rfl
  | @refused options text tokens diagnostics r given s hoptions htext hscan hout hr hpull =>
    obtain ⟨given', s', hpull', hprint⟩ := Printing.scanText_refused (hsize text htext)
      (p := ⟨⟨streams.refusal?, ""⟩, .fresh (options.color.getD streams.errorsShown) true⟩)
      hout rfl hscan hr options.tokenFormat
    cases hpull.symm.trans hpull'
    simp only [Console.showing, Console.fresh, String.empty_append] at hprint
    rw [Arguments.course_of_script hoptions hs]
    simp only [runScript, htext, Console.fresh, hprint, bind, Except.bind, Printing.fail]
    rfl
  | printed hoptions htext hscan hout =>
    rw [Arguments.course_of_script hoptions hs]
    exact printed_eq (hsize _ htext) htext hscan hout

/-- The exit code of a run that prints is not that of a failure. -/
theorem printed_code_ne (ds : List Diagnostic) :
    (if ds = [] then 0 else Outcome.dataError) ≠ 74 := by
  split <;> decide

/-- A run fails exactly if its settings cannot be used, the script is no text or the output refuses
a part of its dump. -/
theorem code_eq_iff (h : ScriptRun disk streams a path outcome) : outcome.code = 74 ↔
    a.SettingsUnusable disk ∨ (∀ text, disk.readText path ≠ .ok text) ∨
      ∃ text, disk.readText path = .ok text ∧ streams.Refuse text := by
  have hunusable : (∃ failure, a.options disk = .error failure) ↔ a.SettingsUnusable disk :=
    Arguments.options_error_iff
  cases h with
  | unsettled hoptions => exact iff_of_true rfl (.inl (hunusable.1 ⟨_, hoptions⟩))
  | unread hoptions htext =>
    refine iff_of_true rfl (.inr (.inl fun text ht => ?_))
    rw [htext] at ht
    cases ht
  | refused hoptions htext hscan hout hr hpull =>
    exact iff_of_true rfl (.inr (.inr ⟨_, htext, _, _, _, hout, hscan, hr⟩))
  | printed hoptions htext hscan hout =>
    refine iff_of_false ?_ ?_
    · exact printed_code_ne _
    · rintro (hsettings | hread | ⟨text, htext', r, tokens, diagnostics, hr, hscan', hle⟩)
      · obtain ⟨failure, hfail⟩ := hunusable.2 hsettings
        rw [hoptions] at hfail
        cases hfail
      · exact hread _ htext
      · cases htext.symm.trans htext'
        cases hscan.symm.trans hscan'
        exact absurd (hout r hr) (Nat.not_lt.2 hle)

/-- Nothing is printed in front of a failure to read what a run needs. -/
theorem output_of_unread (h : ScriptRun disk streams a path outcome)
    (hmissing : a.SettingsUnusable disk ∨ ∀ text, disk.readText path ≠ .ok text) :
    outcome.output = "" := by
  have hfound : ∀ {options text}, a.options disk = .ok options → disk.readText path ≠ .ok text := by
    intro options text hoptions htext
    rcases hmissing with hsettings | hread
    · obtain ⟨failure, hfail⟩ := Arguments.options_error_iff.2 hsettings
      rw [hoptions] at hfail
      cases hfail
    · exact hread text htext
  cases h with
  | unsettled hoptions => rfl
  | unread hoptions htext => rfl
  | refused hoptions htext hscan hout hr hpull => exact absurd htext (hfound hoptions)
  | printed hoptions htext hscan hout => exact absurd htext (hfound hoptions)

/-- To an output that takes what it gets nothing is printed in front of a failure. -/
theorem output_of_code (h : ScriptRun disk streams a path outcome) (hcode : outcome.code = 74)
    (hout : streams.refusal? = none) : outcome.output = "" := by
  refine h.output_of_unread ?_
  rcases h.code_eq_iff.1 hcode with hsettings | hread | ⟨text, -, r, tokens, diagnostics, hr, -⟩
  · exact .inl hsettings
  · exact .inr hread
  · rw [hout] at hr
    cases hr

/-- A run whose output refuses a part of the dump is cut short there. -/
theorem cut_of_refuse (h : ScriptRun disk streams a path outcome) {options : Options}
    {text : String} {tokens : Array Token} {diagnostics : List Diagnostic} {r : Output.Refusal}
    (hoptions : a.options disk = .ok options) (htext : disk.readText path = .ok text)
    (hscan : scanAlone text = .ok (tokens, diagnostics)) (hout : streams.refusal? = some r)
    (hr : r.granted ≤ tokens.size) :
    outcome.output = options.tokenFormat.dump (tokens.take r.granted) ++
      r.beginning (tokens[r.granted]?.elim "" options.tokenFormat.entry) ∧
    ∃ given s, (Scanner.ofText text Collection.empty).pull (r.granted + 1) = .ok (given, s) ∧
      outcome.errors =
        shownAll (options.color.getD streams.errorsShown) s.reporter.entries.toList ++
          (RunFailure.output r.error).report := by
  cases h with
  | unsettled hoptions' =>
    rw [hoptions] at hoptions'
    cases hoptions'
  | unread hoptions' htext' =>
    rw [htext] at htext'
    cases htext'
  | refused hoptions' htext' hscan' hout' hr' hpull =>
    cases hoptions.symm.trans hoptions'
    cases htext.symm.trans htext'
    cases hscan.symm.trans hscan'
    cases hout.symm.trans hout'
    exact ⟨rfl, _, _, hpull, rfl⟩
  | printed hoptions' htext' hscan' hout' =>
    cases htext.symm.trans htext'
    cases hscan.symm.trans hscan'
    exact absurd (hout' r hout) (Nat.not_lt.2 hr)

/-- A run that does not fail shows all that a scan of the script gives. -/
theorem printed_of_code (h : ScriptRun disk streams a path outcome) (hcode : outcome.code ≠ 74) :
    ∃ options text tokens diagnostics, a.options disk = .ok options ∧
      disk.readText path = .ok text ∧ scanAlone text = .ok (tokens, diagnostics) ∧
      outcome.code = (if diagnostics = [] then 0 else 65) ∧
      outcome.output = options.tokenFormat.dump tokens ∧
      outcome.errors = shownAll (options.color.getD streams.errorsShown) diagnostics := by
  cases h with
  | printed hoptions htext hscan hout =>
    exact ⟨_, _, _, _, hoptions, htext, hscan, rfl, rfl, rfl⟩
  | _ => exact absurd rfl hcode

/-- A run in another format, or with another log, ends with the same exit code and shows the same
findings. -/
theorem with_format (h : ScriptRun disk streams a path outcome) (format : Option TokenFormat)
    (verbose : Bool) : ∃ outcome',
      ScriptRun disk streams { a with format := format, verbose := verbose } path outcome' ∧
        outcome'.code = outcome.code ∧ outcome'.errors = outcome.errors := by
  obtain ⟨hfailed, hmade⟩ := a.options_with disk format verbose
  cases h with
  | unsettled hoptions => exact ⟨_, .unsettled (hfailed _ hoptions), rfl, rfl⟩
  | unread hoptions htext =>
    obtain ⟨o', ho', -⟩ := hmade _ hoptions
    exact ⟨_, .unread ho' htext, rfl, rfl⟩
  | refused hoptions htext hscan hout hr hpull =>
    obtain ⟨o', ho', hcolor⟩ := hmade _ hoptions
    exact ⟨_, .refused ho' htext hscan hout hr hpull, rfl, by rw [hcolor]⟩
  | printed hoptions htext hscan hout =>
    obtain ⟨o', ho', hcolor⟩ := hmade _ hoptions
    exact ⟨_, .printed ho' htext hscan hout, rfl, by rw [hcolor]⟩

end ScriptRun

/-- **The outcome of a run with a script.** More than one script is refused with the usage line,
whatever the disk holds. A run of one script fails exactly if its settings file cannot be read or
says something wrong, the script cannot be read as text, or the output refuses a token of it or to
be flushed. Nothing is printed in front of a failure to read; a refusal leaves the tokens before it.
Any other run prints the dump of a scan of the script in the format of its options and shows the
findings of that scan, and its exit code tells whether there was one. The format changes neither the
exit code nor what is shown. -/
theorem script_run_outcome (disk : Disk) (streams : Streams) (arguments : List String)
    (a : Arguments) (h : Request.ofArguments arguments = .run a)
    (hsize : ∀ path ∈ a.scripts, ∀ text, disk.readText path = .ok text →
      text.utf8ByteSize < UInt32.size) :
    (1 < a.scripts.length →
      run disk streams arguments = .ok ⟨64, "", "Usage: cream-cheese [script]\n", false⟩) ∧
    ∀ path, a.scripts = [path] → ∃ outcome, run disk streams arguments = .ok outcome ∧
      (outcome.code = 74 ↔ a.SettingsUnusable disk ∨
        (∀ text, disk.readText path ≠ .ok text) ∨
        ∃ text, disk.readText path = .ok text ∧ streams.Refuse text) ∧
      (a.SettingsUnusable disk ∨ (∀ text, disk.readText path ≠ .ok text) →
        outcome.output = "") ∧
      (outcome.code = 74 → streams.refusal? = none → outcome.output = "") ∧
      (∀ options text tokens diagnostics r, a.options disk = .ok options →
        disk.readText path = .ok text → scanAlone text = .ok (tokens, diagnostics) →
        streams.refusal? = some r → r.granted ≤ tokens.size →
        outcome.output = options.tokenFormat.dump (tokens.take r.granted) ++
          r.beginning (tokens[r.granted]?.elim "" options.tokenFormat.entry) ∧
        ∃ given s, (Scanner.ofText text Collection.empty).pull (r.granted + 1) = .ok (given, s) ∧
          outcome.errors =
            shownAll (options.color.getD streams.errorsShown) s.reporter.entries.toList ++
              (RunFailure.output r.error).report) ∧
      (outcome.code ≠ 74 → ∃ options text tokens diagnostics, a.options disk = .ok options ∧
        disk.readText path = .ok text ∧ scanAlone text = .ok (tokens, diagnostics) ∧
        outcome.code = (if diagnostics = [] then 0 else 65) ∧
        outcome.output = options.tokenFormat.dump tokens ∧
        outcome.errors = shownAll (options.color.getD streams.errorsShown) diagnostics) ∧
      ∀ format verbose arguments',
        Request.ofArguments arguments' = .run { a with format := format, verbose := verbose } →
        ∃ outcome', run disk streams arguments' = .ok outcome' ∧ outcome'.code = outcome.code ∧
          outcome'.errors = outcome.errors := by
  refine ⟨?_, ?_⟩
  · intro hmany
    rw [run, course_of_request h, Arguments.course_of_many hmany]
    rfl
  · intro path hs
    have hfits : ∀ text, disk.readText path = .ok text → text.utf8ByteSize < UInt32.size :=
      hsize path (by simp [hs])
    obtain ⟨outcome, hrun⟩ := ScriptRun.exists_outcome disk streams a path hfits
    refine ⟨outcome, hrun.run_eq h hs hfits, hrun.code_eq_iff, hrun.output_of_unread,
      hrun.output_of_code, ?_, hrun.printed_of_code, ?_⟩
    · intro options text tokens diagnostics r hoptions htext hscan hout hr
      exact hrun.cut_of_refuse hoptions htext hscan hout hr
    · intro format verbose arguments' h'
      obtain ⟨outcome', hrun', hcode, herrors⟩ := hrun.with_format format verbose
      exact ⟨outcome', hrun'.run_eq h' hs hfits, hcode, herrors⟩

/-- A script with a finding, next to a settings file that asks for colour: printed as data, and as
text to an output that takes one token and two characters. -/
theorem script_run_outcome_colored :
    let disk := Disk.ofContents [("./cream.json", .ok "\x7b\"color\":true\x7d".toUTF8),
      ("x", .ok "@a".toUTF8)]
    (∃ outcome, run disk ⟨ByteArray.empty, none, false⟩ ["--format", "json", "x"] = .ok outcome ∧
      outcome.code = 65 ∧
      outcome.output =
        "\x7b\"lexeme\":\"a\",\"line\":1,\"literal\":null,\"type\":\"IDENTIFIER\"\x7d\n" ++
          "\x7b\"lexeme\":\"\",\"line\":1,\"literal\":null,\"type\":\"EOF\"\x7d\n" ∧
      outcome.errors = "\x1b[1m\x1b[31m[line 1] Error: Unexpected character.\x1b[0m\n") ∧
    ∃ outcome, run disk ⟨ByteArray.empty, some ⟨1, 2, .noSpace⟩, false⟩ ["x"] = .ok outcome ∧
      outcome.code = 74 ∧ outcome.output = "IDENTIFIER a null\nEO" ∧
      outcome.errors = "\x1b[1m\x1b[31m[line 1] Error: Unexpected character.\x1b[0m\n" ++
        (RunFailure.output .noSpace).report := by
  intro disk
  have htext : disk.readText "x" = .ok "@a" := by decide +kernel
  have hdata : Arguments.options disk ⟨["x"], none, some .json, false, false, false⟩ =
      .ok ⟨.json, some true, true, 1000⟩ := by decide +kernel
  have hplain : Arguments.options disk ⟨["x"], none, none, false, false, false⟩ =
      .ok ⟨.text, some true, true, 1000⟩ := by decide +kernel
  have hfits : "@a".utf8ByteSize < UInt32.size := by decide
  have hsize : ∀ path ∈ ["x"], ∀ text, disk.readText path = .ok text →
      text.utf8ByteSize < UInt32.size := by
    intro path hpath text ht
    obtain rfl := List.mem_singleton.1 hpath
    cases htext.symm.trans ht
    exact hfits
  have hl : lexemes "@a".toList = [⟨['@'], .rejected .unexpectedCharacter⟩,
      ⟨['a'], .token (.plain .identifier)⟩] :=
    lexemes_eq_iff.2 ⟨rfl, .unexpected stray_at, .word rfl (by simp) (Text.stops_nil _), trivial⟩
  have hscan := scanAlone_eq hfits
  rw [scanned, hl] at hscan
  refine ⟨?_, ?_⟩
  · obtain ⟨-, hone⟩ := script_run_outcome disk ⟨ByteArray.empty, none, false⟩
      ["--format", "json", "x"] ⟨["x"], none, some .json, false, false, false⟩ (by decide +kernel)
      hsize
    obtain ⟨outcome, hrun, hcode, -, -, -, hprinted, -⟩ := hone "x" rfl
    have hne : outcome.code ≠ 74 := by
      rw [Ne, hcode, ← Arguments.options_error_iff]
      rintro (⟨failure, hfail⟩ | hread | ⟨text, -, r, tokens, diagnostics, hr, -⟩)
      · cases hdata.symm.trans hfail
      · exact hread _ htext
      · cases hr
    obtain ⟨options, text, tokens, diagnostics, ho, ht, hs, hexit, houtput, herrors⟩ :=
      hprinted hne
    cases hdata.symm.trans ho
    cases htext.symm.trans ht
    cases hscan.symm.trans hs
    exact ⟨outcome, hrun, hexit, houtput, herrors⟩
  · obtain ⟨-, hone⟩ := script_run_outcome disk ⟨ByteArray.empty, some ⟨1, 2, .noSpace⟩, false⟩
      ["x"] ⟨["x"], none, none, false, false, false⟩ (by decide +kernel) hsize
    obtain ⟨outcome, hrun, hcode, -, -, hcut, -⟩ := hone "x" rfl
    obtain ⟨houtput, given, s, hpull, herrors⟩ :=
      hcut _ _ _ _ _ hplain htext hscan rfl (by decide)
    have hgiven := pull_ofText hfits Collection.empty 2
    rw [hl] at hgiven
    cases hgiven.symm.trans hpull
    exact ⟨outcome, hrun, hcode.2 (.inr (.inr ⟨_, htext, _, _, _, rfl, hscan, by decide⟩)), houtput,
      herrors⟩

end ScriptLexer
