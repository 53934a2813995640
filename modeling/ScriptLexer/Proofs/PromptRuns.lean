import ScriptLexer.Proofs.LineNumbers
import ScriptLexer.Proofs.Printing
import ScriptLexer.Proofs.PromptLines
import ScriptLexer.Proofs.ScriptRuns

/-!
# Runs of the prompt

A session scans its lines one by one, up to the first blank one. All lines share a console, of which
only the flag is reset, so the session prints and shows what scans of its lines by themselves give,
one behind another.

* `Prompt.kept`: the lines that are scanned.
* `Prompt.ReadsAsWritten`: what is assumed of the reader of lines.
* `Prompt.kept_append`: they end in front of a blank line.
* `scanAlone_lines`: a line by itself is all on the first line.
* `runPrompt_eq`: a session is its lines, each scanned by itself.
* `prompt_session`: the outcome of a run of the prompt.
-/

namespace ScriptLexer

/-! ## The lines that are scanned -/

/-- The lines of a text that the prompt scans: those in front of the first blank one, with their
backspaces applied. -/
def Prompt.kept (text : String) : List String :=
  ((textLines text.toList).map fun line => edit (.ofList line)).takeWhile
    fun line => !Blank.isBlank line

/-- What is assumed of the reader of lines: it gives the lines of a text as they are. The one of the
prompt applies backspaces, so it does this to every text without them. -/
def Prompt.ReadsAsWritten (text : String) : Prop :=
  ∀ line ∈ textLines text.toList, edit (.ofList line) = .ofList line

theorem Prompt.readsAsWritten {text : String} (h : backspace ∉ text.toList) :
    ReadsAsWritten text := by
  intro line hline
  apply edit_eq_self
  rw [String.toList_ofList]
  exact fun hmem => h (subset_of_mem_textLines hline hmem)

/-- Lines that are read as they are written are scanned as they are written. -/
theorem Prompt.ReadsAsWritten.kept_eq {text : String} (h : ReadsAsWritten text) : kept text =
    ((textLines text.toList).map String.ofList).takeWhile fun line => !Blank.isBlank line := by
  rw [kept, List.map_congr_left h]

/-- Nothing is scanned from a blank line on. -/
theorem Prompt.kept_append {front rest : String}
    (hfront : front = "" ∨ front.toList.getLast? = some '\n')
    (hrest : ∀ line ∈ (textLines rest.toList).head?,
      Blank.isBlank (edit (.ofList line)) = true) : kept (front ++ rest) = kept front := by
  have hlines : textLines (front ++ rest).toList =
      textLines front.toList ++ textLines rest.toList := by
    rw [String.toList_append]
    rcases hfront with rfl | hlast
    · rfl
    · obtain ⟨closed, hclosed⟩ := List.getLast?_eq_some_iff.1 hlast
      rw [hclosed, List.append_assoc, List.singleton_append, textLines_append]
  have hnone : ((textLines rest.toList).map fun line => edit (.ofList line)).takeWhile
      (fun line => !Blank.isBlank line) = [] := by
    cases hrests : textLines rest.toList with
    | nil => rfl
    | cons line lines =>
      have hblank := hrest line (by rw [hrests]; rfl)
      rw [List.map_cons, List.takeWhile_cons_of_neg (by simp [hblank])]
  unfold kept
  rw [hlines, List.map_append, List.takeWhile_append, hnone, List.append_nil]
  split
  next hlen => exact ((List.takeWhile_prefix _).eq_of_length hlen).symm
  next => rfl

/-- A line that is scanned has no line feed. -/
theorem Prompt.lineFeed_notMem_kept {text line : String} (h : line ∈ kept text) :
    '\n' ∉ line.toList := by
  obtain ⟨raw, hraw, rfl⟩ := List.mem_map.1 (List.takeWhile_subset _ h)
  intro hmem
  have := mem_of_mem_edit hmem
  rw [String.toList_ofList] at this
  exact lineFeed_notMem_textLines hraw this

/-- The tokens and the diagnostics of a text without line feeds are on its first line. -/
theorem scanAlone_lines {text : String} (h : text.utf8ByteSize < UInt32.size)
    (hline : '\n' ∉ text.toList) : ∃ tokens diagnostics,
      scanAlone text = .ok (tokens, diagnostics) ∧ (∀ t ∈ tokens, t.line = 1) ∧
        ∀ d ∈ diagnostics, d.line = 1 := by
  refine ⟨_, _, scanAlone_eq h, ?_, ?_⟩
  · intro t ht
    obtain ⟨before, lexeme, after, htext, hb⟩ := exists_between h (List.mem_toArray.1 ht)
    rw [htext] at hline
    rw [hb.line, List.count_eq_zero.2 fun hmem => hline (List.mem_append_left _ hmem)]
  · intro d hd
    have hch := chained_lexemes text.toList
    rw [reported_placed fun _ => hch.reads_of_mem] at hd
    obtain ⟨x, hx, hxd⟩ := List.mem_filterMap.1 hd
    obtain ⟨before, after, htext, hstart, -⟩ := (tiles_regionsOf text.toList).mem_split hx
    rw [htext, ← List.append_assoc] at hline
    rw [x.line_of_diagnostic? hxd, Region.stop, hstart, ← Place.after_append, Place.after_line,
      Text.newlines, List.count_eq_zero.2 fun hmem => hline (List.mem_append_left _ hmem)]
    rfl

/-- Scans of such texts give all their tokens and diagnostics. -/
theorem mapM_scanAlone {lines : List String} (h : ∀ line ∈ lines, line.utf8ByteSize < UInt32.size)
    (hlines : ∀ line ∈ lines, '\n' ∉ line.toList) : ∃ scans, lines.mapM scanAlone = .ok scans ∧
      ∀ scan ∈ scans, (∀ t ∈ scan.1, t.line = 1) ∧ ∀ d ∈ scan.2, d.line = 1 := by
  induction lines with
  | nil => exact ⟨[], rfl, by simp⟩
  | cons line lines ih =>
    rw [List.forall_mem_cons] at h hlines
    obtain ⟨tokens, diagnostics, hscan, htokens, hdiagnostics⟩ := scanAlone_lines h.1 hlines.1
    obtain ⟨scans, hscans, hrest⟩ := ih h.2 hlines.2
    refine ⟨(tokens, diagnostics) :: scans, ?_, ?_⟩
    · rw [List.mapM_cons, hscan, hscans]
      rfl
    · exact List.forall_mem_cons.2 ⟨⟨htokens, hdiagnostics⟩, hrest⟩

/-! ## A session -/

/-- A reset takes nothing back but the flag. -/
theorem Console.reset_mk (colored : Bool) (sink : Sink) (flagged : Bool) :
    Reporter.reset (⟨colored, sink, flagged⟩ : Console) = ⟨colored, sink, false⟩ :=
  rfl

/-- A session has the same outcome whatever history is kept of it. -/
theorem converse_outcome {η : Type} (note : η → String → η) (options : Options)
    (lines : List (Option String)) (history : η) (p : Printing) :
    (converse note options lines history p).map (·.1) = runPrompt options lines p := by
  unfold runPrompt
  induction lines generalizing history p with
  | nil => rfl
  | cons line lines ih =>
    cases line with
    | none => rfl
    | some line =>
      rw [converse, converse]
      by_cases hblank : Blank.isBlank line = true
      · rw [if_pos hblank, if_pos hblank]
        rfl
      · rw [if_neg hblank, if_neg hblank]
        cases p.scanText options.tokenFormat line with
        | error fault => rfl
        | ok printed =>
          obtain ⟨q, refused?⟩ := printed
          cases refused? with
          | some error => rfl
          | none => exact ih (note history line) { q with console := Reporter.reset q.console }

/-- **A session is its lines, each scanned by itself.** The first fault of a scan ends it. -/
theorem runPrompt_eq (options : Options) (lines : List String) {p : Printing}
    (hout : p.output.refusal? = none) (herr : p.console.sink.accepts = true) :
    runPrompt options (lines.map some) p =
      ((lines.takeWhile fun line => !Blank.isBlank line).mapM scanAlone).map fun scans =>
        ⟨0, p.output.written ++
            String.join (scans.map fun scan => options.tokenFormat.dump scan.1),
          p.console.sink.written ++
            String.join (scans.map fun scan => shownAll p.console.colored scan.2),
          options.history⟩ := by
  unfold runPrompt
  induction lines generalizing p with
  | nil => simp [converse, Printing.finish, Except.map, pure, Except.pure]
  | cons line lines ih =>
    rw [List.map_cons, converse]
    by_cases hblank : Blank.isBlank line = true
    · rw [if_pos hblank, List.takeWhile_cons_of_neg (by simp [hblank])]
      simp [Printing.finish, Except.map, pure, Except.pure]
    · -- a line that is scanned: the rest is a session of its own
      rw [if_neg hblank, List.takeWhile_cons_of_pos (by simp [hblank]), List.mapM_cons,
        Printing.scanText_eq hout herr]
      cases hscan : scanAlone line with
      | error fault => rfl
      | ok scan =>
        -- the console forgets its flag, and the next line starts behind what was printed and shown
        have hnext := @ih ⟨⟨none, p.output.written ++ options.tokenFormat.dump scan.1⟩,
          ⟨p.console.colored, ⟨true, p.console.sink.written ++ shownAll p.console.colored scan.2⟩,
            false⟩⟩ rfl rfl
        simp only [Except.map, bind, Except.bind, Console.reset_mk] at hnext ⊢
        rw [hnext]
        cases (lines.takeWhile fun line => !Blank.isBlank line).mapM scanAlone with
        | error fault => rfl
        | ok scans =>
          simp [pure, Except.pure, String.append_assoc]

/-- A run of the prompt, by the lines that it scans. -/
theorem run_prompt {disk : Disk} {arguments : List String} {a : Arguments} {options : Options}
    (shown : Bool) (h : Request.ofArguments arguments = .run a) (hscripts : a.scripts = [])
    (hoptions : a.options disk = .ok options) (text : String) :
    run disk ⟨text.toUTF8, none, shown⟩ arguments =
      ((Prompt.kept text).mapM scanAlone).map fun scans =>
        ⟨0, String.join (scans.map fun scan => options.tokenFormat.dump scan.1),
          String.join (scans.map fun scan => shownAll (options.color.getD shown) scan.2),
          options.history⟩ := by
  have hlines : Prompt.lines text.toUTF8 =
      ((Prompt.textLines text.toList).map fun line => Prompt.edit (.ofList line)).map some := by
    rw [Prompt.lines_toUTF8, List.map_map]
    rfl
  have hsession := runPrompt_eq options
    ((Prompt.textLines text.toList).map fun line => Prompt.edit (.ofList line))
    (p := ⟨⟨none, ""⟩, .fresh (options.color.getD shown) true⟩) rfl rfl
  simp only [Console.fresh, String.empty_append] at hsession
  rw [run, course_of_request h, Arguments.course_of_prompt hoptions hscripts]
  simp only [hlines, Console.fresh, hsession]
  rfl

/-- **The outcome of a run of the prompt**, for arguments without a script and usable settings. It
prints and shows what scans of its lines by themselves give, one behind another, and ends with exit
code zero; it faults only if one of these scans does. Lines whose positions fit 32 bits do not
fault, and all that is printed and shown of them is on line one. The lines are those of the text if
it is read as it is written, as it is without backspaces, and from the first blank line on the text
may be cut off. -/
theorem prompt_session (disk : Disk) (text : String) (shown : Bool) (arguments : List String)
    (a : Arguments) (options : Options) (h : Request.ofArguments arguments = .run a)
    (hscripts : a.scripts = []) (hoptions : a.options disk = .ok options) :
    run disk ⟨text.toUTF8, none, shown⟩ arguments =
      ((Prompt.kept text).mapM scanAlone).map (fun scans =>
        ⟨0, String.join (scans.map fun scan => options.tokenFormat.dump scan.1),
          String.join (scans.map fun scan => shownAll (options.color.getD shown) scan.2),
          options.history⟩) ∧
    ((∀ line ∈ Prompt.kept text, line.utf8ByteSize < UInt32.size) →
      ∃ scans, (Prompt.kept text).mapM scanAlone = .ok scans ∧
        ∀ scan ∈ scans, (∀ t ∈ scan.1, t.line = 1) ∧ ∀ d ∈ scan.2, d.line = 1) ∧
    (Prompt.ReadsAsWritten text → Prompt.kept text =
      ((Prompt.textLines text.toList).map String.ofList).takeWhile
        fun line => !Blank.isBlank line) ∧
    (Prompt.backspace ∉ text.toList → Prompt.ReadsAsWritten text) ∧
    ∀ front rest, text = front ++ rest → (front = "" ∨ front.toList.getLast? = some '\n') →
      (∀ line ∈ (Prompt.textLines rest.toList).head?,
        Blank.isBlank (Prompt.edit (.ofList line)) = true) →
      run disk ⟨front.toUTF8, none, shown⟩ arguments =
        run disk ⟨text.toUTF8, none, shown⟩ arguments := by
  have hrun := run_prompt shown h hscripts hoptions
  refine ⟨hrun text, ?_, Prompt.ReadsAsWritten.kept_eq, Prompt.readsAsWritten, ?_⟩
  · intro hsize
    exact mapM_scanAlone hsize fun _ => Prompt.lineFeed_notMem_kept
  · intro front rest htext hfront hrest
    rw [hrun, hrun, htext, Prompt.kept_append hfront hrest]

/-- A session with a string left open, a line closed by a carriage return and a line feed, a blank
line and one behind it. -/
theorem prompt_session_until_blank :
    run (Disk.ofContents []) ⟨"\"a\nb\r\n\t\n@".toUTF8, none, false⟩ [] =
      .ok ⟨0, "EOF  null\nIDENTIFIER b null\nEOF  null\n",
        "[line 1] Error: Unterminated string.\n", true⟩ := by
  obtain ⟨hrun, -, hkept, hread, -⟩ := prompt_session (Disk.ofContents []) "\"a\nb\r\n\t\n@" false []
    Arguments.empty .default (by decide +kernel) rfl (by decide +kernel)
  have hlines : Prompt.kept "\"a\nb\r\n\t\n@" = ["\"a", "b"] := by
    rw [hkept (hread (by decide))]
    decide +kernel
  have hopen : lexemes "\"a".toList = [⟨['"', 'a'], .rejected .unterminatedString⟩] :=
    lexemes_eq_iff.2 ⟨rfl, .unterminated (by decide), trivial⟩
  have hword : lexemes "b".toList = [⟨['b'], .token (.plain .identifier)⟩] :=
    lexemes_eq_iff.2 ⟨rfl, .word rfl (by simp) (Text.stops_nil _), trivial⟩
  rw [hrun, hlines, List.mapM_cons, List.mapM_cons, scanAlone_eq (by decide),
    scanAlone_eq (by decide), scanned, scanned, hopen, hword]
  rfl

end ScriptLexer
