import Mathlib.Data.List.DropRight
import ScriptLexer.Proofs.TokenPlaces

/-!
# Two reporters in step

A collection keeps the findings since the last reset and looks through them for errors; a console
writes each finding at once and raises a flag, whether or not its sink took the text. Nothing done
with a reporter depends on its answers, so both get the same calls, and after any number of steps
they say the same.

* `ReporterStep`, `ReporterStep.run`: what an owner does with a reporter.
* `CallLog`: a reporter that only writes its calls down.
* `ReporterStep.apply_eq`: a step is its calls, whatever the reporter.
* `InStep`: a collection and a console that have had the calls of a log.
* `reporters_agree`: they agree after every step.
-/

namespace ScriptLexer

/-! ## Calls -/

/-- What a reporter can be asked to do. -/
inductive ReporterCall
  | report (line : Nat) (location message : String)
  | reset
  deriving DecidableEq

/-- The diagnostic that a call brings. -/
def ReporterCall.diagnostic? : ReporterCall → Option Diagnostic
  | report line location message => some (.ofText line location message)
  | reset => none

namespace Reporter

variable {ρ : Type} [Reporter ρ]

/-- A reporter after a call. -/
def call (r : ρ) : ReporterCall → ρ
  | .report line location message => report r line location message
  | .reset => reset r

/-- A reporter after many calls, the first of the list first. -/
def replay (r : ρ) (calls : List ReporterCall) : ρ :=
  calls.foldl call r

@[simp] theorem replay_nil (r : ρ) : replay r [] = r := rfl

@[simp] theorem replay_cons (r : ρ) (c : ReporterCall) (calls : List ReporterCall) :
    replay r (c :: calls) = replay (call r c) calls := rfl

theorem replay_append (r : ρ) (calls more : List ReporterCall) :
    replay r (calls ++ more) = replay (replay r calls) more :=
  List.foldl_append

end Reporter

/-- What is reported is an error, whatever it says. -/
theorem Diagnostic.isError_ofText (line : Nat) (location message : String) :
    (ofText line location message).isError = true := by
  rw [isError, ofText_severity]
  rfl

/-- The call that hands a finding over. -/
def Finding.call (f : Finding) : ReporterCall :=
  .report f.line "" f.message.text

/-- Handing findings over is a row of calls. -/
theorem Scanner.report_eq_replay {ρ : Type} [Reporter ρ] (r : ρ) (fs : List Finding) :
    Scanner.report r fs = Reporter.replay r (fs.map Finding.call) := by
  rw [Scanner.report, Reporter.replay, List.foldl_map]
  rfl

/-- A reporter that only writes down its calls, the oldest first. -/
structure CallLog where
  calls : List ReporterCall

namespace CallLog

def empty : CallLog := ⟨[]⟩

/-- The diagnostics of the calls behind the last reset. -/
def reported (log : CallLog) : List Diagnostic :=
  (log.calls.rtakeWhile (· ≠ .reset)).filterMap ReporterCall.diagnostic?

instance : Reporter CallLog where
  report log line location message := ⟨log.calls ++ [.report line location message]⟩
  hadError log := !log.reported.isEmpty
  reset log := ⟨log.calls ++ [.reset]⟩

theorem reported_report (log : CallLog) (line : Nat) (location message : String) :
    (Reporter.call log (.report line location message)).reported =
      log.reported ++ [.ofText line location message] := by
  show ((log.calls ++ [ReporterCall.report line location message]).rtakeWhile _).filterMap _ = _
  rw [List.rtakeWhile_concat_pos _ _ _ (by simp), List.filterMap_append]
  rfl

theorem reported_reset (log : CallLog) : (Reporter.call log .reset).reported = [] := by
  show ((log.calls ++ [ReporterCall.reset]).rtakeWhile _).filterMap _ = []
  rw [List.rtakeWhile_concat_neg _ _ _ (by simp), List.filterMap_nil]

/-- Every diagnostic that was reported is an error. -/
theorem isError_of_mem_reported {log : CallLog} {d : Diagnostic} (h : d ∈ log.reported) :
    d.isError = true := by
  obtain ⟨c, -, hc⟩ := List.mem_filterMap.1 h
  cases c with
  | report line location message =>
    cases hc
    exact Diagnostic.isError_ofText line location message
  | reset => cases hc

end CallLog

/-! ## The console in closed form -/

/-- The line that a console writes for an error. -/
def Diagnostic.shown (colored : Bool) (d : Diagnostic) : String :=
  if colored then "\x1b[1m\x1b[31m" ++ d.text ++ "\x1b[0m\n" else d.text ++ "\n"

/-- The lines that a console writes for errors, one behind another. -/
def shownAll (colored : Bool) (ds : List Diagnostic) : String :=
  String.join (ds.map (Diagnostic.shown colored))

@[simp] theorem shownAll_nil (colored : Bool) : shownAll colored [] = "" := by
  simp [shownAll]

@[simp] theorem shownAll_append (colored : Bool) (ds es : List Diagnostic) :
    shownAll colored (ds ++ es) = shownAll colored ds ++ shownAll colored es := by
  simp [shownAll]

/-- What is reported is an error, so a console in colour shows it in red. -/
theorem Console.render_ofText (colored : Bool) (line : Nat) (location message : String) :
    render colored (.ofText line location message) =
      (Diagnostic.ofText line location message).shown colored := by
  rw [render, Diagnostic.shown, Diagnostic.isError_ofText]
  cases colored with
  | false => rfl
  | true =>
    simp only [if_true]
    rfl

/-- What a sink holds after a text was written to it. -/
theorem Sink.written_write (s : Sink) (text : String) :
    (s.write text).written = s.written ++ if s.accepts then text else "" := by
  unfold write
  by_cases h : s.accepts = true
  · rw [if_pos h, if_pos h]
  · rw [if_neg h, if_neg h, String.append_empty]

@[simp] theorem Sink.accepts_write (s : Sink) (text : String) :
    (s.write text).accepts = s.accepts := by
  unfold write
  split <;> rfl

namespace Console

@[simp] theorem colored_call (k : Console) (c : ReporterCall) :
    (Reporter.call k c).colored = k.colored := by
  cases c <;> rfl

@[simp] theorem accepts_call (k : Console) (c : ReporterCall) :
    (Reporter.call k c).sink.accepts = k.sink.accepts := by
  cases c with
  | report line location message => exact Sink.accepts_write _ _
  | reset => rfl

@[simp] theorem colored_replay (k : Console) (calls : List ReporterCall) :
    (Reporter.replay k calls).colored = k.colored := by
  induction calls generalizing k with
  | nil => rfl
  | cons c calls ih => rw [Reporter.replay_cons, ih, colored_call]

@[simp] theorem accepts_replay (k : Console) (calls : List ReporterCall) :
    (Reporter.replay k calls).sink.accepts = k.sink.accepts := by
  induction calls generalizing k with
  | nil => rfl
  | cons c calls ih => rw [Reporter.replay_cons, ih, accepts_call]

/-- A call adds the line of its diagnostic to what was written, and takes nothing back. -/
theorem written_call (k : Console) (c : ReporterCall) :
    (Reporter.call k c).sink.written =
      k.sink.written ++ if k.sink.accepts then shownAll k.colored c.diagnostic?.toList else "" := by
  cases c with
  | report line location message =>
    have hline := render_ofText k.colored line location message
    show (k.sink.write (render k.colored _)).written = _
    rw [Sink.written_write, hline]
    simp [shownAll, ReporterCall.diagnostic?]
  | reset => simp [ReporterCall.diagnostic?, Reporter.call, Reporter.reset]

/-- **What a console has written after some calls**: the lines of their diagnostics, if its sink
takes them. -/
theorem written_replay (k : Console) (calls : List ReporterCall) :
    (Reporter.replay k calls).sink.written = k.sink.written ++
      if k.sink.accepts then shownAll k.colored (calls.filterMap ReporterCall.diagnostic?)
      else "" := by
  induction calls generalizing k with
  | nil => simp
  | cons c calls ih =>
    rw [Reporter.replay_cons, ih, written_call, colored_call, accepts_call, List.filterMap_cons]
    by_cases h : k.sink.accepts = true
    · rw [if_pos h, if_pos h, if_pos h, String.append_assoc, ← shownAll_append]
      cases c.diagnostic? <;> rfl
    · simp [h]

end Console

/-! ## Steps -/

/-- What the owner of a reporter does with it. -/
inductive ReporterStep
  | report (line : Nat) (location message : String)
  | error (line : Nat) (message : String)
  | reset
  | scan (source : String)
  deriving DecidableEq

namespace ReporterStep

variable {ρ : Type} [Reporter ρ]

/-- What a step gives: tokens, where it is a scan, and the reporter after it. -/
def apply (r : ρ) : ReporterStep → Except Fault (Array Token × ρ)
  | report line location message => .ok (#[], Reporter.report r line location message)
  | error line message => .ok (#[], Reporter.error r line message)
  | reset => .ok (#[], Reporter.reset r)
  | scan source => do
    let (tokens, s) ← ScriptLexer.scan source r
    return (tokens, s.reporter)

/-- A reporter after many steps. -/
def run (r : ρ) : List ReporterStep → Except Fault ρ
  | [] => .ok r
  | step :: steps => do
    let (_, r) ← step.apply r
    run r steps

/-- The positions of a text that is scanned fit 32 bits. -/
def Fits : ReporterStep → Prop
  | scan source => source.utf8ByteSize < UInt32.size
  | _ => True

/-- The calls of a step. -/
def calls : ReporterStep → List ReporterCall
  | report line location message => [.report line location message]
  | error line message => [.report line "" message]
  | reset => [.reset]
  | scan source => (findingsAt .start (lexemes source.toList)).map Finding.call

/-- The tokens that a step gives. -/
def tokens : ReporterStep → Array Token
  | scan source => (scanned source.toList).toArray
  | _ => #[]

/-- **A step is its calls**, and its tokens are the same, whatever the reporter and its state. -/
theorem apply_eq {step : ReporterStep} (h : step.Fits) (r : ρ) :
    step.apply r = .ok (step.tokens, Reporter.replay r step.calls) := by
  cases step with
  | scan source =>
    rw [apply, scan_eq_scanned h r]
    simp only [bind, Except.bind, pure, Except.pure, Scanner.ended, Scanner.report_eq_replay]
    rfl
  | _ => rfl

/-- **A run is the calls of its steps**, one step behind another. -/
theorem run_eq {steps : List ReporterStep} (h : ∀ step ∈ steps, step.Fits) (r : ρ) :
    run r steps = .ok (Reporter.replay r (steps.flatMap calls)) := by
  induction steps generalizing r with
  | nil => rfl
  | cons step steps ih =>
    obtain ⟨hstep, hrest⟩ := List.forall_mem_cons.1 h
    simp only [run, apply_eq hstep, bind, Except.bind, ih hrest, List.flatMap_cons,
      Reporter.replay_append]

/-- A step that is no reset brings no reset. -/
theorem reset_notMem_calls {step : ReporterStep} (h : step ≠ .reset) : .reset ∉ step.calls := by
  cases step with
  | reset => exact absurd rfl h
  | scan source =>
    intro hmem
    obtain ⟨f, -, hf⟩ := List.mem_map.1 hmem
    cases hf
  | _ => simp [calls]

end ReporterStep

/-! ## A collection and a console -/

/-- A collection and a console that have had the calls of a log. -/
structure InStep (log : CallLog) (c : Collection) (k : Console) : Prop where
  entries : c.entries.toList = log.reported
  flagged : k.flagged = true ↔ log.reported ≠ []

theorem InStep.fresh (colored accepts : Bool) :
    InStep .empty .empty (.fresh colored accepts) :=
  ⟨rfl, by simp [Console.fresh, CallLog.empty, CallLog.reported]⟩

section

variable {log : CallLog} {c : Collection} {k : Console}

/-- **One call keeps them in step.** A report adds an entry and raises the flag; a reset clears the
entries and lowers the flag. -/
theorem InStep.call (h : InStep log c k) (call : ReporterCall) :
    InStep (Reporter.call log call) (Reporter.call c call) (Reporter.call k call) := by
  cases call with
  | report line location message =>
    have hentries : (Reporter.call c (.report line location message)).entries.toList =
        c.entries.toList ++ [.ofText line location message] := Array.toList_push
    have hflag : (Reporter.call k (.report line location message)).flagged = true := by
      show (k.flagged || (Diagnostic.ofText line location message).isError) = true
      rw [Diagnostic.isError_ofText, Bool.or_true]
    refine ⟨?_, ?_⟩
    · rw [hentries, h.entries, CallLog.reported_report]
    · rw [CallLog.reported_report]
      simp [hflag]
  | reset =>
    refine ⟨?_, ?_⟩
    · rw [CallLog.reported_reset]
      rfl
    · rw [CallLog.reported_reset]
      simp [Reporter.call, Reporter.reset]

theorem InStep.replay (h : InStep log c k) (calls : List ReporterCall) :
    InStep (Reporter.replay log calls) (Reporter.replay c calls) (Reporter.replay k calls) := by
  induction calls generalizing log c k with
  | nil => exact h
  | cons call calls ih => exact ih (h.call call)

/-- In step, both say whether a diagnostic was reported since the last reset: the collection because
each of its entries is an error. -/
theorem InStep.hadError_iff (h : InStep log c k) :
    Reporter.hadError c = true ↔ log.reported ≠ [] := by
  show c.hasErrors = true ↔ _
  rw [Collection.hasErrors, ← Array.any_toList, h.entries, List.any_eq_true]
  constructor
  · rintro ⟨d, hd, -⟩
    exact List.ne_nil_of_mem hd
  · intro hne
    obtain ⟨d, hd⟩ := List.exists_mem_of_ne_nil _ hne
    exact ⟨d, hd, CallLog.isError_of_mem_reported hd⟩

theorem InStep.hadError_eq (h : InStep log c k) : Reporter.hadError k = Reporter.hadError c := by
  rw [Bool.eq_iff_iff, h.hadError_iff]
  exact h.flagged

end

/-- Calls without a reset add their diagnostics to a collection. -/
theorem Collection.entries_replay {calls : List ReporterCall} (h : .reset ∉ calls)
    (c : Collection) : (Reporter.replay c calls).entries.toList =
      c.entries.toList ++ calls.filterMap ReporterCall.diagnostic? := by
  induction calls generalizing c with
  | nil => simp
  | cons call calls ih =>
    have hrest : .reset ∉ calls := fun hmem => h (List.mem_cons_of_mem call hmem)
    cases call with
    | reset => exact absurd List.mem_cons_self h
    | report line location message =>
      have hadd : (Reporter.call c (.report line location message)).entries.toList =
          c.entries.toList ++ [.ofText line location message] := Array.toList_push
      rw [Reporter.replay_cons, ih hrest, hadd, List.append_assoc]
      rfl

/-- A step adds the diagnostics of its calls to a collection, a reset after it was cleared. -/
theorem ReporterStep.entries_step (step : ReporterStep) (c : Collection) :
    (Reporter.replay c step.calls).entries.toList =
      (if step = .reset then [] else c.entries.toList) ++
        step.calls.filterMap ReporterCall.diagnostic? := by
  by_cases h : step = .reset
  · subst h
    rfl
  · rw [if_neg h, Collection.entries_replay (reset_notMem_calls h)]

/-- **A collection and a console agree after any steps.** Both say that an error was reported
exactly if something was since the last reset, and the collection holds just that. Whatever is done
next gives the same tokens with these two and with every other reporter; the collection, cleared by
a reset, gets some diagnostics, and a console whose sink takes texts writes their lines behind
everything that it wrote before. -/
theorem reporters_agree (colored accepts : Bool) (steps : List ReporterStep)
    (h : ∀ step ∈ steps, step.Fits) :
    ∃ log c k, ReporterStep.run CallLog.empty steps = .ok log ∧
      ReporterStep.run Collection.empty steps = .ok c ∧
      ReporterStep.run (Console.fresh colored accepts) steps = .ok k ∧
      Reporter.hadError k = Reporter.hadError c ∧
      (Reporter.hadError c = true ↔ log.reported ≠ []) ∧
      c.entries.toList = log.reported ∧
      ∀ step : ReporterStep, step.Fits → ∃ tokens added c' k',
        step.apply c = .ok (tokens, c') ∧ step.apply k = .ok (tokens, k') ∧
        (∀ (ρ : Type) [Reporter ρ] (r : ρ), ∃ r', step.apply r = .ok (tokens, r')) ∧
        c'.entries.toList = (if step = .reset then [] else c.entries.toList) ++ added ∧
        k'.sink.written = k.sink.written ++ if accepts then shownAll colored added else "" := by
  -- the log, the collection and the console get the same calls
  have hin := (InStep.fresh colored accepts).replay (steps.flatMap ReporterStep.calls)
  refine ⟨_, _, _, ReporterStep.run_eq h _, ReporterStep.run_eq h _, ReporterStep.run_eq h _,
    hin.hadError_eq, hin.hadError_iff, hin.entries, ?_⟩
  intro step hstep
  refine ⟨step.tokens, step.calls.filterMap ReporterCall.diagnostic?, _, _,
    ReporterStep.apply_eq hstep _, ReporterStep.apply_eq hstep _, ?_, step.entries_step _, ?_⟩
  · intro ρ _ r
    exact ⟨_, ReporterStep.apply_eq hstep r⟩
  · rw [Console.written_replay, Console.colored_replay, Console.accepts_replay]
    rfl

/-- A reset forgets the finding of the first scan, the late error and the last scan's finding are
kept, and the console has written all three. -/
theorem reporters_agree_after_reset :
    let steps : List ReporterStep := [.scan "@", .reset, .error 4 "Late."]
    ∃ c k c' k' tokens, ReporterStep.run Collection.empty steps = .ok c ∧
      ReporterStep.run (Console.fresh true true) steps = .ok k ∧ Reporter.hadError k = true ∧
      c.entries.toList = [⟨4, "", "Late.", 0, .error⟩] ∧
      (ReporterStep.scan "@").apply c = .ok (tokens, c') ∧
      (ReporterStep.scan "@").apply k = .ok (tokens, k') ∧
      k'.sink.written = k.sink.written ++
        "\x1b[1m\x1b[31m[line 1] Error: Unexpected character.\x1b[0m\n" := by
  intro steps
  have hfit : (ReporterStep.scan "@").Fits := by
    unfold ReporterStep.Fits
    decide
  have hfits : ∀ step ∈ steps, step.Fits := by
    simp only [steps, List.forall_mem_cons]
    exact ⟨hfit, trivial, trivial, by simp⟩
  have hscan : (ReporterStep.scan "@").calls = [.report 1 "" "Unexpected character."] := by
    have hl : lexemes "@".toList = [⟨['@'], .rejected .unexpectedCharacter⟩] :=
      lexemes_eq_iff.2 ⟨rfl, .unexpected stray_at, trivial⟩
    rw [ReporterStep.calls, hl]
    rfl
  have hlog : ReporterStep.run CallLog.empty steps = .ok ⟨[.report 1 "" "Unexpected character.",
      .reset, .report 4 "" "Late."]⟩ := by
    rw [ReporterStep.run_eq hfits]
    simp only [steps, List.flatMap_cons, hscan]
    rfl
  obtain ⟨log, c, k, hrun, hc, hk, heq, hiff, hentries, hnext⟩ :=
    reporters_agree true true steps hfits
  obtain ⟨tokens, added, c', k', hc', hk', -, hadded, hwritten⟩ :=
    hnext (.scan "@") hfit
  cases hlog.symm.trans hrun
  have hlate : c.entries.toList = [⟨4, "", "Late.", 0, .error⟩] := by
    rw [hentries]
    decide
  have had : added = [⟨1, "", "Unexpected character.", 1001, .error⟩] := by
    cases (ReporterStep.apply_eq hfit c).symm.trans hc'
    rw [ReporterStep.entries_step, hscan] at hadded
    exact (List.append_cancel_left hadded).symm
  refine ⟨c, k, c', k', tokens, hc, hk, ?_, hlate, hc', hk', ?_⟩
  · rw [heq, hiff, ← hentries, hlate]
    simp
  · rw [hwritten, had]
    rfl

end ScriptLexer
