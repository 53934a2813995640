import ScriptLexer.Command.Run
import ScriptLexer.Proofs.Pulling
import ScriptLexer.Proofs.Reporting

/-!
# Printing the tokens of a text

A run prints each token before it asks for the next one, while the scanner hands its findings to the
console. To an output that takes what it gets, that writes the dump of a whole scan, and the console
shows all its findings; if the scan faults, so does the run. An output that refuses a token, or to
be flushed behind the last one, ends it there: it has the dump of the tokens before, and the console
shows the findings that a scan has reported by then.

* `scan_map`: a map of reporters that goes along with findings goes along with a scan.
* `scanAlone`: what a scan of a text gives by itself.
* `printTokens_drained`: printing is draining.
* `Printing.scanText_eq`: printing a text to an output that takes what it gets.
* `Scanner.next_pulled`: the next token of a scanner that has given some.
* `Printing.scanText_refused`, `Printing.scanText_granted`: printing it to one that comes to refuse.
-/

namespace ScriptLexer

/-! ## Maps of reporters -/

/-- A scanner that hands its findings to another reporter. -/
def Scanner.mapReporter {σ ρ : Type} (f : σ → ρ) (s : Scanner σ) : Scanner ρ :=
  ⟨s.pending, s.place, f s.reporter, s.finished⟩

section

variable {σ ρ : Type} [Reporter σ] [Reporter ρ] {f : σ → ρ}
  (hf : ∀ r line message, f (Reporter.error r line message) = Reporter.error (f r) line message)
include hf

theorem Scanner.seek_map (pending : List Char) (place : Place) (r : σ) :
    seek pending place (f r) =
      (seek pending place r).map fun (token, s) => (token, s.mapReporter f) := by
  -- the lexeme in front comes from the text alone, so both searches meet the same one
  fun_induction seek pending place r with
  | case1 place r =>
    rw [seek]
    rfl
  | case2 place r c cs found stop hv ih =>
    rw [seek]
    simp only [found] at hv
    simp only [hv]
    exact ih
  | case3 place r c cs found stop message hv ih =>
    rw [seek]
    simp only [found] at hv
    simp only [hv, ← hf]
    exact ih
  | case4 place r c cs found stop shape hv =>
    rw [seek]
    simp only [found] at hv
    simp only [hv]
    cases shape.token found.1.text place stop <;> rfl

theorem Scanner.next_map (s : Scanner σ) :
    (s.mapReporter f).next = s.next.map fun (token, s) => (token, s.mapReporter f) := by
  have hseek := seek_map hf s.pending s.place s.reporter
  unfold next
  by_cases hend : s.finished = true
  · have hend' : (s.mapReporter f).finished = true := hend
    rw [if_pos hend', if_pos hend]
    rfl
  · have hend' : ¬ (s.mapReporter f).finished = true := hend
    rw [if_neg hend', if_neg hend]
    unfold mapReporter at hseek ⊢
    rw [hseek]
    cases seek s.pending s.place s.reporter <;> rfl

theorem Scanner.drainOnto_map (taken : Array Token) (s : Scanner σ) :
    (s.mapReporter f).drainOnto taken =
      (s.drainOnto taken).map fun (tokens, s) => (tokens, s.mapReporter f) := by
  fun_induction drainOnto taken s with
  | case1 taken s fault hnext =>
    have hmap := next_map hf s
    rw [hnext] at hmap
    exact drainOnto_fault hmap
  | case2 taken s rest hnext =>
    have hmap := next_map hf s
    rw [hnext] at hmap
    exact drainOnto_done hmap
  | case3 taken s token rest hnext hlt ih =>
    have hmap := next_map hf s
    rw [hnext] at hmap
    rw [drainOnto_next hmap]
    exact ih

/-- **A map of reporters that goes along with findings goes along with a scan**: the tokens or the
fault are the same, and the reporter in the end is the mapped one. -/
theorem scan_map (text : String) (r : σ) :
    scan text (f r) = (scan text r).map fun (tokens, s) => (tokens, s.mapReporter f) :=
  Scanner.drainOnto_map hf #[] (Scanner.ofText text r)

end

/-! ## A text by itself -/

/-- What a scan of a text gives by itself: its tokens and its diagnostics, the oldest first. -/
def scanAlone (text : String) : Except Fault (Array Token × List Diagnostic) := do
  let (tokens, s) ← scan text Collection.empty
  return (tokens, s.reporter.entries.toList)

theorem scanAlone_eq {text : String} (h : text.utf8ByteSize < UInt32.size) :
    scanAlone text = .ok ((scanned text.toList).toArray,
      (findingsAt .start (lexemes text.toList)).map Finding.diagnostic) := by
  have hentries :
      (Scanner.ended (lexemes text.toList) .start Collection.empty).reporter.entries.toList =
        (findingsAt .start (lexemes text.toList)).map Finding.diagnostic := entries_report _ _
  unfold scanAlone
  rw [scan_eq_scanned h]
  simp only [bind, Except.bind, pure, Except.pure, hentries]

/-- The console that also shows what a collection holds. -/
def Console.showing (k : Console) (c : Collection) : Console :=
  ⟨k.colored, ⟨true, k.sink.written ++ shownAll k.colored c.entries.toList⟩,
    k.flagged || !c.entries.toList.isEmpty⟩

theorem Console.showing_error (k : Console) (c : Collection) (line : Nat) (message : String) :
    k.showing (Reporter.error c line message) = Reporter.error (k.showing c) line message := by
  have hentries : (Reporter.error c line message).entries.toList =
      c.entries.toList ++ [.ofText line "" message] := Array.toList_push
  have hshown : shownAll k.colored [.ofText line "" message] =
      render k.colored (.ofText line "" message) := by
    rw [render_ofText]
    simp [shownAll]
  have hflag : (k.flagged || !(c.entries.toList ++ [Diagnostic.ofText line "" message]).isEmpty) =
      (k.flagged || !c.entries.toList.isEmpty || (Diagnostic.ofText line "" message).isError) := by
    rw [Diagnostic.isError_ofText]
    simp
  unfold showing
  rw [hentries, shownAll_append, hshown, hflag, ← String.append_assoc]
  rfl

theorem Console.showing_empty {k : Console} (h : k.sink.accepts = true) :
    k.showing Collection.empty = k := by
  obtain ⟨colored, ⟨accepts, written⟩, flagged⟩ := k
  obtain rfl : accepts = true := h
  simp [showing, Collection.empty]

/-- A console that takes what it gets shows what a collection would hold. -/
theorem scan_console {k : Console} (h : k.sink.accepts = true) (text : String) :
    scan text k = (scan text Collection.empty).map fun (tokens, s) =>
      (tokens, s.mapReporter k.showing) := by
  rw [← scan_map (Console.showing_error k), Console.showing_empty h]

/-! ## Requests to an output -/

namespace Output

variable {o : Output} {text : String} {r : Refusal}

theorem write_of_none (h : o.refusal? = none) :
    o.write text = ({ o with written := o.written ++ text }, none) := by
  rw [write, h]

theorem write_granted {left : Nat} (h : o.refusal? = some r) (hr : r.granted = left + 1) :
    o.write text = (⟨some { r with granted := left }, o.written ++ text⟩, none) := by
  simp only [write, h, hr]

theorem write_refused (h : o.refusal? = some r) (hr : r.granted = 0) :
    o.write text = ({ o with written := o.written ++ r.beginning text }, some r.error) := by
  simp only [write, h, hr]

/-- Of no text nothing is left. -/
@[simp] theorem Refusal.beginning_empty (r : Refusal) : r.beginning "" = "" := by
  simp [beginning]

end Output

@[simp] theorem TokenFormat.dump_empty (format : TokenFormat) : format.dump #[] = "" := rfl

theorem TokenFormat.dump_push (format : TokenFormat) (tokens : Array Token) (t : Token) :
    format.dump (tokens.push t) = format.dump tokens ++ format.entry t :=
  Array.foldl_push

/-! ## Printing is draining -/

section

variable {format : TokenFormat} {output more : Output} {s rest : Scanner Console} {token : Token}

theorem printTokens_fault {fault : Fault} (h : s.next = .error fault) :
    printTokens format output s = .error fault := by
  rw [printTokens]
  split <;> simp_all

theorem printTokens_done (h : s.next = .ok (none, rest)) :
    printTokens format output s = .ok (⟨output.flush.1, rest.reporter⟩, output.flush.2) := by
  rw [printTokens]
  split <;> simp_all

theorem printTokens_next (h : s.next = .ok (some token, rest))
    (hwrite : output.write (format.entry token) = (more, none)) :
    printTokens format output s = printTokens format more rest := by
  rw [printTokens]
  split <;> simp_all

theorem printTokens_refused (h : s.next = .ok (some token, rest)) {error : FileError}
    (hwrite : output.write (format.entry token) = (more, some error)) :
    printTokens format output s = .ok (⟨more, rest.reporter⟩, some error) := by
  rw [printTokens]
  split <;> simp_all

/-- **Printing is draining.** An output that has the dump of the tokens taken so far behind a text
has that of all of them there in the end. -/
theorem printTokens_drained (format : TokenFormat) (before : String) (taken : Array Token)
    (s : Scanner Console) :
    printTokens format ⟨none, before ++ format.dump taken⟩ s =
      (s.drainOnto taken).map fun (tokens, rest) =>
        (⟨⟨none, before ++ format.dump tokens⟩, rest.reporter⟩, none) := by
  fun_induction Scanner.drainOnto taken s with
  | case1 taken s fault hnext => exact printTokens_fault hnext
  | case2 taken s rest hnext =>
    rw [printTokens_done hnext, Output.flush, Output.write_of_none rfl, String.append_empty]
    rfl
  | case3 taken s token rest hnext hlt ih =>
    have hwrite : Output.write ⟨none, before ++ format.dump taken⟩ (format.entry token) =
        (⟨none, before ++ format.dump (taken.push token)⟩, none) := by
      rw [TokenFormat.dump_push, ← String.append_assoc]
      exact Output.write_of_none rfl
    rw [printTokens_next hnext hwrite]
    exact ih

end

/-- **A text printed to an output that takes what it gets**: the dump of its tokens behind what was
printed before, and the lines of its diagnostics behind those shown before. -/
theorem Printing.scanText_eq {p : Printing} (hout : p.output.refusal? = none)
    (herr : p.console.sink.accepts = true) (format : TokenFormat) (text : String) :
    p.scanText format text = (scanAlone text).map fun (tokens, diagnostics) =>
      (⟨⟨none, p.output.written ++ format.dump tokens⟩, ⟨p.console.colored, ⟨true,
        p.console.sink.written ++ shownAll p.console.colored diagnostics⟩,
        p.console.flagged || !diagnostics.isEmpty⟩⟩, none) := by
  obtain ⟨⟨refusal?, written⟩, console⟩ := p
  obtain rfl : refusal? = none := hout
  have hprint := printTokens_drained format written #[] (Scanner.ofText text console)
  have hscan := scan_console herr text
  rw [TokenFormat.dump_empty, String.append_empty] at hprint
  unfold scan Scanner.drain at hscan
  rw [scanText, hprint, hscan, scanAlone]
  unfold scan Scanner.drain
  cases (Scanner.ofText text Collection.empty).drainOnto #[] <;> rfl

/-! ## Outputs that come to refuse -/

/-- What a scanner that has given some tokens gives next. -/
theorem Scanner.next_of_pull {ρ : Type} [Reporter ρ] {k : Nat} {s s' s'' : Scanner ρ}
    {tokens more : List (Option Token)} (h : pull k s = .ok (tokens, s'))
    (hmore : pull (k + 1) s = .ok (more, s'')) :
    ∃ token, s'.next = .ok (token, s'') ∧ more = tokens ++ [token] := by
  induction k generalizing s tokens more with
  | zero =>
    cases h
    obtain ⟨⟨token, rest⟩, hnext, hmore⟩ := exists_of_bind hmore
    cases hmore
    exact ⟨token, hnext, rfl⟩
  | succ k ih =>
    obtain ⟨⟨first, rest⟩, hnext, h⟩ := exists_of_bind h
    obtain ⟨⟨tokens, last⟩, hpull, h⟩ := exists_of_bind h
    obtain ⟨⟨first', rest'⟩, hnext', hmore⟩ := exists_of_bind hmore
    cases hnext.symm.trans hnext'
    obtain ⟨⟨more, last'⟩, hpull', hmore⟩ := exists_of_bind hmore
    cases h
    cases hmore
    obtain ⟨token, htoken, rfl⟩ := ih hpull hpull'
    exact ⟨token, htoken, rfl⟩

/-- Findings go along with the console that shows what a collection holds. -/
theorem Console.showing_report (k : Console) (c : Collection) (fs : List Finding) :
    k.showing (Scanner.report c fs) = Scanner.report (k.showing c) fs := by
  induction fs generalizing c with
  | nil => rfl
  | cons f fs ih =>
    have hstep := ih (Reporter.error c f.line f.message.text)
    rwa [showing_error] at hstep

/-- What a console shows of the lexemes that a scanner has passed. -/
theorem Scanner.reporter_pulled {k : Console} (h : k.sink.accepts = true) (n : Nat)
    (ls : List Lexeme) (p : Place) :
    (pulled n ls p k).reporter = k.showing (pulled n ls p Collection.empty).reporter := by
  rw [pulled, pulled, Console.showing_report, Console.showing_empty h]

section

variable {text : String} (h : text.utf8ByteSize < UInt32.size)
include h

/-- **A scanner that has given some tokens of a text** gives the next one, or the end. -/
theorem Scanner.next_pulled {ρ : Type} [Reporter ρ] (r : ρ) (k : Nat) :
    (pulled k (lexemes text.toList) .start r).next =
      .ok ((scanned text.toList)[k]?, pulled (k + 1) (lexemes text.toList) .start r) := by
  obtain ⟨token, hnext, hmore⟩ := next_of_pull (pull_ofText h r k) (pull_ofText h r (k + 1))
  rw [List.range_succ, List.map_append, List.map_singleton] at hmore
  rw [hnext, List.singleton_inj.1 (List.append_cancel_left hmore)]

/-- At the beginning no token was given. -/
theorem Scanner.pulled_zero {ρ : Type} [Reporter ρ] (r : ρ) :
    pulled 0 (lexemes text.toList) .start r = ofText text r := by
  have hpull := pull_ofText h r 0
  rw [pull, Except.ok.injEq, Prod.mk.injEq] at hpull
  exact hpull.2.symm

section

variable {r : Output.Refusal} (format : TokenFormat) (before : String) (console : Console)

/-- One more token of a text is printed. -/
theorem printTokens_pulled_next {k left : Nat} (hr : r.granted = left + 1)
    (hk : k < (scanned text.toList).length) :
    printTokens format ⟨some r, before ++ format.dump ((scanned text.toList).take k).toArray⟩
        (.pulled k (lexemes text.toList) .start console) =
      printTokens format ⟨some { r with granted := left },
          before ++ format.dump ((scanned text.toList).take (k + 1)).toArray⟩
        (.pulled (k + 1) (lexemes text.toList) .start console) := by
  have hnext := Scanner.next_pulled h console k
  rw [List.getElem?_eq_getElem hk] at hnext
  have htake : ((scanned text.toList).take (k + 1)).toArray =
      ((scanned text.toList).take k).toArray.push (scanned text.toList)[k] := by
    rw [List.take_succ_eq_append_getElem hk]
    simp
  rw [printTokens_next hnext (Output.write_granted rfl hr), htake, TokenFormat.dump_push,
    ← String.append_assoc]

/-- **Tokens are printed up to the request that is refused**: that of a token, or the flush behind
the last one. -/
theorem printTokens_pulled_refused {k : Nat}
    (hr : k + r.granted ≤ (scanned text.toList).length) :
    printTokens format ⟨some r, before ++ format.dump ((scanned text.toList).take k).toArray⟩
        (.pulled k (lexemes text.toList) .start console) =
      .ok (⟨⟨some { r with granted := 0 },
        before ++ format.dump ((scanned text.toList).take (k + r.granted)).toArray ++
          r.beginning ((scanned text.toList)[k + r.granted]?.elim "" format.entry)⟩,
        (Scanner.pulled (k + r.granted + 1) (lexemes text.toList) .start console).reporter⟩,
        some r.error) := by
  induction hg : r.granted generalizing r k with
  | zero =>
    have hrefused : r = { r with granted := 0 } := by rw [← hg]
    have hnext := Scanner.next_pulled h console k
    rw [Nat.add_zero, ← hrefused]
    cases htoken : (scanned text.toList)[k]? with
    | none =>
      rw [htoken] at hnext
      rw [printTokens_done hnext, Output.flush, Output.write_refused rfl hg]
      rfl
    | some token =>
      rw [htoken] at hnext
      exact printTokens_refused hnext (Output.write_refused rfl hg)
  | succ left ih =>
    have hstep := ih (r := { r with granted := left }) (k := k + 1) (by simp only; omega) rfl
    have hcount : k + 1 + left = k + (left + 1) := by omega
    rw [printTokens_pulled_next h format before console hg (by omega), hstep, hcount]
    rfl

/-- Tokens are printed to an output that grants all requests. -/
theorem printTokens_pulled_granted {k : Nat} (hk : k ≤ (scanned text.toList).length)
    (hr : (scanned text.toList).length < k + r.granted) : ∃ left,
    printTokens format ⟨some r, before ++ format.dump ((scanned text.toList).take k).toArray⟩
        (.pulled k (lexemes text.toList) .start console) =
      .ok (⟨⟨some { r with granted := left }, before ++ format.dump (scanned text.toList).toArray⟩,
        (Scanner.pulled ((scanned text.toList).length + 1) (lexemes text.toList) .start
          console).reporter⟩, none) := by
  induction hg : r.granted generalizing r k with
  | zero => omega
  | succ left ih =>
    rcases Nat.lt_or_ge k (scanned text.toList).length with hlt | hge
    · rw [printTokens_pulled_next h format before console hg hlt]
      exact ih (r := { r with granted := left }) (by omega) (by simp only; omega) rfl
    · -- the flush is the last request
      obtain rfl : k = (scanned text.toList).length := by omega
      have hnext := Scanner.next_pulled h console (scanned text.toList).length
      rw [List.getElem?_eq_none (Nat.le_refl _)] at hnext
      refine ⟨left, ?_⟩
      rw [printTokens_done hnext, Output.flush, Output.write_granted rfl hg, List.take_length,
        String.append_empty]

end

variable {p : Printing} {r : Output.Refusal} (hout : p.output.refusal? = some r)
  (herr : p.console.sink.accepts = true) {tokens : Array Token} {diagnostics : List Diagnostic}
  (hscan : scanAlone text = .ok (tokens, diagnostics))
include hout herr hscan

/-- **A text printed to an output that refuses one of its requests.** The output has the dump of the
tokens before, and the beginning of what was refused, if that is a token. The console shows what a
scan has reported by the time that it was asked for this token, or for one behind the end. -/
theorem Printing.scanText_refused (hr : r.granted ≤ tokens.size) (format : TokenFormat) :
    ∃ given s, (Scanner.ofText text Collection.empty).pull (r.granted + 1) = .ok (given, s) ∧
      p.scanText format text = .ok (⟨⟨some { r with granted := 0 },
        p.output.written ++ format.dump (tokens.take r.granted) ++
          r.beginning (tokens[r.granted]?.elim "" format.entry)⟩,
        p.console.showing s.reporter⟩, some r.error) := by
  rw [scanAlone_eq h] at hscan
  cases hscan
  refine ⟨_, _, pull_ofText h Collection.empty (r.granted + 1), ?_⟩
  obtain ⟨⟨refusal?, written⟩, console⟩ := p
  obtain rfl : refusal? = some r := hout
  have hprint := printTokens_pulled_refused h format written console (r := r) (k := 0)
    (by simpa using hr)
  simp only [List.take_zero, Nat.zero_add, TokenFormat.dump_empty, String.append_empty] at hprint
  rw [Scanner.pulled_zero h] at hprint
  rw [scanText, hprint, Scanner.reporter_pulled herr]
  simp

/-- **A text printed to an output that grants all its requests** is printed as to one that takes
what it gets. -/
theorem Printing.scanText_granted (hr : tokens.size < r.granted) (format : TokenFormat) : ∃ left,
    p.scanText format text = .ok (⟨⟨some { r with granted := left },
      p.output.written ++ format.dump tokens⟩, ⟨p.console.colored, ⟨true,
        p.console.sink.written ++ shownAll p.console.colored diagnostics⟩,
        p.console.flagged || !diagnostics.isEmpty⟩⟩, none) := by
  rw [scanAlone_eq h] at hscan
  cases hscan
  obtain ⟨⟨refusal?, written⟩, console⟩ := p
  obtain rfl : refusal? = some r := hout
  obtain ⟨left, hprint⟩ := printTokens_pulled_granted h format written console (r := r)
    (Nat.zero_le _) (by simpa using hr)
  have hend : (Scanner.pulled ((scanned text.toList).length + 1) (lexemes text.toList) .start
      Collection.empty).reporter.entries.toList =
        (findingsAt .start (lexemes text.toList)).map Finding.diagnostic := by
    rw [Scanner.pulled_eq_ended (chained_lexemes _) (by rw [length_scanned]; omega)]
    exact entries_report _ _
  rw [List.take_zero, TokenFormat.dump_empty, String.append_empty, Scanner.pulled_zero h,
    Scanner.reporter_pulled herr, Console.showing, hend] at hprint
  exact ⟨left, hprint⟩

end

end ScriptLexer
