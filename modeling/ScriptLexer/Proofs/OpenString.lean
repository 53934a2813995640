import ScriptLexer.Proofs.Concatenation
import ScriptLexer.Proofs.TokenPlaces

/-!
# Closing a string that was left open

A text that leaves a string open ends with its lexeme, which begins at the last quote. Put a text
without a quote and then a quote behind it: what was rejected is the beginning of a string, the
lexemes in front of it stay as they are, and the scan goes on behind the new quote as it does at the
beginning of a text.

* `Chained.split_open`: the lexemes of a text that leaves a string open.
* `lexemes_close`: its lexemes once the string is closed.
* `scan_lexemes_behind`: a scan of some lexemes and of a text behind them.
* `scan_closes_string`: a scan once the string is closed.
-/

namespace ScriptLexer

/-! ## Lexemes in front of a quote -/

/-- Behind the first quote a text may change: whether it opens a fraction is decided before. -/
theorem Text.opensFraction_quote {rest more more' : List Char}
    (h : OpensFraction (rest ++ '"' :: more')) : OpensFraction (rest ++ '"' :: more) := by
  by_cases hr : OpensFraction rest
  · exact hr.append _
  · exact absurd h (not_opensFraction_append hr (by decide) rfl more')

/-- **Behind a quote the text may change** without any effect on a lexeme in front of it. -/
theorem Lexeme.Reads.of_quote {l : Lexeme} {rest more : List Char}
    (h : l.Reads (rest ++ '"' :: more)) (hv : l.verdict ≠ .rejected .unterminatedString)
    (more' : List Char) : l.Reads (rest ++ '"' :: more') := by
  refine h.of_head hv ?_ Text.opensFraction_quote
  cases rest <;> rfl

/-- The lexeme of a string without an end. -/
def Lexeme.openString (body : List Char) : Lexeme :=
  ⟨'"' :: body, .rejected .unterminatedString⟩

/-- The lexeme of a string. -/
def Lexeme.closedString (body : List Char) : Lexeme :=
  ⟨'"' :: body ++ ['"'], .token (.string (.ofList body))⟩

/-- **A string without an end is the last lexeme**, and there is no other. -/
theorem Chained.split_open {ls : List Lexeme} (h : Chained ls)
    (hopen : ∃ l ∈ ls, l.verdict = .rejected .unterminatedString) :
    ∃ front body, ls = front ++ [.openString body] ∧ '"' ∉ body ∧
      ∀ l ∈ front, l.verdict ≠ .rejected .unterminatedString := by
  induction ls with
  | nil =>
    obtain ⟨l, hl, -⟩ := hopen
    cases hl
  | cons l ls ih =>
    by_cases hv : l.verdict = .rejected .unterminatedString
    · -- nothing is left behind it
      obtain ⟨hr, hls⟩ := h
      generalize hrest : spell ls = rest at hr
      cases hr with
      | unterminated hb =>
        obtain rfl := hls.eq_nil_of_spell hrest
        exact ⟨[], _, rfl, hb, List.forall_mem_nil _⟩
      | _ => cases hv
    · have hlater : ∃ m ∈ ls, m.verdict = .rejected .unterminatedString := by
        obtain ⟨m, hm, hmv⟩ := hopen
        rcases List.mem_cons.1 hm with rfl | hm
        · exact absurd hmv hv
        · exact ⟨m, hm, hmv⟩
      obtain ⟨front, body, rfl, hb, hfront⟩ := ih h.2 hlater
      exact ⟨l :: front, body, rfl, hb, List.forall_mem_cons.2 ⟨hv, hfront⟩⟩

/-- Chained lexemes stay chained when the string that they leave open is closed. -/
theorem Chained.close {front ls : List Lexeme} {body more : List Char}
    (h : Chained (front ++ [.openString body]))
    (hfront : ∀ l ∈ front, l.verdict ≠ .rejected .unterminatedString) (hm : '"' ∉ body ++ more)
    (hls : Chained ls) : Chained (front ++ .closedString (body ++ more) :: ls) := by
  induction front with
  | nil => exact ⟨.string hm, hls⟩
  | cons l front ih =>
    obtain ⟨hv, hvs⟩ := List.forall_mem_cons.1 hfront
    have hr := h.1
    refine ⟨?_, ih h.2 hvs⟩
    -- what follows `l` is the same up to the quote
    rw [List.append_eq, spell_append, spell_cons, Lexeme.openString] at hr
    rw [List.append_eq, spell_append, spell_cons, Lexeme.closedString]
    exact hr.of_quote hv _

/-- Lexemes that leave a string open spell the beginning of what they spell once it is closed. -/
theorem spell_close (front : List Lexeme) (body more : List Char) :
    spell (front ++ [.closedString (body ++ more)]) =
      spell (front ++ [.openString body]) ++ more ++ ['"'] := by
  simp [Lexeme.closedString, Lexeme.openString]

/-- The bytes and the line feeds of a text up to the quote that closes its open string. -/
theorem sizes_close {front : List Lexeme} {body : List Char} {a : String}
    (ha : spell (front ++ [.openString body]) = a.toList) (x : String) :
    Text.byteWidth (spell (front ++ [.closedString (body ++ x.toList)])) =
        a.utf8ByteSize + x.utf8ByteSize + 1 ∧
      Text.newlines (spell (front ++ [.closedString (body ++ x.toList)])) =
        Text.newlines a.toList + Text.newlines x.toList := by
  rw [spell_close, ha]
  constructor
  · rw [Text.byteWidth_append, Text.byteWidth_append, Text.byteWidth_toList, Text.byteWidth_toList]
    rfl
  · rw [Text.newlines_append, Text.newlines_append]
    rfl

/-- **The lexemes of a text whose open string is closed**: those in front of the string, the string,
and those of the text behind it. -/
theorem lexemes_close {a : List Char} {front : List Lexeme} {body : List Char}
    (ha : lexemes a = front ++ [.openString body])
    (hfront : ∀ l ∈ front, l.verdict ≠ .rejected .unterminatedString) {x : List Char}
    (hx : '"' ∉ body ++ x) (b : List Char) : lexemes (a ++ x ++ '"' :: b) =
      (front ++ [.closedString (body ++ x)]) ++ lexemes b := by
  have hch := chained_lexemes a
  have hspell := spell_lexemes a
  rw [ha] at hch hspell
  rw [lexemes_eq_iff]
  constructor
  · rw [spell_append, spell_close, hspell, spell_lexemes]
    simp
  · rw [List.append_assoc]
    exact hch.close hfront hx (chained_lexemes b)

/-! ## What is reported -/

/-- A finding comes from a lexeme that is rejected with its message. -/
theorem exists_rejected_of_mem_findingsAt {p : Place} {ls : List Lexeme} {f : Finding}
    (hf : f ∈ findingsAt p ls) : ∃ l ∈ ls, l.verdict = .rejected f.message := by
  obtain ⟨x, hx, hf⟩ := List.mem_filterMap.1 hf
  unfold Placed.finding? at hf
  split at hf
  next message hv =>
    cases hf
    exact ⟨x.lexeme, lexeme_mem_of_mem_placed hx, hv⟩
  next => cases hf

/-- A diagnostic that tells of an open string comes from its lexeme. -/
theorem exists_open_of_diagnostic {p : Place} {ls : List Lexeme}
    (hreads : ∀ l ∈ ls, ∃ rest, l.Reads rest) {d : Diagnostic}
    (hd : d ∈ (findingsAt p ls).map Finding.diagnostic) (hm : d.message = "Unterminated string.") :
    ∃ l ∈ ls, l.verdict = .rejected .unterminatedString := by
  obtain ⟨f, hf, rfl⟩ := List.mem_map.1 hd
  obtain ⟨l, hl, hv⟩ := exists_rejected_of_mem_findingsAt hf
  obtain ⟨rest, hr⟩ := hreads l hl
  have htext : f.message.text = "Unterminated string." := by
    rwa [Finding.diagnostic, Diagnostic.ofText_message] at hm
  rcases hr.rejected_cases hv with he | he
  · rw [he] at htext
    exact absurd htext (by decide)
  · exact ⟨l, hl, by rw [hv, he]⟩

/-- **The lexemes of a text that is reported to leave a string open.** -/
theorem exists_open_string {a : List Char} (h : ∃ d ∈
      (Scanner.ended (lexemes a) .start Collection.empty).reporter.entries,
        d.message = "Unterminated string.") :
    ∃ front body, lexemes a = front ++ [.openString body] ∧ '"' ∉ body ∧
      ∀ l ∈ front, l.verdict ≠ .rejected .unterminatedString := by
  obtain ⟨d, hd, hm⟩ := h
  have hch := chained_lexemes a
  rw [← Array.mem_toList_iff, Scanner.ended, entries_report] at hd
  exact hch.split_open (exists_open_of_diagnostic (fun _ hl => hch.reads_of_mem hl) hd hm)

/-- What is reported of lexemes that leave a string open: the string at last, and nothing like it
before. -/
theorem entries_openString {front : List Lexeme} {body : List Char}
    (h : Chained (front ++ [.openString body]))
    (hfront : ∀ l ∈ front, l.verdict ≠ .rejected .unterminatedString) :
    ∃ last : Diagnostic, last.message = "Unterminated string." ∧
      (Scanner.ended (front ++ [.openString body]) .start Collection.empty).reporter.entries.toList =
        (findingsAt .start front).map Finding.diagnostic ++ [last] ∧
      ∀ d ∈ (findingsAt .start front).map Finding.diagnostic,
        d.message ≠ "Unterminated string." := by
  refine ⟨.ofMessage .unterminatedString
    (Place.start.after (spell (front ++ [.openString body]))).line, rfl, ?_, ?_⟩
  · have hlast : (findingsAt (Place.start.after (spell front)) [.openString body]).map
        Finding.diagnostic = [.ofMessage .unterminatedString
          (Place.start.after (spell (front ++ [.openString body]))).line] := by
      rw [spell_append, Place.after_append]
      simp [findingsAt, Placed.finding?, Placed.stop, Lexeme.openString, Finding.diagnostic]
      rfl
    rw [Scanner.ended, entries_report, findingsAt_append, List.map_append, hlast]
    rfl
  · intro d hd hm
    have hreads : ∀ l ∈ front, ∃ rest, l.Reads rest :=
      fun l hl => h.reads_of_mem (List.mem_append_left _ hl)
    obtain ⟨l, hl, hv⟩ := exists_open_of_diagnostic hreads hd hm
    exact hfront l hl hv

/-! ## A scan once the string is closed -/

/-- The end of lexemes behind others. -/
theorem eofAt_behind (ls ms : List Lexeme) : eofAt .start (ls ++ ms) =
    (eofAt .start ms).shift (Text.byteWidth (spell ls)) (Text.newlines (spell ls)) := by
  have hplace : Place.start.after (spell (ls ++ ms)) = (Place.start.after (spell ms)).shift
      (Text.byteWidth (spell ls)) (Text.newlines (spell ls)) := by
    rw [spell_append, Place.after_append, Place.start_after, Place.after_shift]
  rw [eofAt, eofAt, hplace, Token.shift_eof]
  rfl

/-- **A scan of some lexemes and of a text behind them**: their tokens, and then all tokens of the
text, moved. -/
theorem scan_lexemes_behind {source b : String} {ls : List Lexeme}
    (hlex : lexemes source.toList = ls ++ lexemes b.toList)
    (h : source.utf8ByteSize < UInt32.size) : scan source Collection.empty =
      .ok ((tokensAt .start ls).toArray ++ (scanned b.toList).toArray.map
        (Token.shift (Text.byteWidth (spell ls)) (Text.newlines (spell ls))),
        .ended (ls ++ lexemes b.toList) .start Collection.empty) := by
  rw [scan_eq_scanned h, scanned, hlex, tokensAt_behind, eofAt_behind, scanned]
  simp

/-- The diagnostics of some lexemes and of a text behind them. -/
theorem entries_lexemes_behind (ls ms : List Lexeme) :
    (Scanner.ended (ls ++ ms) .start Collection.empty).reporter.entries.toList =
      (findingsAt .start ls).map Finding.diagnostic ++
        (Scanner.ended ms .start Collection.empty).reporter.entries.toList.map
          (Diagnostic.shift (Text.newlines (spell ls))) := by
  rw [Scanner.ended, Scanner.ended, entries_report, entries_report, findingsAt_behind,
    List.map_append, Finding.map_diagnostic_shift]
  rfl

/-- The token of a closed string. -/
theorem tokensAt_closedString (p : Place) (body : List Char) : ∃ t : Token,
    tokensAt p [.closedString body] = [t] ∧ Placed.token? ⟨p, .closedString body⟩ = some t ∧
      t.kind = .string ∧ t.literal = .string (.ofList body) :=
  ⟨_, rfl, rfl, rfl, rfl⟩

/-- **Closing an open string.** Let a scan of `a` report a string without an end. It began at the
last quote of `a`. Behind `a`, a text without a quote and then a quote make a string of what was
rejected: the scan gives the tokens of `a`, the string, and the tokens of the text behind it, moved;
it reports what is reported of `a` but for the last diagnostic, and what is reported of that
text. -/
theorem scan_closes_string (a x b : String) (hx : '"' ∉ x.toList)
    (h : a.utf8ByteSize + x.utf8ByteSize + 1 + b.utf8ByteSize < UInt32.size) :
    ∃ ta sa tb sb, scan a Collection.empty = .ok (ta, sa) ∧
      scan b Collection.empty = .ok (tb, sb) ∧
      (∀ t ∈ tb, t.span.start.toNat + (a.utf8ByteSize + x.utf8ByteSize + 1) < UInt32.size) ∧
      ((∃ d ∈ sa.reporter.entries, d.message = "Unterminated string.") →
        ∃ before body reported last t s,
          a.toList = before ++ '"' :: body ∧ '"' ∉ body ∧
          sa.reporter.entries.toList = reported ++ [last] ∧
          last.message = "Unterminated string." ∧
          (∀ d ∈ reported, d.message ≠ "Unterminated string.") ∧
          t.kind = .string ∧ t.literal = .string (.ofList (body ++ x.toList)) ∧
          t.Between before ('"' :: (body ++ x.toList) ++ ['"']) ∧
          scan (a ++ x ++ "\"" ++ b) Collection.empty = .ok ((proper ta).toArray ++ #[t] ++
            tb.map (Token.shift (a.utf8ByteSize + x.utf8ByteSize + 1)
              (Text.newlines a.toList + Text.newlines x.toList)), s) ∧
          s.reporter.entries.toList = reported ++ sb.reporter.entries.toList.map
            (Diagnostic.shift (Text.newlines a.toList + Text.newlines x.toList))) := by
  have hb : b.utf8ByteSize < UInt32.size := by omega
  refine ⟨_, _, _, _, scan_eq_scanned (by omega) _, scan_eq_scanned hb _, ?_, ?_⟩
  · intro t ht
    have hle := start_le_of_mem_scanned hb (List.mem_toArray.1 ht)
    omega
  intro hopen
  obtain ⟨front, body, hfront, hbody, hclosed⟩ := exists_open_string hopen
  have hcha := chained_lexemes a.toList
  have hspell := spell_lexemes a.toList
  rw [hfront] at hcha hspell
  have hmore : '"' ∉ body ++ x.toList := by
    rw [List.mem_append, not_or]
    exact ⟨hbody, hx⟩
  have hlex : lexemes (a ++ x ++ "\"" ++ b).toList =
      (front ++ [.closedString (body ++ x.toList)]) ++ lexemes b.toList := by
    rw [← lexemes_close hfront hclosed hmore]
    simp
  have hsize : (a ++ x ++ "\"" ++ b).utf8ByteSize < UInt32.size := by
    have hquote : "\"".utf8ByteSize = 1 := rfl
    simp only [String.utf8ByteSize_append]
    omega
  obtain ⟨hbytes, hlines⟩ := sizes_close hspell x
  obtain ⟨last, hlast, hentries, hreported⟩ := entries_openString hcha hclosed
  obtain ⟨t, htokens, htoken, hkind, hliteral⟩ :=
    tokensAt_closedString (Place.start.after (spell front)) (body ++ x.toList)
  refine ⟨spell front, body, (findingsAt .start front).map Finding.diagnostic, last, t,
    .ended ((front ++ [.closedString (body ++ x.toList)]) ++ lexemes b.toList) .start
      Collection.empty, ?_, hbody, ?_, hlast, hreported, hkind, hliteral, ?_, ?_, ?_⟩
  · rw [← hspell, spell_append]
    simp [Lexeme.openString]
  · rw [hfront]
    exact hentries
  · refine Placed.between htoken rfl ?_
    rw [spell_append, spell_cons, spell_nil, List.append_nil] at hbytes
    rw [hbytes]
    omega
  · have hproper : proper (scanned a.toList).toArray = tokensAt .start front := by
      rw [proper_scanned_toArray, hfront, tokensAt_append]
      exact List.append_nil _
    rw [scan_lexemes_behind hlex hsize, hbytes, hlines, tokensAt_append, htokens, hproper]
    simp
  · have hnone : findingsAt (Place.start.after (spell front))
        [.closedString (body ++ x.toList)] = [] := rfl
    rw [entries_lexemes_behind, hlines, findingsAt_append, hnone, List.append_nil]

/-- A character that begins no lexeme, a number, and a string that a quote on the next line closes;
a mark behind it. -/
theorem scan_closes_string_on_next_line :
    '"' ∉ "\n".toList ∧
      "@1\"é".utf8ByteSize + "\n".utf8ByteSize + 1 + "+".utf8ByteSize < UInt32.size ∧
      ∃ ta sa tb sb reported last t s, scan "@1\"é" Collection.empty = .ok (ta, sa) ∧
        scan "+" Collection.empty = .ok (tb, sb) ∧
        sa.reporter.entries.toList = reported ++ [last] ∧
        t.literal = .string "é\n" ∧ t.line = 1 ∧ t.span.range = .ok (2, 7) ∧
        scan ("@1\"é" ++ "\n" ++ "\"" ++ "+") Collection.empty =
          .ok ((proper ta).toArray ++ #[t] ++ tb.map (Token.shift 7 1), s) ∧
        s.reporter.entries.toList =
          reported ++ sb.reporter.entries.toList.map (Diagnostic.shift 1) := by
  have hx : '"' ∉ "\n".toList := by decide
  have hs : "@1\"é".utf8ByteSize + "\n".utf8ByteSize + 1 + "+".utf8ByteSize < UInt32.size := by
    decide
  have hbytes : "@1\"é".utf8ByteSize + "\n".utf8ByteSize + 1 = 7 := by decide
  have hlines : Text.newlines "@1\"é".toList + Text.newlines "\n".toList = 1 := by decide
  -- the only quote of the first text stands behind two characters
  have hquote (before body : List Char) (h : before ++ '"' :: body = ['@', '1', '"', 'é']) :
      before = ['@', '1'] ∧ body = ['é'] := by
    rcases before with _ | ⟨c, _ | ⟨d, _ | ⟨e, _ | ⟨f, rest⟩⟩⟩⟩ <;> simp_all
  have hl : lexemes "@1\"é".toList = [⟨['@'], .rejected .unexpectedCharacter⟩,
      ⟨['1'], .token (.number (Lexeme.numberValue ['1'] []))⟩, .openString ['é']] := by
    exact lexemes_eq_iff.2 ⟨rfl, .unexpected stray_at,
      .whole (List.forall_mem_singleton.2 rfl) ((Text.stops_cons _ _ _).2 rfl) (by decide),
      .unterminated (by decide), trivial⟩
  obtain ⟨ta, sa, tb, sb, ha, hb, -, hclose⟩ := scan_closes_string "@1\"é" "\n" "+" hx hs
  have hopen : ∃ d ∈ sa.reporter.entries, d.message = "Unterminated string." := by
    have he := ha.symm.trans (scan_eq_scanned (by decide) Collection.empty)
    rw [hl] at he
    cases he
    exact ⟨.ofMessage .unterminatedString 1, Array.mem_of_getElem? (i := 1) rfl, rfl⟩
  obtain ⟨before, body, reported, last, t, s, htext, hbody, hentries, -, -, -, hliteral, hbetween,
    hscan, hreported⟩ := hclose hopen
  obtain ⟨rfl, rfl⟩ := hquote before body htext.symm
  rw [hbytes, hlines] at hscan
  rw [hlines] at hreported
  exact ⟨hx, hs, ta, sa, tb, sb, reported, last, t, s, ha, hb, hentries, hliteral, hbetween.line,
    hbetween.range, hscan, hreported⟩

end ScriptLexer
