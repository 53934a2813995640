import ScriptLexer.Proofs.Drain

/-!
# Two texts with a line feed between them

The lexemes of a text do not look past a line feed, so a scan of two texts with a line feed between
them is a scan of the first and then one of the second, which only begins further on.

* `Token.shift`, `Diagnostic.shift`: a token and a diagnostic moved by bytes and lines.
* `tokensAt_shift`, `findingsAt_shift`: lexemes that stand further on.
* `tokensAt_behind`, `findingsAt_behind`: lexemes behind others.
* `lexemes_newline`: the lexemes of two texts with a line feed between them.
* `scan_append_newline`: a scan of two texts with a line feed between them.
-/

namespace ScriptLexer

/-! ## Moving on -/

/-- The place that lies some bytes and lines further on. -/
def Place.shift (bytes lines : Nat) (p : Place) : Place :=
  ⟨p.offset + bytes, p.line + lines⟩

/-- A token that begins some bytes and lines further on. -/
def Token.shift (bytes lines : Nat) (t : Token) : Token :=
  { t with line := t.line + lines, span := ⟨(t.span.start.toNat + bytes).toUInt32, t.span.length⟩ }

/-- A diagnostic some lines further on. -/
def Diagnostic.shift (lines : Nat) (d : Diagnostic) : Diagnostic :=
  { d with line := d.line + lines }

/-- A finding some lines further on. -/
def Finding.shift (lines : Nat) (f : Finding) : Finding :=
  { f with line := f.line + lines }

/-- A placed lexeme some bytes and lines further on. -/
def Placed.shift (bytes lines : Nat) (x : Placed) : Placed :=
  { x with place := x.place.shift bytes lines }

variable {bytes lines : Nat}

theorem Place.after_shift (p : Place) (cs : List Char) :
    (p.shift bytes lines).after cs = (p.after cs).shift bytes lines := by
  simp [Place.shift, Place.after, Nat.add_right_comm]

theorem placed_shift (p : Place) (ls : List Lexeme) :
    placed (p.shift bytes lines) ls = (placed p ls).map (Placed.shift bytes lines) := by
  induction ls generalizing p with
  | nil => rfl
  | cons l ls ih =>
    rw [placed_cons, placed_cons, List.map_cons, Place.after_shift, ih]
    rfl

private theorem toUInt32_shift (n : Nat) :
    (n.toUInt32.toNat + bytes).toUInt32 = (n + bytes).toUInt32 := by
  apply UInt32.toNat_inj.1
  simp [Nat.toUInt32_eq]

@[simp] theorem Placed.shift_lexeme (x : Placed) : (x.shift bytes lines).lexeme = x.lexeme := rfl

theorem Placed.span_shift (x : Placed) : (x.shift bytes lines).span =
    ⟨(x.span.start.toNat + bytes).toUInt32, x.span.length⟩ := by
  simp only [span, shift, Place.shift, toUInt32_shift]

theorem Placed.token?_shift (x : Placed) :
    (x.shift bytes lines).token? = x.token?.map (Token.shift bytes lines) := by
  unfold token?
  rw [shift_lexeme]
  split
  next shape hv =>
    by_cases hs : shape.literal.Suits shape.kind
    · simp only [dif_pos hs, Option.map_some, span_shift]
      rfl
    · simp only [dif_neg hs, Option.map_none]
  next => rfl

theorem Placed.finding?_shift (x : Placed) :
    (x.shift bytes lines).finding? = x.finding?.map (Finding.shift lines) := by
  have hstop : (x.shift bytes lines).stop = x.stop.shift bytes lines := Place.after_shift _ _
  unfold finding?
  rw [hstop]
  cases hv : x.lexeme.verdict <;> simp [shift, hv, Finding.shift, Place.shift]

/-- **The tokens of lexemes that stand further on** are their tokens, moved. -/
theorem tokensAt_shift (p : Place) (ls : List Lexeme) :
    tokensAt (p.shift bytes lines) ls = (tokensAt p ls).map (Token.shift bytes lines) := by
  rw [tokensAt, tokensAt, placed_shift, List.filterMap_map, List.map_filterMap]
  congr 1
  funext x
  exact x.token?_shift

theorem findingsAt_shift (bytes : Nat) (p : Place) (ls : List Lexeme) :
    findingsAt (p.shift bytes lines) ls = (findingsAt p ls).map (Finding.shift lines) := by
  rw [findingsAt, findingsAt, placed_shift, List.filterMap_map, List.map_filterMap]
  congr 1
  funext x
  exact x.finding?_shift

/-- A place behind a text is the beginning, moved. -/
theorem Place.start_after (cs : List Char) :
    Place.start.after cs = Place.start.shift (Text.byteWidth cs) (Text.newlines cs) := rfl

/-- The tokens of lexemes behind others. -/
theorem tokensAt_behind (ls ms : List Lexeme) :
    tokensAt .start (ls ++ ms) = tokensAt .start ls ++ (tokensAt .start ms).map
      (Token.shift (Text.byteWidth (spell ls)) (Text.newlines (spell ls))) := by
  rw [tokensAt_append, Place.start_after, tokensAt_shift]

/-- The findings of lexemes behind others. -/
theorem findingsAt_behind (ls ms : List Lexeme) :
    findingsAt .start (ls ++ ms) = findingsAt .start ls ++ (findingsAt .start ms).map
      (Finding.shift (Text.newlines (spell ls))) := by
  rw [findingsAt_append, Place.start_after, findingsAt_shift]

theorem Token.shift_eof (line position : Nat) :
    (Token.eof line position.toUInt32).shift bytes lines =
      .eof (line + lines) (position + bytes).toUInt32 := by
  simp only [Token.shift, Token.eof, Span.empty, toUInt32_shift]

theorem Finding.diagnostic_shift (f : Finding) :
    (f.shift lines).diagnostic = f.diagnostic.shift lines := by
  unfold diagnostic Diagnostic.ofText shift
  cases Message.lookup? f.message.text <;> rfl

theorem Finding.map_diagnostic_shift (fs : List Finding) :
    (fs.map (Finding.shift lines)).map diagnostic =
      (fs.map diagnostic).map (Diagnostic.shift lines) := by
  rw [List.map_map, List.map_map]
  exact List.map_congr_left fun f _ => f.diagnostic_shift

/-! ## Lexemes around a line feed -/

theorem Chained.append_newline {ls ms : List Lexeme} (hl : Chained ls) (hm : Chained ms)
    (hv : ∀ l ∈ ls, l.verdict ≠ .rejected .unterminatedString) :
    Chained (ls ++ .blank '\n' :: ms) := by
  induction ls with
  | nil => exact ⟨.blank (.inl rfl), hm⟩
  | cons l ls ih =>
    obtain ⟨hvl, hvs⟩ := List.forall_mem_cons.1 hv
    refine ⟨?_, ih hl.2 hvs⟩
    rw [List.append_eq, spell_append, spell_cons]
    exact hl.1.append_newline hvl (spell ms)

/-- **The lexemes of two texts with a line feed between them**: those of the first, the line feed
and those of the second. -/
theorem lexemes_newline {a b : List Char}
    (hv : ∀ l ∈ lexemes a, l.verdict ≠ .rejected .unterminatedString) :
    lexemes (a ++ '\n' :: b) = lexemes a ++ .blank '\n' :: lexemes b := by
  rw [lexemes_eq_iff]
  refine ⟨?_, (chained_lexemes a).append_newline (chained_lexemes b) hv⟩
  rw [spell_append, spell_cons, spell_lexemes, spell_lexemes]
  rfl

/-- A lexeme that is rejected leaves a diagnostic with its message. -/
theorem exists_diagnostic_of_rejected {p : Place} {ls : List Lexeme} {l : Lexeme} (hl : l ∈ ls)
    {message : Message} (hv : l.verdict = .rejected message) :
    ∃ d ∈ (findingsAt p ls).map Finding.diagnostic, d.message = message.text := by
  rw [← map_lexeme_placed p ls] at hl
  obtain ⟨x, hx, rfl⟩ := List.mem_map.1 hl
  have hf : x.finding? = some ⟨x.stop.line, message⟩ := by simp [Placed.finding?, hv]
  exact ⟨_, List.mem_map_of_mem (List.mem_filterMap.2 ⟨x, hx, hf⟩), Diagnostic.ofText_message _ _ _⟩

/-- The place behind a text and a line feed, as seen from the beginning. -/
private theorem after_newline (a : String) : (Place.start.after a.toList).after ['\n'] =
    Place.start.shift (a.utf8ByteSize + 1) (1 + Text.newlines a.toList) := by
  have hb : Text.byteWidth ['\n'] = 1 := rfl
  have hn : Text.newlines ['\n'] = 1 := rfl
  rw [← Place.after_append, Place.start_after, Text.byteWidth_append, Text.newlines_append,
    Text.byteWidth_toList, hb, hn, Nat.add_comm 1]

/-- The tokens of two texts with a line feed between them. -/
theorem tokensAt_newline (a b : String) :
    tokensAt .start (lexemes a.toList ++ .blank '\n' :: lexemes b.toList) =
      tokensAt .start (lexemes a.toList) ++ (tokensAt .start (lexemes b.toList)).map
        (Token.shift (a.utf8ByteSize + 1) (1 + Text.newlines a.toList)) := by
  rw [← tokensAt_shift, ← after_newline, tokensAt_append, spell_lexemes]
  rfl

/-- The findings of two texts with a line feed between them. -/
theorem findingsAt_newline (a b : String) :
    findingsAt .start (lexemes a.toList ++ .blank '\n' :: lexemes b.toList) =
      findingsAt .start (lexemes a.toList) ++ (findingsAt .start (lexemes b.toList)).map
        (Finding.shift (1 + Text.newlines a.toList)) := by
  rw [← findingsAt_shift (a.utf8ByteSize + 1), ← after_newline, findingsAt_append, spell_lexemes]
  rfl

/-- The end of two texts with a line feed between them. -/
theorem eof_newline (a b : String) :
    Token.eof (Place.start.after (a ++ "\n" ++ b).toList).line
        (a ++ "\n" ++ b).utf8ByteSize.toUInt32 =
      (Token.eof (Place.start.after b.toList).line b.utf8ByteSize.toUInt32).shift
        (a.utf8ByteSize + 1) (1 + Text.newlines a.toList) := by
  have hs : "\n".utf8ByteSize = 1 := rfl
  have hn : Text.newlines "\n".toList = 1 := rfl
  rw [Token.shift_eof]
  congr 2
  · simp only [Place.after_line, Place.start_line, String.toList_append, Text.newlines_append, hn]
    omega
  · simp only [String.utf8ByteSize_append, hs]
    omega

/-- A token of a text begins in it. -/
theorem start_le_of_mem_tokensAt {text : List Char} {t : Token}
    (h : t ∈ tokensAt .start (lexemes text)) : t.span.start.toNat ≤ Text.byteWidth text := by
  obtain ⟨x, hx, shape, -, -, -, -, -, hspan⟩ := mem_tokensAt h
  obtain ⟨before, after, hls, hplace⟩ := mem_placed hx
  have htext := spell_lexemes text
  rw [hls, spell_append] at htext
  have hle : x.place.offset.toUInt32.toNat ≤ x.place.offset := by
    rw [Nat.toUInt32_eq, UInt32.toNat_ofNat']
    exact Nat.mod_le _ _
  rw [hspan, ← htext, Text.byteWidth_append]
  rw [hplace, Place.after_offset, Place.start_offset] at hle
  simp only [Placed.span, hplace, Place.after_offset, Place.start_offset]
  omega

/-- A text whose scan reports no string without an end has no such lexeme. -/
theorem closed_of_entries {text : List Char}
    (h : ∀ d ∈ (Scanner.ended (lexemes text) .start Collection.empty).reporter.entries,
      d.message ≠ "Unterminated string.") :
    ∀ l ∈ lexemes text, l.verdict ≠ .rejected .unterminatedString := by
  intro l hl hv
  -- such a lexeme would have left its diagnostic
  obtain ⟨d, hd, hm⟩ := exists_diagnostic_of_rejected (p := .start) hl hv
  refine h d ?_ hm
  rw [← Array.mem_toList_iff, Scanner.ended, entries_report]
  exact List.mem_append_right _ hd

/-- **A scan of two texts with a line feed between them** is a scan of each, the second one moved
behind the first and its line feed, unless the first leaves a string without an end. -/
theorem scan_append_newline (a b : String)
    (h : a.utf8ByteSize + 1 + b.utf8ByteSize < UInt32.size) :
    ∃ ta sa tb sb, scan a Collection.empty = .ok (ta, sa) ∧
      scan b Collection.empty = .ok (tb, sb) ∧
      (∀ t ∈ tb, t.span.start.toNat + (a.utf8ByteSize + 1) < UInt32.size) ∧
      ((∀ d ∈ sa.reporter.entries, d.message ≠ "Unterminated string.") →
        ∃ s, scan (a ++ "\n" ++ b) Collection.empty =
            .ok ((proper ta).toArray ++
              tb.map (Token.shift (a.utf8ByteSize + 1) (1 + Text.newlines a.toList)), s) ∧
          s.reporter.entries = sa.reporter.entries ++
            sb.reporter.entries.map (Diagnostic.shift (1 + Text.newlines a.toList))) := by
  have hsize : (a ++ "\n" ++ b).utf8ByteSize < UInt32.size := by
    have : "\n".utf8ByteSize = 1 := rfl
    simp only [String.utf8ByteSize_append]
    omega
  refine ⟨_, _, _, _, scan_eq Collection.empty (by omega), scan_eq Collection.empty (by omega),
    ?_, ?_⟩
  · -- a token of the second text begins in it, so moved it begins in the joined one
    intro t ht
    have hle : t.span.start.toNat ≤ b.utf8ByteSize := by
      rcases Array.mem_append.1 ht with ht | ht
      · simpa using start_le_of_mem_tokensAt (List.mem_toArray.1 ht)
      · obtain rfl := Array.mem_singleton.1 ht
        exact Nat.le_of_eq (toNat_toUInt32 (by omega))
    omega
  · intro hno
    have htext : (a ++ "\n" ++ b).toList = a.toList ++ '\n' :: b.toList := by simp
    have hlex : lexemes (a ++ "\n" ++ b).toList =
        lexemes a.toList ++ .blank '\n' :: lexemes b.toList := by
      rw [htext, lexemes_newline (closed_of_entries hno)]
    refine ⟨.ended (lexemes (a ++ "\n" ++ b).toList) .start Collection.empty, ?_, ?_⟩
    · rw [scan_eq Collection.empty hsize, eof_newline, hlex, tokensAt_newline,
        proper_scanned (chained_lexemes a.toList)]
      simp
    · apply Array.toList_inj.1
      have hd : Finding.diagnostic ∘ Finding.shift (1 + Text.newlines a.toList) =
          Diagnostic.shift (1 + Text.newlines a.toList) ∘ Finding.diagnostic :=
        funext fun f => f.diagnostic_shift
      simp only [Scanner.ended, Array.toList_append, Array.toList_map, entries_report, hlex,
        findingsAt_newline, List.map_append, List.map_map, hd, Collection.empty, List.nil_append]

/-- A point at the end of a line, and a digit on the next one: they make no fraction. -/
theorem scan_point_newline_digit :
    "1.".utf8ByteSize + 1 + "5".utf8ByteSize < UInt32.size ∧
      ∃ ta sa tb sb s, scan "1." Collection.empty = .ok (ta, sa) ∧
        scan "5" Collection.empty = .ok (tb, sb) ∧
        scan ("1." ++ "\n" ++ "5") Collection.empty =
          .ok ((proper ta).toArray ++ tb.map (Token.shift 3 1), s) ∧
        s.reporter.entries = sa.reporter.entries ++ sb.reporter.entries.map (Diagnostic.shift 1) := by
  have hs : "1.".utf8ByteSize + 1 + "5".utf8ByteSize < UInt32.size := by decide
  have hl : lexemes "1.".toList = [⟨['1'], .token (.number (Lexeme.numberValue ['1'] []))⟩,
      .ofMark ['.'] .dot] := by
    exact lexemes_eq_iff.2 ⟨rfl,
      .whole (List.forall_mem_singleton.2 rfl) ((Text.stops_cons _ _ _).2 rfl) (by decide),
      .mark (m := .dot) (Text.stops_nil _), trivial⟩
  obtain ⟨ta, sa, tb, sb, ha, hb, -, hrun⟩ := scan_append_newline "1." "5" hs
  -- the first text leaves nothing to report
  have hsa : sa.reporter.entries = #[] := by
    have he := ha.symm.trans (scan_eq Collection.empty (by decide))
    rw [hl] at he
    cases he
    rfl
  obtain ⟨s, hscan, hentries⟩ := hrun (by simp [hsa])
  exact ⟨hs, ta, sa, tb, sb, s, ha, hb, hscan, hentries⟩

end ScriptLexer
