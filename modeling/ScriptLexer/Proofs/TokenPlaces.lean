import ScriptLexer.Proofs.Drain

/-!
# Where tokens stand

Every token of a scan stands between two parts of its text: its span covers the bytes of its lexeme
behind the first part, and its line is the one that the first part has come to. The end stands
behind the whole text.

* `scanned`: all tokens of a text, the end included.
* `scan_eq_scanned`: a scan gives them.
* `Token.Between`: what a token says about the characters in front of it.
* `exists_between`: where the tokens of a scan stand.
-/

namespace ScriptLexer

/-- The token that ends lexemes. -/
def eofAt (p : Place) (ls : List Lexeme) : Token :=
  .eof (p.after (spell ls)).line (p.after (spell ls)).offset.toUInt32

/-- All tokens of a text: those of its lexemes and the end. -/
def scanned (text : List Char) : List Token :=
  tokensAt .start (lexemes text) ++ [eofAt .start (lexemes text)]

theorem length_scanned (text : List Char) :
    (scanned text).length = (tokensAt .start (lexemes text)).length + 1 := by
  simp [scanned]

theorem proper_scanned_toArray (text : List Char) :
    proper (scanned text).toArray = tokensAt .start (lexemes text) := by
  have hproper := proper_scanned (p := .start) (chained_lexemes text)
    (Place.start.after (spell (lexemes text))).line
    (Place.start.after (spell (lexemes text))).offset.toUInt32
  rwa [List.append_toArray] at hproper

/-- The only token of a text that marks the end stands there. -/
theorem eq_eofAt_of_isEof {text : List Char} {t : Token} (ht : t ∈ scanned text)
    (h : t.isEof = true) : t = eofAt .start (lexemes text) := by
  rcases List.mem_append.1 ht with ht | ht
  · rw [← proper_scanned_toArray] at ht
    have hne := (List.mem_filter.1 ht).2
    rw [h] at hne
    cases hne
  · exact List.mem_singleton.1 ht

/-- **A whole scan gives all tokens of its text.** -/
theorem scan_eq_scanned {source : String} (h : source.utf8ByteSize < UInt32.size) {ρ : Type}
    [Reporter ρ] (r : ρ) : scan source r =
      .ok ((scanned source.toList).toArray, .ended (lexemes source.toList) .start r) := by
  rw [scan_eq r h]
  simp [scanned, eofAt, spell_lexemes]

/-! ## Spans -/

/-- The range of a span without bytes. -/
theorem Span.range_empty (position : UInt32) :
    (Span.empty position).range = .ok (position.toNat, position.toNat) :=
  (EndsAt.of_stop (stop_eq_ok_iff.2 (Nat.add_zero _).symm)).range

/-- A range begins at the start of its span. -/
theorem Span.start_of_range {s : Span} {start stop : Nat} (h : s.range = .ok (start, stop)) :
    s.start.toNat = start := by
  unfold range Span.stop at h
  split at h
  · cases h; rfl
  · cases h

/-! ## Places -/

/-- What a token says about the characters in front of it: they are the bytes before its span, and
its line is one more than their line feeds. -/
structure Token.Between (t : Token) (before text : List Char) : Prop where
  lexeme : t.lexeme = .ofList text
  line : t.line = 1 + before.count '\n'
  range : t.span.range = .ok (Text.byteWidth before, Text.byteWidth before + Text.byteWidth text)

theorem Token.Between.start {t : Token} {before text : List Char} (h : t.Between before text) :
    t.span.start.toNat = Text.byteWidth before :=
  Span.start_of_range h.range

/-- The token of a placed lexeme stands where the lexeme does. -/
theorem Placed.between {x : Placed} {t : Token} (hx : x.token? = some t) {before : List Char}
    (hplace : x.place = Place.start.after before)
    (hsize : Text.byteWidth (before ++ x.lexeme.text) < UInt32.size) :
    t.Between before x.lexeme.text := by
  obtain ⟨shape, -, -, hlex, -, hline, hspan⟩ := x.of_token? hx
  have hoff : x.place.offset = Text.byteWidth before := by
    rw [hplace, Place.after_offset, Place.start_offset, Nat.zero_add]
  have hstop : x.stop.offset = Text.byteWidth before + Text.byteWidth x.lexeme.text := by
    rw [stop, Place.after_offset, hoff]
  rw [Text.byteWidth_append] at hsize
  refine ⟨hlex, ?_, ?_⟩
  · rw [hline, hplace, Place.after_line, Place.start_line]
    rfl
  · rw [hspan, span_range (by omega), hoff, hstop]

/-- The end stands behind all lexemes. -/
theorem eofAt_between {ls : List Lexeme} (hsize : Text.byteWidth (spell ls) < UInt32.size) :
    (eofAt .start ls).Between (spell ls) [] := by
  have hoff : (Place.start.after (spell ls)).offset = Text.byteWidth (spell ls) := by
    rw [Place.after_offset, Place.start_offset, Nat.zero_add]
  refine ⟨rfl, rfl, ?_⟩
  have hrange := Span.range_empty (Place.start.after (spell ls)).offset.toUInt32
  rw [toNat_toUInt32 (by rwa [hoff]), hoff] at hrange
  rw [eofAt, hoff]
  exact hrange

/-- **Every token of a scan stands between two parts of the text.** -/
theorem exists_between {source : String} (h : source.utf8ByteSize < UInt32.size) {t : Token}
    (ht : t ∈ scanned source.toList) : ∃ before text after,
      source.toList = before ++ (text ++ after) ∧ t.Between before text := by
  have hsize : Text.byteWidth source.toList < UInt32.size := by simpa using h
  have hspell := spell_lexemes source.toList
  rcases List.mem_append.1 ht with ht | ht
  · obtain ⟨x, hx, htok⟩ := List.mem_filterMap.1 ht
    obtain ⟨before, after, hls, hplace⟩ := mem_placed hx
    have htext : source.toList = spell before ++ (x.lexeme.text ++ spell after) := by
      rw [← hspell, hls, spell_append, spell_cons]
    refine ⟨spell before, x.lexeme.text, spell after, htext, Placed.between htok hplace ?_⟩
    rw [htext, ← List.append_assoc, Text.byteWidth_append] at hsize
    omega
  · obtain rfl := List.mem_singleton.1 ht
    refine ⟨source.toList, [], [], by simp, ?_⟩
    have hend := @eofAt_between (lexemes source.toList) (by rwa [hspell])
    rwa [hspell] at hend

/-- A token begins in its text, or at the end of it. -/
theorem start_le_of_mem_scanned {source : String} (h : source.utf8ByteSize < UInt32.size)
    {t : Token} (ht : t ∈ scanned source.toList) : t.span.start.toNat ≤ source.utf8ByteSize := by
  obtain ⟨before, text, after, hs, hb⟩ := exists_between h ht
  rw [hb.start, ← Text.byteWidth_toList, hs, Text.byteWidth_append]
  omega

end ScriptLexer
