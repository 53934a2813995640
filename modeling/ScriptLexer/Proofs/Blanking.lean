import ScriptLexer.Proofs.OpenString
import ScriptLexer.Proofs.Pulling

/-!
# Spaces in place of what becomes no token

Put spaces in the place of comments, of blanks that stay on their line and of characters that begin
no lexeme, as many as they take bytes. What a token's lexeme is depends on the beginning of the text
behind it alone, and a space ends it as the replaced text did. So the tokens stay as they are and
stand where they stood, and nothing is left to report but a string without an end.

* `Text.spaces`, `Region.blanked`: the text that stands in the place of a region.
* `Lexeme.fades`, `faded`: the lexemes that are replaced, and all lexemes with spaces instead.
* `chained_faded`: they are the lexemes of what they spell.
* `tokensAt_faded`, `findingsAt_faded`: what becomes of them.
* `scan_blanked`: a scan of the text with spaces.
-/

namespace ScriptLexer

/-- As many spaces as a text has bytes, character by character. -/
def Text.spaces (cs : List Char) : List Char :=
  cs.flatMap fun c => List.replicate c.utf8Size ' '

/-- What stands in the place of a region: tokens, line feeds and a string without an end stay. -/
def Region.blanked (x : Region) : List Char :=
  match x.role with
  | .token | .unterminated => x.text
  | .blank => if x.text = ['\n'] then x.text else Text.spaces x.text
  | .comment | .unexpected => Text.spaces x.text

namespace Text

theorem mem_spaces {cs : List Char} {c : Char} (h : c ∈ spaces cs) : c = ' ' := by
  obtain ⟨d, -, hc⟩ := List.mem_flatMap.1 h
  exact List.eq_of_mem_replicate hc

/-- Every space takes a byte. -/
theorem byteWidth_replicate (n : Nat) : byteWidth (List.replicate n ' ') = n := by
  induction n with
  | zero => rfl
  | succ n ih =>
    rw [List.replicate_succ, byteWidth_cons, ih]
    exact Nat.add_comm 1 n

/-- Spaces in the place of a text take as many bytes. -/
theorem byteWidth_spaces (cs : List Char) : byteWidth (spaces cs) = byteWidth cs := by
  induction cs with
  | nil => rfl
  | cons c cs ih =>
    have hcons : spaces (c :: cs) = List.replicate c.utf8Size ' ' ++ spaces cs := rfl
    rw [hcons, byteWidth_append, byteWidth_replicate, ih, byteWidth_cons]

theorem newlines_spaces (cs : List Char) : newlines (spaces cs) = 0 := by
  rw [newlines, List.count_eq_zero]
  intro h
  exact absurd (mem_spaces h) (by decide)

theorem exists_spaces_eq_cons {cs : List Char} (h : cs ≠ []) : ∃ more, spaces cs = ' ' :: more := by
  obtain ⟨c, cs, rfl⟩ := List.exists_cons_of_ne_nil h
  obtain ⟨n, hn⟩ := Nat.exists_eq_add_one_of_ne_zero (Nat.ne_of_gt c.utf8Size_pos)
  refine ⟨List.replicate n ' ' ++ spaces cs, ?_⟩
  have hcons : spaces (c :: cs) = List.replicate c.utf8Size ' ' ++ spaces cs := rfl
  rw [hcons, hn, List.replicate_succ, List.cons_append]

/-- Behind a character that stays, a text opens a fraction only if it did. -/
theorem opensFraction_of_append {w rest rest' : List Char} (hw : w ≠ [])
    (hdigit : ∀ d, rest'.head? = some d → d.isDigit = true → rest.head? = some d)
    (h : OpensFraction (w ++ rest')) : OpensFraction (w ++ rest) := by
  obtain ⟨d, more, heq, hd⟩ := h
  rcases w with _ | ⟨x, _ | ⟨y, w⟩⟩
  · exact absurd rfl hw
  · -- the point is the character that stays, and the digit is the first one behind it
    obtain ⟨rfl, hrest⟩ := List.cons.inj heq
    have hhead := hdigit d (congrArg List.head? hrest) hd
    cases rest with
    | nil => cases hhead
    | cons e rest =>
      obtain rfl := Option.some.inj hhead
      exact ⟨e, rest, rfl, hd⟩
  · simp only [List.cons_append, List.cons.injEq] at heq
    obtain ⟨rfl, rfl, -⟩ := heq
    exact ⟨y, w ++ rest, rfl, hd⟩

end Text

/-! ## Lexemes that fade -/

namespace Lexeme

/-- Whether spaces take the place of a lexeme. -/
def fades (l : Lexeme) : Bool :=
  match l.verdict with
  | .token _ => false
  | .skipped => decide (l.text ≠ ['\n'])
  | .rejected message => decide (message = .unexpectedCharacter)

/-- The lexemes that take the place of one. -/
def substitutes (l : Lexeme) : List Lexeme :=
  if l.fades then (Text.spaces l.text).map blank else [l]

theorem substitutes_of_fades {l : Lexeme} (h : l.fades = true) :
    l.substitutes = (Text.spaces l.text).map blank := if_pos h

theorem substitutes_of_not_fades {l : Lexeme} (h : l.fades = false) : l.substitutes = [l] := by
  rw [substitutes, h]
  rfl

/-- A lexeme that fades has no line feed. -/
theorem Reads.newlines_of_fades {l : Lexeme} {rest : List Char} (h : l.Reads rest)
    (hf : l.fades = true) : Text.newlines l.text = 0 := by
  rw [Text.newlines, List.count_eq_zero]
  cases h with
  | comment hb => simpa using hb
  | @blank c _ hc =>
    have hne : c ≠ '\n' := by simpa [fades] using hf
    simpa using hne.symm
  | unexpected hc => simpa using hc.newline.symm
  | _ => cases hf

/-- A lexeme that does not fade is a token's, a line feed, or the last one. -/
theorem Reads.cases_of_not_fades {l : Lexeme} {rest : List Char} (h : l.Reads rest)
    (hf : l.fades = false) :
    (∃ shape, l.verdict = .token shape) ∨ l = Lexeme.blank '\n' ∨ rest = [] := by
  cases h with
  | comment hb => simp [fades] at hf
  | @blank c _ hc =>
    obtain rfl : c = '\n' := by simpa [fades] using hf
    exact .inr (.inl rfl)
  | unterminated => exact .inr (.inr rfl)
  | unexpected => cases hf
  | _ => exact .inl ⟨_, rfl⟩

end Lexeme

theorem spell_map_blank (cs : List Char) : spell (cs.map Lexeme.blank) = cs := by
  induction cs with
  | nil => rfl
  | cons c cs ih =>
    rw [List.map_cons, spell_cons, ih]
    rfl

/-- Blanks in front of chained lexemes are chained with them. -/
theorem Chained.map_blank_append {ls : List Lexeme} (h : Chained ls) {cs : List Char}
    (hb : ∀ c ∈ cs, c = '\n' ∨ isLineBlank c = true) : Chained (cs.map .blank ++ ls) := by
  induction cs with
  | nil => exact h
  | cons c cs ih =>
    obtain ⟨hc, hcs⟩ := List.forall_mem_cons.1 hb
    exact ⟨.blank hc, ih hcs⟩

/-- Lexemes with spaces in the place of those that fade. -/
def faded (ls : List Lexeme) : List Lexeme :=
  ls.flatMap Lexeme.substitutes

theorem faded_cons (l : Lexeme) (ls : List Lexeme) : faded (l :: ls) = l.substitutes ++ faded ls := rfl

/-- What faded lexemes spell begins with a space, or as before. -/
theorem head?_spell_faded {ls : List Lexeme} (h : Chained ls) :
    (spell (faded ls)).head? = some ' ' ∨ (spell (faded ls)).head? = (spell ls).head? := by
  cases ls with
  | nil => exact .inr rfl
  | cons l ls =>
    rw [faded_cons, spell_append, spell_cons]
    cases hf : l.fades with
    | true =>
      obtain ⟨more, hmore⟩ := Text.exists_spaces_eq_cons h.1.text_ne_nil
      rw [Lexeme.substitutes_of_fades hf, spell_map_blank, hmore]
      exact .inl rfl
    | false =>
      obtain ⟨c, cs, hc⟩ := List.exists_cons_of_ne_nil h.1.text_ne_nil
      rw [Lexeme.substitutes_of_not_fades hf, spell_cons, spell_nil, hc]
      exact .inr rfl

/-- **A token's lexeme reads in front of faded lexemes as it did in front of the lexemes.** -/
theorem Lexeme.Reads.of_faded {l : Lexeme} {ls : List Lexeme} (h : l.Reads (spell ls))
    (hls : Chained ls) {shape : Shape} (hv : l.verdict = .token shape) :
    l.Reads (spell (faded ls)) := by
  have hne : l.verdict ≠ .rejected .unterminatedString := by simp [hv]
  cases ls with
  | nil => exact h
  | cons m ls =>
    rw [faded_cons, spell_append]
    cases hf : m.fades with
    | true =>
      -- a space follows
      obtain ⟨more, hmore⟩ := Text.exists_spaces_eq_cons hls.1.text_ne_nil
      rw [Lexeme.substitutes_of_fades hf, spell_map_blank, hmore]
      exact (h.alone hv).append_blank hv (.inr rfl) (more ++ spell (faded ls))
    | false =>
      -- the same lexeme follows, and behind a point of it no digit that was not there
      rw [Lexeme.substitutes_of_not_fades hf, spell_cons, spell_nil, List.append_nil]
      rw [spell_cons] at h
      refine h.of_head hne ?_ (Text.opensFraction_of_append hls.1.text_ne_nil ?_)
      · obtain ⟨c, cs, hc⟩ := List.exists_cons_of_ne_nil hls.1.text_ne_nil
        rw [hc]
        rfl
      · intro d hd hdigit
        rcases head?_spell_faded hls.2 with hspace | hsame
        · obtain rfl := Option.some.inj (hd.symm.trans hspace)
          cases hdigit
        · rwa [← hsame]

/-- **Faded lexemes are chained.** -/
theorem chained_faded {ls : List Lexeme} (h : Chained ls) : Chained (faded ls) := by
  induction ls with
  | nil => trivial
  | cons l ls ih =>
    have hls := ih h.2
    rw [faded_cons]
    cases hf : l.fades with
    | true =>
      rw [Lexeme.substitutes_of_fades hf]
      exact hls.map_blank_append fun c hc => .inr (by rw [Text.mem_spaces hc]; rfl)
    | false =>
      rw [Lexeme.substitutes_of_not_fades hf]
      refine ⟨?_, hls⟩
      rcases h.1.cases_of_not_fades hf with ⟨shape, hv⟩ | rfl | hnil
      · exact h.1.of_faded h.2 hv
      · exact .blank (.inl rfl)
      · obtain rfl := h.2.eq_nil_of_spell hnil
        exact h.1

/-! ## What becomes of them -/

/-- The region of a lexeme that reads, with spaces in its place if the lexeme fades. -/
theorem Lexeme.Reads.blanked {l : Lexeme} {rest : List Char} (h : l.Reads rest) (p : Place) :
    (Placed.region ⟨p, l⟩).blanked = spell l.substitutes := by
  cases hf : l.fades with
  | true =>
    rw [substitutes_of_fades hf, spell_map_blank]
    cases h with
    | comment hb => rfl
    | @blank c _ hc =>
      have hne : c ≠ '\n' := by simpa [fades] using hf
      simp [Placed.region, Region.blanked, role, hne]
    | unexpected hc => rfl
    | _ => cases hf
  | false =>
    rw [substitutes_of_not_fades hf, spell_cons, spell_nil, List.append_nil]
    cases h with
    | comment hb => simp [fades] at hf
    | @blank c _ hc =>
      obtain rfl : c = '\n' := by simpa [fades] using hf
      rfl
    | unexpected hc => cases hf
    | _ => rfl

/-- **The text with spaces** is what the faded lexemes spell. -/
theorem flatMap_blanked {ls : List Lexeme} (h : Chained ls) (p : Place) :
    ((placed p ls).map Placed.region).flatMap Region.blanked = spell (faded ls) := by
  induction ls generalizing p with
  | nil => rfl
  | cons l ls ih =>
    rw [placed_cons, List.map_cons, List.flatMap_cons, ih h.2, h.1.blanked, faded_cons,
      spell_append]

/-- The place behind the lexemes that take the place of one is the same. -/
theorem Lexeme.Reads.after_substitutes {l : Lexeme} {rest : List Char} (h : l.Reads rest)
    (p : Place) : p.after (spell l.substitutes) = p.after l.text := by
  cases hf : l.fades with
  | true =>
    rw [substitutes_of_fades hf, spell_map_blank, Place.after, Place.after, Text.byteWidth_spaces,
      Text.newlines_spaces, h.newlines_of_fades hf]
  | false => rw [substitutes_of_not_fades hf, spell_cons, spell_nil, List.append_nil]

theorem after_faded {ls : List Lexeme} (h : Chained ls) (p : Place) :
    p.after (spell (faded ls)) = p.after (spell ls) := by
  induction ls generalizing p with
  | nil => rfl
  | cons l ls ih =>
    rw [faded_cons, spell_append, spell_cons, Place.after_append, Place.after_append,
      h.1.after_substitutes, ih h.2]

theorem tokensAt_map_blank (p : Place) (cs : List Char) : tokensAt p (cs.map Lexeme.blank) = [] := by
  induction cs generalizing p with
  | nil => rfl
  | cons c cs ih =>
    rw [List.map_cons, tokensAt_cons_other (by intro shape hs; cases hs), ih]

theorem findingsAt_map_blank (p : Place) (cs : List Char) :
    findingsAt p (cs.map Lexeme.blank) = [] := by
  induction cs generalizing p with
  | nil => rfl
  | cons c cs ih =>
    rw [List.map_cons, findingsAt_cons, ih]
    rfl

/-- A lexeme that fades leaves no token, and no finding but that of its character. -/
theorem Lexeme.verdict_of_fades {l : Lexeme} (h : l.fades = true) :
    l.verdict = .skipped ∨ l.verdict = .rejected .unexpectedCharacter := by
  unfold fades at h
  split at h
  · cases h
  next hv => exact .inl hv
  next message hv => exact .inr (by rw [hv, of_decide_eq_true h])

/-- **The tokens of faded lexemes** are those of the lexemes. -/
theorem tokensAt_faded {ls : List Lexeme} (h : Chained ls) (p : Place) :
    tokensAt p (faded ls) = tokensAt p ls := by
  induction ls generalizing p with
  | nil => rfl
  | cons l ls ih =>
    rw [faded_cons, tokensAt_append, h.1.after_substitutes, ih h.2]
    cases hf : l.fades with
    | true =>
      have hv : ∀ shape, l.verdict ≠ .token shape := by
        intro shape hs
        rcases Lexeme.verdict_of_fades hf with hv | hv <;> rw [hv] at hs <;> cases hs
      rw [Lexeme.substitutes_of_fades hf, tokensAt_map_blank, tokensAt_cons_other hv,
        List.nil_append]
    | false =>
      have hsplit := tokensAt_append p [l] ls
      rw [spell_cons, spell_nil, List.append_nil] at hsplit
      rw [Lexeme.substitutes_of_not_fades hf, ← hsplit, List.singleton_append]

/-- Whether a finding tells of a string without an end. -/
def Finding.isOpen (f : Finding) : Bool :=
  f.message = .unterminatedString

/-- A lexeme that does not fade is rejected only as a string without an end. -/
theorem Lexeme.Reads.filter_finding? {l : Lexeme} {rest : List Char} (h : l.Reads rest)
    (p : Place) : findingsAt p l.substitutes =
      (Placed.finding? ⟨p, l⟩).toList.filter Finding.isOpen := by
  cases hf : l.fades with
  | true =>
    rw [substitutes_of_fades hf, findingsAt_map_blank]
    rcases verdict_of_fades hf with hv | hv <;> simp only [Placed.finding?, hv] <;> rfl
  | false =>
    rw [substitutes_of_not_fades hf]
    cases h with
    | unexpected hc => cases hf
    | _ => rfl

/-- **The findings of faded lexemes** are those that tell of a string without an end. -/
theorem findingsAt_faded {ls : List Lexeme} (h : Chained ls) (p : Place) :
    findingsAt p (faded ls) = (findingsAt p ls).filter Finding.isOpen := by
  induction ls generalizing p with
  | nil => rfl
  | cons l ls ih =>
    rw [faded_cons, findingsAt_append, h.1.after_substitutes, ih h.2, h.1.filter_finding?,
      findingsAt_cons, List.filter_append]

/-! ## A scan of the text with spaces -/

/-- What is reported of faded lexemes. -/
theorem entries_faded {ls : List Lexeme} (h : Chained ls) :
    (Scanner.ended (faded ls) .start Collection.empty).reporter.entries.toList =
      (Scanner.ended ls .start Collection.empty).reporter.entries.toList.filter
        (·.message = "Unterminated string.") := by
  have hreads : ∀ f ∈ findingsAt .start ls,
      decide (f.diagnostic.message = "Unterminated string.") = f.isOpen := by
    intro f hf
    obtain ⟨l, hl, hv⟩ := exists_rejected_of_mem_findingsAt hf
    obtain ⟨rest, hr⟩ := h.reads_of_mem hl
    rw [Finding.diagnostic, Diagnostic.ofText_message, Finding.isOpen]
    rcases hr.rejected_cases hv with he | he <;> rw [he] <;> rfl
  rw [Scanner.ended, Scanner.ended, entries_report, entries_report, findingsAt_faded h,
    Collection.empty, List.nil_append, List.nil_append, List.filter_map]
  exact congrArg _ (List.filter_congr hreads).symm

/-- The end of faded lexemes. -/
theorem eofAt_faded {ls : List Lexeme} (h : Chained ls) (p : Place) :
    eofAt p (faded ls) = eofAt p ls := by
  rw [eofAt, eofAt, after_faded h]

/-- A text with spaces in the place of what becomes no token. -/
def blanked (source : String) : String :=
  .ofList ((regionsOf source.toList).flatMap Region.blanked)

theorem toList_blanked (source : String) :
    (blanked source).toList = spell (faded (lexemes source.toList)) := by
  rw [blanked, String.toList_ofList, regionsOf, flatMap_blanked (chained_lexemes _)]

theorem lexemes_blanked (source : String) :
    lexemes (blanked source).toList = faded (lexemes source.toList) := by
  rw [toList_blanked, lexemes_spell (chained_faded (chained_lexemes _))]

/-- Spaces take as many bytes as what they stand for. -/
theorem utf8ByteSize_blanked (source : String) :
    (blanked source).utf8ByteSize = source.utf8ByteSize := by
  have hplace := congrArg Place.offset (after_faded (chained_lexemes source.toList) .start)
  rw [Place.after_offset, Place.after_offset, ← toList_blanked, spell_lexemes,
    Text.byteWidth_toList, Text.byteWidth_toList] at hplace
  exact Nat.add_left_cancel hplace

/-- **What becomes no token does not disturb the others.** Put spaces in the place of comments, of
blanks that stay on their line and of characters that begin no lexeme, as many as they take bytes. A
scan gives the same tokens, with the same values, lines and spans, and reports what it reported of a
string without an end and nothing else. -/
theorem scan_blanked (source : String) (h : source.utf8ByteSize < UInt32.size) :
    ∃ tokens s s', scan source Collection.empty = .ok (tokens, s) ∧
      Accounts source (proper tokens) s.reporter.entries.toList (regionsOf source.toList) ∧
      scan (blanked source) Collection.empty = .ok (tokens, s') ∧
      s'.reporter.entries.toList =
        s.reporter.entries.toList.filter (·.message = "Unterminated string.") := by
  have hch := chained_lexemes source.toList
  refine ⟨_, _, _, scan_eq_scanned h _, ?_, ?_, entries_faded hch⟩
  · rw [proper_scanned_toArray]
    exact accounts_regionsOf h
  · have hsize := utf8ByteSize_blanked source
    rw [scan_eq_scanned (by omega), scanned, lexemes_blanked, tokensAt_faded hch, eofAt_faded hch,
      scanned]

/-- A character that begins no lexeme between a point and a digit, a tab, a character of two bytes,
and a comment; a string without an end stays. -/
theorem scan_blanked_point_and_comment :
    "1.@5\té//\"\n\"+".utf8ByteSize < UInt32.size ∧
      blanked "1.@5\té//\"\n\"+" = "1. 5      \n\"+" ∧
      ∃ tokens s s', scan "1.@5\té//\"\n\"+" Collection.empty = .ok (tokens, s) ∧
        scan "1. 5      \n\"+" Collection.empty = .ok (tokens, s') ∧
        s.reporter.entries.size = 3 ∧
        s'.reporter.entries.toList = [.ofMessage .unterminatedString 2] := by
  have hsize : "1.@5\té//\"\n\"+".utf8ByteSize < UInt32.size := by decide
  have hé : Stray 'é' := ⟨by intro m; cases m <;> decide, by decide, by decide, by decide, by decide,
    by decide⟩
  have hl : lexemes "1.@5\té//\"\n\"+".toList =
      [⟨['1'], .token (.number (Lexeme.numberValue ['1'] []))⟩, .ofMark ['.'] .dot,
        ⟨['@'], .rejected .unexpectedCharacter⟩,
        ⟨['5'], .token (.number (Lexeme.numberValue ['5'] []))⟩, .blank '\t',
        ⟨['é'], .rejected .unexpectedCharacter⟩, ⟨['/', '/', '"'], .skipped⟩, .blank '\n',
        .openString ['+']] := by
    exact lexemes_eq_iff.2 ⟨rfl,
      .whole (List.forall_mem_singleton.2 rfl) ((Text.stops_cons _ _ _).2 rfl) (by decide),
      .mark (m := .dot) ((Text.stops_cons _ _ _).2 rfl), .unexpected stray_at,
      .whole (List.forall_mem_singleton.2 rfl) ((Text.stops_cons _ _ _).2 rfl) (by decide),
      .blank (.inr rfl), .unexpected hé, .comment (by decide) ((Text.stops_cons _ _ _).2 rfl),
      .blank (.inl rfl), .unterminated (by decide), trivial⟩
  have hblanked : blanked "1.@5\té//\"\n\"+" = "1. 5      \n\"+" := by
    rw [blanked, regionsOf, hl]
    rfl
  obtain ⟨tokens, s, s', hscan, -, hscan', hentries⟩ := scan_blanked "1.@5\té//\"\n\"+" hsize
  rw [hblanked] at hscan'
  have he := hscan.symm.trans (scan_eq_scanned hsize Collection.empty)
  rw [hl] at he
  cases he
  exact ⟨hsize, hblanked, _, _, s', hscan, hscan', rfl, hentries⟩

end ScriptLexer
