import ScriptLexer.Proofs.Pulling

/-!
# Line numbers

A line number is one more than the line feeds in front of a position, wherever they stand: between
lexemes, in strings or at the ends of comments. Carriage returns do not count.

* `Text.lineAt?`: the line of a byte position.
* `Region.line_of_unexpected`, `Region.line_of_unterminated`: the lines of diagnostics.
* `exists_between_pulled`: the line that a scanner has come to with a token.
* `lines_count_line_feeds`: the lines of tokens, of diagnostics and of the scanner, after any number
  of requests.
-/

namespace ScriptLexer

/-- The line of a byte position of a text: one more than the line feeds in front of it. -/
def Text.lineAt? (text : List Char) (position : Nat) : Option Nat :=
  (takeBytes? position text).map fun before => 1 + before.count '\n'

theorem Text.lineAt?_append (before after : List Char) :
    lineAt? (before ++ after) (byteWidth before) = some (1 + before.count '\n') := by
  rw [lineAt?, takeBytes?_append, Option.map_some]

/-! ## Diagnostics -/

theorem Region.line_of_diagnostic? {x : Region} {d : Diagnostic} (h : x.diagnostic? = some d) :
    d.line = x.stop.line := by
  obtain ⟨message, -, rfl⟩ := Option.map_eq_some_iff.1 h
  rfl

section

variable {text : List Char} {regions : List Region} {x : Region} {d : Diagnostic}

/-- A character that begins no lexeme is reported on its own line. -/
theorem Region.line_of_unexpected (h : Tiles .start regions text) (hx : x ∈ regions)
    (hd : x.diagnostic? = some d) (hm : d.message = "Unexpected character.") :
    Text.lineAt? text x.start.offset = some d.line := by
  obtain ⟨before, after, rfl, hstart, hs⟩ := h.mem_split hx
  have hrole : x.role = .unexpected := by
    rcases code_of_diagnostic? hd with ⟨hr, -⟩ | ⟨-, -, hm'⟩
    · exact hr
    · rw [hm] at hm'
      exact absurd hm' (by decide)
  rw [Sound, hrole] at hs
  obtain ⟨c, hc, hstray⟩ := hs
  have hoff : x.start.offset = Text.byteWidth before := by
    rw [hstart, Place.after_offset, Place.start_offset, Nat.zero_add]
  -- the character itself is no line feed
  have hnone : Text.newlines [c] = 0 := List.count_eq_zero.2 (by simpa using hstray.newline.symm)
  have hline : d.line = 1 + before.count '\n' := by
    rw [line_of_diagnostic? hd, stop, Place.after_line, hc, hnone, hstart]
    rfl
  rw [hoff, hline, Text.lineAt?_append]

/-- A string without an end is reported on the last line. -/
theorem Region.line_of_unterminated (h : Tiles .start regions text) (hx : x ∈ regions)
    (hd : x.diagnostic? = some d) (hm : d.message = "Unterminated string.") :
    d.line = 1 + text.count '\n' := by
  obtain ⟨before, after, rfl, hstart, hs⟩ := h.mem_split hx
  have hrole : x.role = .unterminated := by
    rcases code_of_diagnostic? hd with ⟨-, -, hm'⟩ | ⟨hr, -⟩
    · rw [hm] at hm'
      exact absurd hm' (by decide)
    · exact hr
  rw [Sound, hrole] at hs
  obtain ⟨-, rfl⟩ := hs
  rw [line_of_diagnostic? hd, stop, hstart, List.append_nil, ← Place.after_append]
  rfl

end

/-! ## Tokens and the scanner -/

/-- **With a token the scanner has come to the line of the token's end.** -/
theorem exists_between_pulled {source : String} (h : source.utf8ByteSize < UInt32.size)
    {ρ : Type} [Reporter ρ] (r : ρ) {j : Nat} {t : Token}
    (ht : (scanned source.toList)[j]? = some t) :
    ∃ before text after, source.toList = before ++ (text ++ after) ∧ t.Between before text ∧
      (Scanner.pulled (j + 1) (lexemes source.toList) .start r).line =
        1 + (before ++ text).count '\n' := by
  have hch := chained_lexemes source.toList
  have hsize : Text.byteWidth source.toList < UInt32.size := by simpa using h
  have hspell := spell_lexemes source.toList
  rw [scanned] at ht
  rcases Nat.lt_or_ge j (tokensAt .start (lexemes source.toList)).length with hj | hj
  · rw [List.getElem?_append_left hj] at ht
    obtain ⟨front, l, hcut, hl⟩ := exists_cut_eq hch ht
    have htext := spell_cut (j + 1) (lexemes source.toList)
    rw [hspell, hcut, spell_append, spell_cons, spell_nil, List.append_nil,
      List.append_assoc] at htext
    have hfront : Text.byteWidth (spell front ++ l.text) < UInt32.size := by
      rw [htext, ← List.append_assoc, Text.byteWidth_append] at hsize
      omega
    refine ⟨spell front, l.text, _, htext, Placed.between hl rfl hfront, ?_⟩
    · rw [Scanner.line, Scanner.pulled, hcut, spell_append, spell_cons, spell_nil,
        List.append_nil]
      rfl
  · rw [List.getElem?_append_right hj] at ht
    obtain rfl := List.mem_singleton.1 (List.mem_of_getElem? ht)
    have hend := @eofAt_between (lexemes source.toList) (by rwa [hspell])
    rw [hspell] at hend
    refine ⟨source.toList, [], [], by simp, hend, ?_⟩
    rw [Scanner.pulled_eq_ended hch (Nat.lt_succ_of_le hj), Scanner.line, Scanner.ended, hspell,
      List.append_nil]
    rfl

/-- **Lines count line feeds**, after any number of requests. A token is on the line of its first
character, the end on the last line; a character that begins no lexeme is reported on its line, a
string without an end on the last one; and the scanner has come to the line of the end of the token
it gave last. -/
theorem lines_count_line_feeds (source : String) (h : source.utf8ByteSize < UInt32.size) :
    ∃ tokens s regions, scan source Collection.empty = .ok (tokens, s) ∧
      Accounts source (proper tokens) s.reporter.entries.toList regions ∧
      (∀ x ∈ regions, ∀ d, x.diagnostic? = some d →
        (d.message = "Unexpected character." →
          Text.lineAt? source.toList x.start.offset = some d.line) ∧
        (d.message = "Unterminated string." → d.line = 1 + source.toList.count '\n')) ∧
      ∀ k, ∃ returned s', (Scanner.ofText source Collection.empty).pull k = .ok (returned, s') ∧
        (∀ t, some t ∈ returned → Text.lineAt? source.toList t.span.start.toNat = some t.line ∧
          (t.isEof = true → t.line = 1 + source.toList.count '\n')) ∧
        (∃ passed, passed <+: regions ∧
          s'.reporter.entries.toList = passed.filterMap Region.diagnostic?) ∧
        ∀ t, returned.getLast? = some (some t) → ∃ start stop, t.span.range = .ok (start, stop) ∧
          Text.lineAt? source.toList stop = some s'.line := by
  have hch := chained_lexemes source.toList
  have htiles := tiles_regionsOf source.toList
  refine ⟨_, _, regionsOf source.toList, scan_eq_scanned h Collection.empty, ?_,
    fun x hx d hd => ⟨Region.line_of_unexpected htiles hx hd,
      Region.line_of_unterminated htiles hx hd⟩,
    fun k => ⟨_, _, pull_ofText h Collection.empty k, ?_,
      ⟨_, passed_isPrefix k source.toList, entries_pulled hch k .start⟩, ?_⟩⟩
  · rw [proper_scanned_toArray]
    exact accounts_regionsOf h
  · intro t ht
    obtain ⟨i, -, hi⟩ := List.mem_map.1 ht
    have hmem := List.mem_of_getElem? hi
    refine ⟨?_, fun he => ?_⟩
    · obtain ⟨before, text, after, htext, hb⟩ := exists_between h hmem
      rw [hb.start, hb.line, htext, Text.lineAt?_append]
    · rw [eq_eofAt_of_isEof hmem he, eofAt, spell_lexemes]
      rfl
  · intro t ht
    cases k with
    | zero => cases ht
    | succ j =>
      rw [List.range_succ, List.map_append, List.map_singleton, List.getLast?_concat,
        Option.some.injEq] at ht
      obtain ⟨before, text, after, htext, hb, hline⟩ :=
        exists_between_pulled h Collection.empty ht
      refine ⟨_, _, hb.range, ?_⟩
      rw [hline, htext, ← List.append_assoc, ← Text.byteWidth_append, Text.lineAt?_append]

/-- A string over two lines, a carriage return and a character that begins no lexeme: the string is
on the first line, and with it the scanner has come to the second. -/
theorem lines_of_string_over_lines :
    "\"\n\"\r@".utf8ByteSize < UInt32.size ∧ ∃ t s',
      (Scanner.ofText "\"\n\"\r@" Collection.empty).pull 1 = .ok ([some t], s') ∧
      t.kind = .string ∧ t.line = 1 ∧ s'.line = 2 := by
  have hs : "\"\n\"\r@".utf8ByteSize < UInt32.size := by decide
  have hl : lexemes "\"\n\"\r@".toList = [⟨'"' :: ['\n'] ++ ['"'], .token (.string "\n")⟩,
      .blank '\r', ⟨['@'], .rejected .unexpectedCharacter⟩] := by
    exact lexemes_eq_iff.2 ⟨rfl, .string (by decide), .blank (.inr rfl), .unexpected stray_at,
      trivial⟩
  obtain ⟨tokens, s, regions, -, -, -, hk⟩ := lines_count_line_feeds "\"\n\"\r@" hs
  obtain ⟨returned, s', hpull, htokens, -, hlast⟩ := hk 1
  have he := hpull.symm.trans (pull_ofText hs Collection.empty 1)
  rw [scanned, hl] at he
  obtain ⟨rfl, -⟩ := Prod.mk.inj (Except.ok.inj he)
  obtain ⟨start, stop, hrange, hline⟩ := hlast _ rfl
  have hstart := (htokens _ List.mem_cons_self).1
  refine ⟨hs, _, s', hpull, rfl, (Option.some.inj hstart).symm, ?_⟩
  cases hrange
  exact (Option.some.inj hline).symm

end ScriptLexer
