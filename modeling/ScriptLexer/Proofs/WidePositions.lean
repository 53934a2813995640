import Mathlib.Logic.Basic
import ScriptLexer.Proofs.Blanking
import ScriptLexer.Proofs.GivenTokens
import ScriptLexer.Proofs.SpanEnds

/-!
# Positions past the last 32-bit word

A span is made from positions of any size by cutting both to 32 bits, and only the cut ones are
compared. A range that ends past the last 32-bit position therefore has a span that covers other
bytes, unless its end is cut to less than its start. The tokens of a text of any length lie in it
one behind another, but their spans tell the low words of where.

* `Span.range_of_ofRange`, `Span.ofRange_eq_error_iff`: the span of a range of any size.
* `Scanner.Within`: a scanner stands in its text, whatever the length.
* `Scanner.Within.next`, `Scanner.Within.pull`: one request keeps it there, and so do several.
* `Scanner.Stands`, `Scanner.Falls`: where a token stands that is given, or whose span is a fault.
* `spans_keep_low_words`: which ranges have the right span, and what the span of a token tells.
-/

namespace ScriptLexer

namespace Span

variable {s : Span} {start stop : Nat}

/-- **The span of a range** covers the bytes between the low words of both ends. -/
theorem range_of_ofRange (h : ofRange start stop = .ok s) :
    s.range = .ok (start % UInt32.size, stop % UInt32.size) := by
  obtain ⟨hstart, hstop⟩ := ofBounds_eq_ok_iff.1 h
  rw [(EndsAt.of_stop hstop).range, hstart, toNat_toUInt32_mod, toNat_toUInt32_mod]

theorem ofRange_eq_error_iff {fault : Fault} : ofRange start stop = .error fault ↔
    fault = .reversedBounds ∧ stop % UInt32.size < start % UInt32.size := by
  rw [ofRange, ofBounds_eq_error_iff, UInt32.lt_iff_toNat_lt, toNat_toUInt32_mod,
    toNat_toUInt32_mod]

/-- Low words are the positions themselves where the end is a 32-bit position. -/
theorem low_words_eq_iff (hle : start ≤ stop) :
    (start % UInt32.size, stop % UInt32.size) = (start, stop) ↔ stop < UInt32.size := by
  have hpos : 0 < UInt32.size := by decide
  constructor
  · intro h
    rw [← (Prod.mk.inj h).2]
    exact Nat.mod_lt _ hpos
  · intro h
    rw [Nat.mod_eq_of_lt h, Nat.mod_eq_of_lt (Nat.lt_of_le_of_lt hle h)]

/-- **A span covers no other bytes than its range** where the range ends at a 32-bit position, or
where there is no span. -/
theorem range_of_ofRange_iff (hle : start ≤ stop) :
    (∀ s, ofRange start stop = .ok s → s.range = .ok (start, stop)) ↔
      stop < UInt32.size ∨ stop % UInt32.size < start % UInt32.size := by
  cases hspan : ofRange start stop with
  | error fault =>
    have hreversed := (ofRange_eq_error_iff.1 hspan).2
    exact iff_of_true (fun s hs => by cases hs) (.inr hreversed)
  | ok s =>
    have hordered : ¬ stop % UInt32.size < start % UInt32.size := by
      intro hreversed
      rw [ofRange_eq_error_iff.2 ⟨rfl, hreversed⟩] at hspan
      cases hspan
    simp only [Except.ok.injEq, forall_eq', range_of_ofRange hspan, low_words_eq_iff hle, hordered,
      or_false]

end Span

/-- The token of a shape that suits its kind fails with its span only. -/
theorem Shape.ofRange_of_token {shape : Shape} {text : List Char} {start stop : Place}
    {fault : Fault} (hs : shape.literal.Suits shape.kind)
    (h : shape.token text start stop = .error fault) :
    Span.ofRange start.offset stop.offset = .error fault := by
  unfold token at h
  cases hspan : Span.ofRange start.offset stop.offset with
  | error reversed =>
    simp only [hspan, bind, Except.bind, Except.error.injEq] at h
    rw [h]
  | ok span =>
    simp only [hspan, bind, Except.bind] at h
    cases shape with
    | plain kind =>
      have hplain : kind.isLiteral = false := hs
      dsimp only [Token.plain] at h
      rw [dif_pos hplain] at h
      cases h
    | number value => cases h
    | string content => cases h

/-! ## Scanners of texts of any length -/

namespace Scanner

variable {ρ : Type} {text : List Char} {s rest : Scanner ρ} {t : Token} {fault : Fault}

/-- A scanner stands in its text: what it has passed and what is left are the text, and its place is
behind what it has passed. -/
def Within (text : List Char) (s : Scanner ρ) : Prop :=
  ∃ front, text = front ++ s.pending ∧ s.place = Place.start.after front

theorem within_ofText (source : String) (r : ρ) : (ofText source r).Within source.toList :=
  ⟨[], rfl, rfl⟩

/-- A token was given in front of what is left of a text, and its span tells the low words of both
ends of its lexeme. -/
structure Stands (text : List Char) (t : Token) (left before : List Char) : Prop where
  split : text = before ++ (t.lexeme.toList ++ left)
  range : t.span.range = .ok (Text.byteWidth before % UInt32.size,
    Text.byteWidth (before ++ t.lexeme.toList) % UInt32.size)

/-- A lexeme of a text would become a token, but the low words of its ends are reversed. -/
structure Falls (text before : List Char) (l : Lexeme) (after : List Char) : Prop where
  split : text = before ++ (l.text ++ after)
  reads : l.Reads after
  token : ∃ shape, l.verdict = .token shape
  reversed : Text.byteWidth (before ++ l.text) % UInt32.size < Text.byteWidth before % UInt32.size

theorem offset_after_start (cs : List Char) :
    (Place.start.after cs).offset = Text.byteWidth cs := by
  rw [Place.after_offset, Place.start_offset, Nat.zero_add]

variable [Reporter ρ]

/-- **A request that gives a token** keeps a scanner in its text, and the token stands in front of
what is left. -/
theorem Within.next (hs : s.Within text) (h : s.next = .ok (some t, rest)) :
    rest.Within text ∧ ∃ before, Stands text t rest.pending before := by
  obtain ⟨front, htext, hplace⟩ := hs
  have hsought := sought_seek s.pending s.place s.reporter
  rw [seek_of_next h, hplace] at hsought
  cases hsought with
  | @given skipped after l shape _ r hp hl hv ht h =>
    cases h
    obtain ⟨-, hlexeme, -, hspan⟩ := Shape.of_token ht
    have hcharacters : t.lexeme.toList = l.text := by rw [hlexeme, String.toList_ofList]
    have hsplit : text = front ++ skipped ++ (l.text ++ after) := by
      rw [htext, hp, List.append_assoc]
    refine ⟨⟨front ++ (skipped ++ l.text), ?_, (Place.after_append ..).symm⟩,
      front ++ skipped, ?_, ?_⟩
    · rw [hsplit]
      simp only [List.append_assoc]
    · rw [hcharacters, hsplit]
    · rw [hcharacters, Span.range_of_ofRange hspan, ← Place.after_append, ← Place.after_append,
        offset_after_start, offset_after_start, List.append_assoc]
  | fault hp hl hv ht h => cases h
  | ending r h =>
    cases h
    have hend : (Place.start.after front).after s.pending = Place.start.after text := by
      rw [← Place.after_append, ← htext]
    have hrange := Span.range_empty (Place.start.after text).offset.toUInt32
    rw [toNat_toUInt32_mod, offset_after_start] at hrange
    refine ⟨⟨text, (List.append_nil text).symm, hend⟩, text, (List.append_nil text).symm, ?_⟩
    rw [hend, offset_after_start]
    have hempty (line : Nat) (position : UInt32) :
        (Token.eof line position).lexeme.toList = [] := rfl
    rw [hempty, List.append_nil]
    exact hrange

/-- A request that gives nothing changes nothing. -/
theorem eq_of_next_none (h : s.next = .ok (none, rest)) : rest = s := by
  unfold Scanner.next at h
  split at h
  · cases h
    rfl
  · cases hseek : seek s.pending s.place s.reporter with
    | error fault => simp [hseek, bind, Except.bind] at h
    | ok found => simp [hseek, bind, Except.bind, pure, Except.pure] at h

/-- **A request fails** only in front of a lexeme with reversed low words. -/
theorem Within.falls (hs : s.Within text) (h : s.next = .error fault) :
    fault = .reversedBounds ∧ ∃ before l after, Falls text before l after := by
  obtain ⟨front, htext, hplace⟩ := hs
  have hsought := sought_seek s.pending s.place s.reporter
  rw [seek_of_next_error h, hplace] at hsought
  cases hsought with
  | given r hp hl hv ht h => cases h
  | @fault skipped after l shape _ hp hl hv ht h =>
    cases h
    have hspan := Shape.ofRange_of_token (hl.suits hv) ht
    rw [← Place.after_append, ← Place.after_append, offset_after_start, offset_after_start,
      ← List.append_assoc] at hspan
    obtain ⟨hfault, hreversed⟩ := Span.ofRange_eq_error_iff.1 hspan
    refine ⟨hfault, front ++ skipped, l, after, ?_, hl, ⟨shape, hv⟩, hreversed⟩
    rw [htext, hp, List.append_assoc]
  | ending r h => cases h

/-- **Requests** keep a scanner in its text. -/
theorem Within.pull {k : Nat} {answers : List (Option Token)} (hs : s.Within text)
    (h : s.pull k = .ok (answers, rest)) : rest.Within text := by
  induction k generalizing s answers with
  | zero =>
    cases h
    exact hs
  | succ k ih =>
    rw [Scanner.pull] at h
    cases hnext : s.next with
    | error fault => simp [hnext, bind, Except.bind] at h
    | ok first =>
      obtain ⟨answer, middle⟩ := first
      have hmiddle : middle.Within text := by
        cases answer with
        | none => rwa [eq_of_next_none hnext]
        | some t => exact (hs.next hnext).1
      cases hpull : middle.pull k with
      | error fault => simp [hnext, hpull, bind, Except.bind] at h
      | ok later =>
        obtain ⟨tokens, last⟩ := later
        simp only [hnext, hpull, bind, Except.bind, pure, Except.pure, Except.ok.injEq,
          Prod.mk.injEq] at h
        rw [h.2] at hpull
        exact ih hmiddle hpull

/-- Blanks in front of chained lexemes are skipped. -/
theorem next_map_blank {ls : List Lexeme} (h : Chained ls) {cs : List Char}
    (hb : ∀ c ∈ cs, c = '\n' ∨ isLineBlank c = true) (p : Place) (r : ρ) :
    (before (cs.map .blank ++ ls) p r).next = (before ls (p.after cs) r).next := by
  induction cs generalizing p with
  | nil => rw [List.map_nil, List.nil_append, Place.after_nil]
  | cons c cs ih =>
    have hcs := (List.forall_mem_cons.1 hb).2
    have hchain : Chained (.blank c :: (cs.map .blank ++ ls)) := h.map_blank_append hb
    have hplace : p.after (c :: cs) = (p.after [c]).after cs := Place.after_append p [c] cs
    rw [List.map_cons, List.cons_append, next_skipped hchain rfl, hplace]
    exact ih hcs _

end Scanner

/-- **Spans keep low words.** A range has a span unless the low words of its ends are reversed, and
the span covers the bytes between these words; so it covers no other bytes than its range exactly
where the range ends at a 32-bit position or has no span. After any number of requests, for a text
of any length, a token that is given stands in front of what is left, and its span tells the low
words of its place, which are the place itself exactly where its end is a 32-bit position; and a
request fails only where the lexeme of a token has reversed low words. -/
theorem spans_keep_low_words {ρ : Type} [Reporter ρ] (source : String) (r : ρ) :
    (∀ start stop, start ≤ stop →
      (∀ fault, Span.ofRange start stop = .error fault ↔
        fault = .reversedBounds ∧ stop % UInt32.size < start % UInt32.size) ∧
      (∀ s, Span.ofRange start stop = .ok s →
        s.range = .ok (start % UInt32.size, stop % UInt32.size)) ∧
      ((∀ s, Span.ofRange start stop = .ok s → s.range = .ok (start, stop)) ↔
        stop < UInt32.size ∨ stop % UInt32.size < start % UInt32.size)) ∧
    ∀ k answers s, (Scanner.ofText source r).pull k = .ok (answers, s) →
      (∀ t rest, s.next = .ok (some t, rest) → ∃ before,
        Scanner.Stands source.toList t rest.pending before ∧
        (t.span.range = .ok (Text.byteWidth before, Text.byteWidth (before ++ t.lexeme.toList)) ↔
          Text.byteWidth (before ++ t.lexeme.toList) < UInt32.size)) ∧
      ∀ fault, s.next = .error fault → fault = .reversedBounds ∧
        ∃ before l after, Scanner.Falls source.toList before l after := by
  constructor
  · intro start stop hle
    exact ⟨fun fault => Span.ofRange_eq_error_iff, fun s => Span.range_of_ofRange,
      Span.range_of_ofRange_iff hle⟩
  · intro k answers s hpull
    have hwithin := (Scanner.within_ofText source r).pull hpull
    refine ⟨fun t rest hnext => ?_, fun fault hnext => hwithin.falls hnext⟩
    obtain ⟨before, hstands⟩ := (hwithin.next hnext).2
    have hle : Text.byteWidth before ≤ Text.byteWidth (before ++ t.lexeme.toList) := by
      rw [Text.byteWidth_append]
      exact Nat.le_add_right _ _
    refine ⟨before, hstands, ?_⟩
    rw [hstands.range, Except.ok.injEq]
    exact Span.low_words_eq_iff hle

/-! ## A word behind spaces -/

/-- A word of one letter behind some spaces. -/
def wordBehind (spaces : Nat) : String :=
  .ofList (.replicate spaces ' ' ++ ['a'])

/-- The word is given with the span of its range, wherever that is. -/
theorem next_wordBehind (spaces : Nat) {span : Span}
    (h : Span.ofRange spaces (spaces + 1) = .ok span) :
    (Scanner.ofText (wordBehind spaces) Collection.empty).next =
      .ok (some ⟨.identifier, "a", .none, 1, span, rfl⟩,
        ⟨[], ⟨spaces + 1, 1⟩, Collection.empty, false⟩) := by
  have hword : Chained [⟨['a'], .token (.plain .identifier)⟩] :=
    ⟨.word rfl (by simp) (Text.stops_nil _), trivial⟩
  have hblank : ∀ c ∈ List.replicate spaces ' ', c = '\n' ∨ isLineBlank c = true := fun c hc => by
    rw [List.eq_of_mem_replicate hc]
    exact .inr rfl
  have hplace : Place.start.after (.replicate spaces ' ') = ⟨spaces, 1⟩ := by
    have hline : Text.newlines (.replicate spaces ' ') = 0 :=
      List.count_eq_zero.2 fun h => absurd (List.eq_of_mem_replicate h) (by decide)
    rw [Place.after, Text.byteWidth_replicate, hline, Place.start_offset, Nat.zero_add]
    rfl
  have hstart : Scanner.ofText (wordBehind spaces) Collection.empty =
      .before ((List.replicate spaces ' ').map .blank ++ [⟨['a'], .token (.plain .identifier)⟩])
        .start Collection.empty := by
    rw [Scanner.ofText, Scanner.before, spell_append, spell_map_blank, wordBehind,
      String.toList_ofList]
    rfl
  have htoken : Shape.token (.plain .identifier) ['a'] ⟨spaces, 1⟩ (Place.after ⟨spaces, 1⟩ ['a']) =
      .ok ⟨.identifier, "a", .none, 1, span, rfl⟩ := by
    show (Span.ofRange spaces (spaces + 1)).bind _ = _
    rw [h]
    rfl
  rw [hstart, Scanner.next_map_blank hword hblank, hplace]
  exact Scanner.next_of_token hword rfl htoken

/-- Behind three spaces the span of the word is its place. -/
theorem span_behind_three_spaces : ∃ t rest,
    (Scanner.ofText (wordBehind 3) Collection.empty).next = .ok (some t, rest) ∧
      t.lexeme = "a" ∧ rest.pending = [] ∧ t.span.range = .ok (3, 4) := by
  have hspan : Span.ofRange 3 (3 + 1) = .ok ⟨3, 1⟩ := rfl
  have hnext := next_wordBehind 3 hspan
  obtain ⟨before, hstands, hplace⟩ :=
    ((spans_keep_low_words (wordBehind 3) Collection.empty).2 0 [] _ rfl).1 _ _ hnext
  have hbefore : before = [' ', ' ', ' '] := by
    have hsplit : [' ', ' ', ' '] ++ ['a'] = before ++ ['a'] := hstands.split
    exact (List.append_cancel_right hsplit).symm
  rw [hbefore] at hplace
  exact ⟨_, _, hnext, rfl, rfl, hplace.2 (by decide)⟩

/-- A range that begins at the first position past 32 bits has the span of the first byte, and so
has a word that stands there. -/
theorem span_past_last_position :
    (∃ s, Span.ofRange 4294967296 4294967297 = .ok s ∧ s.range = .ok (0, 1)) ∧
    (wordBehind 4294967296).utf8ByteSize = 4294967297 ∧ ∃ t rest,
      (Scanner.ofText (wordBehind 4294967296) Collection.empty).next = .ok (some t, rest) ∧
        t.lexeme = "a" ∧ rest.pending = [] ∧ t.span.range = .ok (0, 1) := by
  have hspan : Span.ofRange 4294967296 (4294967296 + 1) = .ok ⟨0, 1⟩ := by decide
  have hrange : Span.range ⟨0, 1⟩ = .ok (0, 1) := by decide
  have hsize : (wordBehind 4294967296).utf8ByteSize = 4294967297 := by
    rw [← Text.byteWidth_toList, wordBehind, String.toList_ofList, Text.byteWidth_append,
      Text.byteWidth_replicate]
    rfl
  exact ⟨⟨_, hspan, hrange⟩, hsize, _, _, next_wordBehind 4294967296 hspan, rfl, rfl, hrange⟩

end ScriptLexer
