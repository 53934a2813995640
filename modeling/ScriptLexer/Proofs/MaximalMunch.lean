import ScriptLexer.Proofs.Drain
import ScriptLexer.Proofs.Grammar

/-!
# A scan takes the longest match

Of all beginnings of a text that belong to a class of lexemes, a scan takes the longest; where there
is none it takes a character, or all of the text behind a quote, and reports it. Nothing else
determines the lexemes of a text.

* `LexicalClass.Longest`: the longest beginning of a text that belongs to a class.
* `Munches`, `Munched`: one longest match, and one after another to the end of a text.
* `munched_iff`: they are the lexemes that a scan takes.
* `scan_takes_longest_matches`: what becomes of them.
-/

namespace ScriptLexer

/-- No beginning of a text belongs to a class. -/
def Unmatched (text : List Char) : Prop :=
  ∀ (k : LexicalClass) (w : List Char), w ≠ [] → w <+: text → w ∉ k.language

/-- `w` is the longest beginning of a text that belongs to a class, and `k` is its class. -/
structure LexicalClass.Longest (k : LexicalClass) (w text : List Char) : Prop where
  nonempty : w ≠ []
  beginning : w <+: text
  mem : w ∈ k.language
  longest : ∀ (k' : LexicalClass) (w' : List Char), w' <+: text → w' ∈ k'.language →
    w'.length ≤ w.length

/-- One match at the front of a text. -/
inductive Munches : List Char → Lexeme → Prop
  | longest {k : LexicalClass} {w text} (h : k.Longest w text) : Munches text ⟨w, k.verdict w⟩
  | unterminated {rest} (h : Unmatched ('"' :: rest)) :
      Munches ('"' :: rest) ⟨'"' :: rest, .rejected .unterminatedString⟩
  | unexpected {c rest} (hc : c ≠ '"') (h : Unmatched (c :: rest)) :
      Munches (c :: rest) ⟨[c], .rejected .unexpectedCharacter⟩

/-- One match after another, to the end of a text. -/
inductive Munched : List Char → List Lexeme → Prop
  | done : Munched [] []
  | step {l : Lexeme} {rest ls} (h : Munches (l.text ++ rest) l) (hs : Munched rest ls) :
      Munched (l.text ++ rest) (l :: ls)

/-! ## More text behind a lexeme -/

namespace Lexeme

variable {l : Lexeme} {tail : List Char}

/-- A number takes all digits that it begins with. -/
private theorem number_covers (c : Char) (rest : List Char) :
    (rest.takeWhile Char.isDigit).length < (number c rest).1.text.length ∧
      ∃ value, (number c rest).1.verdict = .token (.number value) := by
  unfold number
  split
  · split
    · refine ⟨?_, _, rfl⟩
      simp only [List.length_append, List.length_cons]
      omega
    · exact ⟨by simp, _, rfl⟩
  · exact ⟨by simp, _, rfl⟩

/-- A mark with more text behind it is a lexeme, or the beginning of one. -/
private theorem grows_mark (m : Punctuation) (tail : List Char) :
    ∃ l' rest, Reads l' rest ∧ l'.text ++ rest = m.text.toList ++ tail ∧
      m.text.toList.length ≤ l'.text.length ∧ ∀ message, l'.verdict ≠ .rejected message := by
  by_cases hs : Text.Stops m.extends tail
  · exact ⟨_, tail, .mark hs, rfl, le_rfl, by simp [ofMark]⟩
  obtain ⟨x, xs, rfl, hx⟩ : ∃ x xs, tail = x :: xs ∧ m.extends x = true := by
    cases tail with
    | nil => exact absurd (Text.stops_nil _) hs
    | cons x xs => exact ⟨x, xs, rfl, by simpa using hs⟩
  rcases m.sorts with ⟨c, hc⟩ | ⟨c, a, hc, -⟩ | ⟨c, j, hc, -⟩ | rfl
  · rw [(Punctuation.text_of_single? hc).2] at hx; cases hx
  · rw [(Punctuation.text_of_pair? hc).2.2.2] at hx; cases hx
  · -- the first half of a pair, and the equals sign
    obtain ⟨ha, hj, he, he'⟩ := Punctuation.text_of_pair? hc
    obtain rfl : x = '=' := by simpa [he] using hx
    refine ⟨_, xs, .mark (m := j) fun y _ => he' y, ?_, ?_, by simp [ofMark]⟩
    · simp [ofMark, ha, hj]
    · simp [ofMark, ha, hj]
  · -- a slash, and the second one of a comment
    obtain rfl : x = '/' := by simpa [Punctuation.extends] using hx
    refine ⟨(slash ('/' :: xs)).1, (slash ('/' :: xs)).2, slash_reads, ?_, ?_, ?_⟩
    · exact first_append '/' ('/' :: xs)
    · exact List.length_pos_iff.2 (first_text_ne_nil '/' ('/' :: xs))
    · intro message h; cases h

/-- **More text makes a lexeme longer, never shorter**: the first lexeme of a text that begins with
one that is not rejected has all its characters, and is not rejected either. -/
theorem Reads.grows (h : l.Reads []) (hv : ∀ message, l.verdict ≠ .rejected message)
    (tail : List Char) :
    ∃ l' rest, Reads l' rest ∧ l'.text ++ rest = l.text ++ tail ∧
      l.text.length ≤ l'.text.length ∧ ∀ message, l'.verdict ≠ .rejected message := by
  cases h with
  | @mark m => exact grows_mark m tail
  | @comment body _ hb _ =>
    refine ⟨⟨'/' :: '/' :: (body ++ tail.takeWhile (· ≠ '\n')), .skipped⟩,
      tail.dropWhile (· ≠ '\n'), .comment ?_ (Text.stops_dropWhile _ _), ?_, ?_, ?_⟩
    · simp only [List.mem_append, not_or]
      exact ⟨hb, Text.notMem_takeWhile_ne _ _⟩
    · simp
    · simp
    · intro message h; cases h
  | blank hc => exact ⟨_, tail, .blank hc, rfl, le_rfl, hv⟩
  | string hb => exact ⟨_, tail, .string hb, rfl, le_rfl, hv⟩
  | unterminated => exact absurd rfl (hv _)
  | @whole c ds _ hd =>
    -- more digits or a fraction may follow, so the number is the one that is read
    obtain ⟨hc, hds⟩ := List.forall_mem_cons.1 hd
    obtain ⟨hlen, value, hval⟩ := number_covers c (ds ++ tail)
    refine ⟨(number c (ds ++ tail)).1, (number c (ds ++ tail)).2, number_reads hc, ?_, ?_, ?_⟩
    · rw [← first_digit hc]
      exact first_append c (ds ++ tail)
    · rw [List.takeWhile_append_of_pos hds, List.length_append] at hlen
      simp only [List.length_cons]
      omega
    · intro message h; rw [hval] at h; cases h
  | @fraction c ds d es _ hd he =>
    refine ⟨⟨c :: ds ++ '.' :: d :: (es ++ tail.takeWhile Char.isDigit), .token (.number _)⟩,
      tail.dropWhile Char.isDigit, .fraction hd ?_ (Text.stops_dropWhile _ _), ?_, ?_, ?_⟩
    · rw [← List.cons_append]
      exact Text.forall_mem_append_takeWhile he tail
    · simp
    · simp
    · intro message h; cases h
  | @word c cs _ hc hw =>
    refine ⟨⟨c :: (cs ++ tail.takeWhile isWordPart), .token (.plain _)⟩,
      tail.dropWhile isWordPart, .word hc ?_ (Text.stops_dropWhile _ _), ?_, ?_, ?_⟩
    · exact Text.forall_mem_append_takeWhile hw tail
    · simp
    · simp
    · intro message h; cases h
  | unexpected => exact absurd rfl (hv _)

end Lexeme

/-! ## Matches and lexemes -/

theorem LexicalClass.verdict_ne_rejected (k : LexicalClass) (w : List Char) (message : Message) :
    k.verdict w ≠ .rejected message := by
  cases k <;> simp [verdict]

/-- A lexeme has all characters of every match in front of the same text, and where there is a
match it is not rejected. -/
theorem Lexeme.Reads.covers {l : Lexeme} {rest w : List Char} (h : l.Reads rest)
    (hw : w <+: l.text ++ rest) {k : LexicalClass} (hk : w ∈ k.language) :
    w.length ≤ l.text.length ∧ ∀ message, l.verdict ≠ .rejected message := by
  obtain ⟨tail, ht⟩ := hw
  obtain ⟨l', rest', hr, heq, hlen, hv⟩ :=
    (LexicalClass.reads_of_mem hk).grows (k.verdict_ne_rejected w) tail
  obtain ⟨rfl, -⟩ := h.unique hr (by rw [heq, ← ht])
  exact ⟨hlen, hv⟩

/-- **The lexeme that a scan takes is the longest match.** -/
theorem Lexeme.Reads.munches {l : Lexeme} {rest : List Char} (h : l.Reads rest) :
    Munches (l.text ++ rest) l := by
  rcases h.mem_language with ⟨message, hv⟩ | ⟨k, hk, hv⟩
  · -- where there is a match the lexeme is not rejected
    have hu : Unmatched (l.text ++ rest) := fun k w _ hw hk => (h.covers hw hk).2 message hv
    cases h with
    | unterminated hb =>
      rw [List.append_nil] at hu ⊢
      exact .unterminated hu
    | unexpected hc => exact .unexpected hc.quote hu
    | _ => cases hv
  · have hl : k.Longest l.text (l.text ++ rest) :=
      ⟨h.text_ne_nil, List.prefix_append _ _, hk, fun k' w' hw' hk' => (h.covers hw' hk').1⟩
    have hm := Munches.longest hl
    rwa [← hv] at hm

/-- A text has one longest match. -/
theorem Munches.unique {text : List Char} {l l' : Lexeme} (h : Munches text l)
    (h' : Munches text l') : l = l' := by
  cases h with
  | @longest k w _ h =>
    cases h' with
    | @longest k' w' _ h' =>
      have hle := h'.longest k w h.beginning h.mem
      have hge := h.longest k' w' h'.beginning h'.mem
      obtain rfl : w = w' := (List.prefix_of_prefix_length_le h.beginning h'.beginning hle).eq_of_length
        (Nat.le_antisymm hle hge)
      -- the text of both is the same, and alone it is read as one lexeme
      exact ((LexicalClass.reads_of_mem h.mem).unique (LexicalClass.reads_of_mem h'.mem) rfl).1
    | unterminated hu => exact absurd h.mem (hu k w h.nonempty h.beginning)
    | unexpected hc hu => exact absurd h.mem (hu k w h.nonempty h.beginning)
  | unterminated hu =>
    cases h' with
    | @longest k w _ h => exact absurd h.mem (hu k w h.nonempty h.beginning)
    | unterminated => rfl
    | unexpected hc => exact absurd rfl hc
  | unexpected hc hu =>
    cases h' with
    | @longest k w _ h => exact absurd h.mem (hu k w h.nonempty h.beginning)
    | unterminated => exact absurd rfl hc
    | unexpected => rfl

theorem Munches.text_ne_nil {text : List Char} {l : Lexeme} (h : Munches text l) : l.text ≠ [] := by
  cases h with
  | longest h => exact h.nonempty
  | _ => simp

theorem munched_spell {ls : List Lexeme} (h : Chained ls) : Munched (spell ls) ls := by
  induction ls with
  | nil => exact .done
  | cons l ls ih =>
    rw [spell_cons]
    exact .step h.1.munches (ih h.2)

/-- **Longest matches one after another are the lexemes that a scan takes.** -/
theorem munched_iff {text : List Char} {ls : List Lexeme} :
    Munched text ls ↔ ls = lexemes text := by
  constructor
  · intro h
    induction h with
    | done => exact lexemes_nil.symm
    | @step l rest ls h hs ih =>
      obtain ⟨c, cs, ht⟩ := List.exists_cons_of_ne_nil h.text_ne_nil
      rw [ht, List.cons_append] at h
      have happ := Lexeme.first_append c (cs ++ rest)
      have hfirst := (Lexeme.first_reads c (cs ++ rest)).munches
      rw [happ] at hfirst
      -- the match at the front is the first lexeme, so the same text follows both
      obtain rfl := h.unique hfirst
      have hrest : (Lexeme.first c (cs ++ rest)).2 = rest := by
        rw [ht, List.cons_append, List.cons.injEq] at happ
        exact List.append_cancel_left happ.2
      rw [ht, List.cons_append, lexemes_cons, hrest, ← ih]
  · rintro rfl
    have h := munched_spell (chained_lexemes text)
    rwa [spell_lexemes] at h

/-- The token of a lexeme of a text: its kind and value are those of its shape, and the other parts
tell its characters and its place. -/
theorem token?_of_mem_placed {text : List Char} {p : Place} {x : Placed}
    (hx : x ∈ placed p (lexemes text)) {shape : Shape} (hv : x.lexeme.verdict = .token shape) :
    ∃ h, x.token? = some ⟨shape.kind, .ofList x.lexeme.text, shape.literal, x.place.line, x.span, h⟩ := by
  obtain ⟨rest, hr⟩ := (chained_lexemes text).reads_of_mem_placed hx
  exact ⟨hr.suits hv, hr.token?_eq hv x.place⟩

/-- **A scan takes the longest matches of a text one after another**, gives a token for each that
its class makes one, in the order of the text and with the end behind them, and hands the reporter
one finding for each that no class matches. A word's kind is that of the keyword that it spells, or
else an identifier. -/
theorem scan_takes_longest_matches {ρ : Type} [Reporter ρ] (source : String) (r : ρ)
    (h : source.utf8ByteSize < UInt32.size) :
    (∀ ls, Munched source.toList ls ↔ ls = lexemes source.toList) ∧
      scan source r = .ok ((tokensAt .start (lexemes source.toList)).toArray ++
        #[.eof (Place.start.after source.toList).line source.utf8ByteSize.toUInt32],
        .ended (lexemes source.toList) .start r) ∧
      (∀ x ∈ placed .start (lexemes source.toList), ∀ shape, x.lexeme.verdict = .token shape →
        ∃ h, x.token? = some
          ⟨shape.kind, .ofList x.lexeme.text, shape.literal, x.place.line, x.span, h⟩) ∧
      ∀ word, (∀ k : Keyword, Kind.ofWord word = .keyword k ↔ k.text = word) ∧
        (Kind.ofWord word = .identifier ↔ ∀ k : Keyword, k.text ≠ word) :=
  ⟨fun _ => munched_iff, scan_eq r h, fun _ hx _ hv => token?_of_mem_placed hx hv,
    fun _ => ⟨fun _ => Kind.ofWord_eq_keyword_iff, Kind.ofWord_eq_identifier_iff⟩⟩

/-- A point without a digit behind it does not belong to the number in front of it. -/
theorem longest_matches_of_point :
    "1.//x".utf8ByteSize < UInt32.size ∧ ∀ ls, Munched "1.//x".toList ls ↔
      ls = [⟨['1'], .token (.number (Lexeme.numberValue ['1'] []))⟩, .ofMark ['.'] .dot,
        ⟨['/', '/', 'x'], .skipped⟩] := by
  have hs : "1.//x".utf8ByteSize < UInt32.size := by decide
  have hl : lexemes "1.//x".toList = [⟨['1'], .token (.number (Lexeme.numberValue ['1'] []))⟩,
      .ofMark ['.'] .dot, ⟨['/', '/', 'x'], .skipped⟩] := by
    exact lexemes_eq_iff.2 ⟨rfl,
      .whole (List.forall_mem_singleton.2 rfl) ((Text.stops_cons _ _ _).2 rfl) (by decide),
      .mark (m := .dot) fun _ _ => rfl, .comment (by decide) (by simp), trivial⟩
  have h := (scan_takes_longest_matches "1.//x" Collection.empty hs).1
  rw [hl] at h
  exact ⟨hs, h⟩

end ScriptLexer
