import ScriptLexer.Proofs.PromptLines
import ScriptLexer.Proofs.Pulling

/-!
# Two characters of lookahead

What a scan takes for a token is decided by the text up to its end and the two characters behind
it, and so is all that was taken and reported before. A lexeme looks one character past its end, a
number two; a comment and a string look as far as they reach themselves, so a text may change
behind the two characters without any effect on the lexemes in front of them.

* `Text.isPrefix_of_encode`: a text is the beginning of another if its bytes are.
* `AgreeUpTo`: two texts with the same window at a position.
* `Lexeme.Reads.of_window`: what a lexeme sees of the text behind it.
* `Chained.change_rest`: the lexemes in front of a text that changes behind its window.
* `scan_agrees_up_to`: scans of texts that agree up to the end of a token.
-/

namespace ScriptLexer

/-! ## Beginnings of texts, by their bytes -/

/-- The form of a character is the beginning of no other's. -/
theorem Text.eq_of_encoding_append {c d : Char} {bytes bytes' : List UInt8}
    (h : String.utf8EncodeChar c ++ bytes = String.utf8EncodeChar d ++ bytes') : c = d := by
  have hc := @ByteArray.utf8DecodeChar?_utf8EncodeChar_append bytes.toByteArray c
  have hd := @ByteArray.utf8DecodeChar?_utf8EncodeChar_append bytes'.toByteArray d
  rw [← List.toByteArray_append, h, List.toByteArray_append, hd] at hc
  exact (Option.some.inj hc).symm

/-- **A text is the beginning of another if its bytes are.** -/
theorem Text.isPrefix_of_encode {before text : List Char}
    (h : Prompt.encode before <+: Prompt.encode text) : before <+: text := by
  induction before generalizing text with
  | nil => exact List.nil_prefix
  | cons c before ih =>
    obtain ⟨bytes, hbytes⟩ := h
    have hcons (d : Char) (ds : List Char) : Prompt.encode (d :: ds) =
        String.utf8EncodeChar d ++ Prompt.encode ds := List.flatMap_cons
    cases text with
    | nil =>
      rw [hcons, List.append_assoc] at hbytes
      exact absurd (List.append_eq_nil_iff.1 hbytes).1 String.utf8EncodeChar_ne_nil
    | cons d text =>
      rw [hcons, hcons, List.append_assoc] at hbytes
      obtain rfl := eq_of_encoding_append hbytes
      have hrest : Prompt.encode before <+: Prompt.encode text :=
        ⟨bytes, List.append_cancel_left hbytes⟩
      exact (List.prefix_cons_inj c).2 (ih hrest)

/-- **Two texts agree up to a position**: they have the same bytes in front of it, and behind it the
same two characters, or the same one and no more, or none. -/
structure AgreeUpTo (position : Nat) (a b : String) : Prop where
  bytes : a.toUTF8.data.toList.take position = b.toUTF8.data.toList.take position
  next : (Text.dropBytes? position a.toList).map (List.take 2) =
    (Text.dropBytes? position b.toList).map (List.take 2)

/-- What agrees with a text up to the end of its beginning begins in the same way and goes on with
the same two characters. -/
theorem AgreeUpTo.split {before after : List Char} {a b : String}
    (h : AgreeUpTo (Text.byteWidth before) a b) (ha : a.toList = before ++ after) :
    ∃ after', b.toList = before ++ after' ∧ after'.take 2 = after.take 2 := by
  obtain ⟨hbytes, hnext⟩ := h
  rw [Prompt.toList_toUTF8, Prompt.toList_toUTF8, ha, Prompt.encode, List.flatMap_append,
    ← Text.length_encoding, List.take_left] at hbytes
  have hprefix : Prompt.encode before <+: Prompt.encode b.toList := by
    rw [Prompt.encode, hbytes]
    exact List.take_prefix _ _
  obtain ⟨after', hb⟩ := Text.isPrefix_of_encode hprefix
  rw [ha, ← hb, Text.dropBytes?_append, Text.dropBytes?_append] at hnext
  exact ⟨after', hb.symm, (Option.some.inj hnext).symm⟩

/-! ## What a lexeme sees of the text behind it -/

section

variable {rest rest' : List Char}

/-- Whether a text opens a fraction is decided by its first two characters. -/
theorem Text.opensFraction_take : OpensFraction (rest.take 2) ↔ OpensFraction rest := by
  rcases rest with _ | ⟨x, _ | ⟨y, ys⟩⟩
  · rfl
  · rfl
  · exact opensFraction_cons_cons.trans opensFraction_cons_cons.symm

/-- The same window stays when the same text is put in front. -/
theorem Text.window_append (h : rest'.take 2 = rest.take 2) (before : List Char) :
    (before ++ rest').take 2 = (before ++ rest).take 2 := by
  have hshort (n : Nat) : rest'.take (2 - n) = rest.take (2 - n) := by
    have hmin : min (2 - n) 2 = 2 - n := by omega
    rw [← hmin, ← List.take_take, h, List.take_take]
  rw [List.take_append, List.take_append, hshort]

/-- **A lexeme sees two characters of the text behind it**, but for a string without an end, which
has no text behind it. -/
theorem Lexeme.Reads.of_window {l : Lexeme} (h : l.Reads rest)
    (hv : l.verdict ≠ .rejected .unterminatedString) (hw : rest'.take 2 = rest.take 2) :
    l.Reads rest' := by
  refine h.of_head hv ?_ ?_
  · have hhead := congrArg List.head? hw
    rwa [List.head?_take, List.head?_take] at hhead
  · rw [← Text.opensFraction_take, hw, Text.opensFraction_take]
    exact id

end

section

variable {ls ms ms' : List Lexeme}

/-- **Lexemes stay as they are when the text behind them changes outside of its window.** -/
theorem Chained.change_rest (h : Chained (ls ++ ms))
    (hv : ∀ l ∈ ls, l.verdict ≠ .rejected .unterminatedString) (hms : Chained ms')
    (hw : (spell ms').take 2 = (spell ms).take 2) : Chained (ls ++ ms') := by
  induction ls with
  | nil => exact hms
  | cons l ls ih =>
    obtain ⟨hl, hls⟩ := List.forall_mem_cons.1 hv
    refine ⟨h.1.of_window hl ?_, ih h.2 hls⟩
    rw [List.append_eq, List.append_eq, spell_append, spell_append]
    exact Text.window_append hw (spell ls)

/-- A string without an end is no lexeme in front of another. -/
theorem Chained.closed_in_front {m : Lexeme} (h : Chained (ls ++ m :: ms)) :
    ∀ l ∈ ls, l.verdict ≠ .rejected .unterminatedString := by
  induction ls with
  | nil => exact List.forall_mem_nil _
  | cons l ls ih =>
    refine List.forall_mem_cons.2 ⟨fun hv => ?_, ih h.2⟩
    obtain ⟨hr, hrest⟩ := h
    -- it would have nothing behind it
    generalize hs : spell (ls ++ m :: ms) = rest at hr
    cases hr with
    | unterminated =>
      have hnil := hrest.eq_nil_of_spell hs
      simp at hnil
    | _ => cases hv

end

/-! ## Cuts behind a token -/

/-- The lexemes in front of a cut are cut off wherever they are followed by others. -/
theorem cut_passed {ls : List Lexeme} {k : Nat} {p : Place} (h : Chained ls)
    (hk : k ≤ (tokensAt p ls).length) (ms : List Lexeme) :
    cut k ((cut k ls).1 ++ ms) = ((cut k ls).1, ms) := by
  fun_induction cut k ls generalizing p with
  | case1 => exact cut_zero ms
  | case2 => simp [tokensAt] at hk
  | case3 k l ls shape hv ih =>
    obtain ⟨t, -, hls⟩ := tokensAt_cons_token h.1 hv p ls
    rw [hls, List.length_cons] at hk
    rw [List.cons_append, cut_token hv, ih h.2 (Nat.le_of_succ_le_succ hk)]
  | case4 k l ls hv ih =>
    rw [tokensAt_cons_other hv] at hk
    rw [List.cons_append, cut_other hv, ih h.2 hk]

/-- **The lexemes of texts that agree up to the end of a token** are the same up to that token. -/
theorem lexemes_of_agree {a b : String} {k : Nat} {t : Token}
    (ht : (tokensAt .start (lexemes a.toList))[k]? = some t)
    (h : AgreeUpTo (Text.byteWidth (spell (cut (k + 1) (lexemes a.toList)).1)) a b) :
    ∃ ms, lexemes b.toList = (cut (k + 1) (lexemes a.toList)).1 ++ ms := by
  have hch := chained_lexemes a.toList
  have hcut := cut_append (k + 1) (lexemes a.toList)
  have hspell := spell_cut (k + 1) (lexemes a.toList)
  rw [spell_lexemes] at hspell
  obtain ⟨after', hb, hnext⟩ := h.split hspell
  -- the last of them is a token, and what stands in front of it was closed
  have hclosed : ∀ l ∈ (cut (k + 1) (lexemes a.toList)).1,
      l.verdict ≠ .rejected .unterminatedString := by
    obtain ⟨front, l, hfront, hl⟩ := exists_cut_eq hch ht
    obtain ⟨shape, hv, -⟩ := Placed.of_token? hl
    rw [← hcut, hfront, List.append_assoc, List.singleton_append] at hch
    rw [hfront]
    intro m hm
    rcases List.mem_append.1 hm with hm | hm
    · exact hch.closed_in_front m hm
    · rw [List.mem_singleton.1 hm, hv]
      simp
  refine ⟨lexemes after', lexemes_eq_iff.2 ⟨?_, ?_⟩⟩
  · rw [spell_append, spell_lexemes, hb]
  · rw [← hcut] at hch
    refine hch.change_rest hclosed (chained_lexemes after') ?_
    rw [spell_lexemes, hnext]

/-- A token ends where the lexemes that are cut off with it do. -/
theorem range_of_cut {a : String} (hsize : a.utf8ByteSize < UInt32.size) {k : Nat} {t : Token}
    (ht : (tokensAt .start (lexemes a.toList))[k]? = some t) : ∃ start, t.span.range =
      .ok (start, Text.byteWidth (spell (cut (k + 1) (lexemes a.toList)).1)) := by
  obtain ⟨front, l, hfront, hl⟩ := exists_cut_eq (chained_lexemes a.toList) ht
  have hspell := spell_cut (k + 1) (lexemes a.toList)
  rw [spell_lexemes] at hspell
  have hwhole := congrArg Text.byteWidth hspell
  rw [Text.byteWidth_toList, Text.byteWidth_append] at hwhole
  have hwidth : spell (cut (k + 1) (lexemes a.toList)).1 = spell front ++ l.text := by
    rw [hfront, spell_append, spell_cons, spell_nil, List.append_nil]
  rw [hwidth] at hwhole ⊢
  have hfits : Text.byteWidth (spell front ++ l.text) < UInt32.size := by omega
  have hbetween := Placed.between hl rfl hfits
  exact ⟨_, by rw [hbetween.range, Text.byteWidth_append]⟩

/-! ## Scans of texts that agree -/

/-- A token that is not the end is one of a lexeme. -/
theorem getElem?_tokensAt {text : List Char} {k : Nat} {t : Token}
    (ht : (scanned text)[k]? = some t) (hkind : t.kind ≠ .eof) :
    (tokensAt .start (lexemes text))[k]? = some t := by
  have hlt : k < (tokensAt .start (lexemes text)).length := by
    by_contra hge
    rw [scanned, List.getElem?_append_right (Nat.le_of_not_lt hge)] at ht
    rw [List.mem_singleton.1 (List.mem_of_getElem? ht)] at hkind
    exact hkind rfl
  rwa [scanned, List.getElem?_append_left hlt] at ht

section

variable {ls : List Lexeme} {k : Nat} (ms : List Lexeme)

/-- The first tokens of lexemes that were cut off, with other lexemes behind them. -/
theorem take_tokensAt_cut (h : Chained ls) (hk : k ≤ (tokensAt .start ls).length) (ts : List Token) :
    (tokensAt .start ((cut k ls).1 ++ ms) ++ ts).take k = (tokensAt .start ls).take k := by
  have hlen : ((tokensAt .start ls).take k).length = k := List.length_take_of_le hk
  rw [tokensAt_append, tokensAt_cut h, List.append_assoc]
  exact List.take_left' hlen

/-- A scanner that has been asked for the tokens of lexemes that were cut off stands in the same
place and has reported the same, whatever lexemes are behind them. -/
theorem pulled_cut {ρ : Type} [Reporter ρ] (h : Chained ls)
    (hk : k ≤ (tokensAt .start ls).length) (p : Place) (r : ρ) :
    (Scanner.pulled k ((cut k ls).1 ++ ms) p r).place = (Scanner.pulled k ls p r).place ∧
      (Scanner.pulled k ((cut k ls).1 ++ ms) p r).reporter =
        (Scanner.pulled k ls p r).reporter := by
  unfold Scanner.pulled
  rw [cut_passed h hk]
  exact ⟨rfl, rfl⟩

end

/-- **Two characters of lookahead.** Let two texts agree up to the end of a token of the first. Then
a scan of the second gives the same tokens up to that one, and a scanner that has been asked for
them stands in the same place and has reported the same. -/
theorem scan_agrees_up_to {ρ : Type} [Reporter ρ] (a b : String) (r : ρ)
    (ha : a.utf8ByteSize < UInt32.size) (hb : b.utf8ByteSize < UInt32.size) :
    ∃ tokens s tokens' s', scan a r = .ok (tokens, s) ∧ scan b r = .ok (tokens', s') ∧
      ∀ k t start stop, tokens[k]? = some t → t.kind ≠ .eof →
        t.span.range = .ok (start, stop) → AgreeUpTo stop a b →
        tokens'.toList.take (k + 1) = tokens.toList.take (k + 1) ∧
        ∃ answers c c', (Scanner.ofText a r).pull (k + 1) = .ok (answers, c) ∧
          (Scanner.ofText b r).pull (k + 1) = .ok (answers, c') ∧
          c'.place = c.place ∧ c'.reporter = c.reporter := by
  refine ⟨_, _, _, _, scan_eq_scanned ha r, scan_eq_scanned hb r, ?_⟩
  intro k t start stop ht hkind hrange hagree
  rw [List.getElem?_toArray] at ht
  have hlexeme := getElem?_tokensAt ht hkind
  obtain ⟨start', hcut⟩ := range_of_cut ha hlexeme
  obtain ⟨-, rfl⟩ := Prod.mk.inj (Except.ok.inj (hrange.symm.trans hcut))
  obtain ⟨ms, hlex⟩ := lexemes_of_agree hlexeme hagree
  have hch := chained_lexemes a.toList
  have hk : k + 1 ≤ (tokensAt .start (lexemes a.toList)).length :=
    (List.getElem?_eq_some_iff.1 hlexeme).1
  have htake : (scanned b.toList).take (k + 1) = (scanned a.toList).take (k + 1) := by
    rw [scanned, scanned, hlex, take_tokensAt_cut ms hch hk, List.take_append_of_le_length hk]
  obtain ⟨hplace, hreporter⟩ := pulled_cut ms hch hk .start r
  rw [← hlex] at hplace hreporter
  refine ⟨htake, _, _, _, pull_ofText ha r (k + 1), ?_, hplace, hreporter⟩
  rw [pull_ofText hb r (k + 1)]
  -- the answers are the same, since they are the first tokens
  congr 2
  apply List.map_congr_left
  intro i hi
  have hi' : i < k + 1 := List.mem_range.1 hi
  rw [← List.getElem?_take_of_lt hi', htake, List.getElem?_take_of_lt hi']

/-- A character that begins no lexeme and a number, in front of a point and a letter. Behind these
the first text has a string without an end and the second has not. -/
theorem agrees_in_front_of_open_string :
    "@1.x\"".utf8ByteSize < UInt32.size ∧ "@1.xé;".utf8ByteSize < UInt32.size ∧
      AgreeUpTo 2 "@1.x\"" "@1.xé;" ∧
      ∃ tokens s tokens' s' t, scan "@1.x\"" Collection.empty = .ok (tokens, s) ∧
        scan "@1.xé;" Collection.empty = .ok (tokens', s') ∧ tokens[0]? = some t ∧
        t.kind = .number ∧ t.span.range = .ok (1, 2) ∧
        tokens'.toList.take 1 = tokens.toList.take 1 ∧
        ∃ answers c c', (Scanner.ofText "@1.x\"" Collection.empty).pull 1 = .ok (answers, c) ∧
          (Scanner.ofText "@1.xé;" Collection.empty).pull 1 = .ok (answers, c') ∧
          c'.reporter = c.reporter := by
  have ha : "@1.x\"".utf8ByteSize < UInt32.size := by decide
  have hb : "@1.xé;".utf8ByteSize < UInt32.size := by decide
  have hagree : AgreeUpTo 2 "@1.x\"" "@1.xé;" := ⟨by decide +kernel, by decide +kernel⟩
  have hl : lexemes "@1.x\"".toList = [⟨['@'], .rejected .unexpectedCharacter⟩,
      ⟨['1'], .token (.number (Lexeme.numberValue ['1'] []))⟩,
      .ofMark ['.'] .dot, ⟨['x'], .token (.plain .identifier)⟩,
      ⟨['"'], .rejected .unterminatedString⟩] := by
    exact lexemes_eq_iff.2 ⟨rfl, .unexpected stray_at,
      .whole (List.forall_mem_singleton.2 rfl) ((Text.stops_cons _ _ _).2 rfl) (by decide),
      .mark (m := .dot) (fun _ _ => rfl), .word rfl (by simp) ((Text.stops_cons _ _ _).2 rfl),
      .unterminated (by simp), trivial⟩
  obtain ⟨tokens, s, tokens', s', hscan, hscan', hwindow⟩ :=
    scan_agrees_up_to "@1.x\"" "@1.xé;" Collection.empty ha hb
  have he := hscan.symm.trans (scan_eq Collection.empty ha)
  rw [hl] at he
  obtain ⟨rfl, -⟩ := Prod.mk.inj (Except.ok.inj he)
  obtain ⟨htake, answers, c, c', hpull, hpull', -, hreporter⟩ :=
    hwindow 0 _ 1 2 rfl (show Kind.number ≠ .eof by decide) rfl hagree
  exact ⟨ha, hb, hagree, _, s, tokens', s', _, hscan, hscan', rfl, rfl, rfl, htake, answers, c, c',
    hpull, hpull', hreporter⟩

end ScriptLexer
