import ScriptLexer.Proofs.NumberText
import ScriptLexer.Proofs.TokenPlaces

/-!
# Tokens say what stands in the text

Every token of a scan is faithful to its text. Its span lies in the text, on boundaries of
characters, and what stands there is its lexeme; its kind is the one that the lexeme spells; and its
value is what the lexeme writes.

* `Kind.Describes`: what a kind says of a lexeme and its value.
* `LexicalClass.describes`: the kind of a text of a lexical class describes it.
* `Token.Between.slice`: what stands at the span of a token.
* `scan_tokens_faithful`: all tokens of a scan are faithful.
-/

namespace ScriptLexer

/-- What a kind says of a lexeme and its value. -/
def Kind.Describes (lexeme : String) (literal : Literal) : Kind → Prop
  | punctuation mark =>
    (punctuation mark).punctuationText? = some lexeme ∧ literal = .none
  | keyword word =>
    (keyword word).keywordText? = some lexeme ∧ literal = .none
  | identifier =>
    lexeme.toList ∈ LexicalClass.word.language ∧ (∀ k : Kind, k.keywordText? ≠ some lexeme) ∧
      literal = .none
  | string => ∃ text,
    lexeme = "\"" ++ text ++ "\"" ∧ '"' ∉ text.toList ∧ literal = .string text
  | number => ∃ value,
    lexeme.toList ∈ LexicalClass.number.language ∧ literal = .number value ∧
      Binary64.ofText? lexeme = some value ∧ value.Rounds (Text.positional lexeme.toList)
  | eof => lexeme = "" ∧ literal = .none

/-- A token that says what stands in a text: its lexeme is the slice at its span, its kind describes
lexeme and value, and the end stands behind all bytes. -/
structure Token.Faithful (source : String) (t : Token) : Prop where
  slice : t.span.slice? source = .ok (some t.lexeme)
  kind : t.kind.Describes t.lexeme t.literal
  eof : t.kind = .eof → t.span.range = .ok (source.utf8ByteSize, source.utf8ByteSize)

/-! ## Kinds and values -/

theorem Kind.keywordText?_eq_some_iff {k : Kind} {text : String} :
    k.keywordText? = some text ↔ ∃ word : Keyword, k = .keyword word ∧ word.text = text := by
  cases k <;> simp [keywordText?]

/-- The kind of a word describes it: the word spells that keyword, or no keyword at all. -/
theorem Kind.ofWord_describes {word : String} (h : word.toList ∈ LexicalClass.word.language) :
    (ofWord word).Describes word .none := by
  by_cases hk : ∃ k : Keyword, k.text = word
  · obtain ⟨k, hk⟩ := hk
    rw [ofWord_eq_keyword_iff.2 hk]
    exact ⟨congrArg some hk, rfl⟩
  · have hne : ∀ k : Keyword, k.text ≠ word := fun k h => hk ⟨k, h⟩
    rw [ofWord_eq_identifier_iff.2 hne]
    refine ⟨h, fun k htext => ?_, rfl⟩
    obtain ⟨keyword, -, hspelled⟩ := keywordText?_eq_some_iff.1 htext
    exact hne keyword hspelled

/-- **The kind of a text of a lexical class describes it**, with its value. -/
theorem LexicalClass.describes {k : LexicalClass} {w : List Char} (hw : w ∈ k.language)
    {shape : Shape} (hv : k.verdict w = .token shape) :
    shape.kind.Describes (.ofList w) shape.literal := by
  have htext : (String.ofList w).toList = w := String.toList_ofList
  cases k with
  | punctuation mark =>
    cases hv
    obtain rfl : w = mark.text.toList := hw
    exact ⟨congrArg some String.ofList_toList.symm, rfl⟩
  | number =>
    cases hv
    refine ⟨_, ?_, rfl, ofText?_number hw, ?_⟩
    · rwa [htext]
    · rw [htext]
      exact numeral_rounds hw
  | word =>
    cases hv
    exact Kind.ofWord_describes (by rwa [htext])
  | string =>
    cases hv
    obtain ⟨body, hb, rfl⟩ := mem_string.1 hw
    have hbody : (('"' :: body ++ ['"']).drop 1).dropLast = body := List.dropLast_concat
    rw [Shape.literal, hbody]
    refine ⟨.ofList body, ?_, ?_, rfl⟩
    · apply String.toList_inj.1
      rw [htext, String.toList_append, String.toList_append, @String.toList_ofList body]
      rfl
    · rwa [String.toList_ofList]
  | _ => cases hv

/-- The kind that a lexeme becomes a token of describes it: it was not rejected, so it is a text of
a class. -/
theorem Lexeme.Reads.describes {l : Lexeme} {rest : List Char} (h : l.Reads rest) {shape : Shape}
    (hv : l.verdict = .token shape) : shape.kind.Describes (.ofList l.text) shape.literal := by
  rcases h.mem_language with ⟨message, hm⟩ | ⟨k, hw, hk⟩
  · rw [hv] at hm
    cases hm
  · exact LexicalClass.describes hw (hk.symm.trans hv)

/-- **The kind of every token of a text describes its lexeme and value.** -/
theorem scanned_describes {text : List Char} {t : Token} (ht : t ∈ scanned text) :
    t.kind.Describes t.lexeme t.literal := by
  rcases List.mem_append.1 ht with ht | ht
  · obtain ⟨x, hx, shape, hv, hkind, hlex, hlit, -⟩ := mem_tokensAt ht
    obtain ⟨rest, hr⟩ := (chained_lexemes text).reads_of_mem_placed hx
    rw [hkind, hlex, hlit]
    exact hr.describes hv
  · obtain rfl := List.mem_singleton.1 ht
    exact ⟨rfl, rfl⟩

/-! ## Slices -/

/-- A token between two parts of a text has its lexeme as the slice at its span. -/
theorem Token.Between.slice {t : Token} {before text : List Char} (h : t.Between before text)
    (after : List Char) {source : String} (hs : source.toList = before ++ (text ++ after)) :
    t.span.slice? source = .ok (some t.lexeme) := by
  have hslice := Text.slice?_append before text after
  rw [← hs] at hslice
  rw [Span.slice?, h.range, h.lexeme]
  simp only [bind, Except.bind, pure, Except.pure, hslice, Option.map_some]

/-- **Every token of a scan is faithful to its text**, and every text whose positions fit 32 bits is
scanned. -/
theorem scan_tokens_faithful {ρ : Type} [Reporter ρ] (source : String) (r : ρ)
    (h : source.utf8ByteSize < UInt32.size) :
    ∃ tokens s, scan source r = .ok (tokens, s) ∧ ∀ t ∈ tokens, t.Faithful source := by
  refine ⟨_, _, scan_eq_scanned h r, fun t ht => ?_⟩
  have hmem : t ∈ scanned source.toList := List.mem_toArray.1 ht
  obtain ⟨before, text, after, hs, hb⟩ := exists_between h hmem
  refine ⟨hb.slice after hs, scanned_describes hmem, fun he => ?_⟩
  have hend := @eofAt_between (lexemes source.toList) (by
    rwa [spell_lexemes, Text.byteWidth_toList])
  rw [← eq_eofAt_of_isEof hmem (by rw [Token.isEof, he]; rfl), spell_lexemes] at hend
  rw [hend.range, Text.byteWidth_toList, Text.byteWidth_nil, Nat.add_zero]

/-- A keyword, a string with a character of two bytes, and a number behind it, which is one and a
half. -/
theorem faithful_number_behind_string :
    "if\"é\"1.5".utf8ByteSize < UInt32.size ∧ ∃ tokens s,
      scan "if\"é\"1.5" Collection.empty = .ok (tokens, s) ∧
      tokens.toList.map (fun t => (t.kind, t.lexeme)) =
        [(.keyword .if, "if"), (.string, "\"é\""), (.number, "1.5"), (.eof, "")] ∧
      ∃ t ∈ tokens, t.Faithful "if\"é\"1.5" ∧ t.span.range = .ok (6, 9) ∧
        t.literal = .number ⟨0x3ff8000000000000⟩ := by
  have hs : "if\"é\"1.5".utf8ByteSize < UInt32.size := by decide
  have hl : lexemes "if\"é\"1.5".toList = [⟨['i', 'f'], .token (.plain (.ofWord "if"))⟩,
      ⟨'"' :: ['é'] ++ ['"'], .token (.string "é")⟩,
      ⟨['1'] ++ '.' :: ['5'], .token (.number (Lexeme.numberValue ['1'] ['5']))⟩] := by
    exact lexemes_eq_iff.2 ⟨rfl,
      .word rfl (List.forall_mem_singleton.2 rfl) ((Text.stops_cons _ _ _).2 rfl),
      .string (by decide), .fraction (List.forall_mem_singleton.2 rfl)
        (List.forall_mem_singleton.2 rfl) (Text.stops_nil _), trivial⟩
  have hvalue : Lexeme.numberValue ['1'] ['5'] = ⟨0x3ff8000000000000⟩ := by decide +kernel
  obtain ⟨tokens, s, hscan, hfaithful⟩ :=
    scan_tokens_faithful "if\"é\"1.5" Collection.empty hs
  have he := hscan.symm.trans (scan_eq Collection.empty hs)
  rw [hl, hvalue] at he
  obtain ⟨rfl, -⟩ := Prod.mk.inj (Except.ok.inj he)
  exact ⟨hs, _, s, hscan, rfl, _, Array.mem_of_getElem? (i := 2) rfl,
    hfaithful _ (Array.mem_of_getElem? (i := 2) rfl), rfl, rfl⟩

end ScriptLexer
