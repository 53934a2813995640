import Mathlib.Data.List.Basic
import ScriptLexer.Proofs.Drain

/-!
# Scanning the lexemes of a scan again

The lexemes of the tokens of a text stand by themselves: each reads with nothing behind it, and so
with a blank behind it. Joined with blanks they are therefore the lexemes of the joined text, and a
scan of it gives the tokens again, at other places, and has nothing to report.

* `Token.content`, `Lexeme.content?`: a token without its place.
* `Lexeme.Alone`: a lexeme of a token that reads with nothing behind it.
* `lexemes_joined`: the lexemes of such ones with blanks between them.
* `scan_joined_lexemes`: a second scan gives the tokens of the first.
-/

namespace ScriptLexer

/-! ## Tokens without their places -/

/-- What a token tells apart from its place: its kind, its lexeme and its value. -/
def Token.content (t : Token) : Kind × String × Literal :=
  (t.kind, t.lexeme, t.literal)

namespace Lexeme

/-- What the token of a lexeme tells apart from its place: nothing where it is skipped or
rejected. -/
def content? (l : Lexeme) : Option (Kind × String × Literal) :=
  match l.verdict with
  | .token shape => some (shape.kind, .ofList l.text, shape.literal)
  | _ => none

theorem content?_token {l : Lexeme} {shape : Shape} (hv : l.verdict = .token shape) :
    l.content? = some (shape.kind, .ofList l.text, shape.literal) := by
  simp only [content?, hv]

@[simp] theorem content?_blank (b : Char) : (blank b).content? = none := rfl

/-- The content of a lexeme's token does not depend on the place. -/
theorem Reads.content_token? {l : Lexeme} {rest : List Char} (h : l.Reads rest) (p : Place) :
    (Placed.token? ⟨p, l⟩).map Token.content = l.content? := by
  cases hv : l.verdict with
  | token shape => rw [h.token?_eq hv, content?_token hv]; rfl
  | skipped => simp only [Placed.token?, content?, hv, Option.map_none]
  | rejected message => simp only [Placed.token?, content?, hv, Option.map_none]

/-- A lexeme of a token that reads with nothing behind it. -/
structure Alone (l : Lexeme) : Prop where
  token : ∃ shape, l.verdict = .token shape
  reads : l.Reads []

end Lexeme

theorem map_content_tokensAt {ls : List Lexeme} (h : Chained ls) (p : Place) :
    (tokensAt p ls).map Token.content = ls.filterMap Lexeme.content? := by
  have hls : ls.filterMap Lexeme.content? =
      (placed p ls).filterMap (Lexeme.content? ∘ Placed.lexeme) := by
    rw [← List.filterMap_map, map_lexeme_placed]
  rw [hls, tokensAt, List.map_filterMap]
  apply List.filterMap_congr
  intro x hx
  obtain ⟨rest, hr⟩ := h.reads_of_mem_placed hx
  exact hr.content_token? x.place

/-- The lexemes of a text that become tokens. -/
def kept (ls : List Lexeme) : List Lexeme :=
  ls.filter fun l => l.content?.isSome

/-- The lexemes that become tokens stand by themselves. -/
theorem Chained.alone_of_mem_kept {ls : List Lexeme} (h : Chained ls) {l : Lexeme}
    (hl : l ∈ kept ls) : l.Alone := by
  obtain ⟨hmem, hsome⟩ := List.mem_filter.1 hl
  obtain ⟨rest, hr⟩ := h.reads_of_mem hmem
  cases hv : l.verdict with
  | token shape => exact ⟨⟨shape, hv⟩, hr.alone hv⟩
  | skipped => simp [Lexeme.content?, hv] at hsome
  | rejected message => simp [Lexeme.content?, hv] at hsome

theorem filterMap_content?_kept (ls : List Lexeme) :
    (kept ls).filterMap Lexeme.content? = ls.filterMap Lexeme.content? := by
  rw [kept, List.filterMap_filter]
  congr 1
  funext l
  cases hc : l.content? <;> simp

/-! ## Blanks between lexemes -/

/-- Lexemes with a blank between neighbours. -/
def joined (b : Char) : List Lexeme → List Lexeme
  | [] => []
  | [l] => [l]
  | l :: m :: ls => l :: .blank b :: joined b (m :: ls)

/-- The text of lexemes with blanks between them. -/
theorem spell_joined (b : Char) (ls : List Lexeme) :
    spell (joined b ls) = [b].intercalate (ls.map Lexeme.text) := by
  fun_induction joined b ls with
  | case1 => rfl
  | case2 l => simp
  | case3 l m ls ih =>
    simp only [spell_cons, ih, List.map_cons, List.intercalate_cons_cons, List.append_assoc]
    rfl

theorem filterMap_content?_joined (b : Char) (ls : List Lexeme) :
    (joined b ls).filterMap Lexeme.content? = ls.filterMap Lexeme.content? := by
  fun_induction joined b ls with
  | case1 => rfl
  | case2 l => rfl
  | case3 l m ls ih =>
    rw [List.filterMap_cons, List.filterMap_cons_none (Lexeme.content?_blank b), ih,
      ← List.filterMap_cons]

theorem mem_joined {b : Char} {ls : List Lexeme} {l : Lexeme} (h : l ∈ joined b ls) :
    l = .blank b ∨ l ∈ ls := by
  fun_induction joined b ls with
  | case1 => cases h
  | case2 m => exact .inr h
  | case3 m n ls ih =>
    rcases List.mem_cons.1 h with rfl | h
    · exact .inr List.mem_cons_self
    rcases List.mem_cons.1 h with rfl | h
    · exact .inl rfl
    · exact (ih h).imp_right (List.mem_cons_of_mem m)

/-- **Lexemes that stand by themselves, with blanks between them, are chained**: no two neighbours
merge, and none is cut. -/
theorem chained_joined {b : Char} (hb : b = '\n' ∨ isLineBlank b = true) {ls : List Lexeme}
    (h : ∀ l ∈ ls, l.Alone) : Chained (joined b ls) := by
  fun_induction joined b ls with
  | case1 => trivial
  | case2 l =>
    exact ⟨(h l List.mem_cons_self).reads, trivial⟩
  | case3 l m ls ih =>
    obtain ⟨hl, hls⟩ := List.forall_mem_cons.1 h
    obtain ⟨⟨shape, hv⟩, hr⟩ := hl
    -- behind the lexeme stands the blank, whatever comes later
    exact ⟨hr.append_blank hv hb _, .blank hb, ih hls⟩

/-- The lexemes of a text made of lexemes that stand by themselves. -/
theorem lexemes_joined {b : Char} (hb : b = '\n' ∨ isLineBlank b = true) {ls : List Lexeme}
    (h : ∀ l ∈ ls, l.Alone) :
    lexemes ([b].intercalate (ls.map Lexeme.text)) = joined b ls := by
  rw [← spell_joined, lexemes_spell (chained_joined hb h)]

theorem findingsAt_eq_nil {ls : List Lexeme}
    (h : ∀ l ∈ ls, ∀ message, l.verdict ≠ .rejected message) (p : Place) :
    findingsAt p ls = [] := by
  rw [findingsAt, List.filterMap_eq_nil_iff]
  intro x hx
  unfold Placed.finding?
  split
  next message hv => exact absurd hv (h _ (lexeme_mem_of_mem_placed hx) message)
  · rfl

theorem findingsAt_joined {b : Char} {ls : List Lexeme} (h : ∀ l ∈ ls, l.Alone) (p : Place) :
    findingsAt p (joined b ls) = [] := by
  apply findingsAt_eq_nil
  intro l hl message hv
  rcases mem_joined hl with rfl | hl
  · cases hv
  · obtain ⟨shape, hs⟩ := (h l hl).token
    rw [hs] at hv
    cases hv

/-- The lexemes of tokens are the texts of the lexemes that become tokens. -/
theorem map_lexeme_tokensAt {ls : List Lexeme} (h : Chained ls) (p : Place) :
    (tokensAt p ls).map Token.lexeme = (kept ls).map fun l => .ofList l.text := by
  have hc := congrArg (List.map fun c => c.2.1) (map_content_tokensAt h p)
  rw [List.map_map, ← filterMap_content?_kept, List.map_filterMap] at hc
  refine hc.trans ?_
  rw [← List.filterMap_eq_map]
  apply List.filterMap_congr
  intro l hl
  obtain ⟨shape, hv⟩ := (h.alone_of_mem_kept hl).token
  rw [Lexeme.content?_token hv]
  rfl

/-! ## A second scan -/

section

variable {ρ : Type} [Reporter ρ] {b : Char} {sep : String} {ls : List Lexeme}

/-- The lexemes of the text that joins the lexemes of tokens. -/
theorem lexemes_intercalate (hb : b = '\n' ∨ isLineBlank b = true) (hsep : sep.toList = [b])
    (h : Chained ls) (p : Place) :
    lexemes (sep.intercalate ((tokensAt p ls).map Token.lexeme)).toList = joined b (kept ls) := by
  rw [← lexemes_joined hb fun l hl => h.alone_of_mem_kept hl, String.toList_intercalate, hsep,
    map_lexeme_tokensAt h, List.map_map]
  congr 3
  funext l
  exact String.toList_ofList

/-- **A scan of joined lexemes of tokens** gives the tokens again, but for their places, and does
not touch its reporter. -/
theorem scan_intercalate (hb : b = '\n' ∨ isLineBlank b = true) (hsep : sep.toList = [b])
    (h : Chained ls) {p : Place} (r : ρ)
    (hs : (sep.intercalate ((tokensAt p ls).map Token.lexeme)).utf8ByteSize < UInt32.size) :
    ∃ tokens s, scan (sep.intercalate ((tokensAt p ls).map Token.lexeme)) r = .ok (tokens, s) ∧
      s.reporter = r ∧
      tokens.toList.map Token.content = (tokensAt p ls).map Token.content ++ [(.eof, "", .none)] := by
  have halone : ∀ l ∈ kept ls, l.Alone := fun l hl => h.alone_of_mem_kept hl
  have hlex := lexemes_intercalate hb hsep h p
  refine ⟨_, _, scan_eq r hs, ?_, ?_⟩
  · rw [hlex, Scanner.ended, findingsAt_joined halone]
    rfl
  · rw [hlex, Array.toList_append, List.map_append, map_content_tokensAt (chained_joined hb halone),
      filterMap_content?_joined, filterMap_content?_kept, map_content_tokensAt h]
    rfl

end

/-- **Scanning what was scanned.** The lexemes of the tokens of a text, joined with spaces or with
line feeds, are scanned into the same kinds, lexemes and values and the end, with nothing to report,
whatever the text had besides. -/
theorem scan_joined_lexemes {ρ : Type} [Reporter ρ] (source : String) (r : ρ)
    (h : source.utf8ByteSize < UInt32.size) :
    ∃ tokens s, scan source r = .ok (tokens, s) ∧ ∀ sep ∈ [" ", "\n"],
      (sep.intercalate ((proper tokens).map Token.lexeme)).utf8ByteSize < UInt32.size →
        ∃ tokens' s',
          scan (sep.intercalate ((proper tokens).map Token.lexeme)) Collection.empty =
            .ok (tokens', s') ∧
          s'.reporter.entries = #[] ∧
          tokens'.toList.map Token.content =
            (proper tokens).map Token.content ++ [(.eof, "", .none)] := by
  have hch := chained_lexemes source.toList
  refine ⟨_, _, scan_eq r h, ?_⟩
  intro sep hsep
  rw [proper_scanned hch]
  intro hs
  have hb : ∃ b, (b = '\n' ∨ isLineBlank b = true) ∧ sep.toList = [b] := by
    rcases List.mem_pair.1 hsep with rfl | rfl
    · exact ⟨' ', .inr rfl, rfl⟩
    · exact ⟨'\n', .inl rfl, rfl⟩
  obtain ⟨b, hb, hsep⟩ := hb
  obtain ⟨tokens', s', hscan, hr, hc⟩ := scan_intercalate hb hsep hch Collection.empty hs
  exact ⟨tokens', s', hscan, by rw [hr]; rfl, hc⟩

/-- A number and a point, a string with slashes and a line feed in it, a character that begins no
lexeme and a string without an end: the first three are scanned again. -/
theorem scan_joined_of_broken_text :
    "1.\"//\n\"@\"".utf8ByteSize < UInt32.size ∧
      ∃ tokens s, scan "1.\"//\n\"@\"" Collection.empty = .ok (tokens, s) ∧
        (proper tokens).map Token.lexeme = ["1", ".", "\"//\n\""] ∧
        ∀ sep ∈ [" ", "\n"], ∃ tokens' s',
          scan (sep.intercalate ["1", ".", "\"//\n\""]) Collection.empty = .ok (tokens', s') ∧
          s'.reporter.entries = #[] ∧
          tokens'.toList.map Token.content =
            (proper tokens).map Token.content ++ [(.eof, "", .none)] := by
  have hs : "1.\"//\n\"@\"".utf8ByteSize < UInt32.size := by decide
  have hl : lexemes "1.\"//\n\"@\"".toList =
      [⟨['1'], .token (.number (Lexeme.numberValue ['1'] []))⟩, .ofMark ['.'] .dot,
        ⟨'"' :: ['/', '/', '\n'] ++ ['"'], .token (.string (.ofList ['/', '/', '\n']))⟩,
        ⟨['@'], .rejected .unexpectedCharacter⟩, ⟨['"'], .rejected .unterminatedString⟩] := by
    exact lexemes_eq_iff.2 ⟨rfl,
      .whole (List.forall_mem_singleton.2 rfl) ((Text.stops_cons _ _ _).2 rfl) (by decide),
      .mark (m := .dot) fun _ _ => rfl, .string (by decide), .unexpected stray_at,
      .unterminated (by decide), trivial⟩
  obtain ⟨tokens, s, hscan, hagain⟩ :=
    scan_joined_lexemes "1.\"//\n\"@\"" Collection.empty hs
  have ht : (proper tokens).map Token.lexeme = ["1", ".", "\"//\n\""] := by
    have he := hscan.symm.trans (scan_eq Collection.empty hs)
    cases he
    rw [proper_scanned (chained_lexemes _), hl]
    rfl
  refine ⟨hs, tokens, s, hscan, ht, ?_⟩
  intro sep hsep
  have hsize : (sep.intercalate ["1", ".", "\"//\n\""]).utf8ByteSize < UInt32.size := by
    rcases List.mem_pair.1 hsep with rfl | rfl <;> decide
  rw [ht] at hagain
  exact hagain sep hsep hsize

end ScriptLexer
