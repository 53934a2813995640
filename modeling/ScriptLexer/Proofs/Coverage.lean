import Mathlib.Data.List.Basic
import ScriptLexer.Proofs.Drain

/-!
# Every character is accounted for

The regions that a scan leaves behind tile the text: tokens, blanks, comments, characters that
were reported one by one, and at most one string without an end, which reaches the end of the text.

* `Region`, `Role`: a part of a text, and what became of it.
* `Tiles`: regions one behind another that make up a text, each as its role demands.
* `Tiles.covers_unique`: every character lies in one region.
* `regionsOf`: the regions of a text.
* `scan_accounts_for_every_character`: the tokens are the regions of tokens, and the diagnostics
  tell the rejected ones in the order of the text.
-/

namespace ScriptLexer

/-- What became of the characters of a region. -/
inductive Role
  | token
  | blank
  | comment
  | unexpected
  | unterminated
  deriving DecidableEq

/-- The message that a role is reported with. -/
def Role.message? : Role → Option Message
  | unexpected => some .unexpectedCharacter
  | unterminated => some .unterminatedString
  | _ => none

/-- A part of a text, where it begins, and what became of it. -/
structure Region where
  start : Place
  text : List Char
  role : Role

namespace Region

/-- The place behind a region. -/
def stop (x : Region) : Place :=
  x.start.after x.text

/-- The character that begins at a byte lies in the region. -/
def Covers (x : Region) (position : Nat) : Prop :=
  x.start.offset ≤ position ∧ position < x.stop.offset

/-- What the role of a region says about its characters and about those that follow. -/
def Sound (x : Region) (rest : List Char) : Prop :=
  match x.role with
  | .token => x.text ≠ []
  | .blank => ∃ c ∈ [' ', '\t', '\r', '\n'], x.text = [c]
  | .comment => ∃ body, x.text = '/' :: '/' :: body ∧ '\n' ∉ body ∧
      (rest = [] ∨ rest.head? = some '\n')
  | .unexpected => ∃ c, x.text = [c] ∧ Stray c
  | .unterminated => (∃ body, x.text = '"' :: body ∧ '"' ∉ body) ∧ rest = []

/-- The diagnostic of a region that was rejected, on the line of its end. -/
def diagnostic? (x : Region) : Option Diagnostic :=
  x.role.message?.map fun message => .ofMessage message x.stop.line

theorem Sound.text_ne_nil {x : Region} {rest : List Char} (h : x.Sound rest) : x.text ≠ [] := by
  unfold Sound at h
  split at h
  · exact h
  · obtain ⟨c, -, hc⟩ := h; simp [hc]
  · obtain ⟨body, hb, -⟩ := h; simp [hb]
  · obtain ⟨c, hc, -⟩ := h; simp [hc]
  · obtain ⟨⟨body, hb, -⟩, -⟩ := h; simp [hb]

end Region

/-- Regions one behind another, from a place on, that make up a text. -/
def Tiles : Place → List Region → List Char → Prop
  | _, [], text => text = []
  | p, x :: xs, text =>
    x.start = p ∧ ∃ rest, text = x.text ++ rest ∧ x.Sound rest ∧ Tiles x.stop xs rest

/-- The character that begins at a byte lies in the span of a token. -/
def Token.Covers (t : Token) (position : Nat) : Prop :=
  ∃ start stop, t.span.range = .ok (start, stop) ∧ start ≤ position ∧ position < stop

/-- **What the tokens and diagnostics of a text account for**, by the regions that tile it. -/
structure Accounts (source : String) (tokens : List Token) (entries : List Diagnostic)
    (regions : List Region) : Prop where
  tiles : Tiles .start regions source.toList
  /-- The tokens are the regions of tokens. -/
  spans : tokens.map (·.span.range) =
    (regions.filter (·.role = .token)).map fun x => .ok (x.start.offset, x.stop.offset)
  /-- The spans of tokens are not empty and lie in the text. -/
  inside : ∀ t ∈ tokens, ∃ start stop, t.span.range = .ok (start, stop) ∧ start < stop ∧
    stop ≤ source.utf8ByteSize
  /-- Each span ends before the next one begins. -/
  ordered : tokens.Pairwise fun t u => ∃ start stop start' stop',
    t.span.range = .ok (start, stop) ∧ u.span.range = .ok (start', stop') ∧ stop ≤ start'
  /-- Each character lies in one region, which is that of a token if the character is in its
  span. -/
  covered : ∀ before c after, source.toList = before ++ c :: after →
    (∃! x, x ∈ regions ∧ x.Covers (Text.byteWidth before)) ∧
      ∀ x ∈ regions, x.Covers (Text.byteWidth before) →
        (x.role = .token ↔ ∃ t ∈ tokens, t.Covers (Text.byteWidth before))
  /-- The diagnostics are those of the rejected regions, in their order. -/
  reported : entries = regions.filterMap Region.diagnostic?
  /-- There are no others. -/
  known : ∀ d ∈ entries, d.code = 1001 ∧ d.message = "Unexpected character." ∨
    d.code = 1002 ∧ d.message = "Unterminated string."
  /-- Nothing is reported behind a string without an end. -/
  last : ∀ before d after, entries = before ++ d :: after → d.code = 1002 → after = []

/-! ## Tilings -/

namespace Tiles

variable {p : Place} {xs : List Region} {text : List Char}

/-- A region of a tiling is not empty and lies in the text. -/
theorem mem_bounds (h : Tiles p xs text) {x : Region} (hx : x ∈ xs) :
    p.offset ≤ x.start.offset ∧ x.start.offset < x.stop.offset ∧
      x.stop.offset ≤ p.offset + Text.byteWidth text := by
  induction xs generalizing p text with
  | nil => cases hx
  | cons y ys ih =>
    obtain ⟨rfl, rest, rfl, hs, ht⟩ := h
    have hpos : 0 < Text.byteWidth y.text :=
      Nat.lt_of_lt_of_le (List.length_pos_iff.2 hs.text_ne_nil) (Text.length_le_byteWidth _)
    have hstop : y.stop.offset = y.start.offset + Text.byteWidth y.text := rfl
    rw [Text.byteWidth_append]
    rcases List.mem_cons.1 hx with rfl | hx
    · omega
    · have := ih ht hx
      omega

/-- **Every character lies in one region.** -/
theorem covers_unique (h : Tiles p xs text) {before after : List Char} {c : Char}
    (ht : text = before ++ c :: after) :
    ∃! x, x ∈ xs ∧ x.Covers (p.offset + Text.byteWidth before) := by
  induction xs generalizing p text before with
  | nil =>
    have : text = [] := h
    simp [this] at ht
  | cons y ys ih =>
    obtain ⟨rfl, rest, rfl, hs, hys⟩ := h
    have hstop : y.stop.offset = y.start.offset + Text.byteWidth y.text := rfl
    have hlater : ∀ z ∈ ys, y.stop.offset ≤ z.start.offset := fun z hz => (hys.mem_bounds hz).1
    have hcase : (∃ mid, before = y.text ++ mid ∧ rest = mid ++ c :: after) ∨
        ∃ d mid, y.text = before ++ d :: mid := by
      rcases List.append_eq_append_iff.1 ht with ⟨mid, hb, hr⟩ | ⟨mid, hb, hr⟩
      · exact .inl ⟨mid, hb, hr⟩
      · cases mid with
        | nil => exact .inl ⟨[], by simpa using hb.symm, hr.symm⟩
        | cons d mid => exact .inr ⟨d, mid, hb⟩
    rcases hcase with ⟨mid, hb, hr⟩ | ⟨d, mid, hb⟩
    · -- the character lies behind `y`
      obtain ⟨x, ⟨hx, hc⟩, huniq⟩ := ih hys hr
      have hpos : y.stop.offset + Text.byteWidth mid = y.start.offset + Text.byteWidth before := by
        rw [hb, Text.byteWidth_append]; omega
      rw [hpos] at hc huniq
      refine ⟨x, ⟨List.mem_cons_of_mem _ hx, hc⟩, ?_⟩
      rintro z ⟨hz, hzc⟩
      rcases List.mem_cons.1 hz with rfl | hz
      · have := hzc.2; omega
      · exact huniq z ⟨hz, hzc⟩
    · -- the character lies in `y`
      have hlt : Text.byteWidth before < Text.byteWidth y.text := by
        have := d.utf8Size_pos
        rw [hb, Text.byteWidth_append, Text.byteWidth_cons]; omega
      refine ⟨y, ⟨List.mem_cons_self, by omega, by omega⟩, ?_⟩
      rintro z ⟨hz, hzc⟩
      rcases List.mem_cons.1 hz with rfl | hz
      · rfl
      · have := hlater z hz
        have := hzc.1
        omega

theorem ordered (h : Tiles p xs text) :
    xs.Pairwise fun x y => x.stop.offset ≤ y.start.offset := by
  induction xs generalizing p text with
  | nil => exact .nil
  | cons y ys ih =>
    obtain ⟨-, rest, -, -, ht⟩ := h
    exact List.pairwise_cons.2 ⟨fun z hz => (ht.mem_bounds hz).1, ih ht⟩

/-- Where a region of a tiling lies. -/
theorem mem_split (h : Tiles p xs text) {x : Region} (hx : x ∈ xs) :
    ∃ before after, text = before ++ (x.text ++ after) ∧ x.start = p.after before ∧ x.Sound after := by
  induction xs generalizing p text with
  | nil => cases hx
  | cons y ys ih =>
    obtain ⟨rfl, rest, rfl, hs, ht⟩ := h
    rcases List.mem_cons.1 hx with rfl | hx
    · exact ⟨[], rest, rfl, by simp, hs⟩
    · obtain ⟨before, after, rfl, hp, hs'⟩ := ih ht hx
      exact ⟨y.text ++ before, after, by simp, by rw [hp, Region.stop, Place.after_append], hs'⟩

/-- Nothing lies behind a string without an end. -/
theorem eq_nil_of_unterminated {x : Region} {before after : List Region}
    (h : Tiles p (before ++ x :: after) text) (hx : x.role = .unterminated) : after = [] := by
  induction before generalizing p text with
  | nil =>
    obtain ⟨-, rest, -, hs, ht⟩ := h
    rw [Region.Sound, hx] at hs
    obtain rfl := hs.2
    cases after with
    | nil => rfl
    | cons y ys =>
      -- a region behind it would have no characters
      obtain ⟨-, rest, he, hs, -⟩ := ht
      exact absurd (List.append_eq_nil_iff.1 he.symm).1 hs.text_ne_nil
  | cons y ys ih =>
    obtain ⟨-, rest, -, -, ht⟩ := h
    exact ih ht

end Tiles

/-! ## What follows from a tiling -/

theorem Region.code_of_diagnostic? {x : Region} {d : Diagnostic} (h : x.diagnostic? = some d) :
    x.role = .unexpected ∧ d.code = 1001 ∧ d.message = "Unexpected character." ∨
      x.role = .unterminated ∧ d.code = 1002 ∧ d.message = "Unterminated string." := by
  unfold diagnostic? at h
  cases hr : x.role with
  | unexpected => rw [hr] at h; cases h; exact .inl ⟨rfl, rfl, rfl⟩
  | unterminated => rw [hr] at h; cases h; exact .inr ⟨rfl, rfl, rfl⟩
  | _ => rw [hr] at h; cases h

/-- **A tiling accounts for every character**, once its regions of tokens are the tokens and its
rejected regions the diagnostics. -/
theorem Accounts.of_tiles {source : String} {tokens : List Token} {entries : List Diagnostic}
    {regions : List Region} (tiles : Tiles .start regions source.toList)
    (spans : tokens.map (·.span.range) =
      (regions.filter (·.role = .token)).map fun x => .ok (x.start.offset, x.stop.offset))
    (reported : entries = regions.filterMap Region.diagnostic?) :
    Accounts source tokens entries regions := by
  have of_token : ∀ t ∈ tokens, ∃ x ∈ regions, x.role = .token ∧
      t.span.range = .ok (x.start.offset, x.stop.offset) := by
    intro t ht
    have hm : t.span.range ∈ tokens.map (·.span.range) := List.mem_map_of_mem ht
    rw [spans] at hm
    obtain ⟨x, hx, he⟩ := List.mem_map.1 hm
    obtain ⟨hx, hr⟩ := List.mem_filter.1 hx
    exact ⟨x, hx, by simpa using hr, he.symm⟩
  have of_region : ∀ x ∈ regions, x.role = .token → ∃ t ∈ tokens,
      t.span.range = .ok (x.start.offset, x.stop.offset) := by
    intro x hx hr
    have hm : (.ok (x.start.offset, x.stop.offset) : Except Fault (Nat × Nat)) ∈
        tokens.map (·.span.range) := by
      rw [spans]
      exact List.mem_map.2 ⟨x, List.mem_filter.2 ⟨hx, by simpa using hr⟩, rfl⟩
    exact List.mem_map.1 hm
  refine ⟨tiles, spans, ?_, ?_, ?_, reported, ?_, ?_⟩
  · -- a span lies where its region does
    intro t ht
    obtain ⟨x, hx, -, he⟩ := of_token t ht
    obtain ⟨-, hlt, hle⟩ := tiles.mem_bounds hx
    exact ⟨_, _, he, hlt, by simpa using hle⟩
  · have hp : (tokens.map (·.span.range)).Pairwise fun a b => ∃ start stop start' stop',
        a = .ok (start, stop) ∧ b = .ok (start', stop') ∧ stop ≤ start' := by
      rw [spans, List.pairwise_map]
      exact (tiles.ordered.filter _).imp fun h => ⟨_, _, _, _, rfl, rfl, h⟩
    exact List.pairwise_map.1 hp
  · intro before c after ht
    have hu := tiles.covers_unique ht
    rw [Place.start_offset, Nat.zero_add] at hu
    refine ⟨hu, fun x hx hc => ⟨fun hr => ?_, ?_⟩⟩
    · obtain ⟨t, ht, he⟩ := of_region x hx hr
      exact ⟨t, ht, _, _, he, hc.1, hc.2⟩
    · rintro ⟨t, ht, start, stop, he, h1, h2⟩
      obtain ⟨y, hy, hr, hy'⟩ := of_token t ht
      obtain ⟨rfl, rfl⟩ := Prod.mk.inj (Except.ok.inj (he.symm.trans hy'))
      rw [hu.unique ⟨hx, hc⟩ ⟨hy, h1, h2⟩]
      exact hr
  · intro d hd
    rw [reported] at hd
    obtain ⟨x, -, hx⟩ := List.mem_filterMap.1 hd
    exact (Region.code_of_diagnostic? hx).imp And.right And.right
  · -- the region that such a diagnostic tells is the last one
    intro before d after he hcode
    rw [reported] at he
    obtain ⟨xs, ys, rfl, -, hy⟩ := List.filterMap_eq_append_iff.1 he
    obtain ⟨zs, x, ws, rfl, -, hx, hw⟩ := List.filterMap_eq_cons_iff.1 hy
    rcases Region.code_of_diagnostic? hx with ⟨-, h1, -⟩ | ⟨hr, -⟩
    · rw [h1] at hcode; cases hcode
    · rw [← List.append_assoc] at tiles
      obtain rfl := tiles.eq_nil_of_unterminated hr
      exact hw.symm

/-! ## The regions of a scan -/

/-- What becomes of the characters of a lexeme. -/
def Lexeme.role (l : Lexeme) : Role :=
  match l.verdict with
  | .token _ => .token
  | .skipped => if l.text.length = 1 then .blank else .comment
  | .rejected message => if message = .unexpectedCharacter then .unexpected else .unterminated

theorem Lexeme.role_eq_token_iff {l : Lexeme} :
    l.role = .token ↔ ∃ shape, l.verdict = .token shape := by
  unfold role
  split
  next shape hv => simp [hv]
  next hv => rw [hv]; split <;> simp
  next message hv => rw [hv]; split <;> simp

theorem Placed.token?_eq_none {x : Placed} (h : x.lexeme.role ≠ .token) : x.token? = none := by
  unfold token?
  split
  next shape hv => exact absurd (Lexeme.role_eq_token_iff.2 ⟨shape, hv⟩) h
  · rfl

/-- The region of a placed lexeme. -/
def Placed.region (x : Placed) : Region :=
  ⟨x.place, x.lexeme.text, x.lexeme.role⟩

theorem Lexeme.Reads.sound {l : Lexeme} {rest : List Char} (h : l.Reads rest) (p : Place) :
    (Placed.region ⟨p, l⟩).Sound rest := by
  have hne := h.text_ne_nil
  cases h with
  | mark => exact hne
  | @comment body _ hb hs =>
    refine ⟨body, rfl, hb, ?_⟩
    cases rest with
    | nil => exact .inl rfl
    | cons c cs => exact .inr (by simpa using hs)
  | @blank c _ hc =>
    refine ⟨c, ?_, rfl⟩
    rcases blank_cases hc with rfl | rfl | rfl | rfl <;> decide
  | string => exact hne
  | unterminated hb => exact ⟨⟨_, rfl, hb⟩, rfl⟩
  | whole => exact hne
  | fraction => exact hne
  | word => exact hne
  | unexpected hc => exact ⟨_, rfl, hc⟩

/-- The regions of chained lexemes tile what they spell. -/
theorem tiles_placed {ls : List Lexeme} (h : Chained ls) (p : Place) :
    Tiles p ((placed p ls).map Placed.region) (spell ls) := by
  induction ls generalizing p with
  | nil => rfl
  | cons l ls ih => exact ⟨rfl, spell ls, spell_cons l ls, h.1.sound p, ih h.2 _⟩

/-- The tokens of chained lexemes are the regions of tokens. -/
theorem spans_placed {ls : List Lexeme} (h : Chained ls) {p : Place}
    (hp : p.offset + Text.byteWidth (spell ls) < UInt32.size) :
    (tokensAt p ls).map (·.span.range) =
      (((placed p ls).map Placed.region).filter (·.role = .token)).map fun x =>
        .ok (x.start.offset, x.stop.offset) := by
  induction ls generalizing p with
  | nil => rfl
  | cons l ls ih =>
    rw [spell_cons, Text.byteWidth_append] at hp
    have hls := ih (p := p.after l.text) h.2 (by rw [Place.after_offset]; omega)
    rw [tokensAt] at hls
    rw [tokensAt, placed_cons]
    by_cases hr : (Placed.region ⟨p, l⟩).role = .token
    · obtain ⟨shape, hv⟩ := Lexeme.role_eq_token_iff.1 hr
      have hspan := Placed.span_range (x := ⟨p, l⟩)
        (show p.offset + Text.byteWidth l.text < UInt32.size by omega)
      rw [List.filterMap_cons_some (h.1.token?_eq hv p), List.map_cons, List.map_cons,
        List.filter_cons_of_pos (by simpa using hr), List.map_cons, hls, hspan]
      rfl
    · have hn : Placed.token? ⟨p, l⟩ = none := Placed.token?_eq_none hr
      rw [List.filterMap_cons_none hn, List.map_cons,
        List.filter_cons_of_neg (by simpa using hr), hls]

theorem Lexeme.Reads.diagnostic {l : Lexeme} {rest : List Char} (h : l.Reads rest) (p : Place) :
    (Placed.finding? ⟨p, l⟩).map Finding.diagnostic = (Placed.region ⟨p, l⟩).diagnostic? := by
  cases h <;> rfl

/-- The findings of lexemes that read are the rejected regions. -/
theorem reported_placed {ls : List Lexeme} (h : ∀ l ∈ ls, ∃ rest, l.Reads rest) (p : Place) :
    (findingsAt p ls).map Finding.diagnostic =
      ((placed p ls).map Placed.region).filterMap Region.diagnostic? := by
  rw [findingsAt, List.map_filterMap, List.filterMap_map]
  apply List.filterMap_congr
  intro x hx
  obtain ⟨rest, hr⟩ := h _ (lexeme_mem_of_mem_placed hx)
  exact hr.diagnostic x.place

/-- The regions of a text. -/
def regionsOf (text : List Char) : List Region :=
  (placed .start (lexemes text)).map Placed.region

theorem tiles_regionsOf (text : List Char) : Tiles .start (regionsOf text) text := by
  have h := tiles_placed (chained_lexemes text) .start
  rwa [spell_lexemes] at h

/-- **The tokens and the diagnostics of a scan are accounted for** by the regions of its text. -/
theorem accounts_regionsOf {source : String} (h : source.utf8ByteSize < UInt32.size) :
    Accounts source (tokensAt .start (lexemes source.toList))
      (Scanner.report Collection.empty (findingsAt .start (lexemes source.toList))).entries.toList
      (regionsOf source.toList) := by
  have hch := chained_lexemes source.toList
  have hsp := spell_lexemes source.toList
  refine .of_tiles (tiles_regionsOf _) (spans_placed hch (by simpa [hsp] using h)) ?_
  rw [entries_report, reported_placed fun _ => hch.reads_of_mem]
  rfl

/-- There is an error exactly if a character lies in a region that was rejected. -/
theorem Accounts.hasErrors_iff {source : String} {tokens : List Token} {c : Collection}
    {regions : List Region} (h : Accounts source tokens c.entries.toList regions) :
    c.hasErrors = true ↔ ∃ before d after, source.toList = before ++ d :: after ∧ ∃ x ∈ regions,
      x.Covers (Text.byteWidth before) ∧ (x.role = .unexpected ∨ x.role = .unterminated) := by
  rw [Collection.hasErrors, ← Array.any_toList, List.any_eq_true]
  constructor
  · rintro ⟨d, hd, -⟩
    rw [h.reported] at hd
    obtain ⟨x, hx, hdx⟩ := List.mem_filterMap.1 hd
    obtain ⟨before, after, ht, hstart, hs⟩ := h.tiles.mem_split hx
    -- the first character of the rejected region is the one
    obtain ⟨c, cs, hcs⟩ := List.exists_cons_of_ne_nil hs.text_ne_nil
    have hpos := (h.tiles.mem_bounds hx).2.1
    have hoff : x.start.offset = Text.byteWidth before := by
      rw [hstart, Place.after_offset, Place.start_offset, Nat.zero_add]
    refine ⟨before, c, cs ++ after, by rw [ht, hcs, List.cons_append], x, hx, ⟨?_, ?_⟩, ?_⟩
    · omega
    · omega
    · exact (Region.code_of_diagnostic? hdx).imp And.left And.left
  · rintro ⟨before, d, after, -, x, hx, -, hr⟩
    rw [h.reported]
    rcases hr with hr | hr
    · refine ⟨.ofMessage .unexpectedCharacter x.stop.line, List.mem_filterMap.2 ⟨x, hx, ?_⟩, rfl⟩
      rw [Region.diagnostic?, hr]; rfl
    · refine ⟨.ofMessage .unterminatedString x.stop.line, List.mem_filterMap.2 ⟨x, hx, ?_⟩, rfl⟩
      rw [Region.diagnostic?, hr]; rfl

/-- **Nothing is lost and nothing is taken twice.** A scan into an empty collection leaves regions
that tile the text; its tokens and diagnostics account for all of them, and there is an error
exactly if a character was rejected. -/
theorem scan_accounts_for_every_character (source : String)
    (h : source.utf8ByteSize < UInt32.size) :
    ∃ tokens s regions, scan source Collection.empty = .ok (tokens, s) ∧
      Accounts source (proper tokens) s.reporter.entries.toList regions ∧
      (Reporter.hadError s.reporter = true ↔
        ∃ before d after, source.toList = before ++ d :: after ∧ ∃ x ∈ regions,
          x.Covers (Text.byteWidth before) ∧ (x.role = .unexpected ∨ x.role = .unterminated)) := by
  have hacc := accounts_regionsOf h
  refine ⟨_, _, _, scan_eq Collection.empty h, ?_, hacc.hasErrors_iff⟩
  rw [proper_scanned (chained_lexemes source.toList)]
  exact hacc

/-- A text with a mark, a character of two bytes that begins no lexeme, and a string without an
end. -/
theorem accounts_for_mixed_text :
    "+é\"".utf8ByteSize < UInt32.size ∧
      ∃ tokens s regions, scan "+é\"" Collection.empty = .ok (tokens, s) ∧
        Accounts "+é\"" (proper tokens) s.reporter.entries.toList regions ∧
        (Reporter.hadError s.reporter = true ↔
          ∃ before d after, "+é\"".toList = before ++ d :: after ∧ ∃ x ∈ regions,
            x.Covers (Text.byteWidth before) ∧ (x.role = .unexpected ∨ x.role = .unterminated)) :=
  ⟨by decide, scan_accounts_for_every_character "+é\"" (by decide)⟩

end ScriptLexer
