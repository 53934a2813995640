import ScriptLexer.Proofs.Reads
import ScriptLexer.Scan.Scanner

/-!
# All lexemes of a text

The lexemes that a scan takes, one behind another, from the beginning of a text to its end, and the
places where they stand. A list of lexemes is that of a text exactly if it spells the text and each
of its lexemes reads in front of what the later ones spell.

* `lexemes`, `spell`: the lexemes of a text, and the text of lexemes.
* `lexemes_eq_iff`: which list is that of a text.
* `placed`: the lexemes with their places.
* `Placed.token?`, `Placed.finding?`: what becomes of each.
-/

namespace ScriptLexer

/-- The lexemes of a text, from its beginning to its end. -/
def lexemes (text : List Char) : List Lexeme :=
  match text with
  | [] => []
  | c :: cs => (Lexeme.first c cs).1 :: lexemes (Lexeme.first c cs).2
termination_by text.length
decreasing_by exact Lexeme.first_rest_lt c cs

/-- The lexeme of a blank: a character that is skipped. -/
def Lexeme.blank (b : Char) : Lexeme :=
  ⟨[b], .skipped⟩

/-- The text that lexemes spell one behind another. -/
def spell (ls : List Lexeme) : List Char :=
  ls.flatMap Lexeme.text

/-- Each lexeme reads in front of what the later ones spell. -/
def Chained : List Lexeme → Prop
  | [] => True
  | l :: ls => l.Reads (spell ls) ∧ Chained ls

@[simp] theorem spell_nil : spell [] = [] := rfl

@[simp] theorem spell_cons (l : Lexeme) (ls : List Lexeme) : spell (l :: ls) = l.text ++ spell ls := by
  simp [spell]

@[simp] theorem spell_append (ls ms : List Lexeme) : spell (ls ++ ms) = spell ls ++ spell ms := by
  simp [spell]

@[simp] theorem lexemes_nil : lexemes [] = [] := by
  rw [lexemes]

theorem lexemes_cons (c : Char) (cs : List Char) :
    lexemes (c :: cs) = (Lexeme.first c cs).1 :: lexemes (Lexeme.first c cs).2 := by
  rw [lexemes]

/-- **The lexemes of a text spell it**: none of its characters is lost or taken twice. -/
theorem spell_lexemes (text : List Char) : spell (lexemes text) = text := by
  fun_induction lexemes text with
  | case1 => rfl
  | case2 c cs ih => rw [spell_cons, ih, Lexeme.first_append]

theorem chained_lexemes (text : List Char) : Chained (lexemes text) := by
  fun_induction lexemes text with
  | case1 => trivial
  | case2 c cs ih =>
    refine ⟨?_, ih⟩
    rw [spell_lexemes]
    exact Lexeme.first_reads c cs

/-- The first lexeme of what chained lexemes spell is the first of them, and the others spell what
follows it. -/
theorem Chained.exists_first {l : Lexeme} {ls : List Lexeme} (h : Chained (l :: ls)) :
    ∃ c cs, spell (l :: ls) = c :: cs ∧ Lexeme.first c cs = (l, spell ls) := by
  obtain ⟨c, cs, ht, hf⟩ := h.1.exists_first
  refine ⟨c, cs ++ spell ls, ?_, hf⟩
  rw [spell_cons, ht, List.cons_append]

/-- Chained lexemes are the lexemes of what they spell. -/
theorem lexemes_spell {ls : List Lexeme} (h : Chained ls) : lexemes (spell ls) = ls := by
  induction ls with
  | nil => exact lexemes_nil
  | cons l ls ih =>
    obtain ⟨c, cs, hs, hf⟩ := h.exists_first
    rw [hs, lexemes_cons, hf, ih h.2]

/-- **The lexemes of a text** are the chained ones that spell it. -/
theorem lexemes_eq_iff {text : List Char} {ls : List Lexeme} :
    lexemes text = ls ↔ spell ls = text ∧ Chained ls := by
  constructor
  · rintro rfl
    exact ⟨spell_lexemes text, chained_lexemes text⟩
  · rintro ⟨rfl, h⟩
    exact lexemes_spell h

theorem Chained.eq_nil_of_spell {ls : List Lexeme} (h : Chained ls) (hs : spell ls = []) :
    ls = [] := by
  cases ls with
  | nil => rfl
  | cons l ls =>
    rw [spell_cons] at hs
    exact absurd (List.append_eq_nil_iff.1 hs).1 h.1.text_ne_nil

theorem Chained.reads_of_mem {ls : List Lexeme} (h : Chained ls) {l : Lexeme} (hl : l ∈ ls) :
    ∃ rest, l.Reads rest := by
  induction ls with
  | nil => cases hl
  | cons m ls ih =>
    rcases List.mem_cons.1 hl with rfl | hl
    · exact ⟨_, h.1⟩
    · exact ih h.2 hl

/-! ## Places -/

namespace Place

@[simp] theorem after_nil (p : Place) : p.after [] = p := by
  simp [after]

@[simp] theorem after_append (p : Place) (cs ds : List Char) :
    p.after (cs ++ ds) = (p.after cs).after ds := by
  simp [after, Nat.add_assoc]

@[simp] theorem after_offset (p : Place) (cs : List Char) :
    (p.after cs).offset = p.offset + Text.byteWidth cs := rfl

@[simp] theorem after_line (p : Place) (cs : List Char) :
    (p.after cs).line = p.line + Text.newlines cs := rfl

@[simp] theorem start_offset : start.offset = 0 := rfl

@[simp] theorem start_line : start.line = 1 := rfl

end Place

/-- A lexeme and the place where it begins. -/
structure Placed where
  place : Place
  lexeme : Lexeme
  deriving DecidableEq

/-- Lexemes one behind another, the first of them at a place. -/
def placed (p : Place) : List Lexeme → List Placed
  | [] => []
  | l :: ls => ⟨p, l⟩ :: placed (p.after l.text) ls

@[simp] theorem placed_nil (p : Place) : placed p [] = [] := rfl

@[simp] theorem placed_cons (p : Place) (l : Lexeme) (ls : List Lexeme) :
    placed p (l :: ls) = ⟨p, l⟩ :: placed (p.after l.text) ls := rfl

@[simp] theorem placed_append (p : Place) (ls ms : List Lexeme) :
    placed p (ls ++ ms) = placed p ls ++ placed (p.after (spell ls)) ms := by
  induction ls generalizing p with
  | nil => simp
  | cons l ls ih => simp [ih]

@[simp] theorem map_lexeme_placed (p : Place) (ls : List Lexeme) :
    (placed p ls).map Placed.lexeme = ls := by
  induction ls generalizing p with
  | nil => rfl
  | cons l ls ih => simp [ih]

/-- A placed lexeme stands behind what the lexemes in front of it spell. -/
theorem mem_placed {p : Place} {ls : List Lexeme} {x : Placed} (h : x ∈ placed p ls) :
    ∃ before after, ls = before ++ x.lexeme :: after ∧ x.place = p.after (spell before) := by
  induction ls generalizing p with
  | nil => cases h
  | cons l ls ih =>
    rcases List.mem_cons.1 h with rfl | h
    · exact ⟨[], ls, rfl, by simp⟩
    · obtain ⟨before, after, hls, hx⟩ := ih h
      exact ⟨l :: before, after, by rw [hls, List.cons_append], by simp [hx]⟩

theorem lexeme_mem_of_mem_placed {p : Place} {ls : List Lexeme} {x : Placed}
    (h : x ∈ placed p ls) : x.lexeme ∈ ls := by
  rw [← map_lexeme_placed p ls]
  exact List.mem_map_of_mem h

theorem Chained.reads_of_mem_placed {ls : List Lexeme} (h : Chained ls) {p : Place} {x : Placed}
    (hx : x ∈ placed p ls) : ∃ rest, x.lexeme.Reads rest :=
  h.reads_of_mem (lexeme_mem_of_mem_placed hx)

/-! ## What becomes of a lexeme -/

/-- The kind of the token of a shape. -/
def Shape.kind : Shape → Kind
  | .plain kind => kind
  | .number _ => .number
  | .string _ => .string

/-- The value of the token of a shape. -/
def Shape.literal : Shape → Literal
  | .plain _ => .none
  | .number value => .number value
  | .string text => .string text

instance (v : Literal) (k : Kind) : Decidable (v.Suits k) :=
  match v with
  | .none => inferInstanceAs (Decidable (k.isLiteral = false))
  | .number _ => inferInstanceAs (Decidable (k = .number))
  | .string _ => inferInstanceAs (Decidable (k = .string))

/-- A message for a line. -/
structure Finding where
  line : Nat
  message : Message
  deriving DecidableEq

namespace Placed

/-- The bytes of a placed lexeme. -/
def span (x : Placed) : Span :=
  ⟨x.place.offset.toUInt32, (Text.byteWidth x.lexeme.text).toUInt32⟩

/-- The place behind a placed lexeme. -/
def stop (x : Placed) : Place :=
  x.place.after x.lexeme.text

/-- The token of a placed lexeme: none where it is skipped or rejected. -/
def token? (x : Placed) : Option Token :=
  match x.lexeme.verdict with
  | .token shape =>
    if h : shape.literal.Suits shape.kind then
      some ⟨shape.kind, .ofList x.lexeme.text, shape.literal, x.place.line, x.span, h⟩
    else none
  | _ => none

/-- The finding of a placed lexeme: none where it is a token or skipped. Its line is that of the
lexeme's end. -/
def finding? (x : Placed) : Option Finding :=
  match x.lexeme.verdict with
  | .rejected message => some ⟨x.stop.line, message⟩
  | _ => none

end Placed

/-- The tokens of lexemes one behind another. -/
def tokensAt (p : Place) (ls : List Lexeme) : List Token :=
  (placed p ls).filterMap Placed.token?

/-- The findings of lexemes one behind another. -/
def findingsAt (p : Place) (ls : List Lexeme) : List Finding :=
  (placed p ls).filterMap Placed.finding?

theorem tokensAt_cons (p : Place) (l : Lexeme) (ls : List Lexeme) :
    tokensAt p (l :: ls) = (Placed.token? ⟨p, l⟩).toList ++ tokensAt (p.after l.text) ls := by
  rw [tokensAt, placed_cons, List.filterMap_cons]
  cases Placed.token? ⟨p, l⟩ <;> rfl

theorem findingsAt_cons (p : Place) (l : Lexeme) (ls : List Lexeme) :
    findingsAt p (l :: ls) =
      (Placed.finding? ⟨p, l⟩).toList ++ findingsAt (p.after l.text) ls := by
  rw [findingsAt, placed_cons, List.filterMap_cons]
  cases Placed.finding? ⟨p, l⟩ <;> rfl

@[simp] theorem tokensAt_append (p : Place) (ls ms : List Lexeme) :
    tokensAt p (ls ++ ms) = tokensAt p ls ++ tokensAt (p.after (spell ls)) ms := by
  simp [tokensAt]

@[simp] theorem findingsAt_append (p : Place) (ls ms : List Lexeme) :
    findingsAt p (ls ++ ms) = findingsAt p ls ++ findingsAt (p.after (spell ls)) ms := by
  simp [findingsAt]

end ScriptLexer
