import ScriptLexer.Proofs.DataNumbers
import ScriptLexer.Proofs.SettingsData

/-!
# Settings are read as their data says

Reading goes along the grammar of data. In front of data that a field takes it comes to the value
and to what follows the data; in front of other data it is refused. So on the text of any data the
reading of settings comes to what the data says, and to nothing where the data says none.

* `Cursor.boolean_of_spells`, `Cursor.size_of_spells`, `Cursor.format_of_spells`: values.
* `Cursor.fieldValue_of_spells`: the value of a field.
* `Draft.members_of_spells`, `Draft.elements_of_spells`: objects and lists.
* `Settings.read_eq_ok_iff_of_text`: the settings of a text that spells data.
-/

namespace ScriptLexer

/-! ## What a reading comes to -/

section

variable {α β : Type} {r : Except Refusal (α × Cursor)} {rest : List Char}

/-- A reading that gives nothing is refused. -/
theorem answers_none (h : ∀ x, r ≠ .ok x) : Answers r (none : Option α) rest := by
  cases r with
  | error refusal => exact ⟨refusal, rfl⟩
  | ok x => exact absurd rfl (h x)

theorem Answers.map {a? : Option α} (h : Answers r a? rest) (f : α → β) :
    Answers (r >>= fun x => pure (f x.1, x.2)) (a?.map f) rest := by
  cases a? with
  | none =>
    obtain ⟨refusal, h⟩ := h
    exact ⟨refusal, by rw [h]; rfl⟩
  | some a =>
    obtain ⟨offset, h⟩ := h
    exact ⟨offset, by rw [h]; rfl⟩

theorem Answers.bind {a? : Option α} {middle : List Char}
    {f : α × Cursor → Except Refusal (β × Cursor)} {g : α → Option β} (h : Answers r a? middle)
    (hf : ∀ a offset, Answers (f (a, ⟨offset, middle⟩)) (g a) rest) :
    Answers (r >>= f) (a? >>= g) rest := by
  cases a? with
  | none =>
    obtain ⟨refusal, h⟩ := h
    exact ⟨refusal, by rw [h]; rfl⟩
  | some a =>
    obtain ⟨offset, h⟩ := h
    rw [h]
    exact hf a offset

end

namespace Cursor

variable {text rest : List Char}

/-! ## Blanks and words -/

theorem skipBlanks_cons {d : Char} (hd : isDataBlank d = true) (offset : Nat) :
    skipBlanks ⟨offset, d :: rest⟩ = skipBlanks ⟨offset + 1, rest⟩ := by
  simp only [skipBlanks, skipWhile, List.takeWhile_cons_of_pos hd, List.dropWhile_cons_of_pos hd,
    List.length_cons, Nat.add_assoc, Nat.add_comm 1]

theorem skipBlanks_of_blanks (h : Blanks text rest) (offset : Nat) :
    ∃ offset', skipBlanks ⟨offset, text⟩ = skipBlanks ⟨offset', rest⟩ := by
  induction h generalizing offset with
  | none => exact ⟨offset, rfl⟩
  | more hd h ih =>
    obtain ⟨offset', hskip⟩ := ih (offset + 1)
    exact ⟨offset', by rw [skipBlanks_cons hd, hskip]⟩

/-- The blanks in front of anything else are skipped. -/
theorem skipBlanks_of_blanks_cons {d : Char} (h : Blanks text (d :: rest))
    (hd : isDataBlank d = false) (offset : Nat) :
    ∃ offset', skipBlanks ⟨offset, text⟩ = ⟨offset', d :: rest⟩ := by
  obtain ⟨offset', hskip⟩ := skipBlanks_of_blanks h offset
  refine ⟨offset', ?_⟩
  rw [hskip]
  simp [skipBlanks, skipWhile, hd]

theorem skipBlanks_of_blanks_nil (h : Blanks text []) (offset : Nat) :
    ∃ offset', skipBlanks ⟨offset, text⟩ = ⟨offset', []⟩ := by
  obtain ⟨offset', hskip⟩ := skipBlanks_of_blanks h offset
  exact ⟨offset', by rw [hskip]; rfl⟩

theorem keyword_null (rest : List Char) (offset : Nat) :
    keyword ['u', 'l', 'l'] ⟨offset, 'u' :: 'l' :: 'l' :: rest⟩ = .ok ⟨offset + 3, rest⟩ :=
  rfl

/-! ## Values -/

/-- A value of a wrong type is refused, whatever it is. -/
theorem wrongType_ne_ok {α : Type} (c : Cursor) (expected : Expected) (a : α) :
    c.wrongType expected ≠ .ok a := by
  intro h
  unfold wrongType at h
  -- a word, a string and a number are read first, only to name them in the refusal
  split at h
  · obtain ⟨_, -, h⟩ := exists_of_bind h
    cases h
  · obtain ⟨_, -, h⟩ := exists_of_bind h
    cases h
  · obtain ⟨_, -, h⟩ := exists_of_bind h
    cases h
  · obtain ⟨_, -, h⟩ := exists_of_bind h
    cases h
  · cases h
  · cases h
  · split at h
    · obtain ⟨_, -, h⟩ := exists_of_bind h
      cases h
    · cases h
  · cases h

theorem refuseName_ne_ok {α : Type} (c : Cursor) (problem : Problem) (a : α) :
    c.refuseName problem ≠ .ok a := by
  intro h
  unfold refuseName at h
  dsimp only at h
  split at h <;> cases h

theorem colon_of_blanks (h : Blanks text (':' :: rest)) (offset : Nat) :
    ∃ offset', colon ⟨offset, text⟩ = .ok ⟨offset', rest⟩ := by
  obtain ⟨offset', hskip⟩ := skipBlanks_of_blanks_cons h (by decide) offset
  exact ⟨offset' + 1, by rw [colon, hskip]; rfl⟩

theorem boolean_refused {d : Char} (ht : d ≠ 't') (hf : d ≠ 'f') (offset : Nat) :
    Answers (boolean ⟨offset, d :: text⟩) none rest := by
  unfold boolean
  split
  next hp => cases hp
  next hp => exact absurd (List.cons.inj hp).1 ht
  next hp => exact absurd (List.cons.inj hp).1 hf
  · exact answers_none (wrongType_ne_ok _ _)

/-- A truth value is read, and nothing else as one. -/
theorem boolean_of_spells {v : Json} (h : v.Spells text rest) (offset : Nat) :
    Answers (boolean ⟨offset, text⟩) v.boolean? rest := by
  cases h with
  | null => exact boolean_refused (by decide) (by decide) offset
  | isTrue => exact ⟨offset + 4, rfl⟩
  | isFalse => exact ⟨offset + 5, rfl⟩
  | number h =>
    obtain ⟨d, more, rfl, hd⟩ := h.exists_cons
    have ht : d ≠ 't' := by
      rintro rfl
      exact absurd hd (by decide)
    have hf : d ≠ 'f' := by
      rintro rfl
      exact absurd hd (by decide)
    exact boolean_refused ht hf offset
  | string h =>
    obtain ⟨h⟩ := h
    exact boolean_refused (by decide) (by decide) offset
  | array => exact boolean_refused (by decide) (by decide) offset
  | object => exact boolean_refused (by decide) (by decide) offset

theorem size_refused {d : Char} (hd : ¬ (d = '-' ∨ d.isDigit = true)) (offset : Nat) :
    Answers (size ⟨offset, d :: text⟩) none rest := by
  simp only [size, if_neg hd]
  exact answers_none (wrongType_ne_ok _ _)

/-- A natural number that fits is read, and nothing else as one. -/
theorem size_of_spells {v : Json} (h : v.Spells text rest) (hrest : Ends rest) (offset : Nat) :
    Answers (size ⟨offset, text⟩) v.size? rest := by
  cases h with
  | null => exact size_refused (by decide) offset
  | isTrue => exact size_refused (by decide) offset
  | isFalse => exact size_refused (by decide) offset
  | number h =>
    have hread := Numeral.read_of_spells h hrest offset
    obtain ⟨d, more, rfl, hd⟩ := h.exists_cons
    simp only [size, if_pos hd, Json.size?]
    cases hvalue : Numeral.Written.value? _ with
    | none =>
      rw [hvalue] at hread
      obtain ⟨refusal, hread⟩ := hread
      exact ⟨refusal, by rw [hread]; rfl⟩
    | some value =>
      rw [hvalue] at hread
      obtain ⟨offset', hread⟩ := hread
      rw [hread]
      cases value with
      | natural n => exact ⟨offset', rfl⟩
      | negative magnitude => exact ⟨_, rfl⟩
      | float value => exact ⟨_, rfl⟩
  | string h =>
    obtain ⟨h⟩ := h
    exact size_refused (by decide) offset
  | array => exact size_refused (by decide) offset
  | object => exact size_refused (by decide) offset

/-! ## Formats -/

/-- Only null begins with an n. -/
theorem ne_of_spells {v : Json} {d : Char} (h : v.Spells (d :: text) rest) (hv : v ≠ .null) :
    d ≠ 'n' := by
  rintro rfl
  cases h with
  | null => exact hv rfl
  | number h =>
    obtain ⟨_, _, hcons, hd⟩ := h.exists_cons
    cases hcons
    exact absurd hd (by decide)
  | string h => cases h

/-- In front of a value, from behind the blanks that precede it. -/
theorem skipBlanks_of_spells {v : Json} {before : List Char} (hblanks : Blanks before text)
    (h : v.Spells text rest) (offset : Nat) :
    ∃ offset', skipBlanks ⟨offset, before⟩ = ⟨offset', text⟩ := by
  obtain ⟨d, more, rfl, hopens⟩ := h.exists_cons
  exact skipBlanks_of_blanks_cons hblanks hopens.1 offset

theorem format?_object_eq_none {name : String} {v : Json} {members : List (String × Json)}
    (h : ¬ (v = .null ∧ members = [])) : Json.format? (.object ((name, v) :: members)) = none := by
  cases v <;> cases members <;> simp_all [Json.format?]

/-- What follows the name of a format written as an object. -/
def formatTail (format : TokenFormat) (c : Cursor) : Except Refusal (TokenFormat × Cursor) := do
  let c := (← c.colon).skipBlanks
  let c ← match c.pending with
    | [] => c.refuseNext .eofInValue
    | 'n' :: rest => (c.past 1 rest).keyword ['u', 'l', 'l']
    | _ => c.wrongType .unit
  let c := c.skipBlanks
  match c.pending with
  | [] => c.refuse .eofInObject
  | '\x7d' :: rest => return (format, c.past 1 rest)
  | _ => c.refuse .expectedValue

theorem formatMember_eq (c : Cursor) : c.formatMember =
    match c.skipBlanks.pending with
    | [] => c.skipBlanks.refuseNext .eofInObject
    | '\x7d' :: _ => c.skipBlanks.refuseNext .expectedValue
    | '"' :: rest => do
      let (name, c) ← (c.skipBlanks.past 1 rest).string
      let format ← c.formatOf name
      c.formatTail format
    | _ => c.skipBlanks.refuseNext .keyNotString := rfl

/-- Behind the name, only null and the closing brace are taken. -/
theorem formatTail_null {format : TokenFormat} {blanks value more : List Char}
    (hcolon : Blanks text (':' :: blanks)) (hblanks : Blanks blanks value)
    (hvalue : Json.Spells value .null more) (hmore : Blanks more ('\x7d' :: rest)) (offset : Nat) :
    Answers (formatTail format ⟨offset, text⟩) (some format) rest := by
  obtain ⟨offset₁, h₁⟩ := colon_of_blanks hcolon offset
  obtain ⟨offset₂, h₂⟩ := skipBlanks_of_spells hblanks hvalue offset₁
  cases hvalue with
  | null =>
    obtain ⟨offset₃, h₃⟩ := skipBlanks_of_blanks_cons hmore (by decide) (offset₂ + 1 + 3)
    refine ⟨offset₃ + 1, ?_⟩
    simp only [formatTail, h₁, h₂, past, keyword_null, h₃, bind, Except.bind]
    rfl

theorem formatTail_refused {format : TokenFormat} {blanks value more : List Char} {v : Json}
    {members : List (String × Json)} (hcolon : Blanks text (':' :: blanks))
    (hblanks : Blanks blanks value) (hvalue : v.Spells value more)
    (hmore : Json.SpellsMembers false more members rest) (hne : ¬ (v = .null ∧ members = []))
    (offset : Nat) : Answers (formatTail format ⟨offset, text⟩) none rest := by
  obtain ⟨offset₁, h₁⟩ := colon_of_blanks hcolon offset
  obtain ⟨offset₂, h₂⟩ := skipBlanks_of_spells hblanks hvalue offset₁
  by_cases hv : v = .null
  · subst hv
    cases hvalue with
    | null =>
      cases hmore with
      | close => exact absurd ⟨rfl, rfl⟩ hne
      | member hbefore =>
        cases hbefore with
        | later hcomma =>
          obtain ⟨offset₃, h₃⟩ := skipBlanks_of_blanks_cons hcomma (by decide) (offset₂ + 1 + 3)
          simp only [formatTail, h₁, h₂, past, keyword_null, h₃, bind, Except.bind]
          exact ⟨_, rfl⟩
  · obtain ⟨d, tail, rfl, -⟩ := hvalue.exists_cons
    have hd := ne_of_spells hvalue hv
    refine answers_none fun x hx => ?_
    obtain ⟨c, hc, hx⟩ := exists_of_bind hx
    rw [h₁] at hc
    cases hc
    simp only [h₂] at hx
    split at hx
    next hp => cases hp
    next hp => exact absurd (List.cons.inj hp).1 hd
    · -- a value that begins with another letter is not null
      obtain ⟨c, hwrong, -⟩ := exists_of_bind hx
      exact wrongType_ne_ok _ _ _ hwrong

/-- A format written as an object is read if its name is the one member, and its value null. -/
theorem formatMember_of_spells {members : List (String × Json)}
    (h : Json.SpellsMembers true text members rest) (offset : Nat) :
    Answers (formatMember ⟨offset, text⟩) (Json.object members).format? rest := by
  rw [formatMember_eq]
  cases h with
  | close h =>
    obtain ⟨offset₁, h₁⟩ := skipBlanks_of_blanks_cons h (by decide) offset
    rw [h₁]
    exact ⟨_, rfl⟩
  | @member _ _ _ _ _ _ more _ name v members hbefore hkey hcolon hblanks hvalue hmore =>
    obtain ⟨h⟩ := hbefore
    obtain ⟨hkey⟩ := hkey
    obtain ⟨offset₁, h₁⟩ := skipBlanks_of_blanks_cons h (by decide) offset
    obtain ⟨offset₂, h₂⟩ := string_of_spells hkey (offset₁ + 1)
    simp only [h₁, past, h₂, bind, Except.bind, formatOf]
    by_cases hnull : v = .null ∧ members = []
    · -- the name decides, as for a format that is written as a string
      obtain ⟨rfl, rfl⟩ := hnull
      cases hmore with
      | close hclose =>
        simp only [Json.format?]
        cases TokenFormat.ofName? name with
        | none => exact ⟨_, rfl⟩
        | some format => exact formatTail_null hcolon hblanks hvalue hclose offset₂
    · rw [format?_object_eq_none hnull]
      cases TokenFormat.ofName? name with
      | none => exact ⟨_, rfl⟩
      | some format => exact formatTail_refused hcolon hblanks hvalue hmore hnull offset₂

theorem format_refused {d : Char} (hquote : d ≠ '"') (hbrace : d ≠ '\x7b') (offset : Nat) :
    Answers (format ⟨offset, d :: text⟩) none rest := by
  unfold format
  split
  next hp => cases hp
  next hp => exact absurd (List.cons.inj hp).1 hquote
  next hp => exact absurd (List.cons.inj hp).1 hbrace
  · exact ⟨_, rfl⟩

/-- A format is read from its name, alone or in an object, and from nothing else. -/
theorem format_of_spells {v : Json} (h : v.Spells text rest) (offset : Nat) :
    Answers (format ⟨offset, text⟩) v.format? rest := by
  cases h with
  | null => exact format_refused (by decide) (by decide) offset
  | isTrue => exact format_refused (by decide) (by decide) offset
  | isFalse => exact format_refused (by decide) (by decide) offset
  | number h =>
    obtain ⟨d, more, rfl, hd⟩ := h.exists_cons
    have hquote : d ≠ '"' := by
      rintro rfl
      exact absurd hd (by decide)
    have hbrace : d ≠ '\x7b' := by
      rintro rfl
      exact absurd hd (by decide)
    exact format_refused hquote hbrace offset
  | @string _ _ name h =>
    obtain ⟨h⟩ := h
    obtain ⟨offset', hread⟩ := string_of_spells h (offset + 1)
    simp only [format, past, hread, bind, Except.bind, formatOf, Json.format?]
    cases TokenFormat.ofName? name with
    | none => exact ⟨_, rfl⟩
    | some format => exact ⟨offset', rfl⟩
  | array => exact format_refused (by decide) (by decide) offset
  | object h => exact formatMember_of_spells h (offset + 1)

/-! ## The value of a field -/

/-- Null is read in front of every value, the value otherwise. -/
theorem orNull_of_spells {α : Type} {value : Cursor → Except Refusal (α × Cursor)}
    {value? : Json → Option α} {v : Json} {before : List Char} (hblanks : Blanks before text)
    (h : v.Spells text rest) (hvalue : ∀ offset, Answers (value ⟨offset, text⟩) (value? v) rest)
    (offset : Nat) : Answers (orNull value ⟨offset, before⟩) (v.orNull? value?) rest := by
  obtain ⟨offset₁, h₁⟩ := skipBlanks_of_spells hblanks h offset
  simp only [orNull, h₁]
  by_cases hv : v = .null
  · subst hv
    cases h with
    | null =>
      simp only [past, keyword_null]
      exact ⟨offset₁ + 1 + 3, rfl⟩
  · have hother : v.orNull? value? = (value? v).map some := by
      cases v <;> first | rfl | exact absurd rfl hv
    obtain ⟨d, tail, rfl, -⟩ := h.exists_cons
    have hd := ne_of_spells h hv
    rw [hother]
    split
    next hp => exact absurd (List.cons.inj hp).1 hd
    · exact (hvalue offset₁).map some

/-- **The value of a field is read as its data says.** -/
theorem fieldValue_of_spells (field : Field) {v : Json} {before : List Char}
    (hblanks : Blanks before text) (h : v.Spells text rest) (hrest : Ends rest) (offset : Nat) :
    Answers (fieldValue field ⟨offset, before⟩) (field.value? v) rest := by
  cases field with
  | tokenFormat => exact (orNull_of_spells hblanks h (format_of_spells h) offset).map _
  | color => exact (orNull_of_spells hblanks h (boolean_of_spells h) offset).map _
  | history => exact (orNull_of_spells hblanks h (boolean_of_spells h) offset).map _
  | maxHistorySize => exact (orNull_of_spells hblanks h (size_of_spells h hrest) offset).map _

/-! ## What stands between values -/

/-- A member that is not the first has a comma in front of it, the first one has none. -/
theorem key_of_separator {first : Bool} (h : Separator first text rest) {content : String}
    {behind : List Char} (hkey : SpellsString rest content behind) (offset : Nat) : ∃ offset',
    (if first then firstKey ⟨offset, text⟩ else nextKey ⟨offset, text⟩) =
      .ok (some ⟨offset', rest⟩) := by
  obtain ⟨hkey⟩ := hkey
  cases h with
  | first h =>
    obtain ⟨offset₁, h₁⟩ := skipBlanks_of_blanks_cons h (by decide) offset
    exact ⟨offset₁, by rw [if_pos rfl, firstKey, h₁]; rfl⟩
  | later h h' =>
    obtain ⟨offset₁, h₁⟩ := skipBlanks_of_blanks_cons h (by decide) offset
    obtain ⟨offset₂, h₂⟩ := skipBlanks_of_blanks_cons h' (by decide) (offset₁ + 1)
    refine ⟨offset₂, ?_⟩
    rw [if_neg (by decide), nextKey]
    simp only [h₁, past, h₂]
    rfl

theorem key_of_close (first : Bool) (h : Blanks text ('\x7d' :: rest)) (offset : Nat) :
    (if first then firstKey ⟨offset, text⟩ else nextKey ⟨offset, text⟩) = .ok none := by
  obtain ⟨offset₁, h₁⟩ := skipBlanks_of_blanks_cons h (by decide) offset
  cases first with
  | true =>
    rw [if_pos rfl, firstKey, h₁]
    rfl
  | false =>
    rw [if_neg (by decide), nextKey, h₁]
    rfl

/-- An element that is not the first has a comma in front of it, the first one has none. -/
theorem element_of_separator {count : Nat} {v : Json} {behind : List Char}
    (h : Separator (count == 0) text rest) (hvalue : v.Spells rest behind) (offset : Nat) :
    ∃ offset', element count ⟨offset, text⟩ = .ok ⟨offset', rest⟩ := by
  obtain ⟨d, more, rfl, hblank, -, -, hbracket, -⟩ := hvalue.exists_cons
  generalize hfirst : (count == 0) = first at h
  cases h with
  | first h =>
    have hzero : count = 0 := by simpa using hfirst
    obtain ⟨offset₁, h₁⟩ := skipBlanks_of_blanks_cons h hblank offset
    refine ⟨offset₁, ?_⟩
    simp only [element, h₁, if_pos hzero]
  | later h h' =>
    have hlater : count ≠ 0 := by simpa using hfirst
    obtain ⟨offset₁, h₁⟩ := skipBlanks_of_blanks_cons h (by decide) offset
    obtain ⟨offset₂, h₂⟩ := skipBlanks_of_blanks_cons h' hblank (offset₁ + 1)
    refine ⟨offset₂, ?_⟩
    rw [element, h₁]
    change (if count = 0 then _ else if ',' = ',' then _ else _) = _
    rw [if_neg hlater, if_pos rfl]
    simp only [past, h₂]
    split
    next hp => cases hp
    next hp => exact absurd (List.cons.inj hp).1 hbracket
    · rfl

theorem element_of_close (h : Blanks text (']' :: rest)) (count offset : Nat) :
    ∃ refusal, element count ⟨offset, text⟩ = .error refusal := by
  obtain ⟨offset₁, h₁⟩ := skipBlanks_of_blanks_cons h (by decide) offset
  exact ⟨_, by rw [element, h₁]; rfl⟩

theorem closingBracket_of_comma (h : Blanks text (',' :: rest)) (offset : Nat) :
    ∃ refusal, closingBracket ⟨offset, text⟩ = .error refusal := by
  obtain ⟨offset₁, h₁⟩ := skipBlanks_of_blanks_cons h (by decide) offset
  cases hc : closingBracket ⟨offset, text⟩ with
  | error refusal => exact ⟨refusal, rfl⟩
  | ok c =>
    simp only [closingBracket, h₁] at hc
    split at hc <;> cases hc

end Cursor

namespace Draft

variable {text rest : List Char}

/-! ## Members -/

/-- **What the reading of a member does**: it takes a key, which names a field that was not read, a
colon, and a value of the field. -/
theorem member_eq_ok_iff {draft : Draft} {c c' : Cursor}
    {filled : { d : Draft // d.missing < draft.missing }} :
    draft.member c = .ok (filled, c') ↔ ∃ name c₁ c₂, ∃ (field : Field) (x : _),
      c.key = .ok (name, c₁) ∧ Field.ofName? name = some field ∧ draft.has field = false ∧
        c₁.colon = .ok c₂ ∧ c₂.fieldValue field = .ok (x, c') ∧ filled.1 = draft.put x.1 := by
  constructor
  · intro h
    obtain ⟨⟨name, c₁⟩, hkey, h⟩ := exists_of_bind h
    dsimp only at h
    split at h
    · exact absurd h (Cursor.refuseName_ne_ok _ _ _)
    next field hfield =>
      split at h
      next hhas =>
        obtain ⟨c₂, hcolon, h⟩ := exists_of_bind h
        obtain ⟨⟨x, c₃⟩, hvalue, h⟩ := exists_of_bind h
        cases h
        exact ⟨name, c₁, c₂, field, x, hkey, hfield, hhas, hcolon, hvalue, rfl⟩
      · exact absurd h (Cursor.refuseName_ne_ok _ _ _)
  · rintro ⟨name, c₁, c₂, field, x, hkey, hfield, hhas, hcolon, hvalue, hfilled⟩
    obtain ⟨filled, hlt⟩ := filled
    obtain rfl : filled = draft.put x.1 := hfilled
    simp only [member, hkey, bind, Except.bind]
    split
    next hnone =>
      rw [hfield] at hnone
      cases hnone
    next field' hfield' =>
      obtain rfl : field = field' := Option.some.inj (hfield.symm.trans hfield')
      simp only [dif_pos hhas, hcolon, hvalue]
      rfl

/-- A member is read as the data of the field that it names. -/
theorem member_of_spells {key colon blanks value : List Char} {name : String} {v : Json}
    (hkey : SpellsString key name colon) (hcolon : Blanks colon (':' :: blanks))
    (hblanks : Blanks blanks value) (hvalue : v.Spells value rest) (hrest : Ends rest)
    (draft : Draft) (offset : Nat) :
    Answers (draft.member ⟨offset, key⟩ >>= fun x => pure (x.1.1, x.2)) (draft.fill (name, v))
      rest := by
  obtain ⟨hkey⟩ := hkey
  obtain ⟨offset₁, h₁⟩ := Cursor.string_of_spells hkey (offset + 1)
  obtain ⟨offset₂, h₂⟩ := Cursor.colon_of_blanks hcolon offset₁
  have hname : (⟨offset, '"' :: _⟩ : Cursor).key = .ok (name, ⟨offset₁, colon⟩) := h₁
  have hread := fun field : Field =>
    Cursor.fieldValue_of_spells field hblanks hvalue hrest offset₂
  cases hfill : draft.fill (name, v) with
  | some d =>
    obtain ⟨field, hfield, hhas, x, hx, rfl⟩ := fill_eq_some_iff.1 hfill
    have hvalue := hread field
    rw [hx] at hvalue
    obtain ⟨offset₃, h₃⟩ := hvalue
    have hmember : draft.member ⟨offset, _⟩ =
        .ok (⟨draft.put x.1, missing_put_lt (by rw [x.2, hhas])⟩, ⟨offset₃, rest⟩) :=
      member_eq_ok_iff.2 ⟨name, _, _, field, x, hname, Field.ofName?_eq_some_iff.2 hfield, hhas, h₂,
        h₃, rfl⟩
    exact ⟨offset₃, by rw [hmember]; rfl⟩
  | none =>
    refine answers_none fun found hfound => ?_
    obtain ⟨⟨filled, c'⟩, hmember, -⟩ := exists_of_bind hfound
    obtain ⟨name', c₁, c₂, field, x, hkey', hfield, hhas, hcolon', hx, -⟩ :=
      member_eq_ok_iff.1 hmember
    -- the key and the colon are those of the grammar, so the value would have filled the field
    rw [hname] at hkey'
    cases hkey'
    rw [h₂] at hcolon'
    cases hcolon'
    have hvalue := hread field
    cases hdata : field.value? v with
    | none =>
      rw [hdata] at hvalue
      obtain ⟨refusal, hrefused⟩ := hvalue
      rw [hrefused] at hx
      cases hx
    | some y =>
      have hsome := fill_eq_some_iff.2
        ⟨field, Field.ofName?_eq_some_iff.1 hfield, hhas, y, hdata, rfl⟩
      rw [hsome] at hfill
      cases hfill

/-- Reading of members takes them one by one. -/
theorem members_eq (draft : Draft) (first : Bool) (c : Cursor) : draft.members first c =
    (if first then c.firstKey else c.nextKey) >>= fun
      | none => pure (draft, c.closingBrace)
      | some key => (draft.member key >>= fun x => pure (x.1.1, x.2)) >>= fun x =>
        x.1.members false x.2 := by
  rw [Draft.members]
  cases first <;>
  · simp only [bind_assoc, pure_bind]
    rfl

/-- **The members of an object are read as they fill the fields**, one after another. -/
theorem members_of_spells {first : Bool} {members : List (String × Json)}
    (h : Json.SpellsMembers first text members rest) (draft : Draft) (offset : Nat) :
    Answers (draft.members first ⟨offset, text⟩) (members.foldlM fill draft) rest := by
  induction members generalizing first text draft offset with
  | nil =>
    cases h with
    | close h =>
      have hnone := Cursor.key_of_close first h offset
      obtain ⟨offset₁, h₁⟩ := Cursor.skipBlanks_of_blanks_cons h (by decide) offset
      rw [members_eq, hnone]
      exact ⟨offset₁ + 1, by simp only [bind, Except.bind, Cursor.closingBrace, h₁]; rfl⟩
  | cons member members ih =>
    cases h with
    | member hbefore hkey hcolon hblanks hvalue hmore =>
      obtain ⟨offset₁, h₁⟩ := Cursor.key_of_separator hbefore hkey offset
      have hmember := member_of_spells hkey hcolon hblanks hvalue hmore.ends draft offset₁
      rw [members_eq, h₁, List.foldlM_cons]
      exact hmember.bind fun filled offset₂ => ih hmore filled offset₂

/-! ## Elements -/

/-- **The elements of a list are read as they fill the fields in their order.** -/
theorem elements_of_spells (fields : List Field) (count : Nat) {elements : List Json}
    (h : Json.SpellsElements (count == 0) text elements rest) (hcount : fields ≠ [] ∨ count ≠ 0)
    (draft : Draft) (offset : Nat) :
    Answers (Draft.elements fields count draft ⟨offset, text⟩)
      (draft.fillInOrder fields elements) rest := by
  -- by the fields, not by the elements: reading stops where the fields do
  induction fields generalizing count text elements draft offset with
  | nil =>
    have hlater : (count == 0) = false := by simpa using hcount
    rw [hlater] at h
    cases h with
    | close h =>
      obtain ⟨offset₁, h₁⟩ := Cursor.skipBlanks_of_blanks_cons h (by decide) offset
      refine ⟨offset₁ + 1, ?_⟩
      simp only [Draft.elements, Cursor.closingBracket, h₁]
      rfl
    | element hbefore =>
      cases hbefore with
      | later hcomma =>
        obtain ⟨refusal, hrefused⟩ := Cursor.closingBracket_of_comma hcomma offset
        exact ⟨refusal, by simp only [Draft.elements, hrefused]; rfl⟩
  | cons field fields ih =>
    cases h with
    | close h =>
      obtain ⟨refusal, hrefused⟩ := Cursor.element_of_close h count offset
      exact ⟨refusal, by simp only [Draft.elements, hrefused]; rfl⟩
    | element hbefore hvalue hmore =>
      obtain ⟨offset₁, h₁⟩ := Cursor.element_of_separator hbefore hvalue offset
      have hends := hmore.ends
      have hlater : (count + 1 == 0) = false := by simp
      simp only [Draft.elements, h₁, fillInOrder]
      rw [← hlater] at hmore
      exact (Cursor.fieldValue_of_spells field .none hvalue hends offset₁).bind
        fun value offset₂ => ih _ hmore (.inr (Nat.succ_ne_zero count)) _ offset₂

end Draft

/-! ## Whole texts -/

namespace Settings

variable {text rest : List Char}

/-- **Settings are read as their data says them.** -/
theorem readAt_of_spells {v : Json} {before : List Char} (hblanks : Blanks before text)
    (h : v.Spells text rest) (offset : Nat) :
    Answers (readAt ⟨offset, before⟩) v.settings? rest := by
  obtain ⟨offset₁, h₁⟩ := Cursor.skipBlanks_of_spells hblanks h offset
  simp only [readAt, h₁]
  cases h with
  | object h => exact (Draft.members_of_spells h .empty (offset₁ + 1)).map Draft.settings
  | array h =>
    exact (Draft.elements_of_spells Field.all 0 h (.inl (List.cons_ne_nil _ _)) .empty
      (offset₁ + 1)).map Draft.settings
  | number h =>
    obtain ⟨d, more, rfl, hd⟩ := h.exists_cons
    split
    next hp => cases hp
    next hp =>
      cases hp
      exact absurd hd (by decide)
    next hp =>
      cases hp
      exact absurd hd (by decide)
    · exact answers_none (Cursor.wrongType_ne_ok _ _)
  | string h =>
    obtain ⟨h⟩ := h
    exact answers_none (Cursor.wrongType_ne_ok _ _)
  | _ => exact answers_none (Cursor.wrongType_ne_ok _ _)

/-- **Reading agrees with the data that a text spells**: it gives the settings that the data says,
and fails where the data says none. -/
theorem read_eq_ok_iff_of_text {v : Json} {text : String} (h : v.Text text.toList) {s : Settings} :
    read text = .ok s ↔ v.settings? = some s := by
  obtain ⟨value, rest, hbefore, hvalue, hbehind⟩ := h
  have hread := readAt_of_spells hbefore hvalue 0
  have hstart : Cursor.start text.toList = ⟨0, text.toList⟩ := rfl
  rw [read_eq_ok_iff_readAll, readAll, hstart]
  cases hsettings : v.settings? with
  | none =>
    rw [hsettings] at hread
    obtain ⟨refusal, hread⟩ := hread
    rw [hread]
    simp [bind, Except.bind]
  | some found =>
    rw [hsettings] at hread
    obtain ⟨offset, hread⟩ := hread
    obtain ⟨offset', hend⟩ := Cursor.skipBlanks_of_blanks_nil hbehind offset
    rw [hread]
    simp [bind, Except.bind, hend, pure, Except.pure]

end Settings

end ScriptLexer
