import ScriptLexer.Proofs.SettingsReading

/-!
# Whatever is read as settings is data

A reading that is not refused went along the grammar: the characters that it passed spell data, and
between them it passed only blanks and what stands between the parts of data. With the readings of
data this tells exactly which texts give which settings.

* `Cursor.spells_of_fieldValue`: what is read as the value of a field.
* `Draft.spellsMembers_of_members`, `Draft.spellsElements_of_elements`: objects and lists.
* `Settings.text_of_read`: a text that gives settings is data.
* `Settings.read_eq_ok_iff`: the settings of a text.
-/

namespace ScriptLexer

/-! ## Blanks and words -/

theorem Blanks.trans {text middle rest : List Char} (h : Blanks text middle)
    (h' : Blanks middle rest) : Blanks text rest := by
  induction h with
  | none => exact h'
  | more hd h ih => exact .more hd (ih h')

theorem Separator.trans {first : Bool} {text middle rest : List Char}
    (h : Separator first text middle) (h' : Blanks middle rest) : Separator first text rest := by
  cases h with
  | first h => exact .first (h.trans h')
  | later hcomma h => exact .later hcomma (h.trans h')

theorem Blanks.skipBlanks (c : Cursor) : Blanks c.pending c.skipBlanks.pending := by
  obtain ⟨offset, text⟩ := c
  induction text generalizing offset with
  | nil => exact .none
  | cons d text ih =>
    by_cases hd : isDataBlank d = true
    · rw [Cursor.skipBlanks_cons hd]
      exact .more hd (ih (offset + 1))
    · have hskip : (⟨offset, d :: text⟩ : Cursor).skipBlanks.pending = d :: text := by
        simp [Cursor.skipBlanks, Cursor.skipWhile, hd]
      rw [hskip]
      exact .none

namespace Cursor

variable {c c' : Cursor}

theorem pending_of_keyword {word : List Char} (h : keyword word c = .ok c') :
    c.pending = word ++ c'.pending := by
  induction word generalizing c with
  | nil =>
    cases h
    rfl
  | cons w word ih =>
    unfold keyword at h
    split at h
    · cases h
    next d rest hp =>
      split at h
      next hw =>
        have hrest := ih h
        rw [hp, hw, List.cons_append, ← hrest]
        rfl
      · cases h

/-- A word behind its first letter. -/
theorem eq_of_keyword {word rest : List Char} (h : keyword word (c.past 1 rest) = .ok c') :
    rest = word ++ c'.pending :=
  pending_of_keyword h

theorem blanks_of_colon (h : c.colon = .ok c') : Blanks c.pending (':' :: c'.pending) := by
  have hskip := Blanks.skipBlanks c
  unfold colon at h
  dsimp only at h
  split at h
  · cases h
  next hp =>
    cases h
    rw [hp] at hskip
    exact hskip
  · cases h

/-! ## Values -/

theorem spells_of_boolean {b : Bool} (h : c.boolean = .ok (b, c')) :
    Json.Spells c.pending (.boolean b) c'.pending := by
  unfold boolean at h
  split at h
  · cases h
  next rest hp =>
    obtain ⟨c₁, hword, h⟩ := exists_of_bind h
    cases h
    rw [hp, eq_of_keyword hword]
    exact .isTrue
  next rest hp =>
    obtain ⟨c₁, hword, h⟩ := exists_of_bind h
    cases h
    rw [hp, eq_of_keyword hword]
    exact .isFalse
  · exact absurd h (wrongType_ne_ok _ _ _)

theorem spells_of_size {n : UInt64} (h : c.size = .ok (n, c')) :
    ∃ v, Json.Spells c.pending v c'.pending := by
  unfold size at h
  split at h
  · cases h
  next d rest hp =>
    split at h
    · obtain ⟨⟨value, c₁⟩, hread, h⟩ := exists_of_bind h
      obtain ⟨w, hw, -⟩ := Numeral.Written.Spells.of_read hread
      dsimp only at h
      split at h
      · cases h
        exact ⟨.number w, .number hw⟩
      · cases h
      · cases h
    · exact absurd h (wrongType_ne_ok _ _ _)

theorem spellsMembers_of_formatTail {format format' : TokenFormat} {text key : List Char}
    {name : String} (hblanks : Blanks text key) (hkey : SpellsString key name c.pending)
    (h : c.formatTail format = .ok (format', c')) :
    Json.SpellsMembers true text [(name, .null)] c'.pending := by
  unfold formatTail at h
  obtain ⟨c₁, hcolon, h⟩ := exists_of_bind h
  have hvalue := Blanks.skipBlanks c₁
  dsimp only at h
  split at h
  · cases h
  next rest hp =>
    obtain ⟨c₂, hword, h⟩ := exists_of_bind h
    have hclose := Blanks.skipBlanks c₂
    split at h
    · cases h
    next hbrace =>
      cases h
      rw [hp, eq_of_keyword hword] at hvalue
      rw [hbrace] at hclose
      exact .member (.first hblanks) hkey (blanks_of_colon hcolon) hvalue .null (.close hclose)
    · cases h
  · obtain ⟨c₂, hwrong, -⟩ := exists_of_bind h
    exact absurd hwrong (wrongType_ne_ok _ _ _)

theorem spells_of_format {format : TokenFormat} (h : c.format = .ok (format, c')) :
    ∃ v, Json.Spells c.pending v c'.pending := by
  unfold Cursor.format at h
  split at h
  · cases h
  next rest hp =>
    obtain ⟨⟨name, c₁⟩, hname, h⟩ := exists_of_bind h
    obtain ⟨found, -, h⟩ := exists_of_bind h
    cases h
    rw [hp]
    exact ⟨.string name, .string (SpellsString.of_string hname)⟩
  next rest hp =>
    rw [formatMember_eq] at h
    have hbefore := Blanks.skipBlanks (c.past 1 rest)
    split at h
    · cases h
    · cases h
    next key hquote =>
      obtain ⟨⟨name, c₁⟩, hname, h⟩ := exists_of_bind h
      obtain ⟨found, -, h⟩ := exists_of_bind h
      have hkey := SpellsString.of_string hname
      rw [hquote] at hbefore
      rw [hp]
      exact ⟨.object [(name, .null)], .object (spellsMembers_of_formatTail hbefore hkey h)⟩
    · cases h
  · cases h

/-! ## The value of a field -/

theorem spells_of_orNull {α : Type} {value : Cursor → Except Refusal (α × Cursor)}
    (hvalue : ∀ {c c' : Cursor} {a : α}, value c = .ok (a, c') →
      ∃ v, Json.Spells c.pending v c'.pending)
    {a : Option α} (h : orNull value c = .ok (a, c')) :
    ∃ text v, Blanks c.pending text ∧ Json.Spells text v c'.pending := by
  have hblanks := Blanks.skipBlanks c
  unfold orNull at h
  dsimp only at h
  split at h
  next rest hp =>
    obtain ⟨c₁, hword, h⟩ := exists_of_bind h
    cases h
    rw [hp, eq_of_keyword hword] at hblanks
    exact ⟨_, .null, hblanks, .null⟩
  · obtain ⟨⟨b, c₁⟩, hread, h⟩ := exists_of_bind h
    cases h
    obtain ⟨v, hv⟩ := hvalue hread
    exact ⟨_, v, hblanks, hv⟩

/-- **What is read as the value of a field is data.** -/
theorem spells_of_fieldValue {field : Field} {x : { v : FieldValue // v.field = field }}
    (h : c.fieldValue field = .ok (x, c')) :
    ∃ text v, Blanks c.pending text ∧ Json.Spells text v c'.pending := by
  cases field with
  | tokenFormat =>
    obtain ⟨_, hread, h⟩ := exists_of_bind h
    cases h
    exact spells_of_orNull spells_of_format hread
  | color =>
    obtain ⟨_, hread, h⟩ := exists_of_bind h
    cases h
    exact spells_of_orNull (fun h => ⟨_, spells_of_boolean h⟩) hread
  | history =>
    obtain ⟨_, hread, h⟩ := exists_of_bind h
    cases h
    exact spells_of_orNull (fun h => ⟨_, spells_of_boolean h⟩) hread
  | maxHistorySize =>
    obtain ⟨_, hread, h⟩ := exists_of_bind h
    cases h
    exact spells_of_orNull spells_of_size hread

/-! ## What stands between values -/

theorem separator_of_key {first : Bool}
    (h : (if first then c.firstKey else c.nextKey) = .ok (some c')) :
    Separator first c.pending c'.pending := by
  have hblanks := Blanks.skipBlanks c
  cases first with
  | true =>
    rw [if_pos rfl] at h
    unfold firstKey at h
    dsimp only at h
    split at h
    · cases h
    · cases h
    · cases h
      exact .first hblanks
  | false =>
    rw [if_neg (by decide)] at h
    unfold nextKey at h
    dsimp only at h
    split at h
    · cases h
    · cases h
    next rest hp =>
      have hafter := Blanks.skipBlanks (c.skipBlanks.past 1 rest)
      rw [hp] at hblanks
      split at h
      · cases h
      · cases h
      · cases h
        exact .later hblanks hafter
    · cases h

theorem blanks_of_key {first : Bool}
    (h : (if first then c.firstKey else c.nextKey) = .ok none) :
    Blanks c.pending ('\x7d' :: c.closingBrace.pending) := by
  have hblanks := Blanks.skipBlanks c
  have hbrace : ∃ rest, c.skipBlanks.pending = '\x7d' :: rest := by
    cases first with
    | true =>
      rw [if_pos rfl] at h
      unfold firstKey at h
      dsimp only at h
      split at h
      · cases h
      next hp => exact ⟨_, hp⟩
      · cases h
    | false =>
      rw [if_neg (by decide)] at h
      unfold nextKey at h
      dsimp only at h
      split at h
      · cases h
      next hp => exact ⟨_, hp⟩
      · split at h <;> cases h
      · cases h
  obtain ⟨rest, hp⟩ := hbrace
  rw [hp] at hblanks
  have hbehind : c.closingBrace.pending = rest := by
    simp only [closingBrace, past, hp, List.tail_cons]
  rw [hbehind]
  exact hblanks

theorem spellsString_of_key {name : String} (h : c.key = .ok (name, c')) :
    SpellsString c.pending name c'.pending := by
  unfold key at h
  split at h
  next body hp =>
    rw [hp]
    exact SpellsString.of_string h
  · cases h

theorem separator_of_element {count : Nat} (h : c.element count = .ok c') :
    Separator (count == 0) c.pending c'.pending := by
  have hblanks := Blanks.skipBlanks c
  unfold element at h
  dsimp only at h
  split at h
  · cases h
  · cases h
  next d rest hnot hp =>
    by_cases hcount : count = 0
    · rw [if_pos hcount] at h
      cases h
      rw [hcount]
      exact .first hblanks
    · have hlater : (count == 0) = false := by simpa using hcount
      rw [if_neg hcount] at h
      split at h
      next hcomma =>
        have hafter := Blanks.skipBlanks (c.skipBlanks.past 1 rest)
        rw [hp, hcomma] at hblanks
        split at h
        · cases h
        · cases h
        · cases h
          rw [hlater]
          exact .later hblanks hafter
      · cases h

theorem blanks_of_closingBracket (h : c.closingBracket = .ok c') :
    Blanks c.pending (']' :: c'.pending) := by
  have hblanks := Blanks.skipBlanks c
  unfold closingBracket at h
  dsimp only at h
  split at h
  · cases h
  next rest hp =>
    cases h
    rw [hp] at hblanks
    exact hblanks
  · split at h <;> cases h
  · cases h

end Cursor

namespace Draft

variable {c c' : Cursor}

/-! ## Members and elements -/

theorem spellsMembers_of_member {draft : Draft} {first : Bool} {text : List Char}
    {filled : { d : Draft // d.missing < draft.missing }} {members : List (String × Json)}
    {rest : List Char} (hbefore : Separator first text c.pending)
    (h : draft.member c = .ok (filled, c'))
    (hmore : Json.SpellsMembers false c'.pending members rest) :
    ∃ member, Json.SpellsMembers first text (member :: members) rest := by
  obtain ⟨name, c₁, c₂, field, x, hkey, -, -, hcolon, hvalue, -⟩ := member_eq_ok_iff.1 h
  obtain ⟨value, v, hblanks, hv⟩ := Cursor.spells_of_fieldValue hvalue
  exact ⟨(name, v), .member hbefore (Cursor.spellsString_of_key hkey)
    (Cursor.blanks_of_colon hcolon) hblanks hv hmore⟩

/-- **What is read as members is members**, by induction on the fields that are missing. -/
theorem spellsMembers_of_members {draft filled : Draft} {first : Bool}
    (h : draft.members first c = .ok (filled, c')) :
    ∃ members, Json.SpellsMembers first c.pending members c'.pending := by
  induction hmissing : draft.missing using Nat.strongRecOn generalizing draft first c with
  | ind n ih =>
    rw [members_eq] at h
    obtain ⟨key?, hkey, h⟩ := exists_of_bind h
    cases key? with
    | none =>
      cases h
      exact ⟨[], .close (Cursor.blanks_of_key hkey)⟩
    | some key =>
      obtain ⟨⟨next, c₁⟩, hmember, h⟩ := exists_of_bind h
      obtain ⟨⟨⟨d, hlt⟩, c₂⟩, hread, hnext⟩ := exists_of_bind hmember
      cases hnext
      -- a member fills a field, so fewer are missing behind it
      obtain ⟨members, hmore⟩ := ih d.missing (hmissing ▸ hlt) h rfl
      obtain ⟨member, hall⟩ :=
        spellsMembers_of_member (Cursor.separator_of_key hkey) hread hmore
      exact ⟨member :: members, hall⟩

theorem spellsElements_of_elements {fields : List Field} {count : Nat} {draft filled : Draft}
    (h : Draft.elements fields count draft c = .ok (filled, c')) :
    ∃ elements, Json.SpellsElements (count == 0) c.pending elements c'.pending := by
  induction fields generalizing count draft c with
  | nil =>
    obtain ⟨c₁, hclose, h⟩ := exists_of_bind h
    cases h
    exact ⟨[], .close (Cursor.blanks_of_closingBracket hclose)⟩
  | cons field fields ih =>
    obtain ⟨c₁, helement, h⟩ := exists_of_bind h
    obtain ⟨⟨x, c₂⟩, hvalue, h⟩ := exists_of_bind h
    have hlater : (count + 1 == 0) = false := by simp
    obtain ⟨elements, hmore⟩ := ih h
    obtain ⟨value, v, hblanks, hv⟩ := Cursor.spells_of_fieldValue hvalue
    rw [hlater] at hmore
    -- the blanks in front of the value are skipped twice: by the separator and by the value
    exact ⟨v :: elements,
      .element ((Cursor.separator_of_element helement).trans hblanks) hv hmore⟩

end Draft

/-! ## Whole texts -/

namespace Settings

/-- **A text that gives settings is data**, with nothing but blanks around it. -/
theorem text_of_read {text : String} {s : Settings} (h : read text = .ok s) :
    ∃ v : Json, v.Text text.toList := by
  have hall := read_eq_ok_iff_readAll.1 h
  unfold readAll at hall
  obtain ⟨⟨settings, c⟩, hread, hall⟩ := exists_of_bind hall
  have hbefore := Blanks.skipBlanks (.start text.toList)
  have hbehind := Blanks.skipBlanks c
  have hend : c.skipBlanks.pending = [] := by
    dsimp only at hall
    split at hall
    next hempty => exact List.isEmpty_iff.1 hempty
    · cases hall
  rw [hend] at hbehind
  unfold readAt at hread
  dsimp only at hread
  split at hread
  · cases hread
  next rest hp =>
    obtain ⟨⟨draft, c₁⟩, hmembers, hread⟩ := exists_of_bind hread
    cases hread
    obtain ⟨members, hspells⟩ := Draft.spellsMembers_of_members hmembers
    rw [hp] at hbefore
    exact ⟨.object members, _, _, hbefore, .object hspells, hbehind⟩
  next rest hp =>
    obtain ⟨⟨draft, c₁⟩, helements, hread⟩ := exists_of_bind hread
    cases hread
    obtain ⟨elements, hspells⟩ := Draft.spellsElements_of_elements helements
    rw [hp] at hbefore
    exact ⟨.array elements, _, _, hbefore, .array hspells, hbehind⟩
  · exact absurd hread (Cursor.wrongType_ne_ok _ _ _)

/-- **Reading gives settings exactly for the texts of data that says them.** -/
theorem read_eq_ok_iff {text : String} {s : Settings} :
    read text = .ok s ↔ ∃ v : Json, v.Text text.toList ∧ v.settings? = some s := by
  constructor
  · intro h
    obtain ⟨v, hv⟩ := text_of_read h
    exact ⟨v, hv, (read_eq_ok_iff_of_text hv).1 h⟩
  · rintro ⟨v, hv, hs⟩
    exact (read_eq_ok_iff_of_text hv).2 hs

end Settings

end ScriptLexer
