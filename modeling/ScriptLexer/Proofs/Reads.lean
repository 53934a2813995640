import ScriptLexer.Proofs.ByteSearch
import ScriptLexer.Scan.Lexeme

/-!
# What it is to be the first lexeme

`Lexeme.Reads l rest` says that `l`, with `rest` behind it, is the lexeme that a scan takes: what
its characters are, and what may not follow them. Everything about `Lexeme.first` follows from
`first_eq_iff`, so no other proof opens it.

* `Lexeme.Reads`: the lexemes, one case for each sort.
* `Lexeme.first_reads`: the first lexeme of a text reads in front of what follows it.
* `Lexeme.first_of_reads`: there is no other lexeme that does.
* `Lexeme.first_eq_iff`: the two together.
-/

namespace ScriptLexer

/-- A text that does not go on with a character of a class. -/
def Text.Stops (p : Char → Bool) (rest : List Char) : Prop :=
  ∀ c, rest.head? = some c → p c = false

/-- A text that begins with a point and a digit. -/
def Text.OpensFraction (rest : List Char) : Prop :=
  ∃ d more, rest = '.' :: d :: more ∧ d.isDigit = true

/-- The characters that make a longer lexeme of a mark: an equals sign behind the first half of a
pair, and the second slash of a comment. -/
def Punctuation.extends : Punctuation → Char → Bool
  | .bang | .equal | .greater | .less => (· == '=')
  | .slash => (· == '/')
  | _ => fun _ => false

/-- A character that begins no lexeme but its own rejection. -/
structure Stray (c : Char) : Prop where
  mark : ∀ m : Punctuation, m.text.toList.head? ≠ some c
  newline : c ≠ '\n'
  blank : isLineBlank c = false
  quote : c ≠ '"'
  digit : c.isDigit = false
  word : isWordStart c = false

/-- `Reads l rest`: a scan that stands in front of `l.text ++ rest` takes `l`. -/
inductive Lexeme.Reads : Lexeme → List Char → Prop
  | mark {m rest} (h : Text.Stops m.extends rest) : Reads (.ofMark m.text.toList m) rest
  | comment {body rest} (hb : '\n' ∉ body) (h : Text.Stops (· ≠ '\n') rest) :
      Reads ⟨'/' :: '/' :: body, .skipped⟩ rest
  | blank {c rest} (hc : c = '\n' ∨ isLineBlank c = true) : Reads ⟨[c], .skipped⟩ rest
  | string {body rest} (hb : '"' ∉ body) :
      Reads ⟨'"' :: body ++ ['"'], .token (.string (.ofList body))⟩ rest
  | unterminated {body} (hb : '"' ∉ body) :
      Reads ⟨'"' :: body, .rejected .unterminatedString⟩ []
  | whole {c ds rest} (hd : ∀ d ∈ c :: ds, d.isDigit = true) (h : Text.Stops Char.isDigit rest)
      (hf : ¬ Text.OpensFraction rest) :
      Reads ⟨c :: ds, .token (.number (numberValue (c :: ds) []))⟩ rest
  | fraction {c ds d es rest} (hd : ∀ x ∈ c :: ds, x.isDigit = true)
      (he : ∀ x ∈ d :: es, x.isDigit = true) (h : Text.Stops Char.isDigit rest) :
      Reads ⟨c :: ds ++ '.' :: d :: es, .token (.number (numberValue (c :: ds) (d :: es)))⟩ rest
  | word {c cs rest} (hc : isWordStart c = true) (hw : ∀ x ∈ cs, isWordPart x = true)
      (h : Text.Stops isWordPart rest) :
      Reads ⟨c :: cs, .token (.plain (.ofWord (.ofList (c :: cs))))⟩ rest
  | unexpected {c rest} (hc : Stray c) : Reads ⟨[c], .rejected .unexpectedCharacter⟩ rest

namespace Text

@[simp] theorem stops_nil (p : Char → Bool) : Stops p [] := by
  intro c h; cases h

@[simp] theorem stops_cons (p : Char → Bool) (c : Char) (cs : List Char) :
    Stops p (c :: cs) ↔ p c = false := by
  simp [Stops]

/-- A character outside a class, put behind a text that stops it, lets it stop there. -/
theorem Stops.append {p : Char → Bool} {rest : List Char} (h : Stops p rest) {c : Char}
    (hc : p c = false) (more : List Char) : Stops p (rest ++ c :: more) := by
  cases rest with
  | nil => exact (stops_cons p c more).2 hc
  | cons x xs => exact (stops_cons p x _).2 ((stops_cons p x xs).1 h)

/-- Whether a text stops a class depends on its first character alone. -/
theorem Stops.of_head {p : Char → Bool} {rest rest' : List Char} (h : Stops p rest)
    (hhead : rest'.head? = rest.head?) : Stops p rest' := by
  intro c hc
  exact h c (hhead ▸ hc)

/-- The first character of a text that stops a class is none of it. -/
theorem Stops.any_head? {p : Char → Bool} {rest : List Char} (h : Stops p rest) :
    rest.head?.any p = false := by
  cases hc : rest.head? with
  | none => rfl
  | some c => exact h c hc

theorem OpensFraction.append {rest : List Char} (h : OpensFraction rest) (more : List Char) :
    OpensFraction (rest ++ more) := by
  obtain ⟨d, ds, rfl, hd⟩ := h
  exact ⟨d, ds ++ more, rfl, hd⟩

theorem opensFraction_cons_cons {c d : Char} {cs : List Char} :
    OpensFraction (c :: d :: cs) ↔ c = '.' ∧ d.isDigit = true := by
  constructor
  · rintro ⟨_, _, heq, hd⟩
    cases heq
    exact ⟨rfl, hd⟩
  · rintro ⟨rfl, hd⟩
    exact ⟨d, cs, rfl, hd⟩

instance (rest : List Char) : Decidable (OpensFraction rest) :=
  match rest with
  | [] => isFalse (by rintro ⟨_, _, h, -⟩; cases h)
  | [_] => isFalse (by rintro ⟨_, _, h, -⟩; cases h)
  | _ :: _ :: _ => decidable_of_iff' _ opensFraction_cons_cons

/-- A character that is no point and no digit, put behind a text, does not open a fraction in it. -/
theorem not_opensFraction_append {rest : List Char} (hf : ¬ OpensFraction rest) {c : Char}
    (hp : c ≠ '.') (hd : c.isDigit = false) (more : List Char) :
    ¬ OpensFraction (rest ++ c :: more) := by
  rintro ⟨d, ds, heq, hdigit⟩
  -- `c` would be the point or the digit, or both would lie in front of it
  rcases rest with _ | ⟨x, _ | ⟨y, ys⟩⟩ <;>
    simp only [List.nil_append, List.cons_append, List.cons.injEq] at heq
  · exact hp heq.1
  · rw [heq.2.1, hdigit] at hd
    cases hd
  · obtain ⟨rfl, rfl, -⟩ := heq
    exact hf ⟨y, ys, rfl, hdigit⟩

theorem stops_dropWhile (p : Char → Bool) (cs : List Char) : Stops p (cs.dropWhile p) := by
  intro c h
  have := List.head?_dropWhile_not p cs
  rw [h] at this
  simpa using this

/-- A run of a class is all that `takeWhile` takes in front of a text that stops it. -/
theorem takeWhile_run {p : Char → Bool} {cs rest : List Char} (hc : ∀ c ∈ cs, p c = true)
    (h : Stops p rest) : (cs ++ rest).takeWhile p = cs := by
  rw [List.takeWhile_append_of_pos hc]
  cases rest with
  | nil => simp
  | cons c rest => simp [(stops_cons p c rest).1 h]

theorem dropWhile_run {p : Char → Bool} {cs rest : List Char} (hc : ∀ c ∈ cs, p c = true)
    (h : Stops p rest) : (cs ++ rest).dropWhile p = rest := by
  rw [List.dropWhile_append_of_pos hc]
  cases rest with
  | nil => simp
  | cons c rest => simp [(stops_cons p c rest).1 h]

theorem forall_ne_of_notMem {x : Char} {cs : List Char} (h : x ∉ cs) :
    ∀ c ∈ cs, decide (c ≠ x) = true := by
  intro c hc
  simpa using ne_of_mem_of_not_mem hc h

theorem forall_mem_takeWhile (p : Char → Bool) (cs : List Char) :
    ∀ c ∈ cs.takeWhile p, p c = true := by
  exact List.all_eq_true.1 List.all_takeWhile

theorem notMem_takeWhile_ne (x : Char) (cs : List Char) : x ∉ cs.takeWhile (· ≠ x) := by
  intro h
  simpa using forall_mem_takeWhile _ _ _ h

/-- A run of a class goes on with what `takeWhile` takes of the text behind it. -/
theorem forall_mem_append_takeWhile {p : Char → Bool} {cs : List Char} (hc : ∀ c ∈ cs, p c = true)
    (tail : List Char) : ∀ c ∈ cs ++ tail.takeWhile p, p c = true := by
  intro c h
  rcases List.mem_append.1 h with h | h
  · exact hc c h
  · exact forall_mem_takeWhile p tail c h

end Text

/-! ## Characters and the sorts they begin -/

theorem isWordPart_of_isDigit {c : Char} (h : c.isDigit = true) : isWordPart c = true := by
  simp [isWordPart, Char.isAlphanum, h]

theorem isWordPart_of_isWordStart {c : Char} (h : isWordStart c = true) : isWordPart c = true := by
  simp only [isWordStart, isWordPart, Char.isAlphanum, Bool.or_eq_true] at h ⊢
  exact h.imp_right .inl

/-- The ranges of the letters and the underscore. -/
theorem isWordStart_eq (c : Char) : isWordStart c =
    (c == '_' || (decide (c.val ≥ 'A'.val ∧ c.val ≤ 'Z'.val) ||
      decide (c.val ≥ 'a'.val) && decide (c.val ≤ 'z'.val))) := rfl

theorem not_isDigit_of_isWordStart {c : Char} (h : isWordStart c = true) : c.isDigit = false := by
  rw [Bool.eq_false_iff]
  intro hd
  simp only [isWordStart_eq, Char.isDigit, Bool.or_eq_true, Bool.and_eq_true, ge_iff_le,
    decide_eq_true_eq, beq_iff_eq, UInt32.le_iff_toNat_le] at h hd
  rcases h with rfl | h
  · exact absurd hd (by decide)
  · have h9 : '9'.val.toNat = 57 := rfl
    have hA : 'A'.val.toNat = 65 := rfl
    have ha : 'a'.val.toNat = 97 := rfl
    omega

theorem blank_cases {c : Char} (h : c = '\n' ∨ isLineBlank c = true) :
    c = '\n' ∨ c = ' ' ∨ c = '\t' ∨ c = '\r' := by
  simpa [isLineBlank, or_assoc] using h

/-- A character of a word begins no comment, is no blank and no quote. -/
theorem not_special_of_isWordPart {c : Char} (h : isWordPart c = true) :
    c ≠ '/' ∧ ¬ (c = '\n' ∨ isLineBlank c = true) ∧ c ≠ '"' := by
  refine ⟨?_, ?_, ?_⟩
  · rintro rfl
    cases h
  · intro hb
    rcases blank_cases hb with rfl | rfl | rfl | rfl <;> cases h
  · rintro rfl
    cases h

namespace Punctuation

theorem text_of_single? {c : Char} {m : Punctuation} (h : single? c = some m) :
    m.text.toList = [c] ∧ ∀ x, m.extends x = false := by
  unfold single? at h
  split at h <;> cases h <;> exact ⟨rfl, fun _ => rfl⟩

theorem text_of_pair? {c : Char} {alone joined : Punctuation} (h : pair? c = some (alone, joined)) :
    alone.text.toList = [c] ∧ joined.text.toList = [c, '='] ∧ (∀ x, alone.extends x = (x == '=')) ∧
      ∀ x, joined.extends x = false := by
  unfold pair? at h
  split at h <;> cases h <;> exact ⟨rfl, rfl, fun _ => rfl, fun _ => rfl⟩

/-- Every mark is single, the second or the first half of a pair, or the slash. -/
theorem sorts (m : Punctuation) :
    (∃ c, single? c = some m) ∨ (∃ c a, pair? c = some (a, m) ∧ single? c = none) ∨
      (∃ c j, pair? c = some (m, j) ∧ single? c = none) ∨ m = .slash := by
  cases m with
  | leftParen => exact .inl ⟨'(', rfl⟩
  | rightParen => exact .inl ⟨')', rfl⟩
  | leftBrace => exact .inl ⟨'\x7b', rfl⟩
  | rightBrace => exact .inl ⟨'\x7d', rfl⟩
  | comma => exact .inl ⟨',', rfl⟩
  | dot => exact .inl ⟨'.', rfl⟩
  | minus => exact .inl ⟨'-', rfl⟩
  | plus => exact .inl ⟨'+', rfl⟩
  | semicolon => exact .inl ⟨';', rfl⟩
  | star => exact .inl ⟨'*', rfl⟩
  | bangEqual => exact .inr (.inl ⟨'!', _, rfl, rfl⟩)
  | equalEqual => exact .inr (.inl ⟨'=', _, rfl, rfl⟩)
  | greaterEqual => exact .inr (.inl ⟨'>', _, rfl, rfl⟩)
  | lessEqual => exact .inr (.inl ⟨'<', _, rfl, rfl⟩)
  | bang => exact .inr (.inr (.inl ⟨'!', _, rfl, rfl⟩))
  | equal => exact .inr (.inr (.inl ⟨'=', _, rfl, rfl⟩))
  | greater => exact .inr (.inr (.inl ⟨'>', _, rfl, rfl⟩))
  | less => exact .inr (.inr (.inl ⟨'<', _, rfl, rfl⟩))
  | slash => exact .inr (.inr (.inr rfl))

/-- A character of a word, a quote or a blank is no part of a mark. -/
theorem none_of_isWordPart {c : Char} (h : isWordPart c = true) :
    single? c = none ∧ pair? c = none := by
  constructor
  · unfold single?
    split <;> first | rfl | exact absurd h (by decide)
  · unfold pair?
    split <;> first | rfl | exact absurd h (by decide)

theorem none_of_blank {c : Char} (h : c = '\n' ∨ isLineBlank c = true) :
    single? c = none ∧ pair? c = none := by
  rcases blank_cases h with rfl | rfl | rfl | rfl <;> exact ⟨rfl, rfl⟩

end Punctuation

/-- A character that none of the branches of a scan takes is stray. -/
theorem stray_of_branches {c : Char} (h1 : Punctuation.single? c = none)
    (h2 : Punctuation.pair? c = none) (hs : c ≠ '/') (hb : ¬ (c = '\n' ∨ isLineBlank c = true))
    (hq : c ≠ '"') (hd : ¬ c.isDigit = true) (hw : ¬ isWordStart c = true) : Stray c := by
  refine ⟨?_, fun h => hb (.inl h), ?_, hq, by simpa using hd, by simpa using hw⟩
  · intro m hm
    rcases m.sorts with ⟨x, hx⟩ | ⟨x, a, hx, -⟩ | ⟨x, j, hx, -⟩ | rfl
    · rw [(Punctuation.text_of_single? hx).1] at hm
      cases hm
      rw [hx] at h1; cases h1
    · rw [(Punctuation.text_of_pair? hx).2.1] at hm
      cases hm
      rw [hx] at h2; cases h2
    · rw [(Punctuation.text_of_pair? hx).1] at hm
      cases hm
      rw [hx] at h2; cases h2
    · exact hs (Option.some.inj hm).symm
  · simpa using fun h => hb (.inr h)

namespace Stray

variable {c : Char} (h : Stray c)
include h

theorem single?_eq_none : Punctuation.single? c = none := by
  cases hm : Punctuation.single? c with
  | none => rfl
  | some m => exact absurd (by rw [(Punctuation.text_of_single? hm).1]; rfl) (h.mark m)

theorem pair?_eq_none : Punctuation.pair? c = none := by
  cases hm : Punctuation.pair? c with
  | none => rfl
  | some m => exact absurd (by rw [(Punctuation.text_of_pair? hm).1]; rfl) (h.mark m.1)

theorem ne_slash : c ≠ '/' := by
  rintro rfl
  exact h.mark .slash rfl

end Stray

theorem stray_at : Stray '@' :=
  ⟨by intro m; cases m <;> decide, by decide, by decide, by decide, by decide, by decide⟩

namespace Lexeme

variable {c : Char} {rest : List Char}

/-! ## The branches of `first` -/

theorem first_single {m : Punctuation} (h : Punctuation.single? c = some m) :
    first c rest = (ofMark [c] m, rest) := by
  rw [first, h]

theorem first_pair {alone joined : Punctuation}
    (h : Punctuation.pair? c = some (alone, joined)) (hs : Punctuation.single? c = none) :
    first c rest = paired c alone joined rest := by
  rw [first, hs, h]

theorem first_slash : first '/' rest = slash rest := rfl

theorem first_quote : first '"' rest = quoted rest := rfl

theorem first_blank (h : c = '\n' ∨ isLineBlank c = true) :
    first c rest = (⟨[c], .skipped⟩, rest) := by
  obtain ⟨h1, h2⟩ := Punctuation.none_of_blank h
  have hs : c ≠ '/' := by rintro rfl; revert h; decide
  rw [first, h1, h2]
  simp only [if_neg hs, if_pos h]

theorem first_wordPart (h : isWordPart c = true) :
    first c rest = if c.isDigit then number c rest
      else if isWordStart c then word c rest
      else (⟨[c], .rejected .unexpectedCharacter⟩, rest) := by
  obtain ⟨h1, h2⟩ := Punctuation.none_of_isWordPart h
  obtain ⟨hs, hb, hq⟩ := not_special_of_isWordPart h
  rw [first, h1, h2]
  simp only [if_neg hs, if_neg hb, if_neg hq]

theorem first_digit (h : c.isDigit = true) : first c rest = number c rest := by
  rw [first_wordPart (isWordPart_of_isDigit h), if_pos h]

theorem first_wordStart (h : isWordStart c = true) : first c rest = word c rest := by
  rw [first_wordPart (isWordPart_of_isWordStart h), if_neg (by simp [not_isDigit_of_isWordStart h]),
    if_pos h]

theorem first_stray (h : Stray c) :
    first c rest = (⟨[c], .rejected .unexpectedCharacter⟩, rest) := by
  rw [first, h.single?_eq_none, h.pair?_eq_none]
  simp only [if_neg h.ne_slash, h.newline, h.blank, h.quote, h.digit, h.word, Bool.false_eq_true,
    or_self, if_false]

/-! ## The first lexeme reads -/

theorem paired_reads {alone joined : Punctuation}
    (h : Punctuation.pair? c = some (alone, joined)) :
    Reads (paired c alone joined rest).1 (paired c alone joined rest).2 := by
  obtain ⟨ha, hj, hea, hej⟩ := Punctuation.text_of_pair? h
  unfold paired
  split
  next rest =>
    rw [← hj]
    exact .mark fun x _ => hej x
  next hne =>
    rw [← ha]
    refine .mark fun x hx => ?_
    rw [hea, beq_eq_false_iff_ne]
    rintro rfl
    cases rest with
    | nil => cases hx
    | cons y ys => cases hx; exact hne ys rfl

theorem slash_reads : Reads (slash rest).1 (slash rest).2 := by
  unfold slash
  split
  next rest =>
    unfold comment
    rw [Text.splitBytes_lineEnd]
    exact .comment (Text.notMem_takeWhile_ne _ _) (Text.stops_dropWhile _ _)
  next hne =>
    refine .mark (m := .slash) fun x hx => ?_
    cases rest with
    | nil => cases hx
    | cons y ys =>
      cases hx
      rw [Punctuation.extends, beq_eq_false_iff_ne]
      rintro rfl
      exact hne ys rfl

theorem quoted_reads : Reads (quoted rest).1 (quoted rest).2 := by
  have hb := Text.notMem_takeWhile_ne '"' rest
  have hs := Text.stops_dropWhile (· ≠ '"') rest
  unfold quoted
  split
  next quote after hd =>
    -- what stopped the string is a quote
    rw [hd, Text.stops_cons] at hs
    obtain rfl : quote = '"' := by simpa using hs
    exact .string hb
  next => exact .unterminated hb

theorem number_reads (hc : c.isDigit = true) : Reads (number c rest).1 (number c rest).2 := by
  have hw : ∀ d ∈ c :: rest.takeWhile Char.isDigit, d.isDigit = true :=
    List.forall_mem_cons.2 ⟨hc, Text.forall_mem_takeWhile _ _⟩
  have hs := Text.stops_dropWhile Char.isDigit rest
  unfold number
  split
  next d more hd =>
    split
    next hdd =>
      exact .fraction hw (List.forall_mem_cons.2 ⟨hdd, Text.forall_mem_takeWhile _ _⟩)
        (Text.stops_dropWhile _ _)
    next hdd =>
      refine .whole hw (hd ▸ hs) ?_
      rintro ⟨d', more', he, hd'⟩
      cases he
      exact hdd hd'
  next hne =>
    refine .whole hw hs ?_
    rintro ⟨d, more, he, -⟩
    exact hne d more he

/-- **The first lexeme of a text reads in front of what follows it.** -/
theorem first_reads (c : Char) (rest : List Char) : Reads (first c rest).1 (first c rest).2 := by
  -- one split for each branch; what reaches the last one has failed every test before it
  unfold first
  split
  next m hm =>
    obtain ⟨ht, he⟩ := Punctuation.text_of_single? hm
    rw [← ht]
    exact .mark fun x _ => he x
  next h1 =>
    split
    next hp => exact paired_reads hp
    next h2 =>
      split
      · exact slash_reads
      next hs =>
        split
        next hb => exact .blank hb
        next hb =>
          split
          · exact quoted_reads
          next hq =>
            split
            next hd => exact number_reads hd
            next hd =>
              split
              next hw =>
                exact .word hw (Text.forall_mem_takeWhile _ _) (Text.stops_dropWhile _ _)
              next hw => exact .unexpected (stray_of_branches h1 h2 hs hb hq hd hw)

/-! ## No other lexeme does -/

theorem paired_alone {alone joined : Punctuation} (h : Text.Stops (· == '=') rest) :
    paired c alone joined rest = (ofMark [c] alone, rest) := by
  cases rest with
  | nil => rfl
  | cons x xs =>
    have hx : x ≠ '=' := by simpa using h
    rw [paired]
    rintro ys hy
    exact hx (List.cons.inj hy).1

theorem slash_alone (h : Text.Stops (· == '/') rest) : slash rest = (ofMark ['/'] .slash, rest) := by
  cases rest with
  | nil => rfl
  | cons x xs =>
    have hx : x ≠ '/' := by simpa using h
    rw [slash]
    rintro ys hy
    exact hx (List.cons.inj hy).1

theorem comment_run {body : List Char} (hb : '\n' ∉ body) (h : Text.Stops (· ≠ '\n') rest) :
    comment (body ++ rest) = (⟨'/' :: '/' :: body, .skipped⟩, rest) := by
  rw [comment, Text.splitBytes_lineEnd, Text.takeWhile_run (Text.forall_ne_of_notMem hb) h,
    Text.dropWhile_run (Text.forall_ne_of_notMem hb) h]

theorem quoted_closed {body : List Char} (hb : '"' ∉ body) :
    quoted (body ++ '"' :: rest) =
      (⟨'"' :: body ++ ['"'], .token (.string (.ofList body))⟩, rest) := by
  have hs : Text.Stops (· ≠ '"') ('"' :: rest) := by simp
  simp only [quoted, Text.takeWhile_run (Text.forall_ne_of_notMem hb) hs,
    Text.dropWhile_run (Text.forall_ne_of_notMem hb) hs]

theorem quoted_open {body : List Char} (hb : '"' ∉ body) :
    quoted body = (⟨'"' :: body, .rejected .unterminatedString⟩, []) := by
  have ht := Text.takeWhile_run (Text.forall_ne_of_notMem hb) (Text.stops_nil _)
  have hd := Text.dropWhile_run (Text.forall_ne_of_notMem hb) (Text.stops_nil _)
  rw [List.append_nil] at ht hd
  simp only [quoted, ht, hd]

theorem number_whole {ds : List Char} (hd : ∀ d ∈ ds, d.isDigit = true)
    (h : Text.Stops Char.isDigit rest) (hf : ¬ Text.OpensFraction rest) :
    number c (ds ++ rest) = (⟨c :: ds, .token (.number (numberValue (c :: ds) []))⟩, rest) := by
  simp only [number, Text.takeWhile_run hd h, Text.dropWhile_run hd h]
  split
  next d more =>
    rw [if_neg fun hd => hf ⟨d, more, rfl, hd⟩]
  · rfl

theorem number_fraction {ds es : List Char} {d : Char} (hd : ∀ x ∈ ds, x.isDigit = true)
    (he : ∀ x ∈ d :: es, x.isDigit = true) (h : Text.Stops Char.isDigit rest) :
    number c (ds ++ '.' :: d :: (es ++ rest)) =
      (⟨c :: ds ++ '.' :: d :: es, .token (.number (numberValue (c :: ds) (d :: es)))⟩, rest) := by
  obtain ⟨hd', hes⟩ := List.forall_mem_cons.1 he
  -- the point ends the first run of digits
  have hp : Text.Stops Char.isDigit ('.' :: d :: (es ++ rest)) := by simp
  simp only [number, Text.takeWhile_run hd hp, Text.dropWhile_run hd hp, if_pos hd',
    Text.takeWhile_run hes h, Text.dropWhile_run hes h]

/-- A mark that nothing extends is the first lexeme: a single one always, the first half of a pair
without an equals sign behind it, a slash without another. -/
theorem first_mark {m : Punctuation} (h : Text.Stops m.extends rest) {cs : List Char}
    (ht : m.text.toList ++ rest = c :: cs) : first c cs = (ofMark m.text.toList m, rest) := by
  rcases m.sorts with ⟨x, hx⟩ | ⟨x, a, hx, hs⟩ | ⟨x, j, hx, hs⟩ | rfl
  · rw [(Punctuation.text_of_single? hx).1] at ht ⊢
    obtain ⟨rfl, rfl⟩ := List.cons.inj ht
    exact first_single hx
  · rw [(Punctuation.text_of_pair? hx).2.1] at ht ⊢
    obtain ⟨rfl, rfl⟩ := List.cons.inj ht
    exact first_pair hx hs
  · obtain ⟨ha, -, he, -⟩ := Punctuation.text_of_pair? hx
    rw [ha] at ht ⊢
    obtain ⟨rfl, rfl⟩ := List.cons.inj ht
    rw [first_pair hx hs]
    exact paired_alone fun y hy => (he y).symm.trans (h y hy)
  · obtain ⟨rfl, rfl⟩ := List.cons.inj (show '/' :: rest = c :: cs from ht)
    rw [first_slash]
    exact slash_alone h

/-- **A lexeme that reads in front of a text is the first one** of the two together. -/
theorem first_of_reads {l : Lexeme} (h : Reads l rest) {cs : List Char}
    (ht : l.text ++ rest = c :: cs) : first c cs = (l, rest) := by
  -- the first character selects the branch, and what may not follow ends the run in it
  cases h with
  | mark h => exact first_mark h ht
  | comment hb h =>
    simp only [List.cons_append, List.cons.injEq] at ht
    obtain ⟨rfl, rfl⟩ := ht
    exact comment_run hb h
  | blank hc =>
    simp only [List.cons_append, List.nil_append, List.cons.injEq] at ht
    obtain ⟨rfl, rfl⟩ := ht
    exact first_blank hc
  | string hb =>
    simp only [List.cons_append, List.append_assoc, List.nil_append, List.cons.injEq] at ht
    obtain ⟨rfl, rfl⟩ := ht
    rw [first_quote]
    exact quoted_closed hb
  | unterminated hb =>
    simp only [List.append_nil, List.cons.injEq] at ht
    obtain ⟨rfl, rfl⟩ := ht
    rw [first_quote]
    exact quoted_open hb
  | whole hd h hf =>
    simp only [List.cons_append, List.cons.injEq] at ht
    obtain ⟨rfl, rfl⟩ := ht
    obtain ⟨hc, hds⟩ := List.forall_mem_cons.1 hd
    rw [first_digit hc]
    exact number_whole hds h hf
  | fraction hd he h =>
    simp only [List.cons_append, List.append_assoc, List.cons.injEq] at ht
    obtain ⟨rfl, rfl⟩ := ht
    obtain ⟨hc, hds⟩ := List.forall_mem_cons.1 hd
    rw [first_digit hc]
    exact number_fraction hds he h
  | word hc hw h =>
    simp only [List.cons_append, List.cons.injEq] at ht
    obtain ⟨rfl, rfl⟩ := ht
    rw [first_wordStart hc, word, Text.takeWhile_run hw h, Text.dropWhile_run hw h]
  | unexpected hc =>
    simp only [List.cons_append, List.nil_append, List.cons.injEq] at ht
    obtain ⟨rfl, rfl⟩ := ht
    exact first_stray hc

/-- **The first lexeme of a text** is the one that reads in front of what follows it. -/
theorem first_eq_iff {l : Lexeme} {cs : List Char} :
    first c cs = (l, rest) ↔ l.text ++ rest = c :: cs ∧ Reads l rest := by
  constructor
  · intro h
    have h1 := first_append c cs
    have h2 := first_reads c cs
    rw [h] at h1 h2
    exact ⟨h1, h2⟩
  · rintro ⟨ht, h⟩
    exact first_of_reads h ht

theorem Reads.text_ne_nil {l : Lexeme} {rest : List Char} (h : l.Reads rest) :
    l.text ≠ [] := by
  cases h with
  | @mark m =>
    rcases m.sorts with ⟨x, hx⟩ | ⟨x, a, hx, -⟩ | ⟨x, j, hx, -⟩ | rfl
    · simp [ofMark, (Punctuation.text_of_single? hx).1]
    · simp [ofMark, (Punctuation.text_of_pair? hx).2.1]
    · simp [ofMark, (Punctuation.text_of_pair? hx).1]
    · decide
  | _ => simp

/-- A scan in front of a lexeme that reads takes it. -/
theorem Reads.exists_first {l : Lexeme} (h : l.Reads rest) :
    ∃ c cs, l.text = c :: cs ∧ first c (cs ++ rest) = (l, rest) := by
  obtain ⟨c, cs, ht⟩ := List.exists_cons_of_ne_nil h.text_ne_nil
  refine ⟨c, cs, ht, first_eq_iff.2 ⟨?_, h⟩⟩
  rw [ht, List.cons_append]

/-- A text begins with one lexeme only. -/
theorem Reads.unique {l l' : Lexeme} {rest' : List Char} (h : Reads l rest) (h' : Reads l' rest')
    (heq : l.text ++ rest = l'.text ++ rest') : l = l' ∧ rest = rest' := by
  obtain ⟨c, cs, ht, h1⟩ := h.exists_first
  have h2 : first c (cs ++ rest) = (l', rest') := by
    refine first_eq_iff.2 ⟨?_, h'⟩
    rw [← heq, ht, List.cons_append]
  exact Prod.mk.inj (h1.symm.trans h2)

/-- A lexeme that is rejected is a character or a string without an end. -/
theorem Reads.rejected_cases {l : Lexeme} (h : l.Reads rest) {message : Message}
    (hv : l.verdict = .rejected message) :
    message = .unexpectedCharacter ∨ message = .unterminatedString := by
  cases h with
  | unterminated => cases hv; exact .inr rfl
  | unexpected => cases hv; exact .inl rfl
  | _ => cases hv

/-! ## What may follow a lexeme -/

theorem extends_blank (m : Punctuation) {b : Char} (hb : b = '\n' ∨ isLineBlank b = true) :
    m.extends b = false := by
  rcases blank_cases hb with rfl | rfl | rfl | rfl <;> cases m <;> rfl

/-- **A blank behind a token's lexeme, or behind what follows it, leaves it as it is.** -/
theorem Reads.append_blank {l : Lexeme} (h : l.Reads rest) {shape : Shape}
    (hv : l.verdict = .token shape) {b : Char} (hb : b = '\n' ∨ isLineBlank b = true)
    (more : List Char) : l.Reads (rest ++ b :: more) := by
  have hdigit : b.isDigit = false := by rcases blank_cases hb with rfl | rfl | rfl | rfl <;> rfl
  have hword : isWordPart b = false := by rcases blank_cases hb with rfl | rfl | rfl | rfl <;> rfl
  cases h with
  | @mark m _ h => exact .mark (h.append (extends_blank m hb) more)
  | string h => exact .string h
  | whole hd h hf =>
    have hpoint : b ≠ '.' := by rintro rfl; revert hb; decide
    exact .whole hd (h.append hdigit more) (Text.not_opensFraction_append hf hpoint hdigit more)
  | fraction hd he h => exact .fraction hd he (h.append hdigit more)
  | word hc hw h => exact .word hc hw (h.append hword more)
  | _ => cases hv

/-- A line feed leaves every lexeme as it is, but for a string without an end. -/
theorem Reads.append_newline {l : Lexeme} (h : l.Reads rest)
    (hv : l.verdict ≠ .rejected .unterminatedString) (more : List Char) :
    l.Reads (rest ++ '\n' :: more) := by
  cases hs : l.verdict with
  | token shape => exact h.append_blank hs (.inl rfl) more
  | skipped =>
    cases h with
    | comment hb h => exact .comment hb (h.append rfl more)
    | blank hc => exact .blank hc
    | _ => cases hs
  | rejected message =>
    cases h with
    | unexpected hc => exact .unexpected hc
    | unterminated => exact absurd rfl hv
    | _ => cases hs

/-- **The text behind a lexeme may change, if it begins in the same way**: with the same character,
and with a fraction only where there was one. A string without an end has no text behind it. -/
theorem Reads.of_head {l : Lexeme} (h : l.Reads rest)
    (hv : l.verdict ≠ .rejected .unterminatedString) {rest' : List Char}
    (hhead : rest'.head? = rest.head?)
    (hf : Text.OpensFraction rest' → Text.OpensFraction rest) : l.Reads rest' := by
  cases h with
  | mark h => exact .mark (h.of_head hhead)
  | comment hb h => exact .comment hb (h.of_head hhead)
  | blank hc => exact .blank hc
  | string hb => exact .string hb
  | unterminated => exact absurd rfl hv
  | whole hd h hn => exact .whole hd (h.of_head hhead) (fun ho => hn (hf ho))
  | fraction hd he h => exact .fraction hd he (h.of_head hhead)
  | word hc hw h => exact .word hc hw (h.of_head hhead)
  | unexpected hc => exact .unexpected hc

/-- A token's lexeme is one without any text behind it. -/
theorem Reads.alone {l : Lexeme} (h : l.Reads rest) {shape : Shape} (hv : l.verdict = .token shape) :
    l.Reads [] := by
  cases h with
  | mark => exact .mark (Text.stops_nil _)
  | string h => exact .string h
  | whole hd => exact .whole hd (Text.stops_nil _) (by decide)
  | fraction hd he => exact .fraction hd he (Text.stops_nil _)
  | word hc hw => exact .word hc hw (Text.stops_nil _)
  | _ => cases hv

end Lexeme

end ScriptLexer
