import Mathlib.Computability.Language
import ScriptLexer.Proofs.Reads

/-!
# The classes of lexemes as languages

Each class of lexemes is a language of texts, given by sums, products and stars of single
characters. A lexeme that is not rejected is a text of one class, and a text of a class that stands
alone is read as a lexeme of that class.

* `Kind.ofWord_eq_keyword_iff`: the kinds of words.
* `LexicalClass.language`: the texts of a class.
* `LexicalClass.verdict`: what becomes of a text of the class.
* `LexicalClass.reads_of_mem`, `Lexeme.Reads.mem_language`: texts of a class and lexemes.
-/

namespace ScriptLexer

open Computability

/-! ## Words and keywords -/

theorem Keyword.ofText?_eq_some_iff {word : String} {k : Keyword} :
    Keyword.ofText? word = some k ↔ k.text = word := by
  constructor
  · intro h
    simpa using List.find?_some h
  · rintro rfl
    cases k <;> rfl

/-- A word has the kind of the keyword that it spells. -/
theorem Kind.ofWord_eq_keyword_iff {word : String} {k : Keyword} :
    Kind.ofWord word = .keyword k ↔ k.text = word := by
  rw [← Keyword.ofText?_eq_some_iff, ofWord, ofKeyword?]
  cases Keyword.ofText? word <;> simp

/-- A word that spells no keyword is an identifier. -/
theorem Kind.ofWord_eq_identifier_iff {word : String} :
    Kind.ofWord word = .identifier ↔ ∀ k : Keyword, k.text ≠ word := by
  rw [ofWord, ofKeyword?]
  cases h : Keyword.ofText? word with
  | none =>
    simp only [Option.map_none, Option.getD_none, true_iff]
    intro k hk
    rw [Keyword.ofText?_eq_some_iff.2 hk] at h
    cases h
  | some k =>
    simp only [Option.map_some, Option.getD_some, reduceCtorEq, false_iff]
    exact fun hne => hne k (Keyword.ofText?_eq_some_iff.1 h)

/-! ## The classes -/

/-- The texts of one character with a property. -/
def oneOf (p : Char → Prop) : Language Char :=
  {w | ∃ c, p c ∧ w = [c]}

/-- The ten digits. -/
def digit : Language Char :=
  oneOf fun c => '0' ≤ c ∧ c ≤ '9'

/-- The letters of the ASCII range and the underscore. -/
def letter : Language Char :=
  oneOf fun c => 'A' ≤ c ∧ c ≤ 'Z' ∨ 'a' ≤ c ∧ c ≤ 'z' ∨ c = '_'

/-- The classes of lexemes. -/
inductive LexicalClass
  | punctuation (mark : Punctuation)
  | number
  | word
  | string
  | comment
  | blank
  | newline
  deriving DecidableEq

namespace LexicalClass

/-- The texts of a class. -/
def language : LexicalClass → Language Char
  | punctuation mark => {mark.text.toList}
  | number => digit * digit∗ * (1 + {['.']} * (digit * digit∗))
  | word => letter * (letter + digit)∗
  | string => {['"']} * (oneOf (· ≠ '"'))∗ * {['"']}
  | comment => {['/', '/']} * (oneOf (· ≠ '\n'))∗
  | blank => {[' ']} + {['\t']} + {['\r']}
  | newline => {['\n']}

/-- The value of a number: the digits in front of its point and those behind it. -/
def numeral (w : List Char) : Binary64 :=
  Lexeme.numberValue (w.takeWhile (· ≠ '.')) ((w.dropWhile (· ≠ '.')).drop 1)

/-- What becomes of a text of a class: a token of the class's kind, or nothing. -/
def verdict : LexicalClass → List Char → Verdict
  | punctuation mark, _ => .token (.plain (.punctuation mark))
  | number, w => .token (.number (numeral w))
  | word, w => .token (.plain (.ofWord (.ofList w)))
  | string, w => .token (.string (.ofList (w.drop 1).dropLast))
  | comment, _ | blank, _ | newline, _ => .skipped

end LexicalClass

/-! ## Members of the languages -/

theorem mem_oneOf {p : Char → Prop} {w : List Char} : w ∈ oneOf p ↔ ∃ c, p c ∧ w = [c] := Iff.rfl

/-- The star of a class of characters: the texts all of whose characters are in the class. -/
theorem mem_star_oneOf {p : Char → Prop} {w : List Char} : w ∈ (oneOf p)∗ ↔ ∀ c ∈ w, p c := by
  rw [Language.mem_kstar]
  constructor
  · rintro ⟨ws, rfl, h⟩ c hc
    obtain ⟨v, hv, hc⟩ := List.mem_flatten.1 hc
    obtain ⟨d, hd, rfl⟩ := h v hv
    rw [List.mem_singleton.1 hc]
    exact hd
  · intro h
    refine ⟨w.map fun c => [c], ?_, ?_⟩
    · rw [← List.flatMap_def, List.flatMap_singleton']
    · intro v hv
      obtain ⟨c, hc, rfl⟩ := List.mem_map.1 hv
      exact ⟨c, h c hc, rfl⟩

theorem oneOf_add (p q : Char → Prop) : oneOf p + oneOf q = oneOf fun c => p c ∨ q c := by
  ext w
  rw [Language.mem_add, mem_oneOf, mem_oneOf, mem_oneOf]
  constructor
  · rintro (⟨c, hc, rfl⟩ | ⟨c, hc, rfl⟩)
    · exact ⟨c, .inl hc, rfl⟩
    · exact ⟨c, .inr hc, rfl⟩
  · rintro ⟨c, hc | hc, rfl⟩
    · exact .inl ⟨c, hc, rfl⟩
    · exact .inr ⟨c, hc, rfl⟩

/-- A character of a class and a run of another. -/
theorem mem_oneOf_mul_star {p q : Char → Prop} {w : List Char} :
    w ∈ oneOf p * (oneOf q)∗ ↔ ∃ c cs, p c ∧ (∀ x ∈ cs, q x) ∧ w = c :: cs := by
  rw [Language.mem_mul]
  constructor
  · rintro ⟨_, ⟨c, hc, rfl⟩, cs, hcs, rfl⟩
    exact ⟨c, cs, hc, mem_star_oneOf.1 hcs, rfl⟩
  · rintro ⟨c, cs, hc, hcs, rfl⟩
    exact ⟨[c], ⟨c, hc, rfl⟩, cs, mem_star_oneOf.2 hcs, rfl⟩

theorem isDigit_iff {c : Char} : c.isDigit = true ↔ '0' ≤ c ∧ c ≤ '9' := by
  simp only [Char.isDigit, Bool.and_eq_true, decide_eq_true_eq, ge_iff_le, Char.le_def]

theorem isWordStart_iff {c : Char} :
    isWordStart c = true ↔ 'A' ≤ c ∧ c ≤ 'Z' ∨ 'a' ≤ c ∧ c ≤ 'z' ∨ c = '_' := by
  simp only [isWordStart_eq, Bool.or_eq_true, Bool.and_eq_true, decide_eq_true_eq, ge_iff_le,
    Char.le_def, beq_iff_eq]
  tauto

theorem isWordPart_iff {c : Char} :
    isWordPart c = true ↔ isWordStart c = true ∨ c.isDigit = true := by
  simp only [isWordStart, isWordPart, Char.isAlphanum, Bool.or_eq_true]
  tauto

/-- A run of digits that is not empty. -/
theorem mem_digits {w : List Char} :
    w ∈ digit * digit∗ ↔ ∃ c ds, (∀ d ∈ c :: ds, d.isDigit = true) ∧ w = c :: ds := by
  simp only [digit, mem_oneOf_mul_star, ← isDigit_iff, List.forall_mem_cons, and_assoc]

namespace LexicalClass

variable {w : List Char}

theorem mem_number : w ∈ number.language ↔
    (∃ c ds, (∀ d ∈ c :: ds, d.isDigit = true) ∧ w = c :: ds) ∨
      ∃ c ds d es, (∀ x ∈ c :: ds, x.isDigit = true) ∧ (∀ x ∈ d :: es, x.isDigit = true) ∧
        w = c :: ds ++ '.' :: d :: es := by
  rw [language, Language.mem_mul]
  constructor
  · rintro ⟨a, ha, b, hb, rfl⟩
    obtain ⟨c, ds, hd, rfl⟩ := mem_digits.1 ha
    rcases hb with hb | hb
    · obtain rfl := (Language.mem_one b).1 hb
      exact .inl ⟨c, ds, hd, List.append_nil _⟩
    · obtain ⟨_, rfl, f, hf, rfl⟩ := Language.mem_mul.1 hb
      obtain ⟨d, es, he, rfl⟩ := mem_digits.1 hf
      exact .inr ⟨c, ds, d, es, hd, he, rfl⟩
  · rintro (⟨c, ds, hd, rfl⟩ | ⟨c, ds, d, es, hd, he, rfl⟩)
    · exact ⟨c :: ds, mem_digits.2 ⟨c, ds, hd, rfl⟩, [], .inl (Language.nil_mem_one),
        List.append_nil _⟩
    · refine ⟨c :: ds, mem_digits.2 ⟨c, ds, hd, rfl⟩, '.' :: d :: es, .inr ?_, rfl⟩
      exact Language.mem_mul.2 ⟨['.'], rfl, d :: es, mem_digits.2 ⟨d, es, he, rfl⟩, rfl⟩

theorem mem_word : w ∈ word.language ↔
    ∃ c cs, isWordStart c = true ∧ (∀ x ∈ cs, isWordPart x = true) ∧ w = c :: cs := by
  simp only [language, letter, digit, oneOf_add, mem_oneOf_mul_star, isWordPart_iff,
    isWordStart_iff, isDigit_iff]

theorem mem_string : w ∈ string.language ↔ ∃ body, '"' ∉ body ∧ w = '"' :: body ++ ['"'] := by
  rw [language, Language.mem_mul]
  constructor
  · rintro ⟨_, ha, _, rfl, rfl⟩
    obtain ⟨_, rfl, body, hb, rfl⟩ := Language.mem_mul.1 ha
    exact ⟨body, fun h => mem_star_oneOf.1 hb _ h rfl, rfl⟩
  · rintro ⟨body, hb, rfl⟩
    refine ⟨'"' :: body, Language.mem_mul.2 ⟨['"'], rfl, body, mem_star_oneOf.2 ?_, rfl⟩,
      ['"'], rfl, rfl⟩
    exact fun c hc => ne_of_mem_of_not_mem hc hb

theorem mem_comment : w ∈ comment.language ↔ ∃ body, '\n' ∉ body ∧ w = '/' :: '/' :: body := by
  rw [language, Language.mem_mul]
  constructor
  · rintro ⟨_, rfl, body, hb, rfl⟩
    exact ⟨body, fun h => mem_star_oneOf.1 hb _ h rfl, rfl⟩
  · rintro ⟨body, hb, rfl⟩
    refine ⟨['/', '/'], rfl, body, mem_star_oneOf.2 ?_, rfl⟩
    exact fun c hc => ne_of_mem_of_not_mem hc hb

theorem mem_blank : w ∈ blank.language ↔ ∃ c, isLineBlank c = true ∧ w = [c] := by
  constructor
  · rintro ((rfl | rfl) | rfl)
    · exact ⟨' ', rfl, rfl⟩
    · exact ⟨'\t', rfl, rfl⟩
    · exact ⟨'\r', rfl, rfl⟩
  · rintro ⟨c, hc, rfl⟩
    have hc' : c = ' ' ∨ c = '\t' ∨ c = '\r' := by simpa [isLineBlank, or_assoc] using hc
    rcases hc' with rfl | rfl | rfl
    · exact .inl (.inl rfl)
    · exact .inl (.inr rfl)
    · exact .inr rfl

/-! ## Texts of a class and lexemes -/

theorem point_notMem {ds : List Char} (hd : ∀ d ∈ ds, d.isDigit = true) : '.' ∉ ds :=
  fun h => absurd (hd _ h) (by decide)

theorem numeral_whole {ds : List Char} (hd : ∀ d ∈ ds, d.isDigit = true) :
    numeral ds = Lexeme.numberValue ds [] := by
  have hne := Text.forall_ne_of_notMem (point_notMem hd)
  have ht := Text.takeWhile_run hne (Text.stops_nil _)
  have hr := Text.dropWhile_run hne (Text.stops_nil _)
  rw [List.append_nil] at ht hr
  rw [numeral, ht, hr, List.drop_nil]

theorem numeral_fraction {ds es : List Char} (hd : ∀ d ∈ ds, d.isDigit = true) :
    numeral (ds ++ '.' :: es) = Lexeme.numberValue ds es := by
  have hne := Text.forall_ne_of_notMem (point_notMem hd)
  have hs : Text.Stops (· ≠ '.') ('.' :: es) := by simp
  rw [numeral, Text.takeWhile_run hne hs, Text.dropWhile_run hne hs, List.drop_one, List.tail_cons]

/-- **A text of a class, alone, is read as a lexeme of the class.** -/
theorem reads_of_mem {k : LexicalClass} (h : w ∈ k.language) :
    Lexeme.Reads ⟨w, k.verdict w⟩ [] := by
  cases k with
  | punctuation m =>
    obtain rfl : w = m.text.toList := h
    exact .mark (Text.stops_nil _)
  | number =>
    rcases mem_number.1 h with ⟨c, ds, hd, rfl⟩ | ⟨c, ds, d, es, hd, he, rfl⟩
    · rw [verdict, numeral_whole hd]
      exact .whole hd (Text.stops_nil _) (by decide)
    · rw [verdict, numeral_fraction hd]
      exact .fraction hd he (Text.stops_nil _)
  | word =>
    obtain ⟨c, cs, hc, hw, rfl⟩ := mem_word.1 h
    exact .word hc hw (Text.stops_nil _)
  | string =>
    obtain ⟨body, hb, rfl⟩ := mem_string.1 h
    have hv : verdict .string ('"' :: body ++ ['"']) = .token (.string (.ofList body)) := by
      simp [verdict]
    rw [hv]
    exact .string hb
  | comment =>
    obtain ⟨body, hb, rfl⟩ := mem_comment.1 h
    exact .comment hb (Text.stops_nil _)
  | blank =>
    obtain ⟨c, hc, rfl⟩ := mem_blank.1 h
    exact .blank (.inr hc)
  | newline =>
    obtain rfl : w = ['\n'] := h
    exact .blank (.inl rfl)

end LexicalClass

/-- **A lexeme that is not rejected is a text of a class**, and becomes what the class says. -/
theorem Lexeme.Reads.mem_language {l : Lexeme} {rest : List Char} (h : l.Reads rest) :
    (∃ message, l.verdict = .rejected message) ∨
      ∃ k : LexicalClass, l.text ∈ k.language ∧ l.verdict = k.verdict l.text := by
  cases h with
  | @mark m => exact .inr ⟨.punctuation m, rfl, rfl⟩
  | comment hb => exact .inr ⟨.comment, LexicalClass.mem_comment.2 ⟨_, hb, rfl⟩, rfl⟩
  | blank hc =>
    rcases hc with rfl | hc
    · exact .inr ⟨.newline, rfl, rfl⟩
    · exact .inr ⟨.blank, LexicalClass.mem_blank.2 ⟨_, hc, rfl⟩, rfl⟩
  | string hb =>
    exact .inr ⟨.string, LexicalClass.mem_string.2 ⟨_, hb, rfl⟩, by simp [LexicalClass.verdict]⟩
  | unterminated => exact .inl ⟨_, rfl⟩
  | whole hd =>
    refine .inr ⟨.number, LexicalClass.mem_number.2 (.inl ⟨_, _, hd, rfl⟩), ?_⟩
    rw [LexicalClass.verdict, LexicalClass.numeral_whole hd]
  | fraction hd he =>
    refine .inr ⟨.number, LexicalClass.mem_number.2 (.inr ⟨_, _, _, _, hd, he, rfl⟩), ?_⟩
    rw [LexicalClass.verdict, LexicalClass.numeral_fraction hd]
  | word hc hw => exact .inr ⟨.word, LexicalClass.mem_word.2 ⟨_, _, hc, hw, rfl⟩, rfl⟩
  | unexpected => exact .inl ⟨_, rfl⟩

end ScriptLexer
