import ScriptLexer.Proofs.Walker

/-!
# The steps of a walker

What one step does, by what the walker is in the middle of and what stands in front of it: it begins
a lexeme, takes one more character of it, or ends it. None of its checks fails, wherever the walker
stands between two characters.

* `Walker.step_mark`, `Walker.step_comment`, ...: a step that begins a lexeme.
* `Walker.step_take`: a step that takes one more character.
* `Walker.step_string_close`, `Walker.step_word_close`, ...: a step that ends a lexeme.
* `Walker.Inside`: both positions between characters and in order, and a quote where a string began.
* `Walker.Inside.step`, `Walker.Inside.run`: no check fails in a step from there, nor in any number
  of steps.
-/

namespace ScriptLexer

/-- The characters that a lexeme goes on with. -/
def Phase.takes : Phase → Char → Bool
  | .string, c => c ≠ '"'
  | .whole, c | .fraction, c => c.isDigit
  | .word, c => isWordPart c
  | .between, _ | .finished, _ => false

namespace Walker

variable {ρ : Type} {text front mid after : List Char} {c : Char} {phase : Phase} {p : Place} {r : ρ}

/-- A walker between two lexemes: it stands behind `front`, and the last lexeme began at `p`. -/
def behind (p : Place) (front : List Char) (r : ρ) : Walker ρ :=
  ⟨p, Place.start.after front, .between, r⟩

/-- A walker that has ended a lexeme stands between two. -/
theorem amid_between : amid front mid .between r =
    behind (Place.start.after front) (front ++ mid) r := by
  rw [amid, behind, Place.after_append]

theorem behind_at_end_iff (ht : text = front ++ after) :
    Text.byteWidth text ≤ (behind p front r).current.offset ↔ after = [] := by
  have h : Text.byteWidth text ≤ (amid front [] .between r).current.offset ↔ after = [] :=
    amid_at_end_iff ht
  exact h

variable [Reporter ρ]

/-- The walker that has ended a lexeme behind `front`, and the token of the lexeme. -/
def past (front : List Char) (l : Lexeme) (r : ρ) : Walker ρ × Option Token :=
  (amid front l.text .between
    (Scanner.report r (Placed.finding? ⟨Place.start.after front, l⟩).toList),
    Placed.token? ⟨Place.start.after front, l⟩)

theorem step_end (ht : text = front) : (behind p front r).step text =
    .ok (⟨⟨Text.byteWidth front, p.line⟩, Place.start.after front, .finished, r⟩,
      some (.eof (Place.start.after front).line (Place.start.after front).offset.toUInt32)) := by
  have hend : Text.byteWidth text ≤ (behind p front r).current.offset :=
    (behind_at_end_iff (by rw [ht, List.append_nil])).2 rfl
  have hoff : (Place.start.after front).offset = Text.byteWidth front := by simp
  show stepBetween text _ = _
  rw [stepBetween, if_pos hend, ← hoff]
  rfl

/-! ## Steps that begin a lexeme -/

section

variable (hsize : Text.byteWidth text < UInt32.size)
include hsize

omit hsize in
/-- In front of a character a step begins a lexeme. -/
theorem step_behind (ht : text = front ++ c :: after) :
    (behind p front r).step text = (amid front [] .between r).opened text := by
  have hmore : ¬ Text.byteWidth text ≤ (behind p front r).current.offset :=
    fun h => List.cons_ne_nil c after ((behind_at_end_iff ht).1 h)
  show stepBetween text _ = _
  rw [stepBetween, if_neg hmore]
  rfl

theorem step_first (ht : text = front ++ c :: after) (hc : c ≠ '\n') :
    (behind p front r).step text = (amid front [c] .between r).onFirst text c := by
  have hadvance : (amid front [] .between r).advance text =
      .ok (some c, amid front [c] .between r) := advance_amid hsize ht hc
  rw [step_behind ht, opened, hadvance]
  rfl

/-- A line feed between lexemes is taken, and then counted. -/
theorem step_newline (ht : text = front ++ '\n' :: after) :
    (behind p front r).step text = .ok (past front ⟨['\n'], .skipped⟩ r) := by
  obtain ⟨w, hadvance, hnewline⟩ : ∃ w, (amid front [] .between r).advance text = .ok (some '\n', w) ∧
      w.newline = .ok (amid front ['\n'] .between r) := advance_newline hsize ht
  rw [step_behind ht, opened, hadvance]
  show (w.newline.bind fun w => .ok (w, none)) = _
  rw [hnewline]
  rfl

theorem step_single {m : Punctuation} (hc : Punctuation.single? c = some m)
    (ht : text = front ++ c :: after) :
    (behind p front r).step text = .ok (past front (.ofMark [c] m) r) := by
  have hn : c ≠ '\n' := by
    rintro rfl
    cases hc
  rw [step_first hsize ht hn, onFirst, hc]
  exact give_amid hsize ht rfl

theorem step_pair_joined {alone joined : Punctuation}
    (hc : Punctuation.pair? c = some (alone, joined)) (hs : Punctuation.single? c = none)
    (ht : text = front ++ c :: '=' :: after) :
    (behind p front r).step text = .ok (past front (.ofMark [c, '='] joined) r) := by
  have hn : c ≠ '\n' := by
    rintro rfl
    cases hc
  have haccept : (amid front [c] .between r).accept text '=' =
      .ok (true, amid front [c, '='] .between r) := accept_amid hsize ht (by decide)
  rw [step_first hsize ht hn, onFirst, hs, hc]
  simp only [haccept, bind, Except.bind, if_true]
  exact give_amid hsize ht rfl

theorem step_pair_alone {alone joined : Punctuation}
    (hc : Punctuation.pair? c = some (alone, joined)) (hs : Punctuation.single? c = none)
    (ht : text = front ++ c :: after) (ha : after.head? ≠ some '=') :
    (behind p front r).step text = .ok (past front (.ofMark [c] alone) r) := by
  have hn : c ≠ '\n' := by
    rintro rfl
    cases hc
  have haccept : (amid front [c] .between r).accept text '=' =
      .ok (false, amid front [c] .between r) := accept_amid_other ht ha
  rw [step_first hsize ht hn, onFirst, hs, hc]
  simp only [haccept, bind, Except.bind, Bool.false_eq_true, if_false]
  exact give_amid hsize ht rfl

theorem step_slash (ht : text = front ++ '/' :: after) (ha : after.head? ≠ some '/') :
    (behind p front r).step text = .ok (past front (.ofMark ['/'] .slash) r) := by
  have haccept : (amid front ['/'] .between r).accept text '/' =
      .ok (false, amid front ['/'] .between r) := accept_amid_other ht ha
  rw [step_first hsize ht (by decide)]
  show (accept text _ '/').bind _ = _
  rw [haccept]
  exact give_amid hsize ht rfl

/-- A mark is taken with what extends it, if that follows. -/
theorem step_mark {m : Punctuation} (h : Text.Stops m.extends after)
    (ht : text = front ++ (m.text.toList ++ after)) :
    (behind p front r).step text = .ok (past front (.ofMark m.text.toList m) r) := by
  have hhead (c : Char) (hc : m.extends c = true) : after.head? ≠ some c := by
    intro ha
    rw [h c ha] at hc
    cases hc
  rcases m.sorts with ⟨x, hx⟩ | ⟨x, a, hx, hs⟩ | ⟨x, j, hx, hs⟩ | rfl
  · rw [(Punctuation.text_of_single? hx).1] at ht ⊢
    exact step_single hsize hx ht
  · rw [(Punctuation.text_of_pair? hx).2.1] at ht ⊢
    exact step_pair_joined hsize hx hs ht
  · obtain ⟨ha, -, he, -⟩ := Punctuation.text_of_pair? hx
    rw [ha] at ht ⊢
    exact step_pair_alone hsize hx hs ht (hhead '=' (he '='))
  · exact step_slash hsize ht (hhead '/' rfl)

theorem step_comment {body : List Char} (hb : '\n' ∉ body) (h : Text.Stops (· ≠ '\n') after)
    (ht : text = front ++ ('/' :: '/' :: body ++ after)) :
    (behind p front r).step text = .ok (past front ⟨'/' :: '/' :: body, .skipped⟩ r) := by
  have haccept : (amid front ['/'] .between r).accept text '/' =
      .ok (true, amid front ['/', '/'] .between r) := accept_amid hsize ht (by decide)
  have hskip : (amid front ['/', '/'] .between r).skipComment text =
      .ok (amid front ('/' :: '/' :: body) .between r) := skipComment_amid hsize ht hb h
  rw [step_first hsize ht (by decide)]
  show (accept text _ '/').bind _ = _
  rw [haccept]
  show (skipComment text _).bind _ = _
  rw [hskip]
  rfl

theorem step_blank (hc : c = '\n' ∨ isLineBlank c = true) (ht : text = front ++ c :: after) :
    (behind p front r).step text = .ok (past front ⟨[c], .skipped⟩ r) := by
  rcases blank_cases hc with rfl | rfl | rfl | rfl
  · exact step_newline hsize ht
  all_goals
    rw [step_first hsize ht (by decide)]
    rfl

theorem step_quote (ht : text = front ++ '"' :: after) :
    (behind p front r).step text = .ok (amid front ['"'] .string r, none) := by
  rw [step_first hsize ht (by decide)]
  rfl

/-- A character of a word begins a number or a word. -/
theorem step_wordPart (hc : isWordPart c = true) (ht : text = front ++ c :: after) :
    (behind p front r).step text = if c.isDigit then .ok (amid front [c] .whole r, none)
      else if isWordStart c then .ok (amid front [c] .word r, none)
      else .ok ((amid front [c] .between r).reject .unexpectedCharacter) := by
  obtain ⟨h1, h2⟩ := Punctuation.none_of_isWordPart hc
  obtain ⟨hs, hb, hq⟩ := not_special_of_isWordPart hc
  obtain ⟨hn, hl⟩ := not_or.1 hb
  rw [step_first hsize ht hn, onFirst, h1, h2]
  simp only [if_neg hs, if_neg hn, if_neg hl, if_neg hq]
  rfl

theorem step_digit (hc : c.isDigit = true) (ht : text = front ++ c :: after) :
    (behind p front r).step text = .ok (amid front [c] .whole r, none) := by
  rw [step_wordPart hsize (isWordPart_of_isDigit hc) ht, if_pos hc]

theorem step_wordStart (hc : isWordStart c = true) (ht : text = front ++ c :: after) :
    (behind p front r).step text = .ok (amid front [c] .word r, none) := by
  rw [step_wordPart hsize (isWordPart_of_isWordStart hc) ht,
    if_neg (by simp [not_isDigit_of_isWordStart hc]), if_pos hc]

theorem step_stray (hc : Stray c) (ht : text = front ++ c :: after) :
    (behind p front r).step text =
      .ok (past front ⟨[c], .rejected .unexpectedCharacter⟩ r) := by
  rw [step_first hsize ht hc.newline, onFirst, hc.single?_eq_none, hc.pair?_eq_none]
  simp only [if_neg hc.ne_slash, hc.newline, hc.blank, hc.quote, hc.digit, hc.word,
    Bool.false_eq_true, if_false]
  rfl

end

/-! ## Steps inside a lexeme -/

section

variable (hsize : Text.byteWidth text < UInt32.size)
include hsize

theorem step_string_take (hc : c ≠ '"') (ht : text = front ++ (mid ++ c :: after)) :
    (amid front mid .string r).step text = .ok (amid front (mid ++ [c]) .string r, none) := by
  show stepString text _ = _
  rw [stepString, peek_amid ht]
  simp only [bind, Except.bind, List.head?_cons, reduceCtorEq, Option.some.injEq, hc, or_self,
    if_false]
  by_cases hn : c = '\n'
  · subst hn
    obtain ⟨w, hnewline, hadvance⟩ : ∃ w, (amid front mid .string r).newline = .ok w ∧
        w.advance text = .ok (some '\n', amid front (mid ++ ['\n']) .string r) :=
      newline_advance hsize ht
    simp only [if_true, hnewline, hadvance]
    rfl
  · simp only [if_neg hn, pure, Except.pure, advance_amid hsize ht hn]

/-- **A step takes one more character** that its lexeme goes on with. -/
theorem step_take (h : phase.takes c = true) (ht : text = front ++ (mid ++ c :: after)) :
    (amid front mid phase r).step text = .ok (amid front (mid ++ [c]) phase r, none) := by
  cases phase with
  | between => cases h
  | finished => cases h
  | string => exact step_string_take hsize (of_decide_eq_true h) ht
  | whole => exact takeOr_take hsize ht h (by rintro rfl; cases h)
  | fraction => exact takeOr_take hsize ht h (by rintro rfl; cases h)
  | word => exact takeOr_take hsize ht h (by rintro rfl; cases h)

/-- A quote ends a string. -/
theorem step_string_close {body : List Char}
    (ht : text = front ++ ('"' :: body ++ '"' :: after)) :
    (amid front ('"' :: body) .string r).step text =
      .ok (past front ⟨'"' :: body ++ ['"'], .token (.string (.ofList body))⟩ r) := by
  have hmore : ¬ Text.byteWidth text ≤ (amid front ('"' :: body) .string r).current.offset :=
    fun h => List.cons_ne_nil '"' after ((amid_at_end_iff ht).1 h)
  have htext : text = front ++ ('"' :: body ++ ['"'] ++ after) := by
    rw [ht, List.append_assoc _ ['"'] after]
    rfl
  show stepString text _ = _
  rw [stepString, peek_amid ht]
  simp only [bind, Except.bind, List.head?_cons, or_true, if_true]
  rw [endString, if_neg hmore, advance_amid hsize ht (by decide)]
  simp only [bind, Except.bind, value_amid hsize htext]
  exact give_amid hsize htext rfl

omit hsize in
/-- The end of the text rejects a string. -/
theorem step_string_open (ht : text = front ++ mid) : (amid front mid .string r).step text =
    .ok (past front ⟨mid, .rejected .unterminatedString⟩ r) := by
  have htext : text = front ++ (mid ++ []) := by rw [ht, List.append_nil]
  have hend : Text.byteWidth text ≤ (amid front mid .string r).current.offset :=
    (amid_at_end_iff htext).2 rfl
  show stepString text _ = _
  rw [stepString, peek_amid htext]
  simp only [bind, Except.bind, List.head?_nil, true_or, if_true]
  rw [endString, if_pos hend]
  rfl

/-- A point that a digit follows is taken. -/
theorem step_whole_point {d : Char} (hd : d.isDigit = true)
    (ht : text = front ++ (mid ++ '.' :: d :: after)) :
    (amid front mid .whole r).step text = .ok (amid front (mid ++ ['.']) .fraction r, none) := by
  refine (takeOr_end ht ((Text.stops_cons _ _ _).2 rfl)).trans ?_
  rw [endWhole, peek_amid ht]
  simp only [bind, Except.bind, List.head?_cons, if_true, peekNext_amid ht, List.tail_cons,
    Option.any_some, hd, advance_amid hsize ht (by decide : '.' ≠ '\n')]
  rfl

theorem step_whole_close (h : Text.Stops Char.isDigit after) (hf : ¬ Text.OpensFraction after)
    (ht : text = front ++ (mid ++ after)) : (amid front mid .whole r).step text =
      .ok (past front ⟨mid, .token (.number (.written mid))⟩ r) := by
  refine (takeOr_end ht h).trans ?_
  rw [endWhole, peek_amid ht]
  simp only [bind, Except.bind, peekNext_amid ht]
  by_cases hpoint : after.head? = some '.'
  · -- a digit behind the point would open a fraction
    have hdigit : after.tail.head?.any Char.isDigit = false := by
      rw [Bool.eq_false_iff]
      intro hd
      obtain ⟨rest, rfl⟩ := List.head?_eq_some_iff.1 hpoint
      cases rest with
      | nil => cases hd
      | cons d rest => exact hf ⟨d, rest, rfl, hd⟩
    simp only [if_pos hpoint, hdigit, Bool.false_eq_true, if_false]
    exact endNumber_amid hsize ht
  · rw [if_neg hpoint]
    exact endNumber_amid hsize ht

theorem step_fraction_close (h : Text.Stops Char.isDigit after)
    (ht : text = front ++ (mid ++ after)) : (amid front mid .fraction r).step text =
      .ok (past front ⟨mid, .token (.number (.written mid))⟩ r) :=
  (takeOr_end ht h).trans (endNumber_amid hsize ht)

theorem step_word_close (h : Text.Stops isWordPart after) (ht : text = front ++ (mid ++ after)) :
    (amid front mid .word r).step text =
      .ok (past front ⟨mid, .token (.plain (.ofWord (.ofList mid)))⟩ r) :=
  (takeOr_end ht h).trans (endWord_amid hsize ht)

end

/-! ## No check fails -/

/-- **A walker keeps to a text**: it stands behind characters of a lexeme that begins behind
characters of the text, and a string has begun with its quote; or it has come to the end. -/
inductive Inside (text : List Char) : Walker ρ → Prop
  | amid {front mid after : List Char} {phase : Phase} {r : ρ} (ht : text = front ++ (mid ++ after))
      (hq : phase = .string → ∃ body, mid = '"' :: body) : Inside text (amid front mid phase r)
  | finished (line : Nat) (r : ρ) :
      Inside text ⟨⟨Text.byteWidth text, line⟩, Place.start.after text, .finished, r⟩

/-- No check of a step fails, and the walker keeps to the text. -/
def Keeps (text : List Char) (w : Walker ρ) : Prop :=
  ∃ w' token, w.step text = .ok (w', token) ∧ Inside text w'

theorem Keeps.of_past {w : Walker ρ} {l : Lexeme} (hstep : w.step text = .ok (past front l r))
    (ht : text = front ++ (l.text ++ after)) : Keeps text w :=
  ⟨_, _, hstep, .amid ht (by intro h; cases h)⟩

theorem Keeps.of_amid {w : Walker ρ} (hstep : w.step text = .ok (amid front mid phase r, none))
    (ht : text = front ++ (mid ++ after)) (hq : phase = .string → ∃ body, mid = '"' :: body) :
    Keeps text w :=
  ⟨_, _, hstep, .amid ht hq⟩

section

variable (hsize : Text.byteWidth text < UInt32.size)
include hsize

/-- In front of a lexeme a step passes it or takes its first character. -/
theorem Keeps.of_reads {l : Lexeme} (h : l.Reads after) (ht : text = front ++ (l.text ++ after)) :
    Keeps text (behind p front r) := by
  cases h with
  | mark h => exact .of_past (step_mark hsize h ht) ht
  | comment hb h => exact .of_past (step_comment hsize hb h ht) ht
  | blank hc => exact .of_past (step_blank hsize hc ht) ht
  | string =>
    rw [List.cons_append, List.cons_append] at ht
    exact .of_amid (step_quote hsize ht) ht fun _ => ⟨[], rfl⟩
  | unterminated => exact .of_amid (step_quote hsize ht) ht fun _ => ⟨[], rfl⟩
  | whole hd =>
    have hc := (List.forall_mem_cons.1 hd).1
    exact .of_amid (step_digit hsize hc ht) ht (by intro h; cases h)
  | fraction hd =>
    have hc := (List.forall_mem_cons.1 hd).1
    rw [List.cons_append, List.cons_append] at ht
    exact .of_amid (step_digit hsize hc ht) ht (by intro h; cases h)
  | word hc => exact .of_amid (step_wordStart hsize hc ht) ht (by intro h; cases h)
  | unexpected hc => exact .of_past (step_stray hsize hc ht) ht

/-- A step takes a character that the lexeme goes on with. -/
theorem Keeps.of_take (hc : phase.takes c = true) (ht : text = front ++ (mid ++ c :: after))
    (hq : phase = .string → ∃ body, mid = '"' :: body) :
    Keeps text (amid front mid phase r) := by
  have htext : text = front ++ (mid ++ [c] ++ after) := by rw [ht, List.append_assoc mid]; rfl
  refine .of_amid (step_take hsize hc ht) htext fun hp => ?_
  obtain ⟨body, rfl⟩ := hq hp
  exact ⟨body ++ [c], rfl⟩

/-- **No check of a step fails**, wherever a walker stands in its text. -/
theorem Inside.step {w : Walker ρ} (h : Inside text w) : Keeps text w := by
  cases h with
  | finished line r => exact ⟨_, _, rfl, .finished line r⟩
  | @amid front mid after phase r ht hq =>
    -- what the lexeme does not go on with ends it
    by_cases htake : ∃ c rest, after = c :: rest ∧ phase.takes c = true
    · obtain ⟨c, rest, rfl, hc⟩ := htake
      exact .of_take hsize hc ht hq
    have hstop : Text.Stops phase.takes after := by
      intro c hc
      obtain ⟨rest, rfl⟩ := List.head?_eq_some_iff.1 hc
      exact Bool.eq_false_iff.2 fun h => htake ⟨c, rest, rfl, h⟩
    cases phase with
    | finished => exact ⟨_, _, rfl, .amid ht hq⟩
    | between =>
      rw [amid_between]
      rw [← List.append_assoc] at ht
      cases after with
      | nil =>
        rw [List.append_nil] at ht
        refine ⟨_, _, step_end ht, ?_⟩
        rw [← ht]
        exact .finished _ _
      | cons c cs =>
        -- the first lexeme of what is left decides what the step does
        refine .of_reads hsize (Lexeme.first_reads c cs) ?_
        rw [Lexeme.first_append, ht]
    | string =>
      obtain ⟨body, rfl⟩ := hq rfl
      cases after with
      | nil =>
        rw [List.append_nil] at ht
        exact .of_past (step_string_open ht) (by rw [ht, List.append_nil])
      | cons c cs =>
        obtain rfl : c = '"' := by simpa [Phase.takes] using hstop
        have htext : text = front ++ ('"' :: body ++ ['"'] ++ cs) := by
          rw [ht]
          simp
        exact .of_past (step_string_close hsize ht) htext
    | whole =>
      by_cases hf : Text.OpensFraction after
      · obtain ⟨d, more, rfl, hd⟩ := hf
        have htext : text = front ++ (mid ++ ['.'] ++ d :: more) := by
          rw [ht, List.append_assoc mid]
          rfl
        exact .of_amid (step_whole_point hsize hd ht) htext (by intro h; cases h)
      · exact .of_past (step_whole_close hsize hstop hf ht) ht
    | fraction => exact .of_past (step_fraction_close hsize hstop ht) ht
    | word => exact .of_past (step_word_close hsize hstop ht) ht

omit hsize in
/-- A step and then some more. -/
theorem run_succ {w w₁ w₂ : Walker ρ} {token : Option Token} {tokens : List Token} {n : Nat}
    (h : w.step text = .ok (w₁, token)) (hs : run text n w₁ = .ok (tokens, w₂)) :
    run text (n + 1) w = .ok (token.toList ++ tokens, w₂) := by
  rw [run, h]
  simp only [bind, Except.bind, hs]
  rfl

/-- **No check of any number of steps fails.** -/
theorem Inside.run {w : Walker ρ} (h : Inside text w) (n : Nat) :
    ∃ tokens w', run text n w = .ok (tokens, w') ∧ Inside text w' := by
  induction n generalizing w with
  | zero => exact ⟨[], w, rfl, h⟩
  | succ n ih =>
    obtain ⟨w₁, token, hstep, h₁⟩ := h.step hsize
    obtain ⟨tokens, w₂, hrun, h₂⟩ := ih h₁
    exact ⟨token.toList ++ tokens, w₂, run_succ hstep hrun, h₂⟩

end

end Walker

end ScriptLexer
