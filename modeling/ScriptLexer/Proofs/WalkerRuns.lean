import ScriptLexer.Proofs.Ending
import ScriptLexer.Proofs.OpenString
import ScriptLexer.Proofs.WalkerSteps

/-!
# A walker agrees with the scanner

The steps of a walker through a lexeme end behind it, with its token or its finding. So a walker
comes by every place where a scanner stands after some requests, having given the same tokens and
reported the same findings, and no check fails on its way.

* `Walker.Walks`: some steps and the tokens that they give.
* `Walker.walks_lexeme`, `Walker.walks_lexemes`: the steps through a lexeme, and through several.
* `Walker.Matches`: a walker that stands where a scanner does.
* `Walker.Within`: what holds of the positions of a walker.
* `walker_keeps_within`: no check fails, and the walker comes by where the scanner does.
-/

namespace ScriptLexer

/-- A number of a scan without a point is the one that its characters write. -/
theorem Binary64.written_whole {c : Char} {ds : List Char} (hd : ∀ d ∈ c :: ds, d.isDigit = true) :
    written (c :: ds) = Lexeme.numberValue (c :: ds) [] := by
  rw [written, LexicalClass.ofText?_number (LexicalClass.mem_number.2 (.inl ⟨c, ds, hd, rfl⟩)),
    LexicalClass.numeral_whole hd]
  rfl

theorem Binary64.written_fraction {c d : Char} {ds es : List Char}
    (hd : ∀ x ∈ c :: ds, x.isDigit = true) (he : ∀ x ∈ d :: es, x.isDigit = true) :
    written (c :: ds ++ '.' :: d :: es) = Lexeme.numberValue (c :: ds) (d :: es) := by
  rw [written, LexicalClass.ofText?_number
    (LexicalClass.mem_number.2 (.inr ⟨c, ds, d, es, hd, he, rfl⟩)),
    LexicalClass.numeral_fraction hd]
  rfl

namespace Walker

variable {ρ : Type} [Reporter ρ] {text front mid after : List Char} {phase : Phase} {p : Place} {r : ρ}

/-- Some steps lead from one walker to another and give tokens. -/
inductive Walks (text : List Char) : Walker ρ → List Token → Walker ρ → Prop
  | refl (w : Walker ρ) : Walks text w [] w
  | step {w w₁ w₂ : Walker ρ} {token : Option Token} {tokens : List Token}
      (h : w.step text = .ok (w₁, token)) (hs : Walks text w₁ tokens w₂) :
      Walks text w (token.toList ++ tokens) w₂

namespace Walks

variable {w w₁ w₂ : Walker ρ} {token : Option Token} {tokens more : List Token}

theorem one (h : w.step text = .ok (w₁, token)) : Walks text w token.toList w₁ := by
  have hw := Walks.step h (.refl w₁)
  rwa [List.append_nil] at hw

theorem trans (h : Walks text w tokens w₁) (h' : Walks text w₁ more w₂) :
    Walks text w (tokens ++ more) w₂ := by
  induction h with
  | refl => exact h'
  | step h _ ih =>
    rw [List.append_assoc]
    exact .step h (ih h')

theorem exists_run (h : Walks text w tokens w₁) : ∃ n, run text n w = .ok (tokens, w₁) := by
  induction h with
  | refl => exact ⟨0, rfl⟩
  | step h _ ih =>
    obtain ⟨n, hn⟩ := ih
    exact ⟨n + 1, run_succ h hn⟩

end Walks

/-! ## Through lexemes -/

section

variable (hsize : Text.byteWidth text < UInt32.size)
include hsize

/-- **Steps take all characters that a lexeme goes on with.** -/
theorem walks_take {cs : List Char} (h : ∀ c ∈ cs, phase.takes c = true)
    (ht : text = front ++ (mid ++ (cs ++ after))) :
    Walks text (amid front mid phase r) [] (amid front (mid ++ cs) phase r) := by
  induction cs generalizing mid with
  | nil =>
    rw [List.append_nil]
    exact .refl _
  | cons c cs ih =>
    obtain ⟨hc, hcs⟩ := List.forall_mem_cons.1 h
    have htext : text = front ++ (mid ++ [c] ++ (cs ++ after)) := by
      rw [ht, List.append_assoc mid]
      rfl
    have hrest := ih hcs htext
    rw [List.append_assoc] at hrest
    exact .step (step_take hsize hc ht) hrest

/-- **Steps pass a lexeme**, and give its token or report its finding. -/
theorem walks_lexeme {l : Lexeme} (h : l.Reads after) (ht : text = front ++ (l.text ++ after)) :
    Walks text (behind p front r) (past front l r).2.toList (past front l r).1 := by
  cases h with
  | mark h => exact .one (step_mark hsize h ht)
  | comment hb h => exact .one (step_comment hsize hb h ht)
  | blank hc => exact .one (step_blank hsize hc ht)
  | unexpected hc => exact .one (step_stray hsize hc ht)
  | @string body _ hb =>
    have htext : text = front ++ ('"' :: body ++ '"' :: after) := by
      rw [ht]
      simp
    have hbody : ∀ c ∈ body, Phase.string.takes c = true := Text.forall_ne_of_notMem hb
    have hquote : Walks text (behind p front r) [] (amid front ['"'] .string r) :=
      .one (step_quote hsize htext)
    -- over the quote, through the characters, and over the quote that closes them
    exact (hquote.trans (walks_take hsize hbody htext)).trans
      (.one (step_string_close hsize htext))
  | @unterminated body hb =>
    have htext : text = front ++ '"' :: body := by
      rw [ht, List.append_nil]
    have hbody : ∀ c ∈ body, Phase.string.takes c = true := Text.forall_ne_of_notMem hb
    have hquote : Walks text (behind p front r) [] (amid front ['"'] .string r) :=
      .one (step_quote hsize htext)
    exact (hquote.trans (walks_take hsize hbody ht)).trans (.one (step_string_open htext))
  | @whole c ds _ hd h hf =>
    obtain ⟨hc, hds⟩ := List.forall_mem_cons.1 hd
    have hfirst : Walks text (behind p front r) [] (amid front [c] .whole r) :=
      .one (step_digit hsize hc ht)
    rw [← Binary64.written_whole hd]
    exact (hfirst.trans (walks_take hsize hds ht)).trans (.one (step_whole_close hsize h hf ht))
  | @fraction c ds d es _ hd he h =>
    obtain ⟨hc, hds⟩ := List.forall_mem_cons.1 hd
    have htext : text = front ++ (c :: ds ++ '.' :: d :: (es ++ after)) := by
      rw [ht]
      simp
    have hpoint : text = front ++ (c :: ds ++ ['.'] ++ (d :: es ++ after)) := by
      rw [ht]
      simp
    have hfirst : Walks text (behind p front r) [] (amid front [c] .whole r) :=
      .one (step_digit hsize hc htext)
    have hwhole : Walks text (amid front (c :: ds) .whole r) []
        (amid front (c :: ds ++ ['.']) .fraction r) :=
      .one (step_whole_point hsize (he d List.mem_cons_self) htext)
    have hdigits : Walks text (amid front (c :: ds ++ ['.']) .fraction r) []
        (amid front (c :: ds ++ ['.'] ++ d :: es) .fraction r) := walks_take hsize he hpoint
    rw [List.append_assoc _ ['.']] at hdigits
    rw [← Binary64.written_fraction hd he]
    -- through the whole part, over the point, and through the fraction
    exact (((hfirst.trans (walks_take hsize hds htext)).trans hwhole).trans hdigits).trans
      (.one (step_fraction_close hsize h ht))
  | @word c cs _ hc hw h =>
    have hfirst : Walks text (behind p front r) [] (amid front [c] .word r) :=
      .one (step_wordStart hsize hc ht)
    exact (hfirst.trans (walks_take hsize hw ht)).trans (.one (step_word_close hsize h ht))

/-- **Steps pass lexemes**, and give their tokens and report their findings. -/
theorem walks_lexemes (front : List Char) (p : Place) (r : ρ) {ls ms : List Lexeme}
    (h : Chained (ls ++ ms)) (ht : text = front ++ (spell ls ++ spell ms)) :
    ∃ q, Walks text (behind p front r) (tokensAt (Place.start.after front) ls)
      (behind q (front ++ spell ls) (Scanner.report r (findingsAt (Place.start.after front) ls))) := by
  induction ls generalizing front p r with
  | nil =>
    refine ⟨p, ?_⟩
    rw [spell_nil, List.append_nil]
    exact .refl _
  | cons l ls ih =>
    have hreads : l.Reads (spell ls ++ spell ms) := by
      rw [← spell_append]
      exact h.1
    rw [spell_cons, List.append_assoc] at ht
    have htext : text = front ++ l.text ++ (spell ls ++ spell ms) := by
      rw [ht, List.append_assoc]
    have hlexeme : Walks text (behind p front r)
        (Placed.token? ⟨Place.start.after front, l⟩).toList
        (behind (Place.start.after front) (front ++ l.text)
          (Scanner.report r (Placed.finding? ⟨Place.start.after front, l⟩).toList)) := by
      rw [← amid_between]
      exact walks_lexeme hsize hreads ht
    obtain ⟨q, hrest⟩ := ih (front ++ l.text) (Place.start.after front)
      (Scanner.report r (Placed.finding? ⟨Place.start.after front, l⟩).toList) h.2 htext
    rw [Place.after_append, List.append_assoc, ← Scanner.report_append] at hrest
    refine ⟨q, ?_⟩
    rw [tokensAt_cons, findingsAt_cons, spell_cons]
    exact hlexeme.trans hrest

end

/-- Behind all lexemes a step gives the end. -/
theorem walks_end {ls : List Lexeme} (h : Chained ls)
    (hsize : Text.byteWidth (spell ls) < UInt32.size) : ∃ line, Walks (spell ls) (fresh r)
      (tokensAt .start ls ++ [eofAt .start ls])
      ⟨⟨Text.byteWidth (spell ls), line⟩, Place.start.after (spell ls), .finished,
        Scanner.report r (findingsAt .start ls)⟩ := by
  have hall : Chained (ls ++ []) := by rwa [List.append_nil]
  obtain ⟨q, hwalk⟩ := walks_lexemes hsize [] .start r hall (List.append_nil _).symm
  exact ⟨q.line, hwalk.trans (.one (step_end rfl))⟩

/-! ## Where a scanner stands -/

/-- A walker stands where a scanner does, between the same requests, with the same text ahead. -/
structure Matches (text : List Char) (w : Walker ρ) (s : Scanner ρ) : Prop where
  current : w.current = s.place
  reporter : w.reporter = s.reporter
  phase : w.phase = if s.finished then .finished else .between
  rest : w.rest text = .ok s.pending

/-- **A walker comes by where a scanner stands after some requests**, and has given the same
tokens. -/
theorem exists_walks_pulled {source : String} (h : source.utf8ByteSize < UInt32.size) (r : ρ)
    (k : Nat) : ∃ w, Walks source.toList (fresh r) ((scanned source.toList).take k) w ∧
      w.Matches source.toList (.pulled k (lexemes source.toList) .start r) := by
  have hch := chained_lexemes source.toList
  have hspell := spell_lexemes source.toList
  have hsize : Text.byteWidth source.toList < UInt32.size := by simpa using h
  by_cases hk : (tokensAt .start (lexemes source.toList)).length < k
  · -- the last request has given the end
    rw [← hspell] at hsize
    obtain ⟨line, hwalk⟩ := walks_end (r := r) hch hsize
    rw [hspell] at hwalk
    rw [List.take_of_length_le (by rw [length_scanned]; exact hk), Scanner.pulled_eq_ended hch hk]
    refine ⟨_, hwalk, ?_, rfl, rfl, ?_⟩
    · rw [Scanner.ended, hspell]
    · exact rest_eq (List.append_nil _).symm (by simp)
  · -- the walker stands behind the lexemes in front of the cut
    have hcut := cut_append k (lexemes source.toList)
    have htext : source.toList =
        spell (cut k (lexemes source.toList)).1 ++ spell (cut k (lexemes source.toList)).2 := by
      rw [← spell_cut, hspell]
    rw [← hcut] at hch
    obtain ⟨q, hwalk⟩ := walks_lexemes hsize [] .start r hch htext
    have htake : tokensAt (Place.start.after []) (cut k (lexemes source.toList)).1 =
        (scanned source.toList).take k := by
      rw [Place.after_nil, tokensAt_cut (chained_lexemes _), scanned,
        List.take_append_of_le_length (by omega)]
    rw [htake] at hwalk
    refine ⟨_, hwalk, rfl, rfl, ?_, rest_eq htext (by simp [behind])⟩
    rw [Scanner.pulled, if_neg (by simpa using hk)]
    rfl

/-! ## All steps and all requests -/

/-- The positions of a walker lie between characters of its text, in order. -/
structure Within (source : String) (w : Walker ρ) : Prop where
  ordered : w.start.offset ≤ w.current.offset
  bounded : w.current.offset ≤ source.utf8ByteSize
  start : String.Pos.Raw.IsValid source ⟨w.start.offset⟩
  current : String.Pos.Raw.IsValid source ⟨w.current.offset⟩

/-- The bytes of the beginning of a text end where a character begins, or at its end. -/
theorem isValid_byteWidth {source : String} (ht : source.toList = front ++ after) :
    String.Pos.Raw.IsValid source ⟨Text.byteWidth front⟩ := by
  rw [String.Pos.Raw.isValid_iff_exists_append]
  refine ⟨.ofList front, .ofList after, ?_, ?_⟩
  · rw [← String.ofList_append, ← ht, String.ofList_toList]
  · have hwidth : Text.byteWidth front = (String.ofList front).utf8ByteSize := by
      rw [← Text.byteWidth_toList, String.toList_ofList]
    rw [hwidth]
    rfl

omit [Reporter ρ] in
/-- The positions of a walker that keeps to its text. -/
theorem Inside.within {source : String} {w : Walker ρ} (h : Inside source.toList w) :
    w.Within source := by
  cases h with
  | finished line r =>
    have hend : (Place.start.after source.toList).offset = source.utf8ByteSize := by simp
    have hvalid := isValid_byteWidth (List.append_nil source.toList).symm
    refine ⟨?_, ?_, hvalid, ?_⟩
    · simp
    · exact Nat.le_of_eq hend
    · simpa using hvalid
  | @amid front mid after phase r ht hq =>
    have hstart : (Walker.amid front mid phase r).start.offset = Text.byteWidth front := by
      simp [Walker.amid]
    have hcurrent : (Walker.amid front mid phase r).current.offset =
        Text.byteWidth (front ++ mid) := amid_offset
    have hle : Text.byteWidth (front ++ mid) ≤ source.utf8ByteSize := by
      rw [← Text.byteWidth_toList, ht, ← List.append_assoc, Text.byteWidth_append _ after]
      exact Nat.le_add_right _ _
    refine ⟨?_, ?_, ?_, ?_⟩
    · rw [hstart, hcurrent, Text.byteWidth_append]
      exact Nat.le_add_right _ _
    · rwa [hcurrent]
    · rw [hstart]
      exact isValid_byteWidth ht
    · rw [hcurrent]
      exact isValid_byteWidth (by rw [ht, List.append_assoc])

end Walker

/-- The answers to requests, up to the end, are the first tokens. -/
theorem filterMap_answers (tokens : List Token) (k : Nat) :
    ((List.range k).map fun i => tokens[i]?).filterMap id = tokens.take k := by
  induction k with
  | zero => rfl
  | succ k ih =>
    rw [List.range_succ, List.map_append, List.filterMap_append, ih, List.take_add_one,
      List.map_singleton]
    cases tokens[k]? <;> rfl

/-- **No check of a scan fails** if its positions fit 32 bits. After any number of steps both
positions lie between characters of the text, in order, and no slice, sum, difference, span or token
was out of bounds; and a walker comes by where a scanner stands after any number of requests, having
given the same tokens and reported the same findings. -/
theorem walker_keeps_within {ρ : Type} [Reporter ρ] (source : String) (r : ρ)
    (h : source.utf8ByteSize < UInt32.size) :
    (∀ n, ∃ tokens w, Walker.run source.toList n (.fresh r) = .ok (tokens, w) ∧
      w.Within source) ∧
    ∀ k, ∃ n tokens w answers s, Walker.run source.toList n (.fresh r) = .ok (tokens, w) ∧
      (Scanner.ofText source r).pull k = .ok (answers, s) ∧ answers.filterMap id = tokens ∧
      w.Matches source.toList s := by
  have hsize : Text.byteWidth source.toList < UInt32.size := by simpa using h
  constructor
  · intro n
    have hfresh : Walker.Inside source.toList (Walker.fresh r) :=
      .amid (show source.toList = [] ++ ([] ++ source.toList) from rfl) (by intro h; cases h)
    obtain ⟨tokens, w, hrun, hw⟩ := hfresh.run hsize n
    exact ⟨tokens, w, hrun, hw.within⟩
  · intro k
    obtain ⟨w, hwalk, hmatch⟩ := Walker.exists_walks_pulled h r k
    obtain ⟨n, hrun⟩ := hwalk.exists_run
    exact ⟨n, _, w, _, _, hrun, pull_ofText h r k, filterMap_answers _ k, hmatch⟩

/-- A string and a comment with characters of two bytes, and a number on the next line. -/
theorem walker_keeps_within_longer_characters :
    "\"é\"//ü\n1.5".utf8ByteSize < UInt32.size ∧
      (∀ n, ∃ tokens w, Walker.run "\"é\"//ü\n1.5".toList n (.fresh Collection.empty) =
          .ok (tokens, w) ∧ w.Within "\"é\"//ü\n1.5") ∧
      ∃ n tokens w, Walker.run "\"é\"//ü\n1.5".toList n (.fresh Collection.empty) =
          .ok (tokens, w) ∧
        tokens.map Token.kind = [.string, .number, .eof] ∧ w.current = ⟨12, 2⟩ ∧
        w.phase = .finished := by
  have hsize : "\"é\"//ü\n1.5".utf8ByteSize < UInt32.size := by decide
  have hl : lexemes "\"é\"//ü\n1.5".toList =
      [.closedString ['é'], ⟨['/', '/', 'ü'], .skipped⟩, .blank '\n',
        ⟨['1', '.', '5'], .token (.number (Lexeme.numberValue ['1'] ['5']))⟩] := by
    exact lexemes_eq_iff.2 ⟨rfl, .string (by decide),
      .comment (by decide) ((Text.stops_cons _ _ _).2 rfl), .blank (.inl rfl),
      .fraction (List.forall_mem_singleton.2 rfl) (List.forall_mem_singleton.2 rfl)
        (Text.stops_nil _), trivial⟩
  obtain ⟨hwithin, hagree⟩ := walker_keeps_within "\"é\"//ü\n1.5" Collection.empty hsize
  obtain ⟨n, tokens, w, answers, s, hrun, hpull, htokens, hmatch⟩ := hagree 3
  have he := hpull.symm.trans (pull_ofText hsize Collection.empty 3)
  rw [scanned, hl] at he
  cases he
  refine ⟨hsize, hwithin, n, tokens, w, hrun, ?_, hmatch.current, hmatch.phase⟩
  rw [← htokens]
  rfl

end ScriptLexer
