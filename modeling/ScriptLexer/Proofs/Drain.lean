import ScriptLexer.Proofs.Lexemes
import ScriptLexer.Proofs.SpanEnds

/-!
# A scan runs through the lexemes of its text

A scanner that stands in front of chained lexemes takes one of them at a time: it skips it, reports
it or gives its token. A whole scan of a text whose positions fit 32 bits therefore gives the tokens
of all lexemes and the end, and hands all findings to the reporter, in the order of the text.

* `Scanner.before`, `Scanner.ended`: a scanner in front of lexemes, and one that has passed them.
* `Scanner.next_skipped`, `Scanner.next_rejected`, `Scanner.next_token`, `Scanner.next_end`: one
  step for each sort of lexeme.
* `Scanner.drainOnto_before`: a run over all of them.
* `scan_eq`: a whole scan.
* `proper`, `entries_report`: its tokens without the end, and the findings in a collection.
-/

namespace ScriptLexer

/-! ## Tokens within the positions of 32 bits -/

theorem Kind.ofWord_isLiteral (word : String) : (Kind.ofWord word).isLiteral = false := by
  unfold Kind.ofWord Kind.ofKeyword?
  cases Keyword.ofText? word <;> rfl

/-- The value of a token that a scan makes suits its kind. -/
theorem Lexeme.Reads.suits {l : Lexeme} {rest : List Char} (h : l.Reads rest) {shape : Shape}
    (hv : l.verdict = .token shape) : shape.literal.Suits shape.kind := by
  cases h with
  | mark => cases hv; rfl
  | string => cases hv; rfl
  | whole => cases hv; rfl
  | fraction => cases hv; rfl
  | word => cases hv; exact Kind.ofWord_isLiteral _
  | _ => cases hv

/-- A position is cut to its low 32 bits. -/
theorem toNat_toUInt32_mod (n : Nat) : n.toUInt32.toNat = n % UInt32.size := by
  rw [Nat.toUInt32_eq, UInt32.toNat_ofNat']

theorem toNat_toUInt32 {n : Nat} (h : n < UInt32.size) : n.toUInt32.toNat = n := by
  rw [toNat_toUInt32_mod, Nat.mod_eq_of_lt h]

/-- A range whose end fits 32 bits is the range of its span. -/
theorem Span.ofRange_add {start width : Nat} (h : start + width < UInt32.size) :
    Span.ofRange start (start + width) = .ok ⟨start.toUInt32, width.toUInt32⟩ := by
  refine ofBounds_eq_ok_iff.2 ⟨rfl, stop_eq_ok_iff.2 ?_⟩
  rw [toNat_toUInt32 h, toNat_toUInt32 (by omega), toNat_toUInt32 (by omega)]

/-- The range of the bytes of a placed lexeme whose end fits 32 bits. -/
theorem Placed.span_range {x : Placed} (h : x.stop.offset < UInt32.size) :
    x.span.range = .ok (x.place.offset, x.stop.offset) := by
  rw [stop, Place.after_offset] at h
  have hstart : x.span.start.toNat = x.place.offset := toNat_toUInt32 (by omega)
  have hlength : x.span.length.toNat = Text.byteWidth x.lexeme.text := toNat_toUInt32 (by omega)
  have hstop : x.span.stop = .ok (x.place.offset + Text.byteWidth x.lexeme.text).toUInt32 := by
    rw [Span.stop_eq_ok_iff, toNat_toUInt32 h, hstart, hlength]
  rw [(Span.EndsAt.of_stop hstop).range, hstart, toNat_toUInt32 h, stop, Place.after_offset]

/-- The token of a placed lexeme that reads. -/
theorem Lexeme.Reads.token?_eq {l : Lexeme} {rest : List Char} (h : l.Reads rest) {shape : Shape}
    (hv : l.verdict = .token shape) (p : Place) : Placed.token? ⟨p, l⟩ =
      some ⟨shape.kind, .ofList l.text, shape.literal, p.line, Placed.span ⟨p, l⟩, h.suits hv⟩ := by
  simp only [Placed.token?, hv, dif_pos (h.suits hv)]

/-- **The token of a lexeme**, where its end fits 32 bits and its value suits its kind. -/
theorem Shape.token_eq {shape : Shape} {text : List Char} {p : Place}
    (hs : shape.literal.Suits shape.kind) (hp : p.offset + Text.byteWidth text < UInt32.size) :
    shape.token text p (p.after text) = .ok ⟨shape.kind, .ofList text, shape.literal, p.line,
      ⟨p.offset.toUInt32, (Text.byteWidth text).toUInt32⟩, hs⟩ := by
  have h := Span.ofRange_add hp
  unfold Shape.token
  rw [Place.after_offset, h]
  cases shape with
  | plain kind => exact dif_pos hs
  | number value => rfl
  | string content => rfl

/-- The token of a lexeme that reads does not mark the end. -/
theorem Lexeme.Reads.kind_ne_eof {l : Lexeme} {rest : List Char} (h : l.Reads rest) {shape : Shape}
    (hv : l.verdict = .token shape) : shape.kind ≠ .eof := by
  cases h with
  | @word c cs =>
    cases hv
    unfold Shape.kind Kind.ofWord Kind.ofKeyword?
    cases Keyword.ofText? (.ofList (c :: cs)) <;> simp
  | _ => cases hv <;> simp [Shape.kind]

namespace Scanner

variable {ρ : Type} [Reporter ρ] {l : Lexeme} {ls : List Lexeme} {p : Place} {r : ρ}

/-- A scanner that stands in front of lexemes. -/
def before (ls : List Lexeme) (p : Place) (r : ρ) : Scanner ρ :=
  ⟨spell ls, p, r, false⟩

/-- Hand findings to a reporter, one after another. -/
def report (r : ρ) (fs : List Finding) : ρ :=
  fs.foldl (fun r f => Reporter.error r f.line f.message.text) r

/-- Findings are handed to a reporter one list after another. -/
theorem report_append (r : ρ) (fs gs : List Finding) :
    report r (fs ++ gs) = report (report r fs) gs :=
  List.foldl_append

/-- A scanner that has passed lexemes and given the end. -/
def ended (ls : List Lexeme) (p : Place) (r : ρ) : Scanner ρ :=
  ⟨[], p.after (spell ls), report r (findingsAt p ls), true⟩

/-! ## One step -/

theorem next_skipped (h : Chained (l :: ls)) (hv : l.verdict = .skipped) :
    (before (l :: ls) p r).next = (before ls (p.after l.text) r).next := by
  obtain ⟨c, cs, hs, hf⟩ := h.exists_first
  simp only [next, before, hs, seek, hf, hv, Bool.false_eq_true, if_false]

theorem next_rejected (h : Chained (l :: ls)) {message : Message}
    (hv : l.verdict = .rejected message) : (before (l :: ls) p r).next =
      (before ls (p.after l.text)
        (Reporter.error r (p.after l.text).line message.text)).next := by
  obtain ⟨c, cs, hs, hf⟩ := h.exists_first
  simp only [next, before, hs, seek, hf, hv, Bool.false_eq_true, if_false]

/-- A lexeme whose token can be made is given as that token. -/
theorem next_of_token (h : Chained (l :: ls)) {shape : Shape} (hv : l.verdict = .token shape)
    {t : Token} (ht : shape.token l.text p (p.after l.text) = .ok t) :
    (before (l :: ls) p r).next = .ok (some t, before ls (p.after l.text) r) := by
  obtain ⟨c, cs, hs, hf⟩ := h.exists_first
  simp only [next, before, hs, seek, hf, hv, ht, Bool.false_eq_true, if_false]
  rfl

theorem next_token (h : Chained (l :: ls)) {shape : Shape} (hv : l.verdict = .token shape)
    (hp : p.offset + Text.byteWidth l.text < UInt32.size) :
    ∃ t, Placed.token? ⟨p, l⟩ = some t ∧
      (before (l :: ls) p r).next = .ok (some t, before ls (p.after l.text) r) :=
  ⟨_, h.1.token?_eq hv p, next_of_token h hv (Shape.token_eq (h.1.suits hv) hp)⟩

theorem next_end : (before [] p r).next =
    .ok (some (.eof p.line p.offset.toUInt32), ended [] p r) := by
  simp only [next, before, spell_nil, seek, Bool.false_eq_true, if_false]
  rfl

theorem next_ended : (ended ls p r).next = .ok (none, ended ls p r) := rfl

/-! ## A whole run -/

/-- What is drained depends on the next step alone. -/
private theorem drainOnto_congr {taken : Array Token} {s t : Scanner ρ} (h : s.next = t.next) :
    drainOnto taken s = drainOnto taken t := by
  rw [drainOnto, drainOnto]
  split <;> split <;> simp_all

theorem drainOnto_next {taken : Array Token} {s t : Scanner ρ} {token : Token}
    (h : s.next = .ok (some token, t)) : drainOnto taken s = drainOnto (taken.push token) t := by
  rw [drainOnto]
  split <;> simp_all

theorem drainOnto_done {taken : Array Token} {s t : Scanner ρ} (h : s.next = .ok (none, t)) :
    drainOnto taken s = .ok (taken, t) := by
  rw [drainOnto]
  split <;> simp_all

theorem drainOnto_fault {taken : Array Token} {s : Scanner ρ} {fault : Fault}
    (h : s.next = .error fault) : drainOnto taken s = .error fault := by
  rw [drainOnto]
  split <;> simp_all

theorem drainOnto_ended {taken : Array Token} :
    drainOnto taken (ended ls p r) = .ok (taken, ended ls p r) :=
  drainOnto_done next_ended

/-- **A run over chained lexemes** gives the tokens of all of them and the end. -/
theorem drainOnto_before (taken : Array Token) (h : Chained ls)
    (hp : p.offset + Text.byteWidth (spell ls) < UInt32.size) :
    drainOnto taken (before ls p r) =
      .ok (taken ++ (tokensAt p ls).toArray ++
        #[.eof (p.after (spell ls)).line (p.after (spell ls)).offset.toUInt32], ended ls p r) := by
  induction ls generalizing taken p r with
  | nil =>
    rw [drainOnto_next next_end, drainOnto_ended]
    simp [tokensAt]
  | cons l ls ih =>
    rw [spell_cons, Text.byteWidth_append] at hp
    have hrest : (p.after l.text).offset + Text.byteWidth (spell ls) < UInt32.size := by
      rw [Place.after_offset]; omega
    -- the lexeme at the front is skipped, rejected or a token; the rest is the rest of the run
    cases hv : l.verdict with
    | skipped =>
      have ht : Placed.token? ⟨p, l⟩ = none := by simp [Placed.token?, hv]
      have hf : Placed.finding? ⟨p, l⟩ = none := by simp [Placed.finding?, hv]
      rw [drainOnto_congr (next_skipped h hv), ih _ h.2 hrest]
      simp [tokensAt, ended, findingsAt, ht, hf]
    | rejected message =>
      have ht : Placed.token? ⟨p, l⟩ = none := by simp [Placed.token?, hv]
      have hf : Placed.finding? ⟨p, l⟩ = some ⟨(p.after l.text).line, message⟩ := by
        simp [Placed.finding?, Placed.stop, hv]
      rw [drainOnto_congr (next_rejected h hv), ih _ h.2 hrest]
      simp [tokensAt, ended, findingsAt, report, ht, hf]
    | token shape =>
      have hf : Placed.finding? ⟨p, l⟩ = none := by simp [Placed.finding?, hv]
      obtain ⟨t, ht, hn⟩ := next_token (p := p) (r := r) h hv (by omega)
      rw [drainOnto_next hn, ih _ h.2 hrest]
      simp [tokensAt, ended, findingsAt, ht, hf]

end Scanner

/-- **A whole scan** of a text whose positions fit 32 bits: the tokens of all its lexemes and the
end, with all findings handed to the reporter. -/
theorem scan_eq {ρ : Type} [Reporter ρ] {source : String} (r : ρ)
    (h : source.utf8ByteSize < UInt32.size) :
    scan source r = .ok ((tokensAt .start (lexemes source.toList)).toArray ++
      #[.eof (Place.start.after source.toList).line source.utf8ByteSize.toUInt32],
      .ended (lexemes source.toList) .start r) := by
  have hs := spell_lexemes source.toList
  have hrun := Scanner.drainOnto_before (p := .start) (r := r) #[]
    (chained_lexemes source.toList) (by simpa [hs] using h)
  simpa [scan, Scanner.drain, Scanner.before, Scanner.ofText, hs] using hrun

/-! ## The tokens without the end -/

/-- The tokens that stand for lexemes: all but the end. -/
def proper (tokens : Array Token) : List Token :=
  tokens.toList.filter fun t => !t.isEof

/-- What a token of a placed lexeme is made of. -/
theorem Placed.of_token? {x : Placed} {t : Token} (h : x.token? = some t) :
    ∃ shape, x.lexeme.verdict = .token shape ∧ t.kind = shape.kind ∧
      t.lexeme = .ofList x.lexeme.text ∧ t.literal = shape.literal ∧ t.line = x.place.line ∧
      t.span = x.span := by
  unfold token? at h
  split at h
  next shape hv =>
    split at h
    · cases h
      exact ⟨shape, hv, rfl, rfl, rfl, rfl, rfl⟩
    · cases h
  · cases h

theorem mem_tokensAt {p : Place} {ls : List Lexeme} {t : Token} (h : t ∈ tokensAt p ls) :
    ∃ x ∈ placed p ls, ∃ shape, x.lexeme.verdict = .token shape ∧ t.kind = shape.kind ∧
      t.lexeme = .ofList x.lexeme.text ∧ t.literal = shape.literal ∧ t.line = x.place.line ∧
      t.span = x.span := by
  obtain ⟨x, hx, ht⟩ := List.mem_filterMap.1 h
  exact ⟨x, hx, x.of_token? ht⟩

theorem proper_scanned {p : Place} {ls : List Lexeme} (h : Chained ls) (line : Nat)
    (position : UInt32) : proper ((tokensAt p ls).toArray ++ #[.eof line position]) =
      tokensAt p ls := by
  have hne : ∀ t ∈ tokensAt p ls, (!t.isEof) = true := by
    intro t ht
    obtain ⟨x, hx, shape, hv, hk, -⟩ := mem_tokensAt ht
    obtain ⟨rest, hr⟩ := h.reads_of_mem_placed hx
    simpa [Token.isEof, hk] using hr.kind_ne_eof hv
  have heof : (!(Token.eof line position).isEof) = false := rfl
  rw [proper, Array.toList_append, List.filter_append, List.filter_eq_self.2 hne]
  simp [heof]

/-! ## Collected findings -/

/-- The diagnostic that a collection keeps for a finding. -/
def Finding.diagnostic (f : Finding) : Diagnostic :=
  .ofText f.line "" f.message.text

/-- A collection keeps all findings in their order. -/
theorem entries_report (c : Collection) (fs : List Finding) :
    (Scanner.report c fs).entries.toList = c.entries.toList ++ fs.map Finding.diagnostic := by
  induction fs generalizing c with
  | nil => simp [Scanner.report]
  | cons f fs ih =>
    have h := ih (Reporter.error c f.line f.message.text)
    rw [Scanner.report, List.foldl_cons]
    rw [Scanner.report] at h
    rw [h]
    simp [Reporter.error, Reporter.report, Collection.add, Finding.diagnostic]

end ScriptLexer
