import ScriptLexer.Proofs.Faithful

/-!
# The tokens that a scanner gives

A scanner gives its tokens one request after another. Of a text whose positions do not fit 32 bits
it gives some, and then there may be a fault instead of the next, so no list of all tokens comes
out. What is said of each token that is given holds of those in front of a fault, too.

* `Scanner.sought_seek`: what a request finds, whatever the positions.
* `Scanner.Gives`: the tokens that a scanner gives.
* `Scanner.Gives.describes`: the kind of each describes its lexeme and its value.
* `gives_of_mem_scan`: the tokens of a scan are given.
-/

namespace ScriptLexer

/-- What the token of a shape is made of, at whatever places it was made. -/
theorem Shape.of_token {shape : Shape} {text : List Char} {start stop : Place} {t : Token}
    (h : shape.token text start stop = .ok t) :
    t.kind = shape.kind ∧ t.lexeme = .ofList text ∧ t.literal = shape.literal ∧
      Span.ofRange start.offset stop.offset = .ok t.span := by
  unfold token at h
  cases hspan : Span.ofRange start.offset stop.offset with
  | error fault => simp [hspan, bind, Except.bind] at h
  | ok span =>
    simp only [hspan, bind, Except.bind] at h
    cases shape with
    | plain kind =>
      dsimp only [Token.plain] at h
      split at h
      · cases h
        exact ⟨rfl, rfl, rfl, rfl⟩
      · cases h
    | number value =>
      cases h
      exact ⟨rfl, rfl, rfl, rfl⟩
    | string content =>
      cases h
      exact ⟨rfl, rfl, rfl, rfl⟩

namespace Scanner

variable {ρ : Type} [Reporter ρ]

/-- A scanner gives a token, with the next request or a later one. -/
inductive Gives : Scanner ρ → Token → Prop
  | now {s rest : Scanner ρ} {t : Token} (h : s.next = .ok (some t, rest)) : Gives s t
  | later {s rest : Scanner ρ} {u t : Token} (h : s.next = .ok (some u, rest))
      (ht : Gives rest t) : Gives s t

variable {s rest : Scanner ρ} {t : Token}

/-- What a request finds in a text that begins at a place: behind some characters a lexeme whose
token is given, or one whose token is a fault, or behind all of them the end. -/
inductive Sought (pending : List Char) (place : Place)
    (answer : Except Fault (Token × Scanner ρ)) : Prop
  | given {skipped after : List Char} {l : Lexeme} {shape : Shape} {t : Token} (r : ρ)
      (hp : pending = skipped ++ (l.text ++ after)) (hl : l.Reads after)
      (hv : l.verdict = .token shape)
      (ht : shape.token l.text (place.after skipped) (place.after (skipped ++ l.text)) = .ok t)
      (h : answer = .ok (t, ⟨after, place.after (skipped ++ l.text), r, false⟩))
  | fault {skipped after : List Char} {l : Lexeme} {shape : Shape} {fault : Fault}
      (hp : pending = skipped ++ (l.text ++ after)) (hl : l.Reads after)
      (hv : l.verdict = .token shape)
      (ht : shape.token l.text (place.after skipped) (place.after (skipped ++ l.text)) =
        .error fault)
      (h : answer = .error fault)
  | ending (r : ρ) (h : answer = .ok (.eof (place.after pending).line
      (place.after pending).offset.toUInt32, ⟨[], place.after pending, r, true⟩))

omit [Reporter ρ] in
/-- A lexeme that is passed makes no difference to what is found behind it. -/
theorem Sought.pass {c : Char} {cs : List Char} {place : Place}
    {answer : Except Fault (Token × Scanner ρ)}
    (h : Sought (Lexeme.first c cs).2 (place.after (Lexeme.first c cs).1.text) answer) :
    Sought (c :: cs) place answer := by
  have hfirst := Lexeme.first_append c cs
  have hplace (cs' : List Char) := Place.after_append place (Lexeme.first c cs).1.text cs'
  cases h with
  | given r hp hl hv ht h =>
    rw [hp, ← List.append_assoc] at hfirst
    rw [← hplace, ← hplace, ← List.append_assoc] at ht
    rw [← hplace, ← List.append_assoc] at h
    exact .given r hfirst.symm hl hv ht h
  | fault hp hl hv ht h =>
    rw [hp, ← List.append_assoc] at hfirst
    rw [← hplace, ← hplace, ← List.append_assoc] at ht
    exact .fault hfirst.symm hl hv ht h
  | ending r h =>
    rw [← hplace, hfirst] at h
    exact .ending r h

/-- **A request in closed form.** -/
theorem sought_seek (pending : List Char) (place : Place) (r : ρ) :
    Sought pending place (seek pending place r) := by
  fun_induction seek pending place r with
  | case1 place r => exact .ending r (by rw [Place.after_nil])
  | case2 place r c cs found stop hv ih => exact ih.pass
  | case3 place r c cs found stop message hv ih => exact ih.pass
  | case4 place r c cs found stop shape hv =>
    have hpending : c :: cs = [] ++ (found.1.text ++ found.2) := (Lexeme.first_append c cs).symm
    have hreads := Lexeme.first_reads c cs
    cases ht : shape.token found.1.text place stop with
    | error fault =>
      refine .fault hpending hreads hv ?_ rfl
      rwa [Place.after_nil]
    | ok t =>
      refine .given r hpending hreads hv ?_ rfl
      rwa [Place.after_nil]

/-- The kind of the first token of what is left describes it. -/
theorem seek_describes {pending : List Char} {place : Place} {r : ρ}
    (h : seek pending place r = .ok (t, rest)) : t.kind.Describes t.lexeme t.literal := by
  have hsought := sought_seek pending place r
  rw [h] at hsought
  cases hsought with
  | given r hp hl hv ht h =>
    cases h
    obtain ⟨hkind, hlexeme, hliteral, -⟩ := Shape.of_token ht
    rw [hkind, hlexeme, hliteral]
    exact hl.describes hv
  | fault hp hl hv ht h => cases h
  | ending r h =>
    cases h
    exact ⟨rfl, rfl⟩

/-- A request that gives a token has found it as the first of what is left. -/
theorem seek_of_next (h : s.next = .ok (some t, rest)) :
    seek s.pending s.place s.reporter = .ok (t, rest) := by
  unfold next at h
  split at h
  · cases h
  · cases hs : seek s.pending s.place s.reporter with
    | error fault => simp [hs, bind, Except.bind] at h
    | ok found =>
      simp only [hs, bind, Except.bind, pure, Except.pure, Except.ok.injEq, Prod.mk.injEq,
        Option.some.injEq] at h
      rw [← h.1, ← h.2]

/-- A request that fails has failed for the first of what is left. -/
theorem seek_of_next_error {fault : Fault} (h : s.next = .error fault) :
    seek s.pending s.place s.reporter = .error fault := by
  unfold next at h
  split at h
  · cases h
  · cases hs : seek s.pending s.place s.reporter with
    | error found =>
      simp only [hs, bind, Except.bind, Except.error.injEq] at h
      rw [h]
    | ok found => simp [hs, bind, Except.bind, pure, Except.pure] at h

/-- **The kind of every token that is given describes its lexeme and value.** -/
theorem Gives.describes (h : s.Gives t) : t.kind.Describes t.lexeme t.literal := by
  induction h with
  | now h => exact seek_describes (seek_of_next h)
  | later h ht ih => exact ih

theorem gives_of_mem_drainOnto {taken tokens : Array Token}
    (h : drainOnto taken s = .ok (tokens, rest)) (ht : t ∈ tokens) : t ∈ taken ∨ s.Gives t := by
  fun_induction drainOnto taken s with
  | case1 => cases h
  | case2 => cases h; exact .inl ht
  | case3 taken s u left hnext _ ih =>
    rcases ih h with hmem | hgives
    · rcases Array.mem_push.1 hmem with hmem | rfl
      · exact .inl hmem
      · exact .inr (.now hnext)
    · exact .inr (.later hnext hgives)

end Scanner

/-- **The tokens of a scan are given** by the scanner at the beginning of its text. -/
theorem gives_of_mem_scan {ρ : Type} [Reporter ρ] {source : String} {r : ρ} {tokens : Array Token}
    {s : Scanner ρ} (h : scan source r = .ok (tokens, s)) {t : Token} (ht : t ∈ tokens) :
    (Scanner.ofText source r).Gives t :=
  (Scanner.gives_of_mem_drainOnto h ht).resolve_left (Array.not_mem_empty t)

end ScriptLexer
