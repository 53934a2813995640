import ScriptLexer.Proofs.Pulling

/-!
# Every scan ends, and once

A request for a token takes at least one character with every lexeme that it passes, so it ends
after at most as many rounds as there are characters left. The tokens and findings of a text are
paid for by different lexemes, and so by different characters. The last token marks the end, no
other does, and a scanner that has given it stays as it is.

* `Scanner.nextWithin`: a request that gives up after a number of rounds.
* `Scanner.nextWithin_eq_next`: it does not give up before the characters do.
* `length_tokensAt_add_findingsAt_le`: a lexeme leaves a token or a finding, and not both.
* `scan_ends_with_one_end`: how every scan ends.
-/

namespace ScriptLexer

/-! ## The rounds of a request -/

namespace Scanner

variable {ρ : Type} [Reporter ρ]

/-- A search for a token that takes one lexeme in a round and gives up after `n` rounds. -/
def seekWithin : Nat → List Char → Place → ρ → Option (Except Fault (Token × Scanner ρ))
  | _, [], place, reporter =>
    some (.ok (.eof place.line place.offset.toUInt32, ⟨[], place, reporter, true⟩))
  | 0, _ :: _, _, _ => none
  | n + 1, c :: cs, place, reporter =>
    let found := Lexeme.first c cs
    let stop := place.after found.1.text
    match found.1.verdict with
    | .skipped => seekWithin n found.2 stop reporter
    | .rejected message =>
      seekWithin n found.2 stop (Reporter.error reporter stop.line message.text)
    | .token shape => some do
      let token ← shape.token found.1.text place stop
      return (token, ⟨found.2, stop, reporter, false⟩)

/-- A request that gives up after `n` rounds. -/
def nextWithin (n : Nat) (s : Scanner ρ) : Option (Except Fault (Option Token × Scanner ρ)) :=
  if s.finished then some (.ok (none, s)) else
    (seekWithin n s.pending s.place s.reporter).map fun answer => do
      let (token, rest) ← answer
      return (some token, rest)

section

variable {n : Nat} {c : Char} {cs : List Char} {p : Place} {r : ρ}

theorem seekWithin_skipped (hv : (Lexeme.first c cs).1.verdict = .skipped) :
    seekWithin (n + 1) (c :: cs) p r =
      seekWithin n (Lexeme.first c cs).2 (p.after (Lexeme.first c cs).1.text) r := by
  simp only [seekWithin, hv]

theorem seekWithin_rejected {message : Message}
    (hv : (Lexeme.first c cs).1.verdict = .rejected message) :
    seekWithin (n + 1) (c :: cs) p r =
      seekWithin n (Lexeme.first c cs).2 (p.after (Lexeme.first c cs).1.text)
        (Reporter.error r (p.after (Lexeme.first c cs).1.text).line message.text) := by
  simp only [seekWithin, hv]

theorem seekWithin_token {shape : Shape} (hv : (Lexeme.first c cs).1.verdict = .token shape) :
    seekWithin (n + 1) (c :: cs) p r = some (do
      let token ← shape.token (Lexeme.first c cs).1.text p (p.after (Lexeme.first c cs).1.text)
      return (token, ⟨(Lexeme.first c cs).2, p.after (Lexeme.first c cs).1.text, r, false⟩)) := by
  simp only [seekWithin, hv]

end

/-- **A search ends after at most as many rounds as there are characters.** Each lexeme, a comment
without text and a rejected character too, leaves fewer of them. -/
theorem seekWithin_eq_seek (pending : List Char) (place : Place) (reporter : ρ) :
    ∀ n, pending.length ≤ n →
      seekWithin n pending place reporter = some (seek pending place reporter) := by
  fun_induction seek pending place reporter with
  | case1 place reporter =>
    intro n _
    rw [seekWithin]
  | case2 place reporter c cs found stop hv ih =>
    intro n hn
    have hlt : found.2.length < (c :: cs).length := Lexeme.first_rest_lt c cs
    cases n with
    | zero => cases hn
    | succ n =>
      rw [seekWithin_skipped hv]
      exact ih n (by omega)
  | case3 place reporter c cs found stop message hv ih =>
    intro n hn
    have hlt : found.2.length < (c :: cs).length := Lexeme.first_rest_lt c cs
    cases n with
    | zero => cases hn
    | succ n =>
      rw [seekWithin_rejected hv]
      exact ih n (by omega)
  | case4 place reporter c cs found stop shape hv =>
    intro n hn
    cases n with
    | zero => cases hn
    | succ n => exact seekWithin_token hv

/-- **A request ends after at most as many rounds as there are characters left.** -/
theorem nextWithin_eq_next (s : Scanner ρ) : s.nextWithin s.pending.length = some s.next := by
  unfold nextWithin next
  by_cases hf : s.finished = true
  · rw [if_pos hf, if_pos hf]
  · rw [if_neg hf, if_neg hf, seekWithin_eq_seek _ _ _ _ (Nat.le_refl _), Option.map_some]

/-- A scanner that can be drained answers the next request. -/
theorem exists_next_of_drain {s s' : Scanner ρ} {tokens : Array Token}
    (h : s.drain = .ok (tokens, s')) : ∃ answer, s.next = .ok answer := by
  cases hn : s.next with
  | ok answer => exact ⟨answer, rfl⟩
  | error fault =>
    rw [drain, drainOnto] at h
    split at h <;> simp_all

end Scanner

/-! ## What characters are paid for -/

/-- A text has no more lexemes than characters. -/
theorem length_lexemes_le (text : List Char) : (lexemes text).length ≤ text.length := by
  fun_induction lexemes text with
  | case1 => exact Nat.le_refl 0
  | case2 c cs ih =>
    have hlt := Lexeme.first_rest_lt c cs
    rw [List.length_cons]
    omega

/-- A lexeme that becomes a token leaves no finding. -/
theorem Placed.length_token?_add_finding?_le (x : Placed) :
    x.token?.toList.length + x.finding?.toList.length ≤ 1 := by
  cases hv : x.lexeme.verdict with
  | token shape =>
    have hf : x.finding? = none := by simp only [finding?, hv]
    rw [hf]
    cases x.token? <;> simp
  | skipped =>
    have ht : x.token? = none := by simp only [token?, hv]
    have hf : x.finding? = none := by simp only [finding?, hv]
    rw [ht, hf]
    simp
  | rejected message =>
    have ht : x.token? = none := by simp only [token?, hv]
    rw [ht]
    cases x.finding? <;> simp

/-- **No lexeme is paid for twice**: the tokens and the findings together are no more than the
lexemes. -/
theorem length_tokensAt_add_findingsAt_le (p : Place) (ls : List Lexeme) :
    (tokensAt p ls).length + (findingsAt p ls).length ≤ ls.length := by
  induction ls generalizing p with
  | nil => exact Nat.le_refl 0
  | cons l ls ih =>
    have hone := Placed.length_token?_add_finding?_le ⟨p, l⟩
    have hrest := ih (p.after l.text)
    rw [tokensAt_cons, findingsAt_cons, List.length_append, List.length_append, List.length_cons]
    omega

/-! ## The end -/

/-- A token that marks the end of a text: it carries nothing and stands behind all bytes. -/
structure Token.IsEnd (source : String) (t : Token) : Prop where
  kind : t.kind = .eof
  lexeme : t.lexeme = ""
  literal : t.literal = .none
  length : t.span.length = 0
  range : t.span.range = .ok (source.utf8ByteSize, source.utf8ByteSize)

/-- The token behind the lexemes of a text marks its end. -/
theorem eofAt_isEnd {source : String} (h : source.utf8ByteSize < UInt32.size) :
    (eofAt .start (lexemes source.toList)).IsEnd source := by
  have hspell := spell_lexemes source.toList
  have hsize : Text.byteWidth (spell (lexemes source.toList)) < UInt32.size := by
    rwa [hspell, Text.byteWidth_toList]
  have hrange := (eofAt_between hsize).range
  rw [hspell, Text.byteWidth_toList, Text.byteWidth_nil, Nat.add_zero] at hrange
  exact ⟨rfl, rfl, rfl, rfl, hrange⟩

/-- No token of a lexeme marks the end. -/
theorem kind_ne_eof_of_mem_tokensAt {ls : List Lexeme} (h : Chained ls) {p : Place} {t : Token}
    (ht : t ∈ tokensAt p ls) : t.kind ≠ .eof := by
  obtain ⟨x, hx, shape, hv, hk, -⟩ := mem_tokensAt ht
  obtain ⟨rest, hr⟩ := h.reads_of_mem_placed hx
  rw [hk]
  exact hr.kind_ne_eof hv

/-- The tokens and the findings of a text are no more than its characters and the end. -/
theorem length_scanned_add_findingsAt_le (source : String) :
    (scanned source.toList).length + (findingsAt .start (lexemes source.toList)).length ≤
      source.length + 1 := by
  have hcount := length_tokensAt_add_findingsAt_le .start (lexemes source.toList)
  have hlen := length_lexemes_le source.toList
  rw [String.length_toList] at hlen
  rw [length_scanned]
  omega

/-- **A scanner that has given the end stays as it is.** Of the answers to some requests one is the
end only if the requests went past all lexemes. -/
theorem pulled_of_end_mem {text : List Char} {k : Nat}
    (hmem : some (eofAt .start (lexemes text)) ∈ (List.range k).map fun i => (scanned text)[i]?)
    {ρ : Type} [Reporter ρ] (r : ρ) :
    Scanner.pulled k (lexemes text) .start r = .ended (lexemes text) .start r := by
  have hch := chained_lexemes text
  obtain ⟨i, hi, hget⟩ := List.mem_map.1 hmem
  have hik := List.mem_range.1 hi
  apply Scanner.pulled_eq_ended hch
  by_contra hle
  -- the end would be the token of a lexeme
  have hlt : i < (tokensAt .start (lexemes text)).length := by omega
  rw [scanned, List.getElem?_append_left hlt] at hget
  exact kind_ne_eof_of_mem_tokensAt hch (List.mem_of_getElem? hget) rfl

/-- **Every scan ends, and once.** The last token of a scan marks the end and no other does, and the
tokens and diagnostics together are no more than the characters and the end. For any reporter and
after any number of requests, a request is answered within as many rounds as there are characters
left; and once the end was given, all later requests give nothing and leave the scanner as it is. -/
theorem scan_ends_with_one_end (source : String) (h : source.utf8ByteSize < UInt32.size) :
    ∃ front last, last.IsEnd source ∧ (∀ t ∈ front, t.kind ≠ .eof) ∧
      (∃ s, scan source Collection.empty = .ok ((front ++ [last]).toArray, s) ∧
        (front ++ [last]).length + s.reporter.entries.size ≤ source.length + 1) ∧
      ∀ {ρ : Type} [Reporter ρ] (r : ρ),
        (∃ s, scan source r = .ok ((front ++ [last]).toArray, s)) ∧
        ∀ k, ∃ returned s, (Scanner.ofText source r).pull k = .ok (returned, s) ∧
          (∃ answer, s.nextWithin s.pending.length = some (.ok answer) ∧ s.next = .ok answer) ∧
          (some last ∈ returned → ∀ n, s.pull n = .ok (List.replicate n none, s)) := by
  have hch := chained_lexemes source.toList
  refine ⟨tokensAt .start (lexemes source.toList), eofAt .start (lexemes source.toList),
    eofAt_isEnd h, fun t ht => kind_ne_eof_of_mem_tokensAt hch ht, ?_, ?_⟩
  · refine ⟨_, scan_eq_scanned h Collection.empty, ?_⟩
    have hcount := length_scanned_add_findingsAt_le source
    have hentries := entries_report Collection.empty (findingsAt .start (lexemes source.toList))
    have hsize := congrArg List.length hentries
    rw [List.length_append, List.length_map, Array.length_toList] at hsize
    rw [scanned] at hcount
    simp only [Scanner.ended, hsize]
    simpa [Collection.empty] using hcount
  · intro ρ _ r
    refine ⟨⟨_, scan_eq_scanned h r⟩, fun k => ⟨_, _, pull_ofText h r k, ?_, ?_⟩⟩
    · -- what is left can be drained, so the next request is answered
      have hsize : Place.start.offset + Text.byteWidth (spell (lexemes source.toList)) <
          UInt32.size := by
        simpa [spell_lexemes] using h
      obtain ⟨answer, hanswer⟩ := Scanner.exists_next_of_drain (Scanner.drain_pulled (r := r) hch hsize k)
      exact ⟨answer, by rw [Scanner.nextWithin_eq_next, hanswer], hanswer⟩
    · intro hmem n
      rw [pulled_of_end_mem hmem r]
      exact Scanner.pull_ended n

/-- A word, a comment without text and a character that begins no lexeme: the second request passes
the last two and gives the end, and later ones give nothing. -/
theorem end_behind_rejected :
    "a//\n@".utf8ByteSize < UInt32.size ∧ ∃ first last s s',
      last.IsEnd "a//\n@" ∧ first.kind ≠ .eof ∧
      scan "a//\n@" Collection.empty = .ok (#[first, last], s) ∧ s.reporter.entries.size = 1 ∧
      (Scanner.ofText "a//\n@" Collection.empty).pull 2 = .ok ([some first, some last], s') ∧
      ∀ n, s'.pull n = .ok (List.replicate n none, s') := by
  have hs : "a//\n@".utf8ByteSize < UInt32.size := by decide
  have hl : lexemes "a//\n@".toList = [⟨['a'], .token (.plain (.ofWord "a"))⟩,
      ⟨['/', '/'], .skipped⟩, .blank '\n', ⟨['@'], .rejected .unexpectedCharacter⟩] := by
    exact lexemes_eq_iff.2 ⟨rfl, .word rfl (by simp) ((Text.stops_cons _ _ _).2 rfl),
      .comment List.not_mem_nil ((Text.stops_cons _ _ _).2 rfl), .blank (.inl rfl),
      .unexpected stray_at, trivial⟩
  obtain ⟨front, last, hlast, hfront, ⟨s, hscan, -⟩, hall⟩ := scan_ends_with_one_end "a//\n@" hs
  obtain ⟨returned, s', hpull, -, hend⟩ := (hall Collection.empty).2 2
  have he := hscan.symm.trans (scan_eq_scanned hs Collection.empty)
  have hp := hpull.symm.trans (pull_ofText hs Collection.empty 2)
  rw [scanned, hl] at he hp
  obtain ⟨htokens, rfl⟩ := Prod.mk.inj (Except.ok.inj he)
  obtain ⟨rfl, -⟩ := Prod.mk.inj (Except.ok.inj hp)
  obtain ⟨rfl, hend'⟩ := List.append_inj' (List.toArray_inj htokens) rfl
  obtain rfl := (List.cons.inj hend').1
  exact ⟨hs, _, _, _, s', hlast, hfront _ List.mem_cons_self, hscan, rfl, hpull,
    hend (List.mem_cons_of_mem _ List.mem_cons_self)⟩

end ScriptLexer
