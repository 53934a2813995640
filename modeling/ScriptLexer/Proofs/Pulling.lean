import Mathlib.Data.List.Basic
import ScriptLexer.Proofs.Coverage
import ScriptLexer.Proofs.TokenPlaces

/-!
# Tokens one at a time

A scanner that has been asked for some tokens stands behind the lexeme of the last one that it gave,
or behind all lexemes once it has given the end. What it has reported by then are the findings of
the lexemes that it has passed, and draining it gives what is left.

* `Scanner.pull`: what some requests give, and the scanner after them.
* `cut`: the lexemes passed by then, and those that are left.
* `Scanner.pull_before`, `Scanner.drain_pulled`: the requests, and draining the scanner after them.
* `Tiles.filter_before`: of regions that tile a text, those in front of one of them.
* `pull_agrees_with_drain`: a scan that is interrupted, and what it has reported.
-/

namespace ScriptLexer

/-! ## Cutting lexemes behind a token -/

/-- Lexemes cut behind the `k`-th that becomes a token, or behind all of them if there are fewer. -/
def cut : Nat → List Lexeme → List Lexeme × List Lexeme
  | 0, ls => ([], ls)
  | _ + 1, [] => ([], [])
  | k + 1, l :: ls =>
    match l.verdict with
    | .token _ => (l :: (cut k ls).1, (cut k ls).2)
    | _ => (l :: (cut (k + 1) ls).1, (cut (k + 1) ls).2)

section

variable {l : Lexeme} {ls : List Lexeme} {k : Nat} {p : Place}

@[simp] theorem cut_zero (ls : List Lexeme) : cut 0 ls = ([], ls) := by
  rw [cut]

theorem cut_token {shape : Shape} (hv : l.verdict = .token shape) :
    cut (k + 1) (l :: ls) = (l :: (cut k ls).1, (cut k ls).2) := by
  rw [cut]
  simp only [hv]

theorem cut_other (hv : ∀ shape, l.verdict ≠ .token shape) :
    cut (k + 1) (l :: ls) = (l :: (cut (k + 1) ls).1, (cut (k + 1) ls).2) := by
  rw [cut]
  split
  next shape h => exact absurd h (hv shape)
  · rfl

/-- A cut loses nothing. -/
theorem cut_append (k : Nat) (ls : List Lexeme) : (cut k ls).1 ++ (cut k ls).2 = ls := by
  fun_induction cut k ls with
  | case1 => rfl
  | case2 => rfl
  | case3 k l ls shape hv ih => rw [List.cons_append, ih]
  | case4 k l ls hv ih => rw [List.cons_append, ih]

theorem spell_cut (k : Nat) (ls : List Lexeme) :
    spell ls = spell (cut k ls).1 ++ spell (cut k ls).2 := by
  rw [← spell_append, cut_append]

theorem Chained.cut_rest (h : Chained ls) (k : Nat) : Chained (cut k ls).2 := by
  fun_induction cut k ls with
  | case1 => exact h
  | case2 => trivial
  | case3 k l ls shape hv ih => exact ih h.2
  | case4 k l ls hv ih => exact ih h.2

theorem tokensAt_cons_token {rest : List Char} (h : l.Reads rest) {shape : Shape}
    (hv : l.verdict = .token shape) (p : Place) (ls : List Lexeme) :
    ∃ t, Placed.token? ⟨p, l⟩ = some t ∧
      tokensAt p (l :: ls) = t :: tokensAt (p.after l.text) ls := by
  refine ⟨_, h.token?_eq hv p, ?_⟩
  rw [tokensAt_cons, h.token?_eq hv p]
  rfl

theorem tokensAt_cons_other (hv : ∀ shape, l.verdict ≠ .token shape) (p : Place)
    (ls : List Lexeme) : tokensAt p (l :: ls) = tokensAt (p.after l.text) ls := by
  have ht : Placed.token? ⟨p, l⟩ = none := by
    unfold Placed.token?
    split
    next shape hs => exact absurd hs (hv shape)
    · rfl
  rw [tokensAt_cons, ht]
  rfl

/-- The tokens of the lexemes in front of a cut. -/
theorem tokensAt_cut (h : Chained ls) (k : Nat) (p : Place) :
    tokensAt p (cut k ls).1 = (tokensAt p ls).take k := by
  fun_induction cut k ls generalizing p with
  | case1 => rfl
  | case2 => rfl
  | case3 k l ls shape hv ih =>
    obtain ⟨t, ht, hcut⟩ := tokensAt_cons_token h.1 hv p (cut k ls).1
    obtain ⟨t', ht', hls⟩ := tokensAt_cons_token h.1 hv p ls
    obtain rfl : t = t' := Option.some.inj (ht.symm.trans ht')
    rw [hcut, hls, List.take_succ_cons, ih h.2]
  | case4 k l ls hv ih =>
    rw [tokensAt_cons_other hv, tokensAt_cons_other hv, ih h.2]

/-- The tokens of the lexemes behind a cut. -/
theorem tokensAt_cut_rest (h : Chained ls) (k : Nat) (p : Place) :
    tokensAt (p.after (spell (cut k ls).1)) (cut k ls).2 = (tokensAt p ls).drop k := by
  have happ := tokensAt_append p (cut k ls).1 (cut k ls).2
  rw [cut_append, tokensAt_cut h] at happ
  exact List.append_cancel_left (happ.symm.trans (List.take_append_drop k _).symm)

/-- A cut behind more tokens than there are is one behind all lexemes. -/
theorem cut_eq_self (h : Chained ls) (hk : (tokensAt p ls).length < k) : cut k ls = (ls, []) := by
  fun_induction cut k ls generalizing p with
  | case1 => exact absurd hk (Nat.not_lt_zero _)
  | case2 => rfl
  | case3 k l ls shape hv ih =>
    obtain ⟨t, -, hls⟩ := tokensAt_cons_token h.1 hv p ls
    rw [hls, List.length_cons] at hk
    rw [ih h.2 (Nat.lt_of_succ_lt_succ hk)]
  | case4 k l ls hv ih =>
    rw [tokensAt_cons_other hv] at hk
    rw [ih h.2 hk]

/-- The lexemes in front of a cut end with that of its token. -/
theorem exists_cut_eq (h : Chained ls) {j : Nat} {t : Token} (ht : (tokensAt p ls)[j]? = some t) :
    ∃ front l, (cut (j + 1) ls).1 = front ++ [l] ∧
      Placed.token? ⟨p.after (spell front), l⟩ = some t := by
  induction ls generalizing p j with
  | nil => cases ht
  | cons m ls ih =>
    by_cases hv : ∃ shape, m.verdict = .token shape
    · obtain ⟨shape, hv⟩ := hv
      obtain ⟨u, hu, hls⟩ := tokensAt_cons_token h.1 hv p ls
      rw [hls] at ht
      rw [cut_token hv]
      cases j with
      | zero =>
        cases ht
        exact ⟨[], m, by simp, by simpa using hu⟩
      | succ j =>
        obtain ⟨front, l, hcut, hl⟩ := ih h.2 ht
        exact ⟨m :: front, l, by rw [hcut, List.cons_append], by simpa using hl⟩
    · have hv' : ∀ shape, m.verdict ≠ .token shape := fun shape hs => hv ⟨shape, hs⟩
      rw [tokensAt_cons_other hv'] at ht
      obtain ⟨front, l, hcut, hl⟩ := ih h.2 ht
      rw [cut_other hv']
      exact ⟨m :: front, l, by rw [hcut, List.cons_append], by simpa using hl⟩

end

/-! ## Requests -/

namespace Scanner

variable {ρ : Type} [Reporter ρ] {l : Lexeme} {ls : List Lexeme} {p : Place} {r : ρ}

/-- What `k` requests for a token give, and the scanner after them. -/
def pull : Nat → Scanner ρ → Except Fault (List (Option Token) × Scanner ρ)
  | 0, s => .ok ([], s)
  | k + 1, s => do
    let (token, s) ← s.next
    let (tokens, s) ← pull k s
    return (token :: tokens, s)

/-- The scanner that has passed the lexemes in front of a cut. The last of more requests than there
are tokens gives the end. -/
def pulled (k : Nat) (ls : List Lexeme) (p : Place) (r : ρ) : Scanner ρ :=
  ⟨spell (cut k ls).2, p.after (spell (cut k ls).1), report r (findingsAt p (cut k ls).1),
    decide ((tokensAt p ls).length < k)⟩

theorem pull_congr {s t : Scanner ρ} (h : s.next = t.next) (k : Nat) :
    pull (k + 1) s = pull (k + 1) t := by
  rw [pull, pull, h]

theorem pull_succ {s s' s'' : Scanner ρ} {token : Option Token} {tokens : List (Option Token)}
    {k : Nat} (h : s.next = .ok (token, s')) (hs : pull k s' = .ok (tokens, s'')) :
    pull (k + 1) s = .ok (token :: tokens, s'') := by
  rw [pull, h]
  simp only [bind, Except.bind, hs]
  rfl

/-- A scanner that has given the end gives nothing more. -/
theorem pull_ended (k : Nat) :
    pull k (ended ls p r) = .ok (List.replicate k none, ended ls p r) := by
  induction k with
  | zero => rfl
  | succ k ih => exact pull_succ next_ended ih

theorem range_map_cons (t : Token) (ts : List Token) (k : Nat) :
    ((List.range (k + 1)).map fun i => (t :: ts)[i]?) =
      some t :: (List.range k).map fun i => ts[i]? := by
  rw [List.range_succ_eq_map, List.map_cons, List.map_map]
  rfl

theorem pulled_token (h : l.Reads (spell ls)) {shape : Shape} (hv : l.verdict = .token shape)
    (k : Nat) : pulled (k + 1) (l :: ls) p r = pulled k ls (p.after l.text) r := by
  obtain ⟨t, -, hls⟩ := tokensAt_cons_token h hv p ls
  have hf : Placed.finding? ⟨p, l⟩ = none := by simp only [Placed.finding?, hv]
  simp only [pulled, cut_token hv, hls, findingsAt_cons, hf, spell_cons, Place.after_append,
    List.length_cons, Nat.add_lt_add_iff_right, Option.toList_none, List.nil_append]

theorem pulled_other (hv : ∀ shape, l.verdict ≠ .token shape) (k : Nat) :
    pulled (k + 1) (l :: ls) p r =
      pulled (k + 1) ls (p.after l.text) (report r (Placed.finding? ⟨p, l⟩).toList) := by
  simp only [pulled, cut_other hv, tokensAt_cons_other hv, findingsAt_cons, spell_cons,
    Place.after_append, report, List.foldl_append]

/-- **Requests in front of chained lexemes** give their tokens one after another, then the end, and
then nothing. -/
theorem pull_before (h : Chained ls) (hp : p.offset + Text.byteWidth (spell ls) < UInt32.size)
    (k : Nat) : pull k (before ls p r) =
      .ok ((List.range k).map fun i => (tokensAt p ls ++ [eofAt p ls])[i]?, pulled k ls p r) := by
  induction ls generalizing k p r with
  | nil =>
    cases k with
    | zero => rfl
    | succ k =>
      have hnone : ((List.range k).map fun i => ([] : List Token)[i]?) = List.replicate k none := by
        simp
      rw [pull_succ next_end (pull_ended k), tokensAt, placed_nil, List.filterMap_nil,
        List.nil_append, range_map_cons, hnone]
      rfl
  | cons l ls ih =>
    rw [spell_cons, Text.byteWidth_append] at hp
    have hrest : (p.after l.text).offset + Text.byteWidth (spell ls) < UInt32.size := by
      rw [Place.after_offset]; omega
    have heof : eofAt p (l :: ls) = eofAt (p.after l.text) ls := by
      rw [eofAt, eofAt, spell_cons, Place.after_append]
    cases k with
    | zero => simp [pull, pulled, before, findingsAt, report]
    | succ k =>
      -- the lexeme at the front is the first answer, or leaves all of them to the others
      cases hv : l.verdict with
      | token shape =>
        obtain ⟨t, ht, hn⟩ := next_token (p := p) (r := r) h hv (by omega)
        obtain ⟨u, hu, hls⟩ := tokensAt_cons_token h.1 hv p ls
        obtain rfl : t = u := Option.some.inj (ht.symm.trans hu)
        rw [pull_succ hn (ih h.2 hrest k), hls, List.cons_append, range_map_cons,
          pulled_token h.1 hv, heof]
      | skipped =>
        have hne : ∀ shape, l.verdict ≠ .token shape := by simp [hv]
        have hf : Placed.finding? ⟨p, l⟩ = none := by simp only [Placed.finding?, hv]
        rw [pull_congr (next_skipped h hv), ih h.2 hrest, tokensAt_cons_other hne,
          pulled_other hne, heof, hf]
        rfl
      | rejected message =>
        have hne : ∀ shape, l.verdict ≠ .token shape := by simp [hv]
        have hf : Placed.finding? ⟨p, l⟩ = some ⟨(p.after l.text).line, message⟩ := by
          simp only [Placed.finding?, hv, Placed.stop]
        rw [pull_congr (next_rejected h hv), ih h.2 hrest, tokensAt_cons_other hne,
          pulled_other hne, heof, hf]
        rfl

/-- A scanner that was asked for more than all tokens has given the end. -/
theorem pulled_eq_ended (h : Chained ls) {k : Nat} (hk : (tokensAt p ls).length < k) :
    pulled k ls p r = ended ls p r := by
  simp only [pulled, cut_eq_self h hk, decide_eq_true hk, ended, spell_nil]

/-- **Draining a scanner that was asked before** gives the tokens that are left and ends as a scan
that was not interrupted. -/
theorem drain_pulled (h : Chained ls) (hp : p.offset + Text.byteWidth (spell ls) < UInt32.size)
    (k : Nat) : (pulled k ls p r).drain =
      .ok (((tokensAt p ls ++ [eofAt p ls]).drop k).toArray, ended ls p r) := by
  by_cases hk : (tokensAt p ls).length < k
  · have hlen : (tokensAt p ls ++ [eofAt p ls]).length ≤ k := by
      rw [List.length_append, List.length_singleton]; omega
    rw [pulled_eq_ended h hk, drain, drainOnto_ended, List.drop_eq_nil_of_le hlen]
  · have hspell := spell_cut k ls
    have hs : pulled k ls p r = before (cut k ls).2 (p.after (spell (cut k ls).1))
        (report r (findingsAt p (cut k ls).1)) := by
      simp only [pulled, before, decide_eq_false hk]
    have hend : ended (cut k ls).2 (p.after (spell (cut k ls).1))
        (report r (findingsAt p (cut k ls).1)) = ended ls p r := by
      have hfind := findingsAt_append p (cut k ls).1 (cut k ls).2
      rw [cut_append] at hfind
      simp only [ended, hspell, Place.after_append, hfind, report, List.foldl_append]
    have heof : eofAt (p.after (spell (cut k ls).1)) (cut k ls).2 = eofAt p ls := by
      rw [eofAt, eofAt, hspell, Place.after_append]
    have hp' : (p.after (spell (cut k ls).1)).offset + Text.byteWidth (spell (cut k ls).2) <
        UInt32.size := by
      rw [hspell, Text.byteWidth_append] at hp
      rw [Place.after_offset]; omega
    rw [hs, drain, drainOnto_before #[] (h.cut_rest k) hp', hend, tokensAt_cut_rest h, ← heof,
      List.drop_append_of_le_length (by omega)]
    simp [eofAt]

end Scanner

/-! ## Interrupted scans -/

/-- Of regions that tile a text, those in front of one are those that begin before it. -/
theorem Tiles.filter_before {p : Place} {xs ys : List Region} {x : Region} {text : List Char}
    (h : Tiles p (xs ++ x :: ys) text) :
    (xs ++ x :: ys).filter (fun y => y.start.offset < x.start.offset) = xs := by
  obtain ⟨-, hback, hfront⟩ := List.pairwise_append.1 h.ordered
  have hlt : ∀ y ∈ xs ++ x :: ys, y.start.offset < y.stop.offset :=
    fun y hy => (h.mem_bounds hy).2.1
  have hf : ∀ y ∈ xs, decide (y.start.offset < x.start.offset) = true := by
    intro y hy
    have h1 := hlt y (List.mem_append_left _ hy)
    have h2 := hfront y hy x List.mem_cons_self
    rw [decide_eq_true_iff]
    omega
  have hb : ∀ y ∈ x :: ys, ¬ decide (y.start.offset < x.start.offset) = true := by
    intro y hy
    rw [decide_eq_true_iff]
    rcases List.mem_cons.1 hy with rfl | hy
    · omega
    · have h1 := hlt x (List.mem_append_right _ List.mem_cons_self)
      have h2 := (List.pairwise_cons.1 hback).1 y hy
      omega
  rw [List.filter_append, List.filter_eq_self.2 hf, List.filter_eq_nil_iff.2 hb, List.append_nil]

/-- What was reported after some requests are the rejected regions of the lexemes passed by then. -/
theorem entries_pulled {ls : List Lexeme} (h : Chained ls) (k : Nat) (p : Place) :
    (Scanner.pulled k ls p Collection.empty).reporter.entries.toList =
      ((placed p (cut k ls).1).map Placed.region).filterMap Region.diagnostic? := by
  have hreads : ∀ l ∈ (cut k ls).1, ∃ rest, l.Reads rest := by
    intro l hl
    have hmem : l ∈ (cut k ls).1 ++ (cut k ls).2 := List.mem_append_left _ hl
    rw [cut_append] at hmem
    exact h.reads_of_mem hmem
  rw [Scanner.pulled, entries_report, reported_placed hreads]
  rfl

/-- The regions of the lexemes in front of a cut are the first ones of the text. -/
theorem passed_isPrefix (k : Nat) (text : List Char) :
    (placed .start (cut k (lexemes text)).1).map Placed.region <+: regionsOf text := by
  refine ⟨(placed (Place.start.after (spell (cut k (lexemes text)).1))
    (cut k (lexemes text)).2).map Placed.region, ?_⟩
  rw [← List.map_append, ← placed_append, cut_append, regionsOf]

/-- **Once the end was given**, all rejected regions were reported: each begins before it. -/
theorem entries_pulled_end {source : String} {k : Nat}
    (hk : (tokensAt .start (lexemes source.toList)).length < k) :
    (Scanner.pulled k (lexemes source.toList) .start Collection.empty).reporter.entries.toList =
      ((regionsOf source.toList).filter fun x => x.start.offset < source.utf8ByteSize).filterMap
        Region.diagnostic? := by
  have hch := chained_lexemes source.toList
  have hall : ∀ x ∈ regionsOf source.toList,
      decide (x.start.offset < source.utf8ByteSize) = true := by
    intro x hx
    obtain ⟨-, hlt, hle⟩ := (tiles_regionsOf source.toList).mem_bounds hx
    rw [Place.start_offset, Text.byteWidth_toList] at hle
    rw [decide_eq_true_iff]
    omega
  rw [entries_pulled hch, cut_eq_self hch hk, List.filter_eq_self.2 hall, regionsOf]

section

variable {source : String} (h : source.utf8ByteSize < UInt32.size)
include h

/-- The position at which a token's span begins, read off its lexeme. -/
theorem start_of_token? {x : Placed} (hx : x.region ∈ regionsOf source.toList) {t : Token}
    (ht : x.token? = some t) : t.span.start.toNat = x.place.offset := by
  obtain ⟨shape, -, -, -, -, -, hspan⟩ := x.of_token? ht
  obtain ⟨-, hlt, hle⟩ := (tiles_regionsOf source.toList).mem_bounds hx
  have hbound : x.region.start.offset < UInt32.size := by
    rw [Place.start_offset, Text.byteWidth_toList] at hle
    omega
  rw [hspan]
  exact toNat_toUInt32 hbound

/-- **Once a token was given**, what was reported are the rejected regions that begin before it. -/
theorem entries_pulled_token {j : Nat} {t : Token}
    (ht : (tokensAt .start (lexemes source.toList))[j]? = some t) :
    (Scanner.pulled (j + 1) (lexemes source.toList) .start
        Collection.empty).reporter.entries.toList =
      ((regionsOf source.toList).filter fun x => x.start.offset < t.span.start.toNat).filterMap
        Region.diagnostic? := by
  have hch := chained_lexemes source.toList
  obtain ⟨front, l, hcut, hl⟩ := exists_cut_eq hch ht
  have hfront : (placed .start (cut (j + 1) (lexemes source.toList)).1).map Placed.region =
      (placed .start front).map Placed.region ++
        [Placed.region ⟨Place.start.after (spell front), l⟩] := by
    rw [hcut, placed_append, List.map_append]
    rfl
  obtain ⟨back, hback⟩ := passed_isPrefix (j + 1) source.toList
  rw [hfront, List.append_assoc, List.singleton_append] at hback
  have hmem : Placed.region ⟨Place.start.after (spell front), l⟩ ∈ regionsOf source.toList := by
    rw [← hback]
    exact List.mem_append_right _ List.mem_cons_self
  have htiles := tiles_regionsOf source.toList
  rw [← hback] at htiles
  -- the region of the token itself is not rejected
  have hnone : (Placed.region ⟨Place.start.after (spell front), l⟩).diagnostic? = none := by
    obtain ⟨shape, hv, -⟩ := Placed.of_token? hl
    rw [Region.diagnostic?, Placed.region, Lexeme.role_eq_token_iff.2 ⟨shape, hv⟩]
    rfl
  rw [entries_pulled hch, hfront, List.filterMap_append, List.filterMap_cons_none hnone,
    List.filterMap_nil, List.append_nil, start_of_token? h hmem hl, ← hback]
  exact congrArg _ htiles.filter_before.symm

/-- Requests at the beginning of a text. -/
theorem pull_ofText {ρ : Type} [Reporter ρ] (r : ρ) (k : Nat) :
    (Scanner.ofText source r).pull k =
      .ok ((List.range k).map fun i => (scanned source.toList)[i]?,
        .pulled k (lexemes source.toList) .start r) := by
  have hrun := Scanner.pull_before (p := .start) (r := r) (chained_lexemes source.toList)
    (by simpa [spell_lexemes] using h) k
  rwa [Scanner.before, spell_lexemes] at hrun

/-- What was reported by the time a token was given: the rejected regions that begin before it, also
where it is the end. -/
theorem entries_pulled_scanned {j : Nat} {t : Token} (ht : (scanned source.toList)[j]? = some t) :
    (Scanner.pulled (j + 1) (lexemes source.toList) .start
        Collection.empty).reporter.entries.toList =
      ((regionsOf source.toList).filter fun x => x.start.offset < t.span.start.toNat).filterMap
        Region.diagnostic? := by
  rw [scanned] at ht
  rcases Nat.lt_or_ge j (tokensAt .start (lexemes source.toList)).length with hj | hj
  · rw [List.getElem?_append_left hj] at ht
    exact entries_pulled_token h ht
  · rw [List.getElem?_append_right hj] at ht
    obtain rfl := List.mem_singleton.1 (List.mem_of_getElem? ht)
    have hstart : (eofAt .start (lexemes source.toList)).span.start.toNat =
        source.utf8ByteSize := by
      rw [eofAt, spell_lexemes, Place.after_offset, Place.start_offset, Text.byteWidth_toList,
        Nat.zero_add]
      exact toNat_toUInt32 h
    rw [hstart]
    exact entries_pulled_end (Nat.lt_succ_of_le hj)

end

/-- **Requests agree with draining, and findings are reported when a token asks for them.** The
first requests give the first tokens of a whole scan, and nothing beyond its end. What was reported
by then are the rejected parts of the text that begin before the last token given: nothing without a
request, everything with the end. Draining from there gives the tokens that are left, and the
scanner of the whole scan. -/
theorem pull_agrees_with_drain (source : String) (h : source.utf8ByteSize < UInt32.size) :
    ∃ tokens s regions, scan source Collection.empty = .ok (tokens, s) ∧
      Accounts source (proper tokens) s.reporter.entries.toList regions ∧
      ∀ k, ∃ s', (Scanner.ofText source Collection.empty).pull k =
          .ok ((List.range k).map fun i => tokens[i]?, s') ∧
        (k = 0 → s'.reporter.entries = #[]) ∧
        (∀ j t, k = j + 1 → tokens[j]? = some t → s'.reporter.entries.toList =
          (regions.filter fun x => x.start.offset < t.span.start.toNat).filterMap
            Region.diagnostic?) ∧
        (tokens.size ≤ k → s'.reporter = s.reporter) ∧
        s'.reporter.entries.toList <+: s.reporter.entries.toList ∧
        s'.drain = .ok (tokens.extract k tokens.size, s) := by
  have hch := chained_lexemes source.toList
  have hacc := accounts_regionsOf h
  refine ⟨_, _, regionsOf source.toList, scan_eq_scanned h Collection.empty, ?_, fun k =>
    ⟨_, by simpa using pull_ofText h Collection.empty k, ?_, ?_, ?_, ?_, ?_⟩⟩
  · rw [proper_scanned_toArray]
    exact hacc
  · rintro rfl
    apply Array.toList_inj.1
    rw [entries_pulled hch, cut_zero]
    rfl
  · rintro j t rfl ht
    exact entries_pulled_scanned h (by simpa using ht)
  · intro hk
    have hlen : (scanned source.toList).length ≤ k := by simpa using hk
    rw [length_scanned] at hlen
    rw [Scanner.pulled_eq_ended hch hlen]
  · have hprefix := (passed_isPrefix k source.toList).filterMap Region.diagnostic?
    rw [← entries_pulled hch, ← hacc.reported] at hprefix
    exact hprefix
  · have hdrop : (scanned source.toList).toArray.extract k (scanned source.toList).toArray.size =
        ((scanned source.toList).drop k).toArray := by
      rw [List.extract_toArray, List.size_toArray, List.extract_eq_take_drop,
        List.take_of_length_le (Nat.le_of_eq List.length_drop)]
    rw [hdrop]
    exact Scanner.drain_pulled hch (by simpa [spell_lexemes] using h) k

/-- A character that begins no lexeme, between two words: with the first word nothing is reported
yet. -/
theorem pull_in_front_of_rejected :
    "a@b".utf8ByteSize < UInt32.size ∧ ∃ tokens s s', scan "a@b" Collection.empty =
        .ok (tokens, s) ∧
      (Scanner.ofText "a@b" Collection.empty).pull 1 = .ok ([tokens[0]?], s') ∧
      s'.reporter.entries = #[] ∧ s'.drain = .ok (tokens.extract 1 3, s) ∧
      s.reporter.entries = #[.ofMessage .unexpectedCharacter 1] := by
  have hs : "a@b".utf8ByteSize < UInt32.size := by decide
  have hl : lexemes "a@b".toList = [⟨['a'], .token (.plain .identifier)⟩,
      ⟨['@'], .rejected .unexpectedCharacter⟩, ⟨['b'], .token (.plain .identifier)⟩] := by
    exact lexemes_eq_iff.2 ⟨rfl, .word rfl (by simp) ((Text.stops_cons _ _ _).2 rfl),
      .unexpected stray_at, .word rfl (by simp) (Text.stops_nil _), trivial⟩
  obtain ⟨tokens, s, regions, hscan, -, hk⟩ := pull_agrees_with_drain "a@b" hs
  have he := hscan.symm.trans (scan_eq Collection.empty hs)
  rw [hl] at he
  cases he
  obtain ⟨s', hpull, -, hentries, -, -, hdrain⟩ := hk 1
  have hnone := hentries 0 _ rfl rfl
  refine ⟨hs, _, _, s', hscan, hpull, ?_, hdrain, rfl⟩
  -- no region begins before the first byte
  apply Array.toList_inj.1
  rw [hnone]
  show (regions.filter fun x => x.start.offset < 0).filterMap Region.diagnostic? = []
  simp

end ScriptLexer
