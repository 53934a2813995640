import ScriptLexer.Text.Span

/-!
# The end of a span

A span has an end where the sum of its start and its length is a 32-bit position. There all
questions about it agree with the range of its bytes, and its two ends give it back. Elsewhere each
of them is the same fault, but for a position in front of the start.

* `Span.stop_eq_ok_iff`, `Span.stop_eq_error_iff`: when there is an end, and which.
* `Span.ofBounds_eq_ok_iff`: the span between two positions is the one that has these two ends.
* `Span.EndsAt`, `Span.Endless`: the answers about a span with an end, and about one without.
* `span_ends_within_positions`: which spans are of which sort.
-/

namespace ScriptLexer

namespace Span

variable {s : Span} {stop position a b : UInt32}

/-- **The end of a span** is the position that its start and its length add up to. -/
theorem stop_eq_ok_iff : s.stop = .ok stop ↔ stop.toNat = s.start.toNat + s.length.toNat := by
  unfold Span.stop
  split
  next h =>
    have hsum : (s.start + s.length).toNat = s.start.toNat + s.length.toNat := by
      rw [UInt32.toNat_add]
      exact Nat.mod_eq_of_lt h
    rw [Except.ok.injEq, ← UInt32.toNat_inj, hsum, eq_comm]
  next h =>
    have hlt : stop.toNat < UInt32.size := stop.toNat_lt
    exact iff_of_false (by simp) (by omega)

theorem stop_eq_error_iff :
    s.stop = .error .endOverflow ↔ UInt32.size ≤ s.start.toNat + s.length.toNat := by
  unfold Span.stop
  split
  next h => exact iff_of_false (by simp) (Nat.not_le.2 h)
  next h => exact iff_of_true rfl (Nat.not_lt.1 h)

theorem exists_stop_iff :
    (∃ stop, s.stop = .ok stop) ↔ s.start.toNat + s.length.toNat < UInt32.size := by
  constructor
  · rintro ⟨stop, h⟩
    rw [← stop_eq_ok_iff.1 h]
    exact stop.toNat_lt
  · intro h
    exact ⟨_, if_pos h⟩

theorem contains_of_lt (h : position < s.start) : s.contains position = .ok false :=
  if_pos h

theorem contains_of_le (h : s.start ≤ position) :
    s.contains position = s.stop.map fun stop => decide (position < stop) := by
  rw [contains, if_neg (UInt32.not_lt.2 h)]
  cases s.stop <;> rfl

/-- Bounds in the wrong order are the only ones that have no span. -/
theorem ofBounds_eq_error_iff {fault : Fault} :
    ofBounds a b = .error fault ↔ fault = .reversedBounds ∧ b < a := by
  unfold ofBounds
  split
  next h => exact iff_of_false (by simp) fun hand => UInt32.not_lt.2 h hand.2
  next h => simp only [Except.error.injEq, UInt32.not_le.1 h, and_true, eq_comm]

/-- **The span between two positions** is the one that begins at the first and ends at the other. -/
theorem ofBounds_eq_ok_iff : ofBounds a b = .ok s ↔ s.start = a ∧ s.stop = .ok b := by
  rw [stop_eq_ok_iff, ofBounds]
  constructor
  · intro h
    split at h
    next hle =>
      cases h
      have hnat := UInt32.le_iff_toNat_le.1 hle
      refine ⟨rfl, ?_⟩
      rw [UInt32.toNat_sub_of_le _ _ hle, Nat.add_sub_cancel' hnat]
    next => cases h
  · rintro ⟨rfl, hb⟩
    have hle : s.start ≤ b := UInt32.le_iff_toNat_le.2 (by omega)
    have hlength : b - s.start = s.length := by
      apply UInt32.toNat_inj.1
      rw [UInt32.toNat_sub_of_le _ _ hle]
      omega
    rw [if_pos hle, hlength]

/-! ## Spans with and without an end -/

/-- All answers about a span that has an end. -/
structure EndsAt (s : Span) (stop : UInt32) : Prop where
  sum : stop.toNat = s.start.toNat + s.length.toNat
  ends : s.stop = .ok stop
  range : s.range = .ok (s.start.toNat, stop.toNat)
  dotted : s.dotted = .ok (s.start.toNat.repr ++ ".." ++ stop.toNat.repr)
  interval : s.interval = .ok ("[" ++ s.start.toNat.repr ++ ", " ++ stop.toNat.repr ++ ")")
  contains : ∀ position, s.contains position =
    .ok (decide (s.start.toNat ≤ position.toNat ∧ position.toNat < stop.toNat))
  bounds : ofBounds s.start stop = .ok s
  isEmpty : s.isEmpty = true ↔ ∀ position, s.contains position = .ok false

/-- All answers about a span that has no end. -/
structure Endless (s : Span) : Prop where
  ends : s.stop = .error .endOverflow
  range : s.range = .error .endOverflow
  dotted : s.dotted = .error .endOverflow
  interval : s.interval = .error .endOverflow
  contains : ∀ position, s.contains position = .error .endOverflow ↔ s.start ≤ position

/-- A span has a position unless its length is zero. -/
theorem isEmpty_iff (h : stop.toNat = s.start.toNat + s.length.toNat) :
    s.isEmpty = true ↔ ∀ position : UInt32,
      ¬ (s.start.toNat ≤ position.toNat ∧ position.toNat < stop.toNat) := by
  have hzero : s.isEmpty = true ↔ s.length.toNat = 0 := by
    rw [Span.isEmpty, beq_iff_eq, ← UInt32.toNat_inj]
    rfl
  rw [hzero]
  constructor
  · intro hlength position hin
    omega
  · intro hnone
    -- the start itself lies in a span that has a byte
    have hstart := hnone s.start
    omega

theorem EndsAt.of_stop (h : s.stop = .ok stop) : s.EndsAt stop := by
  have hsum := stop_eq_ok_iff.1 h
  have hcontains (position : UInt32) : s.contains position =
      .ok (decide (s.start.toNat ≤ position.toNat ∧ position.toNat < stop.toNat)) := by
    rcases UInt32.lt_or_le position s.start with hlt | hle
    · have hnat : ¬ s.start.toNat ≤ position.toNat := Nat.not_le.2 (UInt32.lt_iff_toNat_lt.1 hlt)
      rw [contains_of_lt hlt, decide_eq_false fun hin => hnat hin.1]
    · have hnat := UInt32.le_iff_toNat_le.1 hle
      simp only [contains_of_le hle, h, Except.map, UInt32.lt_iff_toNat_lt, hnat, true_and]
  refine ⟨hsum, h, ?_, ?_, ?_, hcontains, ofBounds_eq_ok_iff.2 ⟨rfl, h⟩, ?_⟩
  · rw [Span.range, h]
    rfl
  · rw [Span.dotted, h]
    rfl
  · rw [Span.interval, h]
    rfl
  · simp only [hcontains, Except.ok.injEq, decide_eq_false_iff_not, isEmpty_iff hsum]

theorem Endless.of_stop (h : s.stop = .error .endOverflow) : s.Endless := by
  refine ⟨h, ?_, ?_, ?_, fun position => ?_⟩
  · rw [Span.range, h]
    rfl
  · rw [Span.dotted, h]
    rfl
  · rw [Span.interval, h]
    rfl
  · rcases UInt32.lt_or_le position s.start with hlt | hle
    · rw [contains_of_lt hlt]
      exact iff_of_false (by simp) (UInt32.not_le.2 hlt)
    · rw [contains_of_le hle, h]
      exact iff_of_true rfl hle

end Span

/-- **The questions about a span** whose start and length are any two words. All of them are faults
if the end is past the last position, and else all of them agree with the range; a position in front
of the start is always answered. Two positions have a span with this range if they are in order, and
else a fault. -/
theorem span_ends_within_positions (s : Span) (a b : UInt32) :
    (s.Endless ↔ UInt32.size ≤ s.start.toNat + s.length.toNat) ∧
    ((∃ stop, s.EndsAt stop) ↔ s.start.toNat + s.length.toNat < UInt32.size) ∧
    (∀ position, position < s.start → s.contains position = .ok false) ∧
    (∀ fault, Span.ofBounds a b = .error fault ↔ fault = .reversedBounds ∧ b < a) ∧
    ((∃ t, Span.ofBounds a b = .ok t ∧ t.range = .ok (a.toNat, b.toNat)) ↔ a ≤ b) := by
  refine ⟨⟨fun h => ?_, fun h => ?_⟩, ⟨?_, fun h => ?_⟩, fun _ => Span.contains_of_lt,
    fun fault => Span.ofBounds_eq_error_iff, ?_, fun h => ?_⟩
  · exact Span.stop_eq_error_iff.1 h.ends
  · exact .of_stop (Span.stop_eq_error_iff.2 h)
  · rintro ⟨stop, h⟩
    exact Span.exists_stop_iff.1 ⟨stop, h.ends⟩
  · obtain ⟨stop, hstop⟩ := Span.exists_stop_iff.2 h
    exact ⟨stop, .of_stop hstop⟩
  · rintro ⟨t, ht, -⟩
    refine UInt32.not_lt.1 fun hlt => ?_
    rw [Span.ofBounds_eq_error_iff.2 ⟨rfl, hlt⟩] at ht
    cases ht
  · have hspan : Span.ofBounds a b = .ok ⟨a, b - a⟩ := if_pos h
    refine ⟨_, hspan, ?_⟩
    exact (Span.EndsAt.of_stop (Span.ofBounds_eq_ok_iff.1 hspan).2).range

/-- A span that ends at the last position, one that is a byte longer, and two positions in both
orders. -/
theorem span_ends_at_last_position :
    (Span.mk 1 4294967294).range = .ok (1, 4294967295) ∧ (Span.mk 1 4294967295).Endless ∧
      (Span.mk 1 4294967295).contains 0 = .ok false ∧
      Span.ofBounds 2 1 = .error .reversedBounds ∧
      ∃ t, Span.ofBounds 1 2 = .ok t ∧ t.range = .ok (1, 2) := by
  obtain ⟨-, hends, -, -, hordered⟩ := span_ends_within_positions ⟨1, 4294967294⟩ 1 2
  obtain ⟨hendless, -, hfront, hreversed, -⟩ := span_ends_within_positions ⟨1, 4294967295⟩ 2 1
  obtain ⟨stop, hstop⟩ := hends.2 (by decide)
  have hlast : stop.toNat = 4294967295 := hstop.sum
  refine ⟨?_, hendless.2 (by decide), hfront 0 (by decide), (hreversed _).2 ⟨rfl, by decide⟩,
    hordered.2 (by decide)⟩
  rw [hstop.range, hlast]
  rfl

end ScriptLexer
