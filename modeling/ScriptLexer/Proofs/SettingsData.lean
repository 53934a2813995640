import ScriptLexer.Proofs.DataGrammar
import ScriptLexer.Settings.Reading

/-!
# What data says as settings

Data says settings as an object of named fields, or as a list of all four values in their order. A
value may be null, a format may be written as an object with its name and null, and a size is a
natural number of 64 bits. This is a function of the data alone, however it is spelled.

* `Field.value?`: the value that data gives a field.
* `Draft.fill`: the fields with one more member of an object.
* `Json.settings?`: the settings that data says.
* `Numeral.Written.value?_eq_natural_iff`: how natural numbers are written.
* `Draft.isSome_foldlM_fill_iff`: which members can be read together.
-/

namespace ScriptLexer

/-! ## Values -/

namespace Json

/-- Null, or what other data says. -/
def orNull? {α : Type} (value? : Json → Option α) : Json → Option (Option α)
  | null => some none
  | v => (value? v).map some

def format? : Json → Option TokenFormat
  | string name => TokenFormat.ofName? name
  | object [(name, null)] => TokenFormat.ofName? name
  | _ => none

def boolean? : Json → Option Bool
  | boolean value => some value
  | _ => none

/-- The size that a number is, if it is written as a natural number and fits 64 bits. -/
def size? : Json → Option UInt64
  | number w =>
    match w.value? with
    | some (.natural n) => some n
    | _ => none
  | _ => none

end Json

/-- The value that data gives a field. -/
def Field.value? : (field : Field) → Json → Option { v : FieldValue // v.field = field }
  | .tokenFormat, v =>
    (v.orNull? Json.format?).map fun x => ⟨.tokenFormat x, FieldValue.field_tokenFormat x⟩
  | .color, v =>
    (v.orNull? Json.boolean?).map fun x => ⟨.color x, FieldValue.field_color x⟩
  | .history, v =>
    (v.orNull? Json.boolean?).map fun x => ⟨.history x, FieldValue.field_history x⟩
  | .maxHistorySize, v =>
    (v.orNull? Json.size?).map fun x => ⟨.maxHistorySize x, FieldValue.field_maxHistorySize x⟩

/-! ## Settings -/

namespace Draft

/-- The fields with the one that a member names, which must not be among them. -/
def fill (d : Draft) (member : String × Json) : Option Draft := do
  let field ← Field.ofName? member.1
  if d.has field then none
  else
    let value ← field.value? member.2
    return d.put value.1

/-- The fields with some more, one for each value of a list. -/
def fillInOrder (d : Draft) : List Field → List Json → Option Draft
  | [], [] => some d
  | field :: fields, v :: vs => do
    let value ← field.value? v
    (d.put value.1).fillInOrder fields vs
  | _, _ => none

end Draft

/-- The settings that data says. -/
def Json.settings? : Json → Option Settings
  | object members => (members.foldlM Draft.fill .empty).map Draft.settings
  | array elements => (Draft.empty.fillInOrder Field.all elements).map Draft.settings
  | _ => none

/-! ## Names -/

theorem Field.ofName?_eq_some_iff {name : String} {field : Field} :
    ofName? name = some field ↔ name = field.name := by
  constructor
  · intro h
    have hname := List.find?_some h
    exact (beq_iff_eq.1 hname).symm
  · rintro rfl
    cases field <;> rfl

theorem Field.name_inj {f g : Field} : f.name = g.name ↔ f = g := by
  refine ⟨fun h => ?_, fun h => h ▸ rfl⟩
  have hf := ofName?_eq_some_iff.2 h
  have hg := ofName?_eq_some_iff.2 (rfl : g.name = g.name)
  rw [ofName?_eq_some_iff.2 (rfl : f.name = f.name)] at hf
  exact Option.some.inj hf

theorem TokenFormat.ofName?_eq_some_iff {name : String} {format : TokenFormat} :
    ofName? name = some format ↔ name = format.name := by
  constructor
  · intro h
    have hname := List.find?_some h
    exact (beq_iff_eq.1 hname).symm
  · rintro rfl
    cases format <;> rfl

/-! ## Numbers -/

/-- A number is a natural one exactly if it is written without a sign, a fraction and an exponent,
and fits. -/
theorem Numeral.Written.value?_eq_natural_iff {w : Written} {n : UInt64} :
    w.value? = some (.natural n) ↔
      w.negative = false ∧ w.fraction = none ∧ w.exponent = none ∧
        Nat.ofDigitChars 10 w.whole 0 = n.toNat := by
  have hlt : n.toNat < 2 ^ 64 := n.toNat_lt
  have hlimit : significandLimit = 2 ^ 64 - 1 := rfl
  unfold value?
  dsimp only
  generalize Nat.ofDigitChars 10 w.whole 0 = magnitude
  -- the first branch gives natural numbers, the others only negative ones and floats
  by_cases hplain : w.fraction.isNone ∧ w.exponent.isNone ∧ !w.negative ∧
      magnitude ≤ significandLimit
  · rw [if_pos hplain, Option.some.injEq, Numeral.natural.injEq]
    obtain ⟨hfraction, hexponent, hnegative, hle⟩ := hplain
    have hfit : magnitude.toUInt64.toNat = magnitude := by
      rw [Nat.toUInt64, UInt64.toNat_ofNat', Nat.mod_eq_of_lt (by omega)]
    have hvalue : magnitude.toUInt64 = n ↔ magnitude = n.toNat := by
      rw [← UInt64.toNat_inj, hfit]
    rw [hvalue]
    refine ⟨fun h => ⟨?_, ?_, ?_, h⟩, fun h => h.2.2.2⟩
    · simpa using hnegative
    · simpa using hfraction
    · simpa using hexponent
  · rw [if_neg hplain]
    constructor
    · intro h
      split at h
      · cases h
      · cases hfloat : w.float? <;> simp [hfloat] at h
    · rintro ⟨hnegative, hfraction, hexponent, hvalue⟩
      refine absurd ⟨by simp [hfraction], by simp [hexponent], by simp [hnegative], ?_⟩ hplain
      omega

/-! ## Members that are read together -/

namespace Draft

variable {d : Draft}

theorem has_put (d : Draft) (v : FieldValue) (f : Field) :
    (d.put v).has f = (d.has f || v.field == f) := by
  cases v <;> cases f <;> simp [put, has, FieldValue.field]

theorem fill_eq_some_iff {name : String} {v : Json} {d' : Draft} :
    d.fill (name, v) = some d' ↔ ∃ f : Field, name = f.name ∧ d.has f = false ∧
      ∃ x, f.value? v = some x ∧ d.put x.1 = d' := by
  simp only [fill, Option.bind_eq_bind, Option.bind_eq_some_iff, Field.ofName?_eq_some_iff]
  refine exists_congr fun f => and_congr_right fun _ => ?_
  by_cases hhas : d.has f = true
  · simp [hhas]
  · have hhas' : d.has f = false := Bool.eq_false_iff.2 hhas
    rw [if_neg hhas, Option.bind_eq_some_iff]
    simp only [hhas', true_and]
    exact exists_congr fun x => and_congr_right fun _ => Option.some_inj

/-- **Members are read together** exactly if every one of them has the name of a field that was not
read before, no two have the same name, and each value is one of its field. -/
theorem isSome_foldlM_fill_iff {members : List (String × Json)} :
    (members.foldlM fill d).isSome ↔ (members.map Prod.fst).Nodup ∧
      ∀ m ∈ members, ∃ f : Field, m.1 = f.name ∧ d.has f = false ∧ (f.value? m.2).isSome := by
  induction members generalizing d with
  | nil => simp
  | cons member members ih =>
    obtain ⟨name, v⟩ := member
    rw [List.foldlM_cons, List.map_cons, List.nodup_cons, List.forall_mem_cons]
    constructor
    · intro h
      cases hfill : d.fill (name, v) with
      | none =>
        rw [hfill] at h
        cases h
      | some d' =>
        rw [hfill] at h
        obtain ⟨hnodup, hmembers⟩ := ih.1 h
        obtain ⟨f, hname, hf, x, hx, rfl⟩ := fill_eq_some_iff.1 hfill
        -- the fields that are read later are others: this one is now among those read
        have hother : ∀ m ∈ members, ∃ g : Field, m.1 = g.name ∧ g ≠ f ∧ d.has g = false ∧
            (g.value? m.2).isSome := by
          intro m hm
          obtain ⟨g, hg, hhas, hvalue⟩ := hmembers m hm
          rw [has_put, x.2, Bool.or_eq_false_iff, beq_eq_false_iff_ne] at hhas
          exact ⟨g, hg, hhas.2.symm, hhas.1, hvalue⟩
        refine ⟨⟨?_, hnodup⟩, ⟨f, hname, hf, by rw [hx]; rfl⟩, ?_⟩
        · intro hmem
          obtain ⟨m, hm, hfst⟩ := List.mem_map.1 hmem
          obtain ⟨g, hg, hne, -⟩ := hother m hm
          exact hne (Field.name_inj.1 (hg.symm.trans (hfst.trans hname)))
        · intro m hm
          obtain ⟨g, hg, -, hhas, hvalue⟩ := hother m hm
          exact ⟨g, hg, hhas, hvalue⟩
    · rintro ⟨⟨hnew, hnodup⟩, ⟨f, hname, hf, hvalue⟩, hmembers⟩
      obtain ⟨x, hx⟩ := Option.isSome_iff_exists.1 hvalue
      have hfill : d.fill (name, v) = some (d.put x.1) :=
        fill_eq_some_iff.2 ⟨f, hname, hf, x, hx, rfl⟩
      rw [hfill]
      refine ih.2 ⟨hnodup, fun m hm => ?_⟩
      obtain ⟨g, hg, hhas, hvalue⟩ := hmembers m hm
      have hne : f ≠ g := by
        rintro rfl
        exact hnew (List.mem_map.2 ⟨m, hm, hg.trans hname.symm⟩)
      exact ⟨g, hg, by rw [has_put, x.2, hhas, beq_eq_false_iff_ne.2 hne]; rfl, hvalue⟩

/-- Values are read in their order exactly if there is one for each field. -/
theorem isSome_fillInOrder_iff {fields : List Field} {elements : List Json} :
    (d.fillInOrder fields elements).isSome ↔ elements.length = fields.length ∧
      ∀ p ∈ fields.zip elements, (p.1.value? p.2).isSome := by
  induction fields generalizing d elements with
  | nil => cases elements <;> simp [fillInOrder]
  | cons field fields ih =>
    cases elements with
    | nil => simp [fillInOrder]
    | cons v vs =>
      rw [fillInOrder, List.zip_cons_cons, List.forall_mem_cons, List.length_cons,
        List.length_cons, Nat.add_right_cancel_iff]
      cases hvalue : field.value? v with
      | none => simp
      | some x => simpa using ih

end Draft

end ScriptLexer
