import Mathlib.Algebra.Group.Nat.Defs
import ScriptLexer.Proofs.SettingsSpelled

/-!
# Which texts give settings

A text gives settings exactly for two shapes of data: an object of fields, none of them twice, and
a list of the four values in their order. A field takes null and the data of its kind. Only a format
takes more than that: its name may stand alone in an object.

* `Field.Plain`: the data of a field by its kind. `Field.Admits`: the data that it takes.
* `Field.isSome_value?_iff`: what a field can be read from.
* `Json.IsFields`, `Json.IsValues`: the two shapes.
* `read_isOk_iff_shape`: the texts that give settings.
* `Settings.read_isOk_beside_plain_objects`: the shapes that are no plain objects.
-/

namespace ScriptLexer

/-! ## Values of fields -/

/-- The data of a field by its kind: a format by its name, a truth value, or a size written as a
natural number that fits 64 bits; null for each. -/
inductive Field.Plain : Field → Json → Prop
  | null {f : Field} : Plain f .null
  | format {name : String} (hname : name = "text" ∨ name = "json") :
    Plain .tokenFormat (.string name)
  | color {b : Bool} : Plain .color (.boolean b)
  | history {b : Bool} : Plain .history (.boolean b)
  | size {digits : List Char} (hle : Nat.ofDigitChars 10 digits 0 ≤ 2 ^ 64 - 1) :
    Plain .maxHistorySize (.number ⟨false, digits, none, none⟩)

/-- The data that a field can be read from: a format may also stand as the only name of an object,
with null for its value. -/
inductive Field.Admits : Field → Json → Prop
  | plain {f : Field} {v : Json} (h : f.Plain v) : Admits f v
  | member {name : String} (hname : name = "text" ∨ name = "json") :
    Admits .tokenFormat (.object [(name, .null)])

theorem TokenFormat.isSome_ofName?_iff {name : String} :
    (ofName? name).isSome ↔ name = "text" ∨ name = "json" := by
  rw [Option.isSome_iff_exists]
  simp only [ofName?_eq_some_iff]
  constructor
  · rintro ⟨format, hname⟩
    cases format with
    | text => exact .inl hname
    | json => exact .inr hname
  · rintro (hname | hname)
    · exact ⟨.text, hname⟩
    · exact ⟨.json, hname⟩

theorem Json.isSome_orNull?_iff {α : Type} {value? : Json → Option α} {v : Json} :
    (v.orNull? value?).isSome ↔ v = .null ∨ (value? v).isSome := by
  cases v <;> simp [orNull?]

theorem Json.isSome_size?_iff {v : Json} : v.size?.isSome ↔ ∃ digits,
    v = .number ⟨false, digits, none, none⟩ ∧ Nat.ofDigitChars 10 digits 0 ≤ 2 ^ 64 - 1 := by
  constructor
  · intro h
    obtain ⟨n, hn⟩ := Option.isSome_iff_exists.1 h
    unfold size? at hn
    split at hn
    next w =>
      split at hn
      next found hvalue =>
        obtain ⟨hnegative, hfraction, hexponent, hdigits⟩ :=
          Numeral.Written.value?_eq_natural_iff.1 hvalue
        obtain ⟨negative, whole, fraction, exponent⟩ := w
        dsimp only at hnegative hfraction hexponent hdigits
        subst hnegative hfraction hexponent
        have hlt := found.toNat_lt
        exact ⟨whole, rfl, by omega⟩
      · cases hn
    · cases hn
  · rintro ⟨digits, rfl, hle⟩
    have hvalue : Numeral.Written.value? ⟨false, digits, none, none⟩ =
        some (.natural (.ofNat (Nat.ofDigitChars 10 digits 0))) := by
      refine Numeral.Written.value?_eq_natural_iff.2 ⟨rfl, rfl, rfl, ?_⟩
      rw [UInt64.toNat_ofNat', Nat.mod_eq_of_lt (by omega)]
    rw [size?, hvalue]
    rfl

theorem Json.isSome_format?_iff {v : Json} : v.format?.isSome ↔
    ∃ name, (name = "text" ∨ name = "json") ∧ (v = .string name ∨ v = .object [(name, .null)]) := by
  constructor
  · intro h
    unfold format? at h
    split at h
    next name => exact ⟨name, TokenFormat.isSome_ofName?_iff.1 h, .inl rfl⟩
    next name => exact ⟨name, TokenFormat.isSome_ofName?_iff.1 h, .inr rfl⟩
    · cases h
  · rintro ⟨name, hname, rfl | rfl⟩
    · exact TokenFormat.isSome_ofName?_iff.2 hname
    · exact TokenFormat.isSome_ofName?_iff.2 hname

theorem Json.isSome_boolean?_iff {v : Json} : v.boolean?.isSome ↔ ∃ b, v = .boolean b := by
  cases v <;> simp [boolean?]

/-- **What a field can be read from.** -/
theorem Field.isSome_value?_iff {f : Field} {v : Json} : (f.value? v).isSome ↔ f.Admits v := by
  constructor
  · intro h
    cases f with
    | tokenFormat =>
      rw [value?, Option.isSome_map, Json.isSome_orNull?_iff, Json.isSome_format?_iff] at h
      obtain rfl | ⟨name, hname, rfl | rfl⟩ := h
      · exact .plain .null
      · exact .plain (.format hname)
      · exact .member hname
    | color =>
      rw [value?, Option.isSome_map, Json.isSome_orNull?_iff, Json.isSome_boolean?_iff] at h
      obtain rfl | ⟨b, rfl⟩ := h
      · exact .plain .null
      · exact .plain .color
    | history =>
      rw [value?, Option.isSome_map, Json.isSome_orNull?_iff, Json.isSome_boolean?_iff] at h
      obtain rfl | ⟨b, rfl⟩ := h
      · exact .plain .null
      · exact .plain .history
    | maxHistorySize =>
      rw [value?, Option.isSome_map, Json.isSome_orNull?_iff, Json.isSome_size?_iff] at h
      obtain rfl | ⟨digits, rfl, hle⟩ := h
      · exact .plain .null
      · exact .plain (.size hle)
  · intro h
    cases h with
    | plain h =>
      cases h with
      | null => cases f <;> rfl
      | format hname =>
        rw [value?, Option.isSome_map, Json.isSome_orNull?_iff, Json.isSome_format?_iff]
        exact .inr ⟨_, hname, .inl rfl⟩
      | color => rfl
      | history => rfl
      | size hle =>
        rw [value?, Option.isSome_map, Json.isSome_orNull?_iff, Json.isSome_size?_iff]
        exact .inr ⟨_, rfl, hle⟩
    | member hname =>
      rw [value?, Option.isSome_map, Json.isSome_orNull?_iff, Json.isSome_format?_iff]
      exact .inr ⟨_, hname, .inr rfl⟩

/-! ## Settings -/

/-- An object of fields, none of them twice, each with data of its kind. -/
inductive Json.IsFields (kind : Field → Json → Prop) : Json → Prop
  | object {members : List (String × Json)} (hnodup : (members.map Prod.fst).Nodup)
      (h : ∀ m ∈ members, ∃ f : Field, m.1 = f.name ∧ kind f m.2) : IsFields kind (.object members)

/-- A list of all four values in their order. -/
inductive Json.IsValues (kind : Field → Json → Prop) : Json → Prop
  | array {format color history size : Json} (hformat : kind .tokenFormat format)
      (hcolor : kind .color color) (hhistory : kind .history history)
      (hsize : kind .maxHistorySize size) :
    IsValues kind (.array [format, color, history, size])

theorem Json.isSome_settings?_object_iff {members : List (String × Json)} :
    (settings? (.object members)).isSome ↔ IsFields Field.Admits (.object members) := by
  have hempty : ∀ f, Draft.empty.has f = false := by
    intro f
    cases f <;> rfl
  rw [settings?, Option.isSome_map, Draft.isSome_foldlM_fill_iff]
  simp only [hempty, true_and, Field.isSome_value?_iff]
  exact ⟨fun ⟨hnodup, h⟩ => .object hnodup h, fun | .object hnodup h => ⟨hnodup, h⟩⟩

theorem Json.isSome_settings?_array_iff {elements : List Json} :
    (settings? (.array elements)).isSome ↔ IsValues Field.Admits (.array elements) := by
  rw [settings?, Option.isSome_map, Draft.isSome_fillInOrder_iff]
  simp only [Field.isSome_value?_iff]
  constructor
  · rintro ⟨hlength, h⟩
    match elements, hlength with
    | [format, color, history, size], _ =>
      simp only [Field.all, List.zip_cons_cons, List.zip_nil_left, List.forall_mem_cons] at h
      exact .array h.1 h.2.1 h.2.2.1 h.2.2.2.1
  · rintro ⟨hformat, hcolor, hhistory, hsize⟩
    refine ⟨rfl, ?_⟩
    simp only [Field.all, List.zip_cons_cons, List.zip_nil_left, List.forall_mem_cons]
    exact ⟨hformat, hcolor, hhistory, hsize, by simp⟩

theorem Json.isSome_settings?_iff {v : Json} :
    v.settings?.isSome ↔ v.IsFields Field.Admits ∨ v.IsValues Field.Admits := by
  constructor
  · intro h
    cases v with
    | object members => exact .inl (isSome_settings?_object_iff.1 h)
    | array elements => exact .inr (isSome_settings?_array_iff.1 h)
    | _ => cases h
  · rintro (h | h)
    · cases h with
      | object hnodup h => exact isSome_settings?_object_iff.2 (.object hnodup h)
    · cases h with
      | array hformat hcolor hhistory hsize =>
        exact isSome_settings?_array_iff.2 (.array hformat hcolor hhistory hsize)

/-- **The texts of settings.** A text gives settings exactly if it is, blanks around it apart, an
object of fields or a list of all four values. -/
theorem read_isOk_iff_shape (text : String) : (∃ s, Settings.read text = .ok s) ↔
    ∃ v : Json, v.Text text.toList ∧ (v.IsFields Field.Admits ∨ v.IsValues Field.Admits) := by
  simp only [Settings.read_eq_ok_iff, ← Json.isSome_settings?_iff, Option.isSome_iff_exists]
  constructor
  · rintro ⟨s, v, htext, hs⟩
    exact ⟨v, htext, s, hs⟩
  · rintro ⟨v, htext, s, hs⟩
    exact ⟨s, v, htext, hs⟩

/-! ## Beside the plain objects -/

namespace Settings

/-- All four values in a list. -/
def listText : String := "[\"json\",true,false,5]"

/-- A format with its name in an object. -/
def memberText : String := "\x7b\"tokenFormat\":\x7b\"json\":null\x7d\x7d"

/-- A string without escapes. -/
theorem spells_json (rest : List Char) :
    SpellsString ('"' :: 'j' :: 's' :: 'o' :: 'n' :: '"' :: rest) "json" rest :=
  .quoted (.plain ['j', 's', 'o', 'n'] rfl)

theorem spells_tokenFormat (rest : List Char) :
    SpellsString ('"' :: 't' :: 'o' :: 'k' :: 'e' :: 'n' :: 'F' :: 'o' :: 'r' :: 'm' :: 'a' ::
      't' :: '"' :: rest) "tokenFormat" rest :=
  .quoted (.plain ['t', 'o', 'k', 'e', 'n', 'F', 'o', 'r', 'm', 'a', 't'] rfl)

theorem text_listText : Json.Text (.array [.string "json", .boolean true, .boolean false,
    .number ⟨false, ['5'], none, none⟩]) listText.toList := by
  have hdigits : Digits (['5'] ++ [']']) ['5'] [']'] :=
    ⟨rfl, List.cons_ne_nil _ _, List.all_eq_true.1 rfl⟩
  exact ⟨_, _, .none, .array (.element (.first .none) (.string (spells_json _))
    (.element (.later .none .none) .isTrue (.element (.later .none .none) .isFalse
      (.element (.later .none .none)
        (.number (.parts .none (.digits hdigits (by decide)) .none .none)) (.close .none))))),
    .none⟩

theorem text_memberText :
    Json.Text (.object [("tokenFormat", .object [("json", .null)])]) memberText.toList :=
  ⟨_, _, .none, .object (.member (.first .none) (spells_tokenFormat _) .none .none
    (.object (.member (.first .none) (spells_json _) .none .none .null (.close .none)))
    (.close .none)), .none⟩

theorem exists_read_of_text {v : Json} {text : String} (h : v.Text text.toList)
    (hv : v.settings?.isSome) : ∃ s, read text = .ok s := by
  obtain ⟨s, hs⟩ := Option.isSome_iff_exists.1 hv
  exact ⟨s, (read_eq_ok_iff_of_text h).2 hs⟩

/-- A list is no object. -/
theorem not_isFields_listText {v : Json} (h : v.Text listText.toList) :
    ¬ v.IsFields Field.Plain := by
  rintro ⟨-, -⟩
  obtain ⟨value, rest, hbefore, hvalue, -⟩ := h
  rw [hbefore.eq_of_cons (by decide)] at hvalue
  cases hvalue

/-- The object stands where a name would have to. -/
theorem not_isFields_memberText {v : Json} (h : v.Text memberText.toList) :
    ¬ v.IsFields Field.Plain := by
  rintro ⟨-, hplain⟩
  obtain ⟨value, rest, hbefore, hvalue, -⟩ := h
  rw [hbefore.eq_of_cons (by decide)] at hvalue
  cases hvalue with
  | object hmembers =>
    cases hmembers with
    | close hclose => cases hclose.eq_of_cons (by decide)
    | member hseparator hkey hcolon hblanks hvalue hmore =>
      obtain ⟨hseparator⟩ := hseparator
      rw [hseparator.eq_of_cons (by decide)] at hkey
      obtain ⟨rfl, rfl⟩ := hkey.unique (spells_tokenFormat _)
      cases hcolon.eq_of_cons (by decide)
      rw [hblanks.eq_of_cons (by decide)] at hvalue
      obtain ⟨members, rfl, -⟩ := hvalue.exists_members
      obtain ⟨f, -, hf⟩ := hplain _ List.mem_cons_self
      cases hf

/-- **Two shapes beside the plain objects give settings**: a list of the four values, and an object
with a format in an object of its own. -/
theorem read_isOk_beside_plain_objects :
    ((∃ s, read listText = .ok s) ∧
      ¬ ∃ v : Json, v.Text listText.toList ∧ v.IsFields Field.Plain) ∧
    (∃ s, read memberText = .ok s) ∧
      ¬ ∃ v : Json, v.Text memberText.toList ∧ v.IsFields Field.Plain := by
  have hlist : Json.settings? (.array [.string "json", .boolean true, .boolean false,
      .number ⟨false, ['5'], none, none⟩]) |>.isSome := by
    refine Json.isSome_settings?_array_iff.2 (.array ?_ ?_ ?_ ?_)
    · exact .plain (.format (.inr rfl))
    · exact .plain .color
    · exact .plain .history
    · exact .plain (.size (by decide))
  have hmember :
      Json.settings? (.object [("tokenFormat", .object [("json", .null)])]) |>.isSome := by
    refine Json.isSome_settings?_object_iff.2 (.object (by decide) ?_)
    intro m hm
    obtain rfl := List.mem_singleton.1 hm
    exact ⟨.tokenFormat, rfl, .member (.inr rfl)⟩
  exact ⟨⟨exists_read_of_text text_listText hlist,
      fun ⟨_, htext, hplain⟩ => not_isFields_listText htext hplain⟩,
    exists_read_of_text text_memberText hmember,
    fun ⟨_, htext, hplain⟩ => not_isFields_memberText htext hplain⟩

end Settings

end ScriptLexer
