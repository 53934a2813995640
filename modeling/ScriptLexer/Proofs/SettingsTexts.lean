import Mathlib.Algebra.Group.Nat.Defs
import ScriptLexer.Proofs.SettingsSpelled

/-!
# Settings and the texts that give them

An object of fields gives the settings that it lists, in whatever order and with whatever blanks,
and the canonical text is such an object. One member more that does not belong among the fields, and
there are no settings: it is found wherever it stands.

* `Settings.Listed`: members that list the fields of settings.
* `Settings.settings?_of_listed`: such members put the settings together.
* `Settings.Misplaced`, `Settings.settings?_of_misplaced`: members that do not belong.
* `Settings.text_members`: the canonical text is an object of all fields.
* `settings_texts_denote`: the texts of settings, and those of none.
-/

namespace ScriptLexer

namespace Settings

/-! ## The data of settings -/

/-- Settings leave a field open. -/
def Lacks (c : Settings) : Field → Prop
  | .tokenFormat => c.tokenFormat = none
  | .color => c.color = none
  | .history => c.history = none
  | .maxHistorySize => c.maxHistorySize = none

/-- Data is the value of a field in settings: null where they leave it open, and a size by any
digits that write it. -/
inductive Fits (c : Settings) : Field → Json → Prop
  | null {f : Field} (h : c.Lacks f) : Fits c f .null
  | tokenFormat {format : TokenFormat} (h : c.tokenFormat = some format) :
    Fits c .tokenFormat (.string format.name)
  | color {b : Bool} (h : c.color = some b) : Fits c .color (.boolean b)
  | history {b : Bool} (h : c.history = some b) : Fits c .history (.boolean b)
  | maxHistorySize {n : UInt64} {digits : List Char} (h : c.maxHistorySize = some n)
      (hdigits : Nat.ofDigitChars 10 digits 0 = n.toNat) :
    Fits c .maxHistorySize (.number ⟨false, digits, none, none⟩)

/-- Members list the fields of settings, in any order, each of them once; those that the settings
leave open may be missing. -/
structure Listed (c : Settings) (members : List (String × Json)) : Prop where
  nodup : (members.map Prod.fst).Nodup
  fits : ∀ m ∈ members, ∃ f : Field, m.1 = f.name ∧ c.Fits f m.2
  lacks : ∀ f : Field, f.name ∉ members.map Prod.fst → c.Lacks f

/-! ## Members put together -/

/-- The value of a field in settings. -/
def value (c : Settings) : (f : Field) → { v : FieldValue // v.field = f }
  | .tokenFormat => ⟨.tokenFormat c.tokenFormat, rfl⟩
  | .color => ⟨.color c.color, rfl⟩
  | .history => ⟨.history c.history, rfl⟩
  | .maxHistorySize => ⟨.maxHistorySize c.maxHistorySize, rfl⟩

/-- The fields of settings for which a test holds, the others not read. -/
def part (c : Settings) (p : Field → Bool) : Draft where
  tokenFormat := if p .tokenFormat then some c.tokenFormat else none
  color := if p .color then some c.color else none
  history := if p .history then some c.history else none
  maxHistorySize := if p .maxHistorySize then some c.maxHistorySize else none

variable {c : Settings}

theorem has_part (c : Settings) (p : Field → Bool) (f : Field) : (c.part p).has f = p f := by
  cases f <;> simp only [part, Draft.has] <;> split <;> simp_all

theorem put_part (c : Settings) (p : Field → Bool) (f : Field) :
    (c.part p).put (c.value f).1 = c.part fun g => p g || f == g := by
  cases f <;> simp [part, value, Draft.put]

/-- The parts of settings are the settings again once no field is left out that they fill. -/
theorem settings_part {p : Field → Bool} (h : ∀ f, p f = false → c.Lacks f) :
    (c.part p).settings = c := by
  have hjoin : ∀ {α : Type} (b : Bool) (x : Option α), (b = false → x = none) →
      (if b then some x else none).join = x := by
    intro α b x hx
    cases b with
    | false => exact (hx rfl).symm
    | true => rfl
  simp only [part, Draft.settings, hjoin _ _ (h .tokenFormat), hjoin _ _ (h .color),
    hjoin _ _ (h .history), hjoin _ _ (h .maxHistorySize)]

theorem value?_of_fits {f : Field} {v : Json} (h : c.Fits f v) : f.value? v = some (c.value f) := by
  cases h with
  | null h => cases f <;> simp only [Lacks] at h <;> rw [Field.value?, value, h] <;> rfl
  | @tokenFormat format h =>
    have hname : TokenFormat.ofName? format.name = some format :=
      TokenFormat.ofName?_eq_some_iff.2 rfl
    simp only [Field.value?, Json.orNull?, Json.format?, hname, value, h, Option.map_some]
  | color h => simp only [Field.value?, Json.orNull?, Json.boolean?, value, h, Option.map_some]
  | history h => simp only [Field.value?, Json.orNull?, Json.boolean?, value, h, Option.map_some]
  | @maxHistorySize n digits h hdigits =>
    have hvalue : Numeral.Written.value? ⟨false, digits, none, none⟩ = some (.natural n) :=
      Numeral.Written.value?_eq_natural_iff.2 ⟨rfl, rfl, rfl, hdigits⟩
    simp only [Field.value?, Json.orNull?, Json.size?, hvalue, value, h, Option.map_some]

/-- A member puts the field that it names to those that were read. -/
theorem fill_part {f : Field} {v : Json} {p : Field → Bool} (hp : p f = false) (h : c.Fits f v) :
    (c.part p).fill (f.name, v) = some (c.part fun g => p g || f == g) :=
  Draft.fill_eq_some_iff.2
    ⟨f, rfl, by rw [has_part, hp], c.value f, value?_of_fits h, put_part c p f⟩

/-- Members put together a part of the settings that leaves out none of the fields that they
name. -/
theorem foldlM_fill_part {members : List (String × Json)} {p : Field → Bool}
    (hnodup : (members.map Prod.fst).Nodup)
    (hfits : ∀ m ∈ members, ∃ f : Field, m.1 = f.name ∧ p f = false ∧ c.Fits f m.2) :
    ∃ q : Field → Bool, members.foldlM Draft.fill (c.part p) = some (c.part q) ∧
      ∀ f, q f = false → p f = false ∧ f.name ∉ members.map Prod.fst := by
  induction members generalizing p with
  | nil => exact ⟨p, rfl, fun _ hp => ⟨hp, List.not_mem_nil⟩⟩
  | cons member members ih =>
    obtain ⟨name, v⟩ := member
    rw [List.forall_mem_cons] at hfits
    obtain ⟨⟨f, hname, hp, hv⟩, hfits⟩ := hfits
    obtain rfl : name = f.name := hname
    rw [List.map_cons, List.nodup_cons] at hnodup
    -- no later member names this field again, so each still has its field to fill
    have hrest : ∀ m ∈ members, ∃ g : Field, m.1 = g.name ∧ (p g || f == g) = false ∧
        c.Fits g m.2 := by
      intro m hm
      obtain ⟨g, hg, hpg, hfits⟩ := hfits m hm
      have hne : f ≠ g := by
        rintro rfl
        exact hnodup.1 (List.mem_map.2 ⟨m, hm, hg⟩)
      exact ⟨g, hg, by rw [hpg, beq_eq_false_iff_ne.2 hne]; rfl, hfits⟩
    obtain ⟨q, hfold, hq⟩ := ih hnodup.2 hrest
    refine ⟨q, ?_, fun g hg => ?_⟩
    · rw [List.foldlM_cons, fill_part hp hv]
      exact hfold
    · obtain ⟨hpg, hmem⟩ := hq g hg
      rw [Bool.or_eq_false_iff, beq_eq_false_iff_ne] at hpg
      refine ⟨hpg.1, fun hcons => ?_⟩
      rcases List.mem_cons.1 hcons with hsame | hmem'
      · exact hpg.2 (Field.name_inj.1 hsame.symm)
      · exact hmem hmem'

/-- **Listed fields are the settings**, whatever their order. -/
theorem settings?_of_listed {members : List (String × Json)} (h : c.Listed members) :
    Json.settings? (.object members) = some c := by
  have hempty : Draft.empty = c.part fun _ => false := rfl
  obtain ⟨q, hfold, hq⟩ := foldlM_fill_part (p := fun _ => false) h.nodup fun m hm => by
    obtain ⟨f, hname, hfits⟩ := h.fits m hm
    exact ⟨f, hname, rfl, hfits⟩
  rw [Json.settings?, hempty, hfold, Option.map_some,
    settings_part fun f hf => h.lacks f (hq f hf).2]

/-! ## Members that do not belong -/

/-- Data that cannot be the value of a field. -/
inductive Unfit : Field → Json → Prop
  | formatBoolean {b : Bool} : Unfit .tokenFormat (.boolean b)
  | formatNumber {w : Numeral.Written} : Unfit .tokenFormat (.number w)
  | formatArray {elements : List Json} : Unfit .tokenFormat (.array elements)
  | formatString {name : String} (hname : name ≠ "text" ∧ name ≠ "json") :
    Unfit .tokenFormat (.string name)
  | truthNumber {f : Field} {w : Numeral.Written} (hf : f = .color ∨ f = .history) :
    Unfit f (.number w)
  | truthString {f : Field} {text : String} (hf : f = .color ∨ f = .history) :
    Unfit f (.string text)
  | truthArray {f : Field} {elements : List Json} (hf : f = .color ∨ f = .history) :
    Unfit f (.array elements)
  | truthObject {f : Field} {members : List (String × Json)} (hf : f = .color ∨ f = .history) :
    Unfit f (.object members)
  | sizeBoolean {b : Bool} : Unfit .maxHistorySize (.boolean b)
  | sizeString {text : String} : Unfit .maxHistorySize (.string text)
  | sizeArray {elements : List Json} : Unfit .maxHistorySize (.array elements)
  | sizeObject {members : List (String × Json)} : Unfit .maxHistorySize (.object members)
  | sizeNumber {w : Numeral.Written} (hw : w.negative = true ∨ w.fraction ≠ none ∨
      w.exponent ≠ none ∨ 2 ^ 64 - 1 < Nat.ofDigitChars 10 w.whole 0) :
    Unfit .maxHistorySize (.number w)

theorem size?_of_unfit {w : Numeral.Written} (hw : w.negative = true ∨ w.fraction ≠ none ∨
    w.exponent ≠ none ∨ 2 ^ 64 - 1 < Nat.ofDigitChars 10 w.whole 0) :
    Json.size? (.number w) = none := by
  rw [Json.size?]
  split
  next n hvalue =>
    obtain ⟨hnegative, hfraction, hexponent, hdigits⟩ :=
      Numeral.Written.value?_eq_natural_iff.1 hvalue
    have hlt := n.toNat_lt
    rcases hw with hw | hw | hw | hw
    · rw [hnegative] at hw
      cases hw
    · exact absurd hfraction hw
    · exact absurd hexponent hw
    · omega
  · rfl

theorem value?_of_unfit {f : Field} {v : Json} (h : Unfit f v) : f.value? v = none := by
  cases h with
  | @formatString name hname =>
    have hnone : TokenFormat.ofName? name = none := by
      cases hformat : TokenFormat.ofName? name with
      | none => rfl
      | some format =>
        have heq := TokenFormat.ofName?_eq_some_iff.1 hformat
        cases format with
        | text => exact absurd heq hname.1
        | json => exact absurd heq hname.2
    simp only [Field.value?, Json.orNull?, Json.format?, hnone, Option.map_none]
  | sizeNumber hw => simp only [Field.value?, Json.orNull?, size?_of_unfit hw, Option.map_none]
  | truthNumber hf | truthString hf | truthArray hf | truthObject hf =>
    rcases hf with rfl | rfl <;> rfl
  | _ => rfl

/-- A member does not belong beside others: it has an unknown name, or that of another one, or data
that is no value of its field. -/
inductive Misplaced (members : List (String × Json)) : String × Json → Prop
  | unknown {name : String} {v : Json} (h : ∀ f : Field, name ≠ f.name) :
    Misplaced members (name, v)
  | again {name : String} {v : Json} (h : name ∈ members.map Prod.fst) : Misplaced members (name, v)
  | unfit {f : Field} {v : Json} (h : Unfit f v) : Misplaced members (f.name, v)

/-- **A member that does not belong spoils the object**, wherever it stands. -/
theorem settings?_of_misplaced {before behind : List (String × Json)} {member : String × Json}
    (h : Misplaced (before ++ behind) member) :
    Json.settings? (.object (before ++ member :: behind)) = none := by
  cases hs : Json.settings? (.object (before ++ member :: behind)) with
  | none => rfl
  | some s =>
    -- members that are read together tell of each of them, wherever it stands
    have hsome : ((before ++ member :: behind).foldlM Draft.fill .empty).isSome := by
      rw [← Option.isSome_map (f := Draft.settings)]
      exact Option.isSome_iff_exists.2 ⟨s, hs⟩
    obtain ⟨hnodup, hmembers⟩ := Draft.isSome_foldlM_fill_iff.1 hsome
    obtain ⟨f, hname, -, hvalue⟩ := hmembers member (by simp)
    cases h with
    | unknown h => exact absurd hname (h f)
    | again h =>
      have hnew := (List.perm_middle.map Prod.fst).nodup_iff.1 hnodup
      rw [List.map_cons, List.nodup_cons] at hnew
      exact absurd h hnew.1
    | unfit h =>
      obtain rfl := Field.name_inj.1 hname
      rw [value?_of_unfit h] at hvalue
      cases hvalue

/-! ## The canonical text -/

/-- The data of a field in settings, null where they leave it open. -/
def data (c : Settings) : Field → Json
  | .tokenFormat => (c.tokenFormat.map fun f => .string f.name).getD .null
  | .color => (c.color.map .boolean).getD .null
  | .history => (c.history.map .boolean).getD .null
  | .maxHistorySize =>
    (c.maxHistorySize.map fun n => .number ⟨false, Nat.toDigits 10 n.toNat, none, none⟩).getD .null

/-- The data of a value that may be left open fits if it fits in either case. -/
theorem fits_getD {α : Type} {x : Option α} {write : α → Json} {f : Field}
    (hnone : x = none → c.Lacks f) (hsome : ∀ a, x = some a → c.Fits f (write a)) :
    c.Fits f ((x.map write).getD .null) := by
  cases x with
  | none => exact .null (hnone rfl)
  | some a => exact hsome a rfl

theorem fits_data (c : Settings) (f : Field) : c.Fits f (c.data f) := by
  cases f with
  | tokenFormat => exact fits_getD id fun _ h => .tokenFormat h
  | color => exact fits_getD id fun _ h => .color h
  | history => exact fits_getD id fun _ h => .history h
  | maxHistorySize =>
    exact fits_getD id fun _ h => .maxHistorySize h Nat.ofDigitChars_ten_toDigits

/-- The members of the canonical text. -/
def members (c : Settings) : List (String × Json) :=
  Field.all.map fun f => (f.name, c.data f)

theorem listed_members (c : Settings) : c.Listed c.members where
  nodup := by
    have hnames : c.members.map Prod.fst = Field.all.map Field.name := rfl
    rw [hnames]
    decide
  fits m hm := by
    obtain ⟨f, -, rfl⟩ := List.mem_map.1 hm
    exact ⟨f, rfl, c.fits_data f⟩
  lacks f hf := by
    refine absurd (List.mem_map.2 ⟨(f.name, c.data f), List.mem_map.2 ⟨f, ?_, rfl⟩, rfl⟩) hf
    cases f <;> decide

/-- The digits of a number other than zero do not begin with a zero. -/
theorem head?_toDigits_ne {n : Nat} (hn : n ≠ 0) : (Nat.toDigits 10 n).head? ≠ some '0' := by
  induction n using Nat.strongRecOn with
  | ind n ih =>
    by_cases hlt : n < 10
    · have hdigit : ∀ m < 10, m ≠ 0 → [Nat.digitChar m].head? ≠ some '0' := by decide
      rw [Nat.toDigits_of_lt_base hlt]
      exact hdigit n hlt hn
    · -- all digits but the last are those of a tenth of the number
      have hfront := ih (n / 10) (by omega) (by omega)
      obtain ⟨d, ds, hdigits⟩ := List.exists_cons_of_ne_nil (Nat.toDigits_ne_nil (n := n / 10))
      rw [Nat.toDigits_of_base_le (by decide) (Nat.not_lt.1 hlt)]
      rw [hdigits] at hfront ⊢
      exact hfront

/-- A natural number spells itself by its digits. -/
theorem spells_toDigits (n : Nat) (rest : List Char) :
    Numeral.SpellsWhole (Nat.toDigits 10 n ++ rest) (Nat.toDigits 10 n) rest := by
  by_cases hn : n = 0
  · subst hn
    exact .zero
  · exact .digits ⟨rfl, Nat.toDigits_ne_nil,
      fun _ hd => Nat.isDigit_of_mem_toDigits (by decide) (by decide) hd⟩ (head?_toDigits_ne hn)

/-- The text of a value that may be left open spells its data if the text of each value does. -/
theorem spells_valueText {α : Type} {text : α → String} {write : α → Json}
    (h : ∀ a rest, Json.Spells ((text a).toList ++ rest) (write a) rest) (x : Option α)
    (rest : List Char) :
    Json.Spells ((valueText text x).toList ++ rest) ((x.map write).getD .null) rest := by
  cases x with
  | none =>
    rw [valueText]
    exact .null
  | some a => exact h a rest

theorem spells_name (format : TokenFormat) (rest : List Char) :
    Json.Spells ((Quoted.quote format.name).toList ++ rest) (.string format.name) rest :=
  .string (.quote format.name rest)

theorem spells_boolText (b : Bool) (rest : List Char) :
    Json.Spells ((boolText b).toList ++ rest) (.boolean b) rest := by
  cases b with
  | true => exact .isTrue
  | false => exact .isFalse

theorem spells_repr (n : UInt64) (rest : List Char) :
    Json.Spells (n.toNat.repr.toList ++ rest)
      (.number ⟨false, Nat.toDigits 10 n.toNat, none, none⟩) rest := by
  rw [Nat.toList_repr]
  exact .number (.parts .none (spells_toDigits n.toNat rest) .none .none)

theorem spells_fieldText (c : Settings) (f : Field) (rest : List Char) :
    Json.Spells ((c.fieldText f).toList ++ rest) (c.data f) rest := by
  cases f with
  | tokenFormat => exact spells_valueText spells_name c.tokenFormat rest
  | color => exact spells_valueText spells_boolText c.color rest
  | history => exact spells_valueText spells_boolText c.history rest
  | maxHistorySize => exact spells_valueText spells_repr c.maxHistorySize rest

/-- The text of a member. -/
def memberChars (c : Settings) (f : Field) : List Char :=
  (Quoted.quote f.name).toList ++ ':' :: (c.fieldText f).toList

theorem toList_text (c : Settings) : c.text.toList =
    '\x7b' :: ([','].intercalate (Field.all.map c.memberChars) ++ ['\x7d']) := by
  have hcomma : ",".toList = [','] := rfl
  have hcolon : ":".toList = [':'] := rfl
  simp only [text, String.toList_append, String.toList_intercalate, List.map_map,
    Function.comp_def, hcomma, hcolon, List.append_assoc, List.singleton_append]
  rfl

/-- Members with commas between them are members, from the first or from a later one on. -/
theorem spells_members (c : Settings) (f : Field) (fields : List Field) (rest : List Char)
    {first : Bool} {text : List Char} (hbefore : Separator first text
      ([','].intercalate ((f :: fields).map c.memberChars) ++ '\x7d' :: rest)) :
    Json.SpellsMembers first text ((f :: fields).map fun f => (f.name, c.data f)) rest := by
  -- the comma belongs to the member behind it, so only the first separator is given
  induction fields generalizing f first text with
  | nil =>
    have hjoined : [','].intercalate ([f].map c.memberChars) ++ '\x7d' :: rest =
        (Quoted.quote f.name).toList ++ ':' :: ((c.fieldText f).toList ++ '\x7d' :: rest) := by
      simp [List.intercalate, memberChars]
    rw [hjoined] at hbefore
    exact .member hbefore (.quote _ _) .none .none (spells_fieldText c f _) (.close .none)
  | cons g fields ih =>
    have hjoined : [','].intercalate ((f :: g :: fields).map c.memberChars) ++ '\x7d' :: rest =
        (Quoted.quote f.name).toList ++ ':' :: ((c.fieldText f).toList ++
          ',' :: ([','].intercalate ((g :: fields).map c.memberChars) ++ '\x7d' :: rest)) := by
      simp [List.intercalate, memberChars]
    rw [hjoined] at hbefore
    exact .member hbefore (.quote _ _) .none .none (spells_fieldText c f _)
      (ih g (.later .none .none))

/-- The canonical text is the text of its members. -/
theorem text_members (c : Settings) : Json.Text (.object c.members) c.text.toList := by
  refine ⟨_, _, .none, ?_, .none⟩
  rw [toList_text]
  exact .object (c.spells_members .tokenFormat [.color, .history, .maxHistorySize] []
    (.first .none))

/-- Settings are read back from their canonical text. -/
theorem read_text (c : Settings) : read c.text = .ok c :=
  (read_eq_ok_iff_of_text c.text_members).2 (settings?_of_listed c.listed_members)

end Settings

/-- **Settings and their texts.** A text that lists the fields of settings in any order, with blanks
anywhere, gives these settings, where those left open are null or missing; so does the canonical
text of any settings, which is read back from every text that gives them. A further member that does
not belong, at any place among others, leaves no settings. -/
theorem settings_texts_denote :
    (∀ (c : Settings) (members : List (String × Json)) (text : String), c.Listed members →
      (Json.object members).Text text.toList → Settings.read text = .ok c) ∧
    (∀ c : Settings, Settings.read c.text = .ok c) ∧
    (∀ (text : String) (c : Settings), Settings.read text = .ok c → Settings.read c.text = .ok c) ∧
    ∀ (c : Settings) (before behind : List (String × Json)) (member : String × Json)
      (text : String), c.Listed (before ++ behind) → Settings.Misplaced (before ++ behind) member →
      (Json.object (before ++ member :: behind)).Text text.toList →
        ∃ failure, Settings.read text = .error failure := by
  refine ⟨?_, Settings.read_text, fun _ c _ => c.read_text, ?_⟩
  · intro c members text hlisted htext
    exact (Settings.read_eq_ok_iff_of_text htext).2 (Settings.settings?_of_listed hlisted)
  · intro c before behind member text _ hmisplaced htext
    cases hread : Settings.read text with
    | error failure => exact ⟨failure, rfl⟩
    | ok s =>
      have hs := (Settings.read_eq_ok_iff_of_text htext).1 hread
      rw [Settings.settings?_of_misplaced hmisplaced] at hs
      cases hs

/-- The largest size, between blanks and in front of another field, and a field that is null
twice. -/
theorem settings_of_spaced_text :
    Settings.read "\x7b \"maxHistorySize\" :\t18446744073709551615,\n\"color\":null\x7d" =
      .ok ⟨none, none, none, some 18446744073709551615⟩ ∧
    ∃ failure, Settings.read "\x7b\"color\":null,\"color\":null\x7d" = .error failure := by
  have hsize : ∀ rest, SpellsString ('"' :: 'm' :: 'a' :: 'x' :: 'H' :: 'i' :: 's' :: 't' :: 'o' ::
      'r' :: 'y' :: 'S' :: 'i' :: 'z' :: 'e' :: '"' :: rest) "maxHistorySize" rest :=
    fun _ => .quoted (.plain "maxHistorySize".toList rfl)
  have hcolor : ∀ rest, SpellsString ('"' :: 'c' :: 'o' :: 'l' :: 'o' :: 'r' :: '"' :: rest) "color"
      rest := fun _ => .quoted (.plain "color".toList rfl)
  have hdigits : ∀ rest, Digits ("18446744073709551615".toList ++ rest)
      "18446744073709551615".toList rest := fun _ =>
    ⟨rfl, List.cons_ne_nil _ _, List.all_eq_true.1 rfl⟩
  have hblank : isDataBlank ' ' = true := by decide
  have htab : isDataBlank '\t' = true := by decide
  have hnewline : isDataBlank '\n' = true := by decide
  have hlisted : Settings.Listed ⟨none, none, none, some 18446744073709551615⟩
      [("maxHistorySize", .number ⟨false, "18446744073709551615".toList, none, none⟩),
        ("color", .null)] := by
    refine ⟨by decide, ?_, ?_⟩
    · rintro m (_ | ⟨_, _ | ⟨_, ⟨⟩⟩⟩)
      · exact ⟨.maxHistorySize, rfl, .maxHistorySize rfl (by decide)⟩
      · exact ⟨.color, rfl, .null rfl⟩
    · intro f hf
      cases f with
      | maxHistorySize => exact absurd (by decide) hf
      | _ => rfl
  have hnull : Settings.Listed .empty [("color", .null)] := by
    refine ⟨by decide, ?_, ?_⟩
    · rintro m (_ | ⟨_, ⟨⟩⟩)
      exact ⟨.color, rfl, .null rfl⟩
    · intro f _
      cases f <;> rfl
  constructor
  · exact settings_texts_denote.1 _ _ _ hlisted ⟨_, _, .none,
      .object (.member (.first (.more hblank .none)) (hsize _) (.more hblank .none)
        (.more htab .none) (.number (.parts .none (.digits (hdigits _) (by decide)) .none .none))
        (.member (.later .none (.more hnewline .none)) (hcolor _) .none .none .null
          (.close .none))), .none⟩
  · exact settings_texts_denote.2.2.2 .empty [("color", .null)] [] ("color", .null) _ hnull
      (.again (by decide)) ⟨_, _, .none,
        .object (.member (.first .none) (hcolor _) .none .none .null
          (.member (.later .none .none) (hcolor _) .none .none .null (.close .none))), .none⟩

end ScriptLexer
