import Mathlib.Data.List.Basic
import ScriptLexer.Command.Choice

/-!
# Where the options of a run come from

A run has at most one settings file: the one that an argument names, which it then has to be able to
use, or the one that lies in the folder of the script. What that file says fills the fields that no
argument sets, and a field that neither sets has its default.

* `Disk.HoldsText`: the text that a file holds.
* `Arguments.SettingsAt`: the settings file of a run.
* `Arguments.looksBySpelling`: the folder that it is looked for in, by the spelling of the script.
* `Decides`: what each field of the options is taken from.
* `options_of_flags_and_file`: the options of a run, or why there are none.
-/

namespace ScriptLexer

/-! ## The text of a file -/

theorem fromUTF8?_eq_some_iff {bytes : ByteArray} {text : String} :
    String.fromUTF8? bytes = some text ↔ bytes = text.toUTF8 := by
  unfold String.fromUTF8?
  constructor
  · intro h
    split at h
    · cases h
      rfl
    · cases h
  · rintro rfl
    exact dif_pos text.isValidUTF8

/-- A path can be read, and the bytes are the UTF-8 form of a text. -/
def Disk.HoldsText (disk : Disk) (path text : String) : Prop :=
  disk.read path = .ok text.toUTF8

/-- **What a path can be read as** is the text that its bytes are the UTF-8 form of. -/
theorem Disk.readText_eq_ok_iff {disk : Disk} {path text : String} :
    disk.readText path = .ok text ↔ disk.HoldsText path text := by
  unfold readText HoldsText
  cases hread : disk.read path with
  | error error => simp [bind, Except.bind]
  | ok bytes =>
    simp only [bind, Except.bind, pure, Except.pure, Except.ok.injEq, ← fromUTF8?_eq_some_iff]
    cases String.fromUTF8? bytes <;> simp

theorem Disk.readText_eq_error_iff {disk : Disk} {path : String} :
    (∃ error, disk.readText path = .error error) ↔ ∀ text, ¬ disk.HoldsText path text := by
  simp only [← readText_eq_ok_iff]
  cases disk.readText path <;> simp

namespace FileTree

/-- In a tree the regular files are its files. -/
theorem isFile_disk {t : FileTree} {path : String} :
    t.disk.isFile path = true ↔ ∃ content, t.resolve path = .ok (.file content) := by
  unfold disk
  cases hresolve : t.resolve path with
  | error error => simp [hresolve]
  | ok entry => cases entry <;> simp [hresolve]

/-- In a tree only files hold texts, where the system does not refuse to read them. -/
theorem holdsText_disk {t : FileTree} {path text : String} : t.disk.HoldsText path text ↔
    ∃ place, t.place path = .ok place ∧ t.lookup? place = some (.file text.toUTF8) ∧
      t.refusal? .read place = none := by
  unfold Disk.HoldsText disk
  cases hplace : t.place path with
  | error error => simp [hplace, bind, Except.bind]
  | ok place =>
    cases hrefused : t.refusal? .read place with
    | some error => simp [hplace, hrefused, bind, Except.bind]
    | none =>
      cases hentry : t.lookup? place with
      | none => simp [hplace, hrefused, hentry, bind, Except.bind]
      | some entry =>
        cases entry <;> simp [hplace, hrefused, hentry, bind, Except.bind, pure, Except.pure]

end FileTree

/-! ## The settings file of a run -/

namespace Arguments

/-- The folder in which a run looks for settings that no argument names. -/
inductive LooksIn (a : Arguments) : String → Prop
  | prompt (hscript : a.script? = none) : LooksIn a "."
  | bare {script : String} (hscript : a.script? = some script)
      (hparent : Path.parent? script = none ∨ Path.parent? script = some "") : LooksIn a "."
  | beside {script folder : String} (hscript : a.script? = some script)
      (hparent : Path.parent? script = some folder) (hfolder : folder ≠ "") : LooksIn a folder

/-- The settings file of a run, if it has one: a named one whatever the path leads to, another one
only where it is a regular file. -/
inductive SettingsAt (disk : Disk) (a : Arguments) : Option String → Prop
  | named {path : String} (hconfig : a.config = some path) : SettingsAt disk a (some path)
  | found {folder : String} (hconfig : a.config = none) (hlooks : a.LooksIn folder)
      (hfile : disk.isFile (Path.join folder "cream.json") = true) :
    SettingsAt disk a (some (Path.join folder "cream.json"))
  | absent {folder : String} (hconfig : a.config = none) (hlooks : a.LooksIn folder)
      (hfile : disk.isFile (Path.join folder "cream.json") = false) : SettingsAt disk a none

variable {disk : Disk} {a : Arguments}

/-- There is one folder to look in. -/
theorem looksIn_iff {folder : String} : a.LooksIn folder ↔ folder = a.settingsFolder := by
  unfold settingsFolder
  constructor
  · intro h
    cases h with
    | prompt hscript => simp [hscript]
    | bare hscript hparent => rcases hparent with hparent | hparent <;> simp [hscript, hparent]
    | beside hscript hparent hfolder => simp [hscript, hparent, hfolder]
  · rintro rfl
    cases hscript : a.script? with
    | none => exact .prompt hscript
    | some script =>
      cases hparent : Path.parent? script with
      | none =>
        simp only [Option.bind_some, hparent]
        exact .bare hscript (.inl hparent)
      | some folder =>
        simp only [Option.bind_some, hparent]
        by_cases hfolder : folder = ""
        · rw [if_pos hfolder]
          exact .bare hscript (.inr (by rw [hparent, hfolder]))
        · rw [if_neg hfolder]
          exact .beside hscript hparent hfolder

/-- The folder to look in, by how the path of the script is spelled: its pieces, and the two plain
spellings of a name without a folder and in one. -/
structure LooksBySpelling (a : Arguments) : Prop where
  prompt : a.script? = none → a.LooksIn "."
  unnamed : ∀ script first idle, a.script? = some script → Path.pieces script = first :: idle →
    (∀ piece ∈ idle, Path.isIdle piece = true) → a.LooksIn "."
  named : ∀ script first kept gap name idle, a.script? = some script →
    Path.pieces script = first :: (kept ++ gap ++ name :: idle) →
    (∀ last, kept.getLast? = some last → Path.isIdle last = false) →
    (∀ piece ∈ gap, Path.isIdle piece = true) → Path.isIdle name = false →
    (∀ piece ∈ idle, Path.isIdle piece = true) →
    a.LooksIn (if kept = [] ∧ first = "" then "/" else "/".intercalate (first :: kept))
  bare : ∀ name, a.script? = some name → '/' ∉ name.toList → a.LooksIn "."
  root : a.script? = some "/" → a.LooksIn "."
  belowRoot : ∀ name, a.script? = some ("/" ++ name) → '/' ∉ name.toList →
    Path.isIdle name = false → a.LooksIn "/"
  below : ∀ folder name, a.script? = some (folder ++ "/" ++ name) → folder ≠ "" →
    (∀ last, (Path.pieces folder).tail.getLast? = some last → Path.isIdle last = false) →
    '/' ∉ name.toList → Path.isIdle name = false → a.LooksIn folder

theorem looksIn_of_unnamed {script first : String} {idle : List String}
    (hscript : a.script? = some script) (hpieces : Path.pieces script = first :: idle)
    (hidle : ∀ piece ∈ idle, Path.isIdle piece = true) : a.LooksIn "." := by
  have hparent := Path.parent?_of_unnamed hpieces hidle
  by_cases hfirst : first = ""
  · rw [if_pos hfirst] at hparent
    exact .bare hscript (.inl hparent)
  · rw [if_neg hfirst] at hparent
    exact .bare hscript (.inr hparent)

theorem looksIn_of_named {script first name : String} {kept gap idle : List String}
    (hscript : a.script? = some script)
    (hpieces : Path.pieces script = first :: (kept ++ gap ++ name :: idle))
    (hkept : ∀ last, kept.getLast? = some last → Path.isIdle last = false)
    (hgap : ∀ piece ∈ gap, Path.isIdle piece = true) (hname : Path.isIdle name = false)
    (hidle : ∀ piece ∈ idle, Path.isIdle piece = true) :
    a.LooksIn (if kept = [] ∧ first = "" then "/" else "/".intercalate (first :: kept)) := by
  refine .beside hscript (Path.parent?_of_named hpieces hkept hgap hname hidle) ?_
  cases kept with
  | nil => by_cases hfirst : first = "" <;> simp [hfirst]
  | cons second kept =>
    rw [if_neg (by simp)]
    have happend := Path.intercalate_append (List.cons_ne_nil first [])
      (List.cons_ne_nil second kept)
    rw [List.singleton_append] at happend
    intro hempty
    rw [hempty] at happend
    have hlength := congrArg String.length happend
    have hslash : "/".length = 1 := rfl
    simp only [String.length_append, String.length_empty] at hlength
    omega

/-- A script that is named in a folder has its settings there. -/
theorem looksIn_of_append {folder name : String}
    (hscript : a.script? = some (folder ++ "/" ++ name)) (hfolder : folder ≠ "")
    (hlast : ∀ last, (Path.pieces folder).tail.getLast? = some last → Path.isIdle last = false)
    (hslash : '/' ∉ name.toList) (hname : Path.isIdle name = false) : a.LooksIn folder :=
  .beside hscript (Path.parent?_append hfolder hlast hslash hname) hfolder

/-- **The folder to look in is the one that the path of the script names.** -/
theorem looksBySpelling (a : Arguments) : a.LooksBySpelling where
  prompt := .prompt
  unnamed _ _ _ := looksIn_of_unnamed
  named _ _ _ _ _ _ := looksIn_of_named
  bare name hscript hslash :=
    looksIn_of_unnamed hscript (Path.pieces_of_notMem hslash) (by simp)
  root hscript := by
    have hpieces : Path.pieces "/" = "" :: [""] := rfl
    exact looksIn_of_unnamed hscript hpieces (by simp [Path.isIdle])
  belowRoot name hscript hslash hname := by
    have hpieces : Path.pieces ("/" ++ name) = "" :: ([] ++ [] ++ name :: []) := by
      have happend := Path.pieces_append "" name
      have hempty : Path.pieces "" = [""] := rfl
      rwa [Path.pieces_of_notMem hslash, hempty, String.empty_append] at happend
    exact looksIn_of_named hscript hpieces (by simp) (by simp) hname (by simp)
  below _ _ := looksIn_of_append

/-- There is one answer to which file the settings are in. -/
theorem settingsAt_iff {chosen : Option String} :
    a.SettingsAt disk chosen ↔ chosen = a.settingsFile? disk := by
  have hname : Settings.fileName = "cream.json" := rfl
  unfold settingsFile? Settings.find?
  constructor
  · intro h
    cases h with
    | named hconfig => simp only [hconfig]
    | found hconfig hlooks hfile =>
      rw [looksIn_iff] at hlooks
      simp [hconfig, hname, ← hlooks, hfile]
    | absent hconfig hlooks hfile =>
      rw [looksIn_iff] at hlooks
      simp [hconfig, hname, ← hlooks, hfile]
  · rintro rfl
    have hlooks : a.LooksIn a.settingsFolder := looksIn_iff.2 rfl
    cases hconfig : a.config with
    | some path => exact .named hconfig
    | none =>
      simp only [hname]
      split
      · next hfile => exact .found hconfig hlooks hfile
      · next hfile => exact .absent hconfig hlooks (Bool.eq_false_iff.2 hfile)

end Arguments

/-! ## What the options are taken from -/

/-- A settings file says what its text says; no file says nothing. -/
def Disk.Says (disk : Disk) : Option String → Settings → Prop
  | none, s => s = .empty
  | some path, s => ∃ text, disk.HoldsText path text ∧ Settings.read text = .ok s

/-- Each field of the options is decided by itself: by an argument, else by the settings, else by
its default. -/
structure Decides (a : Arguments) (s : Settings) (o : Options) : Prop where
  tokenFormat : o.tokenFormat = (a.format.or s.tokenFormat).getD .text
  color : o.color = if a.color then some true else if a.noColor then some false else s.color
  history : o.history = s.history.getD true
  maxHistorySize : o.maxHistorySize = s.maxHistorySize.getD 1000

theorem decides_iff {a : Arguments} {s : Settings} {o : Options} :
    Decides a s o ↔ o = a.override (.ofSettings s) := by
  obtain ⟨tokenFormat, color, history, maxHistorySize⟩ := o
  have hformat : a.format.getD (s.tokenFormat.getD .text) =
      (a.format.or s.tokenFormat).getD .text := by
    cases a.format <;> rfl
  have hdefault : Options.default = ⟨.text, none, true, 1000⟩ := rfl
  simp only [Arguments.override, Options.ofSettings, hdefault, hformat, Options.mk.injEq]
  exact ⟨fun ⟨h₁, h₂, h₃, h₄⟩ => ⟨h₁, h₂, h₃, h₄⟩, fun ⟨h₁, h₂, h₃, h₄⟩ => ⟨h₁, h₂, h₃, h₄⟩⟩

namespace Arguments

variable {disk : Disk} {a : Arguments}

theorem options_of_none (hfile : a.settingsFile? disk = none) :
    a.options disk = .ok (a.override (.ofSettings .empty)) := by
  unfold options
  rw [hfile]
  rfl

theorem options_of_unreadable {path : String} {error : FileError}
    (hfile : a.settingsFile? disk = some path) (htext : disk.readText path = .error error) :
    a.options disk = .error (.unreadable path error) := by
  simp only [options, hfile, Settings.load_of_unreadable htext, Except.map]

theorem options_of_invalid {path text : String} {failure : Failure}
    (hfile : a.settingsFile? disk = some path) (htext : disk.readText path = .ok text)
    (hread : Settings.read text = .error failure) :
    a.options disk = .error (.invalid path failure) := by
  simp only [options, hfile, Settings.load_of_invalid htext hread, Except.map]

theorem options_of_read {path text : String} {s : Settings}
    (hfile : a.settingsFile? disk = some path) (htext : disk.readText path = .ok text)
    (hread : Settings.read text = .ok s) : a.options disk = .ok (a.override (.ofSettings s)) := by
  simp only [options, hfile, Settings.load_of_read htext hread, Except.map]

/-- The options are those that the settings decide. -/
theorem options_eq_ok_iff {o : Options} : a.options disk = .ok o ↔
    ∃ s, disk.Says (a.settingsFile? disk) s ∧ Decides a s o := by
  simp only [decides_iff]
  cases hfile : a.settingsFile? disk with
  | none =>
    rw [options_of_none hfile, Except.ok.injEq]
    exact ⟨fun h => ⟨.empty, rfl, h.symm⟩, fun ⟨s, hs, ho⟩ => by rw [ho, hs]⟩
  | some path =>
    simp only [Disk.Says, ← Disk.readText_eq_ok_iff]
    cases htext : disk.readText path with
    | error error =>
      rw [options_of_unreadable hfile htext]
      simp
    | ok text =>
      cases hread : Settings.read text with
      | error failure => simp [options_of_invalid hfile htext hread, hread]
      | ok s => simp [options_of_read hfile htext hread, hread, eq_comm]

/-- The options fail for the file exactly if its bytes are no text. -/
theorem options_eq_unreadable_iff {path : String} :
    (∃ error, a.options disk = .error (.unreadable path error)) ↔
      a.settingsFile? disk = some path ∧ ∀ text, ¬ disk.HoldsText path text := by
  rw [← Disk.readText_eq_error_iff]
  cases hfile : a.settingsFile? disk with
  | none => simp [options_of_none hfile]
  | some file =>
    cases htext : disk.readText file with
    | error error =>
      rw [options_of_unreadable hfile htext]
      simp only [Except.error.injEq, LoadFailure.unreadable.injEq, exists_and_left, exists_eq',
        and_true, Option.some.injEq]
      exact ⟨fun h => ⟨h, error, h ▸ htext⟩, fun h => h.1⟩
    | ok text =>
      constructor
      · rintro ⟨error, h⟩
        cases hread : Settings.read text with
        | error failure => simp [options_of_invalid hfile htext hread] at h
        | ok s => simp [options_of_read hfile htext hread] at h
      · rintro ⟨hpath, error, herror⟩
        cases hpath
        rw [htext] at herror
        cases herror

/-- The options fail for the text of the file exactly if it gives no settings. -/
theorem options_eq_invalid_iff {path : String} {failure : Failure} :
    a.options disk = .error (.invalid path failure) ↔ a.settingsFile? disk = some path ∧
      ∃ text, disk.HoldsText path text ∧ Settings.read text = .error failure := by
  simp only [← Disk.readText_eq_ok_iff]
  cases hfile : a.settingsFile? disk with
  | none => simp [options_of_none hfile]
  | some file =>
    cases htext : disk.readText file with
    | error error =>
      rw [options_of_unreadable hfile htext]
      constructor
      · intro h
        cases h
      · rintro ⟨hpath, text, h, -⟩
        cases hpath
        rw [htext] at h
        cases h
    | ok text =>
      constructor
      · intro h
        cases hread : Settings.read text with
        | ok s => simp [options_of_read hfile htext hread] at h
        | error found =>
          simp only [options_of_invalid hfile htext hread, Except.error.injEq,
            LoadFailure.invalid.injEq] at h
          obtain ⟨rfl, rfl⟩ := h
          exact ⟨rfl, text, htext, hread⟩
      · rintro ⟨hpath, text', h, hread⟩
        cases hpath
        rw [htext, Except.ok.injEq] at h
        subst h
        exact options_of_invalid hfile htext hread

/-- A run with a named settings file asks for nothing but to read that file. -/
theorem options_congr {path : String} {other : Disk} (hconfig : a.config = some path)
    (hread : other.read path = disk.read path) : a.options other = a.options disk := by
  simp only [options, settingsFile?, hconfig, Settings.load, Disk.readText, hread]

end Arguments

/-- **The options of a run.** It has one settings file or none: the file that an argument names,
else the one in the folder of the script if that is a regular file. That folder is what the path of
the script has in front of its last name, and the current one where that is nothing. The options are
what the arguments, that file and the defaults decide field by field; there are none exactly if the
file cannot be read as text, or its text gives no settings, and the failure names the file. Beside a
file that an argument names, the disk is asked for no other. -/
theorem options_of_flags_and_file (disk : Disk) (a : Arguments) : ∃ chosen : Option String,
    (∀ file, a.SettingsAt disk file ↔ file = chosen) ∧ a.LooksBySpelling ∧
    (∀ o, a.options disk = .ok o ↔ ∃ s, disk.Says chosen s ∧ Decides a s o) ∧
    (∀ path, (∃ error, a.options disk = .error (.unreadable path error)) ↔
      chosen = some path ∧ ∀ text, ¬ disk.HoldsText path text) ∧
    (∀ path failure, a.options disk = .error (.invalid path failure) ↔ chosen = some path ∧
      ∃ text, disk.HoldsText path text ∧ Settings.read text = .error failure) ∧
    ∀ path, a.config = some path → ∀ other : Disk, other.read path = disk.read path →
      a.options other = a.options disk := by
  refine ⟨a.settingsFile? disk, fun file => Arguments.settingsAt_iff, a.looksBySpelling,
    fun o => Arguments.options_eq_ok_iff, fun path => Arguments.options_eq_unreadable_iff,
    fun path failure => Arguments.options_eq_invalid_iff, ?_⟩
  intro path hconfig other hread
  exact Arguments.options_congr hconfig hread

/-- A script in a folder below the root, with a settings file beside it. -/
theorem options_of_file_beside_script :
    let disk := Disk.ofContents [("/d/cream.json", .ok "\x7b\"history\":false\x7d".toUTF8)]
    let a : Arguments := ⟨["/d/x"], none, some .json, false, true, false⟩
    a.LooksIn "/d" ∧ a.SettingsAt disk (some "/d/cream.json") ∧
      a.options disk = .ok ⟨.json, some false, false, 1000⟩ := by
  intro disk a
  obtain ⟨chosen, hchosen, hspelled, hoptions, -⟩ := options_of_flags_and_file disk a
  have hlooks : a.LooksIn "/d" :=
    hspelled.below "/d" "x" rfl (by decide) (by decide +kernel) (by decide) (by decide)
  have hat : a.SettingsAt disk (some "/d/cream.json") := .found rfl hlooks (by decide +kernel)
  have htext : Settings.read "\x7b\"history\":false\x7d" =
      .ok ⟨none, none, some false, none⟩ := by decide +kernel
  refine ⟨hlooks, hat, (hoptions _).2 ⟨⟨none, none, some false, none⟩, ?_, rfl, rfl, rfl, rfl⟩⟩
  rw [← (hchosen _).1 hat]
  exact ⟨_, rfl, htext⟩

end ScriptLexer
