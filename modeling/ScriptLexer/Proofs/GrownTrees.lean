import ScriptLexer.Fault
import ScriptLexer.Files.Tree

/-!
# Trees with more folders

To make a folder adds one place to a tree, and changes nothing that is there. To make a folder with
all that are missing above it adds places one below another; where the system refuses one of them,
those above it stay.

* `FileTree.Grown`: a tree with everything that was there, and at most some folders more.
* `FileTree.Grown.place_eq`, `FileTree.Grown.read_eq`: paths lead where they led, to the same.
* `FileTree.makeFolder_cases`: what making a folder does.
* `FileTree.LedBy`: the places that some paths lead to.
* `FileTree.grown_makeFolders`: making folders adds places that the paths lead to.
* `FileTree.isFolder_of_makeFolders`: unless there was a failure, the folder is there.
-/

namespace ScriptLexer

namespace FileTree

variable {t after made : FileTree} {place above : List String} {places : List String → Prop}
  {path name : String}

/-! ## One more place -/

/-- What leads to an entry leads to folders on the way. -/
theorem isSome_lookup?_of_prefix (hp : above <+: place) (h : (t.lookup? place).isSome) :
    (t.lookup? above).isSome := by
  unfold lookup? at h ⊢
  by_cases hnil : above = []
  · simp [hnil]
  have hplace : place ≠ [] := fun hnone => hnil (List.prefix_nil.1 (hnone ▸ hp))
  simp only [List.isEmpty_iff, hnil, hplace, if_false] at h ⊢
  cases habove : t.entries.find? (·.1 == above) with
  | some found => rfl
  | none =>
    have hany : (above.isPrefixOf t.current || t.entries.any fun e => above.isPrefixOf e.1) =
        true := by
      cases hfound : t.entries.find? (·.1 == place) with
      | some found =>
        have hself : found.1 = place := by simpa using List.find?_some hfound
        refine Bool.or_eq_true_iff.2 (.inr (List.any_eq_true.2 ⟨found, ?_, ?_⟩))
        · exact List.mem_of_find?_eq_some hfound
        · rw [hself]
          exact List.isPrefixOf_iff_prefix.2 hp
      | none =>
        simp only [hfound] at h
        split at h
        next hbelow =>
          rcases Bool.or_eq_true_iff.1 hbelow with hcurrent | hlisted
          · have hle := hp.trans (List.isPrefixOf_iff_prefix.1 hcurrent)
            exact Bool.or_eq_true_iff.2 (.inl (List.isPrefixOf_iff_prefix.2 hle))
          · obtain ⟨e, he, hprefix⟩ := List.any_eq_true.1 hlisted
            have hle := hp.trans (List.isPrefixOf_iff_prefix.1 hprefix)
            exact Bool.or_eq_true_iff.2
              (.inr (List.any_eq_true.2 ⟨e, he, List.isPrefixOf_iff_prefix.2 hle⟩))
        · cases h
    simp [hany]

/-- A folder at one more place is seen there and on the way. -/
theorem lookup?_addFolder (t : FileTree) (new place : List String) :
    (t.addFolder new).lookup? place =
      (t.lookup? place).or (if place.isPrefixOf new then some .folder else none) := by
  unfold lookup? addFolder
  by_cases hnil : place = []
  · simp [hnil]
  simp only [List.isEmpty_iff, hnil, if_false, List.find?_append, List.any_append, List.any_cons,
    List.any_nil, Bool.or_false]
  cases hfound : t.entries.find? (·.1 == place) with
  | some found => rfl
  | none =>
    rw [Option.none_or, ← Bool.or_assoc]
    by_cases hself : new = place
    · have hprefix : place.isPrefixOf new = true := by simp [hself]
      rw [List.find?_cons_of_pos (by simp [hself]), hprefix]
      cases place.isPrefixOf t.current || t.entries.any fun e => place.isPrefixOf e.1 <;> rfl
    · rw [List.find?_cons_of_neg (by simp [hself]), List.find?_nil]
      cases place.isPrefixOf t.current || t.entries.any fun e => place.isPrefixOf e.1 <;> rfl

/-- A tree has everything that another one has, and what it has more are folders at some places. -/
structure Grown (t : FileTree) (places : List String → Prop) (after : FileTree) : Prop where
  current : after.current = t.current
  refusal? : after.refusal? = t.refusal?
  kept : ∀ place entry, t.lookup? place = some entry → after.lookup? place = some entry
  made : ∀ place entry, t.lookup? place = none → after.lookup? place = some entry →
    entry = .folder ∧ places place

/-- A folder added in a folder is one more place. -/
theorem grown_addFolder (h : (t.lookup? above).isSome) :
    Grown t (· = above ++ [name]) (t.addFolder (above ++ [name])) where
  current := rfl
  refusal? := rfl
  kept place entry hentry := by rw [lookup?_addFolder, hentry, Option.some_or]
  made place entry hnone hsome := by
    rw [lookup?_addFolder, hnone, Option.none_or] at hsome
    split at hsome
    next hprefix =>
      rcases List.prefix_concat_iff.1 (List.isPrefixOf_iff_prefix.1 hprefix) with heq | hway
      · exact ⟨(Option.some.inj hsome).symm, heq⟩
      · -- what is on the way was there
        have hthere := isSome_lookup?_of_prefix hway h
        rw [hnone] at hthere
        cases hthere
    · cases hsome

namespace Grown

theorem refl (t : FileTree) (places : List String → Prop) : Grown t places t where
  current := rfl
  refusal? := rfl
  kept _ _ h := h
  made _ _ hnone hsome := by simp [hnone] at hsome

theorem mono {more : List String → Prop} (h : Grown t places after)
    (hle : ∀ place, places place → more place) : Grown t more after where
  current := h.current
  refusal? := h.refusal?
  kept := h.kept
  made place entry hnone hsome := (h.made place entry hnone hsome).imp_right (hle place)

theorem trans (h : Grown t places made) (h' : Grown made places after) : Grown t places after where
  current := h'.current.trans h.current
  refusal? := h'.refusal?.trans h.refusal?
  kept place entry hentry := h'.kept place entry (h.kept place entry hentry)
  made place entry hnone hsome := by
    cases hmade : made.lookup? place with
    | none => exact h'.made place entry hmade hsome
    | some found =>
      have heq := h'.kept place found hmade
      rw [hsome, Option.some.injEq] at heq
      rw [heq]
      exact h.made place found hnone hmade

/-! ## Paths in a tree that has grown -/

theorem checkFolder_eq (h : Grown t places after) {piece : String}
    (hc : t.checkFolder place piece = .ok ()) : after.checkFolder place piece = .ok () := by
  unfold checkFolder at hc ⊢
  rw [h.refusal?]
  cases he : t.lookup? place with
  | none => simp [he] at hc
  | some entry =>
    rw [h.kept place entry he]
    rwa [he] at hc

/-- A piece that leads on still does. -/
theorem step_eq (h : Grown t places after) {piece : String} {turn : Turn}
    (hs : t.step place piece = .ok turn) : after.step place piece = .ok turn := by
  unfold step at hs ⊢
  cases hc : t.checkFolder place piece with
  | error error => simp [hc, bind, Except.bind] at hs
  | ok passed =>
    rw [h.checkFolder_eq hc]
    simp only [hc, bind, Except.bind] at hs ⊢
    by_cases hidle : Path.isIdle piece
    · simpa [hidle] using hs
    by_cases hdots : piece = ".."
    · simpa [hidle, hdots] using hs
    by_cases hsize : Path.maxPieceSize < piece.utf8ByteSize
    · simp [hidle, hdots, hsize] at hs
    cases hentry : t.lookup? (place ++ [piece]) with
    | none => simp [hidle, hdots, hsize, hentry] at hs
    | some entry =>
      rw [h.kept _ entry hentry]
      rwa [hentry] at hs

theorem walkWith_eq (h : Grown t places after)
    {follow follow' : List String → List String → Except FileError (List String)}
    (hf : ∀ place pieces stop, follow place pieces = .ok stop → follow' place pieces = .ok stop)
    {pieces stop : List String} (hw : t.walkWith follow place pieces = .ok stop) :
    after.walkWith follow' place pieces = .ok stop := by
  induction pieces generalizing place with
  | nil => exact hw
  | cons piece more ih =>
    rw [walkWith] at hw ⊢
    cases hs : t.step place piece with
    | error error => simp [hs] at hw
    | ok turn =>
      rw [h.step_eq hs]
      rw [hs] at hw
      cases turn with
      | arrive next => exact ih hw
      | follow path => exact hf _ _ _ hw

/-- **A walk that leads somewhere still leads there.** -/
theorem walk_eq (h : Grown t places after) {links : Nat} {pieces stop : List String}
    (hw : t.walk links place pieces = .ok stop) : after.walk links place pieces = .ok stop := by
  induction links generalizing place pieces stop with
  | zero => exact h.walkWith_eq (fun _ _ _ hfail => hfail) hw
  | succ links ih => exact h.walkWith_eq (fun _ _ _ hfollow => ih hfollow) hw

/-- A path that leads to a place still leads there. -/
theorem place_eq (h : Grown t places after) (hp : t.place path = .ok place) :
    after.place path = .ok place := by
  unfold FileTree.place at hp ⊢
  cases htaken : taken path with
  | error error => simp [htaken, bind, Except.bind] at hp
  | ok pieces =>
    simp only [htaken, bind, Except.bind] at hp ⊢
    rw [h.current]
    exact h.walk_eq hp

/-- A path that leads to an entry still leads to the same. -/
theorem resolve_eq (h : Grown t places after) {entry : Entry} (hr : t.resolve path = .ok entry) :
    after.resolve path = .ok entry := by
  unfold resolve at hr ⊢
  cases hp : t.place path with
  | error error => simp [hp, bind, Except.bind] at hr
  | ok place =>
    rw [h.place_eq hp]
    simp only [hp, bind, Except.bind] at hr ⊢
    cases he : t.lookup? place with
    | none => simp [he] at hr
    | some found =>
      rw [h.kept place found he]
      rwa [he] at hr

/-- A file that can be read still reads the same. -/
theorem read_eq (h : Grown t places after) {content : ByteArray}
    (hr : t.disk.read path = .ok content) : after.disk.read path = .ok content := by
  unfold disk at hr ⊢
  cases hp : t.place path with
  | error error => simp [hp, bind, Except.bind] at hr
  | ok place =>
    simp only [hp, h.place_eq hp, h.refusal?, bind, Except.bind] at hr ⊢
    cases hrefused : t.refusal? .read place with
    | some error => simp [hrefused] at hr
    | none =>
      simp only [hrefused] at hr ⊢
      cases he : t.lookup? place with
      | none => simp [he] at hr
      | some found =>
        rw [h.kept place found he]
        rwa [he] at hr

end Grown

/-! ## Making folders -/

theorem lookup?_of_checkFolder {piece : String} (h : t.checkFolder place piece = .ok ()) :
    t.lookup? place = some .folder := by
  unfold checkFolder at h
  cases he : t.lookup? place with
  | none => simp [he] at h
  | some entry => cases entry <;> simp [he] at h ⊢

/-- Pieces behind others lead on from where those lead, however many links are left. -/
theorem walkWith_append {follow : List String → List String → Except FileError (List String)}
    {front rest stop middle : List String} (hfront : t.walkWith follow place front = .ok middle)
    (hfollow : ∀ place pieces, follow place pieces = .ok middle →
      follow place (pieces ++ rest) = .ok stop)
    (hrest : t.walkWith follow middle rest = .ok stop) :
    t.walkWith follow place (front ++ rest) = .ok stop := by
  induction front generalizing place with
  | nil =>
    cases hfront
    exact hrest
  | cons piece front ih =>
    rw [List.cons_append, walkWith]
    rw [walkWith] at hfront
    cases hs : t.step place piece with
    | error error => simp [hs] at hfront
    | ok turn =>
      rw [hs] at hfront
      cases turn with
      | arrive next => exact ih hfront
      | follow path =>
        have hmore := hfollow _ _ hfront
        rwa [List.append_assoc] at hmore

theorem walk_append {links : Nat} {front rest stop middle : List String}
    (hfront : t.walk links place front = .ok middle)
    (hrest : ∀ left, t.walk left middle rest = .ok stop) :
    t.walk links place (front ++ rest) = .ok stop := by
  induction links generalizing place front with
  | zero => exact walkWith_append hfront (fun _ _ hfail => by cases hfail) (hrest 0)
  | succ links ih => exact walkWith_append hfront (fun _ _ => ih) (hrest (links + 1))

/-- Empty pieces do not lead away from a folder. -/
theorem walkWith_replicate (h : t.lookup? place = some .folder)
    (follow : List String → List String → Except FileError (List String)) (count : Nat) :
    t.walkWith follow place (.replicate count "") = .ok place := by
  have hstep : t.step place "" = .ok (.arrive place) := by
    unfold step checkFolder
    rw [h]
    rfl
  induction count with
  | zero => rfl
  | succ count ih =>
    rw [List.replicate_succ, walkWith, hstep]
    exact ih

/-- A piece that leads to a folder, and empty ones behind it. -/
theorem walk_step {next : List String} {piece : String} (links count : Nat)
    (hstep : t.step place piece = .ok (.arrive next)) (hnext : t.lookup? next = some .folder) :
    t.walk links place (piece :: .replicate count "") = .ok next := by
  cases links <;>
    · rw [walk, walkWith, hstep]
      exact walkWith_replicate hnext _ count

theorem lookup?_addFolder_self (t : FileTree) (new : List String) (h : t.lookup? new = none) :
    (t.addFolder new).lookup? new = some .folder := by
  rw [lookup?_addFolder, h, Option.none_or, if_pos (by simp)]

/-- Pieces are the last one that is not empty, what stands in front of it, and empty ones. -/
theorem eq_append_of_dropWhile {pieces front : List String}
    (h : pieces.reverse.dropWhile (· = "") = name :: front) :
    name ≠ "" ∧ ∃ count, pieces = front.reverse ++ name :: .replicate count "" := by
  have hne : name ≠ "" := by
    have hhead := List.head?_dropWhile_not (fun piece : String => decide (piece = ""))
      pieces.reverse
    rw [h] at hhead
    simpa using hhead
  have hsplit := List.takeWhile_append_dropWhile (p := fun piece : String => decide (piece = ""))
    (l := pieces.reverse)
  have hempty : pieces.reverse.takeWhile (· = "") =
      .replicate (pieces.reverse.takeWhile (· = "")).length "" :=
    List.eq_replicate_iff.2 ⟨rfl, fun piece hpiece => by
      simpa using List.all_eq_true.1 List.all_takeWhile piece hpiece⟩
  rw [h, hempty] at hsplit
  refine ⟨hne, (pieces.reverse.takeWhile (· = "")).length, ?_⟩
  have hreverse := congrArg List.reverse hsplit
  rw [List.reverse_reverse, List.reverse_append, List.reverse_cons, List.append_assoc,
    List.singleton_append, List.reverse_replicate] at hreverse
  exact hreverse.symm

/-- A path to a folder that was added leads there: up to the folder above as before, and then over
the last name. -/
theorem place_addFolder {pieces front : List String} {count : Nat}
    (htaken : taken path = .ok pieces) (hpieces : pieces = front ++ name :: .replicate count "")
    (hwalk : t.walk maxLinks (origin t.current pieces) front = .ok above)
    (hcheck : t.checkFolder above name = .ok ()) (hname : name ≠ "" ∧ name ≠ "." ∧ name ≠ "..")
    (hsize : ¬ Path.maxPieceSize < name.utf8ByteSize) (hnew : t.lookup? (above ++ [name]) = none) :
    (t.addFolder (above ++ [name])).place path = .ok (above ++ [name]) := by
  have hgrown : Grown t (· = above ++ [name]) (t.addFolder (above ++ [name])) :=
    grown_addFolder (by rw [lookup?_of_checkFolder hcheck]; rfl)
  have hmade := t.lookup?_addFolder_self _ hnew
  have hidle : Path.isIdle name = false := by simp [Path.isIdle, hname]
  have hstep : (t.addFolder (above ++ [name])).step above name =
      .ok (.arrive (above ++ [name])) := by
    unfold step
    rw [hgrown.checkFolder_eq hcheck]
    simp only [bind, Except.bind, hidle, hname.2.2, hsize, hmade, Bool.false_eq_true, if_false]
    rfl
  have hwhole := walk_append (hgrown.walk_eq hwalk) fun left =>
    walk_step left count hstep hmade
  rw [← hpieces] at hwhole
  unfold FileTree.place
  rw [htaken]
  exact hwhole

/-- **Making a folder** adds one place in a folder that is there, where nothing was, and the path
leads to that place. -/
theorem makeFolder_cases (h : t.makeFolder path = .ok made) : ∃ above name,
    (t.lookup? above).isSome ∧ t.lookup? (above ++ [name]) = none ∧
      made = t.addFolder (above ++ [name]) ∧ made.place path = .ok (above ++ [name]) := by
  obtain ⟨pieces, htaken, h⟩ := exists_of_bind h
  split at h
  · cases h
  next name front hnamed =>
    obtain ⟨above, hwalk, h⟩ := exists_of_bind h
    obtain ⟨passed, hcheck, h⟩ := exists_of_bind h
    obtain ⟨hne, count, hpieces⟩ := eq_append_of_dropWhile hnamed
    split at h
    · cases h
    next hdots =>
      split at h
      · cases h
      next hsize =>
        split at h
        · cases h
        next hthere =>
          split at h
          · cases h
          · cases h
            have hnone : t.lookup? (above ++ [name]) = none := by simpa using hthere
            have hname : name ≠ "" ∧ name ≠ "." ∧ name ≠ ".." := ⟨hne, not_or.1 hdots⟩
            refine ⟨above, name, by rw [lookup?_of_checkFolder hcheck]; rfl, hnone, rfl, ?_⟩
            exact place_addFolder htaken hpieces hwalk hcheck hname hsize hnone

/-- The folders of paths are at places that the paths lead to. -/
def LedBy (t : FileTree) (paths : List String) (place : List String) : Prop :=
  ∃ path ∈ paths, t.place path = .ok place

theorem grown_makeFolder (h : t.makeFolder path = .ok made) :
    Grown t (made.LedBy [path]) made ∧ made.isFolder path = true := by
  obtain ⟨above, name, habove, hnone, rfl, hplace⟩ := makeFolder_cases h
  constructor
  · refine (grown_addFolder habove).mono ?_
    rintro place rfl
    exact ⟨path, List.mem_singleton_self path, hplace⟩
  · unfold isFolder resolve
    rw [hplace]
    simp [bind, Except.bind, lookup?_addFolder_self t _ hnone, pure, Except.pure]

theorem LedBy.mono {paths more : List String} (hle : paths ⊆ more) (hled : t.LedBy paths place) :
    t.LedBy more place := by
  obtain ⟨path, hpath, hplace⟩ := hled
  exact ⟨path, hle hpath, hplace⟩

/-- What paths lead to in a tree they lead to in one that has grown. -/
theorem LedBy.grown {paths : List String} (h : Grown t places after) (hled : t.LedBy paths place) :
    after.LedBy paths place := by
  obtain ⟨path, hpath, hplace⟩ := hled
  exact ⟨path, hpath, h.place_eq hplace⟩

/-- **Making folders**, in each way that it can go, only adds folders, at places that the paths lead
to. -/
theorem grown_makeFolders (t : FileTree) (paths : List String) :
    Grown t ((t.makeFolders paths).1.LedBy paths) (t.makeFolders paths).1 := by
  induction paths with
  | nil => exact .refl t _
  | cons path paths ih =>
    have hpath : [path] ⊆ path :: paths := by simp
    have habove : paths ⊆ path :: paths := by simp
    unfold makeFolders
    split
    · exact .refl t _
    · split
      next made hmade =>
        -- the folder itself was all that was missing
        exact (grown_makeFolder hmade).1.mono fun _ => .mono hpath
      next =>
        split
        next made error hmore =>
          rw [hmore] at ih
          exact ih.mono fun _ => .mono habove
        next made hmore =>
          rw [hmore] at ih
          split
          next whole hwhole =>
            -- the folders above it, and then the folder itself
            have hlast := (grown_makeFolder hwhole).1
            exact (ih.mono fun _ hled => (hled.mono habove).grown hlast).trans
              (hlast.mono fun _ => .mono hpath)
          next => exact ih.mono fun _ => .mono habove
      next => exact .refl t _

/-- **A folder that was made without a failure is there.** -/
theorem isFolder_of_makeFolders {paths : List String} (hpath : path ≠ "")
    (h : (t.makeFolders (path :: paths)).2 = none) :
    (t.makeFolders (path :: paths)).1.isFolder path = true := by
  unfold makeFolders at h ⊢
  rw [if_neg hpath] at h ⊢
  split
  next made hmade => exact (grown_makeFolder hmade).2
  next hmissing =>
    simp only [hmissing] at h
    split
    next made error hmore => simp [hmore] at h
    next made hmore =>
      simp only [hmore] at h
      split
      next whole hwhole => exact (grown_makeFolder hwhole).2
      next error hwhole => simpa [hwhole] using h
  next error hne hmade => simpa [hmade] using h

end FileTree

end ScriptLexer
