/-!
# Paths

A path is a text of pieces between slashes. Empty pieces, and `.` in any place but the first, do not
change what a path names.

* `Path.pieces`: the texts between the slashes.
* `Path.parent?`: the path without its last named piece.
* `Path.parent?_of_named`: it is what stands in front of that piece.
* `Path.length_lt_of_parent?`: it is shorter.
* `Path.ancestors`: a path and the paths above it.
* `Path.join`: a name below a path.
-/

namespace ScriptLexer.Path

/-- The most bytes that a path may have. -/
def maxSize : Nat := 4095

/-- The most bytes that a piece of a path may have. -/
def maxPieceSize : Nat := 255

/-- The texts between the slashes. A path that begins with a slash has an empty first piece. -/
def pieces (path : String) : List String :=
  (path.toList.splitOn '/').map String.ofList

/-- Whether a later piece names nothing. -/
def isIdle (piece : String) : Bool :=
  piece == "" || piece == "."

/-- Without the idle pieces at the end. -/
def trimEnd (more : List String) : List String :=
  (more.reverse.dropWhile isIdle).reverse

/-- The path without its last named piece: empty when there is only one, none for the root and the
empty path. -/
def parent? (path : String) : Option String :=
  match pieces path with
  | [] => none
  | first :: more =>
    match trimEnd more with
    | [] => if first = "" then none else some ""
    | named =>
      match trimEnd named.dropLast with
      | [] => some (if first = "" then "/" else first)
      | kept => some ("/".intercalate (first :: kept))

/-- The pieces of a path with slashes between them are the path. -/
theorem intercalate_pieces (path : String) : "/".intercalate (pieces path) = path := by
  have hslash : "/".toList = ['/'] := rfl
  apply String.toList_inj.1
  rw [String.toList_intercalate, pieces, List.map_map, hslash]
  simp only [Function.comp_def, String.toList_ofList, List.map_id', List.intercalate_splitOn]

theorem intercalate_append {front rest : List String} (hfront : front ≠ []) (hrest : rest ≠ []) :
    "/".intercalate (front ++ rest) = "/".intercalate front ++ "/" ++ "/".intercalate rest := by
  apply String.toList_inj.1
  simp only [String.toList_intercalate, String.toList_append, List.map_append]
  induction front with
  | nil => exact absurd rfl hfront
  | cons piece front ih =>
    have hmore : rest.map String.toList ≠ [] := by simpa using hrest
    cases front with
    | nil =>
      rw [List.map_cons, List.map_nil, List.singleton_append,
        List.intercalate_cons_of_ne_nil hmore, List.intercalate_singleton]
    | cons second front =>
      have hne : (second :: front).map String.toList ≠ [] := by simp
      rw [List.map_cons, List.cons_append, List.intercalate_cons_of_ne_nil (by simp),
        List.intercalate_cons_of_ne_nil hne, ih (by simp)]
      simp only [List.append_assoc]

theorem trimEnd_isPrefix (more : List String) : trimEnd more <+: more := by
  have h := List.reverse_prefix.2 (List.dropWhile_suffix (l := more.reverse) isIdle)
  rwa [List.reverse_reverse] at h

theorem pieces_append (folder name : String) :
    pieces (folder ++ "/" ++ name) = pieces folder ++ pieces name := by
  have hslash : "/".toList = ['/'] := rfl
  rw [pieces, String.toList_append, String.toList_append, hslash, List.append_assoc,
    List.singleton_append, List.splitOn_append_cons_self, List.map_append]
  rfl

theorem pieces_of_notMem {name : String} (h : '/' ∉ name.toList) : pieces name = [name] := by
  rw [pieces, List.splitOn_eq_singleton h, List.map_singleton, String.ofList_toList]

/-- Nothing is taken off a path whose last piece names something. -/
theorem trimEnd_eq_self {more : List String}
    (h : ∀ last, more.getLast? = some last → isIdle last = false) : trimEnd more = more := by
  unfold trimEnd
  rcases List.eq_nil_or_concat more with rfl | ⟨front, last, rfl⟩
  · rfl
  · have hlast : isIdle last = false := h last (by simp)
    rw [List.concat_eq_append, List.reverse_append, List.reverse_singleton, List.singleton_append,
      List.dropWhile_cons_of_neg (by simp [hlast]), List.reverse_cons, List.reverse_reverse]

/-- Idle pieces at the end are taken off. -/
theorem trimEnd_append (more : List String) {idle : List String}
    (h : ∀ piece ∈ idle, isIdle piece = true) : trimEnd (more ++ idle) = trimEnd more := by
  unfold trimEnd
  rw [List.reverse_append, List.dropWhile_append_of_pos (by simpa using h)]

theorem trimEnd_of_idle {idle : List String} (h : ∀ piece ∈ idle, isIdle piece = true) :
    trimEnd idle = [] :=
  trimEnd_append [] h

/-- A path that names nothing behind its first piece is the root, empty, or lies in the current
folder, whose path is empty. -/
theorem parent?_of_unnamed {path first : String} {idle : List String}
    (hpieces : pieces path = first :: idle) (hidle : ∀ piece ∈ idle, isIdle piece = true) :
    parent? path = if first = "" then none else some "" := by
  simp only [parent?, hpieces, trimEnd_of_idle hidle]

/-- **The folder of a path is what stands in front of its last name**, without the idle pieces
between. -/
theorem parent?_of_named {path first name : String} {kept gap idle : List String}
    (hpieces : pieces path = first :: (kept ++ gap ++ name :: idle))
    (hkept : ∀ last, kept.getLast? = some last → isIdle last = false)
    (hgap : ∀ piece ∈ gap, isIdle piece = true) (hname : isIdle name = false)
    (hidle : ∀ piece ∈ idle, isIdle piece = true) : parent? path =
      some (if kept = [] ∧ first = "" then "/" else "/".intercalate (first :: kept)) := by
  have hsplit : kept ++ gap ++ name :: idle = kept ++ gap ++ [name] ++ idle := by simp
  have hnamed : trimEnd (kept ++ gap ++ name :: idle) = kept ++ gap ++ [name] := by
    rw [hsplit, trimEnd_append _ hidle]
    exact trimEnd_eq_self (by simp [hname])
  have hfolder : trimEnd (kept ++ gap ++ [name]).dropLast = kept := by
    rw [List.dropLast_concat, trimEnd_append _ hgap]
    exact trimEnd_eq_self hkept
  rw [parent?, hpieces]
  simp only [hnamed]
  split
  next hnone => simp at hnone
  next =>
    rw [hfolder]
    cases kept with
    | nil => by_cases hfirst : first = "" <;> simp [hfirst]
    | cons second kept => simp

/-- The folder of a path of two parts is the first one, if that ends in a name. -/
theorem parent?_append {folder name : String} (hfolder : folder ≠ "")
    (hlast : ∀ last, (pieces folder).tail.getLast? = some last → isIdle last = false)
    (hslash : '/' ∉ name.toList) (hname : isIdle name = false) :
    parent? (folder ++ "/" ++ name) = some folder := by
  have hjoin := intercalate_pieces folder
  obtain ⟨first, kept, hpieces⟩ : ∃ first kept, pieces folder = first :: kept := by
    refine List.exists_cons_of_ne_nil fun hnil => hfolder ?_
    rw [← hjoin, hnil]
    rfl
  rw [hpieces] at hjoin hlast
  have hpath : pieces (folder ++ "/" ++ name) = first :: (kept ++ [] ++ name :: []) := by
    rw [pieces_append, hpieces, pieces_of_notMem hslash]
    simp
  have hroot : ¬ (kept = [] ∧ first = "") := by
    rintro ⟨rfl, rfl⟩
    exact hfolder hjoin.symm
  rw [parent?_of_named hpath hlast (by simp) hname (by simp), if_neg hroot, hjoin]

/-- In front of the last name something is left out. -/
theorem exists_trimEnd_dropLast_append {more : List String} (h : trimEnd more ≠ []) :
    ∃ rest, rest ≠ [] ∧ trimEnd (trimEnd more).dropLast ++ rest = more := by
  have hkept := trimEnd_isPrefix (trimEnd more).dropLast
  obtain ⟨rest, hrest⟩ := (hkept.trans (List.dropLast_prefix _)).trans (trimEnd_isPrefix more)
  refine ⟨rest, ?_, hrest⟩
  rintro rfl
  have hless := hkept.length_le
  have hmore := (trimEnd_isPrefix more).length_le
  have hpos := List.length_pos_iff.2 h
  rw [List.append_nil] at hrest
  rw [hrest, List.length_dropLast] at hless
  omega

theorem length_append_lt {folder rest : String} :
    folder.length < (folder ++ "/" ++ rest).length := by
  simp only [String.length_append]
  have : "/".length = 1 := rfl
  omega

/-- **A path is longer than the one without its last piece.** -/
theorem length_lt_of_parent? {path folder : String} (h : parent? path = some folder) :
    folder.length < path.length := by
  have hpath := intercalate_pieces path
  unfold parent? at h
  cases hpieces : pieces path with
  | nil => simp [hpieces] at h
  | cons first more =>
    rw [hpieces] at hpath
    simp only [hpieces] at h
    cases hnamed : trimEnd more with
    | nil =>
      -- nothing is named behind the first piece, which is not empty
      simp only [hnamed] at h
      split at h
      · cases h
      next hfirst =>
        cases h
        have hne : path ≠ "" := by
          rintro rfl
          have hempty : pieces "" = [""] := rfl
          rw [hempty] at hpieces
          exact hfirst (List.cons.inj hpieces).1.symm
        exact Nat.pos_of_ne_zero fun hzero => hne (String.length_eq_zero_iff.1 hzero)
    | cons name named =>
      simp only [hnamed] at h
      -- what is kept is a proper part of what stands behind the first slash
      have hsome : trimEnd more ≠ [] := by simp [hnamed]
      obtain ⟨rest, hne, hrest⟩ := exists_trimEnd_dropLast_append hsome
      rw [hnamed] at hrest
      cases hkept : trimEnd (name :: named).dropLast with
      | nil =>
        simp only [hkept] at h
        rw [hkept, List.nil_append] at hrest
        have hjoin : path = first ++ "/" ++ "/".intercalate rest := by
          have happend := intercalate_append (List.cons_ne_nil first []) hne
          rw [← hpath, ← hrest]
          simpa using happend
        cases h
        split
        next hfirst =>
          -- below the root something has a name
          have hbelow : "/".intercalate rest ≠ "" := by
            intro hnone
            rw [hjoin, hfirst, hnone] at hpieces
            have hroot : pieces ("" ++ "/" ++ "") = ["", ""] := rfl
            rw [hroot] at hpieces
            rw [← (List.cons.inj hpieces).2] at hnamed
            cases hnamed
          have hpos := mt String.length_eq_zero_iff.1 hbelow
          rw [hjoin, hfirst, String.length_append]
          have hslash : ("" ++ "/").length = 1 := rfl
          have hone : "/".length = 1 := rfl
          omega
        · rw [hjoin]
          exact length_append_lt
      | cons second kept =>
        simp only [hkept] at h
        cases h
        rw [hkept] at hrest
        have happend := intercalate_append (List.cons_ne_nil first (second :: kept)) hne
        rw [List.cons_append, hrest, hpath] at happend
        rw [happend]
        exact length_append_lt

/-- A path, the path without its last named piece, and so on. -/
def ancestors (path : String) : List String :=
  match h : parent? path with
  | none => [path]
  | some folder =>
    have := length_lt_of_parent? h
    path :: ancestors folder
termination_by path.length

theorem ancestors_of_some {path folder : String} (h : parent? path = some folder) :
    ancestors path = path :: ancestors folder := by
  rw [ancestors]
  split <;> simp_all

theorem ancestors_of_none {path : String} (h : parent? path = none) : ancestors path = [path] := by
  rw [ancestors]
  split <;> simp_all

/-- A path is the first of its ancestors. -/
theorem exists_ancestors_eq (path : String) : ∃ above, ancestors path = path :: above := by
  cases h : parent? path with
  | none => exact ⟨[], ancestors_of_none h⟩
  | some folder => exact ⟨ancestors folder, ancestors_of_some h⟩

/-- A name below a path; below the empty path it stands alone. -/
def join (path name : String) : String :=
  if path = "" ∨ path.toList.getLast? = some '/' then path ++ name else path ++ "/" ++ name

/-- The pieces of a name below a path end with the name. -/
theorem pieces_join (path : String) {name : String} (h : '/' ∉ name.toList) :
    ∃ front, pieces (join path name) = front ++ [name] := by
  have hname := pieces_of_notMem h
  unfold join
  split
  next hends =>
    rcases hends with rfl | hlast
    · exact ⟨[], by rw [String.empty_append, hname, List.nil_append]⟩
    · obtain ⟨front, hfront⟩ := List.getLast?_eq_some_iff.1 hlast
      have hpath : path = .ofList front ++ "/" := by
        apply String.toList_inj.1
        rw [hfront, String.toList_append, String.toList_ofList]
        rfl
      exact ⟨pieces (.ofList front), by rw [hpath, pieces_append, hname]⟩
  next => exact ⟨pieces path, by rw [pieces_append, hname]⟩

/-- A name below a path stands at the end. -/
theorem exists_join_eq (path name : String) : ∃ front, join path name = front ++ name := by
  unfold join
  split
  · exact ⟨path, rfl⟩
  · exact ⟨path ++ "/", rfl⟩

end ScriptLexer.Path
