import ScriptLexer.Command.Prompt
import ScriptLexer.Proofs.ByteSearch

/-!
# The lines of a text

The prompt splits bytes. Where these are the UTF-8 form of a text, its lines are those between the
line feeds of the text, since no other character has the byte of a line feed in its form.

* `Prompt.textLines`: the lines of a text.
* `Prompt.textLines_last`, `Prompt.textLines_closed`: the last line, and one in front of others.
* `Prompt.lines_toUTF8`: the lines of the bytes of a text.
* `Prompt.edit_eq_self`: a line without backspaces is not changed.
-/

namespace ScriptLexer.Prompt

/-! ## Lines between line feeds -/

/-- A line without the carriage return at its end. -/
def dropReturn (line : List Char) : List Char :=
  if line.getLast? = some '\r' then line.dropLast else line

theorem dropReturn_subset (line : List Char) : dropReturn line ⊆ line := by
  unfold dropReturn
  split
  · exact List.dropLast_subset line
  · exact List.Subset.refl _

/-- The lines of a text, split at its line feeds: each but the last was closed by a line feed, with
or without a carriage return in front of it, and the last one is there if it has a character. -/
def textLines (text : List Char) : List (List Char) :=
  (text.splitOn '\n').dropLast.map dropReturn ++
    (text.splitOn '\n').getLast?.toList.filter (· ≠ [])

/-- A text is a line without a line feed, or such a line, a line feed and another text. -/
theorem lines_induction {motive : List Char → Prop}
    (last : ∀ line, '\n' ∉ line → motive line)
    (closed : ∀ line rest, '\n' ∉ line → motive rest → motive (line ++ '\n' :: rest)) :
    ∀ text, motive text := by
  intro text
  induction hlen : text.length using Nat.strongRecOn generalizing text with
  | _ n ih =>
    by_cases hmem : '\n' ∈ text
    · obtain ⟨line, rest, rfl, hline⟩ := List.eq_append_cons_of_mem hmem
      refine closed line rest hline (ih rest.length ?_ rest rfl)
      rw [← hlen, List.length_append, List.length_cons]
      omega
    · exact last text hmem

theorem textLines_last {line : List Char} (h : '\n' ∉ line) :
    textLines line = if line = [] then [] else [line] := by
  unfold textLines
  rw [List.splitOn_eq_singleton h]
  by_cases hline : line = [] <;> simp [hline]

theorem textLines_closed {line : List Char} (h : '\n' ∉ line) (rest : List Char) :
    textLines (line ++ '\n' :: rest) = dropReturn line :: textLines rest := by
  have hne : rest.splitOn '\n' ≠ [] := List.splitOn_ne_nil _ _
  unfold textLines
  rw [List.splitOn_append_cons_self_of_not_mem h, List.dropLast_cons_of_ne_nil hne,
    List.getLast?_cons_of_ne_nil hne]
  rfl

/-- The lines of two texts, of which the first ends with a line feed. -/
theorem textLines_append (front rest : List Char) :
    textLines (front ++ '\n' :: rest) = textLines (front ++ ['\n']) ++ textLines rest := by
  induction front using lines_induction with
  | last line h =>
    rw [textLines_closed h, textLines_closed h]
    rfl
  | closed line front h ih =>
    rw [List.append_assoc, List.cons_append, textLines_closed h, ih, List.append_assoc,
      List.cons_append, textLines_closed h]
    rfl

/-- A line takes its characters from the text. -/
theorem subset_of_mem_textLines {text line : List Char} (h : line ∈ textLines text) :
    line ⊆ text := by
  induction text using lines_induction with
  | last last hlast =>
    rw [textLines_last hlast] at h
    split at h
    · cases h
    · rw [List.mem_singleton.1 h]
      exact List.Subset.refl _
  | closed first rest hfirst ih =>
    rw [textLines_closed hfirst] at h
    rcases List.mem_cons.1 h with rfl | h
    · exact List.Subset.trans (dropReturn_subset first) (List.subset_append_left _ _)
    · have hrest : rest ⊆ first ++ '\n' :: rest :=
        List.Subset.trans (List.subset_cons_self _ _) (List.subset_append_right _ _)
      exact List.Subset.trans (ih h) hrest

/-- No line has a line feed. -/
theorem lineFeed_notMem_textLines {text line : List Char} (h : line ∈ textLines text) :
    '\n' ∉ line := by
  induction text using lines_induction with
  | last last hlast =>
    rw [textLines_last hlast] at h
    split at h
    · cases h
    · rwa [List.mem_singleton.1 h]
  | closed first rest hfirst ih =>
    rw [textLines_closed hfirst] at h
    rcases List.mem_cons.1 h with rfl | h
    · exact fun hmem => hfirst (dropReturn_subset first hmem)
    · exact ih h

/-! ## Lines of bytes -/

/-- The UTF-8 form of characters. -/
def encode (text : List Char) : List UInt8 :=
  text.flatMap String.utf8EncodeChar

theorem toList_toUTF8 (text : String) : text.toUTF8.data.toList = encode text.toList := by
  rw [String.toUTF8_eq_toByteArray, ← String.utf8Encode_toList, List.utf8Encode,
    List.data_toByteArray, encode]

theorem lineFeed_notMem_encode {text : List Char} (h : '\n' ∉ text) : 10 ∉ encode text := by
  intro hmem
  obtain ⟨c, hc, hbyte⟩ := List.mem_flatMap.1 hmem
  rw [Text.lineFeed_mem_encoding] at hbyte
  exact h (hbyte ▸ hc)

theorem text?_encode (line : List Char) : text? (encode line) = some (edit (.ofList line)) := by
  have hbytes : (encode line).toByteArray = (String.ofList line).toByteArray := by
    rw [String.toByteArray_ofList]
    rfl
  rw [text?, hbytes, String.fromUTF8?, dif_pos (String.isValidUTF8 _)]
  rfl

/-- Only a carriage return ends with its byte. -/
theorem unclose_encode (line : List Char) : unclose (encode line) = encode (dropReturn line) := by
  rcases List.eq_nil_or_concat line with rfl | ⟨front, c, rfl⟩
  · rfl
  rw [List.concat_eq_append]
  have hbytes : encode (front ++ [c]) = encode front ++ String.utf8EncodeChar c := by
    simp [encode]
  have hlast? : (encode front ++ String.utf8EncodeChar c).getLast? =
      (String.utf8EncodeChar c).getLast? := by
    rw [List.getLast?_append, Option.or_of_isSome (by simp)]
  unfold unclose dropReturn
  rw [List.getLast?_concat, hbytes, hlast?]
  by_cases hc : c = '\r'
  · subst hc
    have hreturn : String.utf8EncodeChar '\r' = [13] := by decide
    rw [if_pos rfl, List.dropLast_concat, hreturn, List.getLast?_singleton, if_pos rfl,
      List.dropLast_concat]
  · have hlast : (String.utf8EncodeChar c).getLast? ≠ some 13 := by
      intro h
      exact hc ((Text.byte_mem_encoding (a := '\r') (by decide) c).1 (List.mem_of_getLast? h))
    rw [if_neg hlast, if_neg (by simpa using hc), hbytes]

/-- **The lines of the bytes of a text** are its lines, with their backspaces applied. -/
theorem lines_toUTF8 (text : String) :
    lines text.toUTF8 = (textLines text.toList).map fun line => some (edit (.ofList line)) := by
  rw [lines, toList_toUTF8]
  -- the pieces between line feeds are encoded alike, but only a closed line drops its return
  induction text.toList using lines_induction with
  | last line h =>
    rw [List.splitOn_eq_singleton (lineFeed_notMem_encode h), textLines_last h, ofPieces]
    by_cases hline : line = []
    · rw [if_pos hline, hline]
      rfl
    · have hbytes : (encode line).isEmpty = false := by
        obtain ⟨c, cs, rfl⟩ := List.exists_cons_of_ne_nil hline
        simp [encode, String.utf8EncodeChar_ne_nil]
      rw [if_neg hline, hbytes, text?_encode]
      rfl
  | closed line rest h ih =>
    have hsplit : (encode (line ++ '\n' :: rest)).splitOn 10 =
        encode line :: (encode rest).splitOn 10 := by
      rw [← List.splitOn_append_cons_self_of_not_mem (lineFeed_notMem_encode h)]
      simp [encode]
      rfl
    rw [hsplit, textLines_closed h, List.map_cons, ← ih, ofPieces, unclose_encode, text?_encode]
    exact List.splitOn_ne_nil _ _

/-! ## Backspaces -/

/-- Clusters that are no backspaces are typed one behind another. -/
theorem typed_foldl (clusters : List (List Char)) (h : [backspace] ∉ clusters) (d : Draft) :
    (clusters.foldl Draft.type d).typed = clusters.flatten.reverse ++ d.typed := by
  induction clusters generalizing d with
  | nil => rfl
  | cons cluster clusters ih =>
    have hne : cluster ≠ [backspace] := fun he => h (he ▸ List.mem_cons_self)
    have hrest : [backspace] ∉ clusters := fun hmem => h (List.mem_cons_of_mem _ hmem)
    rw [List.foldl_cons, ih hrest, Draft.type, if_neg hne]
    simp

/-- **A line without backspaces is not changed.** -/
theorem edit_eq_self {line : String} (h : backspace ∉ line.toList) : edit line = line := by
  have hclusters : [backspace] ∉ Cluster.ofText line.toList := by
    intro hmem
    apply h
    rw [← Cluster.flatten_ofText line.toList]
    exact List.mem_flatten.2 ⟨_, hmem, List.mem_singleton.2 rfl⟩
  rw [edit, Draft.text, typed_foldl _ hclusters, Cluster.flatten_ofText]
  simp [Draft.empty]

theorem takeBack_subset (bytes : Nat) (typed : List Char) :
    Draft.takeBack bytes typed ⊆ typed := by
  fun_induction Draft.takeBack bytes typed with
  | case1 => exact List.Subset.refl _
  | case2 => exact List.Subset.refl _
  | case3 bytes c typed hfits ih => exact List.subset_cons_of_subset _ ih
  | case4 => exact List.Subset.refl _

theorem mem_of_mem_type {d : Draft} {cluster : List Char} {c : Char}
    (h : c ∈ (d.type cluster).typed) : c ∈ d.typed ∨ c ∈ cluster := by
  unfold Draft.type at h
  split at h
  · cases hsizes : d.sizes with
    | nil =>
      rw [hsizes] at h
      exact .inl h
    | cons size sizes =>
      rw [hsizes] at h
      exact .inl (takeBack_subset _ _ h)
  · rcases List.mem_append.1 h with h | h
    · exact .inr (List.mem_reverse.1 h)
    · exact .inl h

/-- A line that is edited gets no new characters. -/
theorem mem_of_mem_edit {line : String} {c : Char} (h : c ∈ (edit line).toList) :
    c ∈ line.toList := by
  have htyped : ∀ (clusters : List (List Char)) (d : Draft),
      c ∈ (clusters.foldl Draft.type d).typed → c ∈ d.typed ∨ c ∈ clusters.flatten := by
    intro clusters
    induction clusters with
    | nil => exact fun d hc => .inl hc
    | cons cluster clusters ih =>
      intro d hc
      rw [List.flatten_cons, List.mem_append]
      rcases ih _ hc with hc | hc
      · rcases mem_of_mem_type hc with hc | hc
        · exact .inl hc
        · exact .inr (.inl hc)
      · exact .inr (.inr hc)
  rw [edit, Draft.text, String.toList_ofList, List.mem_reverse] at h
  rcases htyped _ _ h with hc | hc
  · cases hc
  · rwa [Cluster.flatten_ofText] at hc

end ScriptLexer.Prompt
