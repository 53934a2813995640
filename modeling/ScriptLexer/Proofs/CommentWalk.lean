import ScriptLexer.Proofs.WalkerRuns

/-!
# Through a comment by bytes and by characters

A walker passes a comment by a search for the byte of a line feed. It comes to the same place when
it takes one character after another until a line feed or the end is next, whatever the characters
are, and that is where the comment of a scan ends.

* `Walker.toLineEnd`: one character after another.
* `Walker.toLineEnd_stop`, `Walker.toLineEnd_take`, `Walker.toLineEnd_run`: at the end of a line,
  over one character, and over all that are left on a line.
* `Walker.LineLeft`: what is kept on the way, and where it leads.
* `skipComment_eq_toLineEnd`: the search and the walk agree.
-/

namespace ScriptLexer

/-- What a line stops at is its end or a line feed. -/
theorem Text.Stops.head?_cases {cs : List Char} (h : Stops (· ≠ '\n') cs) :
    cs.head? = none ∨ cs.head? = some '\n' := by
  cases cs with
  | nil => exact .inl rfl
  | cons c cs =>
    obtain rfl : c = '\n' := by simpa using h
    exact .inr rfl

/-- A position from which a character is left lies in front of the end. -/
theorem Text.lt_of_slice? {cs part : List Char} {start : Nat}
    (h : slice? cs start (byteWidth cs) = some part) (hpart : part ≠ []) :
    start < byteWidth cs := by
  unfold slice? at h
  split at h
  next hle =>
    refine Nat.lt_of_le_of_ne hle fun heq => hpart ?_
    -- no byte lies between equal positions
    obtain ⟨ds, -, htake⟩ := Option.bind_eq_some_iff.1 h
    rw [heq, Nat.sub_self, takeBytes?] at htake
    exact (Option.some.inj htake).symm
  next => cases h

namespace Walker

variable {ρ : Type} {text before body after : List Char} {c : Char} {w w' : Walker ρ}

theorem lt_of_peek (h : w.peek text = .ok (some c)) : w.current.offset < Text.byteWidth text := by
  unfold peek rest Checked.slice at h
  split at h
  next part hslice =>
    refine Text.lt_of_slice? hslice ?_
    rintro rfl
    cases h
  next => cases h

/-- A character that is taken brings the end nearer. -/
theorem left_lt_of_advance {taken : Option Char} (hpeek : w.peek text = .ok (some c))
    (h : w.advance text = .ok (taken, w')) :
    Text.byteWidth text - w'.current.offset < Text.byteWidth text - w.current.offset := by
  have hlt := lt_of_peek hpeek
  have hpos := c.utf8Size_pos
  rw [advance, hpeek] at h
  cases hmove : w.move c.utf8Size with
  | error breach => simp [hmove, bind, Except.bind] at h
  | ok moved =>
    simp only [hmove, bind, Except.bind, pure, Except.pure, Except.ok.injEq, Prod.mk.injEq] at h
    rw [← h.2, (move_eq_ok_iff.1 hmove).2]
    dsimp only
    omega

/-- Take one character after another until a line feed or the end is next. -/
def toLineEnd (text : List Char) (w : Walker ρ) : Except Breach (Walker ρ) :=
  match hpeek : w.peek text with
  | .error breach => .error breach
  | .ok none => .ok w
  | .ok (some c) =>
    if c = '\n' then .ok w
    else
      match h : w.advance text with
      | .error breach => .error breach
      | .ok (_, w') =>
        have := left_lt_of_advance hpeek h
        toLineEnd text w'
termination_by Text.byteWidth text - w.current.offset

theorem toLineEnd_stop {next : Option Char} (h : w.peek text = .ok next)
    (hnext : next = none ∨ next = some '\n') : w.toLineEnd text = .ok w := by
  rw [toLineEnd]
  rcases hnext with rfl | rfl <;> split <;> simp_all

theorem toLineEnd_take (h : w.peek text = .ok (some c)) (hc : c ≠ '\n')
    (ha : w.advance text = .ok (some c, w')) : w.toLineEnd text = w'.toLineEnd text := by
  rw [toLineEnd]
  split <;> simp_all
  split <;> simp_all

/-- **A walk over what is left of a line** ends in front of what stops it. -/
theorem toLineEnd_run (ht : text = before ++ (body ++ after))
    (hw : w.current.offset = Text.byteWidth before) (hb : '\n' ∉ body)
    (hs : Text.Stops (· ≠ '\n') after) (hmove : w.move (Text.byteWidth body) = .ok w') :
    w.toLineEnd text = .ok w' := by
  induction body generalizing before w with
  | nil =>
    obtain ⟨-, rfl⟩ := move_eq_ok_iff.1 hmove
    exact toLineEnd_stop (peek_eq ht hw) hs.head?_cases
  | cons c body ih =>
    obtain ⟨hbound, rfl⟩ := move_eq_ok_iff.1 hmove
    rw [Text.byteWidth_cons] at hbound
    obtain ⟨hc, hbody⟩ := not_or.1 (List.mem_cons.not.1 hb)
    have hpeek : w.peek text = .ok (some c) := peek_eq ht hw
    have hadvance := advance_of_move ht hw (move_eq (by omega))
    have htext : text = before ++ [c] ++ (body ++ after) := by
      rw [ht, List.append_assoc before]
      rfl
    rw [toLineEnd_take hpeek (Ne.symm hc) hadvance]
    refine ih htext ?_ hbody (move_eq_ok_iff.2 ⟨?_, ?_⟩)
    · show w.current.offset + c.utf8Size = _
      rw [Text.byteWidth_append, hw]
      rfl
    · show w.current.offset + c.utf8Size + _ < _
      omega
    · rw [Text.byteWidth_cons, Nat.add_assoc]

/-! ## At any position -/

/-- A walker has come to the end of its line, and nothing else of it has changed: it stands between
two characters, where the comment of a scan that begins in front of it ends. -/
structure LineLeft (source : String) (w w' : Walker ρ) : Prop where
  start : w'.start = w.start
  line : w'.current.line = w.current.line
  phase : w'.phase = w.phase
  reporter : w'.reporter = w.reporter
  valid : String.Pos.Raw.IsValid source ⟨w'.current.offset⟩
  next : w'.peek source.toList = .ok none ∨ w'.peek source.toList = .ok (some '\n')
  comment : ∃ cs, w.rest source.toList = .ok cs ∧
    w'.rest source.toList = .ok (Lexeme.comment cs).2

/-- A position between characters cuts the text in two. -/
theorem exists_append_of_isValid {source : String} {offset : Nat}
    (h : String.Pos.Raw.IsValid source ⟨offset⟩) :
    ∃ before after, source.toList = before ++ after ∧ offset = Text.byteWidth before := by
  obtain ⟨before, after, rfl, hoffset⟩ := String.Pos.Raw.isValid_iff_exists_append.1 h
  refine ⟨before.toList, after.toList, String.toList_append, ?_⟩
  rw [Text.byteWidth_toList]
  exact congrArg String.Pos.Raw.byteIdx hoffset

end Walker

/-- **A comment by bytes and by characters.** From every position between two characters, the search
for the byte of a line feed leads where one character after another does: to the next line feed or
the end, between two characters, with the line and the beginning of the lexeme as they were. In a
text whose bytes can be counted it does lead there. -/
theorem skipComment_eq_toLineEnd {ρ : Type} (source : String) (w : Walker ρ)
    (hw : String.Pos.Raw.IsValid source ⟨w.current.offset⟩) :
    (∀ w', w.skipComment source.toList = .ok w' →
      w.toLineEnd source.toList = .ok w' ∧ w.LineLeft source w') ∧
    (source.utf8ByteSize < UInt64.size → ∃ w', w.skipComment source.toList = .ok w') := by
  obtain ⟨before, rest, ht, hoffset⟩ := Walker.exists_append_of_isValid hw
  obtain ⟨body, after, rfl, hb, hs⟩ : ∃ body after, rest = body ++ after ∧ '\n' ∉ body ∧
      Text.Stops (· ≠ '\n') after :=
    ⟨_, _, (List.takeWhile_append_dropWhile (p := (· ≠ '\n'))).symm,
      Text.notMem_takeWhile_ne _ _, Text.stops_dropWhile _ _⟩
  rw [Walker.skipComment_eq_move ht hoffset hb hs]
  constructor
  · intro w' hmove
    have hwalk := Walker.toLineEnd_run ht hoffset hb hs hmove
    have htext : source.toList = before ++ body ++ after := by rw [ht, List.append_assoc]
    have hend : w.current.offset + Text.byteWidth body = Text.byteWidth (before ++ body) := by
      rw [Text.byteWidth_append, hoffset]
    obtain ⟨-, rfl⟩ := Walker.move_eq_ok_iff.1 hmove
    refine ⟨hwalk, rfl, rfl, rfl, rfl, ?_, ?_, body ++ after, ?_, ?_⟩
    · rw [hend]
      exact Walker.isValid_byteWidth htext
    · rw [Walker.peek_eq htext hend]
      exact hs.head?_cases.imp (congrArg Except.ok) (congrArg Except.ok)
    · exact Walker.rest_eq ht hoffset
    · rw [Lexeme.comment_run hb hs]
      exact Walker.rest_eq htext hend
  · intro hsize
    rw [← Text.byteWidth_toList, ht, Text.byteWidth_append, Text.byteWidth_append] at hsize
    exact ⟨_, Walker.move_eq (by omega)⟩

/-- A comment of characters of two, three and four bytes is passed to its line feed. -/
theorem skipComment_over_longer_characters :
    "//é€😀\n+".utf8ByteSize < UInt64.size ∧ String.Pos.Raw.IsValid "//é€😀\n+" ⟨2⟩ ∧
      ∃ w w' : Walker Collection, w.start = ⟨0, 1⟩ ∧ w.current = ⟨2, 1⟩ ∧
        w.skipComment "//é€😀\n+".toList = .ok w' ∧ w.toLineEnd "//é€😀\n+".toList = .ok w' ∧
        w'.start = ⟨0, 1⟩ ∧ w'.current = ⟨11, 1⟩ ∧
        w'.peek "//é€😀\n+".toList = .ok (some '\n') := by
  have hsize : "//é€😀\n+".utf8ByteSize < UInt64.size := by decide
  have htext : "//é€😀\n+".toList = ['/', '/'] ++ ['é', '€', '😀', '\n', '+'] := rfl
  have hvalid : String.Pos.Raw.IsValid "//é€😀\n+" ⟨2⟩ := Walker.isValid_byteWidth htext
  obtain ⟨hagree, hends⟩ := skipComment_eq_toLineEnd "//é€😀\n+"
    (.amid [] ['/', '/'] .between Collection.empty) hvalid
  obtain ⟨w', hskip⟩ := hends hsize
  obtain ⟨hwalk, hleft⟩ := hagree w' hskip
  have hmoved : (Walker.amid [] ['/', '/'] .between Collection.empty).skipComment
      "//é€😀\n+".toList = .ok (.amid [] ['/', '/', 'é', '€', '😀'] .between Collection.empty) := rfl
  obtain rfl := Except.ok.inj (hskip.symm.trans hmoved)
  exact ⟨hsize, hvalid, _, _, rfl, rfl, hskip, hwalk, hleft.start, rfl, rfl⟩

end ScriptLexer
