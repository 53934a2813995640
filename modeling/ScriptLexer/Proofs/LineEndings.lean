import ScriptLexer.Proofs.OpenString

/-!
# Lines that end with a carriage return

Put a carriage return in front of every line feed of a text. Between lexemes it is one more blank,
at the end of a comment it belongs to the comment, and in a string it belongs to what the string
holds. No other lexeme has a line feed, and a carriage return ends all of them as the line feed did.
So the tokens are the same ones, but for what strings hold, and stand on the lines where they stood.

* `withReturns`: the text with carriage returns.
* `Returned`: what becomes of lexemes, one case for each place of a line feed.
* `Chained.exists_returned`: they are the lexemes of the text with carriage returns.
* `Returned.filterMap_placed`: what both give agrees if it agrees for each lexeme.
* `scan_withReturns`: a scan of the text with carriage returns.
-/

namespace ScriptLexer

/-- A text with a carriage return in front of each line feed. -/
def Text.withReturns (cs : List Char) : List Char :=
  cs.flatMap fun c => if c = '\n' then ['\r', '\n'] else [c]

/-- A text with a carriage return in front of each line feed. -/
def withReturns (text : String) : String :=
  .ofList (Text.withReturns text.toList)

namespace Text

@[simp] theorem withReturns_nil : withReturns [] = [] := rfl

@[simp] theorem withReturns_newline (cs : List Char) :
    withReturns ('\n' :: cs) = '\r' :: '\n' :: withReturns cs := rfl

theorem withReturns_cons {c : Char} (h : c ≠ '\n') (cs : List Char) :
    withReturns (c :: cs) = c :: withReturns cs := by
  simp [withReturns, h]

@[simp] theorem withReturns_append (cs ds : List Char) :
    withReturns (cs ++ ds) = withReturns cs ++ withReturns ds :=
  List.flatMap_append

/-- A text without a line feed stays as it is. -/
theorem withReturns_eq_self {cs : List Char} (h : '\n' ∉ cs) : withReturns cs = cs := by
  induction cs with
  | nil => rfl
  | cons c cs ih =>
    obtain ⟨hc, hcs⟩ : '\n' ≠ c ∧ '\n' ∉ cs := by simpa using h
    rw [withReturns_cons hc.symm, ih hcs]

/-- The characters of a text with carriage returns are its own and carriage returns. -/
theorem mem_withReturns {cs : List Char} {c : Char} (h : c ∈ withReturns cs) :
    c ∈ cs ∨ c = '\r' := by
  obtain ⟨d, hd, hc⟩ := List.mem_flatMap.1 h
  by_cases hn : d = '\n'
  · rw [if_pos hn] at hc
    rcases List.mem_cons.1 hc with rfl | hc
    · exact .inr rfl
    · obtain rfl := List.mem_singleton.1 hc
      exact .inl (hn ▸ hd)
  · rw [if_neg hn] at hc
    obtain rfl := List.mem_singleton.1 hc
    exact .inl hd

/-- No line feed is added. -/
theorem newlines_withReturns (cs : List Char) : newlines (withReturns cs) = newlines cs := by
  induction cs with
  | nil => rfl
  | cons c cs ih =>
    by_cases hc : c = '\n'
    · subst hc
      simpa [newlines] using ih
    · rw [withReturns_cons hc]
      simpa [newlines, hc] using ih

/-- Every line feed takes one byte more. -/
theorem byteWidth_withReturns (cs : List Char) :
    byteWidth (withReturns cs) = byteWidth cs + newlines cs := by
  induction cs with
  | nil => rfl
  | cons c cs ih =>
    by_cases hc : c = '\n'
    · subst hc
      have hwidth : '\r'.utf8Size = 1 := rfl
      have hcount : newlines ('\n' :: cs) = newlines cs + 1 := by simp [newlines]
      rw [withReturns_newline, byteWidth_cons, byteWidth_cons, byteWidth_cons, ih, hwidth, hcount]
      omega
    · have hcount : newlines (c :: cs) = newlines cs := by simp [newlines, hc]
      rw [withReturns_cons hc, byteWidth_cons, byteWidth_cons, ih, hcount, Nat.add_assoc]

/-! ## What stands in front of a line feed -/

/-- Where a class stopped, it stops in front of a carriage return, too. -/
theorem Stops.withReturns {p : Char → Bool} {rest : List Char} (h : Stops p rest)
    (hp : p '\r' = false) : Stops p (withReturns rest) := by
  cases rest with
  | nil => exact stops_nil p
  | cons c rest =>
    by_cases hc : c = '\n'
    · subst hc
      exact (stops_cons p _ _).2 hp
    · rw [withReturns_cons hc]
      exact (stops_cons p _ _).2 ((stops_cons p _ _).1 h)

/-- A carriage return opens no fraction. -/
theorem OpensFraction.of_withReturns {rest : List Char} (h : OpensFraction (withReturns rest)) :
    OpensFraction rest := by
  obtain ⟨d, more, heq, hd⟩ := h
  rcases rest with _ | ⟨x, rest⟩
  · cases heq
  by_cases hx : x = '\n'
  · subst hx
    cases heq
  rw [withReturns_cons hx] at heq
  obtain ⟨rfl, hrest⟩ := List.cons.inj heq
  -- behind the point stands the digit, which is no carriage return
  rcases rest with _ | ⟨y, rest⟩
  · cases hrest
  by_cases hy : y = '\n'
  · subst hy
    obtain ⟨rfl, -⟩ := List.cons.inj hrest
    cases hd
  · rw [withReturns_cons hy] at hrest
    obtain ⟨rfl, -⟩ := List.cons.inj hrest
    exact ⟨y, rest, rfl, hd⟩

end Text

/-! ## What becomes of a lexeme -/

/-- A value with carriage returns in its text. -/
def Literal.withReturns : Literal → Literal
  | .string text => .string (ScriptLexer.withReturns text)
  | other => other

/-- What becomes of a lexeme, with carriage returns in the text of a string. -/
def Verdict.withReturns : Verdict → Verdict
  | .token (.string text) => .token (.string (ScriptLexer.withReturns text))
  | other => other

/-- Whether a verdict is on characters that a quote opens. -/
def Verdict.isQuoted : Verdict → Bool
  | .token (.string _) => true
  | .rejected message => decide (message = .unterminatedString)
  | _ => false

namespace Lexeme

/-- A lexeme with carriage returns in its characters. -/
def withReturns (l : Lexeme) : Lexeme :=
  ⟨Text.withReturns l.text, l.verdict.withReturns⟩

/-- A lexeme that begins with a line feed is a blank. -/
theorem Reads.eq_blank_newline {l : Lexeme} {rest : List Char} (h : l.Reads rest)
    (hhead : l.text.head? = some '\n') : l = .blank '\n' := by
  obtain ⟨c, cs, htext, hfirst⟩ := h.exists_first
  rw [htext] at hhead
  obtain rfl := Option.some.inj hhead
  rw [first_blank (.inl rfl)] at hfirst
  exact (Prod.mk.inj hfirst).1.symm

/-- A lexeme that begins with two slashes is a comment, which goes on to the end of its line. -/
theorem Reads.comment_of_text {l : Lexeme} {rest body : List Char} (h : l.Reads rest)
    (htext : l.text = '/' :: '/' :: body) :
    l = ⟨'/' :: '/' :: body, .skipped⟩ ∧ '\n' ∉ body ∧ Text.Stops (· ≠ '\n') rest := by
  obtain ⟨c, cs, hcs, hfirst⟩ := h.exists_first
  rw [htext] at hcs
  obtain ⟨rfl, rfl⟩ := List.cons.inj hcs
  have hslash : first '/' ('/' :: body ++ rest) = Lexeme.comment (body ++ rest) := rfl
  rw [hslash, Lexeme.comment, Text.splitBytes_lineEnd] at hfirst
  obtain ⟨hl, hrest⟩ := Prod.mk.inj hfirst
  have hbody : (body ++ rest).takeWhile (· ≠ '\n') = body := by
    rw [← hl] at htext
    exact (List.cons.inj (List.cons.inj htext).2).2
  refine ⟨?_, ?_, ?_⟩
  · rw [← hl, hbody]
  · rw [← hbody]
    exact Text.notMem_takeWhile_ne _ _
  · rw [← hrest]
    exact Text.stops_dropWhile _ _

/-- What stands behind a comment is a line feed, if anything does. -/
theorem eq_blank_of_stops {m : Lexeme} {rest : List Char} (hm : m.Reads rest)
    (h : Text.Stops (· ≠ '\n') (m.text ++ rest)) : m = .blank '\n' := by
  obtain ⟨c, cs, htext⟩ := List.exists_cons_of_ne_nil hm.text_ne_nil
  have hc : c = '\n' := by simpa [htext] using h
  refine hm.eq_blank_newline ?_
  rw [htext, hc]
  rfl

theorem newline_notMem_digits {ds : List Char} (h : ∀ d ∈ ds, d.isDigit = true) : '\n' ∉ ds := by
  intro hmem
  exact absurd (h _ hmem) (by decide)

/-- Only blanks and strings have a line feed. -/
theorem Reads.newline_notMem {l : Lexeme} {rest : List Char} (h : l.Reads rest)
    (hblank : l ≠ .blank '\n') (hquoted : l.verdict.isQuoted = false) : '\n' ∉ l.text := by
  cases h with
  | @mark m => cases m <;> decide
  | comment hb => simpa using hb
  | @blank c =>
    have hne : c ≠ '\n' := fun heq => hblank (heq ▸ rfl)
    simpa using hne.symm
  | string => cases hquoted
  | unterminated => cases hquoted
  | whole hd => exact newline_notMem_digits hd
  | fraction hd he =>
    have hwhole := newline_notMem_digits hd
    have hfraction := newline_notMem_digits he
    intro hmem
    rcases List.mem_append.1 hmem with hmem | hmem
    · exact hwhole hmem
    · rcases List.mem_cons.1 hmem with heq | hmem
      · exact absurd heq (by decide)
      · exact hfraction hmem
  | word hc hw =>
    intro hmem
    rcases List.mem_cons.1 hmem with rfl | hmem
    · exact absurd hc (by decide)
    · exact absurd (hw _ hmem) (by decide)
  | unexpected hc => simpa using hc.newline.symm

/-- Other lexemes stay as they are. -/
theorem Reads.withReturns_eq_self {l : Lexeme} {rest : List Char} (h : l.Reads rest)
    (hblank : l ≠ .blank '\n') (hquoted : l.verdict.isQuoted = false) : l.withReturns = l := by
  have hverdict : l.verdict.withReturns = l.verdict := by
    cases h with
    | string => cases hquoted
    | _ => rfl
  rw [Lexeme.withReturns, Text.withReturns_eq_self (h.newline_notMem hblank hquoted), hverdict]

theorem quote_notMem_withReturns {body : List Char} (h : '"' ∉ body) :
    '"' ∉ Text.withReturns body := by
  intro hmem
  rcases Text.mem_withReturns hmem with hmem | heq
  · exact h hmem
  · exact absurd heq (by decide)

/-- **A lexeme reads in front of the text with carriage returns as it did in front of the text**,
unless it is a line feed or a comment in front of one. -/
theorem Reads.withReturns {l : Lexeme} {rest : List Char} (h : l.Reads rest)
    (hblank : l ≠ .blank '\n') (hcomment : ∀ body, l.text = '/' :: '/' :: body → rest = []) :
    l.withReturns.Reads (Text.withReturns rest) := by
  cases hquoted : l.verdict.isQuoted with
  | false =>
    -- the lexeme stays as it is, and a carriage return ends it as the line feed did
    rw [h.withReturns_eq_self hblank hquoted]
    cases h with
    | @mark m _ h => exact .mark (h.withReturns (extends_blank m (.inr rfl)))
    | comment hb h =>
      obtain rfl := hcomment _ rfl
      exact .comment hb (Text.stops_nil _)
    | blank hc => exact .blank hc
    | string => cases hquoted
    | unterminated => cases hquoted
    | whole hd h hf => exact .whole hd (h.withReturns rfl) fun ho => hf ho.of_withReturns
    | fraction hd he h => exact .fraction hd he (h.withReturns rfl)
    | word hc hw h => exact .word hc hw (h.withReturns rfl)
    | unexpected hc => exact .unexpected hc
  | true =>
    cases h with
    | @string body _ hb =>
      have hstring : Lexeme.withReturns ⟨'"' :: body ++ ['"'], .token (.string (.ofList body))⟩ =
          ⟨'"' :: Text.withReturns body ++ ['"'],
            .token (.string (.ofList (Text.withReturns body)))⟩ := by
        simp [Lexeme.withReturns, Verdict.withReturns, ScriptLexer.withReturns, Text.withReturns]
      rw [hstring]
      exact .string (quote_notMem_withReturns hb)
    | unterminated hb => exact .unterminated (quote_notMem_withReturns hb)
    | unexpected => cases hquoted
    | _ => cases hquoted

end Lexeme

/-! ## What becomes of lexemes one behind another -/

/-- `Returned ls ls'`: `ls'` are lexemes of the text of `ls` with carriage returns. In front of a
line feed stands one more blank, which a comment in front of it takes. -/
inductive Returned : List Lexeme → List Lexeme → Prop
  | nil : Returned [] []
  | lineFeed {ls ls'} (h : Returned ls ls') :
      Returned (.blank '\n' :: ls) (.blank '\r' :: .blank '\n' :: ls')
  | comment {body ls ls'} (h : Returned (.blank '\n' :: ls) (.blank '\r' :: ls')) :
      Returned (⟨'/' :: '/' :: body, .skipped⟩ :: .blank '\n' :: ls)
        (⟨'/' :: '/' :: body ++ ['\r'], .skipped⟩ :: ls')
  | other {l ls ls'} (hl : l ≠ .blank '\n') (h : Returned ls ls') :
      Returned (l :: ls) (l.withReturns :: ls')

/-- What becomes of lexemes that begin with a line feed begins with two blanks. -/
theorem Returned.of_newline {ls ms : List Lexeme} (h : Returned (.blank '\n' :: ls) ms) :
    ∃ ls', ms = .blank '\r' :: .blank '\n' :: ls' := by
  cases h with
  | lineFeed h => exact ⟨_, rfl⟩
  | other hl => exact absurd rfl hl

/-- **The lexemes of the text with carriage returns** are what becomes of the lexemes of the
text. -/
theorem Chained.exists_returned {ls : List Lexeme} (h : Chained ls) :
    ∃ ls', Returned ls ls' ∧ Chained ls' ∧ spell ls' = Text.withReturns (spell ls) := by
  induction ls with
  | nil => exact ⟨[], .nil, trivial, rfl⟩
  | cons l ls ih =>
    -- the lexemes behind are done; what becomes of this one may change how those begin
    obtain ⟨ls', hreturned, hchained, hspell⟩ := ih h.2
    by_cases hblank : l = .blank '\n'
    · subst hblank
      refine ⟨_, .lineFeed hreturned, ⟨.blank (.inr rfl), .blank (.inl rfl), hchained⟩, ?_⟩
      simp [hspell, Lexeme.blank]
    by_cases hcomment : ∀ body, l.text = '/' :: '/' :: body → spell ls = []
    · refine ⟨_, .other hblank hreturned, ⟨?_, hchained⟩, ?_⟩
      · rw [hspell]
        exact h.1.withReturns hblank hcomment
      · rw [spell_cons, spell_cons, Text.withReturns_append, hspell, Lexeme.withReturns]
    -- a comment with a line feed behind it
    simp only [Classical.not_forall] at hcomment
    obtain ⟨body, htext, hne⟩ := hcomment
    obtain ⟨rfl, hbody, hstop⟩ := h.1.comment_of_text htext
    obtain ⟨m, ms, rfl⟩ : ∃ m ms, ls = m :: ms :=
      List.exists_cons_of_ne_nil fun hnil => hne (by rw [hnil, spell_nil])
    obtain rfl : m = .blank '\n' := Lexeme.eq_blank_of_stops h.2.1 (by rwa [spell_cons] at hstop)
    -- the comment takes the carriage return from the blanks behind it
    obtain ⟨ms', rfl⟩ := hreturned.of_newline
    have hself : Text.withReturns ('/' :: '/' :: body) = '/' :: '/' :: body :=
      Text.withReturns_eq_self (by simpa using hbody)
    refine ⟨_, .comment hreturned, ⟨.comment ?_ ?_, hchained.2⟩, ?_⟩
    · simpa using hbody
    · exact (Text.stops_cons _ _ _).2 rfl
    · have htail : spell (.blank '\r' :: .blank '\n' :: ms') =
          '\r' :: spell (.blank '\n' :: ms') := rfl
      rw [spell_cons _ (.blank '\n' :: ms), Text.withReturns_append, hself, ← hspell, htail,
        spell_cons, List.append_assoc]
      rfl

/-- The place behind a text with carriage returns lies on the line of the place behind the text. -/
theorem Place.line_after_withReturns {p p' : Place} (h : p'.line = p.line) (cs : List Char) :
    (p'.after (Text.withReturns cs)).line = (p.after cs).line := by
  rw [after_line, after_line, h, Text.newlines_withReturns]

/-- **What is taken from lexemes and from what becomes of them agrees** if it agrees for each lexeme
that stands on the same line, and nothing is taken from what is skipped. -/
theorem Returned.filterMap_placed {α : Type} {f g : Placed → Option α}
    (hskip : ∀ x : Placed, x.lexeme.verdict = .skipped → f x = none ∧ g x = none)
    (hkeep : ∀ (p p' : Place) (l : Lexeme) (rest : List Char), l.Reads rest → p'.line = p.line →
      g ⟨p', l.withReturns⟩ = f ⟨p, l⟩)
    {ls ls' : List Lexeme} (h : Returned ls ls') (hch : Chained ls) {p p' : Place}
    (hline : p'.line = p.line) : (placed p' ls').filterMap g = (placed p ls).filterMap f := by
  induction h generalizing p p' with
  | nil => rfl
  | @lineFeed ls ls' h ih =>
    have hbehind : ((p'.after ['\r']).after ['\n']).line = (p.after ['\n']).line := by
      rw [← Place.after_append]
      exact Place.line_after_withReturns hline ['\n']
    have hrest := ih hch.2 hbehind
    have hreturn := (hskip ⟨p', .blank '\r'⟩ rfl).2
    have hfeed := (hskip ⟨p'.after (Lexeme.blank '\r').text, .blank '\n'⟩ rfl).2
    have hblank := (hskip ⟨p, .blank '\n'⟩ rfl).1
    rw [placed_cons, placed_cons, placed_cons p, List.filterMap_cons_none hreturn,
      List.filterMap_cons_none hfeed, List.filterMap_cons_none hblank]
    exact hrest
  | @comment body ls ls' h ih =>
    have hcomment := (hskip ⟨p, ⟨'/' :: '/' :: body, .skipped⟩⟩ rfl).1
    have hlonger := (hskip ⟨p', ⟨'/' :: '/' :: body ++ ['\r'], .skipped⟩⟩ rfl).2
    have hreturn := (hskip ⟨p'.after ('/' :: '/' :: body), .blank '\r'⟩ rfl).2
    have hbehind : (p'.after ('/' :: '/' :: body)).line = (p.after ('/' :: '/' :: body)).line := by
      rw [Place.after_line, Place.after_line, hline]
    -- the induction counts the carriage return among the blanks, the longer comment takes it in:
    -- the places behind both are the same
    have hrest := ih hch.2 hbehind
    rw [placed_cons, List.filterMap_cons_none hreturn] at hrest
    rw [placed_cons, placed_cons p, List.filterMap_cons_none hlonger,
      List.filterMap_cons_none hcomment, ← hrest, Place.after_append]
    rfl
  | @other l ls ls' hl h ih =>
    have hrest := ih hch.2 (Place.line_after_withReturns hline l.text)
    have hfirst := hkeep p p' l _ hch.1 hline
    rw [placed_cons, placed_cons, List.filterMap_cons, List.filterMap_cons, hfirst]
    simp only [Lexeme.withReturns] at hrest ⊢
    rw [hrest]

/-! ## Tokens and findings -/

/-- What a token says besides its span: a string with carriage returns in its lexeme and its value,
another token as it is. -/
def Token.withReturns (t : Token) : Kind × String × Literal × Nat :=
  if t.kind = .string then
    (t.kind, ScriptLexer.withReturns t.lexeme, t.literal.withReturns, t.line)
  else (t.kind, t.lexeme, t.literal, t.line)

section

variable {l : Lexeme} {rest : List Char} {p p' : Place}

/-- The token of a lexeme with carriage returns. -/
theorem Lexeme.Reads.token?_withReturns (h : l.Reads rest) (hline : p'.line = p.line) :
    (Placed.token? ⟨p', l.withReturns⟩).map (fun t => (t.kind, t.lexeme, t.literal, t.line)) =
      (Placed.token? ⟨p, l⟩).map Token.withReturns := by
  cases hv : l.verdict with
  | skipped => simp [Placed.token?, Lexeme.withReturns, Verdict.withReturns, hv]
  | rejected message => simp [Placed.token?, Lexeme.withReturns, Verdict.withReturns, hv]
  | token shape =>
    have hblank : l ≠ .blank '\n' := by
      rintro rfl
      cases hv
    cases shape with
    | string text =>
      rw [h.token?_eq hv]
      simp [Placed.token?, Lexeme.withReturns, Verdict.withReturns, hv, Shape.literal, Shape.kind,
        Literal.Suits, Token.withReturns, ScriptLexer.withReturns, Literal.withReturns, hline]
    | number value =>
      rw [h.withReturns_eq_self hblank (by rw [hv]; rfl), h.token?_eq hv, h.token?_eq hv]
      simp [Token.withReturns, Shape.kind, Shape.literal, hline]
    | plain kind =>
      have hkind : kind ≠ .string := by
        rintro rfl
        exact absurd (h.suits hv) (by decide)
      rw [h.withReturns_eq_self hblank (by rw [hv]; rfl), h.token?_eq hv, h.token?_eq hv]
      simp [Token.withReturns, Shape.kind, Shape.literal, hline, hkind]

/-- What is reported of a lexeme does not change with carriage returns. -/
theorem Placed.finding?_withReturns (hline : p'.line = p.line) :
    Placed.finding? ⟨p', l.withReturns⟩ = Placed.finding? ⟨p, l⟩ := by
  have hstop : (Placed.stop ⟨p', l.withReturns⟩).line = (Placed.stop ⟨p, l⟩).line :=
    Place.line_after_withReturns hline l.text
  unfold finding?
  rw [hstop]
  cases hv : l.verdict with
  | token shape => cases shape <;> simp [Lexeme.withReturns, Verdict.withReturns, hv]
  | skipped => simp [Lexeme.withReturns, Verdict.withReturns, hv]
  | rejected message => simp [Lexeme.withReturns, Verdict.withReturns, hv]

end

section

variable {ls ls' : List Lexeme} (h : Returned ls ls') (hch : Chained ls) {p q : Place}
  (hline : q.line = p.line)
include h hch hline

theorem Returned.tokensAt :
    (tokensAt q ls').map (fun t => (t.kind, t.lexeme, t.literal, t.line)) =
      (tokensAt p ls).map Token.withReturns := by
  rw [ScriptLexer.tokensAt, ScriptLexer.tokensAt, List.map_filterMap, List.map_filterMap]
  refine h.filterMap_placed ?_ ?_ hch hline
  · intro x hx
    simp [Placed.token?, hx]
  · intro p q l rest hl hline
    exact hl.token?_withReturns hline

theorem Returned.findingsAt : findingsAt q ls' = findingsAt p ls := by
  refine h.filterMap_placed ?_ ?_ hch hline
  · intro x hx
    simp [Placed.finding?, hx]
  · intro p q l rest hl hline
    exact Placed.finding?_withReturns hline

end

/-! ## A scan of the text with carriage returns -/

theorem toList_withReturns (text : String) :
    (withReturns text).toList = Text.withReturns text.toList := by
  rw [withReturns, String.toList_ofList]

/-- A carriage return takes a byte for each line feed. -/
theorem utf8ByteSize_withReturns (text : String) :
    (withReturns text).utf8ByteSize = text.utf8ByteSize + Text.newlines text.toList := by
  rw [← Text.byteWidth_toList, toList_withReturns, Text.byteWidth_withReturns,
    Text.byteWidth_toList]

/-- The tokens of a text with carriage returns, the end included. -/
theorem scanned_withReturns {text : List Char} {ls' : List Lexeme}
    (h : Returned (lexemes text) ls') (hch : Chained ls')
    (hspell : spell ls' = Text.withReturns text) :
    (scanned (Text.withReturns text)).map (fun t => (t.kind, t.lexeme, t.literal, t.line)) =
      (scanned text).map Token.withReturns := by
  have hlexemes : lexemes (Text.withReturns text) = ls' := by rw [← hspell, lexemes_spell hch]
  have htokens := h.tokensAt (chained_lexemes text) (p := .start) (q := .start) rfl
  have hend : (Place.start.after (spell ls')).line =
      (Place.start.after (spell (lexemes text))).line := by
    rw [hspell, spell_lexemes]
    exact Place.line_after_withReturns rfl text
  rw [scanned, scanned, hlexemes, List.map_append, List.map_append, htokens, List.map_singleton,
    List.map_singleton]
  simp only [eofAt, Token.eof, Token.withReturns, Literal.withReturns, hend, reduceCtorEq, if_false]

/-- **Lines may end with a carriage return and a line feed.** Put a carriage return in front of
every line feed of a text. A scan gives as many tokens, one by one of the same kind and on the same
line, with the same lexeme and value, where a string has the carriage returns in its lexeme and its
value; and it reports the same. -/
theorem scan_withReturns (source : String) (h : (withReturns source).utf8ByteSize < UInt32.size) :
    ∃ tokens s tokens' s', scan source Collection.empty = .ok (tokens, s) ∧
      scan (withReturns source) Collection.empty = .ok (tokens', s') ∧
      tokens'.toList.map (fun t => (t.kind, t.lexeme, t.literal, t.line)) =
        tokens.toList.map Token.withReturns ∧
      s'.reporter.entries = s.reporter.entries := by
  have hsize : source.utf8ByteSize < UInt32.size := by
    rw [utf8ByteSize_withReturns] at h
    omega
  obtain ⟨ls', hreturned, hchained, hspell⟩ := (chained_lexemes source.toList).exists_returned
  rw [spell_lexemes] at hspell
  refine ⟨_, _, _, _, scan_eq_scanned hsize _, scan_eq_scanned h _, ?_, ?_⟩
  · rw [toList_withReturns]
    exact scanned_withReturns hreturned hchained hspell
  · have hlexemes : lexemes (withReturns source).toList = ls' := by
      rw [toList_withReturns, ← hspell, lexemes_spell hchained]
    have hfindings := hreturned.findingsAt (chained_lexemes source.toList) (p := .start)
      (q := .start) rfl
    apply Array.toList_inj.1
    rw [Scanner.ended, Scanner.ended, entries_report, entries_report, hlexemes, hfindings]

/-- A number with a point, a lone mark, a comment and a string, each in front of a line feed, and a
string without an end. -/
theorem scan_withReturns_of_lines :
    (withReturns "1.\n!\n// c\n\"a\nb\"\n\"x\n").utf8ByteSize < UInt32.size ∧
      withReturns "1.\n!\n// c\n\"a\nb\"\n\"x\n" =
        "1.\r\n!\r\n// c\r\n\"a\r\nb\"\r\n\"x\r\n" ∧
      ∃ tokens' s', scan "1.\r\n!\r\n// c\r\n\"a\r\nb\"\r\n\"x\r\n" Collection.empty =
          .ok (tokens', s') ∧
        tokens'.toList.map (fun t => (t.lexeme, t.line)) =
          [("1", 1), (".", 1), ("!", 2), ("\"a\r\nb\"", 4), ("", 7)] ∧
        s'.reporter.entries = #[.ofMessage .unterminatedString 7] := by
  have hreturns : withReturns "1.\n!\n// c\n\"a\nb\"\n\"x\n" =
      "1.\r\n!\r\n// c\r\n\"a\r\nb\"\r\n\"x\r\n" := by decide
  have hsize : (withReturns "1.\n!\n// c\n\"a\nb\"\n\"x\n").utf8ByteSize < UInt32.size := by
    rw [hreturns]
    decide
  have hl : lexemes "1.\n!\n// c\n\"a\nb\"\n\"x\n".toList =
      [⟨['1'], .token (.number (Lexeme.numberValue ['1'] []))⟩, .ofMark ['.'] .dot, .blank '\n',
        .ofMark ['!'] .bang, .blank '\n', ⟨['/', '/', ' ', 'c'], .skipped⟩, .blank '\n',
        ⟨'"' :: ['a', '\n', 'b'] ++ ['"'], .token (.string "a\nb")⟩, .blank '\n',
        .openString ['x', '\n']] := by
    exact lexemes_eq_iff.2 ⟨rfl,
      .whole (List.forall_mem_singleton.2 rfl) ((Text.stops_cons _ _ _).2 rfl) (by decide),
      .mark (m := .dot) ((Text.stops_cons _ _ _).2 rfl), .blank (.inl rfl),
      .mark (m := .bang) ((Text.stops_cons _ _ _).2 rfl), .blank (.inl rfl),
      .comment (by decide) ((Text.stops_cons _ _ _).2 rfl), .blank (.inl rfl),
      .string (by decide), .blank (.inl rfl), .unterminated (by decide), trivial⟩
  obtain ⟨tokens, s, tokens', s', hscan, hscan', htokens, hentries⟩ :=
    scan_withReturns "1.\n!\n// c\n\"a\nb\"\n\"x\n" hsize
  rw [hreturns] at hscan'
  have he := hscan.symm.trans (scan_eq_scanned (by decide) Collection.empty)
  rw [hl] at he
  cases he
  refine ⟨hsize, hreturns, tokens', s', hscan', ?_, hentries⟩
  have hpairs := congrArg (List.map fun x => (x.2.1, x.2.2.2)) htokens
  rw [List.map_map, List.map_map, scanned, hl] at hpairs
  exact hpairs.trans (by decide)

end ScriptLexer
