import Mathlib.Data.List.Basic
import ScriptLexer.Dump.Format
import ScriptLexer.Dump.Golden
import ScriptLexer.Proofs.Rescan

/-!
# Dumps are read in one way only

An entry of a dump is the name of a kind, a lexeme and a value, with spaces between. A string stands
in it twice and may imitate all that comes after it, line feeds, separators and findings included.
Yet an entry tells where it ends: a name holds no space, a scan takes one lexeme only in front of a
space, and the lexeme tells its value.

* `Spelled`: the contents of tokens that stand for a lexeme.
* `listed_append_inj`: an entry and what follows it are told apart.
* `entries_append_inj`: so are the entries of many tokens and what follows the end.
* `findings_inj`: the told findings behind a separator.
* `golden_dump_tells_scan`: equal dumps of two texts come from equal contents and findings.
-/

namespace ScriptLexer

/-! ## One entry -/

/-- Two texts in front of a character that neither holds are told apart. -/
theorem Text.append_cons_inj {x : Char} {as bs cs ds : List Char} (ha : x ∉ as) (hb : x ∉ bs)
    (h : as ++ x :: cs = bs ++ x :: ds) : as = bs ∧ cs = ds := by
  have hs (rest : List Char) : Text.Stops (· ≠ x) (x :: rest) := by simp
  have htake := congrArg (List.takeWhile (· ≠ x)) h
  rw [takeWhile_run (forall_ne_of_notMem ha) (hs cs),
    takeWhile_run (forall_ne_of_notMem hb) (hs ds)] at htake
  subst htake
  exact ⟨rfl, (List.cons.inj (List.append_cancel_left h)).2⟩

/-- The name of a kind is one word. -/
theorem Kind.space_notMem_name (k : Kind) : ' ' ∉ k.name.toList := by
  cases k with
  | punctuation mark => cases mark <;> decide
  | keyword word => cases word <;> decide
  | _ => decide

/-- A kind is told by its name. -/
theorem Kind.ofName?_name (k : Kind) : ofName? k.name = some k := by
  cases k with
  | punctuation mark => cases mark <;> rfl
  | keyword word => cases word <;> rfl
  | _ => rfl

theorem Kind.name_inj {k k' : Kind} (h : k.name = k'.name) : k = k' := by
  have hk := ofName?_name k
  rw [h, ofName?_name] at hk
  exact (Option.some.inj hk).symm

/-- The characters by which a token's content is listed. -/
def listed (c : Kind × String × Literal) : List Char :=
  c.1.name.toList ++ ' ' :: (c.2.1.toList ++ ' ' :: c.2.2.listing.toList)

theorem Token.toList_listing (t : Token) : t.listing.toList = listed t.content := by
  have hs : " ".toList = [' '] := rfl
  simp only [listing, listed, content, String.toList_append, hs, List.append_assoc,
    List.cons_append, List.nil_append]

/-- The content of the token that marks the end. -/
def endContent : Kind × String × Literal :=
  (.eof, "", .none)

/-- The content of a token that stands for a lexeme. -/
def Spelled (c : Kind × String × Literal) : Prop :=
  ∃ l : Lexeme, l.Alone ∧ l.content? = some c

theorem Spelled.kind_ne_eof {c : Kind × String × Literal} (h : Spelled c) : c.1 ≠ .eof := by
  obtain ⟨l, ⟨⟨shape, hv⟩, hr⟩, hc⟩ := h
  rw [Lexeme.content?_token hv] at hc
  cases hc
  exact hr.kind_ne_eof hv

theorem Chained.spelled {ls : List Lexeme} (h : Chained ls) {p : Place}
    {c : Kind × String × Literal} (hc : c ∈ (tokensAt p ls).map Token.content) : Spelled c := by
  rw [map_content_tokensAt h, ← filterMap_content?_kept] at hc
  obtain ⟨l, hl, hc⟩ := List.mem_filterMap.1 hc
  exact ⟨l, h.alone_of_mem_kept hl, hc⟩

variable {c d : Kind × String × Literal} {cs ds : List (Kind × String × Literal)}
  {rest rest' : List Char}

/-- What stands in front of the first space of an entry is the name of its kind. -/
theorem name_eq_of_listed_append (h : listed c ++ rest = listed d ++ rest') :
    c.1.name = d.1.name ∧ c.2.1.toList ++ ' ' :: (c.2.2.listing.toList ++ rest) =
      d.2.1.toList ++ ' ' :: (d.2.2.listing.toList ++ rest') := by
  simp only [listed, List.append_assoc, List.cons_append] at h
  obtain ⟨hname, hlex⟩ := Text.append_cons_inj (Kind.space_notMem_name _)
    (Kind.space_notMem_name _) h
  exact ⟨String.toList_inj.1 hname, hlex⟩

/-- **An entry and what follows it are told apart**: behind the name a scan takes the lexeme of the
one and of the other, and it takes one lexeme only. -/
theorem listed_append_inj (hc : Spelled c) (hd : Spelled d)
    (h : listed c ++ rest = listed d ++ rest') : c = d ∧ rest = rest' := by
  obtain ⟨l, ⟨⟨shape, hv⟩, hl⟩, hlc⟩ := hc
  obtain ⟨m, ⟨⟨shape', hv'⟩, hm⟩, hmd⟩ := hd
  have htext := (name_eq_of_listed_append h).2
  rw [Lexeme.content?_token hv] at hlc
  rw [Lexeme.content?_token hv'] at hmd
  cases hlc
  cases hmd
  -- both lexemes read in front of the space behind them
  have hlr := hl.append_blank hv (b := ' ') (.inr rfl) (shape.literal.listing.toList ++ rest)
  have hmr := hm.append_blank hv' (b := ' ') (.inr rfl) (shape'.literal.listing.toList ++ rest')
  simp only [String.toList_ofList] at htext
  obtain ⟨rfl, -⟩ := hlr.unique hmr htext
  obtain rfl : shape = shape' := Verdict.token.inj (hv.symm.trans hv')
  exact ⟨rfl, List.append_cancel_left h⟩

/-! ## The entries of a scan -/

/-- Entries one behind another, each closed by a line feed. -/
def entries (cs : List (Kind × String × Literal)) : List Char :=
  cs.flatMap fun c => listed c ++ ['\n']

@[simp] theorem entries_nil : entries [] = [] := rfl

@[simp] theorem entries_cons (c : Kind × String × Literal) (cs : List (Kind × String × Literal)) :
    entries (c :: cs) = listed c ++ '\n' :: entries cs := by
  simp [entries]

theorem entries_concat (cs : List (Kind × String × Literal)) (c : Kind × String × Literal) :
    entries (cs ++ [c]) = entries cs ++ (listed c ++ ['\n']) := by
  simp [entries]

/-- The entry of the end is not that of a lexeme. -/
theorem listed_end_append_ne (hd : Spelled d) : listed endContent ++ rest ≠ listed d ++ rest' := by
  intro h
  exact hd.kind_ne_eof (Kind.name_inj (name_eq_of_listed_append h).1.symm)

/-- **The entries of a scan and what follows its end are told apart.** -/
theorem entries_append_inj (hc : ∀ c ∈ cs, Spelled c) (hd : ∀ d ∈ ds, Spelled d)
    (h : entries cs ++ (listed endContent ++ rest) = entries ds ++ (listed endContent ++ rest')) :
    cs = ds ∧ rest = rest' := by
  induction cs generalizing ds with
  | nil =>
    cases ds with
    | nil => exact ⟨rfl, List.append_cancel_left h⟩
    | cons d ds =>
      rw [entries_nil, List.nil_append, entries_cons, List.append_assoc] at h
      exact absurd h (listed_end_append_ne (hd d List.mem_cons_self))
  | cons c cs ih =>
    cases ds with
    | nil =>
      rw [entries_nil, List.nil_append, entries_cons, List.append_assoc] at h
      exact absurd h.symm (listed_end_append_ne (hc c List.mem_cons_self))
    | cons d ds =>
      obtain ⟨hcc, hcs⟩ := List.forall_mem_cons.1 hc
      obtain ⟨hdd, hds⟩ := List.forall_mem_cons.1 hd
      rw [entries_cons, entries_cons, List.append_assoc, List.append_assoc] at h
      obtain ⟨rfl, hrest⟩ := listed_append_inj hcc hdd h
      obtain ⟨rfl, rfl⟩ := ih hcs hds (List.cons.inj hrest).2
      exact ⟨rfl, rfl⟩

/-! ## The findings behind a separator -/

/-- A finding is told by its line and its message. -/
theorem Finding.toList_text (f : Finding) : f.diagnostic.text.toList = "[line ".toList ++
    (f.line.repr.toList ++ ']' :: (" Error: ".toList ++ f.message.text.toList)) := by
  have hbracket : "] ".toList = [']', ' '] := rfl
  have hlabel : Severity.error.label.toList = "Error".toList := rfl
  have hcolon : " Error: ".toList = ' ' :: ("Error".toList ++ ": ".toList) := rfl
  simp only [diagnostic, Diagnostic.text, Diagnostic.ofText_line, Diagnostic.ofText_location,
    Diagnostic.ofText_message, Diagnostic.ofText_severity, String.toList_append,
    String.toList_empty, hbracket, hlabel, hcolon, List.append_assoc, List.nil_append,
    List.cons_append]

theorem repr_inj {m n : Nat} (h : m.repr.toList = n.repr.toList) : m = n := by
  rw [Nat.toList_repr, Nat.toList_repr] at h
  rw [← Nat.ofDigitChars_ten_toDigits (n := m), h, Nat.ofDigitChars_ten_toDigits]

theorem notMem_repr_of_not_isDigit {n : Nat} {c : Char} (h : c.isDigit = false) :
    c ∉ n.repr.toList := by
  intro hc
  rw [Nat.toList_repr] at hc
  rw [Nat.isDigit_of_mem_toDigits (by decide) (by decide) hc] at h
  cases h

/-- **A told finding tells its diagnostic.** -/
theorem Finding.diagnostic_eq_of_text {f g : Finding}
    (h : f.diagnostic.text.toList = g.diagnostic.text.toList) : f.diagnostic = g.diagnostic := by
  rw [toList_text, toList_text] at h
  obtain ⟨hline, hmsg⟩ := Text.append_cons_inj (notMem_repr_of_not_isDigit rfl)
    (notMem_repr_of_not_isDigit rfl) (List.append_cancel_left h)
  have hmsg := String.toList_inj.1 (List.append_cancel_left hmsg)
  rw [diagnostic, diagnostic, repr_inj hline, hmsg]

theorem Finding.diagnostics_eq_of_texts {fs gs : List Finding}
    (h : (fs.map fun f => f.diagnostic.text.toList) = gs.map fun g => g.diagnostic.text.toList) :
    fs.map diagnostic = gs.map diagnostic := by
  induction fs generalizing gs with
  | nil =>
    cases gs with
    | nil => rfl
    | cons g gs => cases h
  | cons f fs ih =>
    cases gs with
    | nil => cases h
    | cons g gs =>
      obtain ⟨hfg, hrest⟩ := List.cons.inj h
      rw [List.map_cons, List.map_cons, diagnostic_eq_of_text hfg, ih hrest]

/-- The findings of a scan are told on one line each. -/
theorem Chained.newline_notMem_text {ls : List Lexeme} (h : Chained ls) {p : Place} {f : Finding}
    (hf : f ∈ findingsAt p ls) : '\n' ∉ f.diagnostic.text.toList := by
  obtain ⟨x, hx, hf⟩ := List.mem_filterMap.1 hf
  obtain ⟨rest, hr⟩ := h.reads_of_mem_placed hx
  unfold Placed.finding? at hf
  split at hf
  next message hv =>
    cases hf
    rw [Finding.toList_text]
    have hline := notMem_repr_of_not_isDigit (n := x.stop.line) (c := '\n') rfl
    have hmsg : '\n' ∉ message.text.toList := by
      rcases hr.rejected_cases hv with rfl | rfl <;> decide
    simp only [List.mem_append, List.mem_cons, hline, hmsg, or_false, false_or]
    decide
  next => cases hf

/-- The part of a golden dump behind its entries: nothing without a finding. -/
def toldFindings (fs : List Finding) : List Char :=
  if fs = [] then []
  else "\n--\n".toList ++ ['\n'].intercalate (fs.map fun f => f.diagnostic.text.toList)

/-- **The findings behind a separator are told apart.** -/
theorem findings_inj {fs gs : List Finding} (hf : ∀ f ∈ fs, '\n' ∉ f.diagnostic.text.toList)
    (hg : ∀ g ∈ gs, '\n' ∉ g.diagnostic.text.toList) (h : toldFindings fs = toldFindings gs) :
    fs.map Finding.diagnostic = gs.map Finding.diagnostic := by
  unfold toldFindings at h
  split at h <;> split at h
  next hfs hgs => rw [hfs, hgs]
  next => cases h
  next => cases h
  next hfs hgs =>
    -- the told findings are the lines between the line feeds
    have hlines := congrArg (List.splitOn '\n') (List.append_cancel_left h)
    rw [List.splitOn_intercalate '\n' (by simpa using hf) (by simpa using hfs),
      List.splitOn_intercalate '\n' (by simpa using hg) (by simpa using hgs)] at hlines
    exact Finding.diagnostics_eq_of_texts hlines

/-! ## Whole dumps -/

/-- The listings of tokens with line feeds between them, the last one that of the end. -/
theorem intercalate_listings (cs : List (Kind × String × Literal)) (c : Kind × String × Literal) :
    ['\n'].intercalate ((cs ++ [c]).map listed) = entries cs ++ listed c := by
  induction cs with
  | nil => simp
  | cons d cs ih =>
    have hne : (cs ++ [c]).map listed ≠ [] := by simp
    rw [List.cons_append, List.map_cons, List.intercalate_cons_of_ne_nil hne, ih, entries_cons]
    simp

/-- The characters of a dump are those of the entries of its tokens. -/
theorem TokenFormat.toList_dump (format : TokenFormat) (tokens : Array Token) :
    (format.dump tokens).toList = tokens.toList.flatMap fun t => (format.entry t).toList := by
  have hrun (ts : List Token) (written : String) :
      (ts.foldl (fun written t => written ++ format.entry t) written).toList =
        written.toList ++ ts.flatMap fun t => (format.entry t).toList := by
    induction ts generalizing written with
    | nil => simp
    | cons t ts ih =>
      rw [List.foldl_cons, ih, String.toList_append, List.flatMap_cons, List.append_assoc]
  rw [dump, ← Array.foldl_toList, hrun]
  rfl

/-- The text dump of tokens is their entries. -/
theorem toList_dump (tokens : Array Token) : (TokenFormat.text.dump tokens).toList =
    entries (tokens.toList.map Token.content) := by
  have hentry (t : Token) : (TokenFormat.text.entry t).toList = listed t.content ++ ['\n'] := by
    rw [TokenFormat.entry, String.toList_append, Token.toList_listing]
    rfl
  simp only [TokenFormat.toList_dump, hentry, entries, List.flatMap_map]

/-- What a scan of a text shows. -/
theorem Golden.ofText_eq {source : String} (h : source.utf8ByteSize < UInt32.size) :
    Golden.ofText source = .ok {
      tokens := (tokensAt .start (lexemes source.toList) ++
        [Token.eof (Place.start.after source.toList).line source.utf8ByteSize.toUInt32]).map
          Token.listing
      findings := (findingsAt .start (lexemes source.toList)).map fun f => f.diagnostic.text
      hadError := (Scanner.report Collection.empty
        (findingsAt .start (lexemes source.toList))).hasErrors } := by
  rw [ofText, scan_eq Collection.empty h]
  simp only [bind, Except.bind, pure, Except.pure, Scanner.ended, entries_report,
    Array.toList_append, Collection.empty, List.nil_append, List.map_map]
  rfl

/-- **A golden dump** is the entries, the end and the told findings. -/
theorem Golden.toList_text {source : String} {g : Golden} (h : source.utf8ByteSize < UInt32.size)
    (hg : Golden.ofText source = .ok g) : g.text.toList =
      entries ((tokensAt .start (lexemes source.toList)).map Token.content) ++
        (listed endContent ++ toldFindings (findingsAt .start (lexemes source.toList))) := by
  rw [ofText_eq h] at hg
  cases hg
  have hnl : "\n".toList = ['\n'] := rfl
  -- the listings, the last one that of the end
  have hlisting (ts : List Token) (line : Nat) (position : UInt32) :
      ("\n".intercalate ((ts ++ [Token.eof line position]).map Token.listing)).toList =
        entries (ts.map Token.content) ++ listed endContent := by
    have hmap : ((ts ++ [Token.eof line position]).map Token.listing).map String.toList =
        (ts.map Token.content ++ [endContent]).map listed := by
      simp only [List.map_append, List.map_map, List.map_cons, List.map_nil,
        Function.comp_def, Token.toList_listing]
      rfl
    rw [String.toList_intercalate, hnl, hmap, intercalate_listings]
  simp only [text, List.isEmpty_iff, List.map_eq_nil_iff, toldFindings]
  split
  next => rw [hlisting, List.append_nil]
  next =>
    simp only [String.toList_append, hlisting, String.toList_intercalate, hnl, List.map_map,
      List.append_assoc]
    rfl

/-- The contents of all tokens of a scan: those of the lexemes, and the end. -/
theorem contents_scanned (ts : List Token) (line : Nat) (position : UInt32) :
    (ts.toArray ++ #[Token.eof line position]).toList.map Token.content =
      ts.map Token.content ++ [endContent] := by
  rw [Array.toList_append, List.map_append]
  rfl

/-- **Dumps tell what was scanned.** Two texts with the same golden dump have the same kinds,
lexemes and values and the same diagnostics, whatever their strings imitate; two texts whose tokens
have the same text dump have the same kinds, lexemes and values. -/
theorem golden_dump_tells_scan (source source' : String)
    (h : source.utf8ByteSize < UInt32.size) (h' : source'.utf8ByteSize < UInt32.size) :
    ∃ tokens s g tokens' s' g', scan source Collection.empty = .ok (tokens, s) ∧
      Golden.ofText source = .ok g ∧ scan source' Collection.empty = .ok (tokens', s') ∧
      Golden.ofText source' = .ok g' ∧
      (g.text = g'.text → tokens.toList.map Token.content = tokens'.toList.map Token.content ∧
        s.reporter.entries = s'.reporter.entries) ∧
      (TokenFormat.text.dump tokens = TokenFormat.text.dump tokens' →
        tokens.toList.map Token.content = tokens'.toList.map Token.content) := by
  have hch := chained_lexemes source.toList
  have hch' := chained_lexemes source'.toList
  refine ⟨_, _, _, _, _, _, scan_eq Collection.empty h, Golden.ofText_eq h,
    scan_eq Collection.empty h', Golden.ofText_eq h', ?_, ?_⟩
  · intro heq
    have htext := congrArg String.toList heq
    rw [Golden.toList_text h (Golden.ofText_eq h), Golden.toList_text h' (Golden.ofText_eq h')]
      at htext
    obtain ⟨htokens, htold⟩ :=
      entries_append_inj (fun _ => hch.spelled) (fun _ => hch'.spelled) htext
    have hdiag := findings_inj (fun _ => hch.newline_notMem_text)
      (fun _ => hch'.newline_notMem_text) htold
    refine ⟨?_, Array.toList_inj.1 ?_⟩
    · rw [contents_scanned, contents_scanned, htokens]
    · simp only [Scanner.ended, entries_report, hdiag]
  · intro heq
    have htext := congrArg String.toList heq
    rw [toList_dump, toList_dump, contents_scanned, contents_scanned, entries_concat,
      entries_concat] at htext
    rw [contents_scanned, contents_scanned,
      (entries_append_inj (fun _ => hch.spelled) (fun _ => hch'.spelled) htext).1]

/-- A string that imitates the end and the separator, and a character that begins no lexeme, without
and with blanks around them: the dumps are the same. -/
theorem golden_of_imitating_string :
    "\"EOF  null\n--\"@".utf8ByteSize < UInt32.size ∧
      " \"EOF  null\n--\"\t@".utf8ByteSize < UInt32.size ∧
      ∃ tokens s g tokens' s' g', scan "\"EOF  null\n--\"@" Collection.empty = .ok (tokens, s) ∧
        Golden.ofText "\"EOF  null\n--\"@" = .ok g ∧
        scan " \"EOF  null\n--\"\t@" Collection.empty = .ok (tokens', s') ∧
        Golden.ofText " \"EOF  null\n--\"\t@" = .ok g' ∧ g.text = g'.text ∧
        tokens.toList.map Token.content = tokens'.toList.map Token.content ∧
        s.reporter.entries = s'.reporter.entries := by
  have hs : "\"EOF  null\n--\"@".utf8ByteSize < UInt32.size := by decide
  have hs' : " \"EOF  null\n--\"\t@".utf8ByteSize < UInt32.size := by decide
  have hbody : '"' ∉ "EOF  null\n--".toList := by decide
  have hl : lexemes "\"EOF  null\n--\"@".toList =
      [⟨'"' :: "EOF  null\n--".toList ++ ['"'], .token (.string "EOF  null\n--")⟩,
        ⟨['@'], .rejected .unexpectedCharacter⟩] := by
    exact lexemes_eq_iff.2 ⟨rfl, .string hbody, .unexpected stray_at, trivial⟩
  have hl' : lexemes " \"EOF  null\n--\"\t@".toList =
      [.blank ' ', ⟨'"' :: "EOF  null\n--".toList ++ ['"'], .token (.string "EOF  null\n--")⟩,
        .blank '\t', ⟨['@'], .rejected .unexpectedCharacter⟩] := by
    exact lexemes_eq_iff.2 ⟨rfl, .blank (.inr rfl), .string hbody, .blank (.inr rfl),
      .unexpected stray_at, trivial⟩
  obtain ⟨tokens, s, g, tokens', s', g', hscan, hg, hscan', hg', htext, -⟩ :=
    golden_dump_tells_scan "\"EOF  null\n--\"@" " \"EOF  null\n--\"\t@" hs hs'
  have heq : g.text = g'.text := by
    rw [← String.toList_inj, Golden.toList_text hs hg, Golden.toList_text hs' hg', hl, hl']
    rfl
  obtain ⟨hc, he⟩ := htext heq
  exact ⟨hs, hs', tokens, s, g, tokens', s', g', hscan, hg, hscan', hg', heq, hc, he⟩

end ScriptLexer
