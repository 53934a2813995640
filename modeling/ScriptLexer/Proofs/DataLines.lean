import ScriptLexer.Proofs.Decoding
import ScriptLexer.Proofs.Faithful
import ScriptLexer.Proofs.Quoting

/-!
# Data lines of tokens

A dump as data is framed by line feeds: each token has a line of its own, since no token has a line
feed in its object, whatever its lexeme and its value hold. A line is decoded without knowing what
wrote it, and gives back kind, lexeme, value and line of the token, so equal dumps are of equal
tokens, their places apart.

* `Datum`, `DataLine.decode`: reading an object on a line.
* `DataLine.datum?_data`: the value of a token reads back.
* `DataLine.decode_data`: so does the object of a token.
* `TokenFormat.splitOn_dump`: a dump has a line for each token.
* `json_dump_lossless`: the dumps of scans.
-/

namespace ScriptLexer

/-! ## Reading a line -/

/-- A value of data without parts: null, a number as it is written, or a string. -/
inductive Datum
  | null
  | number (text : String)
  | string (text : String)
  deriving DecidableEq

/-- The natural number that a value is. -/
def Datum.natural? : Datum → Option Nat
  | number text =>
    if text.toList.all Char.isDigit then some (Nat.ofDigitChars 10 text.toList 0) else none
  | _ => none

/-- A character that numbers are written with. -/
def isNumeric (c : Char) : Bool :=
  c.isDigit || c == '.' || c == '-' || c == '+' || c == 'e' || c == 'E'

namespace DataLine

/-- The string at the front of a text, and what follows it. -/
def quoted? : List Char → Option (String × List Char)
  | '"' :: rest =>
    match (Cursor.start rest).string with
    | .ok (text, c) => some (text, c.pending)
    | .error _ => none
  | _ => none

/-- The value at the front of a text, and what follows it. -/
def datum? (text : List Char) : Option (Datum × List Char) :=
  match quoted? text with
  | some (content, rest) => some (.string content, rest)
  | none =>
    if text.take 4 = ['n', 'u', 'l', 'l'] then some (.null, text.drop 4)
    else if text.takeWhile isNumeric = [] then none
    else some (.number (.ofList (text.takeWhile isNumeric)), text.dropWhile isNumeric)

theorem quoted?_lt {text rest : List Char} {content : String}
    (h : quoted? text = some (content, rest)) : rest.length < text.length := by
  unfold quoted? at h
  split at h
  next more =>
    cases hread : (Cursor.start more).string with
    | error refusal => simp [hread] at h
    | ok found =>
      simp only [hread, Option.some.injEq, Prod.mk.injEq] at h
      rw [← h.2]
      exact Nat.lt_succ_of_lt (Cursor.stringOnto_lt hread)
  · cases h

theorem datum?_le {text rest : List Char} {value : Datum}
    (h : datum? text = some (value, rest)) : rest.length ≤ text.length := by
  unfold datum? at h
  split at h
  next content more hquoted =>
    cases h
    exact Nat.le_of_lt (quoted?_lt hquoted)
  · split at h
    · cases h
      rw [List.length_drop]
      omega
    split at h
    · cases h
    · cases h
      exact (List.dropWhile_sublist _).length_le

/-- A key, a colon and a value at the front of a text, and what follows them. -/
def member? (text : List Char) : Option ((String × Datum) × List Char) := do
  let (key, rest) ← quoted? text
  guard (rest.head? = some ':')
  let (value, rest) ← datum? rest.tail
  return ((key, value), rest)

theorem member?_lt {text rest : List Char} {member : String × Datum}
    (h : member? text = some (member, rest)) : rest.length < text.length := by
  unfold member? at h
  simp only [Option.bind_eq_bind, Option.bind_eq_some_iff, Prod.exists] at h
  obtain ⟨key, more, hkey, -, -, value, end', hvalue, hend⟩ := h
  cases hend
  have hlt := quoted?_lt hkey
  have hle := datum?_le hvalue
  rw [List.length_tail] at hle
  omega

/-- The members of an object whose values have no parts, in their order, from behind its opening
brace or a comma to the end of the text. -/
def members? (text : List Char) : Option (List (String × Datum)) :=
  match h : member? text with
  | none => none
  | some (member, rest) =>
    if rest = ['\x7d'] then some [member]
    else if rest.head? = some ',' then
      have : rest.tail.length < text.length := by
        have := member?_lt h
        rw [List.length_tail]
        omega
      (members? rest.tail).map (member :: ·)
    else none
termination_by text.length
decreasing_by exact this

/-- The members of the object that a line holds. -/
def decode : List Char → Option (List (String × Datum))
  | '\x7b' :: rest => members? rest
  | _ => none

/-! ## What is written reads back -/

theorem quoted?_quoteChars (text rest : List Char) :
    quoted? (Quoted.quoteChars text ++ rest) = some (.ofList text, rest) := by
  obtain ⟨offset, hread⟩ := Cursor.string_quoted text 0 rest
  have hquoted : Quoted.quoteChars text ++ rest =
      '"' :: (text.flatMap Quoted.escape ++ '"' :: rest) := by
    simp [Quoted.quoteChars]
  rw [hquoted, quoted?, Cursor.start, hread]

theorem quoted?_quote (text : String) (rest : List Char) :
    quoted? ((Quoted.quote text).toList ++ rest) = some (text, rest) := by
  rw [Quoted.quote, String.toList_ofList, quoted?_quoteChars, String.ofList_toList]

theorem datum?_quote (text : String) (rest : List Char) :
    datum? ((Quoted.quote text).toList ++ rest) = some (.string text, rest) := by
  rw [datum?, quoted?_quote]

theorem datum?_null (rest : List Char) :
    datum? (['n', 'u', 'l', 'l'] ++ rest) = some (.null, rest) := by
  simp [datum?, quoted?]

/-- A number reads back in front of a character that is in no number. -/
theorem datum?_number {text : List Char} (hne : text ≠ [])
    (htext : ∀ c ∈ text, isNumeric c = true) {d : Char} (hd : isNumeric d = false)
    (rest : List Char) : datum? (text ++ d :: rest) = some (.number (.ofList text), d :: rest) := by
  obtain ⟨c, cs, rfl⟩ := List.exists_cons_of_ne_nil hne
  have hc := htext c List.mem_cons_self
  -- its first character opens neither a string nor the word for null
  have hquoted : quoted? (c :: cs ++ d :: rest) = none := by
    unfold quoted?
    split
    next heq =>
      cases heq
      exact absurd hc (by decide)
    · rfl
  have hnull : (c :: cs ++ d :: rest).take 4 ≠ ['n', 'u', 'l', 'l'] := by
    intro heq
    rw [List.cons_append, List.take_succ_cons] at heq
    rw [List.head_eq_of_cons_eq heq] at hc
    exact absurd hc (by decide)
  have htake : (c :: cs ++ d :: rest).takeWhile isNumeric = c :: cs := by
    rw [List.takeWhile_append_of_pos htext, List.takeWhile_cons_of_neg (by simp [hd]),
      List.append_nil]
  have hdrop : (c :: cs ++ d :: rest).dropWhile isNumeric = d :: rest := by
    rw [List.dropWhile_append_of_pos htext, List.dropWhile_cons_of_neg (by simp [hd])]
  simp only [datum?, hquoted, if_neg hnull, htake, hdrop, reduceCtorEq, if_false]

section

variable {key : String} {text rest : List Char} {value : Datum}
  (h : datum? text = some (value, rest))
include h

theorem member?_quote :
    member? ((Quoted.quote key).toList ++ ':' :: text) = some ((key, value), rest) := by
  simp [member?, quoted?_quote, h]

end

theorem members?_last {text : List Char} {member : String × Datum}
    (h : member? text = some (member, ['\x7d'])) : members? text = some [member] := by
  rw [members?]
  split <;> simp_all

theorem members?_more {text rest : List Char} {member : String × Datum}
    (h : member? text = some (member, ',' :: rest)) :
    members? text = (members? rest).map (member :: ·) := by
  rw [members?]
  split <;> simp_all

end DataLine

/-! ## Numbers as data -/

theorem isNumeric_of_mem_numeral {n : Nat} {c : Char} (h : c ∈ Decimal.numeral n) :
    isNumeric c = true := by
  have hdigit := Decimal.isDigit_of_mem_numeral c h
  simp [isNumeric, hdigit]

theorem Decimal.isNumeric_of_mem_positional {d : Decimal} {c : Char} (h : c ∈ d.positional) :
    isNumeric c = true := by
  have hzero : isNumeric '0' = true := by decide
  have hdot : isNumeric '.' = true := by decide
  unfold positional at h
  simp only at h
  split at h
  · rcases List.mem_append.1 h with h | h
    · exact isNumeric_of_mem_numeral h
    · rwa [List.eq_of_mem_replicate h]
  split at h
  · rcases List.mem_append.1 h with h | h
    · exact isNumeric_of_mem_numeral (List.mem_of_mem_take h)
    · rcases List.mem_cons.1 h with rfl | h
      · exact hdot
      · exact isNumeric_of_mem_numeral (List.mem_of_mem_drop h)
  · simp only [List.cons_append, List.mem_cons, List.mem_append] at h
    rcases h with rfl | rfl | h | h
    · exact hzero
    · exact hdot
    · rwa [List.eq_of_mem_replicate h]
    · exact isNumeric_of_mem_numeral h

theorem Decimal.isNumeric_of_mem_scientific {d : Decimal} {c : Char} (h : c ∈ d.scientific) :
    isNumeric c = true := by
  have hdigits : ∀ c ∈ numeral d.digits, isNumeric c = true := fun c => isNumeric_of_mem_numeral
  unfold scientific at h
  simp only at h
  rcases List.mem_append.1 h with h | h
  · split at h
    next first second more hnumeral =>
      rw [hnumeral] at hdigits
      rcases List.mem_cons.1 h with rfl | h
      · exact hdigits _ List.mem_cons_self
      rcases List.mem_cons.1 h with rfl | h
      · decide
      · exact hdigits _ (List.mem_cons_of_mem _ h)
    next => exact hdigits _ h
  rcases List.mem_cons.1 h with rfl | h
  · decide
  rcases List.mem_cons.1 h with rfl | h
  · split <;> decide
  · exact isNumeric_of_mem_numeral h

theorem Decimal.isNumeric_of_mem_dataForm {d : Decimal} {c : Char} (h : c ∈ d.dataForm) :
    isNumeric c = true := by
  unfold dataForm at h
  split at h
  · split at h
    · exact isNumeric_of_mem_positional h
    · rcases List.mem_append.1 h with h | h
      · exact isNumeric_of_mem_positional h
      · simp only [List.mem_cons, List.not_mem_nil, or_false] at h
        rcases h with rfl | rfl <;> decide
  · exact isNumeric_of_mem_scientific h

theorem Decimal.dataForm_ne_nil (d : Decimal) : d.dataForm ≠ [] := by
  have hpositional : d.positional ≠ [] := by
    unfold positional
    simp only
    split
    · simp [numeral, Nat.toDigits_ne_nil]
    split <;> simp
  unfold dataForm
  split
  · split
    · exact hpositional
    · simp
  · simp [scientific]

/-- The data form of a number has a character, and no other than those of numbers. -/
theorem Binary64.isNumeric_of_dataForm? {x : Binary64} {text : String}
    (h : x.dataForm? = some text) :
    text.toList ≠ [] ∧ ∀ c ∈ text.toList, isNumeric c = true := by
  have hsigned : ∀ form : List Char, form ≠ [] → (∀ c ∈ form, isNumeric c = true) →
      (x.signed form).toList ≠ [] ∧ ∀ c ∈ (x.signed form).toList, isNumeric c = true := by
    intro form hne hform
    rw [signed, String.toList_ofList]
    split
    · exact ⟨List.cons_ne_nil _ _, List.forall_mem_cons.2 ⟨by decide, hform⟩⟩
    · exact ⟨hne, hform⟩
  unfold dataForm? at h
  split at h
  · cases h
  split at h
  · cases h
    exact hsigned _ (by decide) (List.all_eq_true.1 (by decide))
  · cases h
    exact hsigned _ (Decimal.dataForm_ne_nil _) fun c hc => Decimal.isNumeric_of_mem_dataForm hc

/-! ## The object of a token -/

/-- The value of a token as data; a number without a data form is null. -/
def Literal.datum : Literal → Datum
  | none => .null
  | number value => (value.dataForm?.map Datum.number).getD .null
  | string text => .string text

theorem Datum.natural?_repr (n : Nat) : natural? (.number n.repr) = some n := by
  have hdigits : (Nat.toDigits 10 n).all Char.isDigit = true :=
    List.all_eq_true.2 fun c hc => Nat.isDigit_of_mem_toDigits (by decide) (by decide) hc
  rw [natural?, Nat.toList_repr, if_pos hdigits, Nat.ofDigitChars_ten_toDigits]

/-- **The value of a token reads back**, in front of a comma. -/
theorem DataLine.datum?_data (l : Literal) (rest : List Char) :
    datum? (l.data.toList ++ ',' :: rest) = some (l.datum, ',' :: rest) := by
  cases l with
  | none => exact datum?_null _
  | string text => exact datum?_quote text _
  | number value =>
    simp only [Literal.data, Literal.datum]
    cases hform : value.dataForm? with
    | none => exact datum?_null _
    | some text =>
      obtain ⟨hne, htext⟩ := Binary64.isNumeric_of_dataForm? hform
      have hread := datum?_number hne htext (d := ',') (by decide) rest
      rwa [String.ofList_toList] at hread

theorem isNumeric_of_mem_repr {n : Nat} {c : Char} (h : c ∈ n.repr.toList) :
    isNumeric c = true := by
  rw [Nat.toList_repr] at h
  exact isNumeric_of_mem_numeral h

theorem DataLine.datum?_line (n : Nat) (rest : List Char) :
    datum? (n.repr.toList ++ ',' :: rest) = some (.number n.repr, ',' :: rest) := by
  have hdigits : ∀ c ∈ n.repr.toList, isNumeric c = true := fun c => isNumeric_of_mem_repr
  have hne : n.repr.toList ≠ [] := by
    rw [Nat.toList_repr]
    exact Nat.toDigits_ne_nil
  have hread := datum?_number hne hdigits (d := ',') (by decide) rest
  rwa [String.ofList_toList] at hread

/-- The members of a token's object, in the order of their keys. -/
def Token.members (t : Token) : List (String × Datum) :=
  [("lexeme", .string t.lexeme), ("line", .number t.line.repr), ("literal", t.literal.datum),
    ("type", .string t.kind.name)]

theorem Token.toList_data (t : Token) : t.data.toList =
    '\x7b' :: ((Quoted.quote "lexeme").toList ++ ':' :: ((Quoted.quote t.lexeme).toList ++
      ',' :: ((Quoted.quote "line").toList ++ ':' :: (t.line.repr.toList ++
      ',' :: ((Quoted.quote "literal").toList ++ ':' :: (t.literal.data.toList ++
      ',' :: ((Quoted.quote "type").toList ++ ':' :: ((Quoted.quote t.kind.name).toList ++
      ['\x7d'])))))))) := by
  have hlexeme : "\x7b\"lexeme\":".toList =
      '\x7b' :: ((Quoted.quote "lexeme").toList ++ [':']) := by decide
  have hline : ",\"line\":".toList = ',' :: ((Quoted.quote "line").toList ++ [':']) := by decide
  have hliteral : ",\"literal\":".toList =
      ',' :: ((Quoted.quote "literal").toList ++ [':']) := by decide
  have htype : ",\"type\":".toList = ',' :: ((Quoted.quote "type").toList ++ [':']) := by decide
  have hclose : "\x7d".toList = ['\x7d'] := by decide
  unfold data
  simp only [String.toList_append, hlexeme, hline, hliteral, htype, hclose, List.append_assoc,
    List.cons_append, List.nil_append]

/-- **The object of a token reads back as its members.** -/
theorem DataLine.decode_data (t : Token) : decode t.data.toList = some t.members := by
  rw [Token.toList_data, decode, members?_more (member?_quote (datum?_quote _ _)),
    members?_more (member?_quote (datum?_line _ _)),
    members?_more (member?_quote (datum?_data _ _)),
    members?_last (member?_quote (datum?_quote _ _))]
  rfl

/-! ## The lines of a dump -/

theorem le_of_isNumeric {c : Char} (h : isNumeric c = true) : 0x20 ≤ c.toNat := by
  simp only [isNumeric, Bool.or_eq_true, beq_iff_eq] at h
  rcases h with ((((h | rfl) | rfl) | rfl) | rfl) | rfl
  · have hzero : '0'.toNat ≤ c.toNat := UInt32.le_iff_toNat_le.1 (isDigit_iff.1 h).1
    exact Nat.le_trans (by decide) hzero
  all_goals decide

theorem Quoted.le_of_mem_quote {text : String} : ∀ c ∈ (quote text).toList, 0x20 ≤ c.toNat := by
  rw [quote, String.toList_ofList]
  exact fun c => le_of_mem_quoteChars

theorem Literal.le_of_mem_data {l : Literal} : ∀ c ∈ l.data.toList, 0x20 ≤ c.toNat := by
  have hnull : ∀ c ∈ "null".toList, 0x20 ≤ c.toNat := by
    have hall : "null".toList.all (fun c => decide (0x20 ≤ c.toNat)) = true := by decide
    exact fun c hc => of_decide_eq_true (List.all_eq_true.1 hall c hc)
  cases l with
  | none => exact hnull
  | string text => exact Quoted.le_of_mem_quote
  | number value =>
    simp only [data]
    cases hform : value.dataForm? with
    | none => exact hnull
    | some text =>
      exact fun c hc => le_of_isNumeric ((Binary64.isNumeric_of_dataForm? hform).2 c hc)

/-- A token has no line feed in its object. -/
theorem Token.lineFeed_notMem_data (t : Token) : '\n' ∉ t.data.toList := by
  have hall : ∀ c ∈ t.data.toList, 0x20 ≤ c.toNat := by
    simp only [toList_data, List.forall_mem_cons, List.forall_mem_append]
    exact ⟨by decide, Quoted.le_of_mem_quote, by decide, Quoted.le_of_mem_quote, by decide,
      Quoted.le_of_mem_quote, by decide, fun c hc => le_of_isNumeric (isNumeric_of_mem_repr hc),
      by decide, Quoted.le_of_mem_quote, by decide, Literal.le_of_mem_data, by decide,
      Quoted.le_of_mem_quote, by decide, Quoted.le_of_mem_quote, by decide, by simp⟩
  intro h
  exact absurd (hall _ h) (by decide)

/-- **A dump as data has a line for each token**, closed by a line feed, and no other line feeds. -/
theorem TokenFormat.splitOn_dump (tokens : Array Token) :
    (json.dump tokens).toList.splitOn '\n' =
      tokens.toList.map (fun t => t.data.toList) ++ [[]] := by
  rw [toList_dump]
  induction tokens.toList with
  | nil => rfl
  | cons t ts ih =>
    have hline : (json.entry t).toList = t.data.toList ++ ['\n'] := by
      rw [entry, String.toList_append]
      rfl
    rw [List.flatMap_cons, hline, List.append_assoc, List.singleton_append,
      List.splitOn_append_cons_self_of_not_mem t.lineFeed_notMem_data, ih]
    rfl

/-! ## Nothing is lost -/

/-- The value of a token is told by its kind and its lexeme. -/
theorem Kind.Describes.literal_unique {k : Kind} {lexeme : String} {l l' : Literal}
    (h : k.Describes lexeme l) (h' : k.Describes lexeme l') : l = l' := by
  cases k with
  | punctuation mark => exact h.2.trans h'.2.symm
  | keyword word => exact h.2.trans h'.2.symm
  | identifier => exact h.2.2.trans h'.2.2.symm
  | eof => exact h.2.trans h'.2.symm
  | string =>
    obtain ⟨text, hlexeme, -, rfl⟩ := h
    obtain ⟨text', hlexeme', -, rfl⟩ := h'
    have heq := congrArg String.toList (hlexeme.symm.trans hlexeme')
    simp only [String.toList_append, List.append_cancel_left_eq, List.append_cancel_right_eq,
      String.toList_inj] at heq
    rw [heq]
  | number =>
    obtain ⟨value, -, rfl, hvalue, -⟩ := h
    obtain ⟨value', -, rfl, hvalue', -⟩ := h'
    rw [Option.some.inj (hvalue.symm.trans hvalue')]

/-- What a token is without its span. -/
def Token.spanless (t : Token) : Kind × String × Literal × Nat :=
  (t.kind, t.lexeme, t.literal, t.line)

/-- Tokens whose kinds describe them are told apart by their objects, their spans aside. -/
theorem Token.spanless_eq_of_data {t t' : Token} (ht : t.kind.Describes t.lexeme t.literal)
    (ht' : t'.kind.Describes t'.lexeme t'.literal) (h : t.data.toList = t'.data.toList) :
    t.spanless = t'.spanless := by
  have hmembers : t.members = t'.members := by
    have hread := DataLine.decode_data t
    rw [h, DataLine.decode_data] at hread
    exact (Option.some.inj hread).symm
  simp only [members, List.cons.injEq, Prod.mk.injEq, Datum.string.injEq, Datum.number.injEq,
    true_and, and_true] at hmembers
  obtain ⟨hlexeme, hrepr, -, hname⟩ := hmembers
  have hkind : t.kind = t'.kind := Kind.name_inj hname
  have hline : t.line = t'.line := repr_inj (congrArg String.toList hrepr)
  -- the value is not taken from the object, where it may be null: its kind and lexeme tell it
  rw [← hkind, ← hlexeme] at ht'
  rw [spanless, spanless, hkind, hlexeme, hline, ht.literal_unique ht']

theorem Token.map_spanless_eq {ts ts' : List Token}
    (hts : ∀ t ∈ ts, t.kind.Describes t.lexeme t.literal)
    (hts' : ∀ t ∈ ts', t.kind.Describes t.lexeme t.literal)
    (h : ts.map (fun t => t.data.toList) = ts'.map fun t => t.data.toList) :
    ts.map spanless = ts'.map spanless := by
  induction ts generalizing ts' with
  | nil =>
    obtain rfl := List.map_eq_nil_iff.1 h.symm
    rfl
  | cons t ts ih =>
    obtain ⟨t', ts', rfl, hhead, htail⟩ := List.map_eq_cons_iff.1 h.symm
    rw [List.forall_mem_cons] at hts hts'
    rw [List.map_cons, List.map_cons, spanless_eq_of_data hts.1 hts'.1 hhead.symm,
      ih hts.2 hts'.2 htail.symm]

/-- **The dump of a scan as data is framed by line feeds and loses nothing but the spans.** It is
the objects of all tokens, each with a line feed behind it, and there are no other line feeds. Each
object decodes to the lexeme, the line and the name of the kind of its token, and for a string to
the text in it. Two sources with the same dump have the same tokens, their spans aside. -/
theorem json_dump_lossless (source : String) (h : source.utf8ByteSize < UInt32.size) :
    ∃ tokens s, scan source Collection.empty = .ok (tokens, s) ∧
      (TokenFormat.json.dump tokens).toList.splitOn '\n' =
        tokens.toList.map (fun t => t.data.toList) ++ [[]] ∧
      (∀ t ∈ tokens, ∃ number value, DataLine.decode t.data.toList =
          some [("lexeme", .string t.lexeme), ("line", number), ("literal", value),
            ("type", .string t.kind.name)] ∧
        number.natural? = some t.line ∧ Kind.ofName? t.kind.name = some t.kind ∧
        (t.kind = .string → ∃ text, t.literal = .string text ∧ value = .string text)) ∧
      ∀ source' : String, source'.utf8ByteSize < UInt32.size → ∀ tokens' s',
        scan source' Collection.empty = .ok (tokens', s') →
        TokenFormat.json.dump tokens = TokenFormat.json.dump tokens' →
        tokens.toList.map (fun t => (t.kind, t.lexeme, t.literal, t.line)) =
          tokens'.toList.map fun t => (t.kind, t.lexeme, t.literal, t.line) := by
  refine ⟨_, _, scan_eq_scanned h Collection.empty, TokenFormat.splitOn_dump _, ?_, ?_⟩
  · intro t ht
    refine ⟨_, _, DataLine.decode_data t, Datum.natural?_repr t.line, Kind.ofName?_name t.kind, ?_⟩
    intro hkind
    have hdescribes := scanned_describes (List.mem_toArray.1 ht)
    rw [hkind] at hdescribes
    obtain ⟨text, -, -, hliteral⟩ := hdescribes
    refine ⟨text, hliteral, ?_⟩
    rw [hliteral]
    rfl
  · intro source' h' tokens' s' hscan hdump
    cases (scan_eq_scanned h' Collection.empty).symm.trans hscan
    have hlines := TokenFormat.splitOn_dump (scanned source.toList).toArray
    rw [hdump, TokenFormat.splitOn_dump] at hlines
    exact Token.map_spanless_eq (fun t ht => scanned_describes ht)
      (fun t ht => scanned_describes ht) (List.append_cancel_right hlines).symm

/-- A string that holds a line feed, a backslash and a control character has one line. -/
theorem json_dump_of_string_over_lines :
    "\"\n\\\x01\"".utf8ByteSize < UInt32.size ∧ ∃ tokens s,
      scan "\"\n\\\x01\"" Collection.empty = .ok (tokens, s) ∧
      TokenFormat.json.dump tokens =
        "\x7b\"lexeme\":\"\\\"\\n\\\\\\u0001\\\"\",\"line\":1,\"literal\":\"\\n\\\\\\u0001\"," ++
        "\"type\":\"STRING\"\x7d\n" ++
        "\x7b\"lexeme\":\"\",\"line\":2,\"literal\":null,\"type\":\"EOF\"\x7d\n" ∧
      ((TokenFormat.json.dump tokens).toList.splitOn '\n').length = 3 ∧
      ∃ t ∈ tokens, ∃ number, DataLine.decode t.data.toList =
        some [("lexeme", .string "\"\n\\\x01\""), ("line", number),
          ("literal", .string "\n\\\x01"), ("type", .string "STRING")] := by
  have hs : "\"\n\\\x01\"".utf8ByteSize < UInt32.size := by decide
  have hl : lexemes "\"\n\\\x01\"".toList =
      [⟨'"' :: ['\n', '\\', '\x01'] ++ ['"'], .token (.string "\n\\\x01")⟩] :=
    lexemes_eq_iff.2 ⟨rfl, .string (by decide), trivial⟩
  obtain ⟨tokens, s, hscan, hsplit, hdecode, -⟩ := json_dump_lossless "\"\n\\\x01\"" hs
  have he := hscan.symm.trans (scan_eq Collection.empty hs)
  rw [hl] at he
  obtain ⟨rfl, -⟩ := Prod.mk.inj (Except.ok.inj he)
  obtain ⟨number, value, hread, -, -, htext⟩ :=
    hdecode _ (Array.mem_of_getElem? (i := 0) rfl)
  obtain ⟨text, hliteral, rfl⟩ := htext rfl
  cases hliteral
  refine ⟨hs, _, s, hscan, by decide +kernel, ?_, _, Array.mem_of_getElem? (i := 0) rfl, number,
    hread⟩
  rw [hsplit]
  rfl

end ScriptLexer
