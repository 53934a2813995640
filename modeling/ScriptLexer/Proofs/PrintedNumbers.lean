import ScriptLexer.Dump.Format
import ScriptLexer.Proofs.GivenTokens
import ScriptLexer.Proofs.ShortestDecimals

/-!
# Printed numbers scan back

The plain form of a finite number that is not negative is digits, and a point with digits behind it
where there is a fraction. A scan takes all of that for one number and reads it to the same bits,
however long it is. So the last column of a number in a listing is again the text of a token with
that value, and the listing of that token ends in the same column.

* `ScansAsNumber`: a text that is one number to a scan.
* `scansAsNumber_of_mem`: the texts of the class of numbers are.
* `printed_number_scans_back`: so are printed numbers, and columns of listings.
-/

namespace ScriptLexer

/-- A text is scanned as one number of a value: the token of the whole text and the end, with
nothing reported. -/
def ScansAsNumber (text : String) (value : Binary64) : Prop :=
  ∀ (ρ : Type) [Reporter ρ] (r : ρ), ∃ t e s, scan text r = .ok (#[t, e], s) ∧ s.reporter = r ∧
    t.kind = .number ∧ t.lexeme = text ∧ t.literal = .number value ∧ e.kind = .eof

/-- A range from the beginning is not reversed, wherever its end is cut. -/
theorem Span.exists_ofRange_zero (stop : Nat) : ∃ span, Span.ofRange 0 stop = .ok span := by
  have hle : Nat.toUInt32 0 ≤ stop.toUInt32 := UInt32.zero_le
  rw [ofRange, ofBounds, if_pos hle]
  exact ⟨_, rfl⟩

/-- **A text of the class of numbers, alone, is one number to a scan.** -/
theorem scansAsNumber_of_mem {w : List Char} (h : w ∈ LexicalClass.number.language) :
    ScansAsNumber (.ofList w) (LexicalClass.numeral w) := by
  intro ρ _ r
  have hchain : Chained [⟨w, .token (.number (LexicalClass.numeral w))⟩] :=
    ⟨LexicalClass.reads_of_mem h, trivial⟩
  obtain ⟨span, hspan⟩ := Span.exists_ofRange_zero (Place.start.after w).offset
  have htoken : Shape.token (.number (LexicalClass.numeral w)) w .start (Place.start.after w) =
      .ok (.number (LexicalClass.numeral w) (.ofList w) 1 span) := by
    simp only [Shape.token, Place.start_offset, hspan, bind, Except.bind]
    rfl
  have hstart : Scanner.ofText (.ofList w) r =
      .before [⟨w, .token (.number (LexicalClass.numeral w))⟩] .start r := by
    simp [Scanner.ofText, Scanner.before]
  refine ⟨.number (LexicalClass.numeral w) (.ofList w) 1 span, .eof (Place.start.after w).line
    (Place.start.after w).offset.toUInt32, .ended [] (Place.start.after w) r, ?_, rfl, rfl, rfl, rfl,
    rfl⟩
  rw [scan, Scanner.drain, hstart, Scanner.drainOnto_next (Scanner.next_of_token hchain rfl htoken),
    Scanner.drainOnto_next Scanner.next_end, Scanner.drainOnto_ended]
  rfl

/-- A printed number that is finite and not negative is one number to a scan. -/
theorem Binary64.scansAsNumber_plain {x : Binary64} (hneg : x.isNegative = false)
    (hfin : x.isFinite = true) : ScansAsNumber x.plain x := by
  have hscan := scansAsNumber_of_mem (plain_mem hneg hfin)
  rwa [String.ofList_toList, numeral_plain hneg hfin] at hscan

/-- The value of a number that was given is the one that its lexeme rounds to. -/
theorem Scanner.Gives.rounds {ρ : Type} [Reporter ρ] {s : Scanner ρ} {t : Token} (h : s.Gives t)
    {value : Binary64} (hv : t.literal = .number value) :
    t.kind = .number ∧ value.Rounds (Text.positional t.lexeme.toList) := by
  have hdescribes := h.describes
  have hkind : t.kind = .number := by
    have hsuits := t.suits
    rwa [hv] at hsuits
  rw [hkind] at hdescribes
  obtain ⟨value', -, hv', -, hrounds⟩ := hdescribes
  obtain rfl := Literal.number.inj (hv.symm.trans hv')
  exact ⟨hkind, hrounds⟩

/-- **A printed number scans back.** The listing of every finite number that is not negative is
scanned, with nothing reported, as one number of the same bits whose lexeme is the whole listing.
So is the last column in the listing of every number that a scanner gives, if it is finite: the
token of that column has it as its lexeme and as its last column, and is dumped as data with the
same value. -/
theorem printed_number_scans_back :
    (∀ value : Binary64, value.isFinite = true → value.isNegative = false →
      ScansAsNumber (Literal.number value).listing value) ∧
    ∀ {ρ : Type} [Reporter ρ] (source : String) (r : ρ) (t : Token) (value : Binary64),
      (Scanner.ofText source r).Gives t → t.literal = .number value → value.isFinite = true →
      t.listing = "NUMBER " ++ t.lexeme ++ " " ++ t.literal.listing ∧
      ∃ t' e s, scan t.literal.listing r = .ok (#[t', e], s) ∧ s.reporter = r ∧
        e.kind = .eof ∧ t'.literal = t.literal ∧ t'.literal.data = t.literal.data ∧
        t'.listing = "NUMBER " ++ t.literal.listing ++ " " ++ t.literal.listing := by
  refine ⟨fun value hfin hneg => Binary64.scansAsNumber_plain hneg hfin, ?_⟩
  intro ρ _ source r t value hgives hv hfin
  obtain ⟨hkind, hrounds⟩ := hgives.rounds hv
  obtain ⟨t', e, s, hscan, hreporter, hkind', hlexeme, hliteral, he⟩ :=
    Binary64.scansAsNumber_plain hrounds.positive hfin ρ r
  have hname : Kind.number.name = "NUMBER" := rfl
  have hcolumn : t.literal.listing = value.plain := by rw [hv, Literal.listing]
  have hsame : t'.literal = t.literal := hliteral.trans hv.symm
  refine ⟨?_, t', e, s, by rw [hcolumn, hscan], hreporter, he, hsame, by rw [hsame], ?_⟩
  · rw [Token.listing, hkind, hname]
    rfl
  · rw [Token.listing, hkind', hlexeme, hsame, hcolumn, hname]
    rfl

/-- A half, written with a zero behind it: its value is listed without that zero, and the listing is
scanned to the same value. -/
theorem printed_number_scans_back_half :
    ScansAsNumber "0.5" ⟨0x3fe0000000000000⟩ ∧
    ∃ t, (Scanner.ofText "0.50" Collection.empty).Gives t ∧ t.listing = "NUMBER 0.50 0.5" ∧
      ∃ t' e s, scan "0.5" Collection.empty = .ok (#[t', e], s) ∧
        t'.literal = .number ⟨0x3fe0000000000000⟩ ∧ t'.listing = "NUMBER 0.5 0.5" := by
  have hhalf : (Literal.number ⟨0x3fe0000000000000⟩).listing = "0.5" := by decide +kernel
  obtain ⟨hprinted, hcolumn⟩ := printed_number_scans_back
  have hscans := hprinted ⟨0x3fe0000000000000⟩ (by decide) (by decide)
  rw [hhalf] at hscans
  refine ⟨hscans, ?_⟩
  have hmem : "0.50".toList ∈ LexicalClass.number.language :=
    LexicalClass.mem_number.2 (.inr ⟨'0', [], '5', ['0'], by simp, by simp, rfl⟩)
  have hvalue : LexicalClass.numeral "0.50".toList = ⟨0x3fe0000000000000⟩ := by decide +kernel
  obtain ⟨t, e, s, hscan, -, -, hlexeme, hliteral, -⟩ :=
    scansAsNumber_of_mem hmem Collection Collection.empty
  rw [String.ofList_toList] at hscan hlexeme
  rw [hvalue] at hliteral
  have hgives : (Scanner.ofText "0.50" Collection.empty).Gives t := gives_of_mem_scan hscan (by simp)
  obtain ⟨hlisting, t', e', s', hscan', -, -, hliteral', -, hlisting'⟩ :=
    hcolumn "0.50" Collection.empty t _ hgives hliteral (by decide)
  rw [hliteral, hhalf] at hlisting hscan' hlisting'
  rw [hlexeme] at hlisting
  exact ⟨t, hgives, hlisting, t', e', s', hscan', hliteral'.trans hliteral, hlisting'⟩

end ScriptLexer
