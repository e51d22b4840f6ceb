import CodeCausality.Json.Printer
import CodeCausality.Json.Reader
import CodeCausality.Proofs.Time.Timestamp

/-!
# Numbers are read to their end

A number is written as a sign, digits, a point with digits and an exponent, most of which may be
missing (`Spelling`). What is read of it is the same whatever stands behind it, as long as that
does not go on with the number.

* `Ends` -- no number goes on here;
* `Spelling.Sound.read` -- **a spelling is read to its last character and not beyond**;
* `exists_spelling` -- the text of every number is a spelling;
* `rereadNumber`, `readNumber_numberText` -- what the text of a number reads as.
-/

namespace CodeCausality

/-! ## 1. Digits -/

namespace Decimal

/-- Digits that may stand before a point: a zero, or digits that start with none. -/
def Leading (ds : List Char) : Prop :=
  ds = ['0'] ∨ ∃ d rest, ds = d :: rest ∧ d ≠ '0' ∧ ∀ c ∈ ds, c.isDigit = true

theorem digitChar_ne_zero : ∀ n, n < 10 → 0 < n → n.digitChar ≠ '0' := by decide

theorem leading_toDigits (n : Nat) : Leading (Nat.toDigits 10 n) := by
  have hdigits : ∀ c ∈ Nat.toDigits 10 n, c.isDigit = true := fun c hc =>
    Nat.isDigit_of_mem_toDigits (by decide) (by decide) hc
  suffices h : n = 0 ∨ ∃ d rest, Nat.toDigits 10 n = d :: rest ∧ d ≠ '0' by
    rcases h with rfl | ⟨d, rest, h, hd⟩
    · exact .inl (Nat.toDigits_zero 10)
    · exact .inr ⟨d, rest, h, hd, hdigits⟩
  clear hdigits
  induction n using Nat.strongRecOn with
  | ind n ih =>
    rcases Nat.eq_zero_or_pos n with rfl | hpos
    · exact .inl rfl
    rcases Nat.lt_or_ge n 10 with hn | hn
    · exact .inr ⟨_, [], Nat.toDigits_of_lt_base hn, digitChar_ne_zero n hn hpos⟩
    · -- the last digit goes; what is left is positive and starts alike
      obtain hzero | ⟨d, rest, h, hd⟩ := ih (n / 10) (by omega)
      · omega
      · exact .inr ⟨d, rest ++ [(n % 10).digitChar],
          by rw [Nat.toDigits_of_base_le (by decide) hn, h, List.cons_append], hd⟩

theorem digitsValue_toDigits (n : Nat) : digitsValue (Nat.toDigits 10 n) = n :=
  Nat.ofDigitChars_ten_toDigits

theorem Leading.isDigit {ds : List Char} (h : Leading ds) : ∀ c ∈ ds, c.isDigit = true := by
  rcases h with rfl | ⟨_, _, -, -, h⟩
  · exact List.forall_mem_singleton.mpr rfl
  · exact h

theorem Leading.ne_nil {ds : List Char} (h : Leading ds) : ds ≠ [] := by
  rcases h with rfl | ⟨_, _, rfl, -⟩ <;> exact List.cons_ne_nil _ _

/-- The digits at the front end where the text does, or where something else stands. -/
theorem spanDigits_append_of_head {ds rest : List Char} (hds : ∀ d ∈ ds, d.isDigit = true)
    (hrest : ∀ c ∈ rest.head?, c.isDigit = false) : spanDigits (ds ++ rest) = (ds, rest) := by
  have htake : rest.takeWhile Char.isDigit = [] := by
    cases rest with
    | nil => rfl
    | cons c rest => rw [List.takeWhile_cons, hrest c rfl, if_neg Bool.false_ne_true]
  have hdrop : rest.dropWhile Char.isDigit = rest := by
    cases rest with
    | nil => rfl
    | cons c rest => rw [List.dropWhile_cons, hrest c rfl, if_neg Bool.false_ne_true]
  rw [spanDigits, List.takeWhile_append_of_pos hds, List.dropWhile_append_of_pos hds, htake, hdrop,
    List.append_nil]

end Decimal

namespace Json

open Decimal (Leading digitsValue digitText spanDigits)

/-! ## 2. Spellings -/

/-- No number goes on with the text. -/
def Ends (rest : List Char) : Prop :=
  ∀ c ∈ rest.head?, c.isDigit = false ∧ c ≠ '.' ∧ c ≠ 'e' ∧ c ≠ 'E'

theorem ends_nil : Ends [] := fun _ hc => nomatch hc

/-- The parts of the text of a number. -/
structure Spelling where
  negative : Bool
  whole : List Char
  /-- The digits behind the point; none without a point. -/
  fraction : List Char
  /-- Whether the exponent is negative, and its digits. -/
  exponent : Option (Bool × List Char)

namespace Spelling

def fractionChars (sp : Spelling) : List Char :=
  if sp.fraction = [] then [] else '.' :: sp.fraction

def exponentChars (sp : Spelling) : List Char :=
  match sp.exponent with
  | none => []
  | some (negative, ds) => 'e' :: (if negative then '-' else '+') :: ds

def chars (sp : Spelling) : List Char :=
  (if sp.negative then ['-'] else []) ++ (sp.whole ++ (sp.fractionChars ++ sp.exponentChars))

/-- The digits are digits, and there are some where there must be. -/
structure Sound (sp : Spelling) : Prop where
  whole : Leading sp.whole
  fraction : ∀ c ∈ sp.fraction, c.isDigit = true
  exponent : ∀ p ∈ sp.exponent, p.2 ≠ [] ∧ ∀ c ∈ p.2, c.isDigit = true

/-- Without an exponent there are no digits of one. -/
theorem digits_of_no_exponent (p : Bool × List Char) (hp : p ∈ (none : Option (Bool × List Char))) :
    p.2 ≠ [] ∧ ∀ c ∈ p.2, c.isDigit = true :=
  absurd hp (Option.not_mem_none p)

/-- The exponent that the spelling shows. -/
def exponentValue (sp : Spelling) : Option Int :=
  sp.exponent.map fun p => if p.1 then -(digitsValue p.2 : Int) else digitsValue p.2

/-- The number that the spelling is read as. -/
def value (sp : Spelling) : JsonNumber where
  decimal := ⟨sp.negative, digitsValue (sp.whole ++ sp.fraction),
    sp.exponentValue.getD 0 - sp.fraction.length⟩
  whole := sp.fraction.isEmpty && sp.exponentValue.isNone && !(sp.negative && sp.whole == ['0'])

variable {sp : Spelling} {rest : List Char}

/-! ## 3. Reading a spelling -/

theorem readWhole_append {ds : List Char} (h : Leading ds)
    (hrest : ∀ c ∈ rest.head?, c.isDigit = false) : readWhole (ds ++ rest) = some (ds, rest) := by
  rcases h with rfl | ⟨d, tail, rfl, hd, hdigits⟩
  · rfl
  · have hspan := Decimal.spanDigits_append_of_head hdigits hrest
    rw [List.cons_append] at hspan ⊢
    rw [readWhole]
    · rw [hspan]
      rfl
    · rintro r heq
      exact hd (List.cons.inj heq).1

namespace Sound

theorem readFraction (h : sp.Sound)
    (hrest : ∀ c ∈ rest.head?, c.isDigit = false ∧ c ≠ '.') :
    Json.readFraction (sp.fractionChars ++ rest) = some (sp.fraction, rest) := by
  by_cases hnil : sp.fraction = []
  · rw [fractionChars, if_pos hnil, hnil, List.nil_append, Json.readFraction]
    rintro r rfl
    exact (hrest '.' rfl).2 rfl
  · rw [fractionChars, if_neg hnil, List.cons_append, Json.readFraction,
      Decimal.spanDigits_append_of_head h.fraction fun c hc => (hrest c hc).1]
    exact if_neg fun hempty => hnil (List.isEmpty_iff.mp hempty)

theorem readExponent (h : sp.Sound) (hrest : Ends rest) :
    Json.readExponent (sp.exponentChars ++ rest) = some (sp.exponentValue, rest) := by
  cases hexponent : sp.exponent with
  | none =>
    rw [exponentChars, exponentValue, hexponent]
    cases rest with
    | nil => rfl
    | cons c rest =>
      obtain ⟨-, -, he, hE⟩ := hrest c rfl
      exact if_neg fun hc => hc.elim he hE
  | some p =>
    obtain ⟨hne, hdigits⟩ := h.exponent p hexponent
    obtain ⟨negative, ds⟩ := p
    have hspan := Decimal.spanDigits_append_of_head hdigits fun c hc => (hrest c hc).1
    have hempty : ds.isEmpty = false := List.isEmpty_eq_false_iff.mpr hne
    rw [exponentChars, exponentValue, hexponent]
    cases negative <;>
      simp [Json.readExponent, Decimal.spanSign, hspan, hempty]

theorem readMagnitude (h : sp.Sound) (hrest : Ends rest) :
    Json.readMagnitude sp.negative (sp.whole ++ (sp.fractionChars ++ (sp.exponentChars ++ rest))) =
      some (sp.value, rest) := by
  have hexponent : ∀ c ∈ (sp.exponentChars ++ rest).head?, c.isDigit = false ∧ c ≠ '.' := by
    rw [exponentChars]
    cases sp.exponent with
    | none => exact fun c hc => ⟨(hrest c hc).1, (hrest c hc).2.1⟩
    | some p =>
      rintro c hc
      obtain rfl : 'e' = c := Option.some.inj hc
      decide
  have hfraction : ∀ c ∈ (sp.fractionChars ++ (sp.exponentChars ++ rest)).head?,
      c.isDigit = false := by
    rw [fractionChars]
    split
    · exact fun c hc => (hexponent c hc).1
    · rintro c hc
      obtain rfl : '.' = c := Option.some.inj hc
      decide
  rw [Json.readMagnitude, readWhole_append h.whole hfraction]
  simp only [bind, Option.bind, h.readFraction hexponent, h.readExponent hrest]
  rfl

/-- **A spelling is read to its last character and not beyond.** -/
theorem read (h : sp.Sound) (hrest : Ends rest) :
    readNumber (sp.chars ++ rest) = some (sp.value, rest) := by
  have hmagnitude := h.readMagnitude hrest
  rw [chars, List.append_assoc, List.append_assoc, List.append_assoc]
  cases hnegative : sp.negative with
  | true =>
    rw [hnegative] at hmagnitude
    exact hmagnitude
  | false =>
    rw [hnegative] at hmagnitude
    rw [if_neg Bool.false_ne_true, List.nil_append, readNumber]
    · exact hmagnitude
    · intro r heq
      -- the text starts with a digit
      obtain ⟨d, tail, hwhole⟩ := List.exists_cons_of_ne_nil h.whole.ne_nil
      have hd := h.whole.isDigit d (hwhole ▸ List.mem_cons_self)
      rw [hwhole, List.cons_append] at heq
      rw [(List.cons.inj heq).1] at hd
      exact absurd hd (by decide)

end Sound

end Spelling

/-! ## 4. The spelling of a number -/

section Spell

open Spelling Decimal

/-- The digits of a number, behind a sign. -/
theorem exists_spelling_pointed (negative : Bool) (n places : Nat)
    (exponent : Option (Bool × List Char))
    (hexponent : ∀ p ∈ exponent, p.2 ≠ [] ∧ ∀ c ∈ p.2, c.isDigit = true) :
    ∃ sp : Spelling, sp.Sound ∧ sp.negative = negative ∧ sp.exponent = exponent ∧
      (pointed n places).toList = sp.whole ++ sp.fractionChars := by
  rw [pointed]
  split
  · refine ⟨⟨negative, Nat.toDigits 10 n, [], exponent⟩, ⟨leading_toDigits n, ?_, hexponent⟩, rfl,
      rfl, ?_⟩
    · exact List.forall_mem_nil _
    · rw [fractionChars, if_pos rfl, List.append_nil, digitText, String.toList_ofList]
  · rename_i hplaces
    generalize n / Nat.pow 10 places = high
    generalize n % Nat.pow 10 places = low
    have hpadded : (padded places low).toList ≠ [] :=
      List.ne_nil_of_length_pos ((Nat.pos_of_ne_zero hplaces).trans_le (le_length_padded places low))
    have hdigits := isDigit_padded places low
    generalize hds : (padded places low).toList = ds at hpadded hdigits
    refine ⟨⟨negative, Nat.toDigits 10 high, ds, exponent⟩,
      ⟨leading_toDigits high, hdigits, hexponent⟩, rfl, rfl, ?_⟩
    rw [fractionChars, if_neg hpadded, String.toList_append, String.toList_append, hds, digitText,
      String.toList_ofList, List.append_assoc]
    rfl

/-- A whole number, with or without a fraction of zero. -/
theorem exists_spelling_digitText (negative : Bool) (n : Nat) (fraction : List Char)
    (hfraction : ∀ c ∈ fraction, c.isDigit = true) :
    ∃ sp : Spelling, sp.Sound ∧ sp.negative = negative ∧ sp.exponent = none ∧
      sp.fraction = fraction ∧ (digitText n).toList = sp.whole := by
  refine ⟨⟨negative, Nat.toDigits 10 n, fraction, none⟩, ⟨leading_toDigits n, hfraction, ?_⟩, rfl,
    rfl, rfl, by rw [digitText, String.toList_ofList]⟩
  exact digits_of_no_exponent

/-- What stands behind the sign of a number. -/
def Spelling.magnitude (sp : Spelling) : List Char :=
  sp.whole ++ (sp.fractionChars ++ sp.exponentChars)

theorem toList_intText (z : Int) :
    (intText z).toList = (if z < 0 then ['-'] else []) ++ Nat.toDigits 10 z.natAbs := by
  rw [intText]
  split <;> simp [digitText]

theorem exists_spelling_layout (negative : Bool) (d : Digits) :
    ∃ sp : Spelling, sp.Sound ∧ sp.negative = negative ∧
      (numberStyle.layout d).toList = sp.magnitude := by
  rw [Style.layout]
  split
  · rw [Style.positionalText]
    split
    · obtain ⟨sp, hsound, hnegative, hexponent, hfraction, htext⟩ :=
        exists_spelling_digitText negative (d.digits * Nat.pow 10 d.exponent.toNat)
          ['0'] (List.forall_mem_singleton.mpr rfl)
      refine ⟨sp, hsound, hnegative, ?_⟩
      rw [String.toList_append, htext, magnitude, fractionChars, hfraction, exponentChars,
        hexponent]
      rfl
    · obtain ⟨sp, hsound, hnegative, hexponent, htext⟩ :=
        exists_spelling_pointed negative d.digits (-d.exponent).toNat none digits_of_no_exponent
      refine ⟨sp, hsound, hnegative, ?_⟩
      rw [htext, magnitude, exponentChars, hexponent, List.append_nil]
  · rw [Style.exponentText]
    generalize d.exponent + ↑(Binary64.digitCount d.digits - 1) = e
    obtain ⟨sp, hsound, hnegative, hexponent, htext⟩ :=
      exists_spelling_pointed negative d.digits (Binary64.digitCount d.digits - 1)
        (some (decide (e < 0), Nat.toDigits 10 e.natAbs)) (by
          intro p hp
          obtain rfl := Option.some.inj hp
          exact ⟨Nat.toDigits_ne_nil, fun c hc =>
            Nat.isDigit_of_mem_toDigits (by decide) (by decide) hc⟩)
    refine ⟨sp, hsound, hnegative, ?_⟩
    rw [String.toList_append, String.toList_append, String.toList_append, htext, toList_intText,
      magnitude, exponentChars, hexponent]
    by_cases he : e < 0 <;> simp [he, numberStyle]

/-- **The text of a number is a spelling.** -/
theorem exists_spelling (n : JsonNumber) :
    ∃ sp : Spelling, sp.Sound ∧ (numberText n).toList = sp.chars := by
  suffices h : ∃ sp : Spelling, sp.Sound ∧ sp.negative = n.decimal.negative ∧
      (if n.whole then digitText n.decimal.mantissa
       else if n.decimal.mantissa = 0 then "0" ++ numberStyle.wholeMark
       else numberStyle.layout (Digits.strip ⟨n.decimal.mantissa, n.decimal.exponent⟩)).toList =
        sp.magnitude by
    obtain ⟨sp, hsound, hnegative, htext⟩ := h
    refine ⟨sp, hsound, ?_⟩
    rw [numberText, String.toList_append, htext, chars, hnegative, signText]
    cases n.decimal.negative <;> rfl
  split
  · obtain ⟨sp, hsound, hnegative, hexponent, hfraction, htext⟩ :=
      exists_spelling_digitText n.decimal.negative n.decimal.mantissa [] (List.forall_mem_nil _)
    refine ⟨sp, hsound, hnegative, ?_⟩
    rw [htext, magnitude, fractionChars, hfraction, exponentChars, hexponent]
    exact (List.append_nil _).symm
  · split
    · exact ⟨⟨n.decimal.negative, ['0'], ['0'], none⟩,
        ⟨.inl rfl, List.forall_mem_singleton.mpr rfl, digits_of_no_exponent⟩, rfl, rfl⟩
    · exact exists_spelling_layout _ _

end Spell

/-! ## 5. Numbers -/

/-- What the text of the number reads as. -/
def rereadNumber (n : JsonNumber) : JsonNumber :=
  ((readNumber (numberText n).toList).map (·.1)).getD n

/-- **The text of a number is read to its end, as the same whatever follows.** -/
theorem readNumber_numberText (n : JsonNumber) {rest : List Char} (hrest : Ends rest) :
    readNumber ((numberText n).toList ++ rest) = some (rereadNumber n, rest) := by
  obtain ⟨sp, hsound, htext⟩ := exists_spelling n
  have halone := hsound.read ends_nil
  rw [List.append_nil] at halone
  rw [rereadNumber, htext, hsound.read hrest, halone]
  rfl

/-- A natural number is read as itself. -/
theorem rereadNumber_natural (n : Nat) :
    rereadNumber ⟨⟨false, n, 0⟩, true⟩ = ⟨⟨false, n, 0⟩, true⟩ := by
  have htext : (numberText ⟨⟨false, n, 0⟩, true⟩).toList =
      Spelling.chars ⟨false, Nat.toDigits 10 n, [], none⟩ := by
    simp [numberText, Decimal.signText, digitText, Spelling.chars, Spelling.fractionChars,
      Spelling.exponentChars]
  have hsound : Spelling.Sound ⟨false, Nat.toDigits 10 n, [], none⟩ :=
    ⟨Decimal.leading_toDigits n, List.forall_mem_nil _, Spelling.digits_of_no_exponent⟩
  have hread := hsound.read ends_nil
  rw [List.append_nil] at hread
  rw [rereadNumber, htext, hread]
  simp [Spelling.value, Spelling.exponentValue, Decimal.digitsValue_toDigits]

/-- No number starts with a blank or as a value of another kind does. -/
theorem head_numberText (n : JsonNumber) :
    ∃ c rest, (numberText n).toList = c :: rest ∧ (c = '-' ∨ c.isDigit = true) := by
  obtain ⟨sp, hsound, htext⟩ := exists_spelling n
  obtain ⟨d, tail, hwhole⟩ := List.exists_cons_of_ne_nil hsound.whole.ne_nil
  have hd := hsound.whole.isDigit d (hwhole ▸ List.mem_cons_self)
  rw [htext, Spelling.chars, hwhole]
  cases sp.negative
  · exact ⟨d, _, rfl, .inr hd⟩
  · exact ⟨'-', _, rfl, .inl rfl⟩

end Json

end CodeCausality
