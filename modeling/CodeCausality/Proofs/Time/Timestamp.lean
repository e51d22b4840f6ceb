import CodeCausality.Proofs.Text.ByteOrder
import CodeCausality.Proofs.Time.Calendar
import CodeCausality.Time.Reader

/-!
# Written timestamps are read back

* `Decimal.length_padded`, `isDigit_padded`, `digitsValue_padded` -- a number below `10 ^ width` is
  written with `width` digits that stand for it;
* `Timestamp.digits_padded`, `date_written`, `time_written` -- each reader takes what was written of
  its part and leaves the rest;
* `Instant.OnClock` -- the instants that a clock shows, leap seconds included;
* `Timestamp.read_text` -- **an instant of a year of four digits, without what is finer than a
  microsecond, is read back from its text.**
-/

namespace CodeCausality

/-! ## 1. Digits -/

namespace Decimal

variable {width n : Nat}

theorem toList_padded (width n : Nat) : (padded width n).toList =
    List.replicate (width - (Nat.toDigits 10 n).length) '0' ++ Nat.toDigits 10 n := by
  simp [padded, digitText, zeros]

theorem le_length_padded (width n : Nat) : width ≤ (padded width n).toList.length := by
  rw [toList_padded, List.length_append, List.length_replicate]
  omega

theorem length_padded (hw : 0 < width) (hn : n < 10 ^ width) :
    (padded width n).toList.length = width := by
  have hlen := (Nat.length_toDigits_le_iff (b := 10) (by decide) hw).mpr hn
  rw [toList_padded, List.length_append, List.length_replicate]
  omega

theorem isDigit_padded (width n : Nat) : ∀ c ∈ (padded width n).toList, c.isDigit = true := by
  intro c hc
  rw [toList_padded, List.mem_append] at hc
  rcases hc with hc | hc
  · rw [(List.mem_replicate.mp hc).2]
    decide
  · exact Nat.isDigit_of_mem_toDigits (by decide) (by decide) hc

theorem digitsValue_padded (width n : Nat) : digitsValue (padded width n).toList = n := by
  have hvalue (ds : List Char) : digitsValue ds = Nat.ofDigitChars 10 ds 0 := rfl
  rw [hvalue, toList_padded, Nat.ofDigitChars_append, Nat.ofDigitChars_replicate_zero,
    Nat.mul_zero, Nat.ofDigitChars_ten_toDigits]

/-- The digits at the front end where something else stands. -/
theorem spanDigits_of_isDigit {ds rest : List Char} {c : Char} (hds : ∀ d ∈ ds, d.isDigit = true)
    (hc : c.isDigit = false) : spanDigits (ds ++ c :: rest) = (ds, c :: rest) := by
  have htake : (ds ++ c :: rest).takeWhile Char.isDigit = ds := by
    rw [List.takeWhile_append_of_pos hds, List.takeWhile_cons, hc, if_neg (by decide),
      List.append_nil]
  have hdrop : (ds ++ c :: rest).dropWhile Char.isDigit = c :: rest := by
    rw [List.dropWhile_append_of_pos hds, List.dropWhile_cons, hc, if_neg (by decide)]
  rw [spanDigits, htake, hdrop]

end Decimal

open Decimal (padded)

namespace Timestamp

/-! ## 2. Readers -/

variable {β γ : Type}

/-- What follows a reader reads what that one leaves. -/
theorem bind_of_ok {x : Reader β} {f : β → Reader γ} {s rest : List Char} {b : β}
    (h : x s = .ok (b, rest)) : (x >>= f) s = f b rest := by
  show (x s >>= fun p => f p.1 p.2) = f b rest
  rw [h]
  rfl

theorem digits_padded {width n : Nat} (hw : 0 < width) (hn : n < 10 ^ width) (rest : List Char) :
    digits width ((padded width n).toList ++ rest) = .ok (n, rest) := by
  have hlen := Decimal.length_padded hw hn
  have htake : ((padded width n).toList ++ rest).take width = (padded width n).toList :=
    List.take_left' hlen
  have hdrop : ((padded width n).toList ++ rest).drop width = rest := List.drop_left' hlen
  have hall : (padded width n).toList.all Char.isDigit = true :=
    List.all_eq_true.mpr (Decimal.isDigit_padded width n)
  unfold digits
  simp only [htake, hdrop]
  rw [if_pos ⟨hlen, hall⟩, Decimal.digitsValue_padded]

theorem mark_cons {allowed : List Char} {c : Char} (hc : allowed.contains c = true)
    (rest : List Char) : mark allowed (c :: rest) = .ok (c, rest) := by
  rw [mark, if_pos hc]

theorem offset_zulu (rest : List Char) : offset ('Z' :: rest) = .ok (0, rest) := rfl

/-- A date as it is written. -/
def dateChars (year month day : Nat) (rest : List Char) : List Char :=
  (padded 4 year).toList ++ '-' ::
    ((padded 2 month).toList ++ '-' :: ((padded 2 day).toList ++ rest))

theorem le_length_dateChars (year month day : Nat) (rest : List Char) :
    10 + rest.length ≤ (dateChars year month day rest).length := by
  have hy := Decimal.le_length_padded 4 year
  have hm := Decimal.le_length_padded 2 month
  have hd := Decimal.le_length_padded 2 day
  simp only [dateChars, List.length_append, List.length_cons]
  omega

theorem date_written {year month day : Nat} (hy : year < 10000)
    (hvalid : (⟨year, month, day⟩ : Date).isValid = true) (rest : List Char) :
    date (dateChars year month day rest) = .ok (⟨year, month, day⟩, rest) := by
  have hbounds := hvalid
  simp only [Date.isValid, Bool.and_eq_true, decide_eq_true_eq] at hbounds
  have hlong : daysInMonth year month ≤ 31 := by
    unfold daysInMonth
    repeat' split
    all_goals omega
  have hm : month < 10 ^ 2 := by omega
  have hd : day < 10 ^ 2 := by omega
  refine (bind_of_ok (digits_padded (by decide) hy _)).trans ?_
  refine (bind_of_ok (mark_cons (by decide) _)).trans ?_
  refine (bind_of_ok (digits_padded (by decide) hm _)).trans ?_
  refine (bind_of_ok (mark_cons (by decide) _)).trans ?_
  refine (bind_of_ok (digits_padded (by decide) hd _)).trans ?_
  rw [if_pos hvalid]
  rfl

/-- Microseconds as they are written are read as nanoseconds. -/
theorem fraction_written {micros : Nat} (h : micros < 10 ^ 6) (c : Char) (hc : c.isDigit = false)
    (rest : List Char) : fraction ('.' :: ((padded 6 micros).toList ++ c :: rest)) =
      .ok (micros * 1000, c :: rest) := by
  have hlen := Decimal.length_padded (by decide) h
  have hne : ¬ (padded 6 micros).toList.isEmpty = true := by
    rw [← List.length_eq_zero_iff.trans List.isEmpty_iff.symm, hlen]
    decide
  have hkept : (padded 6 micros).toList.take 9 = (padded 6 micros).toList :=
    List.take_of_length_le (by omega)
  unfold fraction
  simp only [Decimal.spanDigits_of_isDigit (Decimal.isDigit_padded 6 micros) hc]
  rw [if_neg hne]
  simp only [hkept, hlen, Decimal.digitsValue_padded]

/-- A time of day as it is written; second 60 is a leap second. -/
def timeChars (hour minute second micros : Nat) (rest : List Char) : List Char :=
  (padded 2 hour).toList ++ ':' :: ((padded 2 minute).toList ++ ':' :: ((padded 2 second).toList ++
    '.' :: ((padded 6 micros).toList ++ rest)))

theorem le_length_timeChars (hour minute second micros : Nat) (rest : List Char) :
    15 + rest.length ≤ (timeChars hour minute second micros rest).length := by
  have hh := Decimal.le_length_padded 2 hour
  have hm := Decimal.le_length_padded 2 minute
  have hs := Decimal.le_length_padded 2 second
  have hmicros := Decimal.le_length_padded 6 micros
  simp only [timeChars, List.length_append, List.length_cons]
  omega

theorem time_written {hour minute second micros : Nat} (hh : hour < 24) (hm : minute < 60)
    (hs : second ≤ 60) (hmicros : micros < 10 ^ 6) {c : Char} (hc : c.isDigit = false)
    (rest : List Char) :
    time (timeChars hour minute second micros (c :: rest)) =
      .ok (if second = 60 then (hour * 3600 + minute * 60 + 59, micros * 1000 + 1000000000)
        else (hour * 3600 + minute * 60 + second, micros * 1000), c :: rest) := by
  refine (bind_of_ok (digits_padded (by decide) (by omega) _)).trans ?_
  refine (bind_of_ok (mark_cons (by decide) _)).trans ?_
  refine (bind_of_ok (digits_padded (by decide) (by omega) _)).trans ?_
  refine (bind_of_ok (mark_cons (by decide) _)).trans ?_
  refine (bind_of_ok (digits_padded (by decide) (by omega) _)).trans ?_
  refine (bind_of_ok (fraction_written hmicros c hc rest)).trans ?_
  by_cases hleap : second = 60
  · have hshown : hour < 24 ∧ minute < 60 ∧ 59 < 60 := by omega
    simp only [hleap, if_true, if_pos hshown]
    rfl
  · have hshown : hour < 24 ∧ minute < 60 ∧ second < 60 := by omega
    simp only [hleap, if_false, if_pos hshown]
    rfl

/-- What a timestamp is made of: the date, the time of day and the offset. -/
def parts : Reader (Date × (Nat × Nat) × Int) := do
  let d ← date
  let _ ← mark ['T', 't', ' ']
  let t ← time
  let o ← offset
  return (d, t, o)

theorem read_of_parts {text : String} {d : Date} {ofDay nanos : Nat} {offset : Int}
    (hlong : 19 ≤ text.utf8ByteSize)
    (h : parts text.toList = .ok ((d, (ofDay, nanos), offset), []))
    (hoffset : offset.natAbs < 86400) :
    read text = .ok ⟨daysOf d * 86400 + ofDay - offset, nanos⟩ := by
  have hsmall : ¬ 86400 ≤ offset.natAbs := by omega
  have hlarge : ¬ text.utf8ByteSize < 19 := by omega
  unfold parts at h
  unfold read
  rw [if_neg hlarge]
  dsimp only
  rw [h]
  simp [hsmall]

end Timestamp

/-! ## 3. Instants -/

theorem length_le_utf8ByteSize (s : String) : s.toList.length ≤ s.utf8ByteSize := by
  have hsize : s.utf8ByteSize = (utf8 s).length := by
    rw [utf8, Array.length_toList]
    rfl
  rw [hsize, utf8_eq_flatMap]
  induction s.toList with
  | nil => exact Nat.le_refl 0
  | cons c cs ih =>
    have hpos := c.utf8Size_pos
    rw [List.flatMap_cons, List.length_append, String.length_utf8EncodeChar, List.length_cons]
    omega

namespace Instant

/-- What a clock shows: less than a second of nanoseconds, or in a leap second, which ends a minute,
less than two. -/
structure OnClock (t : Instant) : Prop where
  nanos : t.nanos < 2000000000
  leap : 1000000000 ≤ t.nanos → t.seconds % 60 = 59

theorem OnClock.toMicros {t : Instant} (h : t.OnClock) : t.toMicros.OnClock where
  nanos := by
    have := h.nanos
    simp only [Instant.toMicros]
    omega
  leap hle := by
    simp only [Instant.toMicros] at hle
    exact h.leap (by omega)

/-- The year that the instant falls in. -/
def year (t : Instant) : Int := (dateOf (t.seconds / 86400)).year

theorem toList_text {t : Instant} (h : 0 ≤ t.year ∧ t.year ≤ 9999) :
    t.text.toList = Timestamp.dateChars t.year.toNat (dateOf (t.seconds / 86400)).month
      (dateOf (t.seconds / 86400)).day ('T' :: Timestamp.timeChars
        ((t.seconds % 86400).toNat / 3600) ((t.seconds % 86400).toNat / 60 % 60)
        ((t.seconds % 86400).toNat % 60 + t.nanos / 1000000000) (t.nanos % 1000000000 / 1000)
        ['Z']) := by
  unfold year at h ⊢
  simp [text, yearText, h, Timestamp.dateChars, Timestamp.timeChars]

theorem le_length_text {t : Instant} (h : 0 ≤ t.year ∧ t.year ≤ 9999) :
    19 ≤ t.text.toList.length := by
  rw [toList_text h]
  refine le_trans ?_ (Timestamp.le_length_dateChars _ _ _ _)
  rw [List.length_cons]
  have htime := Timestamp.le_length_timeChars ((t.seconds % 86400).toNat / 3600)
    ((t.seconds % 86400).toNat / 60 % 60) ((t.seconds % 86400).toNat % 60 + t.nanos / 1000000000)
    (t.nanos % 1000000000 / 1000) ['Z']
  omega

end Instant

/-- **An instant of a year of four digits is read back from its text, if it has nothing that is
finer than a microsecond.** -/
theorem Timestamp.read_text {t : Instant} (h : t.OnClock) (hmicros : t.nanos % 1000 = 0)
    (hyear : 0 ≤ t.year ∧ t.year ≤ 9999) : Timestamp.read t.text = .ok t := by
  obtain ⟨hnanos, hleap⟩ := h
  obtain ⟨d, hd⟩ : ∃ d, d = dateOf (t.seconds / 86400) := ⟨_, rfl⟩
  obtain ⟨ofDay, hofDay⟩ : ∃ n : Nat, n = (t.seconds % 86400).toNat := ⟨_, rfl⟩
  have hdate : (⟨(t.year.toNat : Nat), d.month, d.day⟩ : Date) = d := by
    rw [Int.toNat_of_nonneg hyear.1, Instant.year, ← hd]
  have hvalid : (⟨(t.year.toNat : Nat), d.month, d.day⟩ : Date).isValid = true := by
    rw [hdate, hd]
    exact isValid_dateOf _
  have hlong : 19 ≤ t.text.utf8ByteSize :=
    (Instant.le_length_text hyear).trans (length_le_utf8ByteSize t.text)
  -- second 60 is shown exactly in a leap second
  have htime : (if ofDay % 60 + t.nanos / 1000000000 = 60 then
        (ofDay / 3600 * 3600 + ofDay / 60 % 60 * 60 + 59,
          t.nanos % 1000000000 / 1000 * 1000 + 1000000000)
      else (ofDay / 3600 * 3600 + ofDay / 60 % 60 * 60 + (ofDay % 60 + t.nanos / 1000000000),
        t.nanos % 1000000000 / 1000 * 1000)) = (ofDay, t.nanos) := by
    split
    · refine Prod.ext ?_ ?_ <;> dsimp only <;> omega
    · refine Prod.ext ?_ ?_ <;> dsimp only <;> omega
  have hparts : parts t.text.toList = .ok ((d, (ofDay, t.nanos), 0), []) := by
    rw [Instant.toList_text hyear, ← hd, ← hofDay]
    refine (bind_of_ok (date_written (by omega) hvalid _)).trans ?_
    refine (bind_of_ok (mark_cons (by decide) _)).trans ?_
    refine (bind_of_ok (time_written (by omega) (by omega) (by omega) (by omega) (by decide)
      _)).trans ?_
    refine (bind_of_ok (offset_zulu _)).trans ?_
    rw [htime, hdate]
    rfl
  have hseconds : daysOf d * 86400 + ofDay - 0 = t.seconds := by
    rw [hd, daysOf_dateOf]
    omega
  rw [read_of_parts hlong hparts (by decide), hseconds]

end CodeCausality
