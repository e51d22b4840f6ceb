import Mathlib.Data.List.Induction
import Mathlib.Data.List.TakeWhile
import CodeCausality.Proofs.Time.Timestamp
import CodeCausality.Proofs.Traversal

/-!
# Which timestamps can be written again

* `Timestamp.read_eq_ok` -- what an accepted timestamp is made of;
* `Timestamp.onClock_of_read` -- **every accepted timestamp stands for an instant that a clock
  shows**, whatever its offset and its fraction;
* `Instant.text_toMicros` -- what is finer than a microsecond is not written;
* `Timestamp.read_text_toMicros`, `Timestamp.read_text_of_long_year` -- **an accepted timestamp is
  accepted again as it is written if its year in universal time has four digits, and else it is
  not.**
-/

namespace CodeCausality

/-! ## 1. Digits -/

namespace Decimal

theorem digitsValue_concat (ds : List Char) (c : Char) :
    digitsValue (ds ++ [c]) = 10 * digitsValue ds + (c.toNat - '0'.toNat) := by
  simp [digitsValue]

theorem digitsValue_lt {ds : List Char} (h : ∀ c ∈ ds, c.isDigit = true) :
    digitsValue ds < 10 ^ ds.length := by
  induction ds using List.reverseRecOn with
  | nil => decide
  | append_singleton ds c ih =>
    have hds := ih fun d hd => h d (List.mem_append_left _ hd)
    have hc := h c (List.mem_append_right _ List.mem_cons_self)
    simp only [Char.isDigit, Bool.and_eq_true, decide_eq_true_eq, ge_iff_le, UInt32.le_iff_toNat_le]
      at hc
    have hupper : c.toNat ≤ 57 := hc.2
    have hzero : '0'.toNat = 48 := rfl
    rw [digitsValue_concat, List.length_append, List.length_singleton, Nat.pow_succ]
    omega

end Decimal

namespace Timestamp

/-! ## 2. Accepted timestamps -/

section Accepted

variable {β γ : Type} {s rest : List Char}

theorem bind_eq_ok {x : Reader β} {f : β → Reader γ} {c : γ} :
    (x >>= f) s = .ok (c, rest) ↔ ∃ b after, x s = .ok (b, after) ∧ f b after = .ok (c, rest) := by
  show (x s >>= fun p => f p.1 p.2) = .ok (c, rest) ↔ _
  rw [bind_eq_ok_iff]
  exact ⟨fun ⟨⟨b, after⟩, hx, hf⟩ => ⟨b, after, hx, hf⟩,
    fun ⟨b, after, hx, hf⟩ => ⟨(b, after), hx, hf⟩⟩

theorem bind_of_error {x : Reader β} {f : β → Reader γ} {fault : TimestampFault}
    (h : x s = .error fault) : (x >>= f) s = .error fault := by
  show (x s >>= fun p => f p.1 p.2) = .error fault
  rw [h]
  rfl

theorem fraction_lt {nanos : Nat} (h : fraction s = .ok (nanos, rest)) : nanos < 1000000000 := by
  unfold fraction at h
  split at h
  · rename_i s
    dsimp only at h
    split at h
    · cases h
    · obtain ⟨rfl, -⟩ := Prod.mk.inj (Except.ok.inj h)
      obtain ⟨kept, hkept⟩ : ∃ kept, kept = (Decimal.spanDigits s).1.take 9 := ⟨_, rfl⟩
      have hdigits : ∀ c ∈ kept, c.isDigit = true := fun c hc =>
        List.mem_takeWhile_imp (List.mem_of_mem_take (hkept ▸ hc))
      have hlength : kept.length ≤ 9 := hkept ▸ List.length_take_le 9 _
      have hvalue := Decimal.digitsValue_lt hdigits
      rw [← hkept]
      calc Decimal.digitsValue kept * Nat.pow 10 (9 - kept.length)
          < 10 ^ kept.length * 10 ^ (9 - kept.length) :=
            Nat.mul_lt_mul_of_pos_right hvalue (Nat.pow_pos (by decide))
        _ = 1000000000 := by rw [← Nat.pow_add, Nat.add_sub_cancel' hlength]
  · obtain ⟨rfl, -⟩ := Prod.mk.inj (Except.ok.inj h)
    decide

/-- The second of the day and nanoseconds that are read, which reach into another second only where
second 60 was written. -/
theorem time_onClock {ofDay nanos : Nat} (h : time s = .ok ((ofDay, nanos), rest)) :
    nanos < 2000000000 ∧ (1000000000 ≤ nanos → ofDay % 60 = 59) := by
  unfold time at h
  obtain ⟨hour, _, -, h⟩ := bind_eq_ok.mp h
  obtain ⟨_, _, -, h⟩ := bind_eq_ok.mp h
  obtain ⟨minute, _, -, h⟩ := bind_eq_ok.mp h
  obtain ⟨_, _, -, h⟩ := bind_eq_ok.mp h
  obtain ⟨second, _, -, h⟩ := bind_eq_ok.mp h
  obtain ⟨fine, _, hfine, h⟩ := bind_eq_ok.mp h
  have hlt := fraction_lt hfine
  by_cases hleap : second = 60
  · simp only [hleap, if_true] at h
    split at h
    · obtain ⟨heq, -⟩ := Prod.mk.inj (Except.ok.inj h)
      obtain ⟨rfl, rfl⟩ := Prod.mk.inj heq
      omega
    · cases h
  · simp only [hleap, if_false] at h
    split at h
    · obtain ⟨heq, -⟩ := Prod.mk.inj (Except.ok.inj h)
      obtain ⟨rfl, rfl⟩ := Prod.mk.inj heq
      omega
    · cases h

/-- Offsets are whole minutes. -/
theorem offset_minutes {seconds : Int} (h : offset s = .ok (seconds, rest)) : seconds % 60 = 0 := by
  unfold offset at h
  split at h
  · cases h
  · rename_i c s
    split at h
    · obtain ⟨rfl, -⟩ := Prod.mk.inj (Except.ok.inj h)
      rfl
    · split at h
      · obtain ⟨hours, _, -, h⟩ := bind_eq_ok.mp h
        obtain ⟨_, _, -, h⟩ := bind_eq_ok.mp h
        obtain ⟨minutes, _, -, h⟩ := bind_eq_ok.mp h
        by_cases hminutes : 60 ≤ minutes
        · rw [if_pos hminutes] at h
          obtain ⟨_, _, hfault, -⟩ := bind_eq_ok.mp h
          cases hfault
        · rw [if_neg hminutes] at h
          obtain ⟨rfl, -⟩ := Prod.mk.inj (Except.ok.inj h)
          split <;> omega
      · cases h

/-- What an accepted timestamp is made of. -/
theorem read_eq_ok {text : String} {t : Instant} (h : read text = .ok t) :
    ∃ d ofDay nanos seconds rest, parts text.toList = .ok ((d, (ofDay, nanos), seconds), rest) ∧
      t = ⟨daysOf d * 86400 + ofDay - seconds, nanos⟩ := by
  unfold read at h
  split at h
  · cases h
  · dsimp only at h
    split at h
    · cases h
    · rename_i d ofDay nanos seconds rest hparts
      split at h
      · cases h
      · split at h
        · cases h
        · exact ⟨d, ofDay, nanos, seconds, rest, hparts, (Except.ok.inj h).symm⟩

/-- **Every accepted timestamp stands for an instant that a clock shows.** -/
theorem onClock_of_read {text : String} {t : Instant} (h : read text = .ok t) : t.OnClock := by
  obtain ⟨d, ofDay, nanos, seconds, rest, hparts, rfl⟩ := read_eq_ok h
  unfold parts at hparts
  obtain ⟨_, _, -, hparts⟩ := bind_eq_ok.mp hparts
  obtain ⟨_, _, -, hparts⟩ := bind_eq_ok.mp hparts
  obtain ⟨_, _, htime, hparts⟩ := bind_eq_ok.mp hparts
  obtain ⟨_, _, hoffset, hparts⟩ := bind_eq_ok.mp hparts
  obtain ⟨hall, -⟩ := Prod.mk.inj (Except.ok.inj hparts)
  obtain ⟨-, htail⟩ := Prod.mk.inj hall
  obtain ⟨rfl, rfl⟩ := Prod.mk.inj htail
  obtain ⟨hnanos, hleap⟩ := time_onClock htime
  have hminutes := offset_minutes hoffset
  refine ⟨hnanos, fun hle => ?_⟩
  have hlast := hleap hle
  -- neither whole days nor the offset move the second within its minute
  dsimp only
  omega

end Accepted

end Timestamp

/-! ## 3. Written instants -/

namespace Instant

theorem text_toMicros (t : Instant) : t.toMicros.text = t.text := by
  have hleap : t.nanos / 1000 * 1000 / 1000000000 = t.nanos / 1000000000 := by omega
  have hmicros : t.nanos / 1000 * 1000 % 1000000000 / 1000 = t.nanos % 1000000000 / 1000 := by omega
  unfold text toMicros
  simp only [hleap, hmicros]

/-- The text of an instant, from the year on. -/
theorem exists_toList_text (t : Instant) :
    ∃ rest, t.text.toList = (yearText t.year).toList ++ rest ∧ 15 ≤ rest.length := by
  refine ⟨'-' :: ((Decimal.padded 2 (dateOf (t.seconds / 86400)).month).toList ++ '-' ::
    ((Decimal.padded 2 (dateOf (t.seconds / 86400)).day).toList ++ 'T' :: Timestamp.timeChars
      ((t.seconds % 86400).toNat / 3600) ((t.seconds % 86400).toNat / 60 % 60)
      ((t.seconds % 86400).toNat % 60 + t.nanos / 1000000000) (t.nanos % 1000000000 / 1000)
      ['Z'])), ?_, ?_⟩
  · simp [text, year, Timestamp.timeChars]
  · have htime := Timestamp.le_length_timeChars ((t.seconds % 86400).toNat / 3600)
      ((t.seconds % 86400).toNat / 60 % 60) ((t.seconds % 86400).toNat % 60 + t.nanos / 1000000000)
      (t.nanos % 1000000000 / 1000) ['Z']
    simp only [List.length_append, List.length_cons]
    omega

/-- A year that is not of four digits is written with a sign. -/
theorem exists_toList_yearText {y : Int} (h : ¬ (0 ≤ y ∧ y ≤ 9999)) :
    ∃ sign, (yearText y).toList = sign :: (Decimal.padded 4 y.natAbs).toList ∧
      sign.isDigit = false := by
  by_cases hneg : y < 0
  · exact ⟨'-', by simp [yearText, h, hneg], by decide⟩
  · exact ⟨'+', by simp [yearText, h, hneg], by decide⟩

end Instant

/-- An instant of a year of four digits is read back from its text up to microseconds. -/
theorem Timestamp.read_text_toMicros {t : Instant} (h : t.OnClock)
    (hyear : 0 ≤ t.year ∧ t.year ≤ 9999) : Timestamp.read t.text = .ok t.toMicros := by
  rw [← t.text_toMicros]
  exact read_text h.toMicros (Nat.mul_mod_left _ _) hyear

/-- **The text of an instant of any other year is no timestamp.** -/
theorem Timestamp.read_text_of_long_year {t : Instant} (h : ¬ (0 ≤ t.year ∧ t.year ≤ 9999)) :
    Timestamp.read t.text = .error .invalid := by
  obtain ⟨rest, htext, hrest⟩ := t.exists_toList_text
  obtain ⟨sign, hyear, hsign⟩ := Instant.exists_toList_yearText h
  have hfour := Decimal.le_length_padded 4 t.year.natAbs
  have hsize := length_le_utf8ByteSize t.text
  rw [htext, hyear, List.length_append, List.length_cons] at hsize
  have hbytes : ¬ (String.ofList t.text.toList).utf8ByteSize < 4 := by
    rw [String.ofList_toList]
    omega
  rw [hyear, List.cons_append] at htext
  have hdigits : digits 4 t.text.toList = .error .invalid := by
    have hnone : ¬ ((t.text.toList.take 4).length = 4 ∧
        (t.text.toList.take 4).all Char.isDigit = true) := by
      simp [htext, hsign]
    unfold digits faultAt
    rw [if_neg hnone, if_neg hbytes]
  have hparts : parts t.text.toList = .error .invalid := bind_of_error (bind_of_error hdigits)
  unfold parts at hparts
  unfold read
  rw [if_neg (by omega)]
  dsimp only
  rw [hparts]

end CodeCausality
