import Mathlib.Data.String.Basic

/-!
# Texts compare as their bytes

The order of texts is that of their code points. This file fixes the bytes of a text in UTF-8
(`utf8`) and shows that the order of texts is the order of these bytes:

* `encode_lt_encode` -- of two characters the smaller has the smaller bytes, whatever follows;
* `utf8_lt` -- so has the smaller of two texts;
* `utf8s_lt_utf8s` -- lists of texts compare as the lists of their bytes.
-/

namespace CodeCausality

/-- The bytes of a text in UTF-8. -/
def utf8 (s : String) : List UInt8 := s.toByteArray.data.toList

theorem utf8_eq_flatMap (s : String) : utf8 s = s.toList.flatMap String.utf8EncodeChar := by
  rw [utf8, ← String.utf8Encode_toList, List.utf8Encode, List.toList_data_toByteArray]

/-! ## 1. Characters -/

/-- The first byte decides, unless the first bytes agree. -/
theorem ofNat_cons_lt {m n : Nat} {r s : List UInt8} (hn : n < 256) (hle : m ≤ n)
    (h : m = n → r < s) : UInt8.ofNat m :: r < UInt8.ofNat n :: s := by
  rcases Nat.lt_or_eq_of_le hle with hlt | heq
  · refine List.Lex.rel ?_
    rw [UInt8.lt_iff_toNat_lt, UInt8.toNat_ofNat', UInt8.toNat_ofNat']
    omega
  · subst heq
    exact List.Lex.cons (h rfl)

/-- **Of two characters the smaller has the smaller bytes, whatever follows them.** -/
theorem encode_lt_encode {c d : Char} (h : c < d) (r s : List UInt8) :
    String.utf8EncodeChar c ++ r < String.utf8EncodeChar d ++ s := by
  have hlt : c.val.toNat < d.val.toNat := h
  have hd : d.val.toNat < 0x110000 := by
    have := d.valid
    simp only [UInt32.isValidChar, Nat.isValidChar] at this
    omega
  unfold String.utf8EncodeChar
  generalize c.val.toNat = m at hlt
  generalize d.val.toNat = n at hlt hd
  dsimp only
  -- a character is never shorter than a smaller one; bytes are compared from the first on
  split_ifs <;> try omega
  all_goals
    simp only [List.cons_append, List.nil_append]
    repeat refine ofNat_cons_lt (by omega) (by omega) fun _ => ?_
    omega

/-! ## 2. Texts -/

theorem flatMap_encode_lt {cs ds : List Char} (h : cs < ds) :
    cs.flatMap String.utf8EncodeChar < ds.flatMap String.utf8EncodeChar := by
  induction h with
  | @nil d ds =>
    rw [List.flatMap_nil, List.flatMap_cons]
    cases hb : String.utf8EncodeChar d with
    | nil => exact absurd hb String.utf8EncodeChar_ne_nil
    | cons b bs => exact List.Lex.nil
  | cons _ ih =>
    rw [List.flatMap_cons, List.flatMap_cons]
    exact List.Lex.append_left _ ih _
  | rel hcd =>
    rw [List.flatMap_cons, List.flatMap_cons]
    exact encode_lt_encode hcd _ _

theorem utf8_lt {a b : String} (h : a < b) : utf8 a < utf8 b := by
  rw [utf8_eq_flatMap, utf8_eq_flatMap]
  exact flatMap_encode_lt h

/-- A map that keeps a linear order also reflects it. -/
theorem lt_iff_lt_of_mono {κ β : Type} [LinearOrder κ] [LT β] [Std.Asymm (fun a b : β => a < b)]
    {f : κ → β} (mono : ∀ {a b}, a < b → f a < f b) {a b : κ} : f a < f b ↔ a < b := by
  refine ⟨fun h => ?_, mono⟩
  rcases lt_trichotomy a b with hab | rfl | hba
  · exact hab
  · exact absurd h (Std.Asymm.asymm _ _ h)
  · exact absurd h (Std.Asymm.asymm _ _ (mono hba))

/-- **Texts compare as their bytes.** -/
theorem map_utf8_lt {as bs : List String} (h : as < bs) : as.map utf8 < bs.map utf8 := by
  induction h with
  | nil => exact List.Lex.nil
  | cons _ ih => exact List.Lex.cons ih
  | rel hab => exact List.Lex.rel (utf8_lt hab)

/-- Lists of texts compare member by member, each as its bytes. -/
theorem utf8s_lt_utf8s {as bs : List String} : as.map utf8 < bs.map utf8 ↔ as < bs :=
  lt_iff_lt_of_mono map_utf8_lt

end CodeCausality
