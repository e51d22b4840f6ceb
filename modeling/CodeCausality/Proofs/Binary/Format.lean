import Mathlib
import CodeCausality.Binary.Format
import CodeCausality.Proofs.Sorted
import CodeCausality.Proofs.Text.ByteOrder

/-!
# Formats that read what they write

A binary format has no marks between its parts, so all depends on each part being read to its last
byte and not beyond. This file fixes what that means (`ReadsBack`) and for which values it can hold:
a length is written in 64 bits, so what has more bytes than 64 bits count (`Fits`) is not read back.

* `Cut` -- the front of some bytes, short of their end; `Cut.of_append` says where a cut falls;
* `Faithful` -- **whatever fits is read back, with any bytes after it, and refused if it is cut**;
* `faithful_word64`, `faithful_float`, `faithful_bool`, `faithful_text`, `faithful_oneOf` -- the
  formats of single values are faithful;
* `Faithful.pair`, `Faithful.option`, `Faithful.list`, `Faithful.convert`, `Faithful.dictionary` --
  and so are the combinations of faithful formats.
-/

namespace CodeCausality

namespace Binary

/-! ## 1. Cuts -/

/-- The front of the bytes, with at least one byte missing. -/
def Cut (cut bytes : Bytes) : Prop := ∃ b rest, cut ++ b :: rest = bytes

theorem cut_iff {cut bytes : Bytes} : Cut cut bytes ↔ cut <+: bytes ∧ cut ≠ bytes := by
  constructor
  · rintro ⟨b, rest, rfl⟩
    exact ⟨List.prefix_append _ _, fun h => by simp at h⟩
  · rintro ⟨⟨rest, rfl⟩, hne⟩
    cases rest with
    | nil => exact absurd (List.append_nil cut).symm hne
    | cons b rest => exact ⟨b, rest, rfl⟩

theorem not_cut_nil {cut : Bytes} : ¬ Cut cut [] := fun ⟨_, _, h⟩ => by simp at h

theorem Cut.length_lt {cut bytes : Bytes} (h : Cut cut bytes) : cut.length < bytes.length := by
  obtain ⟨b, rest, rfl⟩ := h
  simp

/-- **Two parts are cut in the first or in the second.** -/
theorem Cut.of_append {cut u v : Bytes} (h : Cut cut (u ++ v)) :
    Cut cut u ∨ ∃ c, cut = u ++ c ∧ Cut c v := by
  obtain ⟨b, rest, h⟩ := h
  rcases List.append_eq_append_iff.mp h with ⟨as, rfl, has⟩ | ⟨bs, rfl, rfl⟩
  · cases as with
    | nil => exact .inr ⟨[], by simp, b, rest, by simpa using has⟩
    | cons a as => exact .inl ⟨a, as, rfl⟩
  · exact .inr ⟨bs, rfl, b, rest, rfl⟩

/-! ## 2. Taking bytes -/

theorem take_append {n : Nat} {front : Bytes} (h : front.length = n) (rest : Bytes) :
    take n (front ++ rest) = .ok (front, rest) := by
  rw [take, List.take_left' h, List.drop_left' h]
  exact if_pos h

theorem take_of_short {n : Nat} {bs : Bytes} (h : bs.length < n) :
    take n bs = .error .truncated := by
  refine if_neg ?_
  rw [List.length_take]
  omega

/-- A number below the bound of its width is read back. -/
theorem takeNat_bytesOf {width n : Nat} (h : n < Nat.pow 256 width) (rest : Bytes) :
    takeNat width (bytesOf width n ++ rest) = .ok (n, rest) := by
  rw [takeNat, take_append (length_bytesOf width n)]
  show Except.ok (valueOf (bytesOf width n), rest) = _
  rw [valueOf_bytesOf, Nat.mod_eq_of_lt h]

theorem takeNat_of_cut {width n : Nat} {cut : Bytes} (h : Cut cut (bytesOf width n)) :
    takeNat width cut = .error .truncated := by
  have hshort : cut.length < width := length_bytesOf width n ▸ h.length_lt
  rw [takeNat, take_of_short hshort]

namespace Format

variable {β γ : Type}

/-! ## 3. What a format must keep -/

/-- The value has no more bytes than 64 bits count. -/
def Fits (f : Format β) (b : β) : Prop := (f.write b).length < UInt64.size

theorem Fits.parts {f : Format β} {b : β} {front back : Bytes} (h : f.Fits b)
    (hwrite : f.write b = front ++ back) :
    front.length < UInt64.size ∧ back.length < UInt64.size := by
  rw [Fits, hwrite, List.length_append] at h
  omega

/-- What is written of the value is read as the value, whatever follows; it is refused if it is cut;
and it is written of no other value. -/
structure ReadsBack (f : Format β) (b : β) : Prop where
  whole : ∀ rest, f.read (f.write b ++ rest) = .ok (b, rest)
  cut : ∀ cut, cut <+: f.write b → cut ≠ f.write b → f.read cut = .error .truncated
  only : ∀ c, f.write c = f.write b → c = b

/-- All that fits is read back; no value has no bytes. -/
structure Faithful (f : Format β) : Prop where
  write_ne_nil : ∀ b, f.write b ≠ []
  read_write : ∀ b, f.Fits b → ∀ rest, f.read (f.write b ++ rest) = .ok (b, rest)
  read_cut : ∀ b, f.Fits b → ∀ cut, Cut cut (f.write b) → f.read cut = .error .truncated

/-- **In a faithful format all that fits is read back.** -/
theorem Faithful.readsBack {f : Format β} (h : f.Faithful) {b : β} (hb : f.Fits b) :
    f.ReadsBack b where
  whole := h.read_write b hb
  cut cut hfront hne := h.read_cut b hb cut (cut_iff.mpr ⟨hfront, hne⟩)
  only c hc := by
    have hfits : f.Fits c := by rwa [Fits, hc]
    have hread := h.read_write c hfits []
    rw [hc, h.read_write b hb []] at hread
    exact (Prod.mk.inj (Except.ok.inj hread)).1.symm

theorem Faithful.length_pos {f : Format β} (h : f.Faithful) (b : β) : 0 < (f.write b).length :=
  List.length_pos_iff.mpr (h.write_ne_nil b)

/-! ## 4. Words and alternatives -/

/-- A format that writes each value as a number of a fixed width is faithful if reading undoes
this. -/
theorem faithful_of_number {f : Format β} (width : Nat) (number : β → Nat) (hwidth : 0 < width)
    (hwrite : ∀ b, f.write b = bytesOf width (number b))
    (hbound : ∀ b, number b < Nat.pow 256 width)
    (hread : ∀ bs b rest, takeNat width bs = .ok (number b, rest) → f.read bs = .ok (b, rest))
    (hcut : ∀ bs, takeNat width bs = .error .truncated → f.read bs = .error .truncated) :
    f.Faithful where
  write_ne_nil b := by
    have hlength := length_bytesOf width (number b)
    rw [hwrite]
    exact List.ne_nil_of_length_pos (hlength.symm ▸ hwidth)
  read_write b _ rest := by
    rw [hwrite]
    exact hread _ _ _ (takeNat_bytesOf (hbound b) rest)
  read_cut b _ cut h := by
    rw [hwrite] at h
    exact hcut _ (takeNat_of_cut h)

theorem faithful_word64 : word64.Faithful :=
  faithful_of_number 8 UInt64.toNat (by decide) (fun _ => rfl) (fun n => n.toNat_lt)
    (fun bs n rest h => by simp only [word64, h, Except.map, UInt64.ofNat_toNat])
    (fun bs h => by simp only [word64, h, Except.map])

/-- A float is its bits. -/
theorem faithful_float : float.Faithful :=
  faithful_of_number 8 (fun x => x.toBits.toNat) (by decide) (fun _ => rfl)
    (fun x => x.toBits.toNat_lt)
    (fun bs x rest h => by
      simp only [float, h, Except.map, UInt64.ofNat_toNat, Float.ofBits_toBits])
    (fun bs h => by simp only [float, h, Except.map])

theorem faithful_bool : bool.Faithful :=
  faithful_of_number 1 (fun b => if b then 1 else 0) (by decide)
    (fun b => by cases b <;> rfl) (fun b => by cases b <;> decide)
    (fun bs b rest h => by cases b <;> simp_all [bool])
    (fun bs h => by simp only [bool, h])

/-- Alternatives are told apart by their positions, if all of them are listed. -/
theorem faithful_oneOf [BEq β] [LawfulBEq β] {all : List β} (hall : ∀ b, b ∈ all)
    (hbound : all.length ≤ Nat.pow 256 4) : (oneOf all).Faithful :=
  faithful_of_number 4 (fun b => all.idxOf b) (by decide) (fun _ => rfl)
    (fun b => lt_of_lt_of_le (List.idxOf_lt_length_of_mem (hall b)) hbound)
    (fun bs b rest h => by
      have hfound : all[all.idxOf b]? = some b := by
        rw [List.getElem?_eq_getElem (List.idxOf_lt_length_of_mem (hall b)), List.getElem_idxOf]
      simp only [oneOf, h, hfound])
    (fun bs h => by simp only [oneOf, h])

/-! ## 5. Texts -/

/-- The bytes from the `i`-th on are listed after those that are taken. -/
theorem loop_eq (b : ByteArray) (i : Nat) (taken : Bytes) :
    ByteArray.toList.loop b i taken = taken.reverse ++ b.data.toList.drop i := by
  induction i, taken using ByteArray.toList.loop.induct b with
  | case1 i taken hmore ih =>
    have hi : i < b.data.toList.length := hmore
    have hbyte : b.get! i = b.data.toList[i] := getElem!_pos b.data i hi
    rw [ByteArray.toList.loop, if_pos hmore, ih, List.drop_eq_getElem_cons hi, hbyte,
      List.reverse_cons, List.append_assoc]
    rfl
  | case2 i taken hend =>
    have hlength : b.data.toList.length ≤ i := Nat.le_of_not_lt hend
    rw [ByteArray.toList.loop, if_neg hend, List.drop_of_length_le hlength, List.append_nil]

/-- The bytes of a text. -/
theorem toList_toByteArray (s : String) : s.toByteArray.toList = utf8 s :=
  loop_eq s.toByteArray 0 []

theorem length_utf8 (s : String) : (utf8 s).length = s.utf8ByteSize := String.size_toByteArray

/-- The bytes of a text are read as the text. -/
theorem fromUTF8?_utf8 (s : String) : String.fromUTF8? (utf8 s).toByteArray = some s := by
  have hbytes : (utf8 s).toByteArray = s.toByteArray :=
    ByteArray.ext (Array.toList_inj.mp List.toList_data_toByteArray)
  rw [hbytes, String.fromUTF8?, dif_pos s.isValidUTF8]
  rfl

/-- The length of a text that fits is read back. -/
theorem size_lt_of_fits {s : String} (hs : text.Fits s) : s.utf8ByteSize < Nat.pow 256 8 := by
  have hbytes := (hs.parts rfl).2
  rwa [toList_toByteArray, length_utf8] at hbytes

theorem faithful_text : text.Faithful where
  write_ne_nil s := List.append_ne_nil_of_left_ne_nil (List.cons_ne_nil _ _) _
  read_write s hs rest := by
    simp only [text, length, toList_toByteArray, List.append_assoc,
      takeNat_bytesOf (size_lt_of_fits hs), take_append (length_utf8 s), fromUTF8?_utf8]
  read_cut s hs cut hcut := by
    rcases Cut.of_append hcut with hfront | ⟨c, rfl, hback⟩
    · simp only [text, length, takeNat_of_cut hfront]
    · rw [toList_toByteArray] at hback
      have hshort : c.length < s.utf8ByteSize := length_utf8 s ▸ hback.length_lt
      simp only [text, length, takeNat_bytesOf (size_lt_of_fits hs), take_of_short hshort]

/-! ## 6. Combinations -/

theorem Faithful.pair {f : Format β} {g : Format γ} (hf : f.Faithful) (hg : g.Faithful) :
    (f.pair g).Faithful where
  write_ne_nil p h := hf.write_ne_nil p.1 (List.append_eq_nil_iff.mp h).1
  read_write p hp rest := by
    obtain ⟨hfst, hsnd⟩ := hp.parts rfl
    simp only [Format.pair, List.append_assoc, hf.read_write _ hfst, hg.read_write _ hsnd,
      Except.map]
  read_cut p hp cut hcut := by
    obtain ⟨hfst, hsnd⟩ := hp.parts rfl
    rcases Cut.of_append hcut with hfront | ⟨c, rfl, hback⟩
    · simp only [Format.pair, hf.read_cut _ hfst _ hfront]
    · simp only [Format.pair, hf.read_write _ hfst, hg.read_cut _ hsnd _ hback, Except.map]

theorem Faithful.option {f : Format β} (hf : f.Faithful) : f.option.Faithful where
  write_ne_nil o := by cases o <;> exact List.cons_ne_nil _ _
  read_write o ho rest := by
    cases o with
    | none => rfl
    | some b =>
      have htag : takeNat 1 (1 :: (f.write b ++ rest)) = .ok (1, f.write b ++ rest) :=
        takeNat_bytesOf (n := 1) (by decide) _
      have hwrite : f.option.write (some b) = [1] ++ f.write b := rfl
      have hb : f.Fits b := (ho.parts hwrite).2
      simp only [Format.option, List.cons_append, htag, hf.read_write b hb, Except.map]
  read_cut o ho cut hcut := by
    cases o with
    | none =>
      have htag : takeNat 1 cut = .error .truncated := takeNat_of_cut (n := 0) hcut
      simp only [Format.option, htag]
    | some b =>
      have hwrite : f.option.write (some b) = [1] ++ f.write b := rfl
      have hb : f.Fits b := (ho.parts hwrite).2
      rcases Cut.of_append (u := [1]) hcut with hfront | ⟨c, rfl, hback⟩
      · have htag : takeNat 1 cut = .error .truncated := takeNat_of_cut (n := 1) hfront
        simp only [Format.option, htag]
      · have htag : takeNat 1 ([1] ++ c) = .ok (1, c) := takeNat_bytesOf (n := 1) (by decide) c
        simp only [Format.option, htag, hf.read_cut b hb c hback, Except.map]

/-- The members of a list are read back one after another. -/
theorem Faithful.readMany_write {f : Format β} (hf : f.Faithful) {bs : List β}
    (h : (bs.flatMap f.write).length < UInt64.size) (rest : Bytes) :
    readMany f.read bs.length (bs.flatMap f.write ++ rest) = .ok (bs, rest) := by
  induction bs with
  | nil => rfl
  | cons b bs ih =>
    rw [List.flatMap_cons, List.length_append] at h
    have hb : f.Fits b := Nat.lt_of_le_of_lt (Nat.le_add_right _ _) h
    simp only [List.length_cons, readMany, List.flatMap_cons, List.append_assoc,
      hf.read_write b hb, ih (Nat.lt_of_le_of_lt (Nat.le_add_left _ _) h), Except.map]

/-- Where the members of a list are cut, one of them is. -/
theorem Faithful.readMany_cut {f : Format β} (hf : f.Faithful) {bs : List β}
    (h : (bs.flatMap f.write).length < UInt64.size) {cut : Bytes}
    (hcut : Cut cut (bs.flatMap f.write)) :
    readMany f.read bs.length cut = .error .truncated := by
  induction bs generalizing cut with
  | nil => exact absurd hcut not_cut_nil
  | cons b bs ih =>
    rw [List.flatMap_cons, List.length_append] at h
    have hb : f.Fits b := Nat.lt_of_le_of_lt (Nat.le_add_right _ _) h
    rw [List.flatMap_cons] at hcut
    rcases Cut.of_append hcut with hfront | ⟨c, rfl, hback⟩
    · simp only [List.length_cons, readMany, hf.read_cut b hb _ hfront]
    · simp only [List.length_cons, readMany, hf.read_write b hb,
        ih (Nat.lt_of_le_of_lt (Nat.le_add_left _ _) h) hback, Except.map]

/-- A list has no more members than bytes. -/
theorem Faithful.length_le {f : Format β} (hf : f.Faithful) (bs : List β) :
    bs.length ≤ (bs.flatMap f.write).length := by
  induction bs with
  | nil => exact Nat.le_refl 0
  | cons b bs ih =>
    have hb := hf.length_pos b
    rw [List.flatMap_cons, List.length_append, List.length_cons]
    omega

theorem Faithful.list {f : Format β} (hf : f.Faithful) : f.list.Faithful where
  write_ne_nil bs := List.append_ne_nil_of_left_ne_nil (List.cons_ne_nil _ _) _
  read_write bs hbs rest := by
    have hmembers := (hbs.parts rfl).2
    have hcount : bs.length < Nat.pow 256 8 := Nat.lt_of_le_of_lt (hf.length_le bs) hmembers
    simp only [Format.list, length, List.append_assoc, takeNat_bytesOf hcount,
      hf.readMany_write hmembers]
  read_cut bs hbs cut hcut := by
    have hmembers := (hbs.parts rfl).2
    have hcount : bs.length < Nat.pow 256 8 := Nat.lt_of_le_of_lt (hf.length_le bs) hmembers
    rcases Cut.of_append hcut with hfront | ⟨c, rfl, hback⟩
    · simp only [Format.list, length, takeNat_of_cut hfront]
    · simp only [Format.list, length, takeNat_bytesOf hcount, hf.readMany_cut hmembers hback]

/-- What is read as another type must be what was written of it. -/
theorem Faithful.convert {f : Format β} (hf : f.Faithful) {there : β → γ} {back : γ → β}
    (hback : ∀ c, there (back c) = c) : (f.convert there back).Faithful where
  write_ne_nil c := hf.write_ne_nil (back c)
  read_write c hc rest := by
    simp only [Format.convert, hf.read_write _ hc, Except.map, hback]
  read_cut c hc cut hcut := by
    simp only [Format.convert, hf.read_cut _ hc cut hcut, Except.map]

/-- The entries of a dictionary are written in the order of their keys, so they make the same
dictionary again. -/
theorem Faithful.dictionary {f : Format β} (hf : f.Faithful) : f.dictionary.Faithful :=
  (faithful_text.pair hf).list.convert Dictionary.ofList_entries

end Format

end Binary

end CodeCausality
