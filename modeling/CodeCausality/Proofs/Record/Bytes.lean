import CodeCausality.Record.Binary
import CodeCausality.Proofs.Binary.Format

/-!
# Records are read back from their bytes

The format of records is put together of formats that read back what they write, whatever the
format of the numbers is, if it does so too. The numbers of a model are written as their 64 bits; of
a NaN these are more than its being a NaN, so the statement is made of records of bits as well.

* `faithful_elementFormat`, `faithful_edgeFormat`, `faithful_mechanismFormat`,
  `faithful_metadataFormat`, `faithful_format` -- the parts and the whole;
* `records_read_back_from_bytes` -- **a record is read from its bytes, whatever follows them; cut
  bytes are no record; no other record has the same bytes**.
-/

namespace CodeCausality

namespace Record

open Binary Binary.Format

/-! ## 1. The parts of a record -/

theorem mem_all_elementKinds (k : ElementKind) : k ∈ ElementKind.all := by
  cases k <;> decide

theorem mem_all_edgeKinds (k : EdgeKind) : k ∈ EdgeKind.all := by
  cases k <;> decide

theorem faithful_elementFormat : elementFormat.Faithful :=
  (faithful_text.pair ((faithful_oneOf mem_all_elementKinds (by decide)).pair
    faithful_text.dictionary)).convert fun _ => rfl

section Numbers

variable {α : Type} {number : Format α}

theorem faithful_edgeFormat (h : number.Faithful) : (edgeFormat number).Faithful :=
  (faithful_text.pair (faithful_text.pair
    ((faithful_oneOf mem_all_edgeKinds (by decide)).pair h.option))).convert fun _ => rfl

theorem faithful_mechanismFormat (h : number.Faithful) : (mechanismFormat number).Faithful :=
  (faithful_text.pair (faithful_text.pair (faithful_text.list.pair
    (faithful_text.list.pair h.list.dictionary)))).convert fun _ => rfl

theorem faithful_metadataFormat (h : number.Faithful) : (metadataFormat number).Faithful :=
  (faithful_text.pair (faithful_word64.pair (h.pair (faithful_bool.pair
    (faithful_text.dictionary.pair (h.dictionary.pair faithful_word64)))))).convert fun _ => rfl

/-! ## 2. The whole -/

theorem faithful_format (h : number.Faithful) : (format number).Faithful :=
  (faithful_elementFormat.list.pair ((faithful_edgeFormat h).list.pair
    ((faithful_mechanismFormat h).dictionary.pair (faithful_metadataFormat h)))).convert
    fun _ => rfl

end Numbers

/-- A record is read from the front of bytes that start with it. -/
theorem ofBytes_toBytes_append {r : Record Float} (hr : (format float).Fits r) (after : Bytes) :
    ofBytes (r.toBytes ++ after) = .ok r := by
  rw [ofBytes, toBytes, ((faithful_format faithful_float).readsBack hr).whole]
  rfl

theorem ofBytes_toBytes {r : Record Float} (hr : (format float).Fits r) :
    ofBytes r.toBytes = .ok r := by
  have h := ofBytes_toBytes_append hr []
  rwa [List.append_nil] at h

theorem ofBytes_cut {r : Record Float} (hr : (format float).Fits r) {cut : Bytes}
    (hfront : cut <+: r.toBytes) (hne : cut ≠ r.toBytes) : ofBytes cut = .error .truncated := by
  rw [ofBytes, ((faithful_format faithful_float).readsBack hr).cut cut hfront hne]
  rfl

/-- **A record is read from its bytes, whatever follows them; bytes that are cut are no record, and
no other record has the same bytes.** This holds of records whose numbers are given by their bits,
and of records of floats. A record must have less than 2^64 bytes, as all has that is kept in a
memory of 64-bit addresses. -/
theorem records_read_back_from_bytes :
    (∀ r : Record UInt64, (format word64).Fits r → (format word64).ReadsBack r) ∧
    ∀ r : Record Float, (format float).Fits r →
      (∀ after, ofBytes (r.toBytes ++ after) = .ok r) ∧
      (∀ cut, cut <+: r.toBytes → cut ≠ r.toBytes → ofBytes cut = .error .truncated) ∧
      ∀ s : Record Float, s.toBytes = r.toBytes → s = r :=
  ⟨fun _ => (faithful_format faithful_word64).readsBack,
    fun _ hr => ⟨ofBytes_toBytes_append hr, fun _ => ofBytes_cut hr,
      ((faithful_format faithful_float).readsBack hr).only⟩⟩

/-- A record with numbers of all kinds, built of the given ones. -/
def withNumbers {α : Type} (x y : α) : Record α where
  nodes := [⟨"a", .namedValue, .empty⟩, ⟨"b", .returnSite, Dictionary.ofList [("é", "")]⟩]
  edges := [⟨"a", "b", .dataFlow, some x⟩, ⟨"b", "a", .call, none⟩]
  mechanisms := Dictionary.ofList
    [("a", ⟨"marginal_empirical", "categorical", [], ["l"], Dictionary.ofList [("values", [x, y])]⟩)]
  metadata := ⟨"2024", 4, y, true, .empty, Dictionary.ofList [("b", x)], 18446744073709551615⟩

theorem fits_withNumbers :
    (format word64).Fits (withNumbers 0x7ff8000000000abc 0x8000000000000000) ∧
      (format float).Fits (withNumbers (0 / 0) (-0.0)) := by
  simp only [Fits, format, elementFormat, edgeFormat, mechanismFormat, metadataFormat, text,
    toList_toByteArray]
  decide +kernel

/-- The bits of a NaN with a payload come back, and so does the negative zero. -/
theorem payload_and_sign_read_back :
    (format word64).ReadsBack (withNumbers 0x7ff8000000000abc 0x8000000000000000) ∧
      ofBytes ((withNumbers (0 / 0) (-0.0)).toBytes ++ [7]) = .ok (withNumbers (0 / 0) (-0.0)) :=
  ⟨records_read_back_from_bytes.1 _ fits_withNumbers.1,
    (records_read_back_from_bytes.2 _ fits_withNumbers.2).1 [7]⟩

end Record

end CodeCausality
