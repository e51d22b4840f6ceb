import CodeCausality.Proofs.Store.Answers
import CodeCausality.Store.Access

/-!
# What a server relies on

A server relies on a store to keep what is put there, and to keep it apart from what it has under
other names; a step that fails leaves the store as it was. Both stores do so:

* `RecordStore.Lawful` -- the laws;
* `MemoryStore.lawful`, `DiskStore.lawful` -- a store in memory and one on a disk keep them.
-/

namespace CodeCausality

open Binary.Format (Fits float)

/-- The laws of a store. Only a record of fewer than 2^64 bytes has to be found again. -/
class RecordStore.Lawful (σ : Type) [RecordStore σ] : Prop where
  put_error : ∀ {t : σ} {name : String} {r : Record Float} {e : StoreError},
    (put t name r).1 = .error e → (put t name r).2 = t
  get_put : ∀ {t : σ} {name : String} {r : Record Float}, (put t name r).1 = .ok () →
    Fits (Record.format float) r → get (put t name r).2 name = .ok (some r)
  get_put_of_ne : ∀ {t : σ} {name : String} {r : Record Float} {other : String},
    (put t name r).1 = .ok () → other ≠ name → get (put t name r).2 other = get t other

instance MemoryStore.lawful : RecordStore.Lawful MemoryStore where
  put_error h := nomatch h
  get_put {t name r} _ _ := by
    show Except.ok ((t.records.insert name r).get? name) = _
    rw [Dictionary.get?_insert, if_pos rfl]
  get_put_of_ne {t name r other} _ hne := by
    show Except.ok ((t.records.insert name r).get? other) = _
    rw [Dictionary.get?_insert, if_neg (Ne.symm hne)]
    rfl

namespace DiskStore

theorem get_put (s : DiskStore) (name : String) {r : Record Float}
    (hr : Fits (Record.format float) r) : (s.put name r).get name = .ok (some r) := by
  have hbytes : (s.put name r).tree.get? (key name) = some r.toBytes := by
    show Entries.find? (key name) (Entries.place (key name) r.toBytes s.tree.entries) = _
    rw [Entries.find?_place, if_pos rfl]
  rw [get, hbytes]
  dsimp only
  rw [Record.ofBytes_toBytes hr]
  rfl

theorem get_put_of_ne (s : DiskStore) {name other : String} (hne : other ≠ name)
    (r : Record Float) : (s.put name r).get other = s.get other := by
  have hbytes : (s.put name r).tree.get? (key other) = s.tree.get? (key other) := by
    show Entries.find? (key other) (Entries.place (key name) r.toBytes s.tree.entries) = _
    rw [Entries.find?_place, if_neg fun h => hne (key_injective h).symm]
    rfl
  rw [get, get, hbytes]

instance lawful [FaultTexts] : RecordStore.Lawful DiskStore where
  put_error h := nomatch h
  get_put {t name r} _ hr := by
    show ((t.put name r).get name).mapError _ = _
    rw [get_put t name hr]
    rfl
  get_put_of_ne {t name r other} _ hne := by
    show ((t.put name r).get other).mapError _ = (t.get other).mapError _
    rw [get_put_of_ne t hne]

end DiskStore

end CodeCausality
