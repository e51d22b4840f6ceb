/-!
# Dictionaries and sets of ids

What answers show sorted is kept sorted. This file fixes

* `Entries`, pairs in the order of their first members, whatever these are;
* `Dictionary β`, entries in strictly increasing order of their keys: one entry a key, and two
  dictionaries with the same entries are equal;
* `sortedIds`, the distinct members of a list of ids in increasing order.

The order of texts is that of their code points, which is also the order of their bytes in UTF-8.
-/

namespace CodeCausality

/-! ## 1. Entries by key -/

namespace Entries

variable {κ β : Type} [LT κ]

/-- Entries stand in strictly increasing order of their keys. -/
def Increasing (es : List (κ × β)) : Prop := es.Pairwise fun a b => a.1 < b.1

theorem increasing_filter {p : κ × β → Bool} {es : List (κ × β)} (h : Increasing es) :
    Increasing (es.filter p) :=
  List.Pairwise.filter p h

variable [DecidableLT κ] [DecidableEq κ]

/-- Puts an entry at its place; an entry of the same key is replaced. -/
def place (k : κ) (v : β) : List (κ × β) → List (κ × β)
  | [] => [(k, v)]
  | e :: rest =>
    if k < e.1 then (k, v) :: e :: rest
    else if k = e.1 then (k, v) :: rest
    else e :: place k v rest

def find? (k : κ) : List (κ × β) → Option β
  | [] => none
  | e :: rest => if e.1 = k then some e.2 else find? k rest

theorem mem_place {k : κ} {v : β} {e : κ × β} :
    ∀ {es : List (κ × β)}, e ∈ place k v es → e = (k, v) ∨ e ∈ es
  | [], h => by simpa [place] using h
  | d :: rest, h => by
    unfold place at h
    split at h
    · simpa using h
    · split at h
      · rcases List.mem_cons.1 h with h | h
        · exact .inl h
        · exact .inr (List.mem_cons_of_mem _ h)
      · rcases List.mem_cons.1 h with h | h
        · exact .inr (h ▸ List.mem_cons_self)
        · exact (mem_place h).imp id (List.mem_cons_of_mem _)

theorem increasing_place [LE κ] [Std.IsLinearOrder κ] [Std.LawfulOrderLT κ] {k : κ} {v : β} :
    ∀ {es : List (κ × β)}, Increasing es → Increasing (place k v es)
  | [], _ => by simp [place, Increasing]
  | d :: rest, h => by
    have ⟨hd, hrest⟩ := List.pairwise_cons.1 h
    unfold place
    split
    · rename_i hk
      refine List.pairwise_cons.2 ⟨fun e he => ?_, h⟩
      rcases List.mem_cons.1 he with rfl | he
      · exact hk
      · exact Std.lt_trans hk (hd e he)
    · split
      · rename_i hk
        exact List.pairwise_cons.2 ⟨fun e he => hk ▸ hd e he, hrest⟩
      · rename_i hlt hne
        refine List.pairwise_cons.2 ⟨fun e he => ?_, increasing_place hrest⟩
        rcases mem_place he with rfl | he
        · exact ((Std.lt_trichotomy k d.1).resolve_left hlt).resolve_left hne
        · exact hd e he

theorem find?_place (k : κ) (v : β) (j : κ) :
    ∀ es : List (κ × β), find? j (place k v es) = if k = j then some v else find? j es
  | [] => by simp [place, find?]
  | e :: rest => by
    unfold place
    split
    · rfl
    · split
      · rename_i hk
        subst hk
        simp only [find?]
        split <;> rfl
      · rename_i hne
        simp only [find?]
        rw [find?_place k v j rest]
        by_cases hj : k = j
        · subst hj
          simp [Ne.symm hne]
        · simp [hj]

end Entries

/-! ## 2. Dictionaries -/

/-- Values by key, one a key, listed in the order of the keys. -/
structure Dictionary (β : Type) where
  entries : List (String × β)
  increasing : Entries.Increasing entries

namespace Dictionary

variable {β : Type}

@[ext] theorem ext {d e : Dictionary β} (h : d.entries = e.entries) : d = e := by
  cases d
  cases e
  cases h
  rfl

def empty : Dictionary β := ⟨[], List.Pairwise.nil⟩

instance : Inhabited (Dictionary β) := ⟨empty⟩

instance [DecidableEq β] : DecidableEq (Dictionary β) := fun d e =>
  if h : d.entries = e.entries then isTrue (ext h) else isFalse fun he => h (he ▸ rfl)

/-- The dictionary with `v` at `k`, whatever stood there. -/
def insert (d : Dictionary β) (k : String) (v : β) : Dictionary β :=
  ⟨Entries.place k v d.entries, Entries.increasing_place d.increasing⟩

def get? (d : Dictionary β) (k : String) : Option β := Entries.find? k d.entries

def contains (d : Dictionary β) (k : String) : Bool := (d.get? k).isSome

/-- The dictionary without the key. -/
def erase (d : Dictionary β) (k : String) : Dictionary β :=
  ⟨d.entries.filter fun e => e.1 != k, Entries.increasing_filter d.increasing⟩

def keys (d : Dictionary β) : List String := d.entries.map (·.1)

def values (d : Dictionary β) : List β := d.entries.map (·.2)

def isEmpty (d : Dictionary β) : Bool := d.entries.isEmpty

def size (d : Dictionary β) : Nat := d.entries.length

/-- The entries of a list; of two with the same key the later stands. -/
def ofList (es : List (String × β)) : Dictionary β := es.foldl (fun d e => d.insert e.1 e.2) empty

/-- The same keys with each value sent through `f`. -/
def map {γ : Type} (f : String → β → γ) (d : Dictionary β) : Dictionary γ :=
  ⟨d.entries.map fun e => (e.1, f e.1 e.2), by
    unfold Entries.Increasing
    exact List.pairwise_map.2 d.increasing⟩

@[simp] theorem get?_empty (k : String) : (empty : Dictionary β).get? k = none := rfl

@[simp] theorem get?_insert (d : Dictionary β) (k : String) (v : β) (j : String) :
    (d.insert k v).get? j = if k = j then some v else d.get? j :=
  Entries.find?_place k v j d.entries

/-- What is found after a value was inserted is this value, or was found before. -/
theorem eq_or_of_get?_insert {d : Dictionary β} {k : String} {v : β} {j : String} {u : β}
    (h : (d.insert k v).get? j = some u) : u = v ∨ d.get? j = some u := by
  rw [get?_insert] at h
  split at h
  · exact .inl (Option.some.inj h).symm
  · exact .inr h

end Dictionary

/-! ## 3. Sorted ids -/

/-- The list in increasing order. -/
def sortIds (ids : List String) : List String := ids.mergeSort fun a b => decide (a ≤ b)

/-- Drops each member that equals its predecessor. -/
def dropRepeats {κ : Type} [DecidableEq κ] : List κ → List κ
  | [] => []
  | [a] => [a]
  | a :: b :: rest => if a = b then dropRepeats (b :: rest) else a :: dropRepeats (b :: rest)

/-- The distinct members of a list in increasing order. -/
def sortedIds (ids : List String) : List String := dropRepeats (sortIds ids)

/-- The distinct members in the order of their first occurrence. -/
def distinct (ids : List String) : List String :=
  ids.foldl (fun seen a => if seen.contains a then seen else seen ++ [a]) []

end CodeCausality
