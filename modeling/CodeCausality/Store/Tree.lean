import CodeCausality.Binary.Format

/-!
# Trees of bytes

A durable map from bytes to bytes, listed in the order of its keys byte by byte. This is all that a
store on a disk relies on.
-/

namespace CodeCausality

open Binary (Bytes)

structure ByteTree where
  entries : List (Bytes × Bytes)
  increasing : Entries.Increasing entries

namespace ByteTree

def empty : ByteTree := ⟨[], List.Pairwise.nil⟩

def insert (t : ByteTree) (key value : Bytes) : ByteTree :=
  ⟨Entries.place key value t.entries, Entries.increasing_place t.increasing⟩

def get? (t : ByteTree) (key : Bytes) : Option Bytes := Entries.find? key t.entries

def erase (t : ByteTree) (key : Bytes) : ByteTree :=
  ⟨t.entries.filter fun e => e.1 != key, Entries.increasing_filter t.increasing⟩

def keys (t : ByteTree) : List Bytes := t.entries.map (·.1)

@[simp] theorem get?_empty (key : Bytes) : empty.get? key = none := rfl

@[simp] theorem get?_insert (t : ByteTree) (key value other : Bytes) :
    (t.insert key value).get? other = if key = other then some value else t.get? other :=
  Entries.find?_place key value other t.entries

end ByteTree

end CodeCausality
