import CodeCausality.Store.Basic

/-!
# Access to a store

A server can be given any store that keeps records by name. Either step may fail, and `StoreError`
says why; its text is that of a library, with what that says about the causes.
-/

namespace CodeCausality

/-- An error of a library: its text, and the texts of what it says it was caused by. -/
structure Cause where
  text : String
  causes : List String
  deriving Repr, DecidableEq

/-- Why a record could not be put into a store or be read from it. -/
inductive StoreError where
  | backend (cause : Cause)
  | encoding (cause : Cause)
  deriving Repr, DecidableEq

/-- The error of a library under a title; it is itself the first cause of what the title says. -/
def Cause.under (title : String) (c : Cause) : String :=
  ": ".intercalate ((title ++ ": " ++ c.text) :: c.text :: c.causes)

def StoreError.message : StoreError → String
  | backend cause => cause.under "storage backend error"
  | encoding cause => cause.under "record encoding error"

/-- A store as a server sees it. -/
class RecordStore (σ : Type) where
  /-- Keeps a record under a name. -/
  put : σ → String → Record Float → Except StoreError Unit × σ
  /-- The record under a name, if there is one. -/
  get : σ → String → Except StoreError (Option (Record Float))

instance MemoryStore.access : RecordStore MemoryStore where
  put s name r := (.ok (), s.put name r)
  get s name := .ok (s.get? name)

/-- What the library that reads the bytes of records says of bytes that are none. -/
class FaultTexts where
  cause : Binary.Fault → Cause

instance DiskStore.access [FaultTexts] : RecordStore DiskStore where
  put s name r := (.ok (), s.put name r)
  get s name := (s.get name).mapError fun fault => .encoding (FaultTexts.cause fault)

end CodeCausality
