import CodeCausality.Dictionary

/-!
# A binary format

Values are written one after another without marks between them: words little-endian, texts and
lists after their length, an alternative by its number, a dictionary in the order of its keys. A
`Format` is a writer and a reader of one type; formats of parts combine to the format of the whole.

A reader takes what it reads from the front of the bytes and leaves the rest, so bytes after the
value do not matter, and a value that is cut short is an error.
-/

namespace CodeCausality

namespace Binary

abbrev Bytes := List UInt8

/-- Why bytes are no value. -/
inductive Fault where
  | truncated
  | invalidText
  | invalidBool
  | invalidTag
  | unknownAlternative
  deriving Repr, DecidableEq

abbrev Reader (β : Type) := Bytes → Except Fault (β × Bytes)

structure Format (β : Type) where
  write : β → Bytes
  read : Reader β

/-! ## 1. Words -/

/-- The first `width` bytes of a number, the least significant first. -/
def bytesOf : Nat → Nat → Bytes
  | 0, _ => []
  | width + 1, n => UInt8.ofNat (n % 256) :: bytesOf width (n / 256)

/-- The number of bytes given the least significant first. -/
def valueOf : Bytes → Nat
  | [] => 0
  | b :: bs => b.toNat + 256 * valueOf bs

theorem length_bytesOf (width n : Nat) : (bytesOf width n).length = width := by
  induction width generalizing n with
  | zero => rfl
  | succ width ih => simp [bytesOf, ih]

theorem valueOf_bytesOf (width n : Nat) : valueOf (bytesOf width n) = n % Nat.pow 256 width := by
  induction width generalizing n with
  | zero => simp [bytesOf, valueOf, Nat.mod_one]
  | succ width ih =>
    have h : (UInt8.ofNat (n % 256)).toNat = n % 256 := by simp
    have next : Nat.pow 256 (width + 1) = 256 * Nat.pow 256 width := Nat.mul_comm _ 256
    simp only [bytesOf, valueOf, ih, h]
    rw [next, Nat.mod_mul]

/-- The next `n` bytes. -/
def take (n : Nat) : Reader Bytes := fun bs =>
  let front := bs.take n
  if front.length = n then .ok (front, bs.drop n) else .error .truncated

/-- A number of `width` bytes. -/
def takeNat (width : Nat) : Reader Nat := fun bs =>
  match take width bs with
  | .ok (front, rest) => .ok (valueOf front, rest)
  | .error f => .error f

namespace Format

def word64 : Format UInt64 where
  write n := bytesOf 8 n.toNat
  read bs := (takeNat 8 bs).map fun (n, rest) => (UInt64.ofNat n, rest)

/-- The length of what follows. -/
def length : Format Nat where
  write n := bytesOf 8 n
  read := takeNat 8

/-- A float by its bits. -/
def float : Format Float where
  write x := bytesOf 8 x.toBits.toNat
  read bs := (takeNat 8 bs).map fun (n, rest) => (Float.ofBits (UInt64.ofNat n), rest)

def bool : Format Bool where
  write b := [if b then 1 else 0]
  read bs :=
    match takeNat 1 bs with
    | .ok (0, rest) => .ok (false, rest)
    | .ok (1, rest) => .ok (true, rest)
    | .ok _ => .error .invalidBool
    | .error f => .error f

/-! ## 2. Texts, alternatives, lists -/

/-- A text in UTF-8 after its number of bytes. -/
def text : Format String where
  write s := length.write s.utf8ByteSize ++ s.toByteArray.toList
  read bs :=
    match length.read bs with
    | .error f => .error f
    | .ok (n, rest) =>
      match take n rest with
      | .error f => .error f
      | .ok (front, rest) =>
        match String.fromUTF8? front.toByteArray with
        | some s => .ok (s, rest)
        | none => .error .invalidText

/-- One of a list of alternatives by its position. -/
def oneOf {β : Type} [BEq β] (all : List β) : Format β where
  write b := bytesOf 4 (all.idxOf b)
  read bs :=
    match takeNat 4 bs with
    | .error f => .error f
    | .ok (n, rest) =>
      match all[n]? with
      | some b => .ok (b, rest)
      | none => .error .unknownAlternative

def option {β : Type} (f : Format β) : Format (Option β) where
  write
    | none => [0]
    | some b => 1 :: f.write b
  read bs :=
    match takeNat 1 bs with
    | .ok (0, rest) => .ok (none, rest)
    | .ok (1, rest) => (f.read rest).map fun (b, rest) => (some b, rest)
    | .ok _ => .error .invalidTag
    | .error e => .error e

/-- `n` values one after another. -/
def readMany {β : Type} (r : Reader β) : Nat → Reader (List β)
  | 0, bs => .ok ([], bs)
  | n + 1, bs =>
    match r bs with
    | .error e => .error e
    | .ok (b, rest) => (readMany r n rest).map fun (xs, rest) => (b :: xs, rest)

def list {β : Type} (f : Format β) : Format (List β) where
  write xs := length.write xs.length ++ xs.flatMap f.write
  read bs :=
    match length.read bs with
    | .error e => .error e
    | .ok (n, rest) => readMany f.read n rest

/-! ## 3. Combinations -/

/-- A value of the one format, then one of the other. -/
def pair {β γ : Type} (f : Format β) (g : Format γ) : Format (β × γ) where
  write p := f.write p.1 ++ g.write p.2
  read bs :=
    match f.read bs with
    | .error e => .error e
    | .ok (b, rest) => (g.read rest).map fun (c, rest) => ((b, c), rest)

/-- The same bytes for another type. -/
def convert {β γ : Type} (f : Format β) (there : β → γ) (back : γ → β) : Format γ where
  write c := f.write (back c)
  read bs := (f.read bs).map fun (b, rest) => (there b, rest)

/-- The entries in the order of their keys; of two read with one key the later stands. -/
def dictionary {β : Type} (f : Format β) : Format (Dictionary β) :=
  (list (pair text f)).convert Dictionary.ofList Dictionary.entries

end Format

end Binary

end CodeCausality
