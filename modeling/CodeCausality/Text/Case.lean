/-!
# Lower case

The lower-case letter of a letter, for the scripts that names are written in: Latin with its
accented letters, Greek and Cyrillic. Every other character stands for itself.
-/

namespace CodeCausality

namespace Text

/-- Ranges of capitals (first, last) and how far below each its small letter stands. -/
def capitalRanges : List (Nat × Nat × Nat) :=
  [(0x41, 0x5A, 32), (0xC0, 0xD6, 32), (0xD8, 0xDE, 32), (0x388, 0x38A, 37), (0x391, 0x3A1, 32),
    (0x3A3, 0x3AB, 32), (0x400, 0x40F, 80), (0x410, 0x42F, 32)]

/-- Ranges in which capitals stand at even code points, each before its small letter. -/
def evenPairRanges : List (Nat × Nat) :=
  [(0x100, 0x12F), (0x132, 0x137), (0x14A, 0x177), (0x460, 0x481), (0x48A, 0x4BF), (0x4D0, 0x52F),
    (0x1E00, 0x1E95)]

/-- Ranges in which capitals stand at odd code points, each before its small letter. -/
def oddPairRanges : List (Nat × Nat) := [(0x139, 0x148), (0x179, 0x17E), (0x4C1, 0x4CE)]

def lowerCode (n : Nat) : Nat :=
  match capitalRanges.find? fun r => decide (r.1 ≤ n) && decide (n ≤ r.2.1) with
  | some r => n + r.2.2
  | none =>
    let within (rs : List (Nat × Nat)) : Bool := rs.any fun r => decide (r.1 ≤ n) && decide (n ≤ r.2)
    if within evenPairRanges && n % 2 == 0 then n + 1
    else if within oddPairRanges && n % 2 == 1 then n + 1
    else if n == 0x178 then 0xFF
    else n

def lowerChar (c : Char) : Char := Char.ofNat (lowerCode c.toNat)

def lower (s : List Char) : List Char := s.map lowerChar

end Text

end CodeCausality
