import CodeCausality.Binary.Format

/-!
# Bytes as hexadecimal text

Two digits a byte, the high half first, in small letters. Reading takes exactly what writing gives.
-/

namespace CodeCausality

namespace Binary

/-- The sixteen digits by value. -/
def hexDigits : List Char := "0123456789abcdef".toList

def hexDigit (n : Nat) : Char := hexDigits.getD n '0'

def hexValue? (c : Char) : Option Nat := hexDigits.idxOf? c

def toHex (bs : Bytes) : List Char :=
  bs.flatMap fun b => [hexDigit (b.toNat / 16), hexDigit (b.toNat % 16)]

def ofHex? : List Char → Option Bytes
  | [] => some []
  | [_] => none
  | a :: b :: rest => do
    let high ← hexValue? a
    let low ← hexValue? b
    return UInt8.ofNat (16 * high + low) :: (← ofHex? rest)

end Binary

end CodeCausality
