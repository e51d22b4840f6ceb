import CodeCausality.Decimal.Reader
import CodeCausality.Time.Instant

/-!
# Reading timestamps

A timestamp is a date, a `T` (or `t`, or a blank), a time with an optional fraction, and an offset:
`Z`, or a sign with hours and minutes. It is read from left to right and the first fault counts; the
date must exist before the time is looked at, and the time must be possible before the offset is.
Second 60 is a leap second in any minute.
-/

namespace CodeCausality

/-- Why a text is no timestamp. -/
inductive TimestampFault where
  | tooShort
  | invalid
  | outOfRange
  | tooLong
  deriving Repr, DecidableEq

def TimestampFault.message : TimestampFault → String
  | tooShort => "premature end of input"
  | invalid => "input contains invalid characters"
  | outOfRange => "input is out of range"
  | tooLong => "trailing input"

namespace Timestamp

/-! ## 1. Digits and marks -/

/-- A reader takes what it reads from the front of the text. -/
abbrev Reader (β : Type) := StateT (List Char) (Except TimestampFault) β

/-- The fault where `n` more bytes are due and something else stands there. -/
def faultAt (s : List Char) (n : Nat) : TimestampFault :=
  if (String.ofList s).utf8ByteSize < n then .tooShort else .invalid

/-- A number of `n` digits. -/
def digits (n : Nat) : Reader Nat := fun s =>
  let ds := s.take n
  if ds.length = n ∧ ds.all Char.isDigit then .ok (Decimal.digitsValue ds, s.drop n)
  else .error (faultAt s n)

/-- One of the characters. -/
def mark (allowed : List Char) : Reader Char := fun s =>
  match s with
  | c :: rest => if allowed.contains c then .ok (c, rest) else .error .invalid
  | [] => .error .tooShort

/-! ## 2. Date and time -/

def date : Reader Date := do
  let year ← digits 4
  let _ ← mark ['-']
  let month ← digits 2
  let _ ← mark ['-']
  let day ← digits 2
  let d : Date := ⟨year, month, day⟩
  if d.isValid then return d else throw .outOfRange

/-- Nanoseconds after a point: at least one digit, and those after the ninth do not count. -/
def fraction : Reader Nat := fun s =>
  match s with
  | '.' :: rest =>
    let (ds, after) := Decimal.spanDigits rest
    if ds.isEmpty then .error (faultAt rest 1)
    else
      let kept := ds.take 9
      .ok (Decimal.digitsValue kept * Nat.pow 10 (9 - kept.length), after)
  | s => .ok (0, s)

/-- Seconds since midnight and nanoseconds. -/
def time : Reader (Nat × Nat) := do
  let hour ← digits 2
  let _ ← mark [':']
  let minute ← digits 2
  let _ ← mark [':']
  let second ← digits 2
  let nanos ← fraction
  let leap := second = 60
  let shown := if leap then 59 else second
  if hour < 24 ∧ minute < 60 ∧ shown < 60 then
    return (hour * 3600 + minute * 60 + shown, if leap then nanos + 1000000000 else nanos)
  else throw .outOfRange

/-! ## 3. Offsets -/

/-- The minus sign of typography. -/
def minusSign : Char := Char.ofNat 0x2212

/-- Seconds east of Greenwich. -/
def offset : Reader Int := fun s =>
  match s with
  | [] => .error .tooShort
  | c :: rest =>
    if c = 'Z' ∨ c = 'z' then .ok (0, rest)
    else if c = '+' ∨ c = '-' ∨ c = minusSign then
      let read : Reader Int := do
        let hours ← digits 2
        let _ ← mark [':']
        let minutes ← digits 2
        if 60 ≤ minutes then throw .outOfRange
        let seconds : Int := hours * 3600 + minutes * 60
        return if c = '+' then seconds else -seconds
      read rest
    else .error .invalid

/-! ## 4. The whole -/

/-- The instant that the text stands for. -/
def read (text : String) : Except TimestampFault Instant :=
  if text.utf8ByteSize < 19 then .error .tooShort
  else
    let parts : Reader (Date × (Nat × Nat) × Int) := do
      let d ← date
      let _ ← mark ['T', 't', ' ']
      let t ← time
      let o ← offset
      return (d, t, o)
    match parts text.toList with
    | .error f => .error f
    | .ok ((d, (ofDay, nanos), offset), rest) =>
      if !rest.isEmpty then .error .tooLong
      else if 86400 ≤ offset.natAbs then .error .outOfRange
      else .ok ⟨daysOf d * 86400 + ofDay - offset, nanos⟩

end Timestamp

end CodeCausality
