import CodeCausality.Numeric.Scalar
import CodeCausality.Random.ChaCha
import CodeCausality.Random.NormalTable

/-!
# Noise

What the simulator and the fitters draw: a uniform number, a Gaussian number, a position in a list.
`Noise ρ α` says which draws a state `ρ` offers, so that statements about a simulation can hold for
every source of noise; `Noise Generator Float` is the one that runs.

* A position below `n` is the upper half of a word times `n`; words that would favour some positions
  are rejected (`accept?`).
* A Gaussian number comes from the layered cover of the density in `Random/NormalTable`.

A rejected draw is repeated. Each repetition is needed with probability below one half, and the
number of repetitions is bounded (`attempts`).
-/

namespace CodeCausality

/-! ## 1. The interface -/

/-- Draws from a state of noise. -/
class Noise (ρ : Type) (α : outParam Type) where
  /-- The state at the start of a stream. -/
  start : (seed stream : UInt64) → ρ
  /-- A number from 0 up to, but not including, 1. -/
  uniform : ρ → α × ρ
  /-- A Gaussian number of mean zero and the given standard deviation; zero, and no draw, if that
  is not a positive finite number. -/
  gaussian : α → ρ → α × ρ
  /-- A position below `n`, from a double word. -/
  position : (n : Nat) → ρ → Nat × ρ
  /-- A position below `n`, from a single word. -/
  choice : (n : Nat) → ρ → Nat × ρ

namespace Random

/-! ## 2. Positions -/

def attempts : Nat := 100000

/-- The position below `n` that a word of `bits` bits stands for, unless it is rejected. -/
def accept? (bits n word : Nat) : Option Nat :=
  let zone := n * Nat.pow 2 (bits - (Nat.log2 n + 1)) - 1
  let product := word * n
  if product % Nat.pow 2 bits ≤ zone then some (product / Nat.pow 2 bits) else none

/-- A position below `n` from single words. -/
def Generator.choose (n : Nat) : Nat → Generator → Nat × Generator
  | 0, g => (0, g)
  | tries + 1, g =>
    let (w, g) := g.word
    match accept? 32 n w.toNat with
    | some i => (i, g)
    | none => g.choose n tries

/-- A position below `n` from double words. -/
def Generator.locate (n : Nat) : Nat → Generator → Nat × Generator
  | 0, g => (0, g)
  | tries + 1, g =>
    let (w, g) := g.doubleWord
    match accept? 64 n w.toNat with
    | some i => (i, g)
    | none => g.locate n tries

/-! ## 3. Numbers -/

/-- `2 ^ -53`. -/
def smallStep : Float := Float.ofBits 0x3CA0000000000000

/-- A multiple of `2 ^ -53` from 0 up to 1. -/
def Generator.uniform (g : Generator) : Float × Generator :=
  let (w, g) := g.doubleWord
  ((w >>> 11).toFloat * smallStep, g)

/-- A number strictly between 0 and 1. -/
def Generator.open01 (g : Generator) : Float × Generator :=
  let (w, g) := g.doubleWord
  (Float.ofBits ((0x3FF0000000000000 : UInt64) ||| (w >>> 12)) - (1 - smallStep), g)

/-- A number beyond the start of the tail, on the side of the sign of `u`. -/
def Generator.tail (u : Float) : Nat → Generator → Float × Generator
  | 0, g => (tailStart, g)
  | tries + 1, g =>
    let (p, g) := g.open01
    let (q, g) := g.open01
    let x := p.log / tailStart
    let y := q.log
    if -2 * y < x * x then g.tail u tries
    else (if u < 0 then x - tailStart else tailStart - x, g)

/-- A standard Gaussian number. -/
def Generator.normal : Nat → Generator → Float × Generator
  | 0, g => (0, g)
  | tries + 1, g =>
    let (w, g) := g.doubleWord
    let i := (w &&& 0xff).toNat
    let u := Float.ofBits ((0x4000000000000000 : UInt64) ||| (w >>> 12)) - 3
    let x := u * layerEdges.getD i 0
    if x.abs < layerEdges.getD (i + 1) 0 then (x, g)
    else if i = 0 then g.tail u attempts
    else
      let low := layerHeights.getD (i + 1) 0
      let (v, g) := g.uniform
      if low + (layerHeights.getD i 0 - low) * v < (-x * x / 2).exp then (x, g)
      else g.normal tries

instance : Noise Generator Float where
  start := Generator.ofSeed
  uniform := Generator.uniform
  gaussian std g :=
    if std.isFinite && decide (0 < std) then
      let (z, g) := g.normal attempts
      (0 + std * z, g)
    else (0, g)
  position n g := g.locate n attempts
  choice n g := g.choose n attempts

end Random

/-! ## 4. Shuffling -/

/-- Exchanges, from position `i` down, each member with one that does not stand after it. -/
def shuffleDown {ρ α β : Type} [Noise ρ α] : Nat → Array β → ρ → Array β × ρ
  | 0, xs, r => (xs, r)
  | i + 1, xs, r =>
    let (j, r) := Noise.choice (i + 2) r
    shuffleDown i (xs.swapIfInBounds (i + 1) j) r

/-- The members in an order drawn from the noise. -/
def shuffle {ρ α β : Type} [Noise ρ α] (xs : List β) (r : ρ) : List β × ρ :=
  let (ys, r) := shuffleDown (xs.length - 1) xs.toArray r
  (ys.toList, r)

end CodeCausality
