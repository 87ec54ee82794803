/-!
# Shortest decimals

A binary floating point number is written with the fewest decimal digits that read back as the same
number, and among those with the ones nearest to it. The search runs on exact integers: the number
is decoded into `m * 2 ^ q`, and a decimal belongs to it when it lies between the midpoints to the
two neighbouring numbers.
-/

namespace JobQueue.Decimal

/-- A finite positive number `mantissa * 2 ^ exponent`. -/
structure Binary where
  mantissa : Nat
  exponent : Int
deriving DecidableEq, Repr

/-- The leading bit of a mantissa, which is not stored: two to the power of 52. -/
def Binary.hiddenBit : Nat := 4503599627370496

/-- Decodes the bits of a finite number without its sign. -/
def Binary.ofBits (bits : UInt64) : Binary :=
  let fraction : Nat := bits.toNat % hiddenBit
  let biased : Nat := bits.toNat / hiddenBit % 2048
  if biased = 0 then ⟨fraction, -1074⟩ else ⟨fraction + hiddenBit, (biased : Int) - 1075⟩

/-- Decimal digits and the power of ten of the last of them: `digits * 10 ^ exponent`. -/
structure Digits where
  digits : Nat
  exponent : Int
deriving DecidableEq, Repr

/-- Whether `d` lies in the interval of reals that round to `b`, both scaled to integers. The ends
belong to it when the mantissa is even. -/
def Digits.reads (d : Digits) (b : Binary) : Bool :=
  -- Four times the number has integral midpoints: `4 m ± 2`, or `4 m - 1` below a power of two.
  let low := if b.mantissa = Binary.hiddenBit ∧ b.exponent > -1074 then 4 * b.mantissa - 1
    else 4 * b.mantissa - 2
  let high := 4 * b.mantissa + 2
  let binary := b.exponent - 2
  let twosLeft := if binary ≥ 0 then Nat.pow 2 binary.toNat else 1
  let twosRight := if binary ≥ 0 then 1 else Nat.pow 2 (-binary).toNat
  let tensLeft := if d.exponent ≥ 0 then 1 else Nat.pow 10 (-d.exponent).toNat
  let tensRight := if d.exponent ≥ 0 then Nat.pow 10 d.exponent.toNat else 1
  let value := d.digits * tensRight * twosRight
  let lowEnd := low * twosLeft * tensLeft
  let highEnd := high * twosLeft * tensLeft
  if b.mantissa % 2 = 0 then lowEnd ≤ value && value ≤ highEnd
  else lowEnd < value && value < highEnd

/-- The number divided by `10 ^ exponent`, as a fraction of naturals. -/
def Binary.scaled (b : Binary) (exponent : Int) : Nat × Nat :=
  let top := b.mantissa * (if b.exponent ≥ 0 then Nat.pow 2 b.exponent.toNat else 1)
    * (if exponent ≥ 0 then 1 else Nat.pow 10 (-exponent).toNat)
  let bottom := (if b.exponent ≥ 0 then 1 else Nat.pow 2 (-b.exponent).toNat)
    * (if exponent ≥ 0 then Nat.pow 10 exponent.toNat else 1)
  (top, bottom)

/-- The power of ten of the leading digit of a positive number, found from above. -/
def Binary.magnitude (b : Binary) : Int :=
  let rec settle : Nat → Int → Int
    | 0, e => e
    | fuel + 1, e =>
      let (top, bottom) := b.scaled e
      if bottom ≤ top then e else settle fuel (e - 1)
  settle 640 309

/-- The nearer of the two neighbours on the grid of `10 ^ exponent` that reads back. A tie goes to
the even digit. -/
def Binary.onGrid? (b : Binary) (exponent : Int) : Option Digits :=
  let (top, bottom) := b.scaled exponent
  let below := top / bottom
  let rest := 2 * (top % bottom)
  let down : Digits := ⟨below, exponent⟩
  let up : Digits := ⟨below + 1, exponent⟩
  match down.reads b, up.reads b with
  | true, true =>
    if rest < bottom then some down
    else if bottom < rest then some up
    else if below % 2 = 0 then some down else some up
  | true, false => some down
  | false, true => some up
  | false, false => none

/-- The shortest digits of a positive number. -/
def Binary.shortest (b : Binary) : Digits :=
  let lead := b.magnitude
  let rec search : Nat → Int → Digits
    | 0, exponent => ⟨(b.scaled exponent).1 / (b.scaled exponent).2, exponent⟩
    | fuel + 1, exponent =>
      match b.onGrid? exponent with
      | some d => d
      | none => search fuel (exponent - 1)
  search 17 lead

/-- Drops trailing zeros. -/
def Digits.normalize (d : Digits) : Digits :=
  let rec strip : Nat → Nat → Int → Digits
    | 0, n, e => ⟨n, e⟩
    | fuel + 1, n, e =>
      if n ≠ 0 ∧ n % 10 = 0 then strip fuel (n / 10) (e + 1) else ⟨n, e⟩
  strip 400 d.digits d.exponent

end JobQueue.Decimal
