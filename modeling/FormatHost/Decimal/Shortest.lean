/-! # The fewest digits that read back

A finite positive binary number is `mantissa · 2 ^ exponent`. The decimals that round to it form
an interval around it, whose ends belong to it when the mantissa is even. For one digit, two
digits and so on, the two neighbours of the value on the decimal grid of that many digits are
tried; the first grid with a hit gives the digits, and of two hits the nearer one.
-/

namespace FormatHost.Decimal

/-- A positive fraction. -/
structure Fraction where
  num : Nat
  den : Nat

def Fraction.scale2 (f : Fraction) (e : Int) : Fraction :=
  if 0 ≤ e then ⟨f.num * Nat.pow 2 e.toNat, f.den⟩ else ⟨f.num, f.den * Nat.pow 2 (-e).toNat⟩

def Fraction.unscale10 (f : Fraction) (e : Int) : Fraction :=
  if 0 ≤ e then ⟨f.num, f.den * Nat.pow 10 e.toNat⟩ else ⟨f.num * Nat.pow 10 (-e).toNat, f.den⟩

/-- `a ≤ b` for a natural number and a fraction. -/
def Fraction.natLe (n : Nat) (f : Fraction) : Bool :=
  n * f.den ≤ f.num

/-- `b ≤ a` for a natural number and a fraction. -/
def Fraction.leNat (f : Fraction) (n : Nat) : Bool :=
  f.num ≤ n * f.den

/-- A binary number taken apart: `mantissa · 2 ^ exponent`. -/
structure Binary where
  mantissa : Nat
  exponent : Int
  /-- Whether the number below is only half as far away as the number above. -/
  narrowBelow : Bool

/-- The number with given bits of its sign-free part. -/
def Binary.ofBits (bits : Nat) : Binary :=
  let field : Nat := bits / Nat.pow 2 52 % Nat.pow 2 11
  let fraction : Nat := bits % Nat.pow 2 52
  if field = 0 then ⟨fraction, -1074, false⟩
  else ⟨Nat.pow 2 52 + fraction, (field : Int) - 1075, fraction = 0 && 1 < field⟩

/-- The exponent of the first decimal digit: the greatest `e` with `10 ^ e ≤ f`, looked for
downwards from a start that is not too small. -/
def leadingExponent (f : Fraction) : Nat → Int → Int
  | 0, e => e
  | tries + 1, e => if Fraction.natLe 1 (f.unscale10 e) then e else leadingExponent f tries (e - 1)

/-- A decimal numeral `digits · 10 ^ exponent`. -/
structure Numeral where
  digits : Nat
  exponent : Int

/-- The neighbours of a value on the grid `10 ^ unit` that lie in the interval given by its ends,
the nearer one first. -/
def gridHit (value low high : Fraction) (inclusive : Bool) (unit : Int) : Option Numeral :=
  let v := value.unscale10 unit
  let l := low.unscale10 unit
  let h := high.unscale10 unit
  let below := v.num / v.den
  let above := below + 1
  let inside (n : Nat) : Bool :=
    if inclusive then l.leNat n && Fraction.natLe n h
    else l.num < n * l.den && n * h.den < h.num
  -- Twice the distance to the number below, against one unit.
  let twice := 2 * (v.num - below * v.den)
  let preferAbove := v.den < twice || (v.den == twice && below % 2 == 1)
  if inside below && inside above then some ⟨if preferAbove then above else below, unit⟩
  else if inside below then some ⟨below, unit⟩
  else if inside above then some ⟨above, unit⟩
  else none

/-- Digits without the zeros at their end. -/
def stripZeros : Nat → Numeral → Numeral
  | 0, d => d
  | tries + 1, d =>
    if d.digits ≠ 0 ∧ d.digits % 10 = 0 then stripZeros tries ⟨d.digits / 10, d.exponent + 1⟩ else d

/-- The shortest decimal that reads back as a positive binary number. -/
def shortest (b : Binary) : Numeral :=
  let value := (Fraction.mk (4 * b.mantissa) 1).scale2 (b.exponent - 2)
  let gap := if b.narrowBelow then 1 else 2
  let low := (Fraction.mk (4 * b.mantissa - gap) 1).scale2 (b.exponent - 2)
  let high := (Fraction.mk (4 * b.mantissa + 2) 1).scale2 (b.exponent - 2)
  let inclusive := b.mantissa % 2 == 0
  let lead := leadingExponent value 700 309
  let hit := (List.range 18).findSome? fun (n : Nat) =>
    gridHit value low high inclusive (lead - n)
  stripZeros 20 (hit.getD ⟨b.mantissa, 0⟩)

/-- How shortest decimals are written. -/
structure Style where
  /-- The least exponent of the first digit that is written without an exponent. -/
  leastPlain : Int
  /-- The greatest exponent of the first digit that is written without an exponent. -/
  greatestPlain : Int

def natDigits (n : Nat) : List Char :=
  Nat.toDigits 10 n

/-- A decimal written out. Numbers without a fraction get one digit after the point. -/
def Style.write (style : Style) (d : Numeral) : List Char :=
  let digits := natDigits d.digits
  let first := d.exponent + digits.length - 1
  if style.leastPlain ≤ first && first ≤ style.greatestPlain then
    if 0 ≤ d.exponent then digits ++ List.replicate d.exponent.toNat '0' ++ ['.', '0']
    else if 0 ≤ first then
      digits.take (first.toNat + 1) ++ '.' :: digits.drop (first.toNat + 1)
    else '0' :: '.' :: List.replicate ((-first).toNat - 1) '0' ++ digits
  else
    let point := if digits.length ≤ 1 then digits else digits.take 1 ++ '.' :: digits.drop 1
    let sign := if first < 0 then '-' else '+'
    point ++ 'e' :: sign :: natDigits first.natAbs

/-- A finite floating-point number written with the fewest digits that read back. -/
def Style.writeFloat (style : Style) (f : Float) : String :=
  let bits := f.toBits.toNat
  let sign := if bits / Nat.pow 2 63 = 1 then ['-'] else []
  let rest := bits % Nat.pow 2 63
  String.ofList <| sign ++
    if rest = 0 then ['0', '.', '0'] else style.write (shortest (Binary.ofBits rest))

end FormatHost.Decimal
