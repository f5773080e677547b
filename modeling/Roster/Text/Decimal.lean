/-! Decimal texts of binary floating-point numbers, by exact arithmetic on the bits. A number is written either
with a fixed number of places, a tie going to the even neighbour, or with the fewest digits that read back. -/

namespace Roster.Text

/-- A finite number without its sign, `mantissa * 2 ^ power`; `narrowBelow` holds at a power of two, where
the neighbour below is half as far as the one above. -/
structure Binary where
  mantissa : Nat
  power : Int
  narrowBelow : Bool

/-- What the bits of a number say. -/
inductive Magnitude where
  | finite (value : Binary)
  | infinite
  | undefined

structure Signed where
  negative : Bool
  magnitude : Magnitude

def Signed.ofBits (bits : UInt64) : Signed :=
  let exponent := ((bits >>> 52) &&& 0x7FF).toNat
  let fraction := (bits &&& 0xFFFFFFFFFFFFF).toNat
  { negative := bits >>> 63 == 1
    magnitude :=
      if exponent = 0x7FF then (if fraction = 0 then .infinite else .undefined)
      else if exponent = 0 then .finite ⟨fraction, -1074, false⟩
      else .finite ⟨Nat.pow 2 52 + fraction, (exponent : Int) - 1075, fraction == 0 && exponent > 1⟩ }

/-- The integer nearest to a quotient, the even one of two. -/
def roundDiv (num den : Nat) : Nat :=
  let q := num / den
  let r := num % den
  if 2 * r < den then q
  else if den < 2 * r then q + 1
  else if q % 2 = 0 then q else q + 1

/-- The decimal digits of a number, at least so many. -/
def paddedDigits (width n : Nat) : List Char :=
  let digits := (Nat.repr n).toList
  List.replicate (width - digits.length) '0' ++ digits

/-- The number with a fixed number of places. -/
def fixedPlaces (places : Nat) (x : Float) : String :=
  let signed := Signed.ofBits x.toBits
  let sign := if signed.negative then "-" else ""
  match signed.magnitude with
  | .infinite => sign ++ "inf"
  | .undefined => "nan"
  | .finite value =>
      let scaled := roundDiv (value.mantissa * Nat.pow 2 value.power.toNat * Nat.pow 10 places)
        (Nat.pow 2 (-value.power).toNat)
      let digits := paddedDigits (places + 1) scaled
      let whole := digits.take (digits.length - places)
      sign ++ String.ofList (whole ++ '.' :: digits.drop (digits.length - places))

/-- Compares `a * 10 ^ i` with `n * 2 ^ j`. -/
def compareScaled (a : Nat) (i : Int) (n : Nat) (j : Int) : Ordering :=
  compare (a * Nat.pow 10 i.toNat * Nat.pow 2 (-j).toNat)
    (n * Nat.pow 2 j.toNat * Nat.pow 10 (-i).toNat)

/-- Whether `digits * 10 ^ exponent` lies among the reals that round to the number. -/
def Binary.readsBack (x : Binary) (digits : Nat) (exponent : Int) : Bool :=
  let lower := if x.narrowBelow then 4 * x.mantissa - 1 else 4 * x.mantissa - 2
  let upper := 4 * x.mantissa + 2
  let closed := x.mantissa % 2 == 0
  let below := compareScaled digits exponent lower (x.power - 2)
  let above := compareScaled digits exponent upper (x.power - 2)
  (below == .gt || (closed && below == .eq)) && (above == .lt || (closed && above == .eq))

/-- The neighbour of the number on the grid `10 ^ exponent` that reads back, the nearer of two. -/
def Binary.onGrid (x : Binary) (exponent : Int) : Option Nat :=
  let num := x.mantissa * Nat.pow 2 x.power.toNat * Nat.pow 10 (-exponent).toNat
  let den := Nat.pow 2 (-x.power).toNat * Nat.pow 10 exponent.toNat
  let low := num / den
  let near := roundDiv num den
  let far := if near = low then low + 1 else low
  if x.readsBack near exponent then some near
  else if x.readsBack far exponent then some far
  else none

/-- How many digits the integer part has; zero or less for a number below one tenth or one. -/
def Binary.scale (x : Binary) : Int :=
  let estimate := ((x.mantissa.log2 : Int) + x.power) * 30103 / 100000
  let fits (k : Int) : Bool := compareScaled 1 k x.mantissa x.power == .gt
  if fits (estimate - 1) then estimate - 1
  else if fits estimate then estimate
  else if fits (estimate + 1) then estimate + 1
  else estimate + 2

/-- The fewest digits that read back, with the exponent of the last one. -/
def Binary.shortest (x : Binary) : Nat × Int :=
  let k := x.scale
  match (List.range 17).findSome? fun (i : Nat) =>
      let exponent := k - 1 - (i : Int)
      (x.onGrid exponent).map fun digits => (digits, exponent) with
  | some found => found
  | none => (x.mantissa * Nat.pow 2 x.power.toNat * Nat.pow 5 (-x.power).toNat, min x.power 0)

/-- Digits without the zeros at their end, at least one digit. -/
def stripZeros (digits : List Char) : List Char :=
  match (digits.reverse.dropWhile (· == '0')).reverse with
  | [] => ['0']
  | kept => kept

/-- Positional from one ten-thousandth up to sixteen digits, otherwise with a signed exponent of at least
two digits. -/
def layOut (digits : List Char) (leading : Int) : List Char :=
  if -4 ≤ leading && leading < 16 then
    if leading < 0 then
      '0' :: '.' :: (List.replicate (-leading - 1).toNat '0' ++ digits)
    else
      let whole := leading.toNat + 1
      let padded := digits ++ List.replicate (whole - digits.length) '0'
      let places := padded.drop whole
      padded.take whole ++ '.' :: (if places.isEmpty then ['0'] else places)
  else
    let head := digits.take 1
    let tail := digits.drop 1
    let power := paddedDigits 2 leading.natAbs
    head ++ (if tail.isEmpty then [] else '.' :: tail) ++ 'e' :: (if leading < 0 then '-' else '+')
      :: power

/-- The number with the fewest digits that read back. -/
def shortestText (x : Float) : String :=
  let signed := Signed.ofBits x.toBits
  let sign := if signed.negative then "-" else ""
  match signed.magnitude with
  | .infinite => sign ++ "inf"
  | .undefined => "nan"
  | .finite value =>
      if value.mantissa = 0 then sign ++ "0.0"
      else
        let (digits, exponent) := value.shortest
        let written := (Nat.repr digits).toList
        sign ++ String.ofList (layOut (stripZeros written) (exponent + written.length - 1))

end Roster.Text
