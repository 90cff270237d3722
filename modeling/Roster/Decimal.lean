import Roster.Text

/-! The shortest decimal that reads back as a given binary number. A finite double is a mantissa
times a power of two; every real in a small interval around it rounds to it. Of the decimals in
that interval those with the fewest digits are candidates, and the nearest of them is taken. -/
namespace Roster.Decimal

/-- The number `mantissa * 2 ^ exponent`. `narrow` says that the next smaller double is only half
as far away as the next larger one. -/
structure Binary where
  mantissa : Nat
  exponent : Int
  narrow : Bool
  deriving DecidableEq

/-- The number `digits * 10 ^ exponent`. -/
structure Digits where
  digits : Nat
  exponent : Int
  deriving DecidableEq

inductive Tie where
  | toEven
  | up
  deriving DecidableEq

/-- A double keeps its fraction in 52 bits, and its exponent in the eleven bits above them. -/
def fractionSize : Nat := Nat.pow 2 52

/-- The magnitude of the finite double with these bits. -/
def Binary.ofBits (bits : Nat) : Binary :=
  let fraction : Nat := bits % fractionSize
  let biased : Nat := bits / fractionSize % 2048
  if biased = 0 then ⟨fraction, -1074, false⟩
  else ⟨fractionSize + fraction, (biased : Int) - 1075, fraction = 0 && 1 < biased⟩

/-- The factors that turn units of `10 ^ power` and of `2 ^ exponent` into whole multiples of one
common unit. -/
def scales (power exponent : Int) : Nat × Nat :=
  (Nat.pow 10 power.toNat * Nat.pow 2 (-exponent).toNat,
    Nat.pow 2 exponent.toNat * Nat.pow 10 (-power).toNat)

def width (n : Nat) : Nat := (Nat.toDigits 10 n).length

/-- The exponent of the leading decimal digit of a positive number. -/
def Binary.magnitude (b : Binary) : Int :=
  let (one, unit) := scales 0 b.exponent
  let most : Int := (width (b.mantissa * unit) : Int) - width one
  let (ten, unit) := scales most b.exponent
  if ten ≤ b.mantissa * unit then most else most - 1

/-- The candidates are the two neighbours of the number among the multiples of `10 ^ power`.
Distances are measured in quarters of the mantissa's unit, so that the ends of the interval are
whole; they belong to it if the mantissa is even. -/
def Binary.onGrid (tie : Tie) (b : Binary) (power : Int) : Option Nat :=
  let (ten, quarter) := scales power (b.exponent - 2)
  let value := 4 * b.mantissa * quarter
  let low := (4 * b.mantissa - if b.narrow then 1 else 2) * quarter
  let high := (4 * b.mantissa + 2) * quarter
  let inside (n : Nat) : Bool :=
    if b.mantissa % 2 = 0 then low ≤ n * ten && n * ten ≤ high
    else low < n * ten && n * ten < high
  let below := value / ten
  let under := value - below * ten
  let beyond := (below + 1) * ten - value
  match inside below, inside (below + 1) with
  | false, false => none
  | true, false => some below
  | false, true => some (below + 1)
  | true, true =>
    if under < beyond then some below
    else if beyond < under then some (below + 1)
    else match tie with
      | .up => some (below + 1)
      | .toEven => some (if below % 2 = 0 then below else below + 1)

def Binary.shortestFrom (tie : Tie) (b : Binary) : Nat → Int → Digits
  | 0, power => ⟨0, power⟩
  | n + 1, power =>
    match b.onGrid tie power with
    | some digits => ⟨digits, power⟩
    | none => b.shortestFrom tie n (power - 1)

/-- Seventeen digits always suffice for a double. -/
def Binary.shortest (tie : Tie) (b : Binary) : Digits :=
  if b.mantissa = 0 then ⟨0, 0⟩ else b.shortestFrom tie 17 b.magnitude

/-! ## Layout

The digits are laid out positionally, or with an exponent behind the leading digit. A format fixes
where it changes from one to the other, and ties. -/

structure Layout where
  /-- Whether a number whose leading digit has this exponent is written positionally. -/
  positional : Int → Bool
  tie : Tie

/-- The digits without the zeros at their end, and the exponent of the leading one. -/
def Digits.normal (d : Digits) : List Char × Int :=
  let text := Nat.toDigits 10 d.digits
  let significant := (text.reverse.dropWhile (· == '0')).reverse
  (if significant = [] then ['0'] else significant, d.exponent + text.length - 1)

/-- A point always stands between two digits. -/
def positionalText (digits : List Char) (leading : Int) : List Char :=
  if leading < 0 then
    '0' :: '.' :: (List.replicate (-leading - 1).toNat '0' ++ digits)
  else
    let whole := leading.toNat + 1
    let padded := digits ++ List.replicate (whole - digits.length) '0'
    let places := digits.drop whole
    padded.take whole ++ '.' :: (if places = [] then ['0'] else places)

def exponentText (digits : List Char) (leading : Int) : List Char :=
  let mantissa := match digits with
    | [] => []
    | [digit] => [digit]
    | digit :: more => digit :: '.' :: more
  let sign := if leading < 0 then '-' else '+'
  mantissa ++ 'e' :: sign :: Nat.toDigits 10 leading.natAbs

def Layout.magnitude (layout : Layout) (b : Binary) : List Char :=
  let (digits, leading) := (b.shortest layout.tie).normal
  if layout.positional leading then positionalText digits leading else exponentText digits leading

def signBit : Nat := UInt64.size / 2

/-- A double as text. Zero keeps its sign. -/
def Layout.render (layout : Layout) (x : Float) : String :=
  let bits := x.toBits.toNat
  if x.isNaN then "NaN"
  else
    let sign := if bits / signBit = 1 then "-" else ""
    if x.isInf then sign ++ "inf"
    else sign ++ String.ofList (layout.magnitude (.ofBits (bits % signBit)))

end Roster.Decimal
