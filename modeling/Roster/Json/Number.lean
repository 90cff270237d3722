import Roster.Json.Error

/-! Numbers of JSON. A whole number that fits 64 bits is exact. Any other number is a double: its
leading digits are kept as far as they fit 64 bits, the rest counts into a power of ten, and the
two are put together in double arithmetic. -/
namespace Roster.Json

inductive Number where
  | natural (value : Nat)
  /-- The number `-value`, which is not zero. -/
  | negative (value : Nat)
  | float (value : Float)

def Number.found : Number → Found
  | natural n => .integer n
  | negative n => .integer (-n)
  | float x => .float x

def digitValue (c : Char) : Nat := c.toNat - '0'.toNat

def wordLimit : Nat := UInt64.size

/-- Appends digits to `n` as long as it fits; also counts them. -/
def absorb (n count : Nat) : List Char → Nat × Nat × List Char
  | [] => (n, count, [])
  | c :: rest =>
    if c.isDigit ∧ n * 10 + digitValue c < wordLimit then
      absorb (n * 10 + digitValue c) (count + 1) rest
    else (n, count, c :: rest)

def countDigits (count : Nat) : List Char → Nat × List Char
  | [] => (count, [])
  | c :: rest => if c.isDigit then countDigits (count + 1) rest else (count, c :: rest)

def startsWithDigit : List Char → Bool
  | [] => false
  | c :: _ => c.isDigit

def tenTo (n : Nat) : Float := Float.ofScientific 1 false n

/-- Divides by a power of ten, in steps that a double can hold. -/
def divideByTenTo (x : Float) (n : Nat) : Float :=
  if n ≤ 308 then x / tenTo n
  else if x == 0 then x
  else divideByTenTo (x / tenTo 308) (n - 308)
termination_by n
decreasing_by omega

def assemble? (significand : Nat) (exponent : Int) : Option Float :=
  let x := (UInt64.ofNat significand).toFloat
  if exponent < 0 then some (divideByTenTo x exponent.natAbs)
  else if 308 < exponent then if x == 0 then some x else none
  else
    let y := x * tenTo exponent.toNat
    if y.isInf then none else some y

def finish (negative : Bool) (significand : Nat) (exponent : Int) (rest : List Char) :
    Except Fault (Number × List Char) :=
  match assemble? significand exponent with
  | some x => .ok (.float (if negative then -x else x), rest)
  | none => .error (.behind .numberOutOfRange rest)

/-- An exponent above this one is not followed any further. -/
def exponentLimit : Nat := UInt32.size / 2

/-- Appends digits to the exponent `n` as long as it stays below its limit. The digit at which it
does not is passed over. -/
def readExponentDigits (n : Nat) : List Char → Except (List Char) (Nat × List Char)
  | [] => .ok (n, [])
  | c :: rest =>
    if c.isDigit then
      if n * 10 + digitValue c < exponentLimit then
        readExponentDigits (n * 10 + digitValue c) rest
      else .error rest
    else .ok (n, c :: rest)

def readExponentSign : List Char → Bool × List Char
  | '-' :: rest => (true, rest)
  | '+' :: rest => (false, rest)
  | rest => (false, rest)

def readExponent (negative : Bool) (significand : Nat) (exponent : Int) (rest : List Char) :
    Except Fault (Number × List Char) :=
  let (down, digits) := readExponentSign rest
  if digits = [] then .error (.behind .endOfValue [])
  else if startsWithDigit digits then
    match readExponentDigits 0 digits with
    | .ok (n, rest) =>
      finish negative significand (if down then exponent - n else exponent + n) rest
    | .error rest =>
      if significand ≠ 0 ∧ down = false then .error (.behind .numberOutOfRange rest)
      else .ok (.float (if negative then -0.0 else 0.0), (countDigits 0 rest).2)
  else .error (.ahead .invalidNumber digits)

def readScale (negative : Bool) (significand : Nat) (exponent : Int) (rest : List Char) :
    Except Fault (Number × List Char) :=
  match rest with
  | 'e' :: rest => readExponent negative significand exponent rest
  | 'E' :: rest => readExponent negative significand exponent rest
  | rest => finish negative significand exponent rest

def readFraction (negative : Bool) (significand : Nat) (exponent : Int) (rest : List Char) :
    Except Fault (Number × List Char) :=
  if rest = [] then .error (.ahead .endOfValue [])
  else if startsWithDigit rest then
    let (significand, places, rest) := absorb significand 0 rest
    readScale negative significand (exponent - places) (countDigits 0 rest).2
  else .error (.ahead .invalidNumber rest)

/-- The number whose whole part is `n`. The negative of zero is a double, and so is a negative
number too large for a signed word. -/
def wholeNumber (negative : Bool) (n : Nat) : Number :=
  if negative then
    if n = 0 ∨ wordLimit / 2 < n then .float (-(UInt64.ofNat n).toFloat) else .negative n
  else .natural n

def readMagnitude (negative : Bool) (text : List Char) : Except Fault (Number × List Char) :=
  match text with
  | [] => .error (.behind .endOfValue [])
  | c :: rest =>
    if c.isDigit then
      if c = '0' ∧ startsWithDigit rest then .error (.ahead .invalidNumber rest)
      else
        let (significand, _, rest) := absorb 0 0 text
        let (dropped, rest) := countDigits 0 rest
        match rest with
        | '.' :: rest => readFraction negative significand dropped rest
        | 'e' :: rest => readExponent negative significand dropped rest
        | 'E' :: rest => readExponent negative significand dropped rest
        | rest =>
          if dropped = 0 then .ok (wholeNumber negative significand, rest)
          else finish negative significand dropped rest
    else .error (.ahead .invalidNumber text)

def readNumber : List Char → Except Fault (Number × List Char)
  | '-' :: rest => readMagnitude true rest
  | rest => readMagnitude false rest

def skipExponent (rest : List Char) : Except Fault (List Char) :=
  let (_, digits) := readExponentSign rest
  if startsWithDigit digits then .ok (countDigits 0 digits).2
  else .error (.ahead .invalidNumber digits)

def skipScale : List Char → Except Fault (List Char)
  | 'e' :: rest => skipExponent rest
  | 'E' :: rest => skipExponent rest
  | rest => .ok rest

def skipMagnitude (text : List Char) : Except Fault (List Char) :=
  match text with
  | [] => .error (.behind .invalidNumber [])
  | c :: rest =>
    if c.isDigit then
      if c = '0' ∧ startsWithDigit rest then .error (.ahead .invalidNumber rest)
      else
        match (countDigits 0 text).2 with
        | '.' :: rest =>
          if startsWithDigit rest then skipScale (countDigits 0 rest).2
          else .error (.ahead .invalidNumber rest)
        | rest => skipScale rest
    else .error (.ahead .invalidNumber text)

def skipNumber : List Char → Except Fault (List Char)
  | '-' :: rest => skipMagnitude rest
  | rest => skipMagnitude rest

theorem length_countDigits (count : Nat) (text : List Char) :
    (countDigits count text).2.length ≤ text.length := by
  induction text generalizing count with
  | nil => exact Nat.le_refl _
  | cons c rest ih =>
    simp only [countDigits]
    split
    · exact Nat.le_succ_of_le (ih _)
    · exact Nat.le_refl _

theorem length_readExponentSign (text : List Char) :
    (readExponentSign text).2.length ≤ text.length := by
  unfold readExponentSign
  split <;> simp

theorem length_absorb (n count : Nat) (text : List Char) :
    (absorb n count text).2.2.length ≤ text.length := by
  induction text generalizing n count with
  | nil => exact Nat.le_refl _
  | cons c rest ih =>
    simp only [absorb]
    split
    · exact Nat.le_succ_of_le (ih _ _)
    · exact Nat.le_refl _

theorem length_readExponentDigits {n m : Nat} {text rest : List Char}
    (h : readExponentDigits n text = .ok (m, rest)) : rest.length ≤ text.length := by
  induction text generalizing n with
  | nil => cases h; exact Nat.le_refl _
  | cons c tail ih =>
    simp only [readExponentDigits] at h
    split at h
    · split at h
      · exact Nat.le_succ_of_le (ih h)
      · cases h
    · cases h; exact Nat.le_refl _

theorem length_of_readExponentDigits {n : Nat} {text rest : List Char}
    (h : readExponentDigits n text = .error rest) : rest.length ≤ text.length := by
  induction text generalizing n with
  | nil => cases h
  | cons c tail ih =>
    simp only [readExponentDigits] at h
    split at h
    · split at h
      · exact Nat.le_succ_of_le (ih h)
      · cases h; simp
    · cases h

theorem rest_of_finish {negative : Bool} {significand : Nat} {exponent : Int}
    {text rest : List Char} {number : Number}
    (h : finish negative significand exponent text = .ok (number, rest)) : rest = text := by
  unfold finish at h
  split at h
  · exact (congrArg Prod.snd (Except.ok.inj h)).symm
  · cases h

theorem length_readExponent {negative : Bool} {significand : Nat} {exponent : Int}
    {text rest : List Char} {number : Number}
    (h : readExponent negative significand exponent text = .ok (number, rest)) :
    rest.length ≤ text.length := by
  have hs := length_readExponentSign text
  simp only [readExponent] at h
  split at h
  · cases h
  · split at h
    · split at h
      · next he =>
        rw [rest_of_finish h]
        exact Nat.le_trans (length_readExponentDigits he) hs
      · next he =>
        split at h
        · cases h
        · cases h
          exact Nat.le_trans (length_countDigits _ _)
            (Nat.le_trans (length_of_readExponentDigits he) hs)
    · cases h

theorem length_readScale {negative : Bool} {significand : Nat} {exponent : Int}
    {text rest : List Char} {number : Number}
    (h : readScale negative significand exponent text = .ok (number, rest)) :
    rest.length ≤ text.length := by
  unfold readScale at h
  split at h
  · exact Nat.le_succ_of_le (length_readExponent h)
  · exact Nat.le_succ_of_le (length_readExponent h)
  · exact Nat.le_of_eq (congrArg List.length (rest_of_finish h))

theorem length_readFraction {negative : Bool} {significand : Nat} {exponent : Int}
    {text rest : List Char} {number : Number}
    (h : readFraction negative significand exponent text = .ok (number, rest)) :
    rest.length ≤ text.length := by
  simp only [readFraction] at h
  split at h
  · cases h
  · split at h
    · exact Nat.le_trans (length_readScale h)
        (Nat.le_trans (length_countDigits _ _) (length_absorb _ _ _))
    · cases h

theorem length_readMagnitude {negative : Bool} {text rest : List Char} {number : Number}
    (h : readMagnitude negative text = .ok (number, rest)) : rest.length ≤ text.length := by
  unfold readMagnitude at h
  split at h
  · cases h
  · next c tail =>
    split at h
    · split at h
      · cases h
      · have hd := Nat.le_trans (length_countDigits 0 (absorb 0 0 (c :: tail)).2.2)
          (length_absorb 0 0 (c :: tail))
        simp only at h
        split at h
        · next he =>
          rw [he] at hd
          exact Nat.le_trans (Nat.le_succ_of_le (length_readFraction h)) hd
        · next he =>
          rw [he] at hd
          exact Nat.le_trans (Nat.le_succ_of_le (length_readExponent h)) hd
        · next he =>
          rw [he] at hd
          exact Nat.le_trans (Nat.le_succ_of_le (length_readExponent h)) hd
        · split at h
          · cases h; exact hd
          · rw [rest_of_finish h]; exact hd
    · cases h

theorem length_readNumber {text rest : List Char} {number : Number}
    (h : readNumber text = .ok (number, rest)) : rest.length ≤ text.length := by
  unfold readNumber at h
  split at h
  · exact Nat.le_succ_of_le (length_readMagnitude h)
  · exact length_readMagnitude h

theorem length_skipExponent {text rest : List Char} (h : skipExponent text = .ok rest) :
    rest.length ≤ text.length := by
  simp only [skipExponent] at h
  split at h
  · cases h
    exact Nat.le_trans (length_countDigits _ _) (length_readExponentSign _)
  · cases h

theorem length_skipScale {text rest : List Char} (h : skipScale text = .ok rest) :
    rest.length ≤ text.length := by
  unfold skipScale at h
  split at h
  · exact Nat.le_succ_of_le (length_skipExponent h)
  · exact Nat.le_succ_of_le (length_skipExponent h)
  · cases h
    exact Nat.le_refl _

theorem length_skipMagnitude {text rest : List Char} (h : skipMagnitude text = .ok rest) :
    rest.length < text.length := by
  unfold skipMagnitude at h
  split at h
  · cases h
  · next c tail =>
    split at h
    · next hc =>
      split at h
      · cases h
      · have hd : (countDigits 0 (c :: tail)).2.length < (c :: tail).length := by
          simp only [countDigits, if_pos hc]
          exact Nat.lt_succ_of_le (length_countDigits _ _)
        split at h
        · next digits he =>
          split at h
          · have hs := length_skipScale h
            have hn := length_countDigits 0 digits
            rw [he] at hd
            simp only [List.length_cons] at hd ⊢
            omega
          · cases h
        · exact Nat.lt_of_le_of_lt (length_skipScale h) hd
    · cases h

theorem length_skipNumber {text rest : List Char} (h : skipNumber text = .ok rest) :
    rest.length < text.length := by
  unfold skipNumber at h
  split at h
  · exact Nat.lt_succ_of_lt (length_skipMagnitude h)
  · exact length_skipMagnitude h

end Roster.Json
