import Roster.Yaml.Token

/-! What a text can be besides a text: null, a truth value, a whole number or a double. Only a text
without quotes is taken for something else, unless a tag says what it is. -/
namespace Roster.Yaml

def digits? (base : Nat) (text : List Char) : Option Nat :=
  if text = [] then none
  else
    text.foldl
      (fun n? c => do
        let n ← n?
        let digit ← Text.hexValue? c
        if digit < base then some (n * base + digit) else none)
      (some 0)

def baseOf? : Char → Option Nat
  | 'x' => some 16
  | 'o' => some 8
  | 'b' => some 2
  | _ => none

def stripPlus : List Char → List Char
  | '+' :: rest => rest
  | text => text

/-- Digits with a leading zero are no number. -/
def hasLeadingZero (text : List Char) : Bool :=
  let text := match text with
    | '-' :: rest => rest
    | '+' :: rest => rest
    | text => text
  match text with
  | '0' :: c :: rest => (c :: rest).all Char.isDigit
  | _ => false

def below? (limit : Nat) (n? : Option Nat) : Option Nat := n?.filter (· < limit)

def based? (text : List Char) : Option (Option Nat) :=
  match text with
  | '0' :: letter :: rest => (baseOf? letter).map fun base => digits? base rest
  | _ => none

def unsigned? (limit : Nat) (text : List Char) : Option Nat :=
  let plain := stripPlus text
  match below? limit ((based? plain).join) with
  | some n => some n
  | none => if hasLeadingZero text then none else below? limit (digits? 10 plain)

def decimal? (limit : Nat) : List Char → Option Int
  | '-' :: rest => (below? (limit + 1) (digits? 10 rest)).map fun n => -(n : Int)
  | '+' :: rest => (below? limit (digits? 10 rest)).map Int.ofNat
  | rest => (below? limit (digits? 10 rest)).map Int.ofNat

def signed? (limit : Nat) (text : List Char) : Option Int :=
  let based := match text with
    | '-' :: rest => (below? (limit + 1) ((based? rest).join)).map fun n => -(n : Int)
    | _ => none
  match based with
  | some n => some n
  | none => if hasLeadingZero text then none else decimal? limit text

def wordLimit : Nat := UInt64.size

def doubleWordLimit : Nat := wordLimit * wordLimit

/-- A whole number of up to 128 bits; the smallest type that holds it is of no account. -/
def integer? (text : List Char) : Option Int :=
  ((unsigned? wordLimit text).map Int.ofNat).or
    ((signed? (wordLimit / 2) text).or
      (((unsigned? doubleWordLimit text).map Int.ofNat).or (signed? (doubleWordLimit / 2) text)))

def exponent? : List Char → Option Int
  | [] => some 0
  | c :: rest =>
    if c = 'e' ∨ c = 'E' then
      match rest with
      | '-' :: digits => (digits? 10 digits).map fun n => -(n : Int)
      | rest => (digits? 10 (stripPlus rest)).map Int.ofNat
    else none

/-- No double has a decimal exponent as large as this one. -/
def exponentLimit : Int := 400

def double? (digits : Nat) (exponent : Int) : Option Float :=
  let size : Int := (Nat.toDigits 10 digits).length
  if digits = 0 ∨ exponent + size < -exponentLimit then some 0.0
  else if exponentLimit < exponent + size then none
  else
    let x := Float.ofScientific digits (exponent < 0) exponent.natAbs
    if x.isFinite then some x else none

def magnitude? (text : List Char) : Option Float :=
  let whole := text.takeWhile Char.isDigit
  let rest := text.dropWhile Char.isDigit
  let (places, rest) := match rest with
    | '.' :: rest => (rest.takeWhile Char.isDigit, rest.dropWhile Char.isDigit)
    | rest => ([], rest)
  match digits? 10 (whole ++ places), exponent? rest with
  | some digits, some exponent => double? digits (exponent - places.length)
  | _, _ => none

def isInfinity (text : List Char) : Bool :=
  [".inf", ".Inf", ".INF"].any (fun name => name.toList == text)

def isNotANumber (text : List Char) : Bool :=
  [".nan", ".NaN", ".NAN"].any (fun name => name.toList == text)

def float? (text : List Char) : Option Float :=
  let infinity : Float := 1.0 / 0.0
  let plain := stripPlus text
  if isInfinity plain then some infinity
  else if isNotANumber text then some (0.0 / 0.0)
  else
    match text with
    | '-' :: rest => if isInfinity rest then some (-infinity) else (magnitude? rest).map (-·)
    | _ => magnitude? plain

def isNull (text : List Char) : Bool :=
  ["null", "Null", "NULL", "~"].any (fun name => name.toList == text)

def boolean? (text : List Char) : Option Bool :=
  if ["true", "True", "TRUE"].any (fun name => name.toList == text) then some true
  else if ["false", "False", "FALSE"].any (fun name => name.toList == text) then some false
  else none

def plainValue (text : List Char) : Found :=
  if text = [] ∨ isNull text then .null
  else
    match boolean? text with
    | some b => .boolean b
    | none =>
      match integer? text with
      | some n => .integer n
      | none =>
        match if hasLeadingZero text then none else float? text with
        | some x => .float x
        | none => .text text

def coreTag (name : String) : List UInt8 :=
  coreUri ++ name.toList.map fun c => c.toUInt8

/-- What a text is under a tag, or what the tag says it should have been. A tag that starts with an
exclamation mark says nothing; any other unknown tag makes it a text. -/
def taggedValue (text : List Char) (style : Style) (tag : List UInt8) : Except Wanted Found :=
  let wanted (value? : Option Found) (wanted : Wanted) : Except Wanted Found :=
    match value? with
    | some value => .ok value
    | none => .error wanted
  if tag = coreTag "bool" then wanted ((boolean? text).map .boolean) .boolean
  else if tag = coreTag "int" then wanted ((integer? text).map .integer) .integer
  else if tag = coreTag "float" then wanted ((float? text).map .float) .float
  else if tag = coreTag "null" then wanted (if isNull text then some .null else none) .null
  else if tag.head? = some '!'.toUInt8 ∧ style = .plain then .ok (plainValue text)
  else .ok (.text text)

def scalarMismatch (text : List Char) (style : Style) (tag : Option (List UInt8))
    (wanted : Wanted) : Mismatch :=
  match tag with
  | none =>
    if style = .plain then .wrongType (plainValue text) wanted else .wrongType (.text text) wanted
  | some tag =>
    match taggedValue text style tag with
    | .ok found => .wrongType found wanted
    | .error expected => .wrongValue (.text text) expected

/-- Whether a text may stand for a whole number: plain text may, and so may literal text that is
tagged as one. -/
def mayBeInteger (style : Style) (tag : Option (List UInt8)) : Bool :=
  style == .plain || (style == .literal && tag == some (coreTag "int"))

def wordNumber? (text : List Char) (style : Style) (tag : Option (List UInt8)) : Option UInt64 :=
  if mayBeInteger style tag then (unsigned? wordLimit text).map UInt64.ofNat else none

end Roster.Yaml
