import Roster.Decimal

/-! Well-formed data that does not fit the record it is read into. What was found and what was
wanted are the same for every data format; the spelling of null and of numbers is not. -/
namespace Roster

inductive Found where
  | null
  | boolean (value : Bool)
  | integer (value : Int)
  | float (value : Float)
  | text (value : List Char)
  | sequence
  | map

inductive Wanted where
  | wordNumber
  | text
  | record (name : String)
  | recordOf (name : String) (fields : Nat)
  | fieldName
  | unit
  | integer
  | float
  | boolean
  | null
  deriving DecidableEq

inductive Mismatch where
  | wrongType (found : Found) (wanted : Wanted)
  | wrongValue (found : Found) (wanted : Wanted)
  | wrongLength (length : Nat) (wanted : Wanted)
  | missingField (name : String)
  | repeatedField (name : String)
  | unknownVariant (name : List Char) (known : List String)

structure Spelling where
  null : String
  number : Decimal.Layout

def Wanted.describe : Wanted → String
  | wordNumber => "u64"
  | text => "a string"
  | record name => "struct " ++ name
  | recordOf name fields => "struct " ++ name ++ " with " ++ Text.numeral fields ++ " elements"
  | fieldName => "field identifier"
  | unit => "unit"
  | integer => "an integer"
  | float => "a float"
  | boolean => "a boolean"
  | null => "null"

def backquoted (s : String) : String := "`" ++ s ++ "`"

/-- Integers beyond 64 bits are said to be so. -/
def describeInteger (n : Int) : String :=
  let text := "integer " ++ backquoted (Text.signedNumeral n)
  if (UInt64.size : Int) ≤ n then text ++ " as u128"
  else if n < -((UInt64.size / 2 : Nat) : Int) then text ++ " as i128"
  else text

def Found.describe (spelling : Spelling) : Found → String
  | null => spelling.null
  | boolean true => "boolean `true`"
  | boolean false => "boolean `false`"
  | integer n => describeInteger n
  | float x => "floating point " ++ backquoted (spelling.number.render x)
  | text s => "string " ++ String.ofList (Text.quotedChars s)
  | sequence => "sequence"
  | map => "map"

def Mismatch.message (spelling : Spelling) : Mismatch → String
  | wrongType found wanted =>
    "invalid type: " ++ found.describe spelling ++ ", expected " ++ wanted.describe
  | wrongValue found wanted =>
    "invalid value: " ++ found.describe spelling ++ ", expected " ++ wanted.describe
  | wrongLength length wanted =>
    "invalid length " ++ Text.numeral length ++ ", expected " ++ wanted.describe
  | missingField name => "missing field " ++ backquoted name
  | repeatedField name => "duplicate field " ++ backquoted name
  | unknownVariant name known =>
    "unknown variant " ++ backquoted (String.ofList name) ++ ", expected one of " ++
      ", ".intercalate (known.map backquoted)

end Roster
