import Roster.Mismatch

/-! Errors of reading JSON text. While reading, a fault is placed by the number of bytes that are
left behind it; the line and the column are worked out once, for the whole text. -/
namespace Roster.Json

inductive Cause where
  | endOfValue
  | endOfList
  | endOfObject
  | endOfText
  | expectedValue
  | expectedWord
  | expectedColon
  | expectedListEnd
  | expectedObjectEnd
  | trailingComma
  | trailingCharacters
  | keyNotText
  | invalidNumber
  | numberOutOfRange
  | invalidEscape
  | loneSurrogate
  | unfinishedEscape
  | controlCharacter
  | mismatch (reason : Mismatch)
  /-- A fault described in other words. -/
  | other (message : String)

structure Fault where
  cause : Cause
  /-- The number of bytes behind the place of the fault. -/
  left : Nat

structure Error where
  cause : Cause
  /-- Lines are counted from one; zero is for an error that has no place in a text. -/
  line : Nat
  column : Nat

/-- Null is called by its word; doubles are positional while the leading digit is near the point. -/
def spelling : Spelling where
  null := "null"
  number := ⟨fun leading => -5 ≤ leading && leading ≤ 15, .toEven⟩

def Cause.message : Cause → String
  | endOfValue => "EOF while parsing a value"
  | endOfList => "EOF while parsing a list"
  | endOfObject => "EOF while parsing an object"
  | endOfText => "EOF while parsing a string"
  | expectedValue => "expected value"
  | expectedWord => "expected ident"
  | expectedColon => "expected `:`"
  | expectedListEnd => "expected `,` or `]`"
  | expectedObjectEnd => "expected `,` or `\x7d`"
  | trailingComma => "trailing comma"
  | trailingCharacters => "trailing characters"
  | keyNotText => "key must be a string"
  | invalidNumber => "invalid number"
  | numberOutOfRange => "number out of range"
  | invalidEscape => "invalid escape"
  | loneSurrogate => "lone leading surrogate in hex escape"
  | unfinishedEscape => "unexpected end of hex escape"
  | controlCharacter => "control character (\\u0000-\\u001F) found while parsing a string"
  | mismatch m => m.message spelling
  | other message => message

def Error.message (e : Error) : String :=
  if e.line = 0 then e.cause.message
  else e.cause.message ++ " at line " ++ Text.numeral e.line ++ " column " ++ Text.numeral e.column

def byteCount : List Char → Nat
  | [] => 0
  | c :: rest => c.utf8Size + byteCount rest

/-- A fault placed just before the text that is left, at the last byte that was consumed. -/
def Fault.behind (cause : Cause) (rest : List Char) : Fault := ⟨cause, byteCount rest⟩

/-- A fault placed at the first byte of the text that is left, if there is one. -/
def Fault.ahead (cause : Cause) (rest : List Char) : Fault := ⟨cause, byteCount rest - 1⟩

/-- The line, and the column in bytes, that `count` bytes of text reach. -/
def place : List Char → (count line column : Nat) → Nat × Nat
  | [], _, line, column => (line, column)
  | c :: rest, count, line, column =>
    if count = 0 then (line, column)
    else if c = '\n' then place rest (count - 1) (line + 1) 0
    else place rest (count - c.utf8Size) line (column + min count c.utf8Size)

def Fault.locate (text : List Char) (f : Fault) : Error :=
  let (line, column) := place text (byteCount text - f.left) 1 0
  ⟨f.cause, line, column⟩

@[simp] theorem byteCount_cons (c : Char) (rest : List Char) :
    byteCount (c :: rest) = c.utf8Size + byteCount rest := rfl

@[simp] theorem locate_cause (text : List Char) (f : Fault) : (f.locate text).cause = f.cause := rfl

end Roster.Json
