import Roster.Json.Skip

/-! Records in JSON: how they are read and how they are printed. -/
namespace Roster.Json

/-! ## Values of a wanted type

A value of another type is still read far enough to say in the error what it is. -/

/-- Says what stands there when something else was wanted. The fault lies behind what was read;
a list or an object is not read at all. -/
def mismatch (wanted : Wanted) (c : Char) (rest : List Char) : Fault :=
  let found (value : Found) (rest : List Char) : Fault :=
    .behind (.mismatch (.wrongType value wanted)) rest
  let word (letters : List Char) (value : Found) : Fault :=
    match readWord letters rest with
    | .ok rest => found value rest
    | .error fault => fault
  if c = 'n' then word ['u', 'l', 'l'] .null
  else if c = 't' then word ['r', 'u', 'e'] (.boolean true)
  else if c = 'f' then word ['a', 'l', 's', 'e'] (.boolean false)
  else if c = '-' ∨ c.isDigit then
    match readNumber (c :: rest) with
    | .ok (number, rest) => found number.found rest
    | .error fault => fault
  else if c = '"' then
    match readText rest with
    | .ok (text, rest) => found (.text text) rest
    | .error fault => fault
  else if c = '[' then found .sequence (c :: rest)
  else if c = '{' then found .map (c :: rest)
  else .ahead .expectedValue (c :: rest)

def readWordNumber (text : List Char) : Except Fault (UInt64 × List Char) :=
  match skipBlanks text with
  | [] => .error (.ahead .endOfValue [])
  | c :: rest =>
    if c = '-' ∨ c.isDigit then
      match readNumber (c :: rest) with
      | .ok (.natural n, rest) => .ok (UInt64.ofNat n, rest)
      | .ok (.negative n, rest) =>
        .error (.behind (.mismatch (.wrongValue (.integer (-n)) .wordNumber)) rest)
      | .ok (.float x, rest) =>
        .error (.behind (.mismatch (.wrongType (.float x) .wordNumber)) rest)
      | .error fault => .error fault
    else .error (mismatch .wordNumber c rest)

def readTextValue (text : List Char) : Except Fault (List Char × List Char) :=
  match skipBlanks text with
  | [] => .error (.ahead .endOfValue [])
  | c :: rest => if c = '"' then readText rest else .error (mismatch .text c rest)

def finishText {α : Type} (value : α) (rest : List Char) : Except Fault α :=
  match skipBlanks rest with
  | [] => .ok value
  | c :: rest => .error (.ahead .trailingCharacters (c :: rest))

def readWhole {α : Type} (read : List Char → Except Fault (α × List Char)) (text : String) :
    Except Error α :=
  let text := text.toList
  match read text with
  | .ok (value, rest) => (finishText value rest).mapError (Fault.locate text)
  | .error fault => .error (fault.locate text)

theorem length_readWordNumber {text rest : List Char} {n : UInt64}
    (h : readWordNumber text = .ok (n, rest)) : rest.length ≤ text.length := by
  have hb := length_skipBlanks text
  unfold readWordNumber at h
  split at h
  · cases h
  · next he =>
    rw [he] at hb
    split at h
    · split at h
      · next hn =>
        cases h
        exact Nat.le_trans (length_readNumber hn) hb
      · cases h
      · cases h
      · cases h
    · cases h

theorem length_readTextValue {text s rest : List Char}
    (h : readTextValue text = .ok (s, rest)) : rest.length ≤ text.length := by
  have hb := length_skipBlanks text
  unfold readTextValue at h
  split at h
  · cases h
  · next he =>
    rw [he] at hb
    split at h
    · have := length_readText h
      simp only [List.length_cons] at hb
      omega
    · cases h

/-! ## Records

A record is an object, with its fields in any order and unknown members ignored, or a list of the
field values in the order of the fields. A schema says which fields there are, how each is read into
a draft, and what a draft makes. -/

structure Schema (φ δ α : Type) where
  name : String
  /-- The fields in order. -/
  fields : List φ
  label : φ → String
  blank : δ
  /-- Whether the draft has a value for the field. -/
  holds : δ → φ → Bool
  read : φ → δ → List Char → Except Fault (δ × List Char)
  /-- What a draft makes, or the first field that it lacks. -/
  build : δ → Except φ α
  length_read : ∀ {f d text d' rest}, read f d text = .ok (d', rest) → rest.length ≤ text.length

namespace Schema

variable {φ δ α : Type}

def field? (s : Schema φ δ α) (key : List Char) : Option φ :=
  s.fields.find? (fun f => (s.label f).toList == key)

/-- The text up to the end of an object that cannot be used any more. -/
def passObjectEnd (rest : List Char) : List Char :=
  match skipBlanks rest with
  | '}' :: rest => rest
  | rest => rest

/-- Finds the key of the next member, if there is one, and reads on to behind its opening quote. At
the end of the object the closing brace is left. -/
def nextKey (first : Bool) (text : List Char) : Except Fault (Bool × List Char) :=
  match skipBlanks text with
  | [] => .error (.ahead .endOfObject [])
  | c :: rest =>
    if c = '}' then .ok (false, c :: rest)
    else if first then
      if c = '"' then .ok (true, rest) else .error (.ahead .keyNotText (c :: rest))
    else if c = ',' then
      match skipBlanks rest with
      | [] => .error (.ahead .endOfValue [])
      | k :: more =>
        if k = '"' then .ok (true, more)
        else if k = '}' then .error (.ahead .trailingComma (k :: more))
        else .error (.ahead .keyNotText (k :: more))
    else .error (.ahead .expectedObjectEnd (c :: rest))

/-- The value of the member with the given key. A known key must not come twice; that is noticed
before the value is read. -/
def readMember (s : Schema φ δ α) (draft : δ) (key rest : List Char) :
    Except Fault (δ × List Char) :=
  match s.field? key with
  | some f =>
    if s.holds draft f then
      .error (.behind (.mismatch (.repeatedField (s.label f))) (passObjectEnd rest))
    else
      match readColon rest with
      | .ok rest => s.read f draft rest
      | .error fault => .error fault
  | none =>
    match readColon rest with
    | .ok rest => (skipValue rest).map fun rest => (draft, rest)
    | .error fault => .error fault

theorem length_nextKey {first more : Bool} {text rest : List Char}
    (h : nextKey first text = .ok (more, rest)) : rest.length ≤ text.length := by
  have hb := length_skipBlanks text
  unfold nextKey at h
  split at h
  · cases h
  · next c tail he =>
    rw [he] at hb
    simp only [List.length_cons] at hb
    split at h
    · cases h; exact hb
    · split at h
      · split at h
        · cases h; omega
        · cases h
      · split at h
        · have ht := length_skipBlanks tail
          split at h
          · cases h
          · next hk =>
            rw [hk] at ht
            simp only [List.length_cons] at ht
            split at h
            · cases h; omega
            · split at h <;> cases h
        · cases h

theorem length_readMember {s : Schema φ δ α} {draft next : δ} {key text rest : List Char}
    (h : s.readMember draft key text = .ok (next, rest)) : rest.length ≤ text.length := by
  unfold readMember at h
  split at h
  · split at h
    · cases h
    · split at h
      · next hc => exact Nat.le_trans (s.length_read h) (Nat.le_of_lt (length_readColon hc))
      · cases h
  · split at h
    · next hc =>
      obtain ⟨more, hs, he⟩ := map_eq_ok h
      cases he
      exact Nat.le_trans (length_skipValue hs) (Nat.le_of_lt (length_readColon hc))
    · cases h

def readMembers (s : Schema φ δ α) (first : Bool) (draft : δ) (text : List Char) :
    Except Fault (δ × List Char) :=
  match _h : nextKey first text with
  | .error fault => .error fault
  | .ok (false, rest) => .ok (draft, rest)
  | .ok (true, rest) =>
    match _k : readText rest with
    | .error fault => .error fault
    | .ok (key, more) =>
      match _m : s.readMember draft key more with
      | .error fault => .error fault
      | .ok (draft, rest) => s.readMembers false draft rest
termination_by text.length
decreasing_by
  exact Nat.lt_of_le_of_lt (length_readMember _m)
    (Nat.lt_of_lt_of_le (length_readText _k) (length_nextKey _h))

def nextElement (first : Bool) (text : List Char) : Except Fault (Bool × List Char) :=
  match skipBlanks text with
  | [] => .error (.ahead .endOfList [])
  | c :: rest =>
    if c = ']' then .ok (false, c :: rest)
    else if first then .ok (true, c :: rest)
    else if c = ',' then
      match skipBlanks rest with
      | [] => .error (.ahead .endOfValue [])
      | d :: more =>
        if d = ']' then .error (.ahead .trailingComma (d :: more)) else .ok (true, d :: more)
    else .error (.ahead .expectedListEnd (c :: rest))

def readElements (s : Schema φ δ α) (draft : δ) (text : List Char) (count : Nat) :
    List φ → Except Fault (δ × Nat × List Char)
  | [] => .ok (draft, count, text)
  | f :: fields =>
    match nextElement (count = 0) text with
    | .error fault => .error fault
    | .ok (false, rest) => .ok (draft, count, rest)
    | .ok (true, rest) =>
      match s.read f draft rest with
      | .error fault => .error fault
      | .ok (draft, rest) => s.readElements draft rest (count + 1) fields

def readObjectEnd (text : List Char) : Except Fault (List Char) :=
  match skipBlanks text with
  | [] => .error (.ahead .endOfObject [])
  | c :: rest =>
    if c = '}' then .ok rest
    else if c = ',' then .error (.ahead .trailingComma (c :: rest))
    else .error (.ahead .trailingCharacters (c :: rest))

def readListEnd (text : List Char) : Except Fault (List Char) :=
  match skipBlanks text with
  | [] => .error (.ahead .endOfList [])
  | c :: rest =>
    if c = ']' then .ok rest
    else if c = ',' then
      let more := skipBlanks rest
      .error (.ahead (if more.head? = some ']' then .trailingComma else .trailingCharacters) more)
    else .error (.ahead .trailingCharacters (c :: rest))

/-- A record as an object, from behind the opening brace on. A missing field is noticed last. -/
def readObject (s : Schema φ δ α) (text : List Char) : Except Fault (α × List Char) :=
  match s.readMembers true s.blank text with
  | .error fault => .error fault
  | .ok (draft, rest) =>
    match readObjectEnd rest with
    | .error fault => .error fault
    | .ok rest =>
      match s.build draft with
      | .ok value => .ok (value, rest)
      | .error f => .error (.behind (.mismatch (.missingField (s.label f))) rest)

/-- A record as a list, from behind the opening bracket on. A list may end early if the fields
behind its end are not needed. -/
def readList (s : Schema φ δ α) (text : List Char) : Except Fault (α × List Char) :=
  match s.readElements s.blank text 0 s.fields with
  | .error fault => .error fault
  | .ok (draft, count, rest) =>
    match readListEnd rest with
    | .error fault => .error fault
    | .ok rest =>
      match s.build draft with
      | .ok value => .ok (value, rest)
      | .error _ =>
        .error (.behind (.mismatch (.wrongLength count (.recordOf s.name s.fields.length))) rest)

def readRecord (s : Schema φ δ α) (text : List Char) : Except Fault (α × List Char) :=
  match skipBlanks text with
  | [] => .error (.ahead .endOfValue [])
  | c :: rest =>
    if c = '{' then s.readObject rest
    else if c = '[' then s.readList rest
    else .error (mismatch (.record s.name) c rest)

def decode (s : Schema φ δ α) (text : String) : Except Error α := readWhole s.readRecord text

end Schema

/-! ## Compact text

No blanks, and escapes only where they are needed. Reading a written text back undoes the
escapes. -/

def shortEscape? : Char → Option Char
  | '"' => some '"'
  | '\\' => some '\\'
  | '\x08' => some 'b'
  | '\t' => some 't'
  | '\n' => some 'n'
  | '\x0c' => some 'f'
  | '\r' => some 'r'
  | _ => none

/-- A character as it stands between the quotes. Only control characters below the space need the
long form, so two digits are enough. -/
def escape (c : Char) : List Char :=
  match shortEscape? c with
  | some letter => ['\\', letter]
  | none =>
    if isControl c then
      ['\\', 'u', '0', '0', Nat.digitChar (c.toNat / 16), Nat.digitChar (c.toNat % 16)]
    else [c]

def literalChars (s : List Char) : List Char := '"' :: (s.flatMap escape ++ ['"'])

def literal (s : String) : String := String.ofList (literalChars s.toList)

def object (members : List (String × String)) : String :=
  "\x7b" ++ ",".intercalate (members.map fun m => literal m.1 ++ ":" ++ m.2) ++ "\x7d"

@[simp] theorem toList_literal (s : String) : (literal s).toList = literalChars s.toList := by
  simp [literal]

end Roster.Json
