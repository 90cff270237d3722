import Roster.Json.Error

/-! The tokens of JSON that are spelled out character by character: blanks, words, and texts
between quotes. A reader starts behind the character that tells what is to be read, such as an
opening quote or a backslash, and returns what is left behind the token. A text is either decoded,
or only passed over; passing over does not pair surrogate escapes. -/
namespace Roster.Json

def isBlank (c : Char) : Bool := c == ' ' || c == '\t' || c == '\n' || c == '\r'

def skipBlanks (text : List Char) : List Char := text.dropWhile isBlank

def readWord : List Char → List Char → Except Fault (List Char)
  | [], rest => .ok rest
  | _ :: _, [] => .error (.behind .endOfValue [])
  | letter :: word, c :: rest =>
    if c = letter then readWord word rest else .error (.ahead .expectedWord (c :: rest))

/-- Four hexadecimal digits: one unit of sixteen bits. Text that is too short for them is an
unfinished text, whatever it holds. -/
def readUnit (rest : List Char) : Except Fault (Nat × List Char) :=
  match rest with
  | a :: b :: c :: d :: more =>
    match Text.hexValue? a, Text.hexValue? b, Text.hexValue? c, Text.hexValue? d with
    | some a, some b, some c, some d => .ok (((a * 16 + b) * 16 + c) * 16 + d, more)
    | _, _, _, _ => .error ⟨.invalidEscape, byteCount rest - 4⟩
  | _ =>
    if byteCount rest < 4 then .error (.behind .endOfText [])
    else .error ⟨.invalidEscape, byteCount rest - 4⟩

def isLeading (unit : Nat) : Bool := 0xD800 ≤ unit && unit ≤ 0xDBFF

def isTrailing (unit : Nat) : Bool := 0xDC00 ≤ unit && unit ≤ 0xDFFF

def readEscapeStart : List Char → List Char → Except Fault (List Char)
  | [], rest => .ok rest
  | _ :: _, [] => .error (.behind .endOfText [])
  | sign :: signs, c :: rest =>
    if c = sign then readEscapeStart signs rest
    else .error (.ahead .unfinishedEscape (c :: rest))

def readPartner (lead : Nat) (rest : List Char) : Except Fault (Char × List Char) :=
  match readEscapeStart ['\\', 'u'] rest with
  | .error fault => .error fault
  | .ok digits =>
    match readUnit digits with
    | .error fault => .error fault
    | .ok (unit, more) =>
      if isTrailing unit then
        .ok (Char.ofNat (0x10000 + (lead - 0xD800) * 0x400 + (unit - 0xDC00)), more)
      else .error (.behind .loneSurrogate more)

/-- The character of a `\u` escape, from its digits on. Characters beyond sixteen bits are written
as a leading and a trailing surrogate; a surrogate without its partner stands for nothing. -/
def readCodePoint (rest : List Char) : Except Fault (Char × List Char) :=
  match readUnit rest with
  | .error fault => .error fault
  | .ok (unit, more) =>
    if isTrailing unit then .error (.behind .loneSurrogate more)
    else if isLeading unit then readPartner unit more
    else .ok (Char.ofNat unit, more)

def unescape? : Char → Option Char
  | '"' => some '"'
  | '\\' => some '\\'
  | '/' => some '/'
  | 'b' => some '\x08'
  | 'f' => some '\x0c'
  | 'n' => some '\n'
  | 'r' => some '\r'
  | 't' => some '\t'
  | _ => none

def readEscape : List Char → Except Fault (Char × List Char)
  | [] => .error (.behind .endOfText [])
  | c :: rest =>
    if c = 'u' then readCodePoint rest
    else match unescape? c with
      | some character => .ok (character, rest)
      | none => .error (.ahead .invalidEscape (c :: rest))

def skipEscape : List Char → Except Fault (List Char)
  | [] => .error (.behind .endOfText [])
  | c :: rest =>
    if c = 'u' then (readUnit rest).map Prod.snd
    else match unescape? c with
      | some _ => .ok rest
      | none => .error (.ahead .invalidEscape (c :: rest))

def isControl (c : Char) : Bool := c.toNat < 0x20

theorem length_readUnit {rest more : List Char} {unit : Nat}
    (h : readUnit rest = .ok (unit, more)) : more.length < rest.length := by
  unfold readUnit at h
  split at h
  · split at h
    · cases h; simp; omega
    · cases h
  · split at h <;> cases h

theorem length_readEscapeStart {signs rest more : List Char}
    (h : readEscapeStart signs rest = .ok more) : more.length ≤ rest.length := by
  induction signs, rest using readEscapeStart.induct with
  | case1 rest => cases h; exact Nat.le_refl _
  | case2 => cases h
  | case3 signs c rest ih =>
    simp only [readEscapeStart, if_true] at h
    exact Nat.le_succ_of_le (ih h)
  | case4 sign signs c rest hc =>
    simp only [readEscapeStart, if_neg hc] at h
    cases h

theorem length_readPartner {lead : Nat} {rest more : List Char} {c : Char}
    (h : readPartner lead rest = .ok (c, more)) : more.length < rest.length := by
  unfold readPartner at h
  split at h
  · cases h
  · next digits hs =>
    split at h
    · cases h
    · next hu =>
      split at h
      · rw [Except.ok.injEq, Prod.mk.injEq] at h
        rw [← h.2]
        exact Nat.lt_of_lt_of_le (length_readUnit hu) (length_readEscapeStart hs)
      · cases h

theorem length_readCodePoint {rest more : List Char} {c : Char}
    (h : readCodePoint rest = .ok (c, more)) : more.length < rest.length := by
  unfold readCodePoint at h
  split at h
  · cases h
  · next hu =>
    split at h
    · cases h
    · split at h
      · exact Nat.lt_trans (length_readPartner h) (length_readUnit hu)
      · rw [Except.ok.injEq, Prod.mk.injEq] at h
        rw [← h.2]
        exact length_readUnit hu

theorem length_readEscape {rest more : List Char} {c : Char}
    (h : readEscape rest = .ok (c, more)) : more.length < rest.length := by
  cases rest with
  | nil => cases h
  | cons d rest =>
    simp only [readEscape] at h
    split at h
    · exact Nat.lt_succ_of_lt (length_readCodePoint h)
    · split at h
      · cases h; simp
      · cases h

theorem length_skipEscape {rest more : List Char}
    (h : skipEscape rest = .ok more) : more.length < rest.length := by
  cases rest with
  | nil => cases h
  | cons d rest =>
    simp only [skipEscape] at h
    split at h
    · cases hu : readUnit rest with
      | error f => simp [hu, Except.map] at h
      | ok p =>
        have hp : p.2.length < rest.length := length_readUnit hu
        simp only [hu, Except.map, Except.ok.injEq] at h
        subst h
        exact Nat.lt_succ_of_lt hp
    · split at h
      · cases h; simp
      · cases h

/-- Decodes up to the closing quote; `done` holds what is decoded, last character first. -/
def readTextFrom (done : List Char) (text : List Char) : Except Fault (List Char × List Char) :=
  match text with
  | [] => .error (.behind .endOfText [])
  | c :: rest =>
    if c = '"' then .ok (done.reverse, rest)
    else if c = '\\' then
      match _h : readEscape rest with
      | .ok (character, more) => readTextFrom (character :: done) more
      | .error fault => .error fault
    else if isControl c then .error (.ahead .controlCharacter (c :: rest))
    else readTextFrom (c :: done) rest
termination_by text.length
decreasing_by
  · exact Nat.lt_succ_of_lt (length_readEscape (by assumption))
  · simp

def readText (rest : List Char) : Except Fault (List Char × List Char) := readTextFrom [] rest

def skipText (text : List Char) : Except Fault (List Char) :=
  match text with
  | [] => .error (.behind .endOfText [])
  | c :: rest =>
    if c = '"' then .ok rest
    else if c = '\\' then
      match _h : skipEscape rest with
      | .ok more => skipText more
      | .error fault => .error fault
    else if isControl c then .error (.behind .controlCharacter (c :: rest))
    else skipText rest
termination_by text.length
decreasing_by
  · exact Nat.lt_succ_of_lt (length_skipEscape (by assumption))
  · simp

theorem length_readTextFrom {done text s rest : List Char}
    (h : readTextFrom done text = .ok (s, rest)) : rest.length < text.length := by
  fun_induction readTextFrom done text with
  | case1 => cases h
  | case2 => cases h; simp
  | case3 _ rest character more he _ ih =>
    exact Nat.lt_succ_of_lt (Nat.lt_trans (ih h) (length_readEscape he))
  | case4 => cases h
  | case5 => cases h
  | case6 _ _ _ _ _ _ ih => exact Nat.lt_succ_of_lt (ih h)

theorem length_readText {text s rest : List Char} (h : readText text = .ok (s, rest)) :
    rest.length < text.length :=
  length_readTextFrom h

theorem length_skipText {text rest : List Char} (h : skipText text = .ok rest) :
    rest.length < text.length := by
  fun_induction skipText text with
  | case1 => cases h
  | case2 => cases h; simp
  | case3 rest more he _ ih =>
    exact Nat.lt_succ_of_lt (Nat.lt_trans (ih h) (length_skipEscape he))
  | case4 => cases h
  | case5 => cases h
  | case6 _ _ _ _ _ ih => exact Nat.lt_succ_of_lt (ih h)

theorem length_readWord {word rest more : List Char} (h : readWord word rest = .ok more) :
    more.length ≤ rest.length := by
  induction word, rest using readWord.induct with
  | case1 rest => cases h; exact Nat.le_refl _
  | case2 => cases h
  | case3 word c rest ih =>
    simp only [readWord, if_true] at h
    exact Nat.le_succ_of_le (ih h)
  | case4 letter word c rest hc =>
    simp only [readWord, if_neg hc] at h
    cases h

theorem length_skipBlanks (text : List Char) : (skipBlanks text).length ≤ text.length := by
  induction text with
  | nil => exact Nat.le_refl _
  | cons c rest ih =>
    simp only [skipBlanks, List.dropWhile_cons]
    split
    · exact Nat.le_succ_of_le ih
    · exact Nat.le_refl _

end Roster.Json
