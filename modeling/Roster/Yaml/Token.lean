import Roster.Yaml.Source

/-! Tokens of YAML: the indicators, and names and texts as they are meant, not as they are written.
Indentation shows as tokens too: a block collection starts and ends with one. -/
namespace Roster.Yaml

/-- Whether a text stands without quotes; only then can it be something else than a text. A literal
text is a block whose line breaks are kept. -/
inductive Style where
  | plain
  | quoted
  | literal
  | folded
  deriving DecidableEq

/-- A tag in two parts: a handle, which stands for something, and what is appended to that. -/
structure RawTag where
  handle : List Char
  suffix : List UInt8
  deriving DecidableEq

/-- The bytes of a tag count only up to a zero. -/
def untilZero (bytes : List UInt8) : List UInt8 := bytes.takeWhile (· != 0)

def coreUri : List UInt8 := "tag:yaml.org,2002:".toList.map fun c => c.toUInt8

inductive TokenKind where
  | versionDirective (major minor : Nat)
  | tagDirective (handle : List Char) (uri : List UInt8)
  | documentStart
  | documentEnd
  | blockSequenceStart
  | blockMappingStart
  | blockEnd
  | flowSequenceStart
  | flowSequenceEnd
  | flowMappingStart
  | flowMappingEnd
  | blockEntry
  | flowEntry
  | key
  | value
  | aliasOf (name : List Char)
  | anchor (name : List Char)
  | tag (tag : RawTag)
  | scalar (text : List Char) (style : Style)
  | streamEnd
  deriving DecidableEq

structure Token where
  kind : TokenKind
  start : Mark
  /-- Where reading went on behind the token. -/
  stop : Mark
  deriving DecidableEq

/-! ## Gaps

Inside a text, a gap on one line is kept, and a gap with line breaks is folded: a single line feed
becomes a space, of several the first is dropped. -/

inductive Gap where
  | blanks (text : List Char)
  /-- A gap with breaks: the first one, unless it was escaped, and the others. -/
  | lines (first : Option Char) (others : List Char)
  deriving DecidableEq

namespace Gap

def none : Gap := blanks []

def isNone (g : Gap) : Bool := g == none

def hasBreak : Gap → Bool
  | blanks _ => false
  | lines _ _ => true

def addBlank (c : Char) : Gap → Gap
  | blanks text => blanks (text ++ [c])
  | lines first others => lines first others

def addBreak (c : Char) : Gap → Gap
  | blanks _ => lines (some (normalBreak c)) []
  | lines first others => lines first (others ++ [normalBreak c])

def add (c : Char) (rest : List Char) (g : Gap) : Gap :=
  if isHalfBreak c rest then g
  else if isBreak c then g.addBreak c
  else g.addBlank c

def folded : Gap → List Char
  | blanks text => text
  | lines (some '\n') [] => [' ']
  | lines (some '\n') others => others
  | lines first others => first.toList ++ others

def join (done : List Char) (g : Gap) (text : List Char) : List Char :=
  text.reverse ++ (g.folded.reverse ++ done)

@[simp] theorem folded_none : none.folded = [] := rfl

@[simp] theorem join_none (done text : List Char) : join done none text = text.reverse ++ done :=
  rfl

end Gap

/-- Steps over everything that may stand between tokens. A tab may stand only where no key can
start; a line break lets keys start, unless the text is in flow style. -/
def skipGapFrom (flow : Bool) : (allowed comment : Bool) → Mark → List Char → Bool × Cursor
  | allowed, _, mark, [] => (allowed, ⟨[], mark⟩)
  | allowed, comment, mark, c :: rest =>
    if isBreak c then
      skipGapFrom flow (allowed || !flow) (comment && isHalfBreak c rest) (mark.past c rest) rest
    else if comment || c == ' ' || (c == '\t' && (flow || !allowed)) ||
        (c == '\uFEFF' && mark.column == 0) then
      skipGapFrom flow allowed comment (mark.past c rest) rest
    else if c == '#' then skipGapFrom flow allowed true (mark.past c rest) rest
    else (allowed, ⟨c :: rest, mark⟩)

def skipGap (flow allowed : Bool) (c : Cursor) : Bool × Cursor :=
  skipGapFrom flow allowed false c.mark c.rest

/-! ## Text without quotes

It ends where a comment, a document, another line with less indentation or the rest of a
collection begins. -/

structure Setting where
  flow : Bool
  /-- The indentation that further lines need; it does not count in flow style. -/
  indent : Int
  start : Mark

def isFlowIndicator (c : Char) : Bool :=
  c == ',' || c == '[' || c == ']' || c == '{' || c == '}'

/-- In flow style a colon directly in front of one of these is refused. -/
def refusesColon (c : Char) : Bool := isFlowIndicator c || c == '?'

def Setting.endsBefore (s : Setting) (gap : Gap) (mark : Mark) (text : List Char) : Bool :=
  !gap.isNone &&
    ((!s.flow && mark.column < s.indent) || (mark.column == 0 && atDocumentIndicator text) ||
      text.head? == some '#')

def Setting.endsAt (s : Setting) (c : Char) (rest : List Char) : Bool :=
  (c == ':' && atBlank rest) || (s.flow && isFlowIndicator c)

/-- Reads words and the gaps between them; `done` holds what is read, last character first. The
answer also says whether there was a line break behind the last word. -/
def readPlainFrom (s : Setting) :
    (done : List Char) → Gap → Mark → List Char → Except Fault (List Char × Bool × Cursor)
  | done, gap, mark, [] => .ok (done.reverse, gap.hasBreak, ⟨[], mark⟩)
  | done, gap, mark, c :: rest =>
    if isBreak c || isBlank c then
      if c == '\t' && gap.hasBreak && mark.column < s.indent then
        .error (.malformed .tabInIndentation mark (some (.plainScalar, s.start)))
      else readPlainFrom s done (gap.add c rest) (mark.past c rest) rest
    else if s.endsBefore gap mark (c :: rest) then
      .ok (done.reverse, gap.hasBreak, ⟨c :: rest, mark⟩)
    else if s.flow && c == ':' && rest.head?.any refusesColon then
      .error (.malformed .unexpectedColon mark (some (.plainScalar, s.start)))
    else if s.endsAt c rest then .ok (done.reverse, gap.hasBreak, ⟨c :: rest, mark⟩)
    else readPlainFrom s (gap.join done [c]) .none (mark.past c rest) rest

def readPlain (flow : Bool) (indent : Int) (c : Cursor) :
    Except Fault (List Char × Bool × Cursor) :=
  readPlainFrom ⟨flow, indent, c.mark⟩ [] .none c.mark c.rest

/-! ## Text between quotes

Between single quotes only the quote itself needs writing twice; between double quotes a backslash
starts an escape. -/

inductive Quote where
  | single
  | double
  deriving DecidableEq

def Quote.char : Quote → Char
  | single => '\''
  | double => '"'

def unescape? : Char → Option Char
  | '0' => some '\x00'
  | 'a' => some '\x07'
  | 'b' => some '\x08'
  | 't' => some '\t'
  | '\t' => some '\t'
  | 'n' => some '\n'
  | 'v' => some '\x0b'
  | 'f' => some '\x0c'
  | 'r' => some '\r'
  | 'e' => some '\x1b'
  | ' ' => some ' '
  | '"' => some '"'
  | '/' => some '/'
  | '\\' => some '\\'
  | 'N' => some '\x85'
  | '_' => some '\xa0'
  | 'L' => some '\u2028'
  | 'P' => some '\u2029'
  | _ => none

def codeLength? : Char → Option Nat
  | 'x' => some 2
  | 'u' => some 4
  | 'U' => some 8
  | _ => none

def readHex (code : Nat) : Nat → List Char → Option (Nat × List Char)
  | 0, rest => some (code, rest)
  | _ + 1, [] => none
  | n + 1, c :: rest =>
    match Text.hexValue? c with
    | some digit => readHex (code * 16 + digit) n rest
    | none => none

def readEscape (start mark : Mark) : List Char → Except Fault (Char × Mark × List Char)
  | [] => .error (.malformed .unknownEscape mark (some (.quotedScalarEscape, start)))
  | c :: rest =>
    match unescape? c, codeLength? c with
    | some character, _ => .ok (character, mark.through ['\\', c], rest)
    | none, none => .error (.malformed .unknownEscape mark (some (.quotedScalarEscape, start)))
    | none, some n =>
      let digits := mark.through ['\\', c]
      match readHex 0 n rest with
      | none => .error (.malformed .missingHexDigit digits (some (.quotedScalarEscape, start)))
      | some (code, more) =>
        if Nat.isValidChar code then .ok (Char.ofNat code, digits.through (rest.take n), more)
        else .error (.malformed .badEscapeCode digits (some (.quotedScalarEscape, start)))

theorem length_readHex {code n value : Nat} {text rest : List Char}
    (h : readHex code n text = some (value, rest)) : rest.length ≤ text.length := by
  induction n generalizing code text with
  | zero => cases h; exact Nat.le_refl _
  | succ n ih =>
    cases text with
    | nil => cases h
    | cons c text =>
      simp only [readHex] at h
      split at h
      · exact Nat.le_succ_of_le (ih h)
      · cases h

theorem length_readEscape {start mark next : Mark} {text rest : List Char} {c : Char}
    (h : readEscape start mark text = .ok (c, next, rest)) : rest.length < text.length := by
  cases text with
  | nil => cases h
  | cons d text =>
    simp only [readEscape] at h
    split at h
    · cases h; simp
    · cases h
    · split at h
      · cases h
      · next hx =>
        split at h
        · rw [Except.ok.injEq, Prod.mk.injEq, Prod.mk.injEq] at h
          rw [← h.2.2]
          exact Nat.lt_succ_of_le (length_readHex hx)
        · cases h

def readQuotedFrom (quote : Quote) (start : Mark) (done : List Char) (gap : Gap) (mark : Mark)
    (text : List Char) : Except Fault (List Char × Cursor) :=
  match text with
  | [] => .error (.malformed .endOfStream mark (some (.quotedScalar, start)))
  | c :: rest =>
    if isBreak c || isBlank c then
      readQuotedFrom quote start done (gap.add c rest) (mark.past c rest) rest
    else if mark.column == 0 && atDocumentIndicator (c :: rest) then
      .error (.malformed .documentIndicator mark (some (.quotedScalar, start)))
    else if c = quote.char then
      match quote, rest with
      | .single, '\'' :: more =>
        readQuotedFrom quote start (gap.join done [c]) .none (mark.through [c, c]) more
      | _, _ => .ok ((gap.join done []).reverse, ⟨rest, mark.next c⟩)
    else if c = '\\' ∧ quote = .double then
      match rest with
      | '\r' :: '\n' :: more =>
        readQuotedFrom quote start (gap.join done []) (.lines Option.none [])
          ((mark.next c).nextLine 2) more
      | b :: more =>
        if isBreak b then
          readQuotedFrom quote start (gap.join done []) (.lines Option.none [])
            ((mark.next c).nextLine b.utf8Size) more
        else
          match _h : readEscape start mark (b :: more) with
          | .error fault => .error fault
          | .ok (character, next, more) =>
            readQuotedFrom quote start (gap.join done [character]) .none next more
      | [] => .error (.malformed .unknownEscape mark (some (.quotedScalarEscape, start)))
    else readQuotedFrom quote start (gap.join done [c]) .none (mark.next c) rest
termination_by text.length
decreasing_by
  all_goals simp_wf
  all_goals first | omega | skip
  have := length_readEscape _h
  simp at this
  omega

def readQuoted (quote : Quote) (c : Cursor) : Except Fault (List Char × Cursor) :=
  readQuotedFrom quote c.mark [] .none (c.mark.next quote.char) (c.rest.drop 1)

/-! ## Block texts

Everything that is indented far enough below the indicator. Line breaks are kept, or folded
between lines that do not start with a blank. -/

inductive Chomping where
  | strip
  | clip
  | keep
  deriving DecidableEq

/-- What the line of the indicator says. Without an increment the first line of the text shows how
far it is indented. -/
structure BlockHeader where
  chomping : Chomping
  increment : Option Nat
  deriving DecidableEq

def chomping? : List Char → Option (Chomping × List Char)
  | '+' :: rest => some (.keep, rest)
  | '-' :: rest => some (.strip, rest)
  | _ => none

def readIncrement (start : Mark) (c : Cursor) : Except Fault (Option Nat × Cursor) :=
  match c.rest with
  | [] => .ok (none, c)
  | d :: _ =>
    if d == '0' then c.fail .blockScalar start .zeroIndentation
    else if d.isDigit then .ok (some (d.toNat - '0'.toNat), c.skip 1)
    else .ok (none, c)

def readIndicators (start : Mark) (c : Cursor) : Except Fault (BlockHeader × Cursor) :=
  match chomping? c.rest with
  | some (chomping, _) =>
    (readIncrement start (c.skip 1)).map fun (increment, c) => (⟨chomping, increment⟩, c)
  | none =>
    (readIncrement start c).map fun (increment, c) =>
      match increment, chomping? c.rest with
      | some _, some (chomping, _) => (⟨chomping, increment⟩, c.skip 1)
      | _, _ => (⟨.clip, increment⟩, c)

def readHeader (start : Mark) (c : Cursor) : Except Fault (BlockHeader × Cursor) :=
  match readIndicators start c with
  | .error fault => .error fault
  | .ok (header, c) =>
    let c := c.skipToLineEnd
    if atBreak c.rest then .ok (header, c.skipBreak)
    else c.fail .blockScalar start .missingCommentOrBreak

/-- A block text as far as it is read. `first` is the break behind the last line and `others` are
those of the empty lines behind that. -/
structure Block where
  /-- The text, last character first. -/
  done : List Char
  first : Option Char
  others : List Char
  /-- Whether the last line starts with a blank. -/
  blankLine : Bool

namespace Block

def empty : Block := ⟨[], none, [], false⟩

/-- Adds the breaks behind the last line, now that another line follows. A single line feed between
two lines is folded to a space, and of several the first is dropped, unless a line starts with a
blank. -/
def joinLine (folded : Bool) (blankLine : Bool) (b : Block) : Block :=
  let fold := folded && b.first == some '\n' && !b.blankLine && !blankLine
  let first := if fold then (if b.others = [] then [' '] else []) else b.first.toList
  ⟨b.others.reverse ++ (first.reverse ++ b.done), none, [], blankLine⟩

def finish (chomping : Chomping) (b : Block) : List Char :=
  match chomping with
  | .strip => b.done.reverse
  | .clip => b.done.reverse ++ b.first.toList
  | .keep => b.done.reverse ++ b.first.toList ++ b.others

end Block

structure BlockSetting where
  folded : Bool
  start : Mark
  parent : Int

def BlockSetting.indentation (s : BlockSetting) (found : Nat) : Nat :=
  max found (max (s.parent + 1).toNat 1)

/-- Where reading stands: in a line, or in the space in front of one. There the indentation may
still be unknown, and then the widest one so far counts. -/
inductive BlockPlace where
  | line (indent : Nat)
  | space (indent : Option Nat) (widest : Nat)

def readBlockFrom (s : BlockSetting) :
    BlockPlace → Block → Mark → List Char → Except Fault (Block × Cursor)
  | _, b, mark, [] => .ok (b, ⟨[], mark⟩)
  | .line indent, b, mark, c :: rest =>
    if isBreak c then
      if isHalfBreak c rest then readBlockFrom s (.line indent) b (mark.past c rest) rest
      else
        readBlockFrom s (.space (some indent) 0) { b with first := some (normalBreak c) }
          (mark.past c rest) rest
    else readBlockFrom s (.line indent) { b with done := c :: b.done } (mark.past c rest) rest
  | .space indent widest, b, mark, c :: rest =>
    let widest := max widest mark.column
    let before := indent.all (mark.column < ·)
    if before && c == ' ' then
      readBlockFrom s (.space indent widest) b (mark.past c rest) rest
    else if before && c == '\t' then
      .error (.malformed .tabForIndentation mark (some (.blockScalar, s.start)))
    else if isBreak c then
      let others := if isHalfBreak c rest then b.others else b.others ++ [normalBreak c]
      readBlockFrom s (.space indent widest) { b with others } (mark.past c rest) rest
    else
      let indent := indent.getD (s.indentation widest)
      if mark.column = indent then
        let b := b.joinLine s.folded (isBlank c)
        readBlockFrom s (.line indent) { b with done := c :: b.done } (mark.past c rest) rest
      else .ok (b, ⟨c :: rest, mark⟩)

def readBlock (folded : Bool) (parent : Int) (c : Cursor) : Except Fault (List Char × Cursor) :=
  match readHeader c.mark (c.skip 1) with
  | .error fault => .error fault
  | .ok (header, body) =>
    let indent := header.increment.map fun n => (max parent 0).toNat + n
    let setting : BlockSetting := ⟨folded, c.mark, parent⟩
    (readBlockFrom setting (.space indent 0) .empty body.mark body.rest).map fun (b, c) =>
      (b.finish header.chomping, c)

/-! ## Anchors, aliases and tags

A tag is a URI, with bytes outside ASCII written as percent escapes that have to be UTF-8 as far as
their leading bits go. -/

def endsName (text : List Char) : Bool :=
  atBlank text ||
    match text with
    | c :: _ => c == '?' || c == ':' || c == ',' || c == ']' || c == '}' || c == '%' || c == '@' ||
        c == '`'
    | [] => true

def readName (context : Context) (c : Cursor) : Except Fault (List Char × Cursor) :=
  let (name, rest) := (c.skip 1).span isWordChar
  if name ≠ [] ∧ endsName rest.rest then .ok (name, rest)
  else rest.fail context c.mark .missingAnchorName

/-- Whether a URI is part of a directive, and which characters it may hold: outside a short tag the
indicators of flow collections are allowed. -/
structure UriSetting where
  directive : Bool
  verbatim : Bool
  start : Mark

def UriSetting.context (s : UriSetting) : Context :=
  if s.directive then .tagDirectiveUri else .tagUri

def isUriChar (verbatim : Bool) (c : Char) : Bool :=
  isWordChar c || ";/?:@&=+$.!~*'()".toList.contains c || (verbatim && ",[]".toList.contains c)

def sequenceLength? (octet : Nat) : Option Nat :=
  if octet < 0x80 then some 1
  else if octet / 0x20 = 6 then some 2
  else if octet / 0x10 = 14 then some 3
  else if octet / 8 = 30 then some 4
  else none

def octetsAfter (pending octet : Nat) : Except Problem Nat :=
  if pending = 0 then
    match sequenceLength? octet with
    | some length => .ok (length - 1)
    | none => .error .badLeadingOctet
  else if octet / 0x40 = 2 then .ok (pending - 1)
  else .error .badTrailingOctet

def percentOctet? : List Char → Option Nat
  | '%' :: a :: b :: _ =>
    match Text.hexValue? a, Text.hexValue? b with
    | some a, some b => some (a * 16 + b)
    | _, _ => none
  | _ => none

/-- Reads a URI; `pending` bytes of the last character are still to come, and `passed` characters
of an escape are to be passed over. -/
def readUriFrom (s : UriSetting) :
    (done : List UInt8) → (pending passed : Nat) → Mark → List Char →
      Except Fault (List UInt8 × Cursor)
  | done, pending, _, mark, [] =>
    if pending = 0 then .ok (done.reverse, ⟨[], mark⟩)
    else .error (.malformed .missingUriEscape mark (some (s.context, s.start)))
  | done, pending, passed + 1, mark, c :: rest =>
    readUriFrom s done pending passed (mark.next c) rest
  | done, pending, 0, mark, c :: rest =>
    let fail (problem : Problem) : Except Fault (List UInt8 × Cursor) :=
      .error (.malformed problem mark (some (s.context, s.start)))
    if c = '%' ∨ pending ≠ 0 then
      match percentOctet? (c :: rest) with
      | none => fail .missingUriEscape
      | some octet =>
        match octetsAfter pending octet with
        | .error problem => fail problem
        | .ok pending =>
          readUriFrom s (UInt8.ofNat octet :: done) pending 2 (mark.next c) rest
    else if isUriChar s.verbatim c then
      readUriFrom s (UInt8.ofNat c.toNat :: done) 0 0 (mark.next c) rest
    else .ok (done.reverse, ⟨c :: rest, mark⟩)

/-- A URI at the cursor. It must not be empty, unless something stands in front of it already. -/
def readUri (s : UriSetting) (lead : List Char) (c : Cursor) :
    Except Fault (List UInt8 × Cursor) :=
  match readUriFrom s [] 0 0 c.mark c.rest with
  | .error fault => .error fault
  | .ok (uri, rest) =>
    if lead = [] ∧ uri = [] then rest.fail s.context s.start .missingTagUri
    else .ok ((lead.drop 1).map (fun c => UInt8.ofNat c.toNat) ++ uri, rest)

def readHandle (c : Cursor) : List Char × Cursor :=
  let (word, rest) := (c.skip 1).span isWordChar
  if rest.rest.head? = some '!' then ('!' :: (word ++ ['!']), rest.skip 1) else ('!' :: word, rest)

def RawTag.short (suffix : List UInt8) : RawTag :=
  if untilZero suffix = [] then ⟨[], ['!'.toUInt8]⟩ else ⟨['!'], suffix⟩

def readTagParts (c : Cursor) : Except Fault (RawTag × Cursor) :=
  match c.rest with
  | '!' :: '<' :: _ =>
    match readUri ⟨false, true, c.mark⟩ [] (c.skip 2) with
    | .error fault => .error fault
    | .ok (uri, rest) =>
      if rest.rest.head? = some '>' then .ok (⟨[], uri⟩, rest.skip 1)
      else rest.fail .tag c.mark .missingTagEnd
  | _ =>
    let (handle, rest) := readHandle c
    if 1 < handle.length ∧ handle.getLast? = some '!' then
      (readUri ⟨false, false, c.mark⟩ [] rest).map fun (suffix, rest) => (⟨handle, suffix⟩, rest)
    else
      (readUri ⟨false, false, c.mark⟩ handle rest).map fun (suffix, rest) =>
        (RawTag.short suffix, rest)

def readTag (flow : Bool) (c : Cursor) : Except Fault (RawTag × Cursor) :=
  match readTagParts c with
  | .error fault => .error fault
  | .ok (tag, rest) =>
    if atBlank rest.rest || (flow && rest.rest.head? == some ',') then .ok (tag, rest)
    else rest.fail .tag c.mark .missingBlankOrBreak

/-! ## Directives

The lines in front of a document that give the version of YAML or a handle for tags. -/

def maxVersionDigits : Nat := 9

def readVersionNumber (start : Mark) (c : Cursor) : Except Fault (Nat × Cursor) :=
  let (digits, rest) := c.span Char.isDigit
  if maxVersionDigits < digits.length then
    (c.skip maxVersionDigits).fail .versionDirective start .longVersion
  else if digits = [] then c.fail .versionDirective start .missingVersion
  else .ok (Nat.ofDigitChars 10 digits 0, rest)

def readVersion (start : Mark) (c : Cursor) : Except Fault (TokenKind × Cursor) :=
  match readVersionNumber start (c.skipWhile isBlank) with
  | .error fault => .error fault
  | .ok (major, c) =>
    if c.rest.head? = some '.' then
      (readVersionNumber start (c.skip 1)).map fun (minor, c) => (.versionDirective major minor, c)
    else c.fail .versionDirective start .missingVersionDot

def readDirectiveHandle (start : Mark) (c : Cursor) : Except Fault (List Char × Cursor) :=
  if c.rest.head? = some '!' then
    let (handle, rest) := readHandle c
    if handle = ['!'] ∨ handle.getLast? = some '!' then .ok (handle, rest)
    else rest.fail .tagDirectiveHandleEnd start .missingExclamation
  else c.fail .tagDirectiveHandle start .missingExclamation

def readTagDirective (start : Mark) (c : Cursor) : Except Fault (TokenKind × Cursor) :=
  match readDirectiveHandle start (c.skipWhile isBlank) with
  | .error fault => .error fault
  | .ok (handle, c) =>
    if c.rest.head?.any isBlank then
      match readUri ⟨true, true, start⟩ [] (c.skipWhile isBlank) with
      | .error fault => .error fault
      | .ok (uri, c) =>
        if atBlank c.rest then .ok (.tagDirective handle uri, c)
        else c.fail .tagDirective start .missingBlankOrBreak
    else c.fail .tagDirective start .missingBlank

/-- A directive whose percent sign is at the cursor, up to the end of its line. The token ends
before the rest of the line. -/
def readDirective (c : Cursor) : Except Fault (Token × Cursor) :=
  let start := c.mark
  let (name, c) := (c.skip 1).span isWordChar
  if name = [] then c.fail .directive start .missingDirectiveName
  else if atBlank c.rest then
    let result :=
      if name = ['Y', 'A', 'M', 'L'] then readVersion start c
      else if name = ['T', 'A', 'G'] then readTagDirective start c
      else c.fail .directive start .unknownDirective
    match result with
    | .error fault => .error fault
    | .ok (kind, c) =>
      let line := c.skipToLineEnd
      if atBreak line.rest then .ok (⟨kind, start, c.mark⟩, line.skipBreak)
      else line.fail .directive start .missingCommentOrBreak
  else c.fail .directive start .badDirectiveName

end Roster.Yaml
