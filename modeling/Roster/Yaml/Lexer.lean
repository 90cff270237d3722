import Roster.Yaml.Token

/-! From text to tokens. Whether a node is a key shows only when its colon is met. Until then the
place of its key token is kept open, and the tokens behind that place are held back. -/
namespace Roster.Yaml

/-- A node that may turn out to be a key: the number of the token in front of which the key token
would stand, and where the node starts. In block style a node that is no further in than the
collection around it has to be a key. -/
structure PendingKey where
  required : Bool
  number : Nat
  mark : Mark
  deriving DecidableEq

namespace PendingKey

def maxLength : Nat := 1024

/-- The colon has to follow on the same line, and not too far away. -/
def isStale (key : PendingKey) (mark : Mark) : Bool :=
  key.mark.line < mark.line || key.mark.offset + maxLength < mark.offset

def drop (mark : Mark) : Option PendingKey → Except Fault Unit
  | none => .ok ()
  | some key =>
    if key.required then .error (.malformed .missingColon mark (some (.simpleKey, key.mark)))
    else .ok ()

def settle (mark : Mark) : Option PendingKey → Except Fault (Option PendingKey)
  | none => .ok none
  | some key =>
    if key.isStale mark then (drop mark (some key)).map fun _ => none else .ok (some key)

end PendingKey

structure Lexer where
  cursor : Cursor
  /-- The fault that lies behind the text. -/
  beyond : Option Fault
  /-- The indentation of the innermost block collection, and those around it. -/
  indent : Int
  outerIndents : List Int
  /-- The possible key of the innermost flow collection, or of the block around all of them, and
  those further out. -/
  pending : Option PendingKey
  outerPending : List (Option PendingKey)
  /-- Whether a key can start here. -/
  keyAllowed : Bool
  /-- The tokens that are held back, and the number of those before them. -/
  held : List Token
  released : Nat
  ended : Bool

structure Feed where
  tokens : List Token
  fault : Option Fault

namespace Lexer

def ofSource (source : Source) : Lexer where
  cursor := ⟨source.text, .start⟩
  beyond := source.fault
  indent := -1
  outerIndents := []
  pending := none
  outerPending := []
  keyAllowed := true
  held := []
  released := 0
  ended := false

def flow (l : Lexer) : Bool := !l.outerPending.isEmpty

def mark (l : Lexer) : Mark := l.cursor.mark

def rest (l : Lexer) : List Char := l.cursor.rest

def push (l : Lexer) (token : Token) : Lexer := { l with held := l.held ++ [token] }

def pushTo (l : Lexer) (kind : TokenKind) (c : Cursor) : Lexer :=
  { l with cursor := c, held := l.held ++ [⟨kind, l.mark, c.mark⟩] }

def pushIndicator (l : Lexer) (kind : TokenKind) (n : Nat) : Lexer :=
  l.pushTo kind (l.cursor.skip n)

def insert (l : Lexer) (number : Nat) (kind : TokenKind) (mark : Mark) : Lexer :=
  let n := number - l.released
  { l with held := l.held.take n ++ ⟨kind, mark, mark⟩ :: l.held.drop n }

/-- The fault behind the text is met as soon as the text is nearly used up. -/
def lookBeyond (l : Lexer) : Except Fault Lexer :=
  match l.beyond with
  | some fault => if l.rest.drop 3 = [] then .error fault else .ok l
  | none => .ok l

/-- The fault behind the text also wins over one that was met where the text is nearly used up. -/
def lookBeyondFault (l : Lexer) (fault : Fault) : Fault :=
  match l.beyond, fault with
  | some beyond, .malformed _ mark _ =>
    if l.mark.offset + (String.ofList l.rest).utf8ByteSize ≤ mark.offset + 3 then beyond else fault
  | _, _ => fault

def dropStale (l : Lexer) : Except Fault Lexer := do
  let outerPending ← l.outerPending.mapM (PendingKey.settle l.mark)
  let pending ← PendingKey.settle l.mark l.pending
  return { l with pending, outerPending }

def dropKey (l : Lexer) : Except Fault Lexer :=
  (PendingKey.drop l.mark l.pending).map fun _ => { l with pending := none }

def saveKey (l : Lexer) : Except Fault Lexer :=
  if l.keyAllowed then
    l.dropKey.map fun l =>
      let required := !l.flow && l.indent == l.mark.column
      { l with pending := some ⟨required, l.released + l.held.length, l.mark⟩ }
  else .ok l

def closing (column : Int) : Int → List Int → Nat × Int × List Int
  | indent, [] => (0, indent, [])
  | indent, outer :: outers =>
    if column < indent then
      let (n, rest) := closing column outer outers
      (n + 1, rest)
    else (0, indent, outer :: outers)

def unroll (l : Lexer) (column : Int) : Lexer :=
  if l.flow then l
  else
    let (n, indent, outerIndents) := closing column l.indent l.outerIndents
    let ends := List.replicate n (⟨.blockEnd, l.mark, l.mark⟩ : Token)
    { l with indent, outerIndents, held := l.held ++ ends }

/-- Starts a block collection at a column, unless one is there already. Its token goes in front of
the one with the given number. -/
def roll (l : Lexer) (number : Nat) (kind : TokenKind) (mark : Mark) : Lexer :=
  if !l.flow && l.indent < mark.column then
    { l with indent := mark.column, outerIndents := l.indent :: l.outerIndents }.insert number kind
      mark
  else l

def rollHere (l : Lexer) (kind : TokenKind) : Lexer :=
  l.roll (l.released + l.held.length) kind l.mark

/-- The end counts as the start of another line. -/
def fetchStreamEnd (l : Lexer) : Except Fault Lexer :=
  let mark := if l.mark.column = 0 then l.mark else l.mark.nextLine 0
  let l := { l with cursor := ⟨[], mark⟩ }
  (l.unroll (-1)).dropKey.map fun l =>
    { l.pushTo .streamEnd l.cursor with keyAllowed := false, ended := true }

def fetchDirective (l : Lexer) : Except Fault Lexer :=
  match (l.unroll (-1)).dropKey with
  | .error fault => .error fault
  | .ok l =>
    (readDirective l.cursor).map fun (token, c) =>
      { l.push token with cursor := c, keyAllowed := false }

def fetchDocumentIndicator (l : Lexer) (kind : TokenKind) : Except Fault Lexer :=
  (l.unroll (-1)).dropKey.map fun l => { l.pushIndicator kind 3 with keyAllowed := false }

def fetchFlowStart (l : Lexer) (kind : TokenKind) : Except Fault Lexer :=
  l.saveKey.map fun l =>
    { l.pushIndicator kind 1 with
      pending := none
      outerPending := l.pending :: l.outerPending
      keyAllowed := true }

def fetchFlowEnd (l : Lexer) (kind : TokenKind) : Except Fault Lexer :=
  l.dropKey.map fun l =>
    { l.pushIndicator kind 1 with
      pending := l.outerPending.head?.join
      outerPending := l.outerPending.tail
      keyAllowed := false }

def fetchFlowEntry (l : Lexer) : Except Fault Lexer :=
  l.dropKey.map fun l => { l.pushIndicator .flowEntry 1 with keyAllowed := true }

/-- In block style an indicator is allowed only where a key can start, and may start a
collection. -/
def enterBlock (l : Lexer) (problem : Problem) (kind : TokenKind) : Except Fault Lexer :=
  if l.flow then .ok l
  else if l.keyAllowed then .ok (l.rollHere kind)
  else .error (.malformed problem l.mark none)

def fetchBlockEntry (l : Lexer) : Except Fault Lexer :=
  match l.enterBlock .entryNotAllowed .blockSequenceStart with
  | .error fault => .error fault
  | .ok l => l.dropKey.map fun l => { l.pushIndicator .blockEntry 1 with keyAllowed := true }

def fetchKey (l : Lexer) : Except Fault Lexer :=
  match l.enterBlock .keyNotAllowed .blockMappingStart with
  | .error fault => .error fault
  | .ok l => l.dropKey.map fun l => { l.pushIndicator .key 1 with keyAllowed := !l.flow }

def fetchValue (l : Lexer) : Except Fault Lexer :=
  match l.pending with
  | some key =>
    let l := (l.insert key.number .key key.mark).roll key.number .blockMappingStart key.mark
    .ok { l.pushIndicator .value 1 with pending := none, keyAllowed := false }
  | none =>
    (l.enterBlock .valueNotAllowed .blockMappingStart).map fun l =>
      { l.pushIndicator .value 1 with keyAllowed := !l.flow }

def fetchNode (l : Lexer) (read : Cursor → Except Fault (TokenKind × Cursor)) :
    Except Fault Lexer :=
  match l.saveKey with
  | .error fault => .error fault
  | .ok l => (read l.cursor).map fun (kind, c) => { l.pushTo kind c with keyAllowed := false }

def fetchBlockScalar (l : Lexer) (style : Style) : Except Fault Lexer :=
  match l.dropKey with
  | .error fault => .error fault
  | .ok l =>
    (readBlock (style == .folded) l.indent l.cursor).map fun (text, c) =>
      { l.pushTo (.scalar text style) c with keyAllowed := true }

def fetchQuoted (l : Lexer) (quote : Quote) : Except Fault Lexer :=
  l.fetchNode fun c => (readQuoted quote c).map fun (text, c) => (.scalar text .quoted, c)

/-- Behind a plain text that was ended by a line break a key can start. -/
def fetchPlain (l : Lexer) : Except Fault Lexer :=
  match l.saveKey with
  | .error fault => .error fault
  | .ok l =>
    (readPlain l.flow (l.indent + 1) l.cursor).map fun (text, broken, c) =>
      { l.pushTo (.scalar text .plain) c with keyAllowed := broken }

def isIndicator (c : Char) : Bool := "-?:,[]{}#&*!|>'\"%@`".toList.contains c

/-- A plain text cannot start with a blank or an indicator. Some of the indicators can start one if
no blank follows. -/
def startsPlain (flow : Bool) (c : Char) (rest : List Char) : Bool :=
  !(isBlank c || isIndicator c) || (c == '-' && !rest.head?.any isBlank) ||
    (!flow && (c == '?' || c == ':') && !atBlank rest)

def fetchToken (l : Lexer) (c : Char) (rest : List Char) : Except Fault Lexer :=
  let lineStart := l.mark.column == 0
  if lineStart && c == '%' then l.fetchDirective
  else if lineStart && atDocumentIndicator (c :: rest) then
    l.fetchDocumentIndicator (if c == '-' then .documentStart else .documentEnd)
  else if c == '[' then l.fetchFlowStart .flowSequenceStart
  else if c == '{' then l.fetchFlowStart .flowMappingStart
  else if c == ']' then l.fetchFlowEnd .flowSequenceEnd
  else if c == '}' then l.fetchFlowEnd .flowMappingEnd
  else if c == ',' then l.fetchFlowEntry
  else if c == '-' && atBlank rest then l.fetchBlockEntry
  else if c == '?' && (l.flow || atBlank rest) then l.fetchKey
  else if c == ':' && (l.flow || atBlank rest) then l.fetchValue
  else if c == '*' then
    l.fetchNode fun c => (readName .aliasName c).map fun (name, c) => (.aliasOf name, c)
  else if c == '&' then
    l.fetchNode fun c => (readName .anchor c).map fun (name, c) => (.anchor name, c)
  else if c == '!' then
    l.fetchNode fun c => (readTag l.flow c).map fun (tag, c) => (.tag tag, c)
  else if c == '|' && !l.flow then l.fetchBlockScalar .literal
  else if c == '>' && !l.flow then l.fetchBlockScalar .folded
  else if c == '\'' then l.fetchQuoted .single
  else if c == '"' then l.fetchQuoted .double
  else if startsPlain l.flow c rest then l.fetchPlain
  else l.cursor.fail .nextToken l.mark .noTokenStart

def passGap (l : Lexer) : Lexer :=
  let (keyAllowed, cursor) := skipGap l.flow l.keyAllowed l.cursor
  { l with keyAllowed, cursor }

def fetch (l : Lexer) : Except Fault Lexer := do
  let l ← l.passGap.lookBeyond
  let l ← l.dropStale
  let l := l.unroll l.mark.column
  match l.rest with
  | [] => l.fetchStreamEnd
  | c :: rest =>
    match l.fetchToken c rest with
    | .ok l => l.lookBeyond
    | .error fault => .error (l.lookBeyondFault fault)

/-- The number of the first token in front of which a key token may still be inserted. -/
def firstPending? (l : Lexer) : Option Nat :=
  ((l.pending :: l.outerPending).filterMap fun key? => key?.map PendingKey.number).min?

def release (l : Lexer) : List Token × Lexer :=
  let n := match l.firstPending? with
    | some number => number - l.released
    | none => l.held.length
  (l.held.take n, { l with held := l.held.drop n, released := l.released + n })

/-- Every token but the last takes at least one character, so the fuel only has to exceed the
length of the text. -/
def feed : (fuel : Nat) → Lexer → Feed
  | 0, _ => ⟨[], none⟩
  | fuel + 1, l =>
    match if l.held = [] then .ok l else l.dropStale with
    | .error fault => ⟨[], some fault⟩
    | .ok l =>
      let (tokens, l) := l.release
      if l.ended then ⟨tokens, none⟩
      else
        match l.fetch with
        | .error fault => ⟨tokens, some fault⟩
        | .ok l =>
          let more := feed fuel l
          ⟨tokens ++ more.tokens, more.fault⟩

end Lexer

def Feed.ofSource (source : Source) : Feed :=
  (Lexer.ofSource source).feed (source.text.length + 3)

def Feed.ofText (text : List Char) : Feed := ofSource (.ofText text)

end Roster.Yaml
