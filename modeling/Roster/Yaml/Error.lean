import Roster.Mismatch

/-! Errors of reading YAML text: what is wrong, where, and what was being read at the time. -/
namespace Roster.Yaml

structure Mark where
  offset : Nat
  line : Nat
  column : Nat
  deriving DecidableEq

namespace Mark

def start : Mark := ⟨0, 0, 0⟩

def isStart (m : Mark) : Bool := m.line == 0 && m.column == 0

def next (m : Mark) (c : Char) : Mark := ⟨m.offset + c.utf8Size, m.line, m.column + 1⟩

def through (m : Mark) (run : List Char) : Mark := run.foldl next m

def nextLine (m : Mark) (size : Nat) : Mark := ⟨m.offset + size, m.line + 1, 0⟩

/-- Lines and columns are shown from one. The very start of a text is not shown. -/
def shown (m : Mark) : String :=
  if m.isStart then ""
  else " at line " ++ Text.numeral (m.line + 1) ++ " column " ++ Text.numeral (m.column + 1)

end Mark

inductive Problem where
  | noTokenStart
  | missingColon
  | entryNotAllowed
  | keyNotAllowed
  | valueNotAllowed
  | missingDirectiveName
  | badDirectiveName
  | unknownDirective
  | missingCommentOrBreak
  | longVersion
  | missingVersion
  | missingVersionDot
  | missingExclamation
  | missingBlank
  | missingBlankOrBreak
  | missingAnchorName
  | missingTagEnd
  | missingTagUri
  | missingUriEscape
  | badLeadingOctet
  | badTrailingOctet
  | zeroIndentation
  | tabForIndentation
  | documentIndicator
  | endOfStream
  | unknownEscape
  | missingHexDigit
  | badEscapeCode
  | tabInIndentation
  | unexpectedColon
  | repeatedVersion
  | incompatibleVersion
  | repeatedTagDirective
  | missingDocumentStart
  | undefinedHandle
  | missingContent
  | missingEntry
  | missingKey
  | unclosedSequence
  | unclosedMapping
  deriving DecidableEq

inductive Context where
  | nextToken
  | simpleKey
  | directive
  | versionDirective
  | tagDirective
  | tagDirectiveHandle
  | tagDirectiveHandleEnd
  | tagDirectiveUri
  | anchor
  | aliasName
  | tag
  | tagUri
  | blockScalar
  | quotedScalar
  | quotedScalarEscape
  | plainScalar
  | node
  | blockNode
  | flowNode
  | blockSequence
  | blockMapping
  | flowSequence
  | flowMapping
  deriving DecidableEq

inductive Fault where
  | forbidden (byte : Nat)
  | malformed (problem : Problem) (mark : Mark) (context : Option (Context × Mark))
  deriving DecidableEq

inductive Error where
  | fault (fault : Fault)
  | unknownAnchor (mark : Mark)
  | moreDocuments
  | mismatch (reason : Mismatch) (field : Option String) (mark : Mark)
  /-- A failure described in other words. -/
  | other (message : String)

/-- Null is called a value; doubles are always positional. -/
def spelling : Spelling where
  null := "unit value"
  number := ⟨fun _ => true, .up⟩

def Problem.message : Problem → String
  | noTokenStart => "found character that cannot start any token"
  | missingColon => "could not find expected ':'"
  | entryNotAllowed => "block sequence entries are not allowed in this context"
  | keyNotAllowed => "mapping keys are not allowed in this context"
  | valueNotAllowed => "mapping values are not allowed in this context"
  | missingDirectiveName => "could not find expected directive name"
  | badDirectiveName => "found unexpected non-alphabetical character"
  | unknownDirective => "found unknown directive name"
  | missingCommentOrBreak => "did not find expected comment or line break"
  | longVersion => "found extremely long version number"
  | missingVersion => "did not find expected version number"
  | missingVersionDot => "did not find expected digit or '.' character"
  | missingExclamation => "did not find expected '!'"
  | missingBlank => "did not find expected whitespace"
  | missingBlankOrBreak => "did not find expected whitespace or line break"
  | missingAnchorName => "did not find expected alphabetic or numeric character"
  | missingTagEnd => "did not find the expected '>'"
  | missingTagUri => "did not find expected tag URI"
  | missingUriEscape => "did not find URI escaped octet"
  | badLeadingOctet => "found an incorrect leading UTF-8 octet"
  | badTrailingOctet => "found an incorrect trailing UTF-8 octet"
  | zeroIndentation => "found an indentation indicator equal to 0"
  | tabForIndentation => "found a tab character where an indentation space is expected"
  | documentIndicator => "found unexpected document indicator"
  | endOfStream => "found unexpected end of stream"
  | unknownEscape => "found unknown escape character"
  | missingHexDigit => "did not find expected hexadecimal number"
  | badEscapeCode => "found invalid Unicode character escape code"
  | tabInIndentation => "found a tab character that violates indentation"
  | unexpectedColon => "found unexpected ':'"
  | repeatedVersion => "found duplicate %YAML directive"
  | incompatibleVersion => "found incompatible YAML document"
  | repeatedTagDirective => "found duplicate %TAG directive"
  | missingDocumentStart => "did not find expected <document start>"
  | undefinedHandle => "found undefined tag handle"
  | missingContent => "did not find expected node content"
  | missingEntry => "did not find expected '-' indicator"
  | missingKey => "did not find expected key"
  | unclosedSequence => "did not find expected ',' or ']'"
  | unclosedMapping => "did not find expected ',' or '\x7d'"

def Context.message : Context → String
  | nextToken => "while scanning for the next token"
  | simpleKey => "while scanning a simple key"
  | directive => "while scanning a directive"
  | versionDirective => "while scanning a %YAML directive"
  | tagDirective => "while scanning a %TAG directive"
  | tagDirectiveHandle => "while scanning a tag directive"
  | tagDirectiveHandleEnd => "while parsing a tag directive"
  | tagDirectiveUri => "while parsing a %TAG directive"
  | anchor => "while scanning an anchor"
  | aliasName => "while scanning an alias"
  | tag => "while scanning a tag"
  | tagUri => "while parsing a tag"
  | blockScalar => "while scanning a block scalar"
  | quotedScalar => "while scanning a quoted scalar"
  | quotedScalarEscape => "while parsing a quoted scalar"
  | plainScalar => "while scanning a plain scalar"
  | node => "while parsing a node"
  | blockNode => "while parsing a block node"
  | flowNode => "while parsing a flow node"
  | blockSequence => "while parsing a block collection"
  | blockMapping => "while parsing a block mapping"
  | flowSequence => "while parsing a flow sequence"
  | flowMapping => "while parsing a flow mapping"

/-- The place of a context is shown if it is not the place of the problem. -/
def Fault.message : Fault → String
  | forbidden byte =>
    "control characters are not allowed" ++
      if byte = 0 then "" else " at position " ++ Text.numeral byte
  | malformed problem mark none => problem.message ++ mark.shown
  | malformed problem mark (some (context, start)) =>
    problem.message ++ mark.shown ++ ", " ++ context.message ++
      if start.line = mark.line ∧ start.column = mark.column then "" else start.shown

def Error.message : Error → String
  | fault f => f.message
  | unknownAnchor mark => "unknown anchor" ++ mark.shown
  | moreDocuments => "deserializing from YAML containing more than one document is not supported"
  | mismatch reason field mark =>
    let lead := match field with
      | some name => name ++ ": "
      | none => ""
    lead ++ reason.message spelling ++ mark.shown
  | other message => message

end Roster.Yaml
