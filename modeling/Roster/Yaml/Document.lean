import Roster.Yaml.Lexer

/-! From tokens to the first document of a text. -/
namespace Roster.Yaml

/-! ## Events

Texts, aliases, and the starts and ends of collections. What has begun stands on a stack of phases,
the innermost first. A node that is left out is an empty plain text. -/

inductive EventKind where
  | aliasOf (name : List Char)
  | scalar (text : List Char) (style : Style) (tag : Option (List UInt8))
  | sequenceStart
  | sequenceEnd
  | mappingStart
  | mappingEnd
  deriving DecidableEq

structure Event where
  kind : EventKind
  anchor : Option (List Char)
  mark : Mark
  deriving DecidableEq

namespace Event

def empty (mark : Mark) : Event := ⟨.scalar [] .plain none, none, mark⟩

def plainEvent (kind : EventKind) (mark : Mark) : Event := ⟨kind, none, mark⟩

end Event

inductive Site where
  | block
  /-- A block node, or a sequence that is no further in than the mapping it is in. -/
  | blockOrEntries
  | flow
  deriving DecidableEq

/-- What is to be read next. A collection is known by the mark at which it starts. -/
inductive Phase where
  | node (site : Site)
  | blockEntries (start : Mark)
  | bareEntries
  | blockKey (start : Mark)
  | blockValue (start : Mark)
  | flowEntries (start : Mark) (first : Bool)
  | pairKey
  | pairValue
  | pairEnd
  | flowKey (start : Mark) (first : Bool)
  | flowValue (start : Mark)
  | flowNoValue (start : Mark)
  deriving DecidableEq

/-- What the directives of a document say a handle stands for. -/
abbrev Handles := List (List Char × List UInt8)

/-- What stands in front of a node: at most one anchor and one tag, in either order. -/
structure Properties where
  anchor : Option (List Char)
  tag : Option (RawTag × Mark)
  deriving DecidableEq

namespace Properties

def none : Properties := ⟨Option.none, Option.none⟩

def isNone (p : Properties) : Bool := p == none

def split : List Token → Properties × List Token
  | ⟨.anchor name, _, _⟩ :: ⟨.tag tag, mark, _⟩ :: tokens => (⟨some name, some (tag, mark)⟩, tokens)
  | ⟨.tag tag, mark, _⟩ :: ⟨.anchor name, _, _⟩ :: tokens => (⟨some name, some (tag, mark)⟩, tokens)
  | ⟨.anchor name, _, _⟩ :: tokens => (⟨some name, Option.none⟩, tokens)
  | ⟨.tag tag, mark, _⟩ :: tokens => (⟨Option.none, some (tag, mark)⟩, tokens)
  | tokens => (none, tokens)

end Properties

def resolveTag (handles : Handles) (tag : RawTag) : Option (List UInt8) :=
  if tag.handle = [] then some (untilZero tag.suffix)
  else
    (handles.lookup tag.handle).map fun uri => untilZero uri ++ untilZero tag.suffix

/-- The tag of a text. A lone exclamation mark says no more than that it is a text. -/
def scalarTag (tag : Option (List UInt8)) : Option (List UInt8) :=
  tag.filter (· != ['!'.toUInt8])

structure Move where
  event : Option Event
  phases : List Phase
  tokens : List Token

namespace Move

def node (handles : Handles) (site : Site) (phases : List Phase) (tokens : List Token) :
    Except (Option Fault) Move :=
  match tokens with
  | ⟨.aliasOf name, mark, _⟩ :: rest =>
    .ok ⟨some (.plainEvent (.aliasOf name) mark), phases, rest⟩
  | _ =>
    let (properties, rest) := Properties.split tokens
    match rest with
    | [] => .error none
    | token :: more =>
      let start := (tokens.head?.map Token.start).getD token.start
      let event (kind : EventKind) : Option Event := some ⟨kind, properties.anchor, start⟩
      let finish (tag : Option (List UInt8)) : Except (Option Fault) Move :=
        match token.kind with
        | .scalar text style =>
          .ok ⟨event (.scalar text style (scalarTag tag)), phases, more⟩
        | .flowSequenceStart =>
          .ok ⟨event .sequenceStart, .flowEntries token.start true :: phases, more⟩
        | .flowMappingStart =>
          .ok ⟨event .mappingStart, .flowKey token.start true :: phases, more⟩
        | kind =>
          if kind = .blockEntry ∧ site = .blockOrEntries then
            .ok ⟨event .sequenceStart, .bareEntries :: phases, rest⟩
          else if kind = .blockSequenceStart ∧ site ≠ .flow then
            .ok ⟨event .sequenceStart, .blockEntries token.start :: phases, more⟩
          else if kind = .blockMappingStart ∧ site ≠ .flow then
            .ok ⟨event .mappingStart, .blockKey token.start :: phases, more⟩
          else if properties.isNone then
            let context := if site = .flow then Context.flowNode else Context.blockNode
            .error (some (.malformed .missingContent token.start (some (context, start))))
          else .ok ⟨event (.scalar [] .plain tag), phases, rest⟩
      match properties.tag with
      | none => finish none
      | some (tag, mark) =>
        match resolveTag handles tag with
        | some tag => finish (some tag)
        | none => .error (some (.malformed .undefinedHandle mark (some (.node, start))))

def goTo (site : Site) (phases : List Phase) (tokens : List Token) : Except (Option Fault) Move :=
  .ok ⟨none, .node site :: phases, tokens⟩

def skipNode (mark : Mark) (phases : List Phase) (tokens : List Token) :
    Except (Option Fault) Move :=
  .ok ⟨some (.empty mark), phases, tokens⟩

def finish (kind : EventKind) (mark : Mark) (phases : List Phase) (tokens : List Token) :
    Except (Option Fault) Move :=
  .ok ⟨some (.plainEvent kind mark), phases, tokens⟩

def nodeUnless (absent : List TokenKind) (mark : Mark) (site : Site) (phases : List Phase)
    (tokens : List Token) : Except (Option Fault) Move :=
  match tokens with
  | [] => .error none
  | token :: _ =>
    if token.kind ∈ absent then skipNode mark phases tokens else goTo site phases tokens

def fail (problem : Problem) (token : Token) (context : Context) (start : Mark) :
    Except (Option Fault) Move :=
  .error (some (.malformed problem token.start (some (context, start))))

def blockEntries (start : Mark) (phases : List Phase) (token : Token) (rest : List Token) :
    Except (Option Fault) Move :=
  match token.kind with
  | .blockEntry =>
    nodeUnless [.blockEntry, .blockEnd] token.stop .block (.blockEntries start :: phases) rest
  | .blockEnd => finish .sequenceEnd token.start phases rest
  | _ => fail .missingEntry token .blockSequence start

/-- Entries without a collection token of their own end at anything that is no entry. -/
def bareEntries (phases : List Phase) (token : Token) (rest : List Token) :
    Except (Option Fault) Move :=
  match token.kind with
  | .blockEntry =>
    nodeUnless [.blockEntry, .key, .value, .blockEnd] token.stop .block (.bareEntries :: phases)
      rest
  | _ => finish .sequenceEnd token.start phases (token :: rest)

def blockKey (start : Mark) (phases : List Phase) (token : Token) (rest : List Token) :
    Except (Option Fault) Move :=
  match token.kind with
  | .key =>
    nodeUnless [.key, .value, .blockEnd] token.stop .blockOrEntries (.blockValue start :: phases)
      rest
  | .blockEnd => finish .mappingEnd token.start phases rest
  | _ => fail .missingKey token .blockMapping start

def blockValue (start : Mark) (phases : List Phase) (token : Token) (rest : List Token) :
    Except (Option Fault) Move :=
  match token.kind with
  | .value =>
    nodeUnless [.key, .value, .blockEnd] token.stop .blockOrEntries (.blockKey start :: phases) rest
  | _ => skipNode token.start (.blockKey start :: phases) (token :: rest)

/-- An entry of a flow sequence; a key makes it a mapping of one pair. -/
def flowEntry (start : Mark) (phases : List Phase) (tokens : List Token) :
    Except (Option Fault) Move :=
  match tokens with
  | [] => .error none
  | token :: rest =>
    match token.kind with
    | .key =>
      .ok ⟨some (.plainEvent .mappingStart token.start),
        .pairKey :: .flowEntries start false :: phases, rest⟩
    | .flowSequenceEnd => finish .sequenceEnd token.start phases rest
    | _ => goTo .flow (.flowEntries start false :: phases) tokens

def flowEntries (start : Mark) (first : Bool) (phases : List Phase) (token : Token)
    (rest : List Token) : Except (Option Fault) Move :=
  match token.kind with
  | .flowSequenceEnd => finish .sequenceEnd token.start phases rest
  | .flowEntry =>
    if first then flowEntry start phases (token :: rest) else flowEntry start phases rest
  | _ =>
    if first then flowEntry start phases (token :: rest)
    else fail .unclosedSequence token .flowSequence start

/-- The key of a pair in a flow sequence. If it is left out, the token in its place is passed
over. -/
def pairKey (phases : List Phase) (token : Token) (rest : List Token) :
    Except (Option Fault) Move :=
  match token.kind with
  | .value => skipNode token.stop (.pairValue :: phases) rest
  | .flowEntry => skipNode token.stop (.pairValue :: phases) rest
  | .flowSequenceEnd => skipNode token.stop (.pairValue :: phases) rest
  | _ => goTo .flow (.pairValue :: phases) (token :: rest)

/-- A node that may be missing in front of the end of its entry; then it is placed there. -/
def flowNode (close : TokenKind) (phases : List Phase) (tokens : List Token) :
    Except (Option Fault) Move :=
  match tokens with
  | [] => .error none
  | token :: _ => nodeUnless [.flowEntry, close] token.start .flow phases tokens

def pairValue (phases : List Phase) (token : Token) (rest : List Token) :
    Except (Option Fault) Move :=
  match token.kind with
  | .value => flowNode .flowSequenceEnd (.pairEnd :: phases) rest
  | _ => skipNode token.start (.pairEnd :: phases) (token :: rest)

/-- The key of a pair in a flow mapping. Without an indicator the node has no value either. -/
def flowPair (start : Mark) (phases : List Phase) (tokens : List Token) :
    Except (Option Fault) Move :=
  match tokens with
  | [] => .error none
  | token :: rest =>
    match token.kind with
    | .key =>
      match rest with
      | [] => .error none
      | next :: _ =>
        nodeUnless [.value, .flowEntry, .flowMappingEnd] next.start .flow
          (.flowValue start :: phases) rest
    | .flowMappingEnd => finish .mappingEnd token.start phases rest
    | _ => goTo .flow (.flowNoValue start :: phases) tokens

def flowKey (start : Mark) (first : Bool) (phases : List Phase) (token : Token)
    (rest : List Token) : Except (Option Fault) Move :=
  match token.kind with
  | .flowMappingEnd => finish .mappingEnd token.start phases rest
  | .flowEntry =>
    if first then flowPair start phases (token :: rest) else flowPair start phases rest
  | _ =>
    if first then flowPair start phases (token :: rest)
    else fail .unclosedMapping token .flowMapping start

def flowValue (start : Mark) (phases : List Phase) (token : Token) (rest : List Token) :
    Except (Option Fault) Move :=
  match token.kind with
  | .value => flowNode .flowMappingEnd (.flowKey start false :: phases) rest
  | _ => skipNode token.start (.flowKey start false :: phases) (token :: rest)

/-- The move of a phase. There is none, and no fault either, if the tokens do not suffice. -/
def ofPhase (handles : Handles) (phase : Phase) (phases : List Phase) (tokens : List Token) :
    Except (Option Fault) Move :=
  match tokens with
  | [] => .error none
  | token :: rest =>
    match phase with
    | .node site => node handles site phases tokens
    | .blockEntries start => blockEntries start phases token rest
    | .bareEntries => bareEntries phases token rest
    | .blockKey start => blockKey start phases token rest
    | .blockValue start => blockValue start phases token rest
    | .flowEntries start first => flowEntries start first phases token rest
    | .pairKey => pairKey phases token rest
    | .pairValue => pairValue phases token rest
    | .pairEnd => finish .mappingEnd token.start phases tokens
    | .flowKey start first => flowKey start first phases token rest
    | .flowValue start => flowValue start phases token rest
    | .flowNoValue start => skipNode token.start (.flowKey start false :: phases) tokens

end Move

structure EventRun where
  events : List Event
  rest : Except (Option Fault) (List Token)

/-- Moves on until no phase is left. Between two tokens at most four moves are made. -/
def runPhases (handles : Handles) : (fuel : Nat) → List Phase → List Token → EventRun
  | 0, _, _ => ⟨[], .error none⟩
  | _ + 1, [], tokens => ⟨[], .ok tokens⟩
  | fuel + 1, phase :: phases, tokens =>
    match Move.ofPhase handles phase phases tokens with
    | .error fault => ⟨[], .error fault⟩
    | .ok move =>
      let run := runPhases handles fuel move.phases move.tokens
      ⟨move.event.toList ++ run.events, run.rest⟩

/-! ## Documents

A document is kept as far as it can be read: what is wrong behind its last event matters only once
its events are used up. -/

/-- An event of a document, or in place of an alias the event that the alias stands for. -/
inductive Entry where
  | node (event : Event)
  | aliasOf (target : Event)
  deriving DecidableEq

def Entry.event : Entry → Event
  | node event => event
  | aliasOf target => target

structure Document where
  /-- No entry at all stands for an empty text. -/
  entries : List Entry
  /-- Why the document is not whole. -/
  failure : Option Error
  /-- Whether another document, or anything else, follows. -/
  followed : Bool

def defaultHandles : Handles :=
  [(['!'], ['!'.toUInt8]), (['!', '!'], coreUri)]

def readDirectives (versioned : Bool) (handles : Handles) :
    List Token → Except (Option Fault) (Handles × List Token)
  | [] => .error none
  | token :: tokens =>
    match token.kind with
    | .versionDirective major minor =>
      if versioned then .error (some (.malformed .repeatedVersion token.start none))
      else if major = 1 ∧ (minor = 1 ∨ minor = 2) then readDirectives true handles tokens
      else .error (some (.malformed .incompatibleVersion token.start none))
    | .tagDirective handle uri =>
      if (handles.lookup handle).isSome then
        .error (some (.malformed .repeatedTagDirective token.start none))
      else readDirectives versioned (handles ++ [(handle, uri)]) tokens
    | _ => .ok (handles ++ defaultHandles, token :: tokens)

def TokenKind.startsDocument : TokenKind → Bool
  | versionDirective _ _ => true
  | tagDirective _ _ => true
  | documentStart => true
  | _ => false

def TokenKind.isBoundary (kind : TokenKind) : Bool :=
  kind.startsDocument || kind == .documentEnd || kind == .streamEnd

def runContent (handles : Handles) (tokens : List Token) : EventRun :=
  match tokens with
  | [] => ⟨[], .error none⟩
  | token :: _ =>
    if token.kind.isBoundary then ⟨[.empty token.start], .ok tokens⟩
    else runPhases handles (4 * tokens.length + 8) [.node .block] tokens

def EventRun.ofTokens (tokens : List Token) : EventRun :=
  match tokens with
  | [] => ⟨[], .error none⟩
  | token :: _ =>
    if token.kind = .streamEnd then ⟨[], .ok tokens⟩
    else if token.kind.startsDocument then
      match readDirectives false [] tokens with
      | .error fault => ⟨[], .error fault⟩
      | .ok (_, []) => ⟨[], .error none⟩
      | .ok (handles, token :: rest) =>
        if token.kind = .documentStart then runContent handles rest
        else ⟨[], .error (some (.malformed .missingDocumentStart token.start none))⟩
    else runPhases defaultHandles (4 * tokens.length + 8) [.node .block] tokens

/-- Anchors by number. An anchor gets the number of different names before it; the event of a
number is the last one that got it. -/
structure Anchors where
  /-- Every name with its latest number. -/
  numbers : List (List Char × Nat)
  events : List (Nat × Event)

namespace Anchors

def empty : Anchors := ⟨[], []⟩

def size (a : Anchors) : Nat := a.numbers.length

def add (a : Anchors) (event : Event) : Anchors :=
  match event.anchor with
  | none => a
  | some name =>
    ⟨(name, a.size) :: a.numbers.filter (·.1 != name), (a.size, event) :: a.events⟩

end Anchors

/-- Gives the aliases their numbers, up to one whose anchor is unknown. -/
def link (anchors : Anchors) :
    List Event → List (Event × Option Nat) × Anchors × Option Mark
  | [] => ([], anchors, none)
  | event :: events =>
    match event.kind with
    | .aliasOf name =>
      match anchors.numbers.lookup name with
      | none => ([], anchors, some event.mark)
      | some number =>
        let (linked, anchors, unknown) := link anchors events
        ((event, some number) :: linked, anchors, unknown)
    | _ =>
      let (linked, anchors, unknown) := link (anchors.add event) events
      ((event, none) :: linked, anchors, unknown)

def Anchors.entry (anchors : Anchors) (event : Event) : Option Nat → Entry
  | none => .node event
  | some number =>
    match anchors.events.lookup number with
    | some target => .aliasOf target
    | none => .node event

def isFollowed (tokens : List Token) : Bool :=
  match tokens.dropWhile (fun token => token.kind == .documentEnd) with
  | token :: _ => token.kind != .streamEnd
  | [] => true

def Document.ofFeed (feed : Feed) : Document :=
  let run := EventRun.ofTokens feed.tokens
  let (linked, anchors, unknown) := link .empty run.events
  let entries := linked.map fun (event, number) => anchors.entry event number
  let cut : Error := .fault (feed.fault.getD (.malformed .endOfStream .start none))
  match unknown, run.rest with
  | some mark, _ => ⟨entries, some (.unknownAnchor mark), true⟩
  | none, .error (some fault) => ⟨entries, some (.fault fault), true⟩
  | none, .error none => ⟨entries, some cut, true⟩
  | none, .ok [] => ⟨entries, some cut, true⟩
  | none, .ok tokens => ⟨entries, none, isFollowed tokens⟩

def Document.ofText (text : String) : Document := .ofFeed (.ofText text.toList)

end Roster.Yaml
