import Roster.Yaml.Error

/-! Text as it reaches the lexer, and a way of walking through it. -/
namespace Roster.Yaml

/-! ## Characters and cursors

A cursor keeps its place. A carriage return in front of a line feed is half of a line break. -/

def isBlank (c : Char) : Bool := c == ' ' || c == '\t'

def isBreak (c : Char) : Bool :=
  c == '\n' || c == '\r' || c == '\x85' || c == '\u2028' || c == '\u2029'

def isWordChar (c : Char) : Bool := c.isAlphanum || c == '_' || c == '-'

def atBreak : List Char → Bool
  | [] => true
  | c :: _ => isBreak c

def atBlank : List Char → Bool
  | [] => true
  | c :: _ => isBlank c || isBreak c

/-- At the line that starts or ends a document. It counts only at the start of a line. -/
def atDocumentIndicator : List Char → Bool
  | '-' :: '-' :: '-' :: rest => atBlank rest
  | '.' :: '.' :: '.' :: rest => atBlank rest
  | _ => false

def isHalfBreak (c : Char) (rest : List Char) : Bool := c == '\r' && rest.head? == some '\n'

/-- The break as it counts in a text. Only the two Unicode separators stay what they are. -/
def normalBreak (c : Char) : Char := if c == '\u2028' || c == '\u2029' then c else '\n'

def Mark.past (m : Mark) (c : Char) (rest : List Char) : Mark :=
  if isHalfBreak c rest then { m with offset := m.offset + 1 }
  else if isBreak c then m.nextLine c.utf8Size
  else m.next c

structure Cursor where
  rest : List Char
  mark : Mark

namespace Cursor

def skip (c : Cursor) (n : Nat) : Cursor :=
  ⟨c.rest.drop n, c.mark.through (c.rest.take n)⟩

def span (p : Char → Bool) (c : Cursor) : List Char × Cursor :=
  let run := c.rest.takeWhile p
  (run, ⟨c.rest.dropWhile p, c.mark.through run⟩)

def skipWhile (p : Char → Bool) (c : Cursor) : Cursor := (c.span p).2

def skipBreak (c : Cursor) : Cursor :=
  match c.rest with
  | '\r' :: '\n' :: rest => ⟨rest, c.mark.nextLine 2⟩
  | d :: rest => if isBreak d then ⟨rest, c.mark.nextLine d.utf8Size⟩ else c
  | [] => c

def skipToLineEnd (c : Cursor) : Cursor :=
  let c := c.skipWhile isBlank
  if c.rest.head? = some '#' then c.skipWhile (fun d => !isBreak d) else c

def fail {α : Type} (c : Cursor) (context : Context) (start : Mark) (problem : Problem) :
    Except Fault α :=
  .error (.malformed problem c.mark (some (context, start)))

end Cursor

/-! ## Blocks

Text comes in blocks, and a block that holds a forbidden character does not come at all: there is
a fault in its place, which is met when the text before is used up. -/

def isAllowed (c : Char) : Bool :=
  let n := c.toNat
  n == 0x09 || n == 0x0A || n == 0x0D || (0x20 ≤ n && n ≤ 0x7E) || n == 0x85 ||
    (0xA0 ≤ n && n ≤ 0xD7FF) || (0xE000 ≤ n && n ≤ 0xFFFD) || 0x10000 ≤ n

def blockBytes : Nat := 16384

structure Source where
  text : List Char
  fault : Option Fault
  deriving DecidableEq

/-- Adds characters to the block that is being filled. `accepted` holds the finished blocks and
`block` the unfinished one, both with the last character first; `size` is that of the block and
`offset` the number of bytes before the next character. -/
def Source.fill (accepted block : List Char) (size offset : Nat) : List Char → Source
  | [] => ⟨(block ++ accepted).reverse, none⟩
  | c :: rest =>
    let full := blockBytes < size + c.utf8Size
    let accepted := if full then block ++ accepted else accepted
    let block := if full then [] else block
    let size := if full then 0 else size
    if isAllowed c then
      fill accepted (c :: block) (size + c.utf8Size) (offset + c.utf8Size) rest
    else ⟨accepted.reverse, some (.forbidden offset)⟩

def Source.ofText (text : List Char) : Source := fill [] [] 0 0 text

theorem Source.fill_eq_of_allowed {text : List Char} (h : ∀ c ∈ text, isAllowed c = true)
    (accepted block : List Char) (size offset : Nat) :
    fill accepted block size offset text = ⟨(block ++ accepted).reverse ++ text, none⟩ := by
  induction text generalizing accepted block size offset with
  | nil => simp [fill]
  | cons c rest ih =>
    have hc := h c List.mem_cons_self
    have hr : ∀ d ∈ rest, isAllowed d = true := fun d m => h d (List.mem_cons_of_mem _ m)
    simp only [fill, hc, if_true]
    rw [ih hr]
    split <;> simp

theorem Source.ofText_of_allowed {text : List Char} (h : ∀ c ∈ text, isAllowed c = true) :
    ofText text = ⟨text, none⟩ := by
  simp [ofText, fill_eq_of_allowed h]

end Roster.Yaml
