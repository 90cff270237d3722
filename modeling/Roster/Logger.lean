import Roster.Step
import Roster.Text

/-! Lines of a log, and where they are written to. -/
namespace Roster

/-! ## Sinks

A sink holds a limited number of bytes. A text that does not fit is stored as far as it goes, and
the rest is refused; what was stored stays. -/

inductive Refusal where
  | failing (reason : String)
  | takingNothing
  deriving DecidableEq

def Refusal.message : Refusal → String
  | failing reason => reason
  | takingNothing => "failed to write whole buffer"

structure Sink where
  capacity : Option Nat
  refusal : Refusal
  stored : List UInt8
  deriving DecidableEq

namespace Sink

def unlimited : Sink := ⟨none, .takingNothing, []⟩

def taken (s : Sink) (n : Nat) : Nat :=
  match s.capacity with
  | none => n
  | some capacity => min n (capacity - s.stored.length)

/-- Writes the bytes as far as they go. Writing nothing succeeds on a full sink too. -/
def put (s : Sink) (bytes : List UInt8) : Sink × Except Refusal Unit :=
  let n := s.taken bytes.length
  ({ s with stored := s.stored ++ bytes.take n },
    if n = bytes.length then .ok () else .error s.refusal)

def putAll (s : Sink) : List (List UInt8) → Sink × Except Refusal Unit
  | [] => (s, .ok ())
  | fragment :: fragments =>
    match s.put fragment with
    | (s, .ok ()) => s.putAll fragments
    | (s, .error refusal) => (s, .error refusal)

def putLine (s : Sink) (parts : List String) : Sink × Except Refusal Unit :=
  s.putAll ((parts ++ ["\n"]).map Text.bytes)

def text (s : Sink) : String := Text.lossy s.stored

theorem taken_le (s : Sink) (n : Nat) : s.taken n ≤ n := by
  unfold taken
  split <;> omega

@[simp] theorem put_nil (s : Sink) : s.put [] = (s, .ok ()) := by
  have h : s.taken 0 = 0 := Nat.le_zero.mp (s.taken_le 0)
  simp [put, h]

end Sink

/-! ## Loggers

A logger writes one line per message, with its tag in brackets in front. -/

structure Logger where
  tag : String
  deriving DecidableEq

namespace Logger

def default : Logger := ⟨"DEFAULT"⟩

def heading (l : Logger) : String := "[" ++ l.tag ++ "]"

def parts (l : Logger) (message : String) : List String := [l.heading, " ", message]

def line (l : Logger) (message : String) : String := l.heading ++ " " ++ message ++ "\n"

def log {σ : Type} (l : Logger) (message : String) (state : σ) : Step σ Unit :=
  ⟨state, (), l.line message, []⟩

def logTo (l : Logger) (sink : Sink) (message : String) : Sink × Except Refusal Unit :=
  sink.putLine (l.parts message)

end Logger
end Roster
