import Roster.Step

/-! A source of user ids. Every call takes the next number of a 64-bit counter that starts at
zero, and answers with that number plus one. -/
namespace Roster

structure IdCounter where
  count : UInt64
  deriving DecidableEq

namespace IdCounter

def fresh : IdCounter := ⟨0⟩

/-- Takes the count as it stands and moves the counter on, in one step. -/
def take (c : IdCounter) : UInt64 × IdCounter := (c.count, ⟨c.count + 1⟩)

def next (c : IdCounter) : UserId × IdCounter := (c.take.1 + 1, c.take.2)

def issue (c : IdCounter) : Nat → List UserId
  | 0 => []
  | n + 1 => c.next.1 :: c.next.2.issue n

end IdCounter
end Roster
