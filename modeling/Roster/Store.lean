import Roster.Logger
import Roster.User

/-! The user store: users in the order in which they were added. Ids may occur more than once; a
look-up finds the earliest user with its id. Nothing is ever removed or changed. -/
namespace Roster

structure Store where
  dbUrl : String
  users : List User
  deriving DecidableEq

namespace Store

def initNotice : String := "UserService initialized"

def empty (dbUrl : String) : Store := ⟨dbUrl, []⟩

def create (dbUrl : String) : Step Store Unit :=
  ⟨empty dbUrl, (), initNotice ++ "\n", [.storeCreated dbUrl]⟩

/-- The announcement goes to a sink. If the sink refuses it there is no store, and no event. -/
def createTo (dbUrl : String) (sink : Sink) : Sink × Except Refusal (Step Store Unit) :=
  match sink.putLine [initNotice] with
  | (sink, .ok ()) => (sink, .ok ⟨empty dbUrl, (), "", [.storeCreated dbUrl]⟩)
  | (sink, .error refusal) => (sink, .error refusal)

def find? (s : Store) (id : UserId) : Option User := s.users.find? (fun u => u.id == id)

def size (s : Store) : Nat := s.users.length

def isEmpty (s : Store) : Bool := s.users.isEmpty

def ids (s : Store) : List UserId := s.users.map User.id

def invalid (s : Store) : List User := s.users.filter (fun u => !u.isValid)

/-- Adds a user behind all others, unchecked. -/
def add (s : Store) (u : User) : Step Store Unit :=
  ⟨{ s with users := s.users ++ [u] }, (), "", [.userAdded u.id]⟩

def find (s : Store) (id : UserId) : Step Store (Option User) :=
  ⟨s, s.find? id, "", [.userLookup id (s.find? id).isSome]⟩

def process (s : Store) : Step Store Unit :=
  ⟨s, (), String.join (s.users.map User.processingLine), []⟩

inductive Query where
  | find (id : UserId)
  | all
  | size
  | isEmpty
  | dbUrl

inductive Op where
  | add (u : User)
  | ask (query : Query)
  | process

inductive Reply where
  | done
  | found (u : Option User)
  | users (users : List User)
  | number (n : Nat)
  | flag (b : Bool)
  | text (s : String)
  deriving DecidableEq

def answer (s : Store) : Query → Step Store Reply
  | .find userId => (s.find userId).map id .found
  | .all => .quiet s (.users s.users)
  | .size => .quiet s (.number s.size)
  | .isEmpty => .quiet s (.flag s.isEmpty)
  | .dbUrl => .quiet s (.text s.dbUrl)

def perform (s : Store) : Op → Step Store Reply
  | .add u => (s.add u).map id fun _ => .done
  | .ask query => s.answer query
  | .process => s.process.map id fun _ => .done

@[simp] theorem users_add (s : Store) (u : User) : (s.add u).state.users = s.users ++ [u] := rfl

@[simp] theorem state_process (s : Store) : s.process.state = s := rfl

theorem state_answer (s : Store) (query : Query) : (s.answer query).state = s := by
  cases query <;> rfl

theorem size_eq_length_ids (s : Store) : s.size = s.ids.length := by
  simp [size, ids]

/-- A user added later never hides an earlier one with its id. -/
theorem find?_add (s : Store) (u : User) (id : UserId) :
    (s.add u).state.find? id = (s.find? id).or (if u.id = id then some u else none) := by
  simp only [find?, users_add, List.find?_append]
  by_cases h : u.id = id <;> simp [h]

end Store
end Roster
