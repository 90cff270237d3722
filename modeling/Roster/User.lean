import Roster.ServiceError
import Roster.Step

/-! Users: a record of an id, a name and an email address. Nothing is checked on construction;
ids are meant to be unique, but no rule here depends on it. -/
namespace Roster

structure User where
  id : UserId
  name : String
  email : String
  deriving DecidableEq

/-- The number of users a deployment is planned for. The store does not enforce it. -/
def maxUsers : Nat := 1000

def defaultName : String := "Anonymous"

/-- Anything that can serve as a name: a text, a whole number or a truth value. -/
inductive Caption where
  | text (value : String)
  | number (value : Int)
  | flag (value : Bool)

def Caption.render : Caption → String
  | text value => value
  | number value => Text.signedNumeral value
  | flag true => "true"
  | flag false => "false"

namespace User

def named (id : UserId) (name : Caption) (email : String) : User := ⟨id, name.render, email⟩

def displayName (u : User) : String := u.name

def summary (u : User) : String :=
  "User \x7b id: " ++ Text.numeral u.id.toNat ++ ", name: " ++ u.name ++ " \x7d"

def processingMessage (u : User) : String := "Processing user: " ++ u.name

def processingLine (u : User) : String := u.processingMessage ++ "\n"

end User

def formatName (first last : String) : String := first ++ " " ++ last

/-! ## Validation

The checks are loose, and nothing makes them unless asked to. -/

/-- An email address only needs an at sign somewhere. -/
def validateEmail (email : String) : Bool := email.toList.contains '@'

namespace User

def validate (u : User) : Except ServiceError Unit :=
  if u.name.isEmpty then .error (.invalidInput "Name cannot be empty")
  else if validateEmail u.email then .ok ()
  else .error (.invalidInput "Invalid email format")

def isValid (u : User) : Bool :=
  match u.validate with
  | .ok () => true
  | .error _ => false

theorem isValid_iff (u : User) : u.isValid = true ↔ u.name ≠ "" ∧ validateEmail u.email = true := by
  unfold isValid validate
  by_cases hn : u.name.isEmpty = true
  · simp [String.isEmpty_iff.mp hn]
  · have : u.name ≠ "" := fun h => hn (String.isEmpty_iff.mpr h)
    cases he : validateEmail u.email <;> simp [hn, this]

end User
end Roster
