import Roster.Json.Record

/-! Roles of users. A role is known by its lower-case name. In JSON it is this name as a text, or an
object whose only member has the name and the value null. -/
namespace Roster

inductive Role where
  | admin
  | moderator
  | member
  | guest
  deriving DecidableEq

namespace Role

def all : List Role := [admin, moderator, member, guest]

def name : Role → String
  | admin => "admin"
  | moderator => "moderator"
  | member => "member"
  | guest => "guest"

def title : Role → String
  | admin => "Admin"
  | moderator => "Moderator"
  | member => "Member"
  | guest => "Guest"

def isAdmin : Role → Bool
  | admin => true
  | _ => false

def ofName? (name : List Char) : Option Role := all.find? (fun role => role.name.toList == name)

theorem name_injective {r s : Role} (h : r.name = s.name) : r = s := by
  cases r <;> cases s <;> simp_all [name]

theorem ofName?_name (r : Role) : ofName? r.name.toList = some r := by
  cases r <;> decide

theorem isAdmin_iff (r : Role) : r.isAdmin = true ↔ r = admin := by
  cases r <;> simp [isAdmin]

/-! ## Roles in JSON -/

def named (name rest : List Char) : Except Json.Fault (Role × List Char) :=
  match ofName? name with
  | some role => .ok (role, rest)
  | none => .error (.behind (.mismatch (.unknownVariant name (all.map Role.name))) rest)

def readName (text : List Char) : Except Json.Fault (Role × List Char) :=
  match Json.readText text with
  | .ok (name, rest) => named name rest
  | .error fault => .error fault

/-- The name of a role as the key of the only member. An object without members lacks a value, not
a key. -/
def readKey (text : List Char) : Except Json.Fault (Role × List Char) :=
  match Json.skipBlanks text with
  | [] => .error (.ahead .endOfObject [])
  | c :: rest =>
    if c = '"' then readName rest
    else if c = '}' then .error (.ahead .expectedValue (c :: rest))
    else .error (.ahead .keyNotText (c :: rest))

def readNull (text : List Char) : Except Json.Fault (List Char) :=
  match Json.skipBlanks text with
  | [] => .error (.ahead .endOfValue [])
  | c :: rest =>
    if c = 'n' then Json.readWord ['u', 'l', 'l'] rest else .error (Json.mismatch .unit c rest)

def readMember (text : List Char) : Except Json.Fault (Role × List Char) :=
  match readKey text with
  | .error fault => .error fault
  | .ok (role, rest) =>
    match Json.readColon rest with
    | .error fault => .error fault
    | .ok rest =>
      match readNull rest with
      | .error fault => .error fault
      | .ok rest =>
        match Json.skipBlanks rest with
        | [] => .error (.behind .endOfObject [])
        | c :: rest =>
          if c = '}' then .ok (role, rest) else .error (.behind .expectedValue (c :: rest))

def read (text : List Char) : Except Json.Fault (Role × List Char) :=
  match Json.skipBlanks text with
  | [] => .error (.ahead .endOfValue [])
  | c :: rest =>
    if c = '{' then readMember rest
    else if c = '"' then readName rest
    else .error (.ahead .expectedValue (c :: rest))

def ofJson (text : String) : Except Json.Error Role := Json.readWhole read text

def toJson (r : Role) : String := Json.literal r.name

end Role
end Roster
