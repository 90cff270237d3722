import Roster.Json.Record
import Roster.User

/-! Users as JSON records. All three fields are needed. -/
namespace Roster.User

inductive Field where
  | id
  | name
  | email
  deriving DecidableEq

def Field.label : Field → String
  | id => "id"
  | name => "name"
  | email => "email"

structure Draft where
  id : Option UserId
  name : Option (List Char)
  email : Option (List Char)

def Draft.blank : Draft := ⟨none, none, none⟩

def Draft.holds (d : Draft) : Field → Bool
  | .id => d.id.isSome
  | .name => d.name.isSome
  | .email => d.email.isSome

def Draft.read (field : Field) (d : Draft) (text : List Char) :
    Except Json.Fault (Draft × List Char) :=
  match field with
  | .id => (Json.readWordNumber text).map fun (id, rest) => ({ d with id := some id }, rest)
  | .name => (Json.readTextValue text).map fun (name, rest) => ({ d with name := some name }, rest)
  | .email =>
    (Json.readTextValue text).map fun (email, rest) => ({ d with email := some email }, rest)

def Draft.build (d : Draft) : Except Field User :=
  match d.id, d.name, d.email with
  | none, _, _ => .error .id
  | some _, none, _ => .error .name
  | some _, some _, none => .error .email
  | some id, some name, some email => .ok ⟨id, String.ofList name, String.ofList email⟩

theorem Draft.length_read {field : Field} {d next : Draft} {text rest : List Char}
    (h : Draft.read field d text = .ok (next, rest)) : rest.length ≤ text.length := by
  cases field <;> obtain ⟨p, hp, he⟩ := Json.map_eq_ok h <;> cases he
  · exact Json.length_readWordNumber hp
  · exact Json.length_readTextValue hp
  · exact Json.length_readTextValue hp

def schema : Json.Schema Field Draft User where
  name := "User"
  fields := [.id, .name, .email]
  label := Field.label
  blank := Draft.blank
  holds := Draft.holds
  read := Draft.read
  build := Draft.build
  length_read := Draft.length_read

def ofJson (text : String) : Except Json.Error User := schema.decode text

def toJson (u : User) : String :=
  Json.object [("id", Text.numeral u.id.toNat), ("name", Json.literal u.name),
    ("email", Json.literal u.email)]

end Roster.User
