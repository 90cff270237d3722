import Roster.Json.Record
import Roster.Yaml.Document
import Roster.Yaml.Scalar

/-! The configuration: an address and a timeout in milliseconds. Every field has a default, so a
draft in which fields are missing still makes a configuration. -/
namespace Roster

structure Config where
  apiUrl : String
  timeout : UInt64
  deriving DecidableEq

namespace Config

def defaultApiUrl : String := "https://api.example.com"

def defaultTimeout : UInt64 := 5000

def default : Config := ⟨defaultApiUrl, defaultTimeout⟩

def duration (c : Config) : Nat × Nat := (c.timeout.toNat / 1000, c.timeout.toNat % 1000)

inductive Field where
  | apiUrl
  | timeout
  deriving DecidableEq

namespace Field

def all : List Field := [apiUrl, timeout]

def label : Field → String
  | apiUrl => "api_url"
  | timeout => "timeout"

def ofName? (name : List Char) : Option Field := all.find? (fun f => f.label.toList == name)

end Field

structure Draft where
  apiUrl : Option (List Char)
  timeout : Option UInt64

namespace Draft

def blank : Draft := ⟨none, none⟩

def holds (d : Draft) : Field → Bool
  | .apiUrl => d.apiUrl.isSome
  | .timeout => d.timeout.isSome

def build (d : Draft) : Config :=
  ⟨(d.apiUrl.map String.ofList).getD defaultApiUrl, d.timeout.getD defaultTimeout⟩

end Draft

/-! ## Configurations in JSON -/

def Draft.readJson (field : Field) (d : Draft) (text : List Char) :
    Except Json.Fault (Draft × List Char) :=
  match field with
  | .apiUrl =>
    (Json.readTextValue text).map fun (url, rest) => ({ d with apiUrl := some url }, rest)
  | .timeout => (Json.readWordNumber text).map fun (n, rest) => ({ d with timeout := some n }, rest)

theorem Draft.length_readJson {field : Field} {d next : Draft} {text rest : List Char}
    (h : Draft.readJson field d text = .ok (next, rest)) : rest.length ≤ text.length := by
  cases field <;> obtain ⟨p, hp, he⟩ := Json.map_eq_ok h <;> cases he
  · exact Json.length_readTextValue hp
  · exact Json.length_readWordNumber hp

def schema : Json.Schema Field Draft Config where
  name := "Config"
  fields := Field.all
  label := Field.label
  blank := Draft.blank
  holds := Draft.holds
  read := Draft.readJson
  build := fun d => .ok d.build
  length_read := Draft.length_readJson

def ofJson (text : String) : Except Json.Error Config := schema.decode text

def toJson (c : Config) : String :=
  Json.object [("api_url", Json.literal c.apiUrl), ("timeout", Text.numeral c.timeout.toNat)]

/-! ## Configurations in YAML

A mapping in which every field may be left out and unknown keys are ignored. An empty text is an
empty mapping. -/

open Yaml (Entry Mark)

def mismatch (event : Yaml.Event) (wanted : Wanted) (field : Option String) : Yaml.Error :=
  let reason := match event.kind with
    | .scalar text style tag => Yaml.scalarMismatch text style tag wanted
    | .sequenceStart => .wrongType .sequence wanted
    | _ => .wrongType .map wanted
  .mismatch reason field event.mark

/-- The text of a key, and the name that its value goes by in errors. Behind an alias the name is
not known. -/
def readKey (entry : Entry) : Except Yaml.Error (List Char × String) :=
  match entry, entry.event.kind with
  | .node _, .scalar text _ _ => .ok (text, String.ofList text)
  | .aliasOf _, .scalar text _ _ => .ok (text, "?")
  | _, _ => .error (mismatch entry.event .fieldName none)

/-- The value of a field. Any scalar will do for the address. -/
def Draft.readYaml (d : Draft) (field : Field) (name : String) (event : Yaml.Event) :
    Except Yaml.Error Draft :=
  match field, event.kind with
  | .apiUrl, .scalar text _ _ => .ok { d with apiUrl := some text }
  | .apiUrl, _ => .error (mismatch event .text (some name))
  | .timeout, .scalar text style tag =>
    match Yaml.wordNumber? text style tag with
    | some n => .ok { d with timeout := some n }
    | none => .error (mismatch event .wordNumber (some name))
  | .timeout, _ => .error (mismatch event .wordNumber (some name))

/-- The entry opens (or closes) a collection. An alias is whole. -/
def opens : Entry → Bool
  | .node event => event.kind == .sequenceStart || event.kind == .mappingStart
  | .aliasOf _ => false

def closes : Entry → Bool
  | .node event => event.kind == .sequenceEnd || event.kind == .mappingEnd
  | .aliasOf _ => false

/-- Reads the members of the mapping that starts at `start`. `depth` collections are open that
belong to the value of an unknown key. If the entries do not suffice the failure of the document
comes up. -/
def readMembers (start : Mark) (failure : Yaml.Error) :
    Draft → (depth : Nat) → List Entry → Except Yaml.Error Draft
  | _, _, [] => .error failure
  | d, depth + 1, entry :: entries =>
    let depth := if opens entry then depth + 2 else if closes entry then depth else depth + 1
    readMembers start failure d depth entries
  | d, 0, entry :: entries =>
    if closes entry then .ok d
    else
      match readKey entry with
      | .error e => .error e
      | .ok (text, name) =>
        match Field.ofName? text, entries with
        | some field, entries =>
          if d.holds field then
            .error (.mismatch (.repeatedField field.label) none start)
          else
            match entries with
            | [] => .error failure
            | value :: entries =>
              match d.readYaml field name value.event with
              | .error e => .error e
              | .ok d => readMembers start failure d 0 entries
        | none, [] => .error failure
        | none, value :: entries =>
          readMembers start failure d (if opens value then 1 else 0) entries

def readMapping (failure : Yaml.Error) : List Entry → Except Yaml.Error Draft
  | [] => .ok .blank
  | entry :: entries =>
    match entry.event.kind with
    | .mappingStart => readMembers entry.event.mark failure .blank 0 entries
    | .scalar [] .plain _ => .ok .blank
    | _ => .error (mismatch entry.event (.record "Config") none)

/-- A failure behind the mapping counts too, but less than a fault in it; a document that follows
counts least. -/
def ofDocument (document : Yaml.Document) : Except Yaml.Error Config :=
  match document.failure, document.entries with
  | some failure, [] => .error failure
  | failure, entries =>
    match readMapping (failure.getD .moreDocuments) entries, failure with
    | .error e, _ => .error e
    | .ok _, some failure => .error failure
    | .ok d, none => if document.followed then .error .moreDocuments else .ok d.build

def ofYaml (text : String) : Except Yaml.Error Config := ofDocument (.ofText text)

end Config
end Roster
