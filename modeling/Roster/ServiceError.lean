import Roster.Json.Error
import Roster.Yaml.Error

/-! Errors of the user service, and how its clients see them. The kind of an error can be told from
the front of its message. -/
namespace Roster

inductive IoError where
  | notFound
  | isDirectory
  | notDirectory
  | nameTooLong
  | nulInName
  | invalidText
  /-- A failure described in other words. -/
  | other (message : String)
  deriving DecidableEq

def IoError.message : IoError → String
  | notFound => "No such file or directory (os error 2)"
  | isDirectory => "Is a directory (os error 21)"
  | notDirectory => "Not a directory (os error 20)"
  | nameTooLong => "File name too long (os error 36)"
  | nulInName => "file name contained an unexpected NUL byte"
  | invalidText => "stream did not contain valid UTF-8"
  | other message => message

inductive ServiceError where
  | notFound (message : String)
  | invalidInput (message : String)
  | io (error : IoError)
  | yaml (error : Yaml.Error)
  | json (error : Json.Error)

namespace ServiceError

inductive Kind where
  | notFound
  | invalidInput
  | io
  | yaml
  | json
  deriving DecidableEq

def kind : ServiceError → Kind
  | notFound _ => .notFound
  | invalidInput _ => .invalidInput
  | io _ => .io
  | yaml _ => .yaml
  | json _ => .json

/-- What the error says for itself, without its kind. -/
def detail : ServiceError → String
  | notFound message => message
  | invalidInput message => message
  | io error => error.message
  | yaml error => error.message
  | json error => error.message

def Kind.title : Kind → String
  | notFound => "Not found"
  | invalidInput => "Invalid input"
  | io => "IO error"
  | yaml => "YAML error"
  | json => "JSON error"

def message (e : ServiceError) : String := e.kind.title ++ ": " ++ e.detail

def cause? (e : ServiceError) : Option String :=
  match e.kind with
  | .notFound => none
  | .invalidInput => none
  | _ => some e.detail

end ServiceError

/-! ## Errors for clients -/

inductive RpcError where
  | notFound (message : String)
  | invalidRequest (message : String)
  | serviceError (message : String)
  deriving DecidableEq

namespace RpcError

def message : RpcError → String
  | notFound message => "Not found: " ++ message
  | invalidRequest message => "Invalid request: " ++ message
  | serviceError message => "Service error: " ++ message

/-- Errors that a client can act upon keep their bare message; all others are told in full. -/
def ofService : ServiceError → RpcError
  | .notFound message => notFound message
  | .invalidInput message => invalidRequest message
  | e => serviceError e.message

end RpcError
end Roster
