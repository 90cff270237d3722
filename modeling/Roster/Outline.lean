import Roster.Config
import Roster.Store

/-! Outlines: values written out for diagnostics, with the names of their fields. An outline is one
line, or a block with one field or element per line, each level four spaces further in. -/
namespace Roster.Outline

inductive Style where
  | line
  | block
  deriving DecidableEq

/-- Moves every line but the first further in. -/
def indent (text : List Char) : List Char :=
  text.flatMap fun c => if c = '\n' then ['\n', ' ', ' ', ' ', ' '] else [c]

def entry (text : List Char) : List Char := "    ".toList ++ indent text ++ ",\n".toList

def field (name : String) (value : List Char) : List Char := name.toList ++ ": ".toList ++ value

def text (s : String) : List Char := Text.quotedChars s.toList

def number (n : Nat) : List Char := (Text.numeral n).toList

def record (style : Style) (name : String) (fields : List (List Char)) : List Char :=
  match style with
  | .line => name.toList ++ " \x7b ".toList ++ ", ".toList.intercalate fields ++ " \x7d".toList
  | .block => name.toList ++ " \x7b\n".toList ++ fields.flatMap entry ++ "\x7d".toList

/-- A list without elements takes no lines of its own. -/
def list (style : Style) (elements : List (List Char)) : List Char :=
  match style, elements with
  | _, [] => "[]".toList
  | .line, elements => '[' :: (", ".toList.intercalate elements ++ [']'])
  | .block, elements => "[\n".toList ++ elements.flatMap entry ++ [']']

def variant (style : Style) (name : String) (content : List Char) : List Char :=
  match style with
  | .line => name.toList ++ '(' :: (content ++ [')'])
  | .block => name.toList ++ "(\n".toList ++ entry content ++ [')']

end Outline

open Outline

def User.outline (style : Style) (u : User) : List Char :=
  record style "User"
    [field "id" (number u.id.toNat), field "name" (text u.name), field "email" (text u.email)]

def Config.outline (style : Style) (c : Config) : List Char :=
  record style "Config" [field "api_url" (text c.apiUrl), field "timeout" (number c.timeout.toNat)]

def Logger.outline (style : Style) (l : Logger) : List Char :=
  record style "Logger" [field "prefix" (text l.tag)]

def Store.outline (style : Style) (s : Store) : List Char :=
  record style "UserStore"
    [field "db_url" (text s.dbUrl), field "users" (list style (s.users.map (User.outline style)))]

/-- Only errors that are a bare message have an outline. -/
def ServiceError.outline? (style : Style) : ServiceError → Option (List Char)
  | .notFound message => some (variant style "NotFound" (text message))
  | .invalidInput message => some (variant style "InvalidInput" (text message))
  | _ => none

def RpcError.outline (style : Style) : RpcError → List Char
  | .notFound message => variant style "NotFound" (text message)
  | .invalidRequest message => variant style "InvalidRequest" (text message)
  | .serviceError message => variant style "ServiceError" (text message)

namespace Outline

@[simp] theorem indent_append (s t : List Char) : indent (s ++ t) = indent s ++ indent t := by
  simp [indent]

theorem indent_of_not_mem {s : List Char} (h : '\n' ∉ s) : indent s = s := by
  induction s with
  | nil => rfl
  | cons c s ih =>
    have hc : c ≠ '\n' := fun e => h (e ▸ List.mem_cons_self)
    have hs : '\n' ∉ s := fun m => h (List.mem_cons_of_mem _ m)
    have := ih hs
    simp only [indent] at this
    simp [indent, hc, this]

end Outline
end Roster
