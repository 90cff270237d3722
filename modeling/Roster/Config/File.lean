import Roster.Config
import Roster.ServiceError
import Roster.Step

/-! Loading a configuration from a file. The name of the file says in which format it is. -/
namespace Roster

/-! ## Paths

Names between slashes. Empty names and single dots stand for the directory they are in, two dots
for the directory above. -/

abbrev Name := List Char

namespace Path

/-- The names of a path, also the empty ones. -/
def names : List Char → List Name
  | [] => [[]]
  | c :: rest =>
    if c = '/' then [] :: names rest
    else
      match names rest with
      | [] => [[c]]
      | name :: more => (c :: name) :: more

/-- The name stays in the directory it is looked up in. -/
def staysPut (name : Name) : Bool := name == [] || name == ['.']

def isParent (name : Name) : Bool := name == ['.', '.']

def fileName? (path : String) : Option Name :=
  match ((names path.toList).filter (fun name => !staysPut name)).getLast? with
  | some name => if isParent name then none else some name
  | none => none

/-- What stands behind the last dot of a name. A dot at the very front does not count. -/
def extension? (name : Name) : Option Name :=
  match name.reverse.dropWhile (· != '.') with
  | _ :: _ :: _ => some (name.reverse.takeWhile (· != '.')).reverse
  | _ => none

/-- The path names a JSON file. The case of the letters does not matter. -/
def isJson (path : String) : Bool :=
  match (fileName? path).bind extension? with
  | some extension => extension.map Char.toLower == ['j', 's', 'o', 'n']
  | none => false

theorem names_ne_nil (path : List Char) : names path ≠ [] := by
  cases path with
  | nil => simp [names]
  | cons c rest =>
    simp only [names]
    split
    · simp
    · split <;> simp

@[simp] theorem names_slash (rest : List Char) : names ('/' :: rest) = [] :: names rest := by
  simp [names]

end Path

/-! ## Files in memory

A path is followed name by name, from the root if it begins with a slash and from the working
directory otherwise, and every name on the way is looked up in a directory. -/

inductive FileTree where
  | file (content : ByteArray)
  | directory (entries : List (Name × FileTree))

namespace FileTree

def empty : FileTree := directory []

def maxNameBytes : Nat := 255

def maxPathBytes : Nat := 4095

def entries : FileTree → List (Name × FileTree)
  | file _ => []
  | directory entries => entries

def entry? (t : FileTree) (name : Name) : Option FileTree := t.entries.lookup name

def withEntry (name : Name) (t : FileTree) : List (Name × FileTree) → List (Name × FileTree)
  | [] => [(name, t)]
  | (other, old) :: entries =>
    if other = name then (name, t) :: entries else (other, old) :: withEntry name t entries

/-- Creates a file or directory, and the directories on the way to it. A directory that is there
already is kept. -/
def create (new : FileTree) : List Name → FileTree → FileTree
  | [], old =>
    match new, old with
    | directory _, directory entries => directory entries
    | new, _ => new
  | name :: path, t =>
    if Path.staysPut name then create new path t
    else
      directory (withEntry name (create new path ((t.entry? name).getD empty)) t.entries)

/-- A file or directory on the way, and the directories above it up to the root, the nearest
first. -/
structure Position where
  here : FileTree
  above : List FileTree

def Position.enter (p : Position) (name : Name) : Except IoError Position :=
  match p.here with
  | file _ => .error .notDirectory
  | directory _ =>
    if Path.staysPut name then .ok p
    else if Path.isParent name then
      match p.above with
      | [] => .ok p
      | parent :: above => .ok ⟨parent, above⟩
    else if maxNameBytes < (Text.bytes (String.ofList name)).length then .error .nameTooLong
    else
      match p.here.entry? name with
      | some t => .ok ⟨t, p.here :: p.above⟩
      | none => .error .notFound

def Position.follow (p : Position) : List Name → Except IoError Position
  | [] => .ok p
  | name :: path =>
    match p.enter name with
    | .ok p => p.follow path
    | .error e => .error e

theorem follow_append (p : Position) (path more : List Name) :
    p.follow (path ++ more) = (p.follow path).bind fun q => q.follow more := by
  induction path generalizing p with
  | nil => rfl
  | cons name path ih =>
    simp only [List.cons_append, Position.follow]
    cases p.enter name with
    | error e => rfl
    | ok q => exact ih q

end FileTree

structure FileSystem where
  root : FileTree
  /-- The names on the way from the root to the working directory. -/
  working : List Name

/-- The tree as the working directory of a file system with nothing else in it. -/
def FileTree.mounted (t : FileTree) : FileSystem :=
  ⟨directory [("work".toList, t)], ["work".toList]⟩

instance : Coe FileTree FileSystem := ⟨FileTree.mounted⟩

namespace FileSystem

def start (files : FileSystem) (path : List Char) : Except IoError FileTree.Position :=
  let root : FileTree.Position := ⟨files.root, []⟩
  if path.head? = some '/' then .ok root else root.follow files.working

def readBytes (files : FileSystem) (path : String) : Except IoError ByteArray :=
  let length := (Text.bytes path).length
  let path := path.toList
  if '\x00' ∈ path then .error .nulInName
  else if path = [] then .error .notFound
  else if FileTree.maxPathBytes < length then .error .nameTooLong
  else
    match (files.start path).bind (·.follow (Path.names path)) with
    | .error e => .error e
    | .ok ⟨.file content, _⟩ => .ok content
    | .ok ⟨.directory _, _⟩ => .error .isDirectory

/-- The text of the file at a path. The bytes have to be UTF-8 in the strict sense. -/
def readText (files : FileSystem) (path : String) : Except IoError String :=
  match files.readBytes path with
  | .error e => .error e
  | .ok content =>
    match String.fromUTF8? content with
    | some text => .ok text
    | none => .error .invalidText

end FileSystem

/-! ## Loading -/

namespace Config

def parse (json : Bool) (text : String) : Except ServiceError Config :=
  if json then (ofJson text).mapError .json else (ofYaml text).mapError .yaml

/-- Reads the file first; that the file is being loaded is traced before its text is parsed. -/
def load (files : FileSystem) (path : String) : Step FileSystem (Except ServiceError Config) :=
  match files.readText path with
  | .error e => .quiet files (.error (.io e))
  | .ok text =>
    let json := Path.isJson path
    ⟨files, parse json text, "", [.configLoading path json]⟩

end Config
end Roster
