/-! One operation on a state: the state after it, its reply, and what it printed and traced.
A run performs operations one after the other, each on the state the one before it left. -/
namespace Roster

/-! ## Trace events

An event has a level, a fixed message and named data. -/

abbrev UserId := UInt64

inductive Event where
  | storeCreated (dbUrl : String)
  | userAdded (id : UserId)
  | userLookup (id : UserId) (found : Bool)
  | serverStarted (users : Nat)
  | configLoading (path : String) (json : Bool)
  deriving DecidableEq

namespace Event

inductive Level where
  | info
  | debug
  deriving DecidableEq

inductive Datum where
  | text (value : String)
  | number (value : Nat)
  | flag (value : Bool)
  deriving DecidableEq

def level : Event → Level
  | storeCreated _ => .info
  | userAdded _ => .debug
  | userLookup _ _ => .debug
  | serverStarted _ => .info
  | configLoading _ _ => .debug

def message : Event → String
  | storeCreated _ => "user store created"
  | userAdded _ => "adding user"
  | userLookup _ _ => "user lookup"
  | serverStarted _ => "rpc server started"
  | configLoading _ _ => "loading config"

def fields : Event → List (String × Datum)
  | storeCreated dbUrl => [("db_url", .text dbUrl)]
  | userAdded id => [("id", .number id.toNat)]
  | userLookup id found => [("id", .number id.toNat), ("found", .flag found)]
  | serverStarted users => [("users", .number users)]
  | configLoading path json => [("path", .text path), ("json", .flag json)]

def addedId? : Event → Option UserId
  | userAdded id => some id
  | _ => none

end Event

/-! ## Steps and runs -/

structure Step (σ ρ : Type) where
  state : σ
  reply : ρ
  printed : String
  events : List Event

namespace Step

variable {σ τ ρ κ ι : Type}

def quiet (state : σ) (reply : ρ) : Step σ ρ := ⟨state, reply, "", []⟩

def map (f : σ → τ) (g : ρ → κ) (s : Step σ ρ) : Step τ κ :=
  ⟨f s.state, g s.reply, s.printed, s.events⟩

def run (perform : σ → ι → Step σ ρ) : σ → List ι → List (Step σ ρ)
  | _, [] => []
  | s, op :: ops => perform s op :: run perform (perform s op).state ops

def final (perform : σ → ι → Step σ ρ) (s : σ) (ops : List ι) : σ :=
  ops.foldl (fun s op => (perform s op).state) s

def printedAll (steps : List (Step σ ρ)) : String :=
  steps.foldr (fun step text => step.printed ++ text) ""

def eventsAll (steps : List (Step σ ρ)) : List Event := steps.flatMap Step.events

@[simp] theorem run_nil (perform : σ → ι → Step σ ρ) (s : σ) : run perform s [] = [] := rfl

@[simp] theorem run_cons (perform : σ → ι → Step σ ρ) (s : σ) (op : ι) (ops : List ι) :
    run perform s (op :: ops) = perform s op :: run perform (perform s op).state ops := rfl

@[simp] theorem final_nil (perform : σ → ι → Step σ ρ) (s : σ) : final perform s [] = s := rfl

@[simp] theorem final_cons (perform : σ → ι → Step σ ρ) (s : σ) (op : ι) (ops : List ι) :
    final perform s (op :: ops) = final perform (perform s op).state ops := rfl

theorem run_append (perform : σ → ι → Step σ ρ) (s : σ) (ops more : List ι) :
    run perform s (ops ++ more) = run perform s ops ++ run perform (final perform s ops) more := by
  induction ops generalizing s with
  | nil => rfl
  | cons op ops ih => simp [ih]

end Step
end Roster
