import Roster.Store

/-! The server: a handler and a logger. Requests go to the handler; the server itself only logs,
and prints the users on demand. -/
namespace Roster

/-! ## Requests

The handler answers the requests of clients on a store. A registration is checked first, a
missing user is an error, and a listing is a copy that later requests do not change. -/

structure Handler where
  store : Store
  deriving DecidableEq

namespace Handler

inductive Request where
  | add (u : User)
  | register (id : UserId) (name email : String)
  | get (id : UserId)
  | list

inductive Response where
  | done
  | user (u : User)
  | users (users : List User)
  deriving DecidableEq

abbrev Outcome := Except RpcError Response

def create (dbUrl : String) : Step Handler Unit := (Store.create dbUrl).map Handler.mk id

def missing (id : UserId) : RpcError :=
  .ofService (.notFound ("User with id " ++ Text.numeral id.toNat ++ " not found"))

def add (h : Handler) (u : User) : Step Handler Outcome :=
  (h.store.add u).map Handler.mk fun _ => .ok .done

/-- A user that is refused leaves no trace. The refusal is told in full. -/
def register (h : Handler) (u : User) : Step Handler Outcome :=
  match u.validate with
  | .ok () => (h.store.add u).map Handler.mk fun _ => .ok (.user u)
  | .error e => .quiet h (.error (.invalidRequest e.message))

def get (h : Handler) (id : UserId) : Step Handler Outcome :=
  (h.store.find id).map Handler.mk fun
    | some u => .ok (.user u)
    | none => .error (missing id)

def list (h : Handler) : Step Handler Outcome := .quiet h (.ok (.users h.store.users))

def perform (h : Handler) : Request → Step Handler Outcome
  | .add u => h.add u
  | .register id name email => h.register ⟨id, name, email⟩
  | .get id => h.get id
  | .list => h.list

def Request.accepted : Request → List User
  | .add u => [u]
  | .register id name email =>
    let u : User := ⟨id, name, email⟩
    if u.isValid then [u] else []
  | .get _ => []
  | .list => []

@[simp] theorem state_get (h : Handler) (id : UserId) : (h.get id).state = h := rfl

@[simp] theorem state_list (h : Handler) : h.list.state = h := rfl

theorem state_register (h : Handler) (u : User) :
    (h.register u).state = if u.isValid then ⟨(h.store.add u).state⟩ else h := by
  unfold register User.isValid
  cases u.validate <;> rfl

theorem users_perform (h : Handler) (request : Request) :
    (h.perform request).state.store.users = h.store.users ++ request.accepted := by
  cases request with
  | add u => rfl
  | register id name email =>
    simp only [perform, state_register, Request.accepted]
    split <;> simp
  | get id => simp [perform, Request.accepted]
  | list => simp [perform, Request.accepted]

end Handler

/-! ## The server -/

structure Server where
  handler : Handler
  logger : Logger
  deriving DecidableEq

namespace Server

def tag : String := "rpc"

def create (dbUrl : String) : Step Server Unit :=
  (Handler.create dbUrl).map (fun handler => ⟨handler, ⟨tag⟩⟩) id

inductive Op where
  | handle (request : Handler.Request)
  | ask (query : Store.Query)
  | process
  | start
  | log (message : String)

inductive Reply where
  | outcome (outcome : Handler.Outcome)
  | answer (reply : Store.Reply)
  | done

def store (s : Server) : Store := s.handler.store

def withStore (s : Server) (store : Store) : Server := { s with handler := ⟨store⟩ }

def handle (s : Server) (request : Handler.Request) : Step Server Handler.Outcome :=
  (s.handler.perform request).map (fun handler => { s with handler }) id

/-- The line is printed before the event is traced. -/
def start (s : Server) : Step Server Unit :=
  { s.logger.log "RPC Server started" s with events := [.serverStarted s.store.size] }

def log (s : Server) (message : String) : Step Server Unit := s.logger.log message s

def perform (s : Server) : Op → Step Server Reply
  | .handle request => (s.handle request).map id .outcome
  | .ask query => (s.store.answer query).map s.withStore .answer
  | .process => s.store.process.map s.withStore fun _ => .done
  | .start => s.start.map id fun _ => .done
  | .log message => (s.log message).map id fun _ => .done

@[simp] theorem withStore_store (s : Server) : s.withStore s.store = s := rfl

theorem state_ask (s : Server) (query : Store.Query) : (s.perform (.ask query)).state = s := by
  simp [perform, Step.map, Store.state_answer]

theorem logger_perform (s : Server) (op : Op) : (s.perform op).state.logger = s.logger := by
  cases op <;> rfl

end Server
end Roster
