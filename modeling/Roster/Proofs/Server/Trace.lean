import Roster.Proofs.Handler.Refinement

/-! What the trace of a run says about the store. The trace is read on its own: the ids of the users
that it says were added are those of the users stored, so that all it says later on, about who was
found and how many users there are, can be checked against what it said before. -/
namespace Roster

inductive Deed where
  | adds (id : UserId)
  | looksUp (id : UserId)
  | starts
  | nothing

def addedIds (trace : List Event) : List UserId := trace.filterMap Event.addedId?

@[simp] theorem addedIds_append (trace more : List Event) :
    addedIds (trace ++ more) = addedIds trace ++ addedIds more := by
  simp [addedIds]

namespace Deed

/-- What is traced of a deed behind a trace. The store has no say in it. -/
def traced (trace : List Event) : Deed → List Event
  | adds id => [.userAdded id]
  | looksUp id => [.userLookup id (decide (id ∈ addedIds trace))]
  | starts => [.serverStarted (addedIds trace).length]
  | nothing => []

def ids : Deed → List UserId
  | adds id => [id]
  | looksUp _ => []
  | starts => []
  | nothing => []

theorem addedIds_traced (deed : Deed) (trace : List Event) :
    addedIds (deed.traced trace) = deed.ids := by
  cases deed <;> rfl

theorem storeCreated_not_mem_traced (deed : Deed) (trace : List Event) (dbUrl : String) :
    .storeCreated dbUrl ∉ deed.traced trace := by
  cases deed <;> simp [traced]

end Deed

namespace Store

/-- A store is made with its announcement printed, or with it written to a sink that takes it. -/
inductive Made (dbUrl : String) : Step Store Unit → Prop where
  | printing : Made dbUrl (create dbUrl)
  | writing {sink after : Sink} {made : Step Store Unit} :
      createTo dbUrl sink = (after, .ok made) → Made dbUrl made

theorem Made.state_eq {dbUrl : String} {made : Step Store Unit} (h : Made dbUrl made) :
    made.state = empty dbUrl ∧ made.events = [.storeCreated dbUrl] := by
  rcases h with _ | h
  · exact ⟨rfl, rfl⟩
  · unfold createTo at h
    split at h
    · rw [Prod.mk.injEq, Except.ok.injEq] at h
      obtain ⟨-, rfl⟩ := h
      exact ⟨rfl, rfl⟩
    · cases h

def Query.deed : Query → Deed
  | .find id => .looksUp id
  | .all => .nothing
  | .size => .nothing
  | .isEmpty => .nothing
  | .dbUrl => .nothing

def Op.deed : Op → Deed
  | .add u => .adds u.id
  | .ask query => query.deed
  | .process => .nothing

theorem isSome_find? (s : Store) (id : UserId) : (s.find? id).isSome = decide (id ∈ s.ids) := by
  rw [Bool.eq_iff_iff, decide_eq_true_iff]
  simp [find?, ids]

def ToldBy (s : Store) (trace : List Event) : Prop := addedIds trace = s.ids

structure Does (s : Store) (deed : Deed) (after : Store) (events : List Event) : Prop where
  ids : after.ids = s.ids ++ deed.ids
  events : ∀ trace, s.ToldBy trace → events = deed.traced trace

theorem Does.nothing (s : Store) : s.Does .nothing s [] where
  ids := by simp [Deed.ids]
  events := by
    intro trace _
    rfl

theorem does_add (s : Store) (u : User) : s.Does (.adds u.id) (s.add u).state (s.add u).events where
  ids := by simp [Store.ids, Deed.ids]
  events := by
    intro trace _
    rfl

theorem does_find (s : Store) (id : UserId) : s.Does (.looksUp id) s (s.find id).events where
  ids := by simp [Deed.ids]
  events := by
    intro trace h
    simp only [find, Deed.traced]
    rw [isSome_find?, h]

theorem does_answer (s : Store) (query : Query) : s.Does query.deed s (s.answer query).events := by
  cases query with
  | find id => exact s.does_find id
  | all => exact .nothing s
  | size => exact .nothing s
  | isEmpty => exact .nothing s
  | dbUrl => exact .nothing s

theorem does_perform (s : Store) (op : Op) :
    s.Does op.deed (s.perform op).state (s.perform op).events := by
  cases op with
  | add u => exact s.does_add u
  | ask query =>
    have hstate : (s.perform (.ask query)).state = s := s.state_answer query
    rw [hstate]
    exact s.does_answer query
  | process => exact .nothing s

theorem Does.toldBy {s after : Store} {deed : Deed} {events trace : List Event}
    (h : s.Does deed after events) (told : s.ToldBy trace) : after.ToldBy (trace ++ events) := by
  unfold ToldBy at told ⊢
  rw [h.ids, h.events trace told, addedIds_append, Deed.addedIds_traced, told]

end Store

namespace Handler

/-- A registration that is refused is not even mentioned. -/
def Request.deed : Request → Deed
  | .add u => .adds u.id
  | .register id name email => if Acceptable name email then .adds id else .nothing
  | .get id => .looksUp id
  | .list => .nothing

theorem does_perform (h : Handler) (request : Request) :
    h.store.Does request.deed (h.perform request).state.store (h.perform request).events := by
  cases request with
  | add u => exact h.store.does_add u
  | register id name email =>
    rcases register_cases h ⟨id, name, email⟩ with ⟨ha, hr⟩ | ⟨ha, e, hr⟩
    · simp only [perform, hr, Request.deed, if_pos ha]
      exact h.store.does_add ⟨id, name, email⟩
    · simp only [perform, hr, Request.deed, if_neg ha]
      exact .nothing h.store
  | get id => exact h.store.does_find id
  | list => exact .nothing h.store

end Handler

namespace Server

def Op.deed : Op → Deed
  | .handle request => request.deed
  | .ask query => query.deed
  | .process => .nothing
  | .start => .starts
  | .log _ => .nothing

theorem does_perform (s : Server) (op : Op) :
    s.store.Does op.deed (s.perform op).state.store (s.perform op).events := by
  cases op with
  | handle request => exact s.handler.does_perform request
  | ask query =>
    rw [state_ask]
    exact s.store.does_answer query
  | process => exact .nothing s.store
  | start =>
    refine ⟨by simp [Op.deed, Deed.ids, perform, start, Logger.log, Step.map], ?_⟩
    intro trace h
    have hsize : s.store.size = (addedIds trace).length := by
      rw [h, Store.size_eq_length_ids]
    simp only [perform, start, Step.map, Op.deed, Deed.traced, hsize]
  | log message => exact .nothing s.store

/-- An operation, and where it comes in: at the store itself, at the handler in front of the store,
or at the server around both. -/
inductive Call where
  | store (op : Store.Op)
  | handler (request : Handler.Request)
  | server (op : Op)

def Call.deed : Call → Deed
  | .store op => op.deed
  | .handler request => request.deed
  | .server op => op.deed

def call (s : Server) : Call → Step Server Reply
  | .store op => (s.store.perform op).map s.withStore .answer
  | .handler request => (s.handle request).map id .outcome
  | .server op => s.perform op

theorem does_call (s : Server) (c : Call) :
    s.store.Does c.deed (s.call c).state.store (s.call c).events := by
  cases c with
  | store op => exact s.store.does_perform op
  | handler request => exact s.handler.does_perform request
  | server op => exact s.does_perform op

def traceOf (made : Step Store Unit) (s : Server) (calls : List Call) : List Event :=
  made.events ++ Step.eventsAll (Step.run call s calls)

theorem toldBy_run {s : Server} {trace : List Event} (told : s.store.ToldBy trace)
    (calls : List Call) :
    (Step.final call s calls).store.ToldBy (trace ++ Step.eventsAll (Step.run call s calls)) ∧
      ∀ dbUrl, .storeCreated dbUrl ∉ Step.eventsAll (Step.run call s calls) := by
  induction calls generalizing s trace with
  | nil => simpa using told
  | cons c calls ih =>
    have hdoes := s.does_call c
    obtain ⟨htold, hnone⟩ := ih (hdoes.toldBy told)
    rw [Step.final_cons, Step.run_cons, Step.eventsAll_cons, ← List.append_assoc]
    refine ⟨htold, ?_⟩
    intro dbUrl hmem
    rcases List.mem_append.mp hmem with hmem | hmem
    · rw [hdoes.events trace told] at hmem
      exact c.deed.storeCreated_not_mem_traced trace dbUrl hmem
    · exact hnone dbUrl hmem

/-- At any point of a run the trace begins with the making of the store and mentions no other; the
ids that it says were added are those of the users stored, in their order. What the next call adds
to the trace is told by the call and the trace so far: an addition by its id; a look-up by its id
and whether an addition of that id was traced before; a start by the number of additions traced
before; and nothing by any other call, a refused registration among them. -/
theorem trace_tells_store {dbUrl : String} {made : Step Store Unit} (h : Store.Made dbUrl made)
    (logger : Logger) (calls : List Call) (n : Nat) :
    let server : Server := ⟨⟨made.state⟩, logger⟩
    let trace := traceOf made server (calls.take n)
    (∃ rest, trace = .storeCreated dbUrl :: rest ∧ ∀ url, .storeCreated url ∉ rest) ∧
      addedIds trace = (Step.final call server (calls.take n)).store.ids ∧
      ∀ c ∈ calls[n]?, ∃ step, (Step.run call server calls)[n]? = some step ∧
        step.events = c.deed.traced trace := by
  intro server trace
  obtain ⟨hstate, hevents⟩ := h.state_eq
  have hstart : server.store.ToldBy made.events := by
    have hstore : server.store = .empty dbUrl := hstate
    rw [Store.ToldBy, hstore, hevents]
    rfl
  obtain ⟨htold, hnone⟩ := toldBy_run hstart (calls.take n)
  refine ⟨⟨_, ?_, hnone⟩, htold, ?_⟩
  · simp only [trace, traceOf, hevents]
    rfl
  · intro c hc
    have hstep : (Step.run call server calls)[n]? =
        some ((Step.final call server (calls.take n)).call c) := by
      rw [Step.getElem?_run, hc]
      rfl
    exact ⟨_, hstep, (does_call _ c).events trace htold⟩

/-- The sink takes the announcement and is full. Behind two additions with one id, of which the
first came to the store itself, and a registration that is refused, the id is found. -/
theorem trace_tells_store_duplicate :
    let sink : Sink := ⟨some 24, .takingNothing, []⟩
    let made : Step Store Unit := ⟨.empty "db", (), "", [.storeCreated "db"]⟩
    let server : Server := ⟨⟨made.state⟩, .default⟩
    let calls : List Call := [.store (.add ⟨5, "", ""⟩), .handler (.register 7 "Bo" "bo.x"),
      .server (.handle (.register 5 "Bo" "b@x")), .handler (.get 5), .server .start]
    (Store.createTo "db" sink).2 = .ok made ∧
      addedIds (traceOf made server (calls.take 3)) = [5, 5] ∧
      ∃ step, (Step.run call server calls)[3]? = some step ∧
        step.events = [.userLookup 5 true] := by
  intro sink made server calls
  have hmade : Store.createTo "db" sink = ((Store.createTo "db" sink).1, .ok made) := rfl
  obtain ⟨-, hids, hstep⟩ := trace_tells_store (.writing hmade) .default calls 3
  obtain ⟨step, hrun, hevents⟩ := hstep (.handler (.get 5)) rfl
  refine ⟨congrArg Prod.snd hmade, hids, step, hrun, ?_⟩
  rw [hevents]
  rfl

/-! ## Growth

Whatever is asked of a server, the users it has stay as they are and where they are; those that a
call adds come behind them. -/

def Op.accepted : Op → List User
  | .handle request => request.accepted
  | .ask _ => []
  | .process => []
  | .start => []
  | .log _ => []

def Call.accepted : Call → List User
  | .store op => op.added?.toList
  | .handler request => request.accepted
  | .server op => op.accepted

theorem users_perform (s : Server) (op : Op) :
    (s.perform op).state.store.users = s.store.users ++ op.accepted := by
  cases op with
  | handle request => exact s.handler.users_perform request
  | ask query => rw [state_ask, Op.accepted, List.append_nil]
  | process => exact (List.append_nil _).symm
  | start => exact (List.append_nil _).symm
  | log message => exact (List.append_nil _).symm

theorem users_call (s : Server) (c : Call) :
    (s.call c).state.store.users = s.store.users ++ c.accepted := by
  cases c with
  | store op => exact s.store.users_perform op
  | handler request => exact s.handler.users_perform request
  | server op => exact s.users_perform op

theorem users_final (s : Server) (calls : List Call) :
    (Step.final call s calls).store.users = s.store.users ++ calls.flatMap Call.accepted :=
  Step.final_appends (fun s => s.store.users) users_call s calls

end Server
end Roster
