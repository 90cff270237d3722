import Roster.Proofs.Server.Trace
import Roster.Proofs.Sink

/-! What a server shows of its settings. It is given an address and a logger, and its store
announces itself in one place or another; none of this makes a difference to what is stored and
answered. The settings are only echoed. -/
namespace Roster

namespace Sink

def holding (s : Sink) (text : String) : Sink := { s with stored := s.stored ++ Text.bytes text }

theorem putLine_unlimited {s : Sink} (h : s.capacity = none) (text : String) :
    s.putLine [text] = (s.holding (text ++ "\n"), .ok ()) := by
  rw [putLine, putAll_eq_put, put_unlimited h]
  simp [holding]

end Sink

theorem Logger.line_eq (l : Logger) (message : String) :
    l.line message = l.heading ++ (" " ++ message ++ "\n") := by
  simp [line, String.append_assoc]

/-- What a server is given apart from users. Without a sink the announcement is printed. -/
structure Settings where
  dbUrl : String
  logger : Logger
  sink? : Option Sink

namespace Settings

def serving (c : Settings) (store : Store) : Server := ⟨⟨store⟩, c.logger⟩

def fresh (c : Settings) : Server := c.serving (.empty c.dbUrl)

/-- Makes a server with the settings; the first part is what becomes of the sink. -/
def make (c : Settings) : Option Sink × Except Refusal (Step Server Unit) :=
  match c.sink? with
  | none => (none, .ok ((Store.create c.dbUrl).map c.serving id))
  | some sink =>
    let (sink, made) := Store.createTo c.dbUrl sink
    (some sink, made.map fun step => step.map c.serving id)

def Accepting (c : Settings) : Prop := ∀ sink ∈ c.sink?, sink.capacity = none

/-- The announcement is made in one place only; it is the same in all places. -/
theorem make_of_accepting {c : Settings} (h : c.Accepting) :
    c.make = (c.sink?.map (·.holding (Store.initNotice ++ "\n")),
      .ok ⟨c.fresh, (),
        if c.sink?.isSome then "" else Store.initNotice ++ "\n", [.storeCreated c.dbUrl]⟩) := by
  cases hsink : c.sink? with
  | none =>
    simp only [make, hsink]
    rfl
  | some sink =>
    have hline := Sink.putLine_unlimited (h sink hsink) Store.initNotice
    simp only [make, hsink, Store.createTo, hline]
    rfl

end Settings

structure Step.Matches {σ ρ : Type} (users : σ → List User) (step step' : Step σ ρ) : Prop where
  users : users step.state = users step'.state
  reply : step.reply = step'.reply
  printed : step.printed = step'.printed
  events : step.events = step'.events

/-- Of all operations of a store only one looks at the address. -/
theorem Store.matches_perform {s s' : Store} (same : s.users = s'.users) {op : Store.Op}
    (h : op ≠ .ask .dbUrl) : Step.Matches Store.users (s.perform op) (s'.perform op) := by
  obtain ⟨dbUrl, users⟩ := s
  obtain ⟨dbUrl', users'⟩ := s'
  obtain rfl : users = users' := same
  cases op with
  | add u => exact ⟨rfl, rfl, rfl, rfl⟩
  | ask query =>
    cases query with
    | find id => exact ⟨rfl, rfl, rfl, rfl⟩
    | all => exact ⟨rfl, rfl, rfl, rfl⟩
    | size => exact ⟨rfl, rfl, rfl, rfl⟩
    | isEmpty => exact ⟨rfl, rfl, rfl, rfl⟩
    | dbUrl => exact absurd rfl h
  | process => exact ⟨rfl, rfl, rfl, rfl⟩

theorem Handler.matches_perform {h h' : Handler} (same : h.store.users = h'.store.users)
    (request : Handler.Request) :
    Step.Matches (fun h : Handler => h.store.users) (h.perform request) (h'.perform request) := by
  obtain ⟨⟨dbUrl, users⟩⟩ := h
  obtain ⟨⟨dbUrl', users'⟩⟩ := h'
  obtain rfl : users = users' := same
  cases request with
  | add u => exact ⟨rfl, rfl, rfl, rfl⟩
  | register id name email =>
    simp only [perform, register]
    cases User.validate ⟨id, name, email⟩ with
    | ok done => exact ⟨rfl, rfl, rfl, rfl⟩
    | error e => exact ⟨rfl, rfl, rfl, rfl⟩
  | get id => exact ⟨rfl, rfl, rfl, rfl⟩
  | list => exact ⟨rfl, rfl, rfl, rfl⟩

theorem Handler.dbUrl_perform (h : Handler) (request : Handler.Request) :
    (h.perform request).state.store.dbUrl = h.store.dbUrl := by
  rw [simulates.state, Store.dbUrl_final]

namespace Server

def Op.heading (l : Logger) : Op → String
  | .handle _ => ""
  | .ask _ => ""
  | .process => ""
  | .start => l.heading
  | .log _ => l.heading

def Call.heading (l : Logger) : Call → String
  | .store _ => ""
  | .handler _ => ""
  | .server op => op.heading l

def Call.AsksAddress (c : Call) : Prop := c = .store (.ask .dbUrl) ∨ c = .server (.ask .dbUrl)

theorem Call.AsksAddress.call_eq {c : Call} (h : c.AsksAddress) (s : Server) :
    s.call c = ⟨s, .answer (.text s.store.dbUrl), "", []⟩ := by
  rcases h with rfl | rfl <;> rfl

theorem Call.AsksAddress.heading_eq {c : Call} (h : c.AsksAddress) (l : Logger) :
    c.heading l = "" := by
  rcases h with rfl | rfl <;> rfl

theorem matches_withStore {ρ : Type} {s s' : Server} {step step' : Step Store ρ}
    (h : Step.Matches Store.users step step') (g : ρ → Reply) :
    Step.Matches (fun s => s.store.users) (step.map s.withStore g) (step'.map s'.withStore g) where
  users := h.users
  reply := congrArg g h.reply
  printed := h.printed
  events := h.events

theorem matches_handle {s s' : Server} (same : s.store.users = s'.store.users)
    (request : Handler.Request) :
    Step.Matches (fun s => s.store.users) ((s.handle request).map id Reply.outcome)
      ((s'.handle request).map id Reply.outcome) := by
  have h := Handler.matches_perform same request
  exact ⟨h.users, congrArg Reply.outcome h.reply, h.printed, h.events⟩

theorem dbUrl_perform (s : Server) (op : Op) :
    (s.perform op).state.store.dbUrl = s.store.dbUrl := by
  cases op with
  | handle request => exact s.handler.dbUrl_perform request
  | ask query => rw [state_ask]
  | process => rfl
  | start => rfl
  | log message => rfl

theorem dbUrl_call (s : Server) (c : Call) : (s.call c).state.store.dbUrl = s.store.dbUrl := by
  cases c with
  | store op => exact s.store.dbUrl_perform op
  | handler request => exact s.handler.dbUrl_perform request
  | server op => exact s.dbUrl_perform op

theorem logger_call (s : Server) (c : Call) : (s.call c).state.logger = s.logger := by
  cases c with
  | store op => rfl
  | handler request => rfl
  | server op => exact s.logger_perform op

end Server

namespace Settings

/-- The server has these settings. Where its announcement went it does not know. -/
structure HeldBy (c : Settings) (s : Server) : Prop where
  dbUrl : s.store.dbUrl = c.dbUrl
  logger : s.logger = c.logger

theorem heldBy_fresh (c : Settings) : c.HeldBy c.fresh := ⟨rfl, rfl⟩

theorem HeldBy.call {c : Settings} {s : Server} (h : c.HeldBy s) (asked : Server.Call) :
    c.HeldBy (s.call asked).state where
  dbUrl := (s.dbUrl_call asked).trans h.dbUrl
  logger := (s.logger_call asked).trans h.logger

theorem HeldBy.final {c : Settings} {s : Server} (h : c.HeldBy s) (calls : List Server.Call) :
    c.HeldBy (Step.final Server.call s calls) where
  dbUrl := (Step.final_keeps (fun s => s.store.dbUrl) Server.dbUrl_call s calls).trans h.dbUrl
  logger := (Step.final_keeps Server.logger Server.logger_call s calls).trans h.logger

/-- What two servers with these settings show of one call. Users, answers and events are the same;
only the address is answered by each server as it was given. What is printed is the same behind the
headings of the loggers, if it has a heading. -/
structure Echoed (c c' : Settings) (asked : Server.Call) (step step' : Step Server Server.Reply) :
    Prop where
  users : step.state.store.users = step'.state.store.users
  reply : ¬ asked.AsksAddress → step.reply = step'.reply
  address : asked.AsksAddress →
    step.reply = .answer (.text c.dbUrl) ∧ step'.reply = .answer (.text c'.dbUrl)
  events : step.events = step'.events
  printed : ∃ rest, step.printed = asked.heading c.logger ++ rest ∧
    step'.printed = asked.heading c'.logger ++ rest
  held : c.HeldBy step.state
  held' : c'.HeldBy step'.state

section Call

variable {c c' : Settings} {s s' : Server}

theorem Echoed.of_asksAddress (held : c.HeldBy s) (held' : c'.HeldBy s')
    (same : s.store.users = s'.store.users) {asked : Server.Call} (hasks : asked.AsksAddress) :
    Echoed c c' asked (s.call asked) (s'.call asked) := by
  rw [hasks.call_eq, hasks.call_eq]
  refine ⟨same, fun h => absurd hasks h, ?_, rfl, ⟨"", ?_, ?_⟩, held, held'⟩
  · intro _
    rw [held.dbUrl, held'.dbUrl]
    exact ⟨rfl, rfl⟩
  · simp [hasks.heading_eq]
  · simp [hasks.heading_eq]

theorem Echoed.of_matches (held : c.HeldBy s) (held' : c'.HeldBy s') {asked : Server.Call}
    (hasks : ¬ asked.AsksAddress) (plain : ∀ l, asked.heading l = "")
    (h : Step.Matches (fun s : Server => s.store.users) (s.call asked) (s'.call asked)) :
    Echoed c c' asked (s.call asked) (s'.call asked) where
  users := h.users
  reply := fun _ => h.reply
  address := fun ha => absurd ha hasks
  events := h.events
  printed := ⟨(s.call asked).printed, by simp [plain], by simp [plain, h.printed]⟩
  held := held.call asked
  held' := held'.call asked

theorem echoed_call (held : c.HeldBy s) (held' : c'.HeldBy s')
    (same : s.store.users = s'.store.users) (asked : Server.Call) :
    Echoed c c' asked (s.call asked) (s'.call asked) := by
  by_cases hasks : asked.AsksAddress
  · exact .of_asksAddress held held' same hasks
  cases asked with
  | store op =>
    have hop : op ≠ .ask .dbUrl := by
      rintro rfl
      exact hasks (.inl rfl)
    exact .of_matches held held' hasks (fun _ => rfl)
      (Server.matches_withStore (Store.matches_perform same hop) .answer)
  | handler request =>
    exact .of_matches held held' hasks (fun _ => rfl) (Server.matches_handle same request)
  | server op =>
    cases op with
    | handle request =>
      exact .of_matches held held' hasks (fun _ => rfl) (Server.matches_handle same request)
    | ask query =>
      have hop : Store.Op.ask query ≠ .ask .dbUrl := by
        intro h
        cases h
        exact hasks (.inr rfl)
      exact .of_matches held held' hasks (fun _ => rfl)
        (Server.matches_withStore (Store.matches_perform same hop) .answer)
    | process =>
      have hmatches : Step.Matches Store.users (s.store.perform .process)
          (s'.store.perform .process) := Store.matches_perform same nofun
      exact .of_matches held held' hasks (fun _ => rfl)
        (Server.matches_withStore hmatches fun _ => .done)
    | start =>
      have hsize : s.store.size = s'.store.size := congrArg List.length same
      refine ⟨same, fun _ => rfl, fun h => absurd h hasks, ?_, ?_, held.call _, held'.call _⟩
      · simp only [Server.call, Server.perform, Server.start, Step.map, hsize]
      · rw [← held.logger, ← held'.logger]
        exact ⟨_, s.logger.line_eq _, s'.logger.line_eq _⟩
    | log message =>
      refine ⟨same, fun _ => rfl, fun h => absurd h hasks, rfl, ?_, held.call _, held'.call _⟩
      rw [← held.logger, ← held'.logger]
      exact ⟨_, s.logger.line_eq _, s'.logger.line_eq _⟩

end Call

/-- Making a server shows its address in the event, and puts the announcement where it is asked for.
From then on, any two servers that have come to hold the same users go on alike whatever is asked of
both: each of the same calls shows the same, apart from the settings that it echoes. -/
theorem settings_only_echoed {c c' : Settings} (accepting : c.Accepting)
    (accepting' : c'.Accepting) {early early' : List Server.Call}
    (same : (Step.final Server.call c.fresh early).store.users =
      (Step.final Server.call c'.fresh early').store.users)
    (calls : List Server.Call) (n : Nat) :
    let notice := Store.initNotice ++ "\n"
    let s := Step.final Server.call c.fresh early
    let s' := Step.final Server.call c'.fresh early'
    (∀ d ∈ [c, c'], d.make = (d.sink?.map (·.holding notice),
      .ok ⟨d.fresh, (), if d.sink?.isSome then "" else notice, [.storeCreated d.dbUrl]⟩)) ∧
    ∀ asked ∈ calls[n]?, ∃ step step',
      (Step.run Server.call s calls)[n]? = some step ∧
      (Step.run Server.call s' calls)[n]? = some step' ∧ Echoed c c' asked step step' := by
  intro notice s s'
  refine ⟨?_, ?_⟩
  · intro d hd
    rcases List.mem_cons.mp hd with rfl | hd
    · exact make_of_accepting accepting
    · rw [List.mem_singleton.mp hd]
      exact make_of_accepting accepting'
  · intro asked hasked
    have hheld := (c.heldBy_fresh.final early).final (calls.take n)
    have hheld' := (c'.heldBy_fresh.final early').final (calls.take n)
    have husers : (Step.final Server.call s (calls.take n)).store.users =
        (Step.final Server.call s' (calls.take n)).store.users := by
      rw [Server.users_final s, Server.users_final s']
      exact congrArg (· ++ _) same
    refine ⟨_, _, ?_, ?_, echoed_call hheld hheld' husers asked⟩
    · rw [Step.getElem?_run, hasked]
      rfl
    · rw [Step.getElem?_run, hasked]
      rfl

/-- One server prints its announcement and is given a user unchecked; the other writes the
announcement to a sink and registers the same user. -/
theorem settings_only_echoed_started :
    let c : Settings := ⟨"db", ⟨"rpc"⟩, none⟩
    let c' : Settings := ⟨"", ⟨"x"⟩, some .unlimited⟩
    let s := Step.final Server.call c.fresh [.store (.add ⟨1, "Ann", "a@x"⟩)]
    let s' := Step.final Server.call c'.fresh [.handler (.register 1 "Ann" "a@x")]
    let calls : List Server.Call := [.handler (.get 2), .server .start]
    ∃ step step', (Step.run Server.call s calls)[1]? = some step ∧
      (Step.run Server.call s' calls)[1]? = some step' ∧ step.events = step'.events ∧
      ∃ rest, step.printed = "[rpc]" ++ rest ∧ step'.printed = "[x]" ++ rest := by
  intro c c' s s' calls
  have hc : c.Accepting := by
    intro sink hsink
    cases hsink
  have hc' : c'.Accepting := by
    intro sink hsink
    cases hsink
    rfl
  have hsame : s.store.users = s'.store.users := rfl
  obtain ⟨-, halike⟩ := settings_only_echoed hc hc' hsame calls 1
  obtain ⟨step, step', hstep, hstep', h⟩ := halike _ rfl
  exact ⟨step, step', hstep, hstep', h.events, h.printed⟩

end Settings
end Roster
