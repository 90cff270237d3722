import Mathlib.Data.List.Basic
import Roster.Proofs.Server.Settings

/-! What a server prints. Every print is one line, so that a reader of the output who knows what was
asked of the server finds each line and what it says, as long as nothing that is printed has a line
feed of its own. -/
namespace Roster

inductive Print where
  | notice
  | logged (message : String)
  | processed (name : String)

namespace Print

def front (tag : String) : Print → String
  | notice => ""
  | logged _ => "[" ++ tag ++ "] "
  | processed _ => "Processing user: "

def content : Print → String
  | notice => "UserService initialized"
  | logged message => message
  | processed name => name

def line (tag : String) (p : Print) : String := p.front tag ++ p.content

def output (tag : String) (prints : List Print) : String :=
  String.join (prints.map fun p => p.line tag ++ "\n")

theorem output_append (tag : String) (prints more : List Print) :
    output tag (prints ++ more) = output tag prints ++ output tag more := by
  apply String.toList_inj.mp
  simp [output, String.toList_join]

theorem output_notice (tag : String) : output tag [notice] = Store.initNotice ++ "\n" := by
  apply String.toList_inj.mp
  simp [output, line, front, content, Store.initNotice]

theorem output_logged (l : Logger) (message : String) :
    output l.tag [logged message] = l.line message := by
  apply String.toList_inj.mp
  simp [output, line, front, content, Logger.line, Logger.heading]

theorem output_processed (tag : String) (users : List User) :
    output tag (users.map fun u => processed u.name) =
      String.join (users.map User.processingLine) := by
  rw [output, List.map_map]
  rfl

theorem not_mem_line {tag : String} {p : Print} (ht : '\n' ∉ tag.toList)
    (hp : '\n' ∉ p.content.toList) : '\n' ∉ (p.line tag).toList := by
  rw [line, String.toList_append, List.mem_append, not_or]
  refine ⟨?_, hp⟩
  cases p with
  | notice => simp [front]
  | logged message => simpa [front] using ht
  | processed name => simp [front]

/-- Lines without a line feed of their own are found by splitting; behind the last one nothing is
left. -/
theorem splitOn_output {tag : String} {prints : List Print}
    (h : ∀ p ∈ prints, '\n' ∉ (p.line tag).toList) :
    (output tag prints).toList.splitOn '\n' =
      prints.map (fun p => (p.line tag).toList) ++ [[]] := by
  induction prints with
  | nil => rfl
  | cons p prints ih =>
    have hline : ∀ c ∈ (p.line tag).toList, (c == '\n') = false := by
      intro c hc
      rw [beq_eq_false_iff_ne]
      rintro rfl
      exact h p List.mem_cons_self hc
    have hcons : (output tag (p :: prints)).toList =
        (p.line tag).toList ++ '\n' :: (output tag prints).toList := by
      simp [output, String.toList_join]
    have hrest := ih fun q hq => h q (List.mem_cons_of_mem _ hq)
    rw [List.splitOn_eq_splitOnP] at hrest ⊢
    rw [hcons, List.splitOnP_append_cons_of_forall_mem hline _ (beq_self_eq_true '\n'), hrest,
      List.map_cons, List.cons_append]

end Print

/-! ### What an operation prints -/

namespace Store

def Op.prints (users : List User) : Op → List Print
  | .add _ => []
  | .ask _ => []
  | .process => users.map fun u => .processed u.name

theorem printed_answer (s : Store) (query : Query) : (s.answer query).printed = "" := by
  cases query <;> rfl

theorem printed_perform (s : Store) (op : Op) (tag : String) :
    (s.perform op).printed = Print.output tag (op.prints s.users) := by
  cases op with
  | add u => rfl
  | ask query => exact s.printed_answer query
  | process => exact (Print.output_processed tag s.users).symm

end Store

theorem Handler.printed_perform (h : Handler) (request : Request) :
    (h.perform request).printed = "" := by
  cases request with
  | add u => rfl
  | register id name email =>
    rcases register_cases h ⟨id, name, email⟩ with ⟨-, hr⟩ | ⟨-, e, hr⟩
    · rw [perform, hr]
      rfl
    · rw [perform, hr]
      rfl
  | get id => rfl
  | list => rfl

namespace Server

def Op.prints (users : List User) : Op → List Print
  | .handle _ => []
  | .ask _ => []
  | .process => users.map fun u => .processed u.name
  | .start => [.logged "RPC Server started"]
  | .log message => [.logged message]

def Call.prints (users : List User) : Call → List Print
  | .store op => op.prints users
  | .handler _ => []
  | .server op => op.prints users

/-- What calls print one after the other; each of them finds the users accepted before it. -/
def prints (users : List User) : List Call → List Print
  | [] => []
  | c :: calls => c.prints users ++ prints (users ++ c.accepted) calls

theorem printed_perform (s : Server) (op : Op) :
    (s.perform op).printed = Print.output s.logger.tag (op.prints s.store.users) := by
  cases op with
  | handle request => exact s.handler.printed_perform request
  | ask query => exact s.store.printed_answer query
  | process => exact (Print.output_processed s.logger.tag s.store.users).symm
  | start => exact (Print.output_logged s.logger _).symm
  | log message => exact (Print.output_logged s.logger message).symm

theorem printed_call (s : Server) (c : Call) :
    (s.call c).printed = Print.output s.logger.tag (c.prints s.store.users) := by
  cases c with
  | store op => exact s.store.printed_perform op s.logger.tag
  | handler request => exact s.handler.printed_perform request
  | server op => exact s.printed_perform op

theorem printed_run (s : Server) (calls : List Call) :
    Step.printedAll (Step.run call s calls) =
      Print.output s.logger.tag (prints s.store.users calls) := by
  induction calls generalizing s with
  | nil => rfl
  | cons c calls ih =>
    rw [Step.run_cons, Step.printedAll_cons, printed_call, ih, logger_call, users_call, prints,
      Print.output_append]

end Server

/-! ### Runs from the making of a server on -/

namespace Store

def addAll (made : Step Store Unit) (users : List User) : Step Store Unit :=
  users.foldl (fun made u =>
    let added := made.state.add u
    ⟨added.state, (), made.printed ++ added.printed, made.events ++ added.events⟩) made

theorem users_addAll (made : Step Store Unit) (users : List User) :
    (addAll made users).state.users = made.state.users ++ users := by
  induction users generalizing made with
  | nil => exact (List.append_nil _).symm
  | cons u users ih =>
    rw [addAll, List.foldl_cons, ← addAll, ih, users_add, List.append_assoc]
    rfl

theorem printed_addAll (made : Step Store Unit) (users : List User) :
    (addAll made users).printed = made.printed := by
  induction users generalizing made with
  | nil => rfl
  | cons u users ih =>
    rw [addAll, List.foldl_cons, ← addAll, ih]
    exact String.append_empty

theorem createTo_eq_ok {dbUrl : String} {sink after : Sink} {made : Step Store Unit}
    (h : createTo dbUrl sink = (after, .ok made)) :
    made = ⟨empty dbUrl, (), "", [.storeCreated dbUrl]⟩ := by
  unfold createTo at h
  split at h
  · cases h
    rfl
  · cases h

end Store

namespace Server

/-- A server is made as a whole, or put together from a logger and a store that has written its
announcement to a sink; some users may have been added to the store by then. -/
inductive Built : List Print → List User → Step Server Unit → Prop where
  | whole (dbUrl : String) : Built [.notice] [] (create dbUrl)
  | parts {dbUrl : String} {sink after : Sink} {made : Step Store Unit} (users : List User)
      (logger : Logger) : Store.createTo dbUrl sink = (after, .ok made) →
      Built [] users ((Store.addAll made users).map (fun store => ⟨⟨store⟩, logger⟩) id)

theorem Built.users_eq {announced : List Print} {users : List User} {built : Step Server Unit}
    (h : Built announced users built) : built.state.store.users = users := by
  cases h with
  | whole dbUrl => rfl
  | parts users logger hmade =>
    cases Store.createTo_eq_ok hmade
    exact Store.users_addAll _ users

theorem Built.printed_eq {announced : List Print} {users : List User} {built : Step Server Unit}
    (h : Built announced users built) (tag : String) :
    built.printed = Print.output tag announced := by
  cases h with
  | whole dbUrl => exact (Print.output_notice tag).symm
  | parts users logger hmade =>
    cases Store.createTo_eq_ok hmade
    exact Store.printed_addAll _ users

theorem mem_call_prints {c : Call} {users : List User} {p : Print} (h : p ∈ c.prints users) :
    p = .logged "RPC Server started" ∨ (∃ m, c = .server (.log m) ∧ p = .logged m) ∨
      ∃ u ∈ users, p = .processed u.name := by
  have hprocess (h : p ∈ users.map fun u => Print.processed u.name) :
      ∃ u ∈ users, p = .processed u.name := by
    obtain ⟨u, hu, rfl⟩ := List.mem_map.mp h
    exact ⟨u, hu, rfl⟩
  cases c with
  | store op =>
    cases op with
    | add u => cases h
    | ask query => cases h
    | process => exact .inr (.inr (hprocess h))
  | handler request => cases h
  | server op =>
    cases op with
    | handle request => cases h
    | ask query => cases h
    | process => exact .inr (.inr (hprocess h))
    | start => exact .inl (List.mem_singleton.mp h)
    | log m => exact .inr (.inl ⟨m, rfl, List.mem_singleton.mp h⟩)

theorem mem_prints {users : List User} {calls : List Call} {p : Print}
    (h : p ∈ prints users calls) :
    p = .logged "RPC Server started" ∨ (∃ m, .server (.log m) ∈ calls ∧ p = .logged m) ∨
      ∃ u ∈ users ++ calls.flatMap Call.accepted, p = .processed u.name := by
  induction calls generalizing users with
  | nil => cases h
  | cons c calls ih =>
    rcases List.mem_append.mp h with hc | hcalls
    · rcases mem_call_prints hc with hp | ⟨m, rfl, hp⟩ | ⟨u, hu, hp⟩
      · exact .inl hp
      · exact .inr (.inl ⟨m, List.mem_cons_self, hp⟩)
      · exact .inr (.inr ⟨u, List.mem_append_left _ hu, hp⟩)
    · rcases ih hcalls with hp | ⟨m, hm, hp⟩ | ⟨u, hu, hp⟩
      · exact .inl hp
      · exact .inr (.inl ⟨m, List.mem_cons_of_mem _ hm, hp⟩)
      · rw [List.append_assoc] at hu
        exact .inr (.inr ⟨u, by rwa [List.flatMap_cons], hp⟩)

theorem Built.mem_announced {announced : List Print} {users : List User}
    {built : Step Server Unit} (h : Built announced users built) {p : Print}
    (hp : p ∈ announced) : p = .notice := by
  cases h with
  | whole dbUrl => exact List.mem_singleton.mp hp
  | parts => cases hp

/-- The content of a print is a fixed text, a logged message or the name of a user that is stored
in the end, so it has no line feed if none of these has one. -/
theorem not_mem_content {announced : List Print} {users : List User} {built : Step Server Unit}
    (h : Built announced users built) {calls : List Call}
    (hlog : ∀ m, .server (.log m) ∈ calls → '\n' ∉ m.toList)
    (hname : ∀ u ∈ (Step.final call built.state calls).store.users, '\n' ∉ u.name.toList)
    {p : Print} (hp : p ∈ announced ++ prints users calls) : '\n' ∉ p.content.toList := by
  rw [users_final, h.users_eq] at hname
  rcases List.mem_append.mp hp with hann | hcalls
  · cases h.mem_announced hann
    decide
  · rcases mem_prints hcalls with rfl | ⟨m, hm, rfl⟩ | ⟨u, hu, rfl⟩
    · decide
    · exact hlog m hm
    · exact hname u hu

/-- The output of a server, from its making on, is made of the lines of its prints: the announcement
if it was made as a whole, then what the calls print. If there is no line feed in the tag, in any
message that is logged and in any name that is stored, then the output is split at the line feeds
into one line for each print, and each line has the content of its print behind the front. -/
theorem output_is_lines {announced : List Print} {users : List User} {built : Step Server Unit}
    (h : Built announced users built) (calls : List Call) :
    let tag := built.state.logger.tag
    let all := announced ++ prints users calls
    let output := built.printed ++ Step.printedAll (Step.run call built.state calls)
    output = String.join (all.map fun p => p.line tag ++ "\n") ∧
      ('\n' ∉ tag.toList → (∀ m, .server (.log m) ∈ calls → '\n' ∉ m.toList) →
        (∀ u ∈ (Step.final call built.state calls).store.users, '\n' ∉ u.name.toList) →
        output.toList.splitOn '\n' = all.map (fun p => (p.line tag).toList) ++ [[]] ∧
        ∀ (i : Nat) (p : Print), all[i]? = some p →
          ∃ line, (output.toList.splitOn '\n')[i]? = some line ∧
            (p.front tag).toList.isPrefixOf? line = some p.content.toList) := by
  intro tag all output
  have houtput : output = Print.output tag all := by
    rw [Print.output_append, ← h.printed_eq, ← h.users_eq, ← printed_run]
  refine ⟨houtput, fun htag hlog hname => ?_⟩
  have hlines : output.toList.splitOn '\n' = all.map (fun p => (p.line tag).toList) ++ [[]] := by
    rw [houtput]
    exact Print.splitOn_output fun p hp => Print.not_mem_line htag (not_mem_content h hlog hname hp)
  refine ⟨hlines, fun i p hp => ⟨(p.line tag).toList, ?_, ?_⟩⟩
  · have hi : i < (all.map fun p => (p.line tag).toList).length := by
      rw [List.length_map]
      exact (List.getElem?_eq_some_iff.mp hp).1
    rw [hlines, List.getElem?_append_left hi, List.getElem?_map, hp, Option.map_some]
  · rw [List.isPrefixOf?_eq_some_iff_append_eq, Print.line, String.toList_append]

/-- A second registration is refused, so the second pass over the users prints what the first
did. -/
theorem output_is_lines_passes :
    let calls : List Call := [.handler (.register 1 "Ann" "a@x"), .server .process,
      .handler (.register 2 "" "b@x"), .store .process, .server (.log "[rpc] hi"), .server .start]
    let output := (create "db").printed ++
      Step.printedAll (Step.run call (create "db").state calls)
    output = "UserService initialized\nProcessing user: Ann\nProcessing user: Ann\n" ++
        "[rpc] [rpc] hi\n[rpc] RPC Server started\n" ∧
      ∃ line, (output.toList.splitOn '\n')[3]? = some line ∧
        "[rpc] ".toList.isPrefixOf? line = some "[rpc] hi".toList := by
  intro calls output
  have hlines := output_is_lines (.whole "db") calls
  have hlog : ∀ m, .server (.log m) ∈ calls → '\n' ∉ m.toList := by
    intro m hm
    have : m = "[rpc] hi" := by simpa [calls] using hm
    rw [this]
    decide
  have hname : ∀ u ∈ (Step.final call (create "db").state calls).store.users,
      '\n' ∉ u.name.toList := by
    decide
  obtain ⟨-, hfound⟩ := hlines.2 (by decide) hlog hname
  exact ⟨hlines.1.trans (by decide), hfound 3 (.logged "[rpc] hi") rfl⟩

end Server
end Roster
