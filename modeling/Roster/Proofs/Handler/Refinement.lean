import Mathlib.Data.List.Basic
import Roster.Proofs.Run
import Roster.Server

/-! A handler is a store with checks and wording in front. What a request does to the store is done
by at most one operation of the store, and what it is answered depends on nothing but the request
and the users that are stored when it comes in. -/
namespace Roster

namespace Store

def Op.added? : Op → Option User
  | .add u => some u
  | .ask _ => none
  | .process => none

theorem users_perform (s : Store) (op : Op) :
    (s.perform op).state.users = s.users ++ op.added?.toList := by
  cases op with
  | add u => rfl
  | ask query => simp [perform, state_answer, Op.added?]
  | process => simp [perform, Step.map, Op.added?]

theorem dbUrl_perform (s : Store) (op : Op) : (s.perform op).state.dbUrl = s.dbUrl := by
  cases op with
  | add u => rfl
  | ask query => simp [perform, state_answer]
  | process => rfl

theorem users_final (s : Store) (ops : List Op) :
    (Step.final perform s ops).users = s.users ++ ops.filterMap Op.added? := by
  rw [List.filterMap_eq_flatMap_toList]
  exact Step.final_appends users users_perform s ops

theorem dbUrl_final (s : Store) (ops : List Op) :
    (Step.final perform s ops).dbUrl = s.dbUrl :=
  Step.final_keeps dbUrl dbUrl_perform s ops

theorem find?_eq_some {s : Store} {id : UserId} {u : User} :
    s.find? id = some u ↔
      u.id = id ∧ ∃ before after, s.users = before ++ u :: after ∧ ∀ v ∈ before, v.id ≠ id := by
  simp [find?, List.find?_eq_some_iff_append]

theorem find?_eq_none {s : Store} {id : UserId} :
    s.find? id = none ↔ ∀ v ∈ s.users, v.id ≠ id := by
  simp [find?, List.find?_eq_none]

end Store

namespace Handler

/-- What a registration asks for: some name, and an at sign in the email address. -/
def Acceptable (name email : String) : Prop := name ≠ "" ∧ '@' ∈ email.toList

instance (name email : String) : Decidable (Acceptable name email) :=
  inferInstanceAs (Decidable (_ ∧ _))

/-- The operations of the store that a request stands for. A refused registration stands for
none. -/
def Request.ops : Request → List Store.Op
  | .add u => [.add u]
  | .register id name email => if Acceptable name email then [.add ⟨id, name, email⟩] else []
  | .get id => [.ask (.find id)]
  | .list => [.ask .all]

/-- What a request is answered when these users are stored. -/
inductive Answered (users : List User) : Request → Outcome → Prop where
  | add {u} : Answered users (.add u) (.ok .done)
  | registered {id name email} : Acceptable name email →
      Answered users (.register id name email) (.ok (.user ⟨id, name, email⟩))
  | unnamed {id email} : Answered users (.register id "" email)
      (.error (.invalidRequest "Invalid input: Name cannot be empty"))
  | unreachable {id name email} : name ≠ "" → '@' ∉ email.toList →
      Answered users (.register id name email)
        (.error (.invalidRequest "Invalid input: Invalid email format"))
  | found {u before after} : users = before ++ u :: after → (∀ v ∈ before, v.id ≠ u.id) →
      Answered users (.get u.id) (.ok (.user u))
  | missing {id} : (∀ v ∈ users, v.id ≠ id) → Answered users (.get id)
      (.error (.notFound ("User with id " ++ Text.numeral id.toNat ++ " not found")))
  | list : Answered users .list (.ok (.users users))

theorem validate_cases (u : User) :
    (Acceptable u.name u.email ∧ u.validate = .ok ()) ∨
      (u.name = "" ∧ u.validate = .error (.invalidInput "Name cannot be empty")) ∨
      ((u.name ≠ "" ∧ '@' ∉ u.email.toList) ∧
        u.validate = .error (.invalidInput "Invalid email format")) := by
  by_cases hn : u.name = ""
  · exact .inr (.inl ⟨hn, by simp [User.validate, hn]⟩)
  · have hne : u.name.isEmpty = false := by simpa using hn
    by_cases he : '@' ∈ u.email.toList
    · exact .inl ⟨⟨hn, he⟩, by simp [User.validate, hne, validateEmail, he]⟩
    · exact .inr (.inr ⟨⟨hn, he⟩, by simp [User.validate, hne, validateEmail, he]⟩)

/-- A registration either adds its user or does nothing at all. -/
theorem register_cases (h : Handler) (u : User) :
    (Acceptable u.name u.email ∧ h.register u = (h.store.add u).map mk fun _ => .ok (.user u)) ∨
      (¬ Acceptable u.name u.email ∧ ∃ e, h.register u = .quiet h (.error e)) := by
  rcases validate_cases u with ⟨ha, hv⟩ | ⟨hn, hv⟩ | ⟨he, hv⟩
  · exact .inl ⟨ha, by simp [register, hv]⟩
  · refine .inr ⟨?_, .invalidRequest _, by simp only [register, hv]; rfl⟩
    intro ha
    exact ha.1 hn
  · refine .inr ⟨?_, .invalidRequest _, by simp only [register, hv]; rfl⟩
    intro ha
    exact he.2 ha.2

/-- The handler prints and traces what the operations of the store print and trace. -/
theorem simulates : Step.Simulates perform Store.perform Handler.store Request.ops := by
  constructor <;> intro h request <;> cases request with
  | add u => simp [perform, add, Request.ops, Store.perform, Step.map]
  | register id name email =>
    rcases register_cases h ⟨id, name, email⟩ with ⟨ha, hr⟩ | ⟨ha, e, hr⟩
    · simp only [perform, hr, Request.ops, ha, if_true]
      simp [Store.perform, Step.map]
    · simp only [perform, hr, Request.ops, ha, if_false]
      simp [Step.quiet]
  | get id => simp [perform, get, Request.ops, Store.perform, Store.answer, Step.map]
  | list => simp [perform, list, Request.ops, Store.perform, Store.answer, Step.quiet]

theorem Answered.of_perform (h : Handler) (request : Request) :
    Answered h.store.users request (h.perform request).reply := by
  cases request with
  | add u => exact .add
  | register id name email =>
    rcases validate_cases ⟨id, name, email⟩ with ⟨ha, hv⟩ | ⟨rfl, hv⟩ | ⟨⟨hn, he⟩, hv⟩
    · simp only [perform, register, hv]
      exact .registered ha
    · simp only [perform, register, hv]
      exact .unnamed
    · simp only [perform, register, hv]
      exact .unreachable hn he
  | get id =>
    cases hf : h.store.find? id with
    | some u =>
      obtain ⟨rfl, before, after, hu, hb⟩ := Store.find?_eq_some.mp hf
      simp only [perform, get, Store.find, hf, Step.map]
      exact .found hu hb
    | none =>
      simp only [perform, get, Store.find, hf, Step.map]
      exact .missing (Store.find?_eq_none.mp hf)
  | list => exact .list

theorem Answered.perform_eq {h : Handler} {request : Request} {outcome : Outcome}
    (answered : Answered h.store.users request outcome) :
    (h.perform request).reply = outcome := by
  cases answered with
  | add => rfl
  | @registered id name email ha =>
    rcases validate_cases ⟨id, name, email⟩ with ⟨-, hv⟩ | ⟨hn, -⟩ | ⟨⟨-, he⟩, -⟩
    · simp [perform, register, hv, Step.map]
    · exact absurd hn ha.1
    · exact absurd ha.2 he
  | @unnamed id email =>
    rcases validate_cases ⟨id, "", email⟩ with ⟨ha, -⟩ | ⟨-, hv⟩ | ⟨⟨hn, -⟩, -⟩
    · exact absurd rfl ha.1
    · simp only [perform, register, hv]
      rfl
    · exact absurd rfl hn
  | @unreachable id name email hn he =>
    rcases validate_cases ⟨id, name, email⟩ with ⟨ha, -⟩ | ⟨hn', -⟩ | ⟨-, hv⟩
    · exact absurd ha.2 he
    · exact absurd hn' hn
    · simp only [perform, register, hv]
      rfl
  | @found u before after hu hb =>
    have hf : h.store.find? u.id = some u := Store.find?_eq_some.mpr ⟨rfl, before, after, hu, hb⟩
    simp [perform, get, Store.find, hf, Step.map]
  | @missing id hm =>
    have hf : h.store.find? id = none := Store.find?_eq_none.mpr hm
    simp only [perform, get, Store.find, hf, Step.map]
    rfl
  | list => rfl

theorem answered_iff {h : Handler} {request : Request} {outcome : Outcome} :
    (h.perform request).reply = outcome ↔ Answered h.store.users request outcome := by
  constructor
  · rintro rfl
    exact .of_perform h request
  · exact Answered.perform_eq

/-- After any number of requests the handler has the users and the address that the store has after
the operations that the requests stand for, and both have traced and printed the same. The users
are those at first and behind them those accepted, in their order. Every request is answered from
the users that are stored when it comes in; looking a user up answers what the store finds. -/
theorem run_refines_store (h : Handler) (requests : List Request) (n : Nat) :
    let sofar := requests.take n
    let ops := sofar.flatMap Request.ops
    let after := Step.final perform h sofar
    let stored := Step.final Store.perform h.store ops
    after.store = stored ∧
      Step.eventsAll (Step.run perform h sofar) =
        Step.eventsAll (Step.run Store.perform h.store ops) ∧
      Step.printedAll (Step.run perform h sofar) =
        Step.printedAll (Step.run Store.perform h.store ops) ∧
      stored.dbUrl = h.store.dbUrl ∧
      stored.users = h.store.users ++ ops.filterMap Store.Op.added? ∧
      ∀ request ∈ requests[n]?, ∃ step, (Step.run perform h requests)[n]? = some step ∧
        (∀ outcome, step.reply = outcome ↔ Answered stored.users request outcome) ∧
        ∀ id, request = .get id → ∀ u,
          step.reply = .ok (.user u) ↔ (stored.find id).reply = some u := by
  intro sofar ops after stored
  have hstate : after.store = stored := simulates.final h sofar
  refine ⟨hstate, simulates.eventsAll h sofar, simulates.printedAll h sofar,
    h.store.dbUrl_final ops, h.store.users_final ops, ?_⟩
  intro request hrequest
  have hstep : (Step.run perform h requests)[n]? = some (after.perform request) := by
    rw [Step.getElem?_run, hrequest]
    rfl
  refine ⟨_, hstep, ?_, ?_⟩
  · intro outcome
    rw [← hstate]
    exact answered_iff
  · rintro id rfl u
    rw [← hstate]
    simp only [perform, get, Step.map, Store.find]
    cases after.store.find? id <;> simp

end Handler
end Roster
