import Roster.Proofs.Server.Trace

/-! Who gets into a store without a check. A registration lets nobody in who has no name or no at
sign in the email address, and nothing else checks; so the invalid users of a store are those that
it had at first and those that were added past the check. -/
namespace Roster

theorem User.isValid_eq_false_iff (u : User) :
    u.isValid = false ↔ u.name = "" ∨ '@' ∉ u.email.toList := by
  rw [← Bool.not_eq_true, isValid_iff, validateEmail, List.contains_iff_mem]
  by_cases hn : u.name = "" <;> simp [hn]

namespace Store

theorem invalid_eq_nil_iff {s : Store} : s.invalid = [] ↔ ∀ u ∈ s.users, u.isValid = true := by
  simp [invalid]

def Reply.shown : Reply → List User
  | .done => []
  | .found u => u.toList
  | .users us => us
  | .number _ => []
  | .flag _ => []
  | .text _ => []

theorem shown_answer (s : Store) (query : Query) : (s.answer query).reply.shown ⊆ s.users := by
  cases query with
  | find id =>
    intro u hu
    exact List.mem_of_find?_eq_some (Option.mem_toList.mp hu)
  | all => exact List.Subset.refl _
  | size => exact List.nil_subset _
  | isEmpty => exact List.nil_subset _
  | dbUrl => exact List.nil_subset _

theorem shown_perform (s : Store) (op : Op) :
    (s.perform op).reply.shown ⊆ (s.perform op).state.users := by
  cases op with
  | add u => exact List.nil_subset _
  | ask query =>
    rw [perform, state_answer]
    exact s.shown_answer query
  | process => exact List.nil_subset _

end Store

namespace Handler

def Request.unchecked : Request → List User
  | .add u => [u]
  | .register _ _ _ => []
  | .get _ => []
  | .list => []

def shown : Outcome → List User
  | .ok .done => []
  | .ok (.user u) => [u]
  | .ok (.users us) => us
  | .error _ => []

theorem invalid_accepted (request : Request) :
    request.accepted.filter (fun u => !u.isValid) =
      request.unchecked.filter fun u => !u.isValid := by
  cases request with
  | add u => rfl
  | register id name email =>
    simp only [Request.accepted, Request.unchecked]
    split
    · next h => simp [h]
    · rfl
  | get id => rfl
  | list => rfl

theorem shown_perform (h : Handler) (request : Request) :
    shown (h.perform request).reply ⊆ (h.perform request).state.store.users := by
  cases request with
  | add u => exact List.nil_subset _
  | register id name email =>
    rcases register_cases h ⟨id, name, email⟩ with ⟨-, hr⟩ | ⟨-, e, hr⟩
    · simp only [perform, hr]
      exact List.subset_append_right _ _
    · simp only [perform, hr]
      exact List.nil_subset _
  | get id =>
    simp only [perform, get, Store.find, Step.map]
    cases hf : h.store.find? id with
    | none => exact List.nil_subset _
    | some u =>
      intro v hv
      rw [List.mem_singleton.mp hv]
      exact List.mem_of_find?_eq_some hf
  | list => exact List.Subset.refl _

end Handler

namespace Server

def Op.unchecked : Op → List User
  | .handle request => request.unchecked
  | .ask _ => []
  | .process => []
  | .start => []
  | .log _ => []

/-- The users that a call adds without a check. The store itself checks nobody. -/
def Call.unchecked : Call → List User
  | .store op => op.added?.toList
  | .handler request => request.unchecked
  | .server op => op.unchecked

def Reply.shown : Reply → List User
  | .outcome told => Handler.shown told
  | .answer told => told.shown
  | .done => []

theorem Op.invalid_accepted (op : Op) :
    op.accepted.filter (fun u => !u.isValid) =
      op.unchecked.filter fun u => !u.isValid := by
  cases op with
  | handle request => exact Handler.invalid_accepted request
  | ask query => rfl
  | process => rfl
  | start => rfl
  | log message => rfl

theorem Call.invalid_accepted (c : Call) :
    c.accepted.filter (fun u => !u.isValid) =
      c.unchecked.filter fun u => !u.isValid := by
  cases c with
  | store op => rfl
  | handler request => exact Handler.invalid_accepted request
  | server op => exact op.invalid_accepted

theorem invalid_call (s : Server) (c : Call) :
    (s.call c).state.store.invalid =
      s.store.invalid ++ c.unchecked.filter fun u => !u.isValid := by
  rw [Store.invalid, users_call, List.filter_append, c.invalid_accepted]
  rfl

theorem invalid_final (s : Server) (calls : List Call) :
    (Step.final call s calls).store.invalid =
      s.store.invalid ++ (calls.flatMap Call.unchecked).filter fun u => !u.isValid := by
  rw [List.filter_flatMap]
  exact Step.final_appends (fun s => s.store.invalid) invalid_call s calls

theorem shown_perform (s : Server) (op : Op) :
    (s.perform op).reply.shown ⊆ (s.perform op).state.store.users := by
  cases op with
  | handle request => exact s.handler.shown_perform request
  | ask query =>
    rw [state_ask]
    exact s.store.shown_answer query
  | process => exact List.nil_subset _
  | start => exact List.nil_subset _
  | log message => exact List.nil_subset _

theorem shown_call (s : Server) (c : Call) :
    (s.call c).reply.shown ⊆ (s.call c).state.store.users := by
  cases c with
  | store op => exact s.store.shown_perform op
  | handler request => exact s.handler.shown_perform request
  | server op => exact s.shown_perform op

/-- After any number of calls the invalid users, those without a name or without an at sign in the
email address, are those that were there at first and behind them, in their order, those that were
added without a check. A registration makes no difference to them, wherever it comes in. So if all
users are valid at first and all that are added without a check are, then no invalid user is ever
shown. -/
theorem invalid_only_unchecked (s : Server) (calls : List Call) (n : Nat) :
    let after := Step.final call s (calls.take n)
    after.store.invalid =
        s.store.invalid ++
          ((calls.take n).flatMap Call.unchecked).filter (fun u => !u.isValid) ∧
      (∀ u : User, u.isValid = false ↔ u.name = "" ∨ '@' ∉ u.email.toList) ∧
      (∀ id name email,
        (after.handle (.register id name email)).state.store.invalid = after.store.invalid) ∧
      ((∀ u ∈ s.store.users, u.isValid = true) →
        (∀ u ∈ calls.flatMap Call.unchecked, u.isValid = true) →
        ∀ step ∈ Step.run call s calls, ∀ u ∈ step.reply.shown,
          u.name ≠ "" ∧ '@' ∈ u.email.toList) := by
  intro after
  refine ⟨invalid_final s _, User.isValid_eq_false_iff, ?_, ?_⟩
  · intro id name email
    have h := invalid_call after (.handler (.register id name email))
    exact h.trans (List.append_nil _)
  · intro hfirst hunchecked step hstep u hu
    obtain ⟨m, c, hc, rfl⟩ := Step.exists_of_mem_run hstep
    have hnone : (Step.final call s (calls.take (m + 1))).store.invalid = [] := by
      rw [invalid_final, Store.invalid_eq_nil_iff.mpr hfirst, List.nil_append,
        List.filter_eq_nil_iff]
      intro v hv
      obtain ⟨c, hc, hvc⟩ := List.mem_flatMap.mp hv
      simp [hunchecked v (List.mem_flatMap.mpr ⟨c, List.mem_of_mem_take hc, hvc⟩)]
    have hstored : u ∈ (Step.final call s (calls.take (m + 1))).store.users := by
      rw [Step.final_take_succ hc]
      exact shown_call _ c hu
    have hvalid := Store.invalid_eq_nil_iff.mp hnone u hstored
    rw [User.isValid_iff, validateEmail, List.contains_iff_mem] at hvalid
    exact hvalid

/-- A registration is refused, one succeeds, and a valid user is added past the check with the id of
the refused one. -/
theorem invalid_only_unchecked_refused :
    let s : Server := ⟨⟨⟨"db", [⟨1, "Ann", "a@x"⟩]⟩⟩, .default⟩
    let calls : List Call := [.handler (.register 2 "Bo" "bo.x"),
      .server (.handle (.register 1 "Cy" "@")), .store (.add ⟨2, "Bo", "b@x"⟩), .handler .list,
      .server (.ask (.find 2))]
    ∀ step ∈ Step.run call s calls, ∀ u ∈ step.reply.shown,
      u.name ≠ "" ∧ '@' ∈ u.email.toList := by
  intro s calls
  obtain ⟨-, -, -, hshown⟩ := invalid_only_unchecked s calls 0
  exact hshown (by decide) (by decide)

end Server
end Roster
