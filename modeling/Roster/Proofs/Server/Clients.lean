import Roster.Proofs.Handler.Refinement

/-! Clients that share a server. Their requests come in mixed in any way; as long as each client
keeps to ids that nobody else uses, every one of them is served as if it were the only one. -/
namespace Roster

section Own

variable {κ α β : Type} [DecidableEq κ]

/-- What belongs to one client in a list in which every item is marked with its client. -/
def own (k : κ) (items : List (κ × α)) : List α :=
  (items.filter fun item => item.1 = k).map Prod.snd

@[simp] theorem own_nil (k : κ) : own k ([] : List (κ × α)) = [] := rfl

@[simp] theorem own_cons_self (k : κ) (a : α) (items : List (κ × α)) :
    own k ((k, a) :: items) = a :: own k items := by
  simp [own]

theorem own_cons_of_ne {k k' : κ} (h : k' ≠ k) (a : α) (items : List (κ × α)) :
    own k ((k', a) :: items) = own k items := by
  simp [own, h]

theorem mem_own {k : κ} {a : α} {items : List (κ × α)} : a ∈ own k items ↔ (k, a) ∈ items := by
  simp [own]

theorem own_append (k : κ) (items more : List (κ × α)) :
    own k (items ++ more) = own k items ++ own k more := by
  simp [own]

theorem own_map_self (k : κ) (l : List α) : own k (l.map (k, ·)) = l := by
  induction l with
  | nil => rfl
  | cons a l ih => rw [List.map_cons, own_cons_self, ih]

theorem own_map_of_ne {k k' : κ} (h : k' ≠ k) (l : List α) : own k (l.map (k', ·)) = [] := by
  induction l with
  | nil => rfl
  | cons a l ih => rw [List.map_cons, own_cons_of_ne h, ih]

theorem own_flatMap (k : κ) (f : α → List β) (items : List (κ × α)) :
    own k (items.flatMap fun item => (f item.2).map (item.1, ·)) = (own k items).flatMap f := by
  induction items with
  | nil => rfl
  | cons item items ih =>
    obtain ⟨k', a⟩ := item
    rw [List.flatMap_cons, own_append, ih]
    by_cases hk : k' = k
    · subst hk
      rw [own_map_self, own_cons_self, List.flatMap_cons]
    · rw [own_map_of_ne hk, own_cons_of_ne hk, List.nil_append]

end Own

namespace Handler

def Request.subject? : Request → Option UserId
  | .add u => some u.id
  | .register id _ _ => some id
  | .get id => some id
  | .list => none

theorem subject?_of_mem_accepted {request : Request} {u : User} (h : u ∈ request.accepted) :
    request.subject? = some u.id := by
  cases request with
  | add v =>
    rw [List.mem_singleton.mp h]
    rfl
  | register id name email =>
    simp only [Request.accepted] at h
    split at h
    · rw [List.mem_singleton.mp h]
      rfl
    · cases h
  | get id => cases h
  | list => cases h

/-- The user that a request with this answer has put into the store. -/
def Request.accepted? : Request → Outcome → Option User
  | .add u, .ok _ => some u
  | .register id name email, .ok _ => some ⟨id, name, email⟩
  | _, _ => none

/-- The answer to a request shows which user it has put into the store. -/
theorem accepted?_reply (h : Handler) (request : Request) :
    (request.accepted? (h.perform request).reply).toList = request.accepted := by
  cases request with
  | add u => rfl
  | register id name email =>
    cases hv : User.validate ⟨id, name, email⟩ with
    | ok done => simp [Request.accepted, Request.accepted?, perform, register, User.isValid, hv,
        Step.map]
    | error e => simp [Request.accepted, Request.accepted?, perform, register, User.isValid, hv,
        Step.quiet]
  | get id => rfl
  | list => rfl

theorem find?_perform (h : Handler) (request : Request) (id : UserId) :
    (h.perform request).state.store.find? id =
      (h.store.find? id).or (request.accepted.find? fun u => u.id == id) := by
  simp [Store.find?, users_perform, List.find?_append]

theorem find?_perform_of_ne {h : Handler} {request : Request} {id : UserId}
    (hne : request.subject? ≠ some id) :
    (h.perform request).state.store.find? id = h.store.find? id := by
  have hnone : (request.accepted.find? fun u => u.id == id) = none := by
    rw [List.find?_eq_none]
    intro u hu heq
    apply hne
    rw [subject?_of_mem_accepted hu, eq_of_beq heq]
  rw [find?_perform, hnone, Option.or_none]

/-- What a request about a user is answered depends on the store only by who is found there. -/
theorem reply_congr {h h' : Handler} {request : Request} {id : UserId}
    (subject : request.subject? = some id) (same : h.store.find? id = h'.store.find? id) :
    (h.perform request).reply = (h'.perform request).reply := by
  cases request with
  | add u => rfl
  | register _ name email =>
    simp only [perform, register]
    cases User.validate _ <;> rfl
  | get _ =>
    cases subject
    simp only [perform, get, Store.find, Step.map, same]
  | list => cases subject

def Alike (h h' : Handler) (requests : List Request) : Prop :=
  ∀ request ∈ requests, ∀ id, request.subject? = some id → h.store.find? id = h'.store.find? id

theorem Alike.perform {h h' : Handler} {request : Request} {requests : List Request}
    (alike : Alike h h' (request :: requests)) :
    Alike (h.perform request).state (h'.perform request).state requests := by
  intro r hr id hid
  rw [find?_perform, find?_perform, alike r (List.mem_cons_of_mem _ hr) id hid]

/-- A request of another client that is about other users is not noticed. -/
theorem Alike.perform_other {h h' : Handler} {request : Request} {requests : List Request}
    (alike : Alike h h' requests) (apart : ∀ r ∈ requests, request.subject? ≠ r.subject?) :
    Alike (h.perform request).state h' requests := by
  intro r hr id hid
  have hne : request.subject? ≠ some id := by
    rw [← hid]
    exact apart r hr
  rw [find?_perform_of_ne hne]
  exact alike r hr id hid

end Handler

namespace Server

open Handler (Request Outcome)

variable {κ : Type} [DecidableEq κ]

def serve (s : Server) (call : κ × Request) : Step Server (κ × Outcome) :=
  (s.handle call.2).map id fun outcome => (call.1, outcome)

/-- Every request is about one user. No two clients ask about the same user, and none asks about a
user that is stored at the beginning. -/
structure Apart (s : Server) (calls : List (κ × Request)) : Prop where
  subject : ∀ call ∈ calls, call.2.subject?.isSome = true
  apart : ∀ call ∈ calls, ∀ call' ∈ calls, call.1 ≠ call'.1 →
    call.2.subject? ≠ call'.2.subject?
  unknown : ∀ call ∈ calls, ∀ u ∈ s.store.users, call.2.subject? ≠ some u.id

theorem users_handle (s : Server) (request : Request) :
    (s.handle request).state.store.users = s.store.users ++ request.accepted :=
  s.handler.users_perform request

omit [DecidableEq κ] in
theorem users_serve (s : Server) (call : κ × Request) :
    (s.serve call).state.store.users = s.store.users ++ call.2.accepted :=
  s.users_handle call.2

theorem users_handle_final (s : Server) (requests : List Request) :
    (Step.final handle s requests).store.users =
      s.store.users ++ requests.flatMap Request.accepted :=
  Step.final_appends (fun s => s.store.users) users_handle s requests

/-- The users that were accepted in these exchanges, in order. -/
def acceptedIn (requests : List Request) (outcomes : List Outcome) : List User :=
  (requests.zip outcomes).filterMap fun exchange => exchange.1.accepted? exchange.2

theorem acceptedIn_replies (s : Server) (requests : List Request) :
    acceptedIn requests ((Step.run handle s requests).map Step.reply) =
      requests.flatMap Request.accepted := by
  induction requests generalizing s with
  | nil => rfl
  | cons request requests ih =>
    have hfirst : (request.accepted? (s.handle request).reply).toList = request.accepted :=
      s.handler.accepted?_reply request
    have hrest := ih (s.handle request).state
    rw [acceptedIn, List.filterMap_eq_flatMap_toList] at hrest ⊢
    rw [Step.run_cons, List.map_cons, List.zip_cons_cons, List.flatMap_cons, List.flatMap_cons,
      hfirst, hrest]

/-- The users that are added, each with the client that added it. -/
def addedBy (calls : List (κ × Request)) : List (κ × User) :=
  calls.flatMap fun call => call.2.accepted.map (call.1, ·)

omit [DecidableEq κ] in
theorem users_serve_final (s : Server) (calls : List (κ × Request)) :
    (Step.final serve s calls).store.users = s.store.users ++ (addedBy calls).map Prod.snd := by
  have hadded : (addedBy calls).map Prod.snd = calls.flatMap fun call => call.2.accepted := by
    simp [addedBy, List.map_flatMap, Function.comp_def]
  rw [hadded]
  exact Step.final_appends (fun s => s.store.users) users_serve s calls

/-- From servers that are alike to one client, it gets the same answers, whatever the other clients
ask of one of them. -/
theorem own_replies {s s' : Server} {calls : List (κ × Request)} (k : κ)
    (subject : ∀ call ∈ calls, call.2.subject?.isSome = true)
    (apart : ∀ call ∈ calls, ∀ request ∈ own k calls, call.1 ≠ k →
      call.2.subject? ≠ request.subject?)
    (alike : Handler.Alike s.handler s'.handler (own k calls)) :
    own k ((Step.run serve s calls).map Step.reply) =
      (Step.run handle s' (own k calls)).map Step.reply := by
  induction calls generalizing s s' with
  | nil => rfl
  | cons call calls ih =>
    obtain ⟨k', request⟩ := call
    have hsubject : ∀ call ∈ calls, call.2.subject?.isSome = true := by
      intro call hcall
      exact subject call (List.mem_cons_of_mem _ hcall)
    by_cases hk : k' = k
    · subst hk
      rw [own_cons_self] at alike apart ⊢
      obtain ⟨id, hid⟩ := Option.isSome_iff_exists.mp (subject _ List.mem_cons_self)
      have hreply : (s.handle request).reply = (s'.handle request).reply :=
        Handler.reply_congr hid (alike request List.mem_cons_self id hid)
      have halike : Handler.Alike (s.serve (k', request)).state.handler
          (s'.handle request).state.handler (own k' calls) := alike.perform
      have hrest := ih hsubject
        (fun call hcall r hr =>
          apart call (List.mem_cons_of_mem _ hcall) r (List.mem_cons_of_mem _ hr))
        halike
      rw [Step.run_cons, Step.run_cons, List.map_cons, List.map_cons, ← hreply, ← hrest]
      exact own_cons_self k' _ _
    · rw [own_cons_of_ne hk] at alike apart ⊢
      have halike : Handler.Alike (s.serve (k', request)).state.handler s'.handler (own k calls) :=
        alike.perform_other fun r hr => apart _ List.mem_cons_self r hr hk
      have hrest := ih hsubject (fun call hcall => apart call (List.mem_cons_of_mem _ hcall)) halike
      rw [Step.run_cons, List.map_cons, ← hrest]
      exact own_cons_of_ne hk _ _

/-- The users with the ids of one client are those that it has added. -/
theorem Apart.filter_users {s : Server} {calls : List (κ × Request)} (h : Apart s calls) (k : κ) :
    ((s.store.users ++ (addedBy calls).map Prod.snd).filter fun u =>
      some u.id ∈ (own k calls).map Request.subject?) = own k (addedBy calls) := by
  have hinitial : (s.store.users.filter fun u =>
      some u.id ∈ (own k calls).map Request.subject?) = [] := by
    rw [List.filter_eq_nil_iff]
    intro u hu hmem
    obtain ⟨request, hr, hid⟩ := List.mem_map.mp (of_decide_eq_true hmem)
    exact h.unknown _ (mem_own.mp hr) u hu hid
  have hadded : ∀ item ∈ addedBy calls,
      some item.2.id ∈ (own k calls).map Request.subject? ↔ item.1 = k := by
    intro item hitem
    obtain ⟨call, hcall, hmap⟩ := List.mem_flatMap.mp hitem
    obtain ⟨u, hu, rfl⟩ := List.mem_map.mp hmap
    have hid := Handler.subject?_of_mem_accepted hu
    constructor
    · intro hmem
      obtain ⟨request, hr, hsame⟩ := List.mem_map.mp hmem
      apply Decidable.byContradiction
      intro hne
      exact h.apart call hcall _ (mem_own.mp hr) hne (hid.trans hsame.symm)
    · rintro rfl
      exact List.mem_map.mpr ⟨call.2, mem_own.mpr hcall, hid⟩
  rw [List.filter_append, hinitial, List.nil_append, List.filter_map]
  unfold own
  congr 1
  apply List.filter_congr
  intro item hitem
  exact decide_eq_decide.mpr (hadded item hitem)

/-- Each client gets the answers that it gets if it is alone with the server. The users that were
accepted when it was alone are then stored behind those of the beginning, and from the shared server
too just these have ids of the client, in the same order. All that is stored there in the end are
the users of the beginning and behind them those of the clients, mixed in some way. -/
theorem clients_do_not_interfere {s : Server} {calls : List (κ × Request)} (h : Apart s calls) :
    (Step.final serve s calls).store.users = s.store.users ++ (addedBy calls).map Prod.snd ∧
      ∀ k, let alone := (Step.run handle s (own k calls)).map Step.reply
        own k ((Step.run serve s calls).map Step.reply) = alone ∧
        own k (addedBy calls) = acceptedIn (own k calls) alone ∧
        (Step.final handle s (own k calls)).store.users =
          s.store.users ++ acceptedIn (own k calls) alone ∧
        ((Step.final serve s calls).store.users.filter fun u =>
          some u.id ∈ (own k calls).map Request.subject?) = acceptedIn (own k calls) alone := by
  refine ⟨users_serve_final s calls, ?_⟩
  intro k alone
  have haccepted : acceptedIn (own k calls) alone = (own k calls).flatMap Request.accepted :=
    acceptedIn_replies s (own k calls)
  have hadded : own k (addedBy calls) = acceptedIn (own k calls) alone := by
    rw [haccepted, addedBy, own_flatMap]
  refine ⟨?_, hadded, ?_, ?_⟩
  · apply own_replies k h.subject
    · intro call hcall request hr hne
      exact h.apart call hcall _ (mem_own.mp hr) hne
    · intro request _ id _
      rfl
  · rw [users_handle_final, haccepted]
  · rw [users_serve_final, ← hadded]
    exact h.filter_users k

/-- One client adds two users with one id and asks for it; the other is refused a registration, asks
for its user in vain and then adds it unchecked. -/
theorem clients_do_not_interfere_duplicate :
    let s : Server := ⟨⟨⟨"db", [⟨1, "Ann", "a@x"⟩]⟩⟩, .default⟩
    let calls : List (Bool × Request) :=
      [(true, .add ⟨5, "", ""⟩), (false, .register 6 "Bo" "bo.x"),
        (true, .register 5 "Cy" "c@x"), (false, .get 6), (true, .get 5), (false, .add ⟨6, "Di", ""⟩)]
    Apart s calls ∧
      own true ((Step.run serve s calls).map Step.reply) =
        [.ok .done, .ok (.user ⟨5, "Cy", "c@x"⟩), .ok (.user ⟨5, "", ""⟩)] ∧
      ((Step.final serve s calls).store.users.filter fun u =>
        some u.id ∈ (own false calls).map Request.subject?) = [⟨6, "Di", ""⟩] := by
  intro s calls
  have hs : Apart s calls := by
    constructor <;> decide
  obtain ⟨-, halone⟩ := clients_do_not_interfere hs
  obtain ⟨hreplies, -⟩ := halone true
  obtain ⟨-, -, -, husers⟩ := halone false
  exact ⟨hs, hreplies.trans rfl, husers.trans rfl⟩

end Server
end Roster
