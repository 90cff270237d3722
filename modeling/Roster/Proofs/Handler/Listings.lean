import Roster.Proofs.Server.Clients

/-! Looking users up and listing them in the course of a run. The first user with an id is the one
that is found, for good. The users of a handler only ever grow at their end, so that an earlier
listing is the front of every later one, and the lengths of the two tell how many users came in
between. -/
namespace Roster.Handler

/-! ## Lookups

Users that come later with the same id are stored, but nobody gets to see them by their id. -/

def absent (id : UserId) : Outcome :=
  .error (.notFound ("User with id " ++ Text.numeral id.toNat ++ " not found"))

theorem reply_get_eq_user {h : Handler} {id : UserId} {u : User} :
    (h.get id).reply = .ok (.user u) ↔ h.store.find? id = some u := by
  simp only [get, Store.find, Step.map]
  cases h.store.find? id <;> simp

theorem reply_get_eq_absent {h : Handler} {id : UserId} :
    (h.get id).reply = absent id ↔ h.store.find? id = none := by
  simp only [get, Store.find, Step.map]
  cases h.store.find? id with
  | none => simp [absent, missing, RpcError.ofService]
  | some u => simp [absent]

theorem users_final (h : Handler) (requests : List Request) :
    (Step.final perform h requests).store.users =
      h.store.users ++ requests.flatMap Request.accepted :=
  Step.final_appends (fun h => h.store.users) users_perform h requests

theorem find?_final_of_some {h : Handler} {id : UserId} {u : User}
    (found : h.store.find? id = some u) (requests : List Request) :
    (Step.final perform h requests).store.find? id = some u := by
  rw [Store.find?, users_final, List.find?_append, ← Store.find?, found, Option.some_or]

/-- Behind a registration the id has a user: the one that had it before, or else the one that is
registered. -/
theorem find?_register {h : Handler} {id : UserId} {name email : String} {u : User}
    (done : (h.perform (.register id name email)).reply = .ok (.user u)) :
    (h.perform (.register id name email)).state.store.find? id =
      some ((h.store.find? id).getD u) := by
  rcases register_cases h ⟨id, name, email⟩ with ⟨-, hr⟩ | ⟨-, e, hr⟩
  · have hu : u = ⟨id, name, email⟩ := by
      simp only [perform, hr, Step.map] at done
      simpa using done.symm
    simp only [perform, hr, Step.map]
    rw [Store.find?_add, hu, if_pos rfl]
    cases h.store.find? id <;> rfl
  · simp only [perform, hr, Step.quiet] at done
    cases done

/-- What a look-up in the middle of a run is answered is settled by what came before it. A user that
was found under the id before is found again. Behind a registration with the id there is a user, and
it is the registered one if nobody had the id until then, or a user just like it. Nobody is found
exactly as long as no user with the id was there at first or has been accepted since. -/
theorem lookups_are_stable (h : Handler) {requests : List Request} {n : Nat} {id : UserId}
    (asked : requests[n]? = some (.get id)) :
    let replies := (Step.run perform h requests).map Step.reply
    (∀ m ≤ n, requests[m]? = some (.get id) →
      ∀ u, replies[m]? = some (.ok (.user u)) → replies[n]? = some (.ok (.user u))) ∧
    (∀ m < n, ∀ name email, requests[m]? = some (.register id name email) →
      ∀ u, replies[m]? = some (.ok (.user u)) →
        let before := ((Step.final perform h (requests.take m)).get id).reply
        ∃ v, replies[n]? = some (.ok (.user v)) ∧
          (v = u ↔ before = absent id ∨ before = .ok (.user u))) ∧
    (replies[n]? = some (absent id) ↔
      ∀ u ∈ h.store.users ++ (requests.take n).flatMap Request.accepted, u.id ≠ id) := by
  intro replies
  have hreply : ∀ m request, requests[m]? = some request →
      replies[m]? = some ((Step.final perform h (requests.take m)).perform request).reply := by
    intro m request hm
    simp only [replies, Step.getElem?_replies, hm]
    rfl
  have hasked : replies[n]? = some ((Step.final perform h (requests.take n)).get id).reply :=
    hreply n _ asked
  refine ⟨?_, ?_, ?_⟩
  · intro m hmn hm u hu
    rw [hreply m _ hm, Option.some.injEq] at hu
    have hfound := reply_get_eq_user.mp hu
    rw [hasked, Option.some.injEq, Step.final_take_of_le hmn]
    exact reply_get_eq_user.mpr (find?_final_of_some hfound _)
  · intro m hmn name email hm u hu before
    rw [hreply m _ hm, Option.some.injEq] at hu
    have hfound := find?_register hu
    rw [← Step.final_take_succ hm] at hfound
    refine ⟨((Step.final perform h (requests.take m)).store.find? id).getD u, ?_, ?_⟩
    · rw [hasked, Option.some.injEq, Step.final_take_of_le (Nat.succ_le_of_lt hmn)]
      exact reply_get_eq_user.mpr (find?_final_of_some hfound _)
    · simp only [before, reply_get_eq_absent, reply_get_eq_user]
      cases (Step.final perform h (requests.take m)).store.find? id <;> simp
  · rw [hasked, Option.some.injEq, reply_get_eq_absent, Store.find?_eq_none, users_final]

/-- A user is registered under an id that is free, and another one under the same id. -/
theorem lookups_are_stable_duplicate :
    let h : Handler := ⟨⟨"db", [⟨1, "Ann", "a@x"⟩]⟩⟩
    let requests : List Request := [.get 5, .register 5 "Bo" "b@x", .get 5, .register 5 "Cy" "c@x",
      .add ⟨5, "", ""⟩, .get 5]
    let replies := (Step.run perform h requests).map Step.reply
    replies[0]? = some (absent 5) ∧
      replies[5]? = some (.ok (.user ⟨5, "Bo", "b@x"⟩)) ∧
      ∃ v, replies[5]? = some (.ok (.user v)) ∧ v ≠ ⟨5, "Cy", "c@x"⟩ := by
  intro h requests replies
  have hfirst : requests[0]? = some (.get 5) := rfl
  have hlast : requests[5]? = some (.get 5) := rfl
  obtain ⟨-, -, hnobody⟩ := lookups_are_stable h hfirst
  obtain ⟨hagain, hregistered, -⟩ := lookups_are_stable h hlast
  refine ⟨hnobody.mpr (by decide), hagain 2 (by decide) rfl _ rfl, ?_⟩
  obtain ⟨v, hv, hiff⟩ := hregistered 3 (by decide) "Cy" "c@x" rfl _ rfl
  refine ⟨v, hv, ?_⟩
  intro heq
  rcases hiff.mp heq with hb | hb
  · cases hb
  · exact absurd (reply_get_eq_user.mp hb) (by decide)

/-! ## Listings -/

def inserts : Request → Outcome → Bool
  | .add _, _ => true
  | .register _ _ _, .ok _ => true
  | .register _ _ _, .error _ => false
  | .get _, _ => false
  | .list, _ => false

def exchanges (h : Handler) (requests : List Request) : List (Request × Outcome) :=
  requests.zip ((Step.run perform h requests).map Step.reply)

def insertions (exchanged : List (Request × Outcome)) : Nat :=
  exchanged.countP fun exchange => inserts exchange.1 exchange.2

theorem insertions_cons (request : Request) (outcome : Outcome)
    (exchanged : List (Request × Outcome)) :
    insertions ((request, outcome) :: exchanged) =
      (inserts request outcome).toNat + insertions exchanged := by
  rw [insertions, insertions, List.countP_cons, Nat.add_comm]
  cases inserts request outcome <;> simp

theorem insertions_eq_zero {exchanged : List (Request × Outcome)} :
    insertions exchanged = 0 ↔
      ∀ exchange ∈ exchanged, inserts exchange.1 exchange.2 = false := by
  simp [insertions, List.countP_eq_zero]

theorem exchanges_cons (h : Handler) (request : Request) (requests : List Request) :
    exchanges h (request :: requests) =
      (request, (h.perform request).reply) :: exchanges (h.perform request).state requests := rfl

theorem drop_take_exchanges (h : Handler) (requests : List Request) (m n : Nat) :
    ((exchanges h requests).take n).drop m =
      exchanges (Step.final perform h ((requests.take n).take m)) ((requests.take n).drop m) := by
  simp only [exchanges, List.zip_eq_zipWith, List.take_zipWith, List.drop_zipWith, ← List.map_take,
    ← List.map_drop, Step.take_run, Step.drop_run]

/-- The answer to a request shows whether it has put a user into the store. -/
theorem length_accepted (h : Handler) (request : Request) :
    request.accepted.length = (inserts request (h.perform request).reply).toNat := by
  rw [← accepted?_reply h request]
  cases request with
  | add u => rfl
  | register id name email => cases (h.perform (.register id name email)).reply <;> rfl
  | get id => rfl
  | list => rfl

theorem length_flatMap_accepted (h : Handler) (requests : List Request) :
    (requests.flatMap Request.accepted).length = insertions (exchanges h requests) := by
  induction requests generalizing h with
  | nil => rfl
  | cons request requests ih =>
    rw [List.flatMap_cons, List.length_append, ih (h.perform request).state, length_accepted h,
      exchanges_cons, insertions_cons]

/-- Of two listings in a run the earlier one is the front of the later one, and the later one is
longer by as many users as were added or registered in between; so the two are the same exactly if
nobody was. How the run goes on behind a listing makes no difference to it. An id that occurs in the
earlier listing is looked up, by the time of the later one, as the first user in it who has the
id. -/
theorem listings_are_fronts (h : Handler) {requests : List Request} {m n : Nat} (order : m < n)
    (first : requests[m]? = some .list) (second : requests[n]? = some .list) :
    let replies := (Step.run perform h requests).map Step.reply
    let between := ((exchanges h requests).take n).drop (m + 1)
    ∃ users users', replies[m]? = some (.ok (.users users)) ∧
      replies[n]? = some (.ok (.users users')) ∧
      users <+: users' ∧
      users'.length = users.length + insertions between ∧
      (users = users' ↔ ∀ exchange ∈ between, inserts exchange.1 exchange.2 = false) ∧
      (∀ later, ((Step.run perform h (requests.take (m + 1) ++ later)).map Step.reply)[m]? =
        some (.ok (.users users))) ∧
      ∀ id ∈ users.map User.id, ∃ before u after, users = before ++ u :: after ∧ u.id = id ∧
        (∀ v ∈ before, v.id ≠ id) ∧
        ((Step.final perform h (requests.take n)).get id).reply = .ok (.user u) := by
  intro replies between
  have hreply : ∀ (ops : List Request) (k : Nat), ops[k]? = some .list →
      ((Step.run perform h ops).map Step.reply)[k]? =
        some (.ok (.users (Step.final perform h (ops.take k)).store.users)) := by
    intro ops k hk
    rw [Step.getElem?_replies, hk]
    rfl
  -- The first listing leaves the state as it is, so what follows it starts from there.
  have hlisted : Step.final perform h (requests.take (m + 1)) =
      Step.final perform h (requests.take m) := Step.final_take_succ first h
  have hlater : Step.final perform h (requests.take n) = Step.final perform
      (Step.final perform h (requests.take m)) ((requests.take n).drop (m + 1)) := by
    rw [Step.final_take_of_le (Nat.succ_le_of_lt order), hlisted]
  have husers := users_final (Step.final perform h (requests.take m))
    ((requests.take n).drop (m + 1))
  rw [← hlater] at husers
  have hcount : (((requests.take n).drop (m + 1)).flatMap Request.accepted).length =
      insertions between := by
    rw [length_flatMap_accepted, ← drop_take_exchanges]
  have hlength : (Step.final perform h (requests.take n)).store.users.length =
      (Step.final perform h (requests.take m)).store.users.length + insertions between := by
    rw [husers, List.length_append, hcount]
  refine ⟨_, _, hreply requests m first, hreply requests n second, ⟨_, husers.symm⟩, hlength,
    ?_, ?_, ?_⟩
  · rw [insertions_eq_zero.symm]
    constructor
    · intro same
      rw [same] at hlength
      omega
    · intro none
      have hnil := List.eq_nil_of_length_eq_zero (hcount.trans none)
      rw [husers, hnil, List.append_nil]
  · intro later
    have hm : m < requests.length := (List.getElem?_eq_some_iff.mp first).1
    have hplace : (requests.take (m + 1) ++ later)[m]? = some .list := by
      rw [List.getElem?_append_left (by simp; omega), List.getElem?_take_of_lt (by omega), first]
    have hfront : (requests.take (m + 1) ++ later).take m = requests.take m := by
      rw [List.take_append_of_le_length (by simp; omega), List.take_take,
        Nat.min_eq_left (by omega)]
    rw [hreply _ m hplace, hfront]
  · intro id hid
    obtain ⟨v, hv, rfl⟩ := List.mem_map.mp hid
    obtain ⟨u, hu⟩ : ∃ u, (Step.final perform h (requests.take m)).store.find? v.id = some u := by
      cases hf : (Step.final perform h (requests.take m)).store.find? v.id with
      | some u => exact ⟨u, rfl⟩
      | none => exact absurd rfl (Store.find?_eq_none.mp hf v hv)
    obtain ⟨hid, before, after, hsplit, hbefore⟩ := Store.find?_eq_some.mp hu
    refine ⟨before, u, after, hsplit, hid, hbefore, ?_⟩
    rw [hlater]
    exact reply_get_eq_user.mpr (find?_final_of_some hu _)

/-- Between the two listings a registration is refused, and a user is added who is just like the one
that is there. -/
theorem listings_are_fronts_again :
    let h : Handler := ⟨⟨"db", []⟩⟩
    let ann : User := ⟨1, "Ann", "a@x"⟩
    let requests : List Request := [.add ann, .list, .register 1 "Bo" "bo.x", .add ann, .list]
    let replies := (Step.run perform h requests).map Step.reply
    requests[1]? = some .list ∧ requests[4]? = some .list ∧
      ∃ users users', replies[1]? = some (.ok (.users users)) ∧
        replies[4]? = some (.ok (.users users')) ∧ users <+: users' ∧
        users'.length = users.length + 1 ∧ users ≠ users' := by
  intro h ann requests replies
  have hfirst : requests[1]? = some .list := rfl
  have hsecond : requests[4]? = some .list := rfl
  obtain ⟨users, users', hu, hu', hfront, hlength, hsame, -, -⟩ :=
    listings_are_fronts h (by decide : 1 < 4) hfirst hsecond
  refine ⟨hfirst, hsecond, users, users', hu, hu', hfront, hlength, ?_⟩
  intro same
  exact absurd (hsame.mp same) (by decide)

end Roster.Handler
