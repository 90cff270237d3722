import Mathlib.Data.List.Nodup
import Mathlib.Data.List.Perm.Subperm
import Mathlib.Logic.Function.Basic
import Roster.IdCounter
import Roster.Proofs.Server.Clients
import Roster.Proofs.Server.Trace

/-! Users that carry the ids which the counter gives out. Threads draw ids and call the server, all
in any order; as long as every user that gets into the store carries an id of its own, no two users
share an id, and everybody is found under the id. -/
namespace Roster

/-! ## Threads that draw ids

A call for an id has two parts: the count is taken and moved on at once, and some time later the id
is made from what was taken. In between all other threads may go on. -/

theorem nodup_of_subperm {α : Type} {l l' : List α} (h : l.Subperm l') (distinct : l'.Nodup) :
    l.Nodup := by
  obtain ⟨part, hsame, hpart⟩ := h
  exact hsame.nodup_iff.mp (distinct.sublist hpart)

section Own

variable {κ α β : Type} [DecidableEq κ]

theorem own_map (k : κ) (f : α → β) (items : List (κ × α)) :
    own k (items.map fun item => (item.1, f item.2)) = (own k items).map f := by
  simp [own, List.filter_map, Function.comp_def]

theorem count_own [DecidableEq α] {_ : BEq (κ × α)} [LawfulBEq (κ × α)] (k : κ) (a : α)
    (items : List (κ × α)) : (own k items).count a = items.count (k, a) := by
  induction items with
  | nil => rfl
  | cons item items ih =>
    obtain ⟨k', b⟩ := item
    by_cases hk : k' = k
    · subst hk
      rw [own_cons_self, List.count_cons, List.count_cons, ih]
      simp
    · rw [own_cons_of_ne hk, List.count_cons_of_ne, ih]
      simp [hk]

theorem perm_of_own [DecidableEq α] {items items' : List (κ × α)}
    (h : ∀ k, own k items = own k items') : items.Perm items' := by
  rw [List.perm_iff_count]
  rintro ⟨k, a⟩
  rw [← count_own, ← count_own, h]

theorem subperm_of_own [DecidableEq α] {items items' : List (κ × α)}
    (h : ∀ k, (own k items).Sublist (own k items')) : items.Subperm items' := by
  rw [List.subperm_iff_count]
  rintro ⟨k, a⟩
  rw [← count_own, ← count_own]
  exact (h k).count_le a

end Own

namespace IdCounter

/-- A counter and the threads that share it. A thread that has begun a call holds the count that it
has taken until it answers. -/
structure Shared (κ : Type) where
  counter : IdCounter
  held : κ → Option UInt64

namespace Shared

variable {κ : Type} [DecidableEq κ]

def idle : Shared κ := ⟨fresh, fun _ => none⟩

/-- The next part of a call of a thread: it takes the count, or it answers with its id. -/
def turn (s : Shared κ) (k : κ) : Step (Shared κ) (Option UserId) :=
  match s.held k with
  | none => .quiet ⟨s.counter.take.2, Function.update s.held k (some s.counter.take.1)⟩ none
  | some count => .quiet { s with held := Function.update s.held k none } (some (count + 1))

/-- A call that nothing comes between is a single one on the counter. -/
theorem turn_turn {s : Shared κ} {k : κ} (h : s.held k = none) :
    (s.turn k).state.turn k =
      .quiet { s with counter := s.counter.next.2 } (some s.counter.next.1) := by
  have hheld : (s.turn k).state.held k = some s.counter.take.1 := by
    simp [turn, h, Step.quiet]
  rw [turn, hheld]
  simp only [turn, h, Step.quiet, Function.update_idem, IdCounter.next]
  congr
  rw [← h, Function.update_eq_self]

/-- What has become of the calls begun so far, listed in the order in which they began. The ids of a
thread, together with the one it is about to answer, are the places of its calls among all. -/
structure Drawn (s : Shared κ) (begun : List κ) (issued : List (κ × UserId)) : Prop where
  count : s.counter.count.toNat = begun.length
  ids : ∀ k, (own k issued).map UInt64.toNat ++ ((s.held k).map (·.toNat + 1)).toList =
    own k (begun.zipIdx 1)

theorem drawn_idle : (idle : Shared κ).Drawn [] [] := ⟨rfl, fun _ => rfl⟩

variable {s : Shared κ} {begun : List κ} {issued : List (κ × UserId)}

theorem own_zipIdx_append (k : κ) (begun : List κ) (j : κ) :
    own k ((begun ++ [j]).zipIdx 1) =
      own k (begun.zipIdx 1) ++ if j = k then [begun.length + 1] else [] := by
  rw [List.zipIdx_append, own_append]
  by_cases h : j = k
  · subst h
    simp [Nat.add_comm]
  · simp [own, h]

theorem pairwise_own_zipIdx (k : κ) (begun : List κ) :
    (own k (begun.zipIdx 1)).Pairwise (· < ·) := by
  have hsub : (own k (begun.zipIdx 1)).Sublist ((begun.zipIdx 1).map Prod.snd) :=
    List.filter_sublist.map _
  rw [List.zipIdx_map_snd] at hsub
  exact List.Pairwise.sublist hsub List.pairwise_lt_range'

theorem Drawn.held_lt (h : s.Drawn begun issued) {k : κ} {count : UInt64}
    (held : s.held k = some count) : count.toNat < begun.length := by
  have hmem : count.toNat + 1 ∈ own k (begun.zipIdx 1) := by
    rw [← h.ids k, held]
    simp
  have hplace := List.mem_zipIdx (mem_own.mp hmem)
  omega

theorem Drawn.begin (h : s.Drawn begun issued) {k : κ} (free : s.held k = none)
    (few : begun.length + 1 < UInt64.size) :
    (s.turn k).state.Drawn (begun ++ [k]) issued := by
  constructor
  · simp only [turn, free, Step.quiet, take, UInt64.toNat_add, h.count, List.length_append]
    exact Nat.mod_eq_of_lt few
  · intro j
    rw [own_zipIdx_append, ← h.ids j]
    by_cases hj : k = j
    · subst hj
      simp [turn, free, Step.quiet, take, h.count]
    · have hother : j ≠ k := fun heq => hj heq.symm
      simp [turn, free, Step.quiet, Function.update_of_ne hother, hj]

theorem Drawn.answer (h : s.Drawn begun issued) {k : κ} {count : UInt64}
    (held : s.held k = some count) (few : begun.length < UInt64.size) :
    (s.turn k).state.Drawn begun (issued ++ [(k, count + 1)]) := by
  have hid : (count + 1).toNat = count.toNat + 1 := by
    have hlt : count.toNat + 1 < UInt64.size := Nat.lt_of_le_of_lt (h.held_lt held) few
    rw [UInt64.toNat_add]
    exact Nat.mod_eq_of_lt hlt
  constructor
  · simp only [turn, held, Step.quiet]
    exact h.count
  · intro j
    rw [← h.ids j, own_append]
    by_cases hj : k = j
    · subst hj
      simp [turn, held, Step.quiet, hid]
    · have hother : j ≠ k := fun heq => hj heq.symm
      simp [turn, held, Step.quiet, Function.update_of_ne hother, own_cons_of_ne hj]

theorem Drawn.pairwise (h : s.Drawn begun issued) (k : κ) :
    ((own k issued).map UInt64.toNat).Pairwise (· < ·) := by
  have hall := pairwise_own_zipIdx k begun
  rw [← h.ids k, List.pairwise_append] at hall
  exact hall.1

theorem Drawn.subperm (h : s.Drawn begun issued) :
    (issued.map fun issue => issue.2.toNat).Subperm (List.range' 1 begun.length) := by
  have hmarked : (issued.map fun issue => (issue.1, issue.2.toNat)).Subperm (begun.zipIdx 1) := by
    apply subperm_of_own
    intro k
    rw [own_map, ← h.ids k]
    exact List.sublist_append_left _ _
  obtain ⟨part, hsame, hpart⟩ := hmarked
  have hids := hsame.map Prod.snd
  rw [List.map_map] at hids
  refine ⟨_, hids, ?_⟩
  rw [← List.zipIdx_map_snd 1 begun]
  exact hpart.map Prod.snd

theorem Drawn.perm (h : s.Drawn begun issued) (answered : ∀ k, s.held k = none) :
    (issued.map fun issue => issue.2.toNat).Perm (List.range' 1 begun.length) := by
  have hmarked : (issued.map fun issue => (issue.1, issue.2.toNat)).Perm (begun.zipIdx 1) := by
    apply perm_of_own
    intro k
    rw [own_map, ← h.ids k, answered k]
    exact (List.append_nil _).symm
  have hids := hmarked.map Prod.snd
  rwa [List.map_map, List.zipIdx_map_snd] at hids

end Shared
end IdCounter

/-! ## Threads that call the server -/

theorem Store.find?_of_mem {s : Store} (distinct : s.ids.Nodup) {u : User} (hu : u ∈ s.users) :
    s.find? u.id = some u := by
  obtain ⟨before, after, hsplit⟩ := List.append_of_mem hu
  refine find?_eq_some.mpr ⟨rfl, before, after, hsplit, ?_⟩
  intro v hv heq
  rw [ids, hsplit, List.map_append, List.nodup_append] at distinct
  exact distinct.2.2 _ (List.mem_map_of_mem hv) _ List.mem_cons_self heq

open IdCounter (Shared)

structure Deployment (κ : Type) where
  counter : Shared κ
  server : Server

namespace Deployment

variable {κ : Type} [DecidableEq κ]

inductive Act (κ : Type) where
  | turn (k : κ)
  | call (c : Server.Call)

inductive Reply (κ : Type) where
  | begun (k : κ)
  | issued (k : κ) (id : UserId)
  | served (reply : Server.Reply)

def perform (d : Deployment κ) : Act κ → Step (Deployment κ) (Reply κ)
  | .turn k => (d.counter.turn k).map (fun counter => { d with counter }) fun
    | none => .begun k
    | some id => .issued k id
  | .call c => (d.server.call c).map (fun server => { d with server }) .served

def fresh (dbUrl : String) (logger : Logger) : Deployment κ :=
  ⟨.idle, ⟨⟨.empty dbUrl⟩, logger⟩⟩

def Reply.begun? : Reply κ → Option κ
  | .begun k => some k
  | .issued _ _ => none
  | .served _ => none

def Reply.issued? : Reply κ → Option (κ × UserId)
  | .begun _ => none
  | .issued k id => some (k, id)
  | .served _ => none

/-- The threads that begin calls for an id, in the order in which they take the count. -/
def begun (d : Deployment κ) (acts : List (Act κ)) : List κ :=
  ((Step.run perform d acts).map Step.reply).filterMap Reply.begun?

def issued (d : Deployment κ) (acts : List (Act κ)) : List (κ × UserId) :=
  ((Step.run perform d acts).map Step.reply).filterMap Reply.issued?

def Act.accepted : Act κ → List User
  | .turn _ => []
  | .call c => c.accepted

theorem users_perform (d : Deployment κ) (act : Act κ) :
    (d.perform act).state.server.store.users = d.server.store.users ++ act.accepted := by
  cases act with
  | turn k => exact (List.append_nil _).symm
  | call c => exact d.server.users_call c

theorem users_final (d : Deployment κ) (acts : List (Act κ)) :
    (Step.final perform d acts).server.store.users =
      d.server.store.users ++ acts.flatMap Act.accepted :=
  Step.final_appends (fun d => d.server.store.users) users_perform d acts

theorem begun_cons (d : Deployment κ) (act : Act κ) (acts : List (Act κ)) :
    d.begun (act :: acts) =
      (d.perform act).reply.begun?.toList ++ (d.perform act).state.begun acts :=
  Step.filterMap_replies_cons perform Reply.begun? d act acts

theorem issued_cons (d : Deployment κ) (act : Act κ) (acts : List (Act κ)) :
    d.issued (act :: acts) =
      (d.perform act).reply.issued?.toList ++ (d.perform act).state.issued acts :=
  Step.filterMap_replies_cons perform Reply.issued? d act acts

theorem begun_append (d : Deployment κ) (acts more : List (Act κ)) :
    d.begun (acts ++ more) = d.begun acts ++ (Step.final perform d acts).begun more := by
  simp [begun, Step.run_append]

theorem length_begun_take (d : Deployment κ) (acts : List (Act κ)) (n : Nat) :
    (d.begun (acts.take n)).length ≤ (d.begun acts).length := by
  have hsplit := d.begun_append (acts.take n) (acts.drop n)
  rw [List.take_append_drop] at hsplit
  rw [hsplit, List.length_append]
  exact Nat.le_add_right _ _

theorem drawn_perform {d : Deployment κ} {earlier : List κ} {before : List (κ × UserId)}
    (h : d.counter.Drawn earlier before) (act : Act κ)
    (few : (earlier ++ (d.perform act).reply.begun?.toList).length < UInt64.size) :
    (d.perform act).state.counter.Drawn (earlier ++ (d.perform act).reply.begun?.toList)
      (before ++ (d.perform act).reply.issued?.toList) := by
  cases act with
  | turn k =>
    cases hheld : d.counter.held k with
    | none =>
      have hreply : (d.perform (.turn k)).reply = .begun k := by
        simp [perform, Step.map, Shared.turn, hheld, Step.quiet]
      rw [hreply] at few ⊢
      simp only [Reply.issued?, Option.toList_none, List.append_nil]
      exact h.begin hheld (by simpa [Reply.begun?] using few)
    | some count =>
      have hreply : (d.perform (.turn k)).reply = .issued k (count + 1) := by
        simp [perform, Step.map, Shared.turn, hheld, Step.quiet]
      rw [hreply] at few ⊢
      simp only [Reply.begun?, Option.toList_none, List.append_nil] at few ⊢
      exact h.answer hheld few
  | call c =>
    have hreply : (d.perform (.call c)).reply = .served (d.server.call c).reply := rfl
    rw [hreply]
    simp only [Reply.begun?, Reply.issued?, Option.toList_none, List.append_nil]
    exact h

theorem drawn_final {d : Deployment κ} {earlier : List κ} {before : List (κ × UserId)}
    (h : d.counter.Drawn earlier before) (acts : List (Act κ))
    (few : (earlier ++ d.begun acts).length < UInt64.size) :
    (Step.final perform d acts).counter.Drawn (earlier ++ d.begun acts)
      (before ++ d.issued acts) := by
  induction acts generalizing d earlier before with
  | nil => simpa [begun, issued] using h
  | cons act acts ih =>
    rw [begun_cons, ← List.append_assoc] at few ⊢
    rw [issued_cons, ← List.append_assoc, Step.final_cons]
    have hfirst : (earlier ++ (d.perform act).reply.begun?.toList).length < UInt64.size := by
      rw [List.length_append] at few
      exact Nat.lt_of_le_of_lt (Nat.le_add_right _ _) few
    exact ih (drawn_perform h act hfirst) few

theorem drawn_take (dbUrl : String) (logger : Logger) {acts : List (Act κ)}
    (few : ((fresh dbUrl logger).begun acts).length < UInt64.size) (n : Nat) :
    (Step.final perform (fresh dbUrl logger) (acts.take n)).counter.Drawn
      ((fresh dbUrl logger).begun (acts.take n)) ((fresh dbUrl logger).issued (acts.take n)) := by
  have hidle : (fresh dbUrl logger : Deployment κ).counter.Drawn [] [] := Shared.drawn_idle
  exact drawn_final hidle (acts.take n) (Nat.lt_of_le_of_lt (length_begun_take _ acts n) few)

/-- The users of a store that was empty keep different ids if those who get in carry different
ones. -/
theorem nodup_ids_take {d : Deployment κ} (empty : d.server.store.users = [])
    {acts : List (Act κ)} (distinct : ((acts.flatMap Act.accepted).map User.id).Nodup) (n : Nat) :
    (Step.final perform d (acts.take n)).server.store.ids.Nodup := by
  rw [Store.ids, users_final, empty, List.nil_append]
  rw [← List.take_append_drop n acts, List.flatMap_append, List.map_append] at distinct
  exact (List.nodup_append.mp distinct).1

theorem users_subset_of_le (d : Deployment κ) (acts : List (Act κ)) {m n : Nat} (h : m ≤ n) :
    (Step.final perform d (acts.take m)).server.store.users ⊆
      (Step.final perform d (acts.take n)).server.store.users := by
  rw [Step.final_take_of_le h, users_final _ ((acts.take n).drop m)]
  exact List.subset_append_left _ _

/-- The ids that are given out are the numbers from one on, each of them once; to each thread they
come in ascending order, and none of them is too large. Whoever calls the server in between, and
whatever becomes of the ids: as long as the users that get into a store that was empty carry
different ones of them, no two users ever share an id, and every user stays the one that is found
under its id. -/
theorem issued_ids_are_unique (dbUrl : String) (logger : Logger) {acts : List (Act κ)}
    (few : ((fresh dbUrl logger).begun acts).length < UInt64.size) :
    let start : Deployment κ := fresh dbUrl logger
    let after := fun n => Step.final perform start (acts.take n)
    let total := (start.begun acts).length
    let ids := start.issued acts
    (∀ n k count, (after n).counter.held k = some count → count.toNat + 1 < UInt64.size) ∧
      (∀ k, ((own k ids).map UInt64.toNat).Pairwise (· < ·)) ∧
      (ids.map fun issue => issue.2.toNat).Subperm (List.range' 1 total) ∧
      ((∀ k, (Step.final perform start acts).counter.held k = none) →
        (ids.map fun issue => issue.2.toNat).Perm (List.range' 1 total)) ∧
      (((acts.flatMap Act.accepted).map User.id).Subperm (ids.map Prod.snd) →
        ∀ n, (after n).server.store.ids.Nodup ∧
          ∀ u ∈ (after n).server.store.users, ∀ m ≥ n,
            ((after m).server.store.find u.id).reply = some u) := by
  intro start after total ids
  have hdrawn := drawn_take dbUrl logger few
  have hall : (Step.final perform start acts).counter.Drawn (start.begun acts) ids := by
    have h := hdrawn acts.length
    rwa [List.take_length] at h
  refine ⟨?_, hall.pairwise, hall.subperm, hall.perm, ?_⟩
  · intro n k count hheld
    have hlt : count.toNat + 1 ≤ (start.begun (acts.take n)).length := (hdrawn n).held_lt hheld
    exact Nat.lt_of_le_of_lt (Nat.le_trans hlt (start.length_begun_take acts n)) few
  · intro hcarried n
    have hissued : (ids.map Prod.snd).Nodup := by
      have hplaces : ((ids.map Prod.snd).map UInt64.toNat).Nodup := by
        rw [List.map_map]
        exact nodup_of_subperm hall.subperm List.nodup_range'
      exact List.Nodup.of_map _ hplaces
    have hdistinct := nodup_of_subperm hcarried hissued
    refine ⟨nodup_ids_take rfl hdistinct n, ?_⟩
    intro u hu m hmn
    exact Store.find?_of_mem (nodup_ids_take rfl hdistinct m) (start.users_subset_of_le acts hmn hu)

/-- Two threads draw ids; the one that took the count first answers last, and draws another id that
nobody uses. The users get in the other way round, one of them behind a registration that is
refused. -/
theorem issued_ids_are_unique_interleaved :
    let start : Deployment Bool := fresh "db" .default
    let acts : List (Act Bool) := [.turn true, .turn false, .turn false, .turn true, .turn true,
      .turn true, .call (.handler (.register 1 "" "a@x")),
      .call (.handler (.register 1 "Ann" "a@x")), .call (.store (.add ⟨2, "Bo", ""⟩)),
      .call (.server .start)]
    ((start.issued acts).map fun issue => issue.2.toNat).Perm (List.range' 1 3) ∧
      ((Step.final perform start acts).server.store.find 1).reply = some ⟨1, "Ann", "a@x"⟩ := by
  intro start acts
  have hfew : (start.begun acts).length < UInt64.size := by decide
  obtain ⟨-, -, -, hperm, hcarried⟩ := issued_ids_are_unique "db" .default hfew
  refine ⟨hperm (by decide), ?_⟩
  have hown : ((acts.flatMap Act.accepted).map User.id).Subperm
      ((start.issued acts).map Prod.snd) := ⟨[2, 1], by decide, by decide⟩
  obtain ⟨-, hfound⟩ := hcarried hown 8
  exact hfound ⟨1, "Ann", "a@x"⟩ (by decide) 10 (by decide)

end Deployment
end Roster
