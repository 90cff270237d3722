import Roster.Step

/-! Runs, seen from outside: as runs of another system, and from a place in the middle. -/
namespace Roster.Step

/-! ## Simulation

Every operation of one system stands for some operations of another; if single steps agree then so
do runs, whatever the operations and their order. -/

section

variable {σ τ ρ θ ι κ : Type}

theorem final_append (perform : σ → ι → Step σ ρ) (s : σ) (ops more : List ι) :
    final perform s (ops ++ more) = final perform (final perform s ops) more := by
  simp [final, List.foldl_append]

@[simp] theorem eventsAll_nil : eventsAll ([] : List (Step σ ρ)) = [] := rfl

@[simp] theorem eventsAll_cons (step : Step σ ρ) (steps : List (Step σ ρ)) :
    eventsAll (step :: steps) = step.events ++ eventsAll steps := by
  simp [eventsAll]

theorem eventsAll_append (steps more : List (Step σ ρ)) :
    eventsAll (steps ++ more) = eventsAll steps ++ eventsAll more := by
  simp [eventsAll]

@[simp] theorem printedAll_nil : printedAll ([] : List (Step σ ρ)) = "" := rfl

@[simp] theorem printedAll_cons (step : Step σ ρ) (steps : List (Step σ ρ)) :
    printedAll (step :: steps) = step.printed ++ printedAll steps := rfl

theorem printedAll_append (steps more : List (Step σ ρ)) :
    printedAll (steps ++ more) = printedAll steps ++ printedAll more := by
  induction steps with
  | nil => simp
  | cons step steps ih => simp [ih, String.append_assoc]

theorem getElem?_run (perform : σ → ι → Step σ ρ) (s : σ) (ops : List ι) (n : Nat) :
    (run perform s ops)[n]? = ops[n]?.map (perform (final perform s (ops.take n))) := by
  induction ops generalizing s n with
  | nil => rfl
  | cons op ops ih =>
    cases n with
    | zero => rfl
    | succ n => simp [ih]

/-- Each operation of the first system does the same as the operations of the second that it stands
for, seen from the state of the second. Replies are not compared. -/
structure Simulates (perform : σ → ι → Step σ ρ) (perform' : τ → κ → Step τ θ) (view : σ → τ)
    (ops : ι → List κ) : Prop where
  state : ∀ s op, view (perform s op).state = final perform' (view s) (ops op)
  events : ∀ s op, (perform s op).events = eventsAll (run perform' (view s) (ops op))
  printed : ∀ s op, (perform s op).printed = printedAll (run perform' (view s) (ops op))

namespace Simulates

variable {perform : σ → ι → Step σ ρ} {perform' : τ → κ → Step τ θ} {view : σ → τ}
  {ops : ι → List κ}

theorem final (h : Simulates perform perform' view ops) (s : σ) (is : List ι) :
    view (final perform s is) = Step.final perform' (view s) (is.flatMap ops) := by
  induction is generalizing s with
  | nil => rfl
  | cons i is ih =>
    rw [final_cons, ih, h.state, List.flatMap_cons, final_append]

theorem eventsAll (h : Simulates perform perform' view ops) (s : σ) (is : List ι) :
    eventsAll (run perform s is) = Step.eventsAll (run perform' (view s) (is.flatMap ops)) := by
  induction is generalizing s with
  | nil => rfl
  | cons i is ih =>
    rw [run_cons, eventsAll_cons, ih, h.events, h.state, List.flatMap_cons, run_append,
      eventsAll_append]

theorem printedAll (h : Simulates perform perform' view ops) (s : σ) (is : List ι) :
    printedAll (run perform s is) = Step.printedAll (run perform' (view s) (is.flatMap ops)) := by
  induction is generalizing s with
  | nil => rfl
  | cons i is ih =>
    rw [run_cons, printedAll_cons, ih, h.printed, h.state, List.flatMap_cons, run_append,
      printedAll_append]
end Simulates
end

/-! ## The middle of a run

What has gathered up to there, what happens there, and how the run goes on. -/

variable {σ ρ ι α : Type}

theorem final_appends {perform : σ → ι → Step σ ρ} (view : σ → List α) {added : ι → List α}
    (h : ∀ s op, view (perform s op).state = view s ++ added op) (s : σ) (ops : List ι) :
    view (final perform s ops) = view s ++ ops.flatMap added := by
  induction ops generalizing s with
  | nil => simp
  | cons op ops ih => rw [final_cons, ih, h, List.flatMap_cons, List.append_assoc]

/-- What no operation changes, no run changes. -/
theorem final_keeps {perform : σ → ι → Step σ ρ} (view : σ → α)
    (h : ∀ s op, view (perform s op).state = view s) (s : σ) (ops : List ι) :
    view (final perform s ops) = view s := by
  induction ops generalizing s with
  | nil => rfl
  | cons op ops ih => rw [final_cons, ih, h]

theorem final_take_succ {perform : σ → ι → Step σ ρ} {ops : List ι} {n : Nat} {op : ι}
    (h : ops[n]? = some op) (s : σ) :
    final perform s (ops.take (n + 1)) = (perform (final perform s (ops.take n)) op).state := by
  rw [List.take_add_one, h, final_append]
  rfl

theorem final_take_of_le {perform : σ → ι → Step σ ρ} {m n : Nat} (h : m ≤ n) (s : σ)
    (ops : List ι) :
    final perform s (ops.take n) =
      final perform (final perform s (ops.take m)) ((ops.take n).drop m) := by
  have hsplit := List.take_append_drop m (ops.take n)
  rw [List.take_take, Nat.min_eq_left h] at hsplit
  rw [← final_append, hsplit]

theorem take_run (perform : σ → ι → Step σ ρ) (s : σ) (ops : List ι) (n : Nat) :
    (run perform s ops).take n = run perform s (ops.take n) := by
  induction ops generalizing s n with
  | nil => simp
  | cons op ops ih =>
    cases n with
    | zero => rfl
    | succ n => simp [ih]

theorem drop_run (perform : σ → ι → Step σ ρ) (s : σ) (ops : List ι) (n : Nat) :
    (run perform s ops).drop n = run perform (final perform s (ops.take n)) (ops.drop n) := by
  induction ops generalizing s n with
  | nil => simp
  | cons op ops ih =>
    cases n with
    | zero => rfl
    | succ n => simp [ih]

theorem getElem?_replies (perform : σ → ι → Step σ ρ) (s : σ) (ops : List ι) (n : Nat) :
    ((run perform s ops).map Step.reply)[n]? =
      ops[n]?.map fun op => (perform (final perform s (ops.take n)) op).reply := by
  rw [List.getElem?_map, getElem?_run, Option.map_map]
  rfl

theorem filterMap_replies_cons (perform : σ → ι → Step σ ρ) (pick : ρ → Option α) (s : σ) (op : ι)
    (ops : List ι) :
    ((run perform s (op :: ops)).map Step.reply).filterMap pick =
      (pick (perform s op).reply).toList ++
        ((run perform (perform s op).state ops).map Step.reply).filterMap pick := by
  rw [run_cons, List.map_cons, List.filterMap_cons]
  cases pick (perform s op).reply <;> rfl

theorem exists_of_mem_run {perform : σ → ι → Step σ ρ} {s : σ} {ops : List ι} {step : Step σ ρ}
    (h : step ∈ run perform s ops) :
    ∃ n op, ops[n]? = some op ∧ step = perform (final perform s (ops.take n)) op := by
  obtain ⟨n, hn⟩ := List.mem_iff_getElem?.mp h
  rw [getElem?_run] at hn
  obtain ⟨op, hop, rfl⟩ := Option.map_eq_some_iff.mp hn
  exact ⟨n, op, hop, rfl⟩

end Roster.Step
