import Roster.Proofs.Run
import Roster.Store

/-! What becomes of lines that are written to a sink of limited size. It makes no difference into
how many pieces a line is cut on its way; in the end the sink holds the front of all lines together,
and a line was written without a fault exactly if it ends within that front. -/
namespace Roster.Sink

theorem put_unlimited {s : Sink} (h : s.capacity = none) (bytes : List UInt8) :
    s.put bytes = ({ s with stored := s.stored ++ bytes }, .ok ()) := by
  simp [put, taken, h]

/-! ### Pieces -/

theorem put_of_fits {s : Sink} {bytes : List UInt8} (h : s.taken bytes.length = bytes.length) :
    s.put bytes = ({ s with stored := s.stored ++ bytes }, .ok ()) := by
  simp [put, h]

theorem put_append_of_fits {s : Sink} {bytes : List UInt8}
    (h : s.taken bytes.length = bytes.length) (more : List UInt8) :
    s.put (bytes ++ more) = ({ s with stored := s.stored ++ bytes } : Sink).put more := by
  have htaken : s.taken (bytes.length + more.length) =
      bytes.length + ({ s with stored := s.stored ++ bytes } : Sink).taken more.length := by
    cases hc : s.capacity with
    | none => simp only [taken, hc]
    | some capacity =>
      simp only [taken, hc, List.length_append] at h ⊢
      omega
  simp only [put, List.length_append, htaken, List.take_length_add_append, List.append_assoc,
    Nat.add_right_inj]

/-- Once some bytes do not find room, those behind them are not even looked at. -/
theorem put_append_of_cut {s : Sink} {bytes : List UInt8}
    (h : s.taken bytes.length ≠ bytes.length) (more : List UInt8) :
    s.put (bytes ++ more) = s.put bytes := by
  have hle := s.taken_le bytes.length
  have htaken : s.taken (bytes.length + more.length) = s.taken bytes.length := by
    cases hc : s.capacity with
    | none => simp [taken, hc] at h
    | some capacity =>
      simp only [taken, hc] at h ⊢
      omega
  have hmore : s.taken bytes.length ≠ bytes.length + more.length := by omega
  simp only [put, List.length_append, htaken, if_neg h, if_neg hmore,
    List.take_append_of_le_length hle]

/-- Fragments are written as if they were one. -/
theorem putAll_eq_put (s : Sink) (fragments : List (List UInt8)) :
    s.putAll fragments = s.put fragments.flatten := by
  induction fragments generalizing s with
  | nil => rw [List.flatten_nil, put_nil, putAll]
  | cons fragment fragments ih =>
    rw [List.flatten_cons]
    by_cases h : s.taken fragment.length = fragment.length
    · rw [put_append_of_fits h, ← ih]
      simp only [putAll, put_of_fits h]
    · rw [put_append_of_cut h]
      simp only [putAll, put, if_neg h]

/-- One way in which bytes can get into a sink. Of what it is offered it takes a portion of any size
as long as it has room, and is then offered the rest; what it is offered without room it refuses. -/
inductive Takes : Sink → List UInt8 → Sink × Except Refusal Unit → Prop where
  | all {s} : Takes s [] (s, .ok ())
  | portion {s bytes rest result} : bytes ≠ [] → s.taken bytes.length = bytes.length →
      Takes { s with stored := s.stored ++ bytes } rest result → Takes s (bytes ++ rest) result
  | refusal {s bytes} : bytes ≠ [] → s.taken 1 = 0 → Takes s bytes (s, .error s.refusal)

theorem taken_eq_zero {s : Sink} (full : s.taken 1 = 0) (n : Nat) : s.taken n = 0 := by
  cases hc : s.capacity with
  | none => simp [taken, hc] at full
  | some capacity =>
    simp only [taken, hc] at full ⊢
    omega

theorem put_full {s : Sink} (full : s.taken 1 = 0) {bytes : List UInt8} (h : bytes ≠ []) :
    s.put bytes = (s, .error s.refusal) := by
  have hlength := List.length_pos_iff.mpr h
  have hne : 0 ≠ bytes.length := by omega
  simp [put, taken_eq_zero full, if_neg hne]

theorem Takes.append {s : Sink} {bytes rest : List UInt8} {result : Sink × Except Refusal Unit}
    (fits : s.taken bytes.length = bytes.length)
    (h : Takes { s with stored := s.stored ++ bytes } rest result) :
    Takes s (bytes ++ rest) result := by
  by_cases hne : bytes = []
  · simpa [hne] using h
  · exact .portion hne fits h

theorem taken_behind {s : Sink} {n : Nat} (h : s.taken n < n) {bytes : List UInt8}
    (hlength : bytes.length = s.taken n) :
    ({ s with stored := s.stored ++ bytes } : Sink).taken 1 = 0 := by
  cases hc : s.capacity with
  | none => simp [taken, hc] at h
  | some capacity =>
    simp only [taken, hc, List.length_append] at h hlength ⊢
    omega

theorem taken_taken (s : Sink) (n : Nat) : s.taken (s.taken n) = s.taken n := by
  cases hc : s.capacity with
  | none => simp only [taken, hc]
  | some capacity =>
    simp only [taken, hc]
    omega

theorem takes_put (s : Sink) (bytes : List UInt8) : s.Takes bytes (s.put bytes) := by
  have hle := s.taken_le bytes.length
  have hlength : (bytes.take (s.taken bytes.length)).length = s.taken bytes.length :=
    List.length_take_of_le hle
  have hrest : Takes { s with stored := s.stored ++ bytes.take (s.taken bytes.length) }
      (bytes.drop (s.taken bytes.length)) (s.put bytes) := by
    by_cases fits : s.taken bytes.length = bytes.length
    · rw [put_of_fits fits, fits, List.drop_length, List.take_length]
      exact .all
    · have hleft : bytes.drop (s.taken bytes.length) ≠ [] := by
        rw [Ne, List.drop_eq_nil_iff]
        omega
      have hfull := taken_behind (Nat.lt_of_le_of_ne hle fits) hlength
      have hput : s.put bytes =
          ({ s with stored := s.stored ++ bytes.take (s.taken bytes.length) },
            .error s.refusal) := by
        simp only [put, if_neg fits]
      rw [hput]
      exact .refusal hleft hfull
  have hfits : s.taken (bytes.take (s.taken bytes.length)).length =
      (bytes.take (s.taken bytes.length)).length := by
    rw [hlength, taken_taken]
  simpa using Takes.append hfits hrest

/-- The portions make no difference. -/
theorem takes_iff {s : Sink} {bytes : List UInt8} {result : Sink × Except Refusal Unit} :
    s.Takes bytes result ↔ result = s.put bytes := by
  constructor
  · intro h
    induction h with
    | all => rw [put_nil]
    | portion _ fits _ ih => rw [ih, put_append_of_fits fits]
    | refusal hne full => rw [put_full full hne]
  · rintro rfl
    exact s.takes_put bytes

/-! ### Lines -/

/-- What is written to a sink: the announcement of a store that is to be made, or a line of a
logger. -/
inductive Call where
  | create (dbUrl : String)
  | log (logger : Logger) (message : String)

namespace Call

def text : Call → String
  | create _ => "UserService initialized"
  | log logger message => "[" ++ logger.tag ++ "] " ++ message

def line (c : Call) : List UInt8 := Text.bytes (c.text ++ "\n")

def store? : Call → Option Store
  | create dbUrl => some ⟨dbUrl, []⟩
  | log _ _ => none

def events : Call → List Event
  | create dbUrl => [.storeCreated dbUrl]
  | log _ _ => []

theorem length_line_pos (c : Call) : 0 < c.line.length := by
  have hfeed : (Text.bytes "\n").length = 1 := rfl
  rw [line, Text.bytes_append, List.length_append, hfeed]
  exact Nat.succ_pos _

end Call

def call (sink : Sink) : Call → Step Sink (Except Refusal (Option Store))
  | .create dbUrl =>
    match Store.createTo dbUrl sink with
    | (sink, .ok made) => ⟨sink, .ok (some made.state), made.printed, made.events⟩
    | (sink, .error refusal) => .quiet sink (.error refusal)
  | .log logger message =>
    let (sink, done) := logger.logTo sink message
    .quiet sink (done.map fun _ => none)

/-- Whether a call succeeds is decided by its line alone. -/
theorem call_eq (sink : Sink) (c : Call) :
    sink.call c =
      match sink.put c.line with
      | (sink, .ok ()) => ⟨sink, .ok c.store?, "", c.events⟩
      | (sink, .error refusal) => .quiet sink (.error refusal) := by
  cases c with
  | create dbUrl =>
    have hline : sink.putLine [Store.initNotice] = sink.put (Call.create dbUrl).line := by
      rw [putLine, putAll_eq_put]
      rfl
    simp only [call, Store.createTo, hline]
    rcases sink.put (Call.create dbUrl).line with ⟨after, _ | _⟩ <;> rfl
  | log logger message =>
    have hline : sink.putLine (logger.parts message) =
        sink.put (Call.log logger message).line := by
      have hspace : Text.bytes "] " = Text.bytes "]" ++ Text.bytes " " := rfl
      rw [putLine, putAll_eq_put]
      simp [Logger.parts, Logger.heading, Call.line, Call.text, hspace]
    simp only [call, Logger.logTo, hline]
    rcases sink.put (Call.log logger message).line with ⟨after, _ | _⟩ <;> rfl

/-- A sink to which these bytes have been written, as far as they went. -/
def offered (capacity : Nat) (refusal : Refusal) (bytes : List UInt8) : Sink :=
  ⟨some capacity, refusal, bytes.take capacity⟩

/-- What a call does that ends the lines so far with these bytes. -/
def report (capacity : Nat) (refusal : Refusal) (bytes : List UInt8) (c : Call) :
    Step Sink (Except Refusal (Option Store)) :=
  if bytes.length ≤ capacity then ⟨offered capacity refusal bytes, .ok c.store?, "", c.events⟩
  else ⟨offered capacity refusal bytes, .error refusal, "", []⟩

theorem call_offered (capacity : Nat) (refusal : Refusal) (bytes : List UInt8) (c : Call) :
    (offered capacity refusal bytes).call c = report capacity refusal (bytes ++ c.line) c := by
  have hline := c.length_line_pos
  have htaken : (offered capacity refusal bytes).taken c.line.length =
      min c.line.length (capacity - bytes.length) := by
    simp only [taken, offered, List.length_take]
    omega
  have hstored : bytes.take capacity ++ c.line.take (min c.line.length (capacity - bytes.length)) =
      (bytes ++ c.line).take capacity := by
    rw [List.take_append, Nat.min_comm, ← List.take_take, List.take_length]
  have hput : (offered capacity refusal bytes).put c.line =
      (offered capacity refusal (bytes ++ c.line),
        if (bytes ++ c.line).length ≤ capacity then .ok () else .error refusal) := by
    have hfits : min c.line.length (capacity - bytes.length) = c.line.length ↔
        (bytes ++ c.line).length ≤ capacity := by
      rw [List.length_append]
      omega
    simp only [put, htaken, hfits]
    simp only [offered, hstored]
  rw [call_eq, hput, report]
  by_cases fits : (bytes ++ c.line).length ≤ capacity
  · simp only [if_pos fits]
  · simp only [if_neg fits]
    rfl

theorem final_offered (capacity : Nat) (refusal : Refusal) (bytes : List UInt8)
    (calls : List Call) :
    Step.final call (offered capacity refusal bytes) calls =
      offered capacity refusal (bytes ++ calls.flatMap Call.line) := by
  induction calls generalizing bytes with
  | nil => simp
  | cons c calls ih =>
    have hstate : (report capacity refusal (bytes ++ c.line) c).state =
        offered capacity refusal (bytes ++ c.line) := by
      unfold report
      split <;> rfl
    rw [Step.final_cons, call_offered, hstate, ih, List.flatMap_cons, List.append_assoc]

/-- A sink that holds at most `capacity` bytes ends up with the front of all lines that are written
to it. A call succeeds exactly if the lines up to its own fit, all together and to the last byte; a
store is made and traced only then. Else the call fails with the refusal of the sink. In which
portions the sink takes what it is offered, and into which fragments a line is cut, makes no
difference. A sink without a limit gets what would be printed. -/
theorem lines_are_cut_at_capacity (capacity : Nat) (refusal : Refusal) (calls : List Call) :
    let sink : Sink := ⟨some capacity, refusal, []⟩
    let lines (n : Nat) : List UInt8 := (calls.take n).flatMap Call.line
    (Step.final call sink calls).stored =
        (calls.flatMap Call.line).take (min capacity (calls.flatMap Call.line).length) ∧
      (∀ n, (Step.run call sink calls)[n]? = calls[n]?.map fun c =>
        let after : Sink := ⟨some capacity, refusal, (lines (n + 1)).take capacity⟩
        if (lines (n + 1)).length ≤ capacity then ⟨after, .ok c.store?, "", c.events⟩
        else ⟨after, .error refusal, "", []⟩) ∧
      (∀ reason, (Refusal.failing reason).message = reason) ∧
      Refusal.takingNothing.message = "failed to write whole buffer" ∧
      (∀ s fragments result, Takes s fragments.flatten result ↔ result = s.putAll fragments) ∧
      ∀ stored logger message, Logger.logTo logger ⟨none, refusal, stored⟩ message =
        (⟨none, refusal, stored ++ Text.bytes (logger.log message ()).printed⟩, .ok ()) := by
  intro sink lines
  have hsink : sink = offered capacity refusal [] := by
    simp [sink, offered]
  refine ⟨?_, ?_, fun reason => rfl, rfl, ?_, ?_⟩
  · rw [hsink, final_offered, List.nil_append, offered, ← List.take_take, List.take_length]
  · intro n
    rw [Step.getElem?_run, hsink, final_offered, List.nil_append]
    cases hc : calls[n]? with
    | none => rfl
    | some c =>
      have hlines : lines (n + 1) = (calls.take n).flatMap Call.line ++ c.line := by
        simp [lines, List.take_add_one, hc]
      rw [Option.map_some, Option.map_some, call_offered, ← hlines]
      rfl
  · intro s fragments result
    rw [putAll_eq_put]
    exact takes_iff
  · intro stored logger message
    rw [Logger.logTo, putLine, putAll_eq_put, put_unlimited rfl]
    simp [Logger.parts, Logger.log, Logger.line]

end Roster.Sink
