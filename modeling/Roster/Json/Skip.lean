import Roster.Json.Literal
import Roster.Json.Number

/-! Passing over any JSON value, to any depth. The lists and objects that are open stand on a
stack, the innermost one first. -/
namespace Roster.Json

inductive Frame where
  | list
  | object
  deriving DecidableEq

def Frame.ofOpening? : Char → Option Frame
  | '[' => some .list
  | '{' => some .object
  | _ => none

def Frame.closing : Frame → Char
  | list => ']'
  | object => '}'

def Frame.unclosed : Frame → Cause
  | list => .endOfList
  | object => .endOfObject

def Frame.expectedEnd : Frame → Cause
  | list => .expectedListEnd
  | object => .expectedObjectEnd

def skipScalar (c : Char) (rest : List Char) : Except Fault (List Char) :=
  if c = 'n' then readWord ['u', 'l', 'l'] rest
  else if c = 't' then readWord ['r', 'u', 'e'] rest
  else if c = 'f' then readWord ['a', 'l', 's', 'e'] rest
  else if c = '"' then skipText rest
  else if c = '-' ∨ c.isDigit then skipNumber (c :: rest)
  else .error (.ahead .expectedValue (c :: rest))

def readColon (text : List Char) : Except Fault (List Char) :=
  match skipBlanks text with
  | [] => .error (.ahead .endOfObject [])
  | c :: rest => if c = ':' then .ok rest else .error (.ahead .expectedColon (c :: rest))

def Frame.skipLead (frame : Frame) (text : List Char) : Except Fault (List Char) :=
  match frame with
  | .list => .ok text
  | .object =>
    match skipBlanks text with
    | [] => .error (.ahead .endOfObject [])
    | c :: rest =>
      if c = '"' then
        match skipText rest with
        | .ok more => readColon more
        | .error fault => .error fault
      else .error (.ahead .keyNotText (c :: rest))

/-- Where the machine stands: in front of a value, behind an opening bracket, or behind a value.
Behind a value that is in no list or object nothing is left to do. -/
inductive Stand where
  | before (frames : List Frame)
  | opened (frame : Frame) (frames : List Frame)
  | behind (frames : List Frame)

def Stand.step (stand : Stand) (text : List Char) : Except Fault (Stand × List Char) :=
  match stand with
  | .before frames =>
    match skipBlanks text with
    | [] => .error (.ahead .endOfValue [])
    | c :: rest =>
      match Frame.ofOpening? c with
      | some frame => .ok (.opened frame frames, rest)
      | none => (skipScalar c rest).map fun rest => (.behind frames, rest)
  | .opened frame frames =>
    match skipBlanks text with
    | [] => .error (.ahead frame.unclosed [])
    | c :: rest =>
      if c = frame.closing then .ok (.behind frames, rest)
      else (frame.skipLead (c :: rest)).map fun rest => (.before (frame :: frames), rest)
  | .behind [] => .ok (.behind [], text)
  | .behind (frame :: frames) =>
    match skipBlanks text with
    | [] => .error (.ahead frame.unclosed [])
    | c :: rest =>
      if c = ',' then (frame.skipLead rest).map fun rest => (.before (frame :: frames), rest)
      else if c = frame.closing then .ok (.behind frames, rest)
      else .error (.ahead frame.expectedEnd (c :: rest))

def Stand.isDone : Stand → Bool
  | .behind [] => true
  | _ => false

/-- Every move makes this smaller, as only the one behind an opening bracket may consume nothing. -/
def Stand.weight (stand : Stand) (text : List Char) : Nat :=
  match stand with
  | .opened _ _ => 2 * text.length + 1
  | _ => 2 * text.length

theorem length_skipScalar {c : Char} {text rest : List Char} (h : skipScalar c text = .ok rest) :
    rest.length ≤ text.length := by
  unfold skipScalar at h
  repeat' split at h
  · exact length_readWord h
  · exact length_readWord h
  · exact length_readWord h
  · exact Nat.le_of_lt (length_skipText h)
  · exact Nat.le_of_lt_succ (length_skipNumber h)
  · cases h

theorem length_of_skipBlanks {text rest : List Char} {c : Char} (h : skipBlanks text = c :: rest) :
    rest.length < text.length := by
  have := length_skipBlanks text
  rw [h] at this
  exact this

theorem length_readColon {text rest : List Char} (h : readColon text = .ok rest) :
    rest.length < text.length := by
  unfold readColon at h
  split at h
  · cases h
  · next hb =>
    split at h
    · cases h
      exact length_of_skipBlanks hb
    · cases h

theorem Frame.length_skipLead {frame : Frame} {text rest : List Char}
    (h : frame.skipLead text = .ok rest) : rest.length ≤ text.length := by
  unfold skipLead at h
  split at h
  · cases h
    exact Nat.le_refl _
  · split at h
    · cases h
    · next hb =>
      have := length_of_skipBlanks hb
      split at h
      · split at h
        · next hs =>
          have := length_skipText hs
          have := length_readColon h
          omega
        · cases h
      · cases h

theorem map_eq_ok {α β : Type} {f : α → β} {r : Except Fault α} {b : β}
    (h : r.map f = .ok b) : ∃ a, r = .ok a ∧ f a = b := by
  cases r with
  | error fault => cases h
  | ok a => exact ⟨a, rfl, Except.ok.inj h⟩

theorem Stand.weight_le (stand : Stand) (text : List Char) :
    2 * text.length ≤ stand.weight text ∧ stand.weight text ≤ 2 * text.length + 1 := by
  unfold weight
  split <;> omega

theorem Stand.weight_step {stand next : Stand} {text rest : List Char}
    (h : stand.step text = .ok (next, rest)) (busy : stand.isDone = false) :
    next.weight rest < stand.weight text := by
  cases stand with
  | before frames =>
    simp only [step] at h
    split at h
    · cases h
    · next hb =>
      have hl := length_of_skipBlanks hb
      split at h
      · cases h
        simp only [weight]
        omega
      · obtain ⟨more, hs, he⟩ := map_eq_ok h
        cases he
        have := length_skipScalar hs
        simp only [weight]
        omega
  | opened frame frames =>
    simp only [step] at h
    split at h
    · cases h
    · next hb =>
      have hl := length_of_skipBlanks hb
      split at h
      · cases h
        simp only [weight]
        omega
      · obtain ⟨more, hs, he⟩ := map_eq_ok h
        cases he
        have := frame.length_skipLead hs
        simp only [List.length_cons] at this
        simp only [weight]
        omega
  | behind frames =>
    cases frames with
    | nil => cases busy
    | cons frame frames =>
      simp only [step] at h
      split at h
      · cases h
      · next hb =>
        have hl := length_of_skipBlanks hb
        split at h
        · obtain ⟨more, hs, he⟩ := map_eq_ok h
          cases he
          have := frame.length_skipLead hs
          simp only [weight]
          omega
        · split at h
          · cases h
            simp only [weight]
            omega
          · cases h

def Stand.skip (stand : Stand) (text : List Char) : Except Fault (List Char) :=
  if _busy : stand.isDone = true then .ok text
  else
    match _h : stand.step text with
    | .ok (next, rest) => next.skip rest
    | .error fault => .error fault
termination_by stand.weight text
decreasing_by exact Stand.weight_step _h (eq_false_of_ne_true _busy)

def skipValue (text : List Char) : Except Fault (List Char) := (Stand.before []).skip text

theorem Stand.length_skip {stand : Stand} {text rest : List Char}
    (h : stand.skip text = .ok rest) : rest.length ≤ text.length := by
  fun_induction Stand.skip stand text with
  | case1 => cases h; exact Nat.le_refl _
  | case2 stand text busy next more hs ih =>
    have := Stand.weight_step hs (eq_false_of_ne_true busy)
    have := next.weight_le more
    have := stand.weight_le text
    have := ih h
    omega
  | case3 => cases h

theorem length_skipValue {text rest : List Char} (h : skipValue text = .ok rest) :
    rest.length ≤ text.length :=
  Stand.length_skip h

end Roster.Json
