import Roster.Proofs.Json.Record

/-! Which fault a reader of records reports. The members are read in the order of the text, so that
the first one that cannot be taken up decides, whatever comes behind it; a field that is not there
is noticed only at the end of the object. -/
namespace Roster.Json

/-! ## Numbers that are no words

Every number of the grammar is read up to its end; one that is whole and fits a word, signed or
unsigned, is exact, and any other is a double or out of range. -/

/-- The number read is a double, or there is no such double. -/
def IsDouble (t : List Char) (read : Except Fault (Number × List Char)) : Prop :=
  (∃ x, read = .ok (.float x, t)) ∨ ∃ left, read = .error ⟨.numberOutOfRange, left⟩

theorem finish_isDouble (negative : Bool) (significand : Nat) (exponent : Int) (t : List Char) :
    IsDouble t (finish negative significand exponent t) := by
  unfold finish
  split
  · exact .inl ⟨_, rfl⟩
  · exact .inr ⟨_, rfl⟩

/-! ### Exponents -/

theorem readExponentDigits_append {w t : List Char} (hw : AllDigits w)
    (ht : startsWithDigit t = false) (n : Nat) :
    (∃ m, readExponentDigits n (w ++ t) = .ok (m, t)) ∨
      ∃ v, AllDigits v ∧ readExponentDigits n (w ++ t) = .error (v ++ t) := by
  induction w generalizing n with
  | nil =>
    left
    cases t with
    | nil => exact ⟨n, rfl⟩
    | cons c t =>
      have hc : c.isDigit = false := ht
      exact ⟨n, by simp [readExponentDigits, hc]⟩
  | cons c w ih =>
    by_cases hn : n * 10 + digitValue c < exponentLimit
    · have hstep : readExponentDigits n (c :: w ++ t) =
          readExponentDigits (n * 10 + digitValue c) (w ++ t) := by
        simp [readExponentDigits, hw.head, hn]
      rw [hstep]
      exact ih hw.tail _
    · right
      exact ⟨w, hw.tail, by simp [readExponentDigits, hw.head, hn]⟩

theorem readExponent_isDouble {sign w t : List Char}
    (hs : sign = [] ∨ sign = ['+'] ∨ sign = ['-']) (hne : w ≠ []) (hw : AllDigits w)
    (ht : startsWithDigit t = false) (negative : Bool) (significand : Nat) (exponent : Int) :
    IsDouble t (readExponent negative significand exponent (sign ++ (w ++ t))) := by
  have hd := startsWithDigit_append (t := t) hw hne
  have hne' : w ++ t ≠ [] := by
    simp [hne]
  simp only [readExponent, readExponentSign_append hs hne hw t, if_neg hne', hd, if_true]
  rcases readExponentDigits_append hw ht 0 with ⟨m, hm⟩ | ⟨v, hv, hm⟩
  · simp only [hm]
    exact finish_isDouble _ _ _ _
  · simp only [hm]
    split
    · exact .inr ⟨_, rfl⟩
    · rw [countDigits_append hv ht 0]
      exact .inl ⟨_, rfl⟩

theorem readScale_isDouble {e t : List Char} (he : Exponent e) (ht : EndsNumber t)
    (negative : Bool) (significand : Nat) (exponent : Int) :
    IsDouble t (readScale negative significand exponent (e ++ t)) := by
  rcases he with _ | ⟨rfl | rfl, hs, hne, hw⟩
  · rw [List.nil_append]
    unfold readScale
    split
    · exact absurd rfl ht.2.2.1
    · exact absurd rfl ht.2.2.2
    · exact finish_isDouble _ _ _ _
  · simpa [readScale] using
      readExponent_isDouble hs hne hw ht.noDigit negative significand exponent
  · simpa [readScale] using
      readExponent_isDouble hs hne hw ht.noDigit negative significand exponent

/-! ### Fractions and whole parts -/

theorem absorb_digits {w t : List Char} (hw : AllDigits w) (ht : startsWithDigit t = false)
    (n count : Nat) :
    ∃ m taken v, AllDigits v ∧ absorb n count (w ++ t) = (m, taken, v ++ t) ∧
      (n < wordLimit → wordLimit ≤ Nat.ofDigitChars 10 w n → v ≠ []) := by
  induction w generalizing n count with
  | nil =>
    refine ⟨n, count, [], allDigits_nil, ?_, ?_⟩
    · cases t with
      | nil => rfl
      | cons c t =>
        have hc : c.isDigit = false := ht
        simp [absorb, hc]
    · intro hn hlarge
      rw [Nat.ofDigitChars_nil] at hlarge
      omega
  | cons c w ih =>
    by_cases hn : n * 10 + digitValue c < wordLimit
    · have hstep : absorb n count (c :: w ++ t) =
          absorb (n * 10 + digitValue c) (count + 1) (w ++ t) := by
        simp [absorb, hw.head, hn]
      obtain ⟨m, taken, v, hv, habsorb, hleft⟩ := ih hw.tail (n * 10 + digitValue c) (count + 1)
      refine ⟨m, taken, v, hv, hstep.trans habsorb, ?_⟩
      intro _ hlarge
      rw [ofDigitChars_step] at hlarge
      exact hleft hn hlarge
    · refine ⟨n, count, c :: w, hw, by simp [absorb, hn], ?_⟩
      intro _ _ hnil
      cases hnil

theorem readFraction_isDouble {w e t : List Char} (hne : w ≠ []) (hw : AllDigits w)
    (he : Exponent e) (ht : EndsNumber t) (negative : Bool) (significand : Nat) (exponent : Int) :
    IsDouble t (readFraction negative significand exponent (w ++ (e ++ t))) := by
  have hends := he.noDigit ht
  have hd := startsWithDigit_append (t := e ++ t) hw hne
  have hne' : w ++ (e ++ t) ≠ [] := by
    simp [hne]
  obtain ⟨m, taken, v, hv, habsorb, -⟩ := absorb_digits hw hends significand 0
  simp only [readFraction, if_neg hne', hd, if_true, habsorb, countDigits_append hv hends 0]
  exact readScale_isDouble he ht _ _ _

/-- What is not just digits that fit a word is a double. -/
theorem readMagnitude_isDouble {whole f e t : List Char} (hw : WholePart whole) (hf : Fraction f)
    (he : Exponent e) (ht : EndsNumber t)
    (wide : f ≠ [] ∨ e ≠ [] ∨ wordLimit ≤ Nat.ofDigitChars 10 whole 0) (negative : Bool) :
    IsDouble t (readMagnitude negative (whole ++ (f ++ (e ++ t)))) := by
  have hends := hf.noDigit (he.noDigit ht)
  obtain ⟨m, taken, v, hv, habsorb, hleft⟩ := absorb_digits hw.allDigits hends 0 0
  have hcount := countDigits_append hv hends 0
  cases whole with
  | nil => exact absurd rfl hw.ne_nil
  | cons c w =>
    rw [List.cons_append] at habsorb ⊢
    simp only [readMagnitude, hw.allDigits.head, if_true, if_neg (hw.head hends), habsorb, hcount]
    rcases hf with _ | ⟨hne, hd⟩
    · rcases he with _ | ⟨rfl | rfl, hs, hne, hd⟩
      · -- Only the size of the number is left, so that some digits were not absorbed.
        have hlarge : wordLimit ≤ Nat.ofDigitChars 10 (c :: w) 0 := by
          simpa using wide
        have hlength := List.length_pos_iff.mpr (hleft (by decide) hlarge)
        have hdropped : 0 + v.length ≠ 0 := by
          omega
        simp only [List.nil_append]
        split
        · exact absurd rfl ht.2.1
        · exact absurd rfl ht.2.2.1
        · exact absurd rfl ht.2.2.2
        · rw [if_neg hdropped]
          exact finish_isDouble _ _ _ _
      · simpa using readExponent_isDouble hs hne hd ht.noDigit _ _ _
      · simpa using readExponent_isDouble hs hne hd ht.noDigit _ _ _
    · simpa using readFraction_isDouble hne hd he ht _ _ _

/-! ### Numbers -/

/-- What a number stands for if it is exact: a natural number that fits a word, or a negative one
that fits a signed word. -/
inductive Exact : List Char → Number → Prop where
  | natural {w n} : WholeNumber w n → n < wordLimit → Exact w (.natural n)
  | negative {w n} : WholeNumber w n → 0 < n → n ≤ wordLimit / 2 → Exact ('-' :: w) (.negative n)

theorem AllDigits.whole {whole f e : List Char} (hf : Fraction f) (he : Exponent e)
    (h : AllDigits (whole ++ (f ++ e))) : f = [] ∧ e = [] := by
  constructor
  · cases hf with
    | absent => rfl
    | present => cases h '.' (by simp)
  · rcases he with _ | ⟨rfl | rfl, -, -, -⟩
    · rfl
    · cases h 'e' (by simp)
    · cases h 'E' (by simp)

theorem Exact.inv {sign whole f e : List Char} {number : Number}
    (h : Exact (sign ++ (whole ++ (f ++ e))) number)
    (hs : sign = [] ∨ sign = ['-']) (hw : WholePart whole) (hf : Fraction f) (he : Exponent e) :
    f = [] ∧ e = [] ∧ Nat.ofDigitChars 10 whole 0 < wordLimit ∧
      (sign = ['-'] → 0 < Nat.ofDigitChars 10 whole 0 ∧
        Nat.ofDigitChars 10 whole 0 ≤ wordLimit / 2) := by
  have sound {n : Nat} (hn : WholeNumber (whole ++ (f ++ e)) n) :
      f = [] ∧ e = [] ∧ Nat.ofDigitChars 10 whole 0 = n := by
    obtain ⟨rfl, rfl⟩ := hn.form.allDigits.whole hf he
    exact ⟨rfl, rfl, by simpa using hn.value⟩
  generalize hv : sign ++ (whole ++ (f ++ e)) = v at h
  rcases hs with rfl | rfl
  · rw [List.nil_append] at hv
    rcases h with ⟨hn, fits⟩ | ⟨hn, hpos, fits⟩
    · obtain ⟨hf, he, rfl⟩ := sound (hv ▸ hn)
      exact ⟨hf, he, fits, by simp⟩
    · -- A whole part has no sign.
      cases whole with
      | nil => exact absurd rfl hw.ne_nil
      | cons c whole =>
        cases hv
        cases hw.allDigits.head
  · cases h with
    | natural hn fits =>
      cases hv
      cases hn.form.allDigits.head
    | negative hn hpos fits =>
      cases hv
      obtain ⟨hf, he, rfl⟩ := sound hn
      exact ⟨hf, he, by omega, fun _ => ⟨hpos, fits⟩⟩

/-- A negative whole number is exact unless it is zero or too large. -/
theorem wholeNumber_negative {whole : List Char} {n : Nat} (h : WholeNumber whole n) :
    Exact ('-' :: whole) (wholeNumber true n) ∨
      ((n = 0 ∨ wordLimit / 2 < n) ∧ ∃ x, wholeNumber true n = .float x) := by
  by_cases far : n = 0 ∨ wordLimit / 2 < n
  · exact .inr ⟨far, _, by rw [wholeNumber, if_pos rfl, if_pos far]⟩
  · left
    rw [wholeNumber, if_pos rfl, if_neg far]
    exact .negative h (by omega) (by omega)

/-- Every number is read up to its end, exactly if that can be. -/
theorem readNumber_token {w t : List Char} (h : NumberToken w) (ht : EndsNumber t) :
    (∃ number, Exact w number ∧ readNumber (w ++ t) = .ok (number, t)) ∨
      ((∀ number, ¬ Exact w number) ∧ IsDouble t (readNumber (w ++ t))) := by
  obtain ⟨hs, hw, hf, he⟩ := h
  rename_i sign whole f e
  have hread : ∃ negative, (negative = true ↔ sign = ['-']) ∧
      readNumber (sign ++ (whole ++ (f ++ e)) ++ t) =
        readMagnitude negative (whole ++ (f ++ (e ++ t))) := by
    rcases hs with rfl | rfl
    · exact ⟨false, by simp, by simpa using readNumber_unsigned hw (f ++ (e ++ t))⟩
    · exact ⟨true, by simp, by simp [readNumber]⟩
  obtain ⟨negative, hsign, hread⟩ := hread
  rw [hread]
  by_cases wide : f ≠ [] ∨ e ≠ [] ∨ wordLimit ≤ Nat.ofDigitChars 10 whole 0
  · right
    refine ⟨?_, readMagnitude_isDouble hw hf he ht wide negative⟩
    intro number hn
    obtain ⟨rfl, rfl, fits, -⟩ := hn.inv hs hw hf he
    rcases wide with hne | hne | hlarge
    · exact hne rfl
    · exact hne rfl
    · omega
  · simp only [not_or, ne_eq, Decidable.not_not, Nat.not_le] at wide
    obtain ⟨rfl, rfl, fits⟩ := wide
    have hwhole : WholeNumber whole (Nat.ofDigitChars 10 whole 0) := ⟨hw, rfl⟩
    have hm := readMagnitude_whole hwhole fits ht negative
    simp only [List.nil_append] at hm ⊢
    rcases hs with rfl | rfl
    · have hplain : negative = false := by
        simpa using hsign
      subst hplain
      exact .inl ⟨.natural _, by simpa using Exact.natural hwhole fits, hm⟩
    · rw [hsign.mpr rfl] at hm ⊢
      rcases wholeNumber_negative hwhole with hn | ⟨far, x, hx⟩
      · exact .inl ⟨_, by simpa using hn, hm⟩
      · right
        refine ⟨?_, .inl ⟨x, by rw [hm, hx]⟩⟩
        intro number hn
        obtain ⟨-, -, -, hnear⟩ := hn.inv (.inr rfl) hw hf he
        have := hnear rfl
        omega

/-! ## Faults of members -/

/-! ### Values of the wrong type -/

/-- What is said about a value that is not of the wanted type. Of a list or an object only the
opening bracket is looked at. A negative number has the right type, but not a right value. -/
inductive Refused : Wanted → List Char → Cause → Prop where
  | null {wanted} : Refused wanted ['n', 'u', 'l', 'l'] (.mismatch (.wrongType .null wanted))
  | trueWord {wanted} :
      Refused wanted ['t', 'r', 'u', 'e'] (.mismatch (.wrongType (.boolean true) wanted))
  | falseWord {wanted} :
      Refused wanted ['f', 'a', 'l', 's', 'e'] (.mismatch (.wrongType (.boolean false) wanted))
  | list {wanted w} : Refused wanted ('[' :: w) (.mismatch (.wrongType .sequence wanted))
  | object {wanted w} : Refused wanted ('{' :: w) (.mismatch (.wrongType .map wanted))
  | text {w s} : TextToken w s →
      Refused .wordNumber w (.mismatch (.wrongType (.text s) .wordNumber))
  | number {w n} : Exact w n → Refused .text w (.mismatch (.wrongType n.found .text))
  | negative {w n} : Exact w (.negative n) →
      Refused .wordNumber w (.mismatch (.wrongValue (.integer (-n)) .wordNumber))
  | double {wanted w x} : NumberToken w → (∀ n, ¬ Exact w n) →
      Refused wanted w (.mismatch (.wrongType (.float x) wanted))
  | outOfRange {wanted w} : NumberToken w → (∀ n, ¬ Exact w n) →
      Refused wanted w .numberOutOfRange

/-- A value that can be read as far as it is one; a text must stand for something. -/
structure Sound (v : List Char) : Prop where
  isValue : IsValue v
  content : ∀ w, v = '"' :: w → ∃ s, TextToken v s

theorem TextToken.readText_tail {w s : List Char} (h : TextToken ('"' :: w) s) (t : List Char) :
    readText (w ++ t) = .ok (s, t) := by
  generalize hu : '"' :: w = u at h
  cases h with
  | quoted hv =>
    cases hu
    exact readText_iff.mpr ⟨_, hv, by simp⟩

theorem mismatch_number {c : Char} (hc : c = '-' ∨ c.isDigit = true) (wanted : Wanted)
    (rest : List Char) :
    (∀ number more, readNumber (c :: rest) = .ok (number, more) →
      mismatch wanted c rest = .behind (.mismatch (.wrongType number.found wanted)) more) ∧
      ∀ fault, readNumber (c :: rest) = .error fault → mismatch wanted c rest = fault := by
  have hne (d : Char) (hminus : d ≠ '-') (hdigit : d.isDigit = false) : c ≠ d := by
    rintro rfl
    rcases hc with rfl | hc
    · exact hminus rfl
    · rw [hdigit] at hc
      cases hc
  have hnull := hne 'n' (by decide) rfl
  have htrue := hne 't' (by decide) rfl
  have hfalse := hne 'f' (by decide) rfl
  constructor
  · intro number more hread
    simp only [mismatch, if_neg hnull, if_neg htrue, if_neg hfalse, if_pos hc, hread]
  · intro fault hread
    simp only [mismatch, if_neg hnull, if_neg htrue, if_neg hfalse, if_pos hc, hread]

theorem Derives.numberToken {c : Char} {w : List Char} (h : IsValue (c :: w))
    (hc : c = '-' ∨ c.isDigit = true) : NumberToken (c :: w) := by
  generalize hu : c :: w = u at h
  cases h with
  | number hn => exact hn
  | @group frame =>
    cases hu
    cases frame <;> rcases hc with hc | hc <;> cases hc
  | _ =>
    cases hu
    rcases hc with hc | hc <;> cases hc

theorem mismatch_refused {wanted : Wanted} {c : Char} {w t : List Char} (hv : Sound (c :: w))
    (ht : EndsNumber t) (wrong : wanted = .text ∧ c ≠ '"' ∨
      wanted = .wordNumber ∧ ¬(c = '-' ∨ c.isDigit = true)) :
    Refused wanted (c :: w) (mismatch wanted c (w ++ t)).cause := by
  obtain ⟨hvalue, hcontent⟩ := hv
  generalize hu : c :: w = u at hvalue hcontent
  cases hvalue with
  | nullWord =>
    cases hu
    exact .null
  | trueWord =>
    cases hu
    exact .trueWord
  | falseWord =>
    cases hu
    exact .falseWord
  | @group frame =>
    cases hu
    cases frame with
    | list => exact .list
    | object => exact .object
  | text =>
    cases hu
    rcases wrong with ⟨-, hc⟩ | ⟨rfl, -⟩
    · exact absurd rfl hc
    · obtain ⟨s, hs⟩ := hcontent _ rfl
      have hread := hs.readText_tail t
      simp only [mismatch, hread]
      exact .text hs
  | number hn =>
    cases hu
    obtain ⟨d, v, he, hc⟩ := hn.head
    cases he
    rcases wrong with ⟨rfl, -⟩ | ⟨-, hc'⟩
    · have htoken := readNumber_token hn ht
      rw [List.cons_append] at htoken
      obtain ⟨hok, herror⟩ := mismatch_number hc .text (w ++ t)
      rcases htoken with ⟨number, hexact, hread⟩ | ⟨hnone, ⟨x, hread⟩ | ⟨left, hread⟩⟩
      · rw [hok number t hread]
        exact .number hexact
      · rw [hok (.float x) t hread]
        exact .double hn hnone
      · rw [herror _ hread]
        exact .outOfRange hn hnone
    · exact absurd hc hc'

theorem wordLimit_le_of_no_word {v : List Char} (h : ∀ n : UInt64, ¬ WholeNumber v n.toNat)
    (n : Nat) (hn : WholeNumber v n) : wordLimit ≤ n := by
  apply Nat.le_of_not_lt
  intro fits
  apply h (UInt64.ofNat n)
  rw [UInt64.toNat_ofNat_of_lt' fits]
  exact hn

theorem readWordNumber_refused {b v t : List Char} (hb : Blanks b) (hv : Sound v)
    (wrong : ∀ n, WholeNumber v n → wordLimit ≤ n) (ht : EndsNumber t) :
    ∃ fault, readWordNumber (b ++ (v ++ t)) = .error fault ∧
      Refused .wordNumber v fault.cause := by
  obtain ⟨c, w, rfl, hc, -⟩ := hv.isValue.head
  have hs := skipBlanks_append_cons hb hc (w ++ t)
  rw [List.cons_append]
  by_cases hnumber : c = '-' ∨ c.isDigit = true
  · have hn := hv.isValue.numberToken hnumber
    have htoken := readNumber_token hn ht
    rw [List.cons_append] at htoken
    simp only [readWordNumber, hs, if_pos hnumber]
    rcases htoken with ⟨number, hexact, hread⟩ | ⟨hnone, ⟨x, hread⟩ | ⟨left, hread⟩⟩
    · rw [hread]
      cases number with
      | natural n =>
        rcases hexact with ⟨hn, fits⟩
        have := wrong n hn
        omega
      | negative n => exact ⟨_, rfl, .negative hexact⟩
      | float => cases hexact
    · rw [hread]
      exact ⟨_, rfl, .double hn hnone⟩
    · rw [hread]
      exact ⟨_, rfl, .outOfRange hn hnone⟩
  · refine ⟨_, ?_, mismatch_refused hv ht (.inr ⟨rfl, hnumber⟩)⟩
    simp only [readWordNumber, hs, if_neg hnumber]

theorem readTextValue_refused {b v t : List Char} (hb : Blanks b) (hv : Sound v)
    (wrong : ∀ s, ¬ TextToken v s) (ht : EndsNumber t) :
    ∃ fault, readTextValue (b ++ (v ++ t)) = .error fault ∧ Refused .text v fault.cause := by
  obtain ⟨c, w, rfl, hc, -⟩ := hv.isValue.head
  have hs := skipBlanks_append_cons hb hc (w ++ t)
  have hquote : c ≠ '"' := by
    rintro rfl
    obtain ⟨s, h⟩ := hv.content w rfl
    exact wrong s h
  refine ⟨_, ?_, mismatch_refused hv ht (.inl ⟨rfl, hquote⟩)⟩
  rw [List.cons_append]
  simp only [readTextValue, hs, if_neg hquote]

/-! ### Records that go wrong -/

inductive Begun {β : Type} (Item : β → List Char → Prop) : Bool → List β → List Char → Prop where
  | start {first a} : Separator first a → Begun Item first [] a
  | next {first a x xs w t} : Separator first a → Item x w → Begun Item false xs t →
      Begun Item first (x :: xs) (a ++ (w ++ t))

def givenBy {β : Type} (items : List (Option β)) : List β := items.filterMap id

theorem Begun.endsNumber {β : Type} {Item : β → List Char → Prop} {xs : List β} {w : List Char}
    (h : Begun Item false xs w) (t : List Char) : EndsNumber (w ++ t) := by
  cases h with
  | start ha => exact ha.endsNumber t
  | next ha =>
    rw [List.append_assoc]
    exact ha.endsNumber _

namespace Schema

variable {φ δ α γ : Type} {s : Schema φ δ α}

theorem readMembers_fault {first : Bool} {d : δ} {t r key m : List Char} {fault : Fault}
    (hk : nextKey first t = .ok (true, r)) (hkey : readText r = .ok (key, m))
    (hm : s.readMember d key m = .error fault) : s.readMembers first d t = .error fault := by
  rw [readMembers]
  split
  · next he => rw [hk] at he; cases he
  · next he => rw [hk] at he; cases he
  · next he =>
    rw [hk] at he
    cases he
    split
    · next he => rw [hkey] at he; cases he
    · next he =>
      rw [hkey] at he
      cases he
      split
      · next he => rw [hm] at he; exact he.symm
      · next he => rw [hm] at he; cases he

theorem decode_fault {text : String} {fault : Fault}
    (h : s.readRecord text.toList = .error fault) :
    ∃ e, s.decode text = .error e ∧ e.cause = fault.cause :=
  ⟨fault.locate text.toList, by simp only [decode, readWhole, h], rfl⟩

theorem readRecord_object {a : List Char} (ha : Blanks a) (t : List Char) :
    s.readRecord (a ++ '{' :: t) = s.readObject t := by
  simp [readRecord, skipBlanks_append_cons ha (c := '{') rfl]

namespace Language

variable (L : Language s γ)

/-- After some members have been taken up, a fault of the next one is the fault of the object. -/
theorem readMembers_begun {first : Bool} {items : List (Option γ)} {w : List Char}
    (h : Begun L.Member first items w) {d : δ} (fresh : L.Fresh d (givenBy items))
    {key name m : List Char} (hk : Content key name) {fault : Fault}
    (hm : s.readMember ((givenBy items).foldl L.put d) name m = .error fault) :
    s.readMembers first d (w ++ '"' :: (key ++ '"' :: m)) = .error fault := by
  induction h generalizing d with
  | @start first a ha =>
    have hkey : readText (key ++ '"' :: m) = .ok (name, m) := readText_iff.mpr ⟨key, hk, rfl⟩
    exact readMembers_fault (nextKey_separator ha _) hkey hm
  | @next first a x xs v u ha hx hrest ih =>
    have hd : ∀ g ∈ x, s.holds d (L.field g) = false := by
      rintro g rfl
      exact (L.fresh_cons.mp fresh).1
    obtain ⟨r, name', m', rfl, hkey, hmember⟩ :=
      L.readMember_append hx d hd (hrest.endsNumber ('"' :: (key ++ '"' :: m)))
    have hstep := readMembers_step
      (nextKey_separator ha (r ++ (u ++ '"' :: (key ++ '"' :: m)))) hkey hmember
    simp only [List.append_assoc, List.cons_append] at hstep ⊢
    rw [hstep]
    cases x with
    | none => exact ih fresh hm
    | some g => exact ih (L.fresh_cons.mp fresh).2 hm

theorem fresh_blank {given : List γ} (hn : (given.map L.field).Nodup) :
    L.Fresh s.blank given := by
  refine ⟨?_, hn⟩
  intro g _
  rw [L.holds_eq, L.get_blank]
  rfl

theorem holds_foldl {given : List γ} (hn : (given.map L.field).Nodup) (f : φ) :
    s.holds (given.foldl L.put s.blank) f = true ↔ f ∈ given.map L.field := by
  rw [L.holds_eq]
  by_cases hf : f ∈ given.map L.field
  · obtain ⟨g, hg, rfl⟩ := List.mem_map.mp hf
    simp [L.get_foldl_of_mem hn hg, hf]
  · simp [L.get_foldl_of_notMem hf, L.get_blank, hf]

theorem decode_begun {a w key name m : List Char} {items : List (Option γ)} {text : String}
    {fault : Fault} (ha : Blanks a) (h : Begun L.Member true items w)
    (hn : ((givenBy items).map L.field).Nodup) (hk : Content key name)
    (hm : s.readMember ((givenBy items).foldl L.put s.blank) name m = .error fault)
    (ht : text.toList = a ++ '{' :: (w ++ '"' :: (key ++ '"' :: m))) :
    ∃ e, s.decode text = .error e ∧ e.cause = fault.cause := by
  have hmembers := L.readMembers_begun h (L.fresh_blank hn) hk hm
  apply decode_fault
  rw [ht, readRecord_object ha]
  simp only [readObject, hmembers]

/-- A key that comes twice is reported whatever stands behind it. -/
theorem decode_repeated {a w key t : List Char} {items : List (Option γ)} {f : φ} {text : String}
    (ha : Blanks a) (h : Begun L.Member true items w)
    (hn : ((givenBy items).map L.field).Nodup) (hf : f ∈ (givenBy items).map L.field)
    (hk : Content key (L.key f).toList)
    (ht : text.toList = a ++ '{' :: (w ++ '"' :: (key ++ '"' :: t))) :
    ∃ e, s.decode text = .error e ∧ e.cause = .mismatch (.repeatedField (L.key f)) := by
  have hd := (L.holds_foldl hn f).mpr hf
  have hm : s.readMember ((givenBy items).foldl L.put s.blank) (L.key f).toList t =
      .error (.behind (.mismatch (.repeatedField (L.key f))) (passObjectEnd t)) := by
    simp only [readMember, L.field?_eq_some.mpr rfl, hd, L.label_eq, if_true]
  exact L.decode_begun ha h hn hk hm ht

theorem decode_refused {a w key b t : List Char} {items : List (Option γ)} {f : φ} {text : String}
    {fault : Fault} (ha : Blanks a) (h : Begun L.Member true items w)
    (hn : ((givenBy items).map L.field).Nodup) (hf : f ∉ (givenBy items).map L.field)
    (hk : Content key (L.key f).toList) (hb : Blanks b)
    (hread : ∀ d, s.read f d t = .error fault)
    (ht : text.toList = a ++ '{' :: (w ++ '"' :: (key ++ '"' :: (b ++ ':' :: t)))) :
    ∃ e, s.decode text = .error e ∧ e.cause = fault.cause := by
  have hd : s.holds ((givenBy items).foldl L.put s.blank) f = false :=
    eq_false_of_ne_true (mt (L.holds_foldl hn f).mp hf)
  refine L.decode_begun ha h hn hk ?_ ht
  simp only [readMember, L.field?_eq_some.mpr rfl, hd, readColon_append hb, hread]
  rfl

/-- What is missing is reported at the end of the object, whatever stands behind it. -/
theorem decode_missing {a w t : List Char} {items : List (Option γ)} {f : φ} {text : String}
    (ha : Blanks a) (h : Items .object L.Member true items w)
    (hn : ((givenBy items).map L.field).Nodup)
    (lacks : s.build ((givenBy items).foldl L.put s.blank) = .error f)
    (ht : text.toList = a ++ '{' :: (w ++ t)) :
    ∃ e, s.decode text = .error e ∧ e.cause = .mismatch (.missingField (L.key f)) := by
  have hmembers : s.readMembers true s.blank (w ++ t) =
      .ok ((givenBy items).foldl L.put s.blank, '}' :: t) :=
    L.readMembers_append h (L.fresh_blank hn) t
  have hend : readObjectEnd ('}' :: t) = .ok t := by
    simp [readObjectEnd, skipBlanks_cons (c := '}') rfl]
  have hread : s.readRecord text.toList =
      .error (.behind (.mismatch (.missingField (L.key f))) t) := by
    rw [ht, readRecord_object ha]
    simp only [readObject, hmembers, hend, lacks, L.label_eq]
  exact decode_fault hread

end Language
end Schema
end Roster.Json
