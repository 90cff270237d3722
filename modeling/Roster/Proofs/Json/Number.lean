import Roster.Proofs.Json.Text

/-! Numbers. A word of 64 bits is read exactly when its digits are those of a whole number below
the limit and no fraction or exponent follows; any number at all can be passed over. -/
namespace Roster.Json

def EndsNumber : List Char → Prop
  | [] => True
  | c :: _ => c.isDigit = false ∧ c ≠ '.' ∧ c ≠ 'e' ∧ c ≠ 'E'

theorem EndsNumber.noDigit {t : List Char} (h : EndsNumber t) : startsWithDigit t = false := by
  cases t with
  | nil => rfl
  | cons c t => exact h.1

theorem AllDigits.head {c : Char} {w : List Char} (h : AllDigits (c :: w)) : c.isDigit = true :=
  h c List.mem_cons_self

theorem AllDigits.tail {c : Char} {w : List Char} (h : AllDigits (c :: w)) : AllDigits w :=
  fun d hd => h d (List.mem_cons_of_mem _ hd)

theorem allDigits_nil : AllDigits [] := by
  intro c hc
  cases hc

theorem AllDigits.cons {c : Char} {w : List Char} (hc : c.isDigit = true) (hw : AllDigits w) :
    AllDigits (c :: w) := by
  intro d hd
  rcases List.mem_cons.mp hd with rfl | hd
  · exact hc
  · exact hw d hd

/-! ### Runs of digits -/

theorem countDigits_append {w t : List Char} (hw : AllDigits w) (ht : startsWithDigit t = false)
    (count : Nat) : countDigits count (w ++ t) = (count + w.length, t) := by
  induction w generalizing count with
  | nil =>
    cases t with
    | nil => rfl
    | cons c t =>
      have hc : c.isDigit = false := ht
      simp [countDigits, hc]
  | cons c w ih =>
    simp only [List.cons_append, countDigits, hw.head, if_true, List.length_cons]
    rw [ih hw.tail]
    simp only [Prod.mk.injEq, and_true]
    omega

theorem countDigits_split (count : Nat) (t : List Char) :
    ∃ w, AllDigits w ∧ t = w ++ (countDigits count t).2 ∧
      (countDigits count t).1 = count + w.length ∧
      startsWithDigit (countDigits count t).2 = false := by
  induction t generalizing count with
  | nil => exact ⟨[], allDigits_nil, rfl, rfl, rfl⟩
  | cons c t ih =>
    by_cases hc : c.isDigit = true
    · obtain ⟨w, hw, ht, hn, hs⟩ := ih (count + 1)
      simp only [countDigits, hc, if_true]
      refine ⟨c :: w, hw.cons hc, ?_, ?_, hs⟩
      · rw [List.cons_append, ← ht]
      · rw [hn, List.length_cons]
        omega
    · have hc := eq_false_of_ne_true hc
      simp only [countDigits, hc]
      exact ⟨[], allDigits_nil, rfl, rfl, hc⟩

theorem le_ofDigitChars (w : List Char) (n : Nat) : n ≤ Nat.ofDigitChars 10 w n := by
  rw [Nat.ofDigitChars_eq_ofDigitChars_zero]
  have : n ≤ 10 ^ w.length * n := Nat.le_mul_of_pos_left n (Nat.pow_pos (by omega))
  omega

theorem ofDigitChars_step (c : Char) (w : List Char) (n : Nat) :
    Nat.ofDigitChars 10 (c :: w) n = Nat.ofDigitChars 10 w (n * 10 + digitValue c) := by
  rw [Nat.ofDigitChars_cons, digitValue, Nat.mul_comm]

theorem absorb_append {w t : List Char} {n : Nat} (hw : AllDigits w)
    (fits : Nat.ofDigitChars 10 w n < wordLimit) (ht : startsWithDigit t = false) (count : Nat) :
    absorb n count (w ++ t) = (Nat.ofDigitChars 10 w n, count + w.length, t) := by
  induction w generalizing n count with
  | nil =>
    cases t with
    | nil => rfl
    | cons c t =>
      have hc : c.isDigit = false := ht
      simp [absorb, hc]
  | cons c w ih =>
    rw [ofDigitChars_step] at fits ⊢
    have hn := le_ofDigitChars w (n * 10 + digitValue c)
    have hc : c.isDigit ∧ n * 10 + digitValue c < wordLimit := ⟨hw.head, by omega⟩
    simp only [List.cons_append, absorb, if_pos hc, List.length_cons]
    rw [ih hw.tail fits]
    simp only [Prod.mk.injEq, true_and, and_true]
    omega

theorem absorb_split {n : Nat} (hn : n < wordLimit) (count : Nat) (t : List Char) :
    ∃ w, AllDigits w ∧ t = w ++ (absorb n count t).2.2 ∧
      (absorb n count t).1 = Nat.ofDigitChars 10 w n ∧ (absorb n count t).1 < wordLimit := by
  induction t generalizing n count with
  | nil => exact ⟨[], allDigits_nil, rfl, by simp [absorb], hn⟩
  | cons c t ih =>
    by_cases hc : c.isDigit ∧ n * 10 + digitValue c < wordLimit
    · obtain ⟨w, hw, ht, hv, hl⟩ := ih hc.2 (count + 1)
      simp only [absorb, if_pos hc]
      refine ⟨c :: w, hw.cons hc.1, ?_, ?_, hl⟩
      · rw [List.cons_append, ← ht]
      · rw [hv, ofDigitChars_step]
    · simp only [absorb, if_neg hc]
      exact ⟨[], allDigits_nil, rfl, by simp, hn⟩

/-! ### Words -/

theorem finish_ne_natural {negative : Bool} {significand : Nat} {exponent : Int}
    {t rest : List Char} {n : Nat} :
    finish negative significand exponent t ≠ .ok (.natural n, rest) := by
  intro h
  unfold finish at h
  split at h <;> cases h

theorem readExponent_ne_natural {negative : Bool} {significand : Nat} {exponent : Int}
    {t rest : List Char} {n : Nat} :
    readExponent negative significand exponent t ≠ .ok (.natural n, rest) := by
  intro h
  simp only [readExponent] at h
  split at h
  · cases h
  · split at h
    · split at h
      · exact finish_ne_natural h
      · split at h <;> cases h
    · cases h

theorem readFraction_ne_natural {negative : Bool} {significand : Nat} {exponent : Int}
    {t rest : List Char} {n : Nat} :
    readFraction negative significand exponent t ≠ .ok (.natural n, rest) := by
  intro h
  simp only [readFraction] at h
  split at h
  · cases h
  · split at h
    · unfold readScale at h
      split at h
      · exact readExponent_ne_natural h
      · exact readExponent_ne_natural h
      · exact finish_ne_natural h
    · cases h

theorem WholePart.allDigits {w : List Char} (h : WholePart w) : AllDigits w := by
  cases h with
  | zero => exact allDigits_nil.cons rfl
  | positive hc _ hw => exact hw.cons hc

theorem WholePart.ne_nil {w : List Char} (h : WholePart w) : w ≠ [] := by
  cases h <;> simp

theorem WholePart.head {c : Char} {w t : List Char} (h : WholePart (c :: w))
    (ht : startsWithDigit t = false) : ¬(c = '0' ∧ startsWithDigit (w ++ t) = true) := by
  rintro ⟨rfl, hd⟩
  cases h with
  | zero => rw [List.nil_append, ht] at hd; cases hd
  | positive _ hc _ => exact hc rfl

theorem wholePart_of_digits {c : Char} {w t : List Char} (hw : AllDigits (c :: w))
    (hz : ¬(c = '0' ∧ startsWithDigit (w ++ t) = true)) : WholePart (c :: w) := by
  by_cases hc : c = '0'
  · subst hc
    cases w with
    | nil => exact .zero
    | cons d w => exact absurd ⟨rfl, hw.tail.head⟩ hz
  · exact .positive hw.head hc hw.tail

theorem readMagnitude_whole {w t : List Char} {n : Nat} (h : WholeNumber w n)
    (fits : n < wordLimit) (ht : EndsNumber t) (negative : Bool) :
    readMagnitude negative (w ++ t) = .ok (wholeNumber negative n, t) := by
  obtain ⟨hw, hv⟩ := h
  cases w with
  | nil => exact absurd rfl hw.ne_nil
  | cons c w =>
    have hd := hw.allDigits
    have ha := absorb_append hd (by rw [hv]; exact fits) ht.noDigit 0
    have hc : countDigits 0 t = (0, t) := by
      simpa using countDigits_append allDigits_nil ht.noDigit 0
    rw [List.cons_append] at ha ⊢
    simp only [readMagnitude, hd.head, if_true, if_neg (hw.head ht.noDigit), ha, hc]
    split
    · exact absurd rfl ht.2.1
    · exact absurd rfl ht.2.2.1
    · exact absurd rfl ht.2.2.2
    · simp [hv]

theorem readMagnitude_sound {negative : Bool} {t rest : List Char} {n : Nat}
    (h : readMagnitude negative t = .ok (.natural n, rest)) :
    negative = false ∧ ∃ w, WholeNumber w n ∧ n < wordLimit ∧ t = w ++ rest := by
  unfold readMagnitude at h
  split at h
  · cases h
  · next c tail =>
    split at h
    · next hc =>
      split at h
      · cases h
      · next hz =>
        have ha := absorb_split (n := 0) (by decide) 0 (c :: tail)
        generalize absorb 0 0 (c :: tail) = a at h ha
        obtain ⟨significand, taken, more⟩ := a
        obtain ⟨w, hw, ht, hv, hl⟩ := ha
        have hd := countDigits_split 0 more
        simp only at h ht hv hl
        generalize countDigits 0 more = d at h hd
        obtain ⟨dropped, left⟩ := d
        obtain ⟨u, -, hr, hn, hs⟩ := hd
        simp only at h hr hn hs
        split at h
        · exact absurd h readFraction_ne_natural
        · exact absurd h readExponent_ne_natural
        · exact absurd h readExponent_ne_natural
        · split at h
          · next hdrop =>
            have hu : u = [] := List.eq_nil_of_length_eq_zero (by omega)
            rw [hu, List.nil_append] at hr
            subst hr
            cases negative with
            | true =>
              simp only [wholeNumber, if_true] at h
              split at h <;> cases h
            | false =>
              cases h
              cases w with
              | nil =>
                -- The first digit fits, so it was taken.
                rw [List.nil_append] at ht
                rw [← ht] at hs
                exact absurd hc (by simpa [startsWithDigit] using hs)
              | cons d w =>
                cases ht
                exact ⟨rfl, _, ⟨wholePart_of_digits hw hz, hv.symm⟩, hl, rfl⟩
          · exact absurd h finish_ne_natural
    · cases h

theorem readNumber_unsigned {w : List Char} (h : WholePart w) (t : List Char) :
    readNumber (w ++ t) = readMagnitude false (w ++ t) := by
  cases w with
  | nil => exact absurd rfl h.ne_nil
  | cons c w =>
    have hc : c ≠ '-' := by
      rintro rfl
      exact absurd h.allDigits.head (by decide)
    rw [List.cons_append]
    unfold readNumber
    split
    · next he => cases he; exact absurd rfl hc
    · rfl

/-- The numbers that fit a word are read exactly. -/
theorem readNumber_natural {w t : List Char} {n : Nat} (h : WholeNumber w n)
    (fits : n < wordLimit) (ht : EndsNumber t) :
    readNumber (w ++ t) = .ok (.natural n, t) := by
  rw [readNumber_unsigned h.form]
  exact readMagnitude_whole h fits ht false

theorem readNumber_sound {t rest : List Char} {n : Nat}
    (h : readNumber t = .ok (.natural n, rest)) :
    ∃ w, WholeNumber w n ∧ n < wordLimit ∧ t = w ++ rest := by
  unfold readNumber at h
  split at h
  · cases (readMagnitude_sound h).1
  · exact (readMagnitude_sound h).2

/-! ### Passing over -/

theorem startsWithDigit_append {w t : List Char} (hw : AllDigits w) (hne : w ≠ []) :
    startsWithDigit (w ++ t) = true := by
  cases w with
  | nil => exact absurd rfl hne
  | cons c w => exact hw.head

theorem digits_of_startsWithDigit {t : List Char} (h : startsWithDigit t = true) :
    ∃ w, w ≠ [] ∧ AllDigits w ∧ t = w ++ (countDigits 0 t).2 ∧
      startsWithDigit (countDigits 0 t).2 = false := by
  obtain ⟨w, hw, ht, -, hs⟩ := countDigits_split 0 t
  refine ⟨w, ?_, hw, ht, hs⟩
  rintro rfl
  rw [List.nil_append] at ht
  rw [← ht, h] at hs
  cases hs

theorem Exponent.noDigit {e t : List Char} (h : Exponent e) (ht : EndsNumber t) :
    startsWithDigit (e ++ t) = false := by
  cases h with
  | absent => exact ht.noDigit
  | present he =>
    rcases he with rfl | rfl <;> rfl

theorem Fraction.noDigit {f t : List Char} (h : Fraction f) (ht : startsWithDigit t = false) :
    startsWithDigit (f ++ t) = false := by
  cases h with
  | absent => exact ht
  | present => rfl

theorem readExponentSign_append {sign w : List Char}
    (hs : sign = [] ∨ sign = ['+'] ∨ sign = ['-']) (hne : w ≠ []) (hw : AllDigits w)
    (t : List Char) : (readExponentSign (sign ++ (w ++ t))).2 = w ++ t := by
  have hd := startsWithDigit_append (t := t) hw hne
  rcases hs with rfl | rfl | rfl
  · rw [List.nil_append]
    unfold readExponentSign
    split
    · next he => rw [he] at hd; cases hd
    · next he => rw [he] at hd; cases hd
    · rfl
  · rfl
  · rfl

theorem skipExponent_append {sign w t : List Char} (hs : sign = [] ∨ sign = ['+'] ∨ sign = ['-'])
    (hne : w ≠ []) (hw : AllDigits w) (ht : startsWithDigit t = false) :
    skipExponent (sign ++ (w ++ t)) = .ok t := by
  have hd := startsWithDigit_append (t := t) hw hne
  have hc := countDigits_append hw ht 0
  simp only [skipExponent, readExponentSign_append hs hne hw t, hd, if_true, hc]

theorem skipScale_append {e t : List Char} (he : Exponent e) (ht : EndsNumber t) :
    skipScale (e ++ t) = .ok t := by
  cases he with
  | absent =>
    rw [List.nil_append]
    unfold skipScale
    split
    · exact absurd rfl ht.2.2.1
    · exact absurd rfl ht.2.2.2
    · rfl
  | present he hs hne hw =>
    have := skipExponent_append hs hne hw ht.noDigit
    rcases he with rfl | rfl <;> simpa [skipScale] using this

theorem skipMagnitude_append {whole f e t : List Char} (hw : WholePart whole) (hf : Fraction f)
    (he : Exponent e) (ht : EndsNumber t) :
    skipMagnitude (whole ++ (f ++ (e ++ t))) = .ok t := by
  cases whole with
  | nil => exact absurd rfl hw.ne_nil
  | cons c w =>
    have hn := hf.noDigit (he.noDigit ht)
    have hc := countDigits_append hw.allDigits hn 0
    have hz := hw.head hn
    rw [List.cons_append] at hc ⊢
    simp only [skipMagnitude, hw.allDigits.head, if_true, if_neg hz, hc]
    cases hf with
    | present hne hd =>
      have hs := countDigits_append hd (he.noDigit ht) 0
      simp only [List.cons_append, startsWithDigit_append hd hne, if_true, hs]
      exact skipScale_append he ht
    | absent =>
      rw [List.nil_append]
      split
      · next hp =>
        -- The point of a fraction is no exponent and ends no number.
        cases he with
        | absent =>
          rw [List.nil_append] at hp
          rw [hp] at ht
          exact absurd rfl ht.2.1
        | present he => rcases he with rfl | rfl <;> cases hp
      · exact skipScale_append he ht

theorem skipNumber_append {w t : List Char} (h : NumberToken w) (ht : EndsNumber t) :
    skipNumber (w ++ t) = .ok t := by
  cases h with
  | @number sign whole f e hs hw hf he =>
    have hm := skipMagnitude_append hw hf he ht
    rw [List.append_assoc, List.append_assoc, List.append_assoc]
    rcases hs with rfl | rfl
    · rw [List.nil_append]
      unfold skipNumber
      split
      · next hp =>
        cases hw with
        | zero => cases hp
        | positive hc _ _ => cases hp; cases hc
      · exact hm
    · exact hm

theorem skipExponent_sound {t rest : List Char} (h : skipExponent t = .ok rest) :
    ∃ sign w, (sign = [] ∨ sign = ['+'] ∨ sign = ['-']) ∧ w ≠ [] ∧ AllDigits w ∧
      t = sign ++ (w ++ rest) := by
  simp only [skipExponent] at h
  split at h
  · next hd =>
    cases h
    obtain ⟨w, hne, hw, ht, -⟩ := digits_of_startsWithDigit hd
    unfold readExponentSign at hd ht ⊢
    split at ht
    · exact ⟨['-'], w, by simp, hne, hw, by simpa using ht⟩
    · exact ⟨['+'], w, by simp, hne, hw, by simpa using ht⟩
    · exact ⟨[], w, by simp, hne, hw, by simpa using ht⟩
  · cases h

theorem skipScale_sound {t rest : List Char} (h : skipScale t = .ok rest) :
    ∃ e, Exponent e ∧ t = e ++ rest := by
  unfold skipScale at h
  split at h
  · obtain ⟨sign, w, hs, hne, hw, rfl⟩ := skipExponent_sound h
    exact ⟨'e' :: (sign ++ w), .present (.inl rfl) hs hne hw, by simp⟩
  · obtain ⟨sign, w, hs, hne, hw, rfl⟩ := skipExponent_sound h
    exact ⟨'E' :: (sign ++ w), .present (.inr rfl) hs hne hw, by simp⟩
  · cases h
    exact ⟨[], .absent, rfl⟩

theorem skipMagnitude_sound {t rest : List Char} (h : skipMagnitude t = .ok rest) :
    ∃ whole f e, WholePart whole ∧ Fraction f ∧ Exponent e ∧
      t = whole ++ (f ++ (e ++ rest)) := by
  unfold skipMagnitude at h
  split at h
  · cases h
  · next c tail =>
    split at h
    · next hc =>
      split at h
      · cases h
      · next hz =>
        obtain ⟨w, hne, hw, ht, hs⟩ := digits_of_startsWithDigit (t := c :: tail) hc
        generalize (countDigits 0 (c :: tail)).2 = more at h ht hs
        cases w with
        | nil => exact absurd rfl hne
        | cons d w =>
          cases ht
          have hwhole := wholePart_of_digits hw hz
          split at h
          · next u =>
            split at h
            · next hd =>
              obtain ⟨v, hne, hv, hu, -⟩ := digits_of_startsWithDigit hd
              obtain ⟨e, he, hr⟩ := skipScale_sound h
              rw [hr] at hu
              exact ⟨c :: w, '.' :: v, e, hwhole, .present hne hv, he, by rw [hu]; simp⟩
            · cases h
          · obtain ⟨e, he, rfl⟩ := skipScale_sound h
            exact ⟨c :: w, [], e, hwhole, .absent, he, rfl⟩
    · cases h

theorem skipNumber_sound {t rest : List Char} (h : skipNumber t = .ok rest) :
    ∃ w, NumberToken w ∧ t = w ++ rest := by
  unfold skipNumber at h
  split at h
  · obtain ⟨whole, f, e, hw, hf, he, rfl⟩ := skipMagnitude_sound h
    exact ⟨_, .number (.inr rfl) hw hf he, by simp⟩
  · obtain ⟨whole, f, e, hw, hf, he, rfl⟩ := skipMagnitude_sound h
    exact ⟨_, .number (.inl rfl) hw hf he, by simp⟩

end Roster.Json
