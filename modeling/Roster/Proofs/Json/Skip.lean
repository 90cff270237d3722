import Roster.Proofs.Json.Number

/-! Passing over a value accepts exactly the values of the grammar, to any depth. What an open list
or object still needs is the rest of a derivation, so the stack of frames stands for a list of such
rests. -/
namespace Roster.Json

theorem readWord_append (word t : List Char) : readWord word (word ++ t) = .ok t := by
  induction word with
  | nil => rfl
  | cons c word ih => simpa [readWord] using ih

theorem readWord_sound {word t rest : List Char} (h : readWord word t = .ok rest) :
    t = word ++ rest := by
  induction word generalizing t with
  | nil => cases h; rfl
  | cons c word ih =>
    cases t with
    | nil => cases h
    | cons d t =>
      simp only [readWord] at h
      split at h
      · next hd => rw [hd, ih h]; rfl
      · cases h

theorem isBlank_of_isDigit {c : Char} (h : c.isDigit = true) : isBlank c = false := by
  apply eq_false_of_ne_true
  intro hb
  rcases isBlank_iff.mp hb with rfl | rfl | rfl | rfl <;> cases h

theorem NumberToken.head {w : List Char} (h : NumberToken w) :
    ∃ c u, w = c :: u ∧ (c = '-' ∨ c.isDigit = true) := by
  cases h with
  | number hs hw hf he =>
    rcases hs with rfl | rfl
    · cases hw with
      | zero => exact ⟨'0', _, rfl, .inr rfl⟩
      | positive hc _ _ => exact ⟨_, _, rfl, .inr hc⟩
    · exact ⟨'-', _, rfl, .inl rfl⟩

/-- The first character of a value neither belongs to a gap nor ends a list. -/
theorem Derives.head {w : List Char} (h : IsValue w) :
    ∃ c u, w = c :: u ∧ isBlank c = false ∧ c ≠ ']' := by
  cases h with
  | nullWord => exact ⟨'n', _, rfl, rfl, by decide⟩
  | trueWord => exact ⟨'t', _, rfl, rfl, by decide⟩
  | falseWord => exact ⟨'f', _, rfl, rfl, by decide⟩
  | text => exact ⟨'"', _, rfl, rfl, by decide⟩
  | @group frame => cases frame <;> exact ⟨_, _, rfl, rfl, by decide⟩
  | number hn =>
    obtain ⟨c, u, rfl, rfl | hc⟩ := hn.head
    · exact ⟨_, _, rfl, rfl, by decide⟩
    · refine ⟨_, _, rfl, isBlank_of_isDigit hc, ?_⟩
      rintro rfl
      cases hc

/-! ### Colons and keys -/

theorem readColon_append {b : List Char} (hb : Blanks b) (t : List Char) :
    readColon (b ++ ':' :: t) = .ok t := by
  simp [readColon, skipBlanks_append_cons hb (c := ':') rfl]

theorem readColon_sound {t rest : List Char} (h : readColon t = .ok rest) :
    ∃ b, Blanks b ∧ t = b ++ ':' :: rest := by
  obtain ⟨b, hb, ht⟩ := exists_blanks t
  unfold readColon at h
  split at h
  · cases h
  · next hs =>
    split at h
    · next hc =>
      cases h
      exact ⟨b, hb, by rw [ht, hs, hc]⟩
    · cases h

theorem Lead.skipLead {frame : Frame} {lead : List Char} (h : Lead frame lead) (t : List Char) :
    frame.skipLead (lead ++ t) = .ok t := by
  cases h with
  | list => rfl
  | @object a key b ha hk hb =>
    have hq := skipBlanks_append_cons ha (c := '"') rfl (key ++ '"' :: (b ++ ':' :: t))
    have hc := skipText_content hk (b ++ ':' :: t)
    simp [Frame.skipLead, hq, hc, readColon_append hb]

/-- Behind a comma blanks may come before the lead; in a list they are left for the value. -/
theorem Lead.skip_behind {frame : Frame} {a lead b : List Char} (h : Lead frame lead)
    (ha : Blanks a) (hb : Blanks b) (t : List Char) :
    ∃ d, Blanks d ∧ frame.skipLead (a ++ (lead ++ (b ++ t))) = .ok (d ++ t) := by
  cases h with
  | list => exact ⟨a ++ b, ha.append hb, by simp [Frame.skipLead]⟩
  | @object e key d he hk hd =>
    refine ⟨b, hb, ?_⟩
    simpa using (Lead.object (ha.append he) hk hd).skipLead (b ++ t)

/-- Behind an opening bracket the blanks are gone before the lead is looked at. -/
theorem Lead.skip_opened {frame : Frame} {a lead b v : List Char} (h : Lead frame lead)
    (ha : Blanks a) (hb : Blanks b) (hv : IsValue v) (t : List Char) :
    ∃ c u d, Blanks d ∧ skipBlanks (a ++ (lead ++ (b ++ (v ++ t)))) = c :: u ∧
      c ≠ frame.closing ∧ frame.skipLead (c :: u) = .ok (d ++ (v ++ t)) := by
  cases h with
  | list =>
    obtain ⟨c, u, rfl, hc, hclose⟩ := hv.head
    refine ⟨c, u ++ t, [], blanks_nil, ?_, hclose, rfl⟩
    simpa using skipBlanks_append_cons (ha.append hb) hc (u ++ t)
  | @object e key d he hk hd =>
    refine ⟨'"', key ++ '"' :: (d ++ ':' :: (b ++ (v ++ t))), b, hb, ?_, by decide, ?_⟩
    · simpa using skipBlanks_append_cons (ha.append he) (c := '"') rfl
        (key ++ '"' :: (d ++ ':' :: (b ++ (v ++ t))))
    · simpa using (Lead.object blanks_nil hk hd).skipLead (b ++ (v ++ t))

theorem Frame.skipLead_sound {frame : Frame} {t rest : List Char}
    (h : frame.skipLead t = .ok rest) : ∃ lead, Lead frame lead ∧ t = lead ++ rest := by
  cases frame with
  | list => cases h; exact ⟨[], .list, rfl⟩
  | object =>
    obtain ⟨a, ha, ht⟩ := exists_blanks t
    simp only [skipLead] at h
    split at h
    · cases h
    · next hs =>
      split at h
      · next hc =>
        split at h
        · next hk =>
          obtain ⟨key, hkey, rfl⟩ := skipText_sound hk
          obtain ⟨b, hb, rfl⟩ := readColon_sound h
          refine ⟨_, .object ha hkey hb, ?_⟩
          rw [ht, hs, hc]
          simp
        · cases h
      · cases h

theorem Frame.ofOpening?_opening (frame : Frame) :
    Frame.ofOpening? frame.opening = some frame := by
  cases frame <;> rfl

theorem Frame.opening_of_ofOpening? {c : Char} {frame : Frame}
    (h : Frame.ofOpening? c = some frame) : c = frame.opening := by
  unfold ofOpening? at h
  split at h <;> cases h <;> rfl

theorem Frame.isBlank_opening (frame : Frame) : isBlank frame.opening = false := by
  cases frame <;> rfl

theorem Frame.isBlank_closing (frame : Frame) : isBlank frame.closing = false := by
  cases frame <;> rfl

theorem Frame.comma_ne_closing (frame : Frame) : ',' ≠ frame.closing := by
  cases frame <;> decide

/-! ### What is consumed is in the language -/

theorem skipScalar_sound {c : Char} {t rest : List Char} (h : skipScalar c t = .ok rest) :
    ∃ w, IsValue (c :: w) ∧ t = w ++ rest := by
  unfold skipScalar at h
  split at h
  · next hc => exact ⟨_, hc ▸ .nullWord, readWord_sound h⟩
  · split at h
    · next hc => exact ⟨_, hc ▸ .trueWord, readWord_sound h⟩
    · split at h
      · next hc => exact ⟨_, hc ▸ .falseWord, readWord_sound h⟩
      · split at h
        · next hc =>
          obtain ⟨w, hw, rfl⟩ := skipText_sound h
          exact ⟨w ++ ['"'], hc ▸ .text hw, by simp⟩
        · split at h
          · obtain ⟨w, hw, ht⟩ := skipNumber_sound h
            obtain ⟨d, u, rfl, -⟩ := hw.head
            cases ht
            exact ⟨u, .number hw, rfl⟩
          · cases h

/-- What the open lists and objects still need, the innermost first. -/
inductive Closes : List Frame → List Char → Prop where
  | nil : Closes [] []
  | cons {frame frames v w} : Derives (.rest false frame) v → Closes frames w →
      Closes (frame :: frames) (v ++ w)

def Stand.Completes : Stand → List Char → Prop
  | .before frames, w => ∃ b v u, Blanks b ∧ IsValue v ∧ Closes frames u ∧ w = b ++ (v ++ u)
  | .opened frame frames, w =>
    ∃ v u, Derives (.rest true frame) v ∧ Closes frames u ∧ w = v ++ u
  | .behind frames, w => Closes frames w

theorem Stand.step_sound {stand next : Stand} {t rest : List Char}
    (h : stand.step t = .ok (next, rest)) (busy : stand.isDone = false) :
    ∃ v, t = v ++ rest ∧ ∀ w, next.Completes w → stand.Completes (v ++ w) := by
  obtain ⟨b, hb, ht⟩ := exists_blanks t
  cases stand with
  | before frames =>
    simp only [step] at h
    split at h
    · cases h
    · next c tail hs =>
      rw [hs] at ht
      split at h
      · next frame ho =>
        cases h
        refine ⟨b ++ [c], by simp [ht], ?_⟩
        rintro w ⟨v, u, hv, hu, rfl⟩
        rw [Frame.opening_of_ofOpening? ho]
        exact ⟨b, _, u, hb, .group hv, hu, by simp⟩
      · obtain ⟨more, hm, he⟩ := map_eq_ok h
        cases he
        obtain ⟨v, hv, rfl⟩ := skipScalar_sound hm
        refine ⟨b ++ c :: v, by simp [ht], ?_⟩
        intro w hw
        exact ⟨b, _, w, hb, hv, hw, by simp⟩
  | opened frame frames =>
    simp only [step] at h
    split at h
    · cases h
    · next c tail hs =>
      rw [hs] at ht
      split at h
      · next hc =>
        cases h
        refine ⟨b ++ [c], by simp [ht], ?_⟩
        intro w hw
        exact ⟨_, w, hc ▸ .close hb, hw, rfl⟩
      · obtain ⟨more, hm, he⟩ := map_eq_ok h
        cases he
        obtain ⟨lead, hl, hr⟩ := frame.skipLead_sound hm
        refine ⟨b ++ lead, by rw [ht, hr]; simp, ?_⟩
        rintro w ⟨a, v, u, ha, hv, hu, rfl⟩
        cases hu with
        | @cons _ _ x u hx hu =>
          exact ⟨_, u, .next (.first hb) hl ha hv hx, hu, by simp⟩
  | behind frames =>
    cases frames with
    | nil => cases busy
    | cons frame frames =>
      simp only [step] at h
      split at h
      · cases h
      · next c tail hs =>
        rw [hs] at ht
        split at h
        · next hc =>
          obtain ⟨more, hm, he⟩ := map_eq_ok h
          cases he
          obtain ⟨lead, hl, rfl⟩ := frame.skipLead_sound hm
          refine ⟨b ++ c :: lead, by simp [ht], ?_⟩
          rintro w ⟨a, v, u, ha, hv, hu, rfl⟩
          cases hu with
          | @cons _ _ x u hx hu =>
            have hmore := Closes.cons (.next (.comma hb blanks_nil) hl ha hv hx) hu
            rw [hc]
            simpa [Completes] using hmore
        · split at h
          · next hc =>
            cases h
            refine ⟨b ++ [c], by simp [ht], ?_⟩
            intro w hw
            rw [hc]
            exact .cons (.close hb) hw
          · cases h

theorem Stand.skip_sound {stand : Stand} {t rest : List Char} (h : stand.skip t = .ok rest) :
    ∃ w, stand.Completes w ∧ t = w ++ rest := by
  fun_induction Stand.skip stand t with
  | case1 stand t done =>
    cases h
    cases stand with
    | before => cases done
    | opened => cases done
    | behind frames =>
      cases frames with
      | nil => exact ⟨[], .nil, rfl⟩
      | cons => cases done
  | case2 stand t busy next more hs ih =>
    obtain ⟨w, hw, rfl⟩ := ih h
    obtain ⟨v, rfl, hv⟩ := Stand.step_sound hs (eq_false_of_ne_true busy)
    exact ⟨v ++ w, hv w hw, by simp⟩
  | case3 => cases h

/-! ### What is in the language is consumed -/

theorem Stand.skip_step {stand next : Stand} {t rest : List Char} (busy : stand.isDone = false)
    (h : stand.step t = .ok (next, rest)) : stand.skip t = next.skip rest := by
  rw [Stand.skip, dif_neg (by simp [busy])]
  split
  · next hs =>
    rw [h] at hs
    cases hs
    rfl
  · next hs =>
    rw [h] at hs
    cases hs

theorem endsNumber_of_isBlank {c : Char} (h : isBlank c = true) (t : List Char) :
    EndsNumber (c :: t) := by
  rcases isBlank_iff.mp h with rfl | rfl | rfl | rfl <;>
    exact ⟨rfl, by decide, by decide, by decide⟩

theorem endsNumber_append {b : List Char} (hb : Blanks b) {t : List Char} (ht : EndsNumber t) :
    EndsNumber (b ++ t) := by
  cases b with
  | nil => exact ht
  | cons c b => exact endsNumber_of_isBlank (isBlank_iff.mpr (hb c List.mem_cons_self)) _

theorem Frame.endsNumber_closing (frame : Frame) (t : List Char) :
    EndsNumber (frame.closing :: t) := by
  cases frame <;> exact ⟨rfl, by decide, by decide, by decide⟩

theorem endsNumber_comma (t : List Char) : EndsNumber (',' :: t) :=
  ⟨rfl, by decide, by decide, by decide⟩

theorem Separator.endsNumber {a : List Char} (h : Separator false a) (t : List Char) :
    EndsNumber (a ++ t) := by
  cases h with
  | comma ha hb =>
    rw [List.append_assoc]
    exact endsNumber_append ha (endsNumber_comma _)

theorem Derives.endsNumber {frame : Frame} {w : List Char} (h : Derives (.rest false frame) w)
    (t : List Char) : EndsNumber (w ++ t) := by
  cases h with
  | close hb =>
    rw [List.append_assoc]
    exact endsNumber_append hb (frame.endsNumber_closing t)
  | next ha =>
    rw [List.append_assoc]
    exact ha.endsNumber _

theorem Stand.skip_scalar {b w t : List Char} {c : Char} (frames : List Frame) (hb : Blanks b)
    (hc : isBlank c = false) (ho : Frame.ofOpening? c = none)
    (h : skipScalar c (w ++ t) = .ok t) :
    (before frames).skip (b ++ (c :: w ++ t)) = (behind frames).skip t := by
  apply skip_step rfl
  have hs := skipBlanks_append_cons hb hc (w ++ t)
  rw [List.cons_append]
  simp only [step, hs, ho, h]
  rfl

def Part.Skips : Part → List Char → Prop
  | .value, w => ∀ frames b t, Blanks b → EndsNumber t →
    (Stand.before frames).skip (b ++ (w ++ t)) = (Stand.behind frames).skip t
  | .rest true frame, w => ∀ frames t,
    (Stand.opened frame frames).skip (w ++ t) = (Stand.behind frames).skip t
  | .rest false frame, w => ∀ frames t,
    (Stand.behind (frame :: frames)).skip (w ++ t) = (Stand.behind frames).skip t

theorem Derives.skips {part : Part} {w : List Char} (h : Derives part w) : part.Skips w := by
  induction h with
  | nullWord =>
    intro frames b t hb _
    exact Stand.skip_scalar frames hb rfl rfl (readWord_append _ t)
  | trueWord =>
    intro frames b t hb _
    exact Stand.skip_scalar frames hb rfl rfl (readWord_append _ t)
  | falseWord =>
    intro frames b t hb _
    exact Stand.skip_scalar frames hb rfl rfl (readWord_append _ t)
  | @text w hw =>
    intro frames b t hb _
    apply Stand.skip_scalar frames hb rfl rfl
    simpa [skipScalar] using skipText_content hw t
  | @number w hw =>
    intro frames b t hb ht
    have hn := skipNumber_append hw ht
    obtain ⟨c, u, rfl, hc⟩ := hw.head
    have hblank : isBlank c = false := by
      rcases hc with rfl | hc
      · rfl
      · exact isBlank_of_isDigit hc
    have hne : ∀ d : Char, d ≠ '-' → d.isDigit = false → c ≠ d := by
      rintro d hd hdigit rfl
      rcases hc with h | h
      · exact hd h
      · rw [hdigit] at h; cases h
    apply Stand.skip_scalar frames hb hblank
    · unfold Frame.ofOpening?
      split
      · exact absurd rfl (hne '[' (by decide) rfl)
      · exact absurd rfl (hne '{' (by decide) rfl)
      · rfl
    · rw [skipScalar, if_neg (hne 'n' (by decide) rfl), if_neg (hne 't' (by decide) rfl),
        if_neg (hne 'f' (by decide) rfl), if_neg (hne '"' (by decide) rfl), if_pos hc]
      exact hn
  | @group frame w _ ih =>
    intro frames b t hb _
    rw [← ih frames t]
    apply Stand.skip_step rfl
    have hs := skipBlanks_append_cons hb frame.isBlank_opening (w ++ t)
    rw [List.cons_append]
    simp only [Stand.step, hs, frame.ofOpening?_opening]
  | @close first frame b hb =>
    have hs (t : List Char) : skipBlanks (b ++ [frame.closing] ++ t) = frame.closing :: t := by
      rw [List.append_assoc]
      exact skipBlanks_append_cons hb frame.isBlank_closing t
    cases first with
    | true =>
      intro frames t
      apply Stand.skip_step rfl
      simp only [Stand.step, hs, if_true]
    | false =>
      intro frames t
      apply Stand.skip_step rfl
      simp only [Stand.step, hs, if_neg frame.comma_ne_closing.symm, if_true]
  | @next first frame a lead b v w ha hl hb hv hw ihv ihw =>
    have hbehind {d : List Char} (hd : Blanks d) (frames : List Frame) (t : List Char) :
        (Stand.before (frame :: frames)).skip (d ++ (v ++ (w ++ t))) =
          (Stand.behind frames).skip t := by
      rw [ihv (frame :: frames) d (w ++ t) hd (hw.endsNumber t)]
      exact ihw frames t
    cases ha with
    | first ha =>
      intro frames t
      obtain ⟨c, u, d, hd, hs, hc, hlead⟩ := hl.skip_opened ha hb hv (w ++ t)
      rw [← hbehind hd frames t]
      apply Stand.skip_step rfl
      simp only [List.append_assoc]
      simp only [Stand.step, hs, if_neg hc, hlead, Except.map]
    | @comma a e ha he =>
      intro frames t
      obtain ⟨d, hd, hlead⟩ := hl.skip_behind he hb (v ++ (w ++ t))
      rw [← hbehind hd frames t]
      apply Stand.skip_step rfl
      have hs := skipBlanks_append_cons ha (c := ',') rfl
        (e ++ (lead ++ (b ++ (v ++ (w ++ t)))))
      simp only [List.append_assoc, List.cons_append]
      simp only [Stand.step, hs, if_true, hlead, Except.map]

theorem skipValue_append {b v t : List Char} (hb : Blanks b) (hv : IsValue v)
    (ht : EndsNumber t) : skipValue (b ++ (v ++ t)) = .ok t := by
  have h := hv.skips [] b t hb ht
  have done : (Stand.behind []).isDone = true := rfl
  rw [skipValue, h, Stand.skip, dif_pos done]

theorem skipValue_sound {t rest : List Char} (h : skipValue t = .ok rest) :
    ∃ b v, Blanks b ∧ IsValue v ∧ t = b ++ (v ++ rest) := by
  obtain ⟨w, ⟨b, v, u, hb, hv, hu, rfl⟩, rfl⟩ := Stand.skip_sound h
  cases hu
  exact ⟨b, v, hb, hv, by simp⟩

end Roster.Json
