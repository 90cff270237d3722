import Roster.Json.Record
import Roster.Proofs.Json.Skip

/-! Records. What a schema reads is a language of its own: the values that its fields can have and
how these are written. From that follows the language of the whole record, as an object whose
members come in any order among unknown ones, or as a list in the order of the fields; a reader of
records accepts exactly this language. -/
namespace Roster.Json

/-! ### Values of one field -/

theorem readTextValue_append {b w s : List Char} (hb : Blanks b) (hw : TextToken w s)
    (t : List Char) : readTextValue (b ++ (w ++ t)) = .ok (s, t) := by
  cases hw with
  | @quoted v s hv =>
    have hs := skipBlanks_append_cons hb (c := '"') rfl (v ++ '"' :: t)
    have hr : readText (v ++ '"' :: t) = .ok (s, t) := readText_iff.mpr ⟨v, hv, rfl⟩
    simp [readTextValue, hs, hr]

theorem readTextValue_sound {t s rest : List Char} (h : readTextValue t = .ok (s, rest)) :
    ∃ b w, Blanks b ∧ TextToken w s ∧ t = b ++ (w ++ rest) := by
  obtain ⟨b, hb, ht⟩ := exists_blanks t
  unfold readTextValue at h
  split at h
  · cases h
  · next hs =>
    split at h
    · next hc =>
      obtain ⟨v, hv, hr⟩ := readText_iff.mp h
      refine ⟨b, _, hb, .quoted hv, ?_⟩
      rw [ht, hs, hc, hr]
      simp
    · cases h

theorem readWordNumber_append {b w : List Char} {n : UInt64} (hb : Blanks b)
    (hw : WholeNumber w n.toNat) {t : List Char} (ht : EndsNumber t) :
    readWordNumber (b ++ (w ++ t)) = .ok (n, t) := by
  have hn := readNumber_natural hw n.toNat_lt ht
  cases w with
  | nil => exact absurd rfl hw.form.ne_nil
  | cons c w =>
    have hc : c.isDigit = true := hw.form.allDigits.head
    have hs := skipBlanks_append_cons hb (isBlank_of_isDigit hc) (w ++ t)
    rw [List.cons_append] at hn ⊢
    simp only [readWordNumber, hs, hc, or_true, if_true, hn, UInt64.ofNat_toNat]

theorem readWordNumber_sound {t rest : List Char} {n : UInt64}
    (h : readWordNumber t = .ok (n, rest)) :
    ∃ b w, Blanks b ∧ WholeNumber w n.toNat ∧ t = b ++ (w ++ rest) := by
  obtain ⟨b, hb, ht⟩ := exists_blanks t
  unfold readWordNumber at h
  split at h
  · cases h
  · next hs =>
    split at h
    · split at h
      · next m more hn =>
        cases h
        obtain ⟨w, hw, fits, hr⟩ := readNumber_sound hn
        refine ⟨b, w, hb, ?_, by rw [ht, hs, hr]⟩
        rw [UInt64.toNat_ofNat_of_lt' fits]
        exact hw
      · cases h
      · cases h
      · cases h
    · cases h

theorem TextToken.head {w s : List Char} (h : TextToken w s) :
    ∃ c u, w = c :: u ∧ isBlank c = false ∧ c ≠ ']' := by
  cases h with
  | quoted => exact ⟨'"', _, rfl, rfl, by decide⟩

theorem WholeNumber.head {w : List Char} {n : Nat} (h : WholeNumber w n) :
    ∃ c u, w = c :: u ∧ isBlank c = false ∧ c ≠ ']' := by
  cases w with
  | nil => exact absurd rfl h.form.ne_nil
  | cons c w =>
    have hc : c.isDigit = true := h.form.allDigits.head
    refine ⟨c, w, rfl, isBlank_of_isDigit hc, ?_⟩
    rintro rfl
    cases hc

/-- A text has a value if it can be read up to blanks. -/
theorem readWhole_iff {α : Type} {read : List Char → Except Fault (α × List Char)}
    {text : String} {value : α} :
    readWhole read text = .ok value ↔
      ∃ b, read text.toList = .ok (value, b) ∧ Blanks b := by
  constructor
  · intro h
    simp only [readWhole] at h
    split at h
    · next rest hr =>
      unfold finishText at h
      split at h
      · next hs =>
        cases h
        exact ⟨rest, hr, blanks_of_skipBlanks_eq_nil hs⟩
      · cases h
    · cases h
  · rintro ⟨b, hr, hb⟩
    simp only [readWhole, hr, finishText, skipBlanks_eq_nil hb]
    rfl

namespace Schema

variable {φ δ α γ : Type} {s : Schema φ δ α}

/-- What a schema reads: the keys of its fields in an object and their order in a list, the values
of the fields, how these are written, how a draft takes them up and what it has taken up. -/
structure Language (s : Schema φ δ α) (γ : Type) where
  key : φ → String
  order : List φ
  field : γ → φ
  Written : γ → List Char → Prop
  put : δ → γ → δ
  get : δ → φ → Option γ
  head : ∀ {g w}, Written g w → ∃ c u, w = c :: u ∧ isBlank c = false ∧ c ≠ ']'
  read_append : ∀ {b g w t} (d : δ), Blanks b → Written g w → EndsNumber t →
    s.read (field g) d (b ++ (w ++ t)) = .ok (put d g, t)
  read_sound : ∀ {f d t d' rest}, s.read f d t = .ok (d', rest) →
    ∃ b w g, Blanks b ∧ Written g w ∧ field g = f ∧ d' = put d g ∧ t = b ++ (w ++ rest)
  get_blank : ∀ f, get s.blank f = none
  get_put_self : ∀ d g, get (put d g) (field g) = some g
  get_put_of_ne : ∀ {d g f}, f ≠ field g → get (put d g) f = get d f
  holds_eq : ∀ d f, s.holds d f = (get d f).isSome
  label_eq : ∀ f, s.label f = key f
  fields_eq : s.fields = order
  mem_order : ∀ f, f ∈ order
  key_injective : ∀ {f f'}, key f = key f' → f = f'

namespace Language

variable (L : Language s γ)

/-- A member of an object. One with an unknown key gives nothing; its value may be anything. -/
inductive Member : Option γ → List Char → Prop where
  | known {key a b w g} : Content key (L.key (L.field g)).toList → Blanks a → Blanks b →
      L.Written g w → Member (some g) ('"' :: (key ++ '"' :: (a ++ ':' :: (b ++ w))))
  | unknown {key name a b v} : Content key name → (∀ f, name ≠ (L.key f).toList) →
      Blanks a → Blanks b → IsValue v →
      Member none ('"' :: (key ++ '"' :: (a ++ ':' :: (b ++ v))))

/-- The ways to write a record, and the values that are given in each. No field is given twice. -/
inductive Record : List γ → List Char → Prop where
  | object {items w} : Items .object L.Member true items w →
      ((items.filterMap id).map L.field).Nodup →
      Record (items.filterMap id) (Frame.object.opening :: w)
  | list {given w} : Items .list L.Written true given w → given.map L.field <+: L.order →
      Record given (Frame.list.opening :: w)

/-- The text is a record between blanks in which these values are given. -/
def Gives (given : List γ) (text : String) : Prop :=
  ∃ a w b, Blanks a ∧ Blanks b ∧ L.Record given w ∧ text.toList = a ++ (w ++ b)

theorem get_foldl_of_notMem {given : List γ} {f : φ} (h : f ∉ given.map L.field) (d : δ) :
    L.get (given.foldl L.put d) f = L.get d f := by
  induction given generalizing d with
  | nil => rfl
  | cons g given ih =>
    rw [List.map_cons, List.mem_cons, not_or] at h
    rw [List.foldl_cons, ih h.2, L.get_put_of_ne h.1]

/-- A value that is given once is found in the draft, wherever it stands. -/
theorem get_foldl_of_mem {given : List γ} (hn : (given.map L.field).Nodup) {g : γ}
    (h : g ∈ given) (d : δ) : L.get (given.foldl L.put d) (L.field g) = some g := by
  induction given generalizing d with
  | nil => cases h
  | cons g' given ih =>
    rw [List.map_cons, List.nodup_cons] at hn
    rcases List.mem_cons.mp h with rfl | h
    · rw [List.foldl_cons, L.get_foldl_of_notMem hn.1, L.get_put_self]
    · exact ih hn.2 h _

theorem field?_eq_some {key : List Char} {f : φ} :
    s.field? key = some f ↔ key = (L.key f).toList := by
  have sound {f : φ} (h : s.field? key = some f) : (L.key f).toList = key := by
    have hl := List.find?_some h
    simpa [L.label_eq] using hl
  constructor
  · intro h
    exact (sound h).symm
  · intro h
    have hf : (s.field? key).isSome = true := by
      simp only [field?, List.find?_isSome]
      exact ⟨f, L.fields_eq ▸ L.mem_order f, by simp [h, L.label_eq]⟩
    obtain ⟨f', hf'⟩ := Option.isSome_iff_exists.mp hf
    rw [hf', L.key_injective (String.toList_inj.mp ((sound hf').trans h))]

theorem field?_eq_none {key : List Char} :
    s.field? key = none ↔ ∀ f, key ≠ (L.key f).toList := by
  constructor
  · intro h f hf
    rw [L.field?_eq_some.mpr hf] at h
    cases h
  · intro h
    cases hf : s.field? key with
    | none => rfl
    | some f => exact absurd (L.field?_eq_some.mp hf) (h f)

def Fresh (d : δ) (given : List γ) : Prop :=
  (∀ g ∈ given, s.holds d (L.field g) = false) ∧ (given.map L.field).Nodup

theorem fresh_nil (d : δ) : L.Fresh d [] := by
  simp [Fresh]

theorem fresh_cons {d : δ} {g : γ} {given : List γ} :
    L.Fresh d (g :: given) ↔ s.holds d (L.field g) = false ∧ L.Fresh (L.put d g) given := by
  have hput (g' : γ) : s.holds (L.put d g) (L.field g') = false ↔
      L.field g' ≠ L.field g ∧ s.holds d (L.field g') = false := by
    rw [L.holds_eq, L.holds_eq]
    by_cases hf : L.field g' = L.field g
    · simp [hf, L.get_put_self]
    · simp [hf, L.get_put_of_ne hf]
  simp only [Fresh, List.mem_cons, List.map_cons, List.nodup_cons, List.mem_map, forall_eq_or_imp,
    hput, not_exists, not_and]
  constructor
  · rintro ⟨⟨hg, hd⟩, hne, hn⟩
    exact ⟨hg, fun g' hg' => ⟨hne g' hg', hd g' hg'⟩, hn⟩
  · rintro ⟨hg, hd, hn⟩
    exact ⟨⟨hg, fun g' hg' => (hd g' hg').2⟩, fun g' hg' => (hd g' hg').1, hn⟩

/-! ### Members of an object -/

theorem nextKey_sound {first more : Bool} {t rest : List Char}
    (h : nextKey first t = .ok (more, rest)) :
    (more = true ∧ ∃ a, Separator first a ∧ t = a ++ '"' :: rest) ∨
      (more = false ∧ ∃ b r, Blanks b ∧ rest = '}' :: r ∧ t = b ++ rest) := by
  obtain ⟨a, ha, ht⟩ := exists_blanks t
  unfold nextKey at h
  split at h
  · cases h
  · next c u hs =>
    rw [hs] at ht
    split at h
    · next hc =>
      cases h
      exact .inr ⟨rfl, a, u, ha, by rw [hc], ht⟩
    · split at h
      · next hf =>
        split at h
        · next hq =>
          cases h
          exact .inl ⟨rfl, a, hf ▸ .first ha, by rw [ht, hq]⟩
        · cases h
      · next hf =>
        split at h
        · next hc =>
          obtain ⟨b, hb, hu⟩ := exists_blanks u
          split at h
          · cases h
          · next hk =>
            split at h
            · next hq =>
              cases h
              refine .inl ⟨rfl, a ++ ',' :: b, ?_, ?_⟩
              · rw [eq_false_of_ne_true hf]
                exact .comma ha hb
              · rw [ht, hu, hk, hc, hq]
                simp
            · split at h <;> cases h
        · cases h

theorem nextKey_separator {first : Bool} {a : List Char} (h : Separator first a) (t : List Char) :
    nextKey first (a ++ '"' :: t) = .ok (true, t) := by
  cases h with
  | first ha =>
    simp [nextKey, skipBlanks_append_cons ha (c := '"') rfl]
  | @comma a b ha hb =>
    have hs := skipBlanks_append_cons ha (c := ',') rfl (b ++ '"' :: t)
    simp [nextKey, hs, skipBlanks_append_cons hb (c := '"') rfl]

theorem nextKey_close {b : List Char} (hb : Blanks b) (first : Bool) (t : List Char) :
    nextKey first (b ++ '}' :: t) = .ok (false, '}' :: t) := by
  simp [nextKey, skipBlanks_append_cons hb (c := '}') rfl]

theorem readMember_sound {d d' : δ} {key name t rest : List Char} (hk : Content key name)
    (h : s.readMember d name t = .ok (d', rest)) :
    ∃ x m, L.Member x ('"' :: (key ++ '"' :: m)) ∧ t = m ++ rest ∧
      d' = x.toList.foldl L.put d ∧ ∀ g ∈ x, s.holds d (L.field g) = false := by
  unfold readMember at h
  split at h
  · next f hf =>
    split at h
    · cases h
    · next hd =>
      split at h
      · next hc =>
        obtain ⟨a, ha, rfl⟩ := readColon_sound hc
        obtain ⟨b, w, g, hb, hw, rfl, rfl, rfl⟩ := L.read_sound h
        rw [L.field?_eq_some.mp hf] at hk
        refine ⟨some g, _, .known hk ha hb hw, by simp, rfl, ?_⟩
        simpa using hd
      · cases h
  · next hf =>
    split at h
    · next hc =>
      obtain ⟨a, ha, rfl⟩ := readColon_sound hc
      obtain ⟨more, hskip, he⟩ := map_eq_ok h
      cases he
      obtain ⟨b, v, hb, hv, rfl⟩ := skipValue_sound hskip
      exact ⟨none, _, .unknown hk (L.field?_eq_none.mp hf) ha hb hv, by simp, rfl, by simp⟩
    · cases h

theorem readMember_append {x : Option γ} {w : List Char} (h : L.Member x w) (d : δ)
    (fresh : ∀ g ∈ x, s.holds d (L.field g) = false) {t : List Char} (ht : EndsNumber t) :
    ∃ u key m, w = '"' :: u ∧ readText (u ++ t) = .ok (key, m) ∧
      s.readMember d key m = .ok (x.toList.foldl L.put d, t) := by
  cases h with
  | @known key a b w g hk ha hb hw =>
    refine ⟨_, _, a ++ ':' :: (b ++ (w ++ t)), rfl,
      readText_iff.mpr ⟨key, hk, by simp⟩, ?_⟩
    simp [readMember, L.field?_eq_some.mpr rfl, fresh g rfl, readColon_append ha,
      L.read_append d hb hw ht]
  | @unknown key name a b v hk hn ha hb hv =>
    refine ⟨_, _, a ++ ':' :: (b ++ (v ++ t)), rfl,
      readText_iff.mpr ⟨key, hk, by simp⟩, ?_⟩
    simp [readMember, L.field?_eq_none.mpr hn, readColon_append ha,
      skipValue_append hb hv ht, Except.map]

theorem readObjectEnd_sound {t rest : List Char} (h : readObjectEnd ('}' :: t) = .ok rest) :
    t = rest := by
  simpa [readObjectEnd, skipBlanks_cons (c := '}') rfl] using h

theorem readMembers_sound {first : Bool} {d d' : δ} {t u rest : List Char}
    (h : s.readMembers first d t = .ok (d', u)) (close : readObjectEnd u = .ok rest) :
    ∃ items w, Items .object L.Member first items w ∧ L.Fresh d (items.filterMap id) ∧
      d' = (items.filterMap id).foldl L.put d ∧ t = w ++ rest := by
  fun_induction readMembers s first d t with
  | case1 => cases h
  | case2 first d t r hk =>
    cases h
    rcases nextKey_sound hk with ⟨hm, -⟩ | ⟨-, b, r, hb, rfl, rfl⟩
    · cases hm
    · rw [← readObjectEnd_sound close]
      exact ⟨[], _, .close hb, L.fresh_nil _, rfl, by simp [Frame.closing]⟩
  | case3 => cases h
  | case4 => cases h
  | case5 first d t r hnext key m hkey d₁ r₁ hm ih =>
    obtain ⟨items, w, hitems, hfresh, rfl, rfl⟩ := ih h
    rcases nextKey_sound hnext with ⟨-, a, ha, rfl⟩ | ⟨hm, -⟩
    · obtain ⟨k, hk, rfl⟩ := readText_iff.mp hkey
      obtain ⟨x, v, hx, rfl, rfl, hd⟩ := L.readMember_sound hk hm
      refine ⟨x :: items, _, .next ha hx hitems, ?_, ?_, by simp⟩
      · cases x with
        | none => exact hfresh
        | some g => exact L.fresh_cons.mpr ⟨hd g rfl, hfresh⟩
      · cases x <;> rfl
    · cases hm

theorem readMembers_close {first : Bool} {d : δ} {t rest : List Char}
    (hk : nextKey first t = .ok (false, rest)) : s.readMembers first d t = .ok (d, rest) := by
  rw [readMembers]
  split
  · next he => rw [hk] at he; cases he
  · next he => rw [hk] at he; cases he; rfl
  · next he => rw [hk] at he; cases he

theorem readMembers_step {first : Bool} {d d' : δ} {t r key m rest : List Char}
    (hk : nextKey first t = .ok (true, r)) (hkey : readText r = .ok (key, m))
    (hm : s.readMember d key m = .ok (d', rest)) :
    s.readMembers first d t = s.readMembers false d' rest := by
  rw [readMembers]
  split
  · next he => rw [hk] at he; cases he
  · next he => rw [hk] at he; cases he
  · next he =>
    rw [hk] at he
    cases he
    split
    · next he => rw [hkey] at he; cases he
    · next he =>
      rw [hkey] at he
      cases he
      split
      · next he => rw [hm] at he; cases he
      · next he =>
        rw [hm] at he
        cases he
        rfl

theorem endsNumber_of_items {β : Type} {frame : Frame} {Item : β → List Char → Prop}
    {xs : List β} {w : List Char} (h : Items frame Item false xs w) (t : List Char) :
    EndsNumber (w ++ t) := by
  cases h with
  | close hb =>
    rw [List.append_assoc]
    exact endsNumber_append hb (frame.endsNumber_closing t)
  | next ha =>
    rw [List.append_assoc]
    exact ha.endsNumber _

theorem readMembers_append {first : Bool} {items : List (Option γ)} {w : List Char}
    (h : Items .object L.Member first items w) {d : δ} (fresh : L.Fresh d (items.filterMap id))
    (t : List Char) :
    s.readMembers first d (w ++ t) = .ok ((items.filterMap id).foldl L.put d, '}' :: t) := by
  induction h generalizing d with
  | @close first b hb =>
    rw [List.append_assoc]
    exact readMembers_close (nextKey_close hb first t)
  | @next first a x xs v u ha hx hrest ih =>
    have hd : ∀ g ∈ x, s.holds d (L.field g) = false := by
      rintro g rfl
      exact (L.fresh_cons.mp fresh).1
    obtain ⟨r, key, m, rfl, hkey, hm⟩ :=
      L.readMember_append hx d hd (endsNumber_of_items hrest t)
    have hstep := readMembers_step (nextKey_separator ha (r ++ (u ++ t))) hkey hm
    simp only [List.append_assoc, List.cons_append] at hstep ⊢
    rw [hstep]
    cases x with
    | none => exact ih fresh
    | some g => exact ih (L.fresh_cons.mp fresh).2

/-! ### Elements of a list -/

theorem nextElement_sound {first more : Bool} {t rest : List Char}
    (h : nextElement first t = .ok (more, rest)) :
    (more = true ∧ ∃ a, Separator first a ∧ t = a ++ rest) ∨
      (more = false ∧ ∃ b r, Blanks b ∧ rest = ']' :: r ∧ t = b ++ rest) := by
  obtain ⟨a, ha, ht⟩ := exists_blanks t
  unfold nextElement at h
  split at h
  · cases h
  · next c u hs =>
    rw [hs] at ht
    split at h
    · next hc =>
      cases h
      exact .inr ⟨rfl, a, u, ha, by rw [hc], ht⟩
    · split at h
      · next hf =>
        cases h
        exact .inl ⟨rfl, a, hf ▸ .first ha, ht⟩
      · next hf =>
        split at h
        · next hc =>
          obtain ⟨b, hb, hu⟩ := exists_blanks u
          split at h
          · cases h
          · next he =>
            split at h
            · cases h
            · cases h
              refine .inl ⟨rfl, a ++ ',' :: b, ?_, ?_⟩
              · rw [eq_false_of_ne_true hf]
                exact .comma ha hb
              · rw [ht, hc, List.append_assoc, List.cons_append, ← he, ← hu]
        · cases h

theorem nextElement_separator {first : Bool} {a : List Char} {c : Char} (h : Separator first a)
    (hc : isBlank c = false) (hclose : c ≠ ']') (t : List Char) :
    nextElement first (a ++ c :: t) = .ok (true, c :: t) := by
  cases h with
  | first ha => simp [nextElement, skipBlanks_append_cons ha hc, hclose]
  | @comma a b ha hb =>
    have hs := skipBlanks_append_cons ha (c := ',') rfl (b ++ c :: t)
    simp [nextElement, hs, skipBlanks_append_cons hb hc, hclose]

theorem nextElement_close {b : List Char} (hb : Blanks b) (first : Bool) (t : List Char) :
    nextElement first (b ++ ']' :: t) = .ok (false, ']' :: t) := by
  simp [nextElement, skipBlanks_append_cons hb (c := ']') rfl]

theorem readListEnd_append {b : List Char} (hb : Blanks b) (t : List Char) :
    readListEnd (b ++ ']' :: t) = .ok t := by
  simp [readListEnd, skipBlanks_append_cons hb (c := ']') rfl]

theorem readListEnd_sound {t rest : List Char} (h : readListEnd t = .ok rest) :
    ∃ b, Blanks b ∧ t = b ++ ']' :: rest := by
  obtain ⟨b, hb, ht⟩ := exists_blanks t
  unfold readListEnd at h
  split at h
  · cases h
  · next hs =>
    split at h
    · next hc =>
      cases h
      exact ⟨b, hb, by rw [ht, hs, hc]⟩
    · split at h <;> cases h

theorem readElements_sound {fields : List φ} {d d' : δ} {t u rest : List Char} {count n : Nat}
    (h : s.readElements d t count fields = .ok (d', n, u)) (close : readListEnd u = .ok rest) :
    ∃ given w, Items .list L.Written (count = 0) given w ∧ given.map L.field <+: fields ∧
      d' = given.foldl L.put d ∧ t = w ++ rest := by
  induction fields generalizing d t count with
  | nil =>
    cases h
    obtain ⟨b, hb, rfl⟩ := readListEnd_sound close
    exact ⟨[], _, .close hb, List.nil_prefix, rfl, by simp [Frame.closing]⟩
  | cons f fields ih =>
    simp only [readElements] at h
    split at h
    · cases h
    · next hn =>
      cases h
      rcases nextElement_sound hn with ⟨hm, -⟩ | ⟨-, b, r, hb, rfl, rfl⟩
      · cases hm
      · obtain ⟨a, ha, he⟩ := readListEnd_sound close
        cases a with
        | nil =>
          cases he
          exact ⟨[], _, .close hb, List.nil_prefix, rfl, by simp [Frame.closing]⟩
        | cons c a =>
          cases he
          exact absurd (ha ']' List.mem_cons_self) (by decide)
    · next r hn =>
      split at h
      · cases h
      · next hr =>
        obtain ⟨given, w, hitems, hp, rfl, rfl⟩ := ih h
        rcases nextElement_sound hn with ⟨-, a, ha, rfl⟩ | ⟨hm, -⟩
        · obtain ⟨b, v, g, hb, hv, rfl, rfl, rfl⟩ := L.read_sound hr
          rw [decide_eq_false (Nat.add_one_ne_zero count)] at hitems
          refine ⟨g :: given, _, .next (ha.append hb) hv hitems, ?_, rfl, by simp⟩
          rw [List.map_cons]
          exact List.cons_prefix_cons.mpr ⟨rfl, hp⟩
        · cases hm

theorem readElements_append {fields : List φ} {given : List γ} {w : List Char} {count : Nat}
    (h : Items .list L.Written (count = 0) given w) (hp : given.map L.field <+: fields) (d : δ)
    (t : List Char) :
    ∃ n u, s.readElements d (w ++ t) count fields = .ok (given.foldl L.put d, n, u) ∧
      readListEnd u = .ok t := by
  induction fields generalizing d given w count with
  | nil =>
    have hg : given = [] := by simpa using hp
    subst hg
    cases h with
    | close hb =>
      exact ⟨count, _, rfl, by simpa [Frame.closing] using readListEnd_append hb t⟩
  | cons f fields ih =>
    cases h with
    | close hb =>
      have hn := nextElement_close hb (count = 0) t
      refine ⟨count, ']' :: t, ?_, readListEnd_append blanks_nil t⟩
      simp [readElements, Frame.closing, hn]
    | @next _ a g given v u ha hv hrest =>
      rw [List.map_cons, List.cons_prefix_cons] at hp
      obtain ⟨rfl, hp⟩ := hp
      rw [← decide_eq_false (Nat.add_one_ne_zero count)] at hrest
      obtain ⟨n, r, hr, hclose⟩ := ih hrest hp (L.put d g)
      obtain ⟨c, v', rfl, hc, hne⟩ := L.head hv
      have hn := nextElement_separator ha hc hne (v' ++ (u ++ t))
      have hends : EndsNumber (u ++ t) := by
        rw [decide_eq_false (Nat.add_one_ne_zero count)] at hrest
        exact endsNumber_of_items hrest t
      have hg := L.read_append d blanks_nil hv hends
      refine ⟨n, r, ?_, hclose⟩
      simp only [List.nil_append, List.append_assoc, List.cons_append] at hg ⊢
      simp only [readElements, hn, hg, hr, List.foldl_cons]

/-! ### Records -/

theorem readRecord_append {given : List γ} {w : List Char} (h : L.Record given w) {value : α}
    (build : s.build (given.foldl L.put s.blank) = .ok value) {b : List Char} (hb : Blanks b)
    (t : List Char) : s.readRecord (b ++ (w ++ t)) = .ok (value, t) := by
  cases h with
  | @object items w hitems hn =>
    have hs := skipBlanks_append_cons hb (c := '{') rfl (w ++ t)
    have hblank (f : φ) : s.holds s.blank f = false := by
      rw [L.holds_eq, L.get_blank]
      rfl
    have hm := L.readMembers_append hitems ⟨fun g _ => hblank _, hn⟩ t
    have he : readObjectEnd ('}' :: t) = .ok t := by
      simp [readObjectEnd, skipBlanks_cons (c := '}') rfl]
    generalize items.filterMap id = given at build hm
    simp [readRecord, Frame.opening, hs, readObject, hm, he, build]
  | @list given w hitems hp =>
    rw [← L.fields_eq] at hp
    have hs := skipBlanks_append_cons hb (c := '[') rfl (w ++ t)
    have hfirst : Items .list L.Written (0 = 0) given w := hitems
    obtain ⟨n, u, hr, he⟩ := L.readElements_append hfirst hp s.blank t
    simp [readRecord, Frame.opening, hs, readList, hr, he, build]

theorem readRecord_sound {t rest : List Char} {value : α}
    (h : s.readRecord t = .ok (value, rest)) :
    ∃ b w given, Blanks b ∧ L.Record given w ∧
      s.build (given.foldl L.put s.blank) = .ok value ∧ t = b ++ (w ++ rest) := by
  obtain ⟨b, hb, ht⟩ := exists_blanks t
  unfold readRecord at h
  split at h
  · cases h
  · next hs =>
    rw [hs] at ht
    split at h
    · next hc =>
      unfold readObject at h
      split at h
      · cases h
      · next hm =>
        split at h
        · cases h
        · next he =>
          obtain ⟨items, w, hitems, hfresh, rfl, rfl⟩ := L.readMembers_sound hm he
          split at h
          · next hbuild =>
            cases h
            exact ⟨b, _, _, hb, .object hitems hfresh.2, hbuild, by rw [ht, hc]; rfl⟩
          · cases h
    · split at h
      · next hc =>
        unfold readList at h
        split at h
        · cases h
        · next hr =>
          split at h
          · cases h
          · next he =>
            obtain ⟨given, w, hitems, hp, rfl, rfl⟩ := L.readElements_sound hr he
            split at h
            · next hbuild =>
              cases h
              exact ⟨b, _, _, hb, .list hitems (L.fields_eq ▸ hp), hbuild, by rw [ht, hc]; rfl⟩
            · cases h
      · cases h

/-- No value is given twice, in a list just as in an object. -/
theorem nodup_of_record {given : List γ} {w : List Char} (h : L.Record given w)
    (order : L.order.Nodup) : (given.map L.field).Nodup := by
  cases h with
  | object _ hn => exact hn
  | list _ hp => exact order.sublist hp.sublist

theorem nodup_of_gives {given : List γ} {text : String} (h : L.Gives given text)
    (order : L.order.Nodup) : (given.map L.field).Nodup := by
  obtain ⟨a, w, b, -, -, hw, -⟩ := h
  exact L.nodup_of_record hw order

/-- A text is decoded exactly if it is a record and the values given in it make the result. -/
theorem decode_iff {text : String} {value : α} :
    s.decode text = .ok value ↔
      ∃ given, L.Gives given text ∧ s.build (given.foldl L.put s.blank) = .ok value := by
  constructor
  · intro h
    obtain ⟨b, hr, hb⟩ := readWhole_iff.mp h
    obtain ⟨a, w, given, ha, hw, hbuild, ht⟩ := L.readRecord_sound hr
    exact ⟨given, ⟨a, w, b, ha, hb, hw, ht⟩, hbuild⟩
  · rintro ⟨given, ⟨a, w, b, ha, hb, hw, ht⟩, hbuild⟩
    apply readWhole_iff.mpr
    exact ⟨b, ht ▸ L.readRecord_append hw hbuild ha b, hb⟩

end Language
end Schema
end Roster.Json
