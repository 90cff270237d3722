import Roster.Proofs.Json.Record

/-! What is printed belongs to the language: escaped texts, decimal numbers, and objects made of
them. Nothing below the space is printed. -/
namespace Roster.Json

def Printable (w : List Char) : Prop := ∀ c ∈ w, 0x20 ≤ c.toNat

theorem Printable.append {v w : List Char} (hv : Printable v) (hw : Printable w) :
    Printable (v ++ w) := by
  intro c hc
  rcases List.mem_append.mp hc with h | h
  · exact hv c h
  · exact hw c h

theorem Printable.cons {c : Char} {w : List Char} (hc : 0x20 ≤ c.toNat) (hw : Printable w) :
    Printable (c :: w) := by
  intro d hd
  rcases List.mem_cons.mp hd with rfl | h
  · exact hc
  · exact hw d h

theorem printable_nil : Printable [] := by
  intro c hc
  cases hc

/-! ### Texts -/

theorem shortEscape?_sound {c letter : Char} (h : shortEscape? c = some letter) :
    LetterEscape letter c := by
  unfold shortEscape? at h
  split at h <;> cases h <;> constructor

theorem shortEscape?_eq_none {c : Char} (h : shortEscape? c = none) : c ≠ '"' ∧ c ≠ '\\' := by
  constructor
  · rintro rfl
    cases h
  · rintro rfl
    cases h

theorem hexDigit_digitChar {k : Nat} (hk : k < 16) : HexDigit (Nat.digitChar k) k := by
  have h : ∀ k : Fin 16, Text.hexValue? (Nat.digitChar k) = some k.val := by decide
  exact hexDigit_iff.mpr (h ⟨k, hk⟩)

theorem escape_cases (c : Char) :
    (∃ letter, shortEscape? c = some letter ∧ escape c = ['\\', letter]) ∨
      (∃ w, c.toNat < 0x20 ∧ CodeUnit w c.toNat ∧ escape c = '\\' :: 'u' :: w) ∨
      (IsPlain c ∧ escape c = [c]) := by
  unfold escape
  split
  · next letter hl => exact .inl ⟨letter, hl, rfl⟩
  · next hn =>
    split
    · next hc =>
      have hlt : c.toNat < 0x20 := by simpa [isControl] using hc
      have hzero : HexDigit '0' 0 := hexDigit_iff.mpr rfl
      have hunit : CodeUnit ['0', '0', Nat.digitChar (c.toNat / 16), Nat.digitChar (c.toNat % 16)]
          (((0 * 16 + 0) * 16 + c.toNat / 16) * 16 + c.toNat % 16) :=
        .digits hzero hzero (hexDigit_digitChar (by omega)) (hexDigit_digitChar (by omega))
      have hvalue : ((0 * 16 + 0) * 16 + c.toNat / 16) * 16 + c.toNat % 16 = c.toNat := by omega
      rw [hvalue] at hunit
      exact .inr (.inl ⟨_, hlt, hunit, rfl⟩)
    · next hc =>
      obtain ⟨hq, hb⟩ := shortEscape?_eq_none hn
      exact .inr (.inr ⟨isPlain_of hq hb hc, rfl⟩)

theorem spelled_escape (c : Char) : Spelled (escape c) c := by
  rcases escape_cases c with ⟨letter, hl, he⟩ | ⟨w, hc, hw, he⟩ | ⟨hc, he⟩
  · rw [he]
    exact .letter (shortEscape?_sound hl)
  · have hs := Spelled.unit hw (.inl (by omega))
    rwa [he, ← Char.ofNat_toNat c]
  · rw [he]
    exact .plain hc

theorem content_escape (s : List Char) : Content (s.flatMap escape) s := by
  induction s with
  | nil => exact .nil
  | cons c s ih =>
    rw [List.flatMap_cons]
    exact .cons (spelled_escape c) ih

theorem literalChars_ne_nil (s : List Char) : literalChars s ≠ [] := List.cons_ne_nil _ _

theorem textToken_literal (s : List Char) : TextToken (literalChars s) s :=
  .quoted (content_escape s)

theorem HexDigit.graphic {c : Char} {k : Nat} (h : HexDigit c k) :
    0x20 ≤ c.toNat ∧ c.toNat ≤ 0x7E := by
  have hle {d e : Char} (hd : d ≤ e) : d.toNat ≤ e.toNat := hd
  cases h with
  | decimal low high =>
    exact ⟨Nat.le_trans (by decide) (hle low), Nat.le_trans (hle high) (by decide)⟩
  | lower low high =>
    exact ⟨Nat.le_trans (by decide) (hle low), Nat.le_trans (hle high) (by decide)⟩
  | upper low high =>
    exact ⟨Nat.le_trans (by decide) (hle low), Nat.le_trans (hle high) (by decide)⟩

theorem CodeUnit.graphic {w : List Char} {n : Nat} (h : CodeUnit w n) :
    ∀ c ∈ w, 0x20 ≤ c.toNat ∧ c.toNat ≤ 0x7E := by
  cases h with
  | digits ha hb hc hd => simp [ha.graphic, hb.graphic, hc.graphic, hd.graphic]

theorem LetterEscape.graphic {l c : Char} (h : LetterEscape l c) :
    0x20 ≤ l.toNat ∧ l.toNat ≤ 0x7E := by
  cases h <;> decide

theorem printable_escape (c : Char) : Printable (escape c) := by
  rcases escape_cases c with ⟨letter, hl, he⟩ | ⟨w, -, hw, he⟩ | ⟨hc, he⟩
  · rw [he]
    exact .cons (by decide) (.cons (shortEscape?_sound hl).graphic.1 printable_nil)
  · rw [he]
    exact .cons (by decide) (.cons (by decide) fun c hc => (hw.graphic c hc).1)
  · rw [he]
    exact .cons hc.2.2 printable_nil

theorem printable_literal (s : List Char) : Printable (literalChars s) := by
  have hs : Printable (s.flatMap escape) := by
    intro c hc
    obtain ⟨d, -, hd⟩ := List.mem_flatMap.mp hc
    exact printable_escape d c hd
  exact .cons (by decide) (hs.append (.cons (by decide) printable_nil))

/-! ### Numbers -/

theorem head?_toDigits_ne_zero {n : Nat} (h : 0 < n) : (Nat.toDigits 10 n).head? ≠ some '0' := by
  induction n using Nat.strongRecOn with
  | ind n ih =>
    by_cases hn : n < 10
    · have hdigit : ∀ k : Fin 10, 0 < k.val → [Nat.digitChar k].head? ≠ some '0' := by decide
      rw [Nat.toDigits_of_lt_base hn]
      exact hdigit ⟨n, hn⟩ h
    · have hlower := ih (n / 10) (by omega) (by omega)
      rw [Nat.toDigits_of_base_le (by omega) (by omega)]
      rw [List.head?_append]
      cases hd : (Nat.toDigits 10 (n / 10)).head? with
      | none => exact absurd (List.head?_eq_none_iff.mp hd) Nat.toDigits_ne_nil
      | some c =>
        rw [hd] at hlower
        exact hlower

theorem wholeNumber_numeral (n : Nat) : WholeNumber (Text.numeral n).toList n := by
  refine ⟨?_, Text.ofDigitChars_numeral n⟩
  have hdigits : AllDigits (Text.numeral n).toList := fun c => Text.isDigit_of_mem_numeral
  rw [Text.toList_numeral] at hdigits ⊢
  by_cases hn : n = 0
  · subst hn
    exact .zero
  · have hhead := head?_toDigits_ne_zero (Nat.pos_of_ne_zero hn)
    cases hw : Nat.toDigits 10 n with
    | nil => exact absurd hw Nat.toDigits_ne_nil
    | cons c w =>
      rw [hw] at hdigits hhead
      exact .positive hdigits.head (by simpa using hhead) hdigits.tail

theorem printable_numeral (n : Nat) : Printable (Text.numeral n).toList := by
  intro c hc
  have hd := Text.isDigit_of_mem_numeral hc
  have hlow : (48 : UInt32) ≤ c.val := by
    simp only [Char.isDigit, Bool.and_eq_true, decide_eq_true_eq] at hd
    exact hd.1
  have : 48 ≤ c.toNat := hlow
  omega

/-! ### Objects -/

def memberChars (m : String × String) : List Char := literalChars m.1.toList ++ ':' :: m.2.toList

def trail (members : List (List Char)) : List Char :=
  members.flatMap (fun m => ',' :: m) ++ ['\x7d']

theorem intercalate_trail (m : List Char) (members : List (List Char)) :
    [','].intercalate (m :: members) ++ ['\x7d'] = m ++ trail members := by
  induction members generalizing m with
  | nil => simp [trail]
  | cons m' members ih =>
    have h := ih m'
    rw [List.intercalate_cons_cons, List.append_assoc, h]
    simp [trail]

theorem toList_object (members : List (String × String)) :
    (object members).toList =
      '\x7b' :: ([','].intercalate (members.map memberChars) ++ ['\x7d']) := by
  have hmembers : (members.map fun m => literal m.1 ++ ":" ++ m.2).map String.toList =
      members.map memberChars := by
    simp [memberChars]
  simp only [object, String.toList_append, String.toList_intercalate, hmembers]
  rfl

theorem printable_object {members : List (String × String)}
    (h : ∀ m ∈ members, Printable m.2.toList) : Printable (object members).toList := by
  have hmember : ∀ w ∈ members.map memberChars, Printable w := by
    intro w hw
    obtain ⟨m, hm, rfl⟩ := List.mem_map.mp hw
    exact (printable_literal _).append (.cons (by decide) (h m hm))
  have hclose : Printable ['\x7d'] := .cons (by decide) printable_nil
  rw [toList_object]
  apply Printable.cons (by decide)
  cases hm : members.map memberChars with
  | nil => exact hclose
  | cons w ws =>
    rw [hm] at hmember
    rw [intercalate_trail]
    apply (hmember w List.mem_cons_self).append
    apply Printable.append _ hclose
    intro c hc
    obtain ⟨v, hv, hcv⟩ := List.mem_flatMap.mp hc
    exact Printable.cons (by decide) (hmember v (List.mem_cons_of_mem _ hv)) c hcv

namespace Schema.Language

variable {φ δ α γ : Type} {s : Schema φ δ α} (L : s.Language γ)

theorem items_trail {given : List γ} {chars : γ → List Char}
    (h : ∀ g ∈ given, L.Member (some g) (chars g)) :
    Items .object L.Member false (given.map some) (trail (given.map chars)) := by
  induction given with
  | nil => exact .close blanks_nil
  | cons g given ih =>
    have hg := h g List.mem_cons_self
    have hrest := ih fun g' hg' => h g' (List.mem_cons_of_mem _ hg')
    have hitem := Items.next (.comma blanks_nil blanks_nil) hg hrest
    simpa [trail] using hitem

theorem record_object {given : List γ} {write : γ → String}
    (hw : ∀ g ∈ given, L.Written g (write g).toList) (hn : (given.map L.field).Nodup) :
    L.Record given (object (given.map fun g => (L.key (L.field g), write g))).toList := by
  have hmember : ∀ g ∈ given,
      L.Member (some g) (memberChars (L.key (L.field g), write g)) := by
    intro g hg
    have hm := Member.known (content_escape _) blanks_nil blanks_nil (hw g hg)
    simpa [memberChars, literalChars] using hm
  have hgiven : (given.map some).filterMap id = given := by simp
  have hitems : Items .object L.Member true (given.map some)
      ([','].intercalate (given.map fun g => memberChars (L.key (L.field g), write g)) ++
        ['\x7d']) := by
    cases given with
    | nil => exact .close blanks_nil
    | cons g given =>
      rw [List.map_cons, List.map_cons, intercalate_trail]
      have hrest := L.items_trail fun g' hg' => hmember g' (List.mem_cons_of_mem _ hg')
      exact Items.next (a := []) (.first blanks_nil) (hmember g List.mem_cons_self) hrest
  have hrecord := Record.object hitems (hgiven.symm ▸ hn)
  rw [hgiven] at hrecord
  simpa [toList_object, Function.comp_def, Frame.opening] using hrecord

end Schema.Language

/-! ## Texts whose end can be told

The reader takes such a text and leaves what follows, so that it can neither be cut short nor be
continued. -/

/-- The value is decoded from the text, and from nothing that is cut off it or goes beyond it. -/
structure Delimited {α ε : Type} (decode : String → Except ε α) (text : String) (value : α) :
    Prop where
  printable : ∀ c ∈ text.toList, 0x20 ≤ c.toNat
  /-- Blanks around the text do not matter. -/
  decode_between : ∀ a b : String, Blanks a.toList → Blanks b.toList →
    decode (a ++ text ++ b) = .ok value
  decode_cut : ∀ p t : String, text = p ++ t → t ≠ "" → ∃ e, decode p = .error e
  decode_beyond : ∀ t : String, ¬ Blanks t.toList → ∃ e, decode (text ++ t) = .error e

theorem Delimited.mapError {α ε ε' : Type} {decode : String → Except ε α} {text : String}
    {value : α} (h : Delimited decode text value) (f : ε → ε') :
    Delimited (fun t => (decode t).mapError f) text value where
  printable := h.printable
  decode_between := by
    intro a b ha hb
    rw [h.decode_between a b ha hb]
    rfl
  decode_cut := by
    intro p t ht hne
    obtain ⟨e, he⟩ := h.decode_cut p t ht hne
    exact ⟨f e, by rw [he]; rfl⟩
  decode_beyond := by
    intro t ht
    obtain ⟨e, he⟩ := h.decode_beyond t ht
    exact ⟨f e, by rw [he]; rfl⟩

namespace Schema.Language

variable {φ δ α γ : Type} {s : Schema φ δ α} (L : s.Language γ)

include L in
theorem readRecord_of_decode {p t : String} {value : α} (h : s.decode p = .ok value) :
    ∃ b, Blanks b ∧ s.readRecord (p ++ t).toList = .ok (value, b ++ t.toList) := by
  obtain ⟨b, hr, hb⟩ := readWhole_iff.mp h
  obtain ⟨a, w, given, ha, hw, hbuild, hp⟩ := L.readRecord_sound hr
  refine ⟨b, hb, ?_⟩
  have happ : (p ++ t).toList = a ++ (w ++ (b ++ t.toList)) := by
    rw [String.toList_append, hp]
    simp
  rw [happ]
  exact L.readRecord_append hw hbuild ha (b ++ t.toList)

theorem delimited {given : List γ} {text : String} {value : α}
    (record : L.Record given text.toList) (build : s.build (given.foldl L.put s.blank) = .ok value)
    (printable : Printable text.toList) : Delimited s.decode text value where
  printable := printable
  decode_between := by
    intro a b ha hb
    apply L.decode_iff.mpr
    refine ⟨given, ⟨a.toList, text.toList, b.toList, ha, hb, record, ?_⟩, build⟩
    simp
  decode_cut := by
    intro p t ht hne
    cases h : s.decode p with
    | error e => exact ⟨e, rfl⟩
    | ok v =>
      have hwhole := L.readRecord_append record build blanks_nil []
      obtain ⟨b, -, hr⟩ := L.readRecord_of_decode (t := t) h
      rw [List.append_nil, List.nil_append, ht, hr] at hwhole
      have hnil : b ++ t.toList = [] := by
        rw [Except.ok.injEq, Prod.mk.injEq] at hwhole
        exact hwhole.2
      exact absurd (String.toList_eq_nil_iff.mp (List.append_eq_nil_iff.mp hnil).2) hne
  decode_beyond := by
    intro t ht
    cases h : s.decode (text ++ t) with
    | error e => exact ⟨e, rfl⟩
    | ok v =>
      have hr := L.readRecord_append record build blanks_nil t.toList
      obtain ⟨b, hb, hblanks⟩ := readWhole_iff.mp h
      rw [String.toList_append] at hb
      rw [List.nil_append, hb] at hr
      have hrest : b = t.toList := by
        rw [Except.ok.injEq, Prod.mk.injEq] at hr
        exact hr.2
      exact absurd (hrest ▸ hblanks) ht

/-- An object of given values, printed one by one, is such a text. -/
theorem delimited_object {given : List γ} {print : γ → String} {value : α}
    (written : ∀ g, L.Written g (print g).toList) (printable : ∀ g, Printable (print g).toList)
    (nodup : (given.map L.field).Nodup) (build : s.build (given.foldl L.put s.blank) = .ok value) :
    Delimited s.decode (object (given.map fun g => (L.key (L.field g), print g))) value := by
  apply L.delimited (L.record_object (fun g _ => written g) nodup) build
  apply printable_object
  intro m hm
  obtain ⟨g, -, rfl⟩ := List.mem_map.mp hm
  exact printable g

end Schema.Language
end Roster.Json
