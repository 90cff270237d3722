import Mathlib.Data.List.Basic
import Roster.Text

/-! Quoted text can be taken back to the text that it stands for, and all of it can be seen. The
escapes of two characters never begin alike, and none of them begins with a quote; so the closing
quote is found, whatever is quoted. -/
namespace Roster.Text

/-! ## Values that show where they end

What is written for one value is never the beginning of what is written for another one; so it can
be told from the front of a text which value it was, whatever stands behind it. -/

section

variable {α β : Type}

def PrefixFree (write : α → List Char) : Prop := ∀ ⦃x y : α⦄, write x <+: write y → x = y

namespace PrefixFree

variable {write : α → List Char}

theorem append_inj (h : PrefixFree write) {x y : α} {s t : List Char}
    (he : write x ++ s = write y ++ t) : x = y ∧ s = t := by
  have hx : write x <+: write y ++ t := ⟨s, he⟩
  have hxy : x = y := by
    rcases List.prefix_or_prefix_of_prefix hx (List.prefix_append _ t) with hp | hp
    · exact h hp
    · exact (h hp).symm
  rw [hxy] at he
  exact ⟨hxy, List.append_cancel_left he⟩

theorem comp (h : PrefixFree write) {f : β → α} (hf : Function.Injective f) :
    PrefixFree fun x => write (f x) := by
  intro x y hp
  exact hf (h hp)

theorem closed (inj : Function.Injective write) {mark : Char} (absent : ∀ x, mark ∉ write x) :
    PrefixFree fun x => write x ++ [mark] := by
  rintro x y ⟨rest, he⟩
  have hwords : write x ++ mark :: rest = write y ++ mark :: [] := by simpa using he
  exact inj ((List.append_cons_inj_of_notMem (absent y) List.not_mem_nil).mp hwords.symm).1.symm

/-- Values in a row are told apart up to the end of the row, if the end is not the beginning of a
value either. -/
theorem flatMap_inj {stop : List Char} (h : PrefixFree fun x : Option α => x.elim stop write)
    {xs ys : List α} {s t : List Char}
    (he : xs.flatMap write ++ (stop ++ s) = ys.flatMap write ++ (stop ++ t)) : xs = ys := by
  induction xs generalizing ys with
  | nil =>
    cases ys with
    | nil => rfl
    | cons y ys =>
      rw [List.flatMap_nil, List.nil_append, List.flatMap_cons, List.append_assoc] at he
      cases (h.append_inj (x := none) (y := some y) he).1
  | cons x xs ih =>
    rw [List.flatMap_cons, List.append_assoc] at he
    cases ys with
    | nil => cases (h.append_inj (x := some x) (y := none) he).1
    | cons y ys =>
      rw [List.flatMap_cons, List.append_assoc] at he
      obtain ⟨hxy, hrest⟩ := h.append_inj (x := some x) (y := some y) he
      rw [Option.some.inj hxy, ih hrest]

theorem row {stop : List Char} (h : PrefixFree fun x : Option α => x.elim stop write) :
    PrefixFree fun xs : List α => xs.flatMap write ++ stop := by
  rintro xs ys ⟨rest, he⟩
  apply h.flatMap_inj (s := rest) (t := [])
  simpa using he
end PrefixFree
end

/-! ## Quoted text -/

/-! ### Hexadecimal digits -/

theorem digitChar_inj {m n : Nat} (hm : m < 16) (hn : n < 16)
    (h : Nat.digitChar m = Nat.digitChar n) : m = n := by
  have hall : ∀ i j : Fin 16, Nat.digitChar i = Nat.digitChar j → i = j := by decide
  exact Fin.mk.inj (hall ⟨m, hm⟩ ⟨n, hn⟩ h)

/-- A number has a last digit, and in front of it the digits of a smaller number unless there is
none. -/
theorem toDigits_cases (n : Nat) :
    ∃ front, Nat.toDigits 16 n = front ++ [Nat.digitChar (n % 16)] ∧
      ((n < 16 ∧ front = []) ∨ (16 ≤ n ∧ front = Nat.toDigits 16 (n / 16))) := by
  by_cases hn : n < 16
  · refine ⟨[], ?_, .inl ⟨hn, rfl⟩⟩
    rw [Nat.toDigits_of_lt_base hn, Nat.mod_eq_of_lt hn, List.nil_append]
  · have hle : 16 ≤ n := Nat.le_of_not_lt hn
    exact ⟨_, Nat.toDigits_of_base_le (by omega) hle, .inr ⟨hle, rfl⟩⟩

theorem exists_digitChar {c : Char} {n : Nat} (h : c ∈ Nat.toDigits 16 n) :
    ∃ k, k < 16 ∧ c = Nat.digitChar k := by
  induction n using Nat.strongRecOn with
  | ind n ih =>
    obtain ⟨front, hdigits, hfront⟩ := toDigits_cases n
    rw [hdigits, List.mem_append, List.mem_singleton] at h
    rcases h with h | h
    · rcases hfront with ⟨-, rfl⟩ | ⟨hn, rfl⟩
      · cases h
      · exact ih (n / 16) (by omega) h
    · exact ⟨n % 16, by omega, h⟩

theorem toDigits_injective : Function.Injective (Nat.toDigits 16) := by
  intro m
  induction m using Nat.strongRecOn with
  | ind m ih =>
    intro n h
    obtain ⟨front, hm, hfront⟩ := toDigits_cases m
    obtain ⟨front', hn, hfront'⟩ := toDigits_cases n
    rw [hm, hn] at h
    obtain ⟨hsame, hlast⟩ := List.append_inj' h rfl
    have hdigit := digitChar_inj (Nat.mod_lt m (by omega)) (Nat.mod_lt n (by omega))
      (List.singleton_inj.mp hlast)
    have hquotient : m / 16 = n / 16 := by
      rcases hfront with ⟨hm, rfl⟩ | ⟨hm, rfl⟩ <;> rcases hfront' with ⟨hn, rfl⟩ | ⟨hn, rfl⟩
      · omega
      · exact absurd hsame.symm Nat.toDigits_ne_nil
      · exact absurd hsame Nat.toDigits_ne_nil
      · exact ih (m / 16) (by omega) hsame
    omega

/-! ### Escapes -/

theorem escape_cases (c : Char) :
    (∃ letter, shortEscape? c = some letter ∧ escape c = ['\\', letter]) ∨
      escape c = '\\' :: 'u' :: '{' :: (Nat.toDigits 16 c.toNat ++ ['}']) ∨
      (c ≠ '"' ∧ c ≠ '\\' ∧ isHidden c = false ∧ escape c = [c]) := by
  unfold escape
  split
  · next letter hl => exact .inl ⟨letter, hl, rfl⟩
  · next hn =>
    split
    · exact .inr (.inl rfl)
    · next hh =>
      refine .inr (.inr ⟨?_, ?_, eq_false_of_ne_true hh, rfl⟩)
      · rintro rfl
        cases hn
      · rintro rfl
        cases hn

theorem shortEscape?_ne_u {c letter : Char} (h : shortEscape? c = some letter) : letter ≠ 'u' := by
  unfold shortEscape? at h
  split at h <;> cases h <;> decide

theorem shortEscape?_inj {c d letter : Char} (hc : shortEscape? c = some letter)
    (hd : shortEscape? d = some letter) : c = d := by
  unfold shortEscape? at hc hd
  split at hc <;> cases hc <;> split at hd <;> first | rfl | cases hd

theorem prefixFree_code : PrefixFree fun c : Char => Nat.toDigits 16 c.toNat ++ ['}'] := by
  apply (PrefixFree.closed toDigits_injective ?_).comp (fun c d h => Char.toNat_inj.mp h)
  intro n hmem
  obtain ⟨k, hk, hc⟩ := exists_digitChar hmem
  have hall : ∀ i : Fin 16, '}' ≠ Nat.digitChar i := by decide
  exact hall ⟨k, hk⟩ hc

theorem quote_ne_head_escape (c : Char) (s t : List Char) : escape c ++ s ≠ '"' :: t := by
  rcases escape_cases c with ⟨letter, -, he⟩ | he | ⟨hq, -, -, he⟩
  · simp [he]
  · simp [he]
  · simp [he, hq]

theorem escape_inj {c d : Char} {s t : List Char} (h : escape c ++ s = escape d ++ t) : c = d := by
  rcases escape_cases c with ⟨l, hl, hc⟩ | hc | ⟨-, hb, -, hc⟩ <;>
    rcases escape_cases d with ⟨l', hl', hd⟩ | hd | ⟨-, hb', -, hd⟩ <;>
    simp only [hc, hd, List.cons_append, List.nil_append, List.cons.injEq, true_and] at h
  · exact shortEscape?_inj hl (h.1 ▸ hl')
  · exact absurd h.1 (shortEscape?_ne_u hl)
  · exact absurd h.1.symm hb'
  · exact absurd h.1.symm (shortEscape?_ne_u hl')
  · exact (prefixFree_code.append_inj h).1
  · exact absurd h.1.symm hb'
  · exact absurd h.1 hb
  · exact absurd h.1 hb
  · exact h.1

/-- The closing quote is not taken for a character, and no character for another one. -/
theorem prefixFree_escape : PrefixFree fun c : Option Char => c.elim ['"'] escape := by
  rintro (_ | c) (_ | d) ⟨rest, h⟩
  · rfl
  · exact absurd ((List.append_nil _).trans h.symm) (quote_ne_head_escape d [] _)
  · exact absurd h (quote_ne_head_escape c _ _)
  · rw [escape_inj (h.trans (List.append_nil _).symm)]

theorem prefixFree_quotedChars : PrefixFree quotedChars := by
  intro s t h
  exact prefixFree_escape.row ((List.cons_prefix_cons.mp h).2)

/-! ### What can be seen -/

def IsControl (c : Char) : Prop := c.toNat < 0x20 ∨ (0x7F ≤ c.toNat ∧ c.toNat ≤ 0x9F)

def Visible (w : List Char) : Prop := ∀ c ∈ w, isHidden c = false

/-- Only the characters in the word are looked at, not all characters there are. -/
instance (w : List Char) : Decidable (Visible w) := List.decidableBAll _ w

theorem covers_behind {ranges : List (Nat × Nat)} {r : Nat × Nat} {n : Nat} (low : r.1 ≤ n)
    (high : r.2 < n) : covers (r :: ranges) n = covers ranges n := by
  simp [covers, Nat.not_lt.mpr low, Nat.not_le.mpr high]

theorem isHidden_of_isControl {c : Char} (h : IsControl c) : isHidden c = true := by
  rcases h with h | ⟨low, high⟩
  · exact isHidden_of_lt_space h
  · have hcovered : covers unprintableRanges c.toNat = true :=
      (covers_behind (Nat.zero_le _) (show 0x1F < c.toNat by omega)).trans
        (covers_head low (show c.toNat ≤ 0xA0 by omega))
    simp [isHidden, hcovered]

theorem isHidden_graphic {c : Char} (low : 0x20 ≤ c.toNat) (high : c.toNat < 0x7F) :
    isHidden c = false := by
  have hunprintable : covers unprintableRanges c.toNat = false :=
    (covers_behind (Nat.zero_le _) low).trans (covers_of_lt high)
  have hextender : covers extenderRanges c.toNat = false :=
    covers_of_lt (show c.toNat < 0x300 by omega)
  simp [isHidden, hunprintable, hextender]

theorem Visible.not_isControl {w : List Char} (h : Visible w) : ∀ c ∈ w, ¬ IsControl c := by
  intro c hc hcontrol
  have hhidden := isHidden_of_isControl hcontrol
  rw [h c hc] at hhidden
  cases hhidden

theorem Visible.append {v w : List Char} (hv : Visible v) (hw : Visible w) : Visible (v ++ w) := by
  intro c hc
  rcases List.mem_append.mp hc with hc | hc
  · exact hv c hc
  · exact hw c hc

theorem Visible.cons {c : Char} {w : List Char} (hc : isHidden c = false) (hw : Visible w) :
    Visible (c :: w) := by
  intro d hd
  rcases List.mem_cons.mp hd with rfl | hd
  · exact hc
  · exact hw d hd

theorem Visible.flatMap {α : Type} {write : α → List Char} {xs : List α}
    (h : ∀ x ∈ xs, Visible (write x)) : Visible (xs.flatMap write) := by
  intro c hc
  obtain ⟨x, hx, hc⟩ := List.mem_flatMap.mp hc
  exact h x hx c hc

theorem visible_numeral (n : Nat) : Visible (numeral n).toList := by
  intro c hc
  have hdigit := isDigit_of_mem_numeral hc
  simp only [Char.isDigit, Bool.and_eq_true, decide_eq_true_eq] at hdigit
  have hlow : 48 ≤ c.toNat := hdigit.1
  have hhigh : c.toNat ≤ 57 := hdigit.2
  exact isHidden_graphic (by omega) (by omega)

theorem visible_toDigits (n : Nat) : Visible (Nat.toDigits 16 n) := by
  intro c hc
  obtain ⟨k, hk, rfl⟩ := exists_digitChar hc
  have hall : ∀ i : Fin 16, isHidden (Nat.digitChar i) = false := by decide
  exact hall ⟨k, hk⟩

theorem visible_escape (c : Char) : Visible (escape c) := by
  rcases escape_cases c with ⟨letter, hl, he⟩ | he | ⟨-, -, hseen, he⟩
  · have hletter : isHidden letter = false := by
      unfold shortEscape? at hl
      split at hl <;> cases hl <;> decide
    rw [he]
    exact .cons (by decide) (.cons hletter (by decide))
  · rw [he]
    exact .cons (by decide) (.cons (by decide) (.cons (by decide)
      ((visible_toDigits _).append (by decide))))
  · rw [he]
    exact .cons hseen (by decide)

theorem visible_quotedChars (s : List Char) : Visible (quotedChars s) :=
  .cons (by decide) ((Visible.flatMap fun c _ => visible_escape c).append (by decide))

end Roster.Text
