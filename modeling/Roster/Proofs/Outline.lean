import Roster.Outline
import Roster.Proofs.Text

/-! Outlines can be taken back to the values that they show, in both styles. Each part of an outline
shows where it ends, whatever the texts in it look like; moving a part further in does not change
that. An outline on one line has nothing in it that cannot be seen. -/
namespace Roster

open Text (PrefixFree Visible)

namespace Outline

/-! ### Moving further in -/

theorem prefix_of_indent {s t : List Char} (h : indent s <+: indent t) : s <+: t := by
  induction s generalizing t with
  | nil => exact List.nil_prefix
  | cons c s ih =>
    cases t with
    | nil =>
      have hnil := List.prefix_nil.mp h
      by_cases hc : c = '\n' <;> simp [indent, hc] at hnil
    | cons d t =>
      have hcons (c : Char) (s : List Char) : indent (c :: s) =
          c :: ((if c = '\n' then [' ', ' ', ' ', ' '] else []) ++ indent s) := by
        by_cases hc : c = '\n' <;> simp [indent, hc]
      rw [hcons, hcons, List.cons_prefix_cons] at h
      obtain ⟨rfl, h⟩ := h
      exact List.cons_prefix_cons.mpr ⟨rfl, ih ((List.prefix_append_right_inj _).mp h)⟩

namespace Style

def place : Style → List Char → List Char
  | line, text => text
  | block, text => indent text

def gap : Style → List Char
  | line => [' ']
  | block => ['\n', ' ', ' ', ' ', ' ']

def others (style : Style) (parts : List (List Char)) : List Char :=
  parts.flatMap fun part => ',' :: (style.gap ++ style.place part)

theorem place_of_not_mem {text : List Char} (h : '\n' ∉ text) (style : Style) :
    style.place text = text := by
  cases style with
  | line => rfl
  | block => exact indent_of_not_mem h

theorem place_append (style : Style) (s t : List Char) :
    style.place (s ++ t) = style.place s ++ style.place t := by
  cases style with
  | line => rfl
  | block => exact indent_append s t

theorem others_nil (style : Style) : style.others [] = [] := rfl

theorem others_cons (style : Style) (part : List Char) (parts : List (List Char)) :
    style.others (part :: parts) =
      ',' :: (style.gap ++ (style.place part ++ style.others parts)) := by
  simp [others]

end Style

variable {α : Type} {write : α → List Char}

theorem prefixFree_place (h : PrefixFree write) (style : Style) :
    PrefixFree fun x => style.place (write x) := by
  intro x y hp
  cases style with
  | line => exact h hp
  | block => exact h (prefix_of_indent hp)

/-! ### Parts in a row -/

theorem intercalate_cons (separator part : List Char) (parts : List (List Char)) :
    separator.intercalate (part :: parts) = part ++ parts.flatMap (separator ++ ·) := by
  induction parts generalizing part with
  | nil => simp
  | cons next parts ih =>
    rw [List.intercalate_cons_cons, ih, List.flatMap_cons, List.append_assoc, List.append_assoc]

theorem flatMap_entry (part : List Char) (parts : List (List Char)) :
    (part :: parts).flatMap entry =
      "    ".toList ++ (indent part ++ (Style.block.others parts ++ ",\n".toList)) := by
  induction parts generalizing part with
  | nil => simp [entry, Style.others]
  | cons next parts ih =>
    rw [List.flatMap_cons, ih]
    simp [entry, Style.others, Style.gap, Style.place]

/-- A record in either style: the first part, the others each behind a comma, and the end. Only the
first part and the others depend on what the record holds. -/
theorem exists_record_eq (style : Style) (name : String) : ∃ start stop, ∀ part parts,
    record style name (part :: parts) =
      start ++ (style.place part ++ (style.others parts ++ stop)) := by
  cases style with
  | line =>
    refine ⟨name.toList ++ " \x7b ".toList, " \x7d".toList, ?_⟩
    intro part parts
    rw [record, intercalate_cons]
    simp [Style.others, Style.gap, Style.place]
  | block =>
    refine ⟨name.toList ++ " \x7b\n    ".toList, ",\n\x7d".toList, ?_⟩
    intro part parts
    rw [record, flatMap_entry]
    simp [Style.place]

def listEnd : Style → List Char
  | .line => [']']
  | .block => [',', '\n', ']']

def listStart : Style → List Char
  | .line => []
  | .block => ['\n', ' ', ' ', ' ', ' ']

theorem list_cons (style : Style) (part : List Char) (parts : List (List Char)) :
    list style (part :: parts) =
      '[' :: (listStart style ++ (style.place part ++ (style.others parts ++ listEnd style))) := by
  cases style with
  | line =>
    simp only [list, intercalate_cons]
    simp [listStart, listEnd, Style.others, Style.gap, Style.place]
  | block =>
    simp only [list, flatMap_entry]
    simp [listStart, listEnd, Style.place]

theorem prefixFree_others (h : PrefixFree write) (style : Style) :
    PrefixFree fun xs : List α => style.others (xs.map write) ++ listEnd style := by
  have hitem : PrefixFree fun x : Option α => x.elim (listEnd style)
      fun x => ',' :: (style.gap ++ style.place (write x)) := by
    rintro (_ | x) (_ | y) hp
    · rfl
    · cases style <;> simp [listEnd, Style.gap] at hp
    · cases style <;> simp [listEnd, Style.gap] at hp
    · have hplaced := (List.prefix_append_right_inj _).mp (List.cons_prefix_cons.mp hp).2
      rw [prefixFree_place h style hplaced]
  have hrow := hitem.row
  simpa [Style.others, List.flatMap_map] using hrow

theorem list_cons_ne {part : List Char} (h : ∃ c t, part = c :: t ∧ c ≠ ']') (style : Style)
    (parts : List (List Char)) (s t : List Char) :
    list style (part :: parts) ++ s ≠ '[' :: ']' :: t := by
  obtain ⟨c, u, rfl, hc⟩ := h
  intro he
  rw [list_cons, List.cons_append, List.cons.injEq] at he
  cases style with
  | line => exact hc (List.cons.inj he.2).1
  | block => cases he.2

theorem prefixFree_list (h : PrefixFree write) (head : ∀ x, ∃ c t, write x = c :: t ∧ c ≠ ']')
    (style : Style) : PrefixFree fun xs : List α => list style (xs.map write) := by
  have hempty : list style [] = ['[', ']'] := by
    cases style <;> rfl
  rintro (_ | ⟨x, xs⟩) (_ | ⟨y, ys⟩) ⟨rest, he⟩
  · rfl
  · simp only [List.map_nil, List.map_cons, hempty] at he
    exact absurd ((List.append_nil _).trans he.symm) (list_cons_ne (head y) style _ _ _)
  · simp only [List.map_nil, List.map_cons, hempty] at he
    exact absurd he (list_cons_ne (head x) style _ _ _)
  · simp only [List.map_cons, list_cons, List.cons_append, List.append_assoc] at he
    have hparts := List.append_cancel_left (List.cons.inj he).2
    obtain ⟨hfirst, hothers⟩ := (prefixFree_place h style).append_inj hparts
    rw [← List.append_assoc] at hothers
    rw [hfirst, prefixFree_others h style ⟨rest, hothers⟩]

/-! ### Fields -/

theorem place_field (name : String) (h : '\n' ∉ name.toList) (style : Style)
    (value : List Char) : style.place (field name value) = field name (style.place value) := by
  have hfront : '\n' ∉ name.toList ++ ": ".toList := by
    simp [h]
  rw [field, Style.place_append, Style.place_of_not_mem hfront, field]

theorem field_cancel {name : String} {v w s t : List Char}
    (h : field name v ++ s = field name w ++ t) : v ++ s = w ++ t := by
  simp only [field, List.append_assoc] at h
  exact List.append_cancel_left (List.append_cancel_left h)

theorem place_number (style : Style) (n : Nat) : style.place (number n) = number n := by
  apply Style.place_of_not_mem
  intro h
  cases Text.isDigit_of_mem_numeral h

theorem place_text (style : Style) (s : String) : style.place (text s) = text s := by
  apply Style.place_of_not_mem
  intro h
  exact (Text.visible_quotedChars s.toList).not_isControl '\n' h (.inl (by decide))

theorem prefixFree_text : PrefixFree text := by
  intro s t h
  exact String.toList_inj.mp (Text.prefixFree_quotedChars h)

/-- Where a number ends is seen by the comma behind it, which is no digit. -/
theorem number_inj {m n : Nat} {s t : List Char}
    (h : number m ++ ',' :: s = number n ++ ',' :: t) : m = n ∧ s = t := by
  have hclosed : PrefixFree fun n => number n ++ [','] := by
    apply PrefixFree.closed
    · intro m n h
      exact Text.numeral_injective (String.toList_inj.mp h)
    · intro n h
      cases Text.isDigit_of_mem_numeral h
  exact hclosed.append_inj (by simpa using h)

end Outline

open Outline

theorem User.prefixFree_outline (style : Style) : PrefixFree (User.outline style) := by
  obtain ⟨start, stop, hrecord⟩ := exists_record_eq style "User"
  rintro ⟨id, name, email⟩ ⟨id', name', email'⟩ ⟨rest, h⟩
  have hid (value : List Char) := place_field "id" (by decide) style value
  have hname (value : List Char) := place_field "name" (by decide) style value
  have hemail (value : List Char) := place_field "email" (by decide) style value
  simp only [User.outline, hrecord, Style.others_cons, Style.others_nil, hid, hname, hemail,
    place_number, place_text, List.append_assoc, List.cons_append, List.nil_append] at h
  obtain ⟨hsame, hbehind⟩ := number_inj (field_cancel (List.append_cancel_left h))
  obtain ⟨rfl, hlast⟩ := prefixFree_text.append_inj (field_cancel (List.append_cancel_left hbehind))
  rw [List.cons.injEq] at hlast
  obtain ⟨rfl, -⟩ := prefixFree_text.append_inj (field_cancel (List.append_cancel_left hlast.2))
  rw [UInt64.toNat_inj.mp hsame]

theorem User.head_outline (style : Style) (u : User) :
    ∃ c t, u.outline style = c :: t ∧ c ≠ ']' := by
  cases style <;> exact ⟨'U', _, rfl, by decide⟩

theorem Store.prefixFree_outline (style : Style) : PrefixFree (Store.outline style) := by
  obtain ⟨start, stop, hrecord⟩ := exists_record_eq style "UserStore"
  have husers := prefixFree_place
    (prefixFree_list (User.prefixFree_outline style) (User.head_outline style) style) style
  rintro ⟨dbUrl, users⟩ ⟨dbUrl', users'⟩ ⟨rest, h⟩
  have hurl (value : List Char) := place_field "db_url" (by decide) style value
  have hlist (value : List Char) := place_field "users" (by decide) style value
  simp only [Store.outline, hrecord, Style.others_cons, Style.others_nil, hurl, hlist, place_text,
    List.append_assoc, List.cons_append, List.nil_append] at h
  obtain ⟨rfl, hlast⟩ := prefixFree_text.append_inj (field_cancel (List.append_cancel_left h))
  rw [List.cons.injEq] at hlast
  obtain ⟨rfl, -⟩ := husers.append_inj (field_cancel (List.append_cancel_left hlast.2))
  rfl

/-! ### What can be seen -/

namespace Outline

theorem visible_intercalate {separator : List Char} {parts : List (List Char)}
    (hs : Visible separator) (h : ∀ part ∈ parts, Visible part) :
    Visible (separator.intercalate parts) := by
  cases parts with
  | nil => simp [Visible]
  | cons part parts =>
    rw [intercalate_cons]
    apply (h part List.mem_cons_self).append
    exact Visible.flatMap fun next hnext => hs.append (h next (List.mem_cons_of_mem _ hnext))

theorem visible_field {name : String} {value : List Char} (hn : Visible name.toList)
    (hv : Visible value) : Visible (field name value) :=
  (hn.append (by decide)).append hv

theorem visible_record {name : String} {fields : List (List Char)} (hn : Visible name.toList)
    (h : ∀ part ∈ fields, Visible part) : Visible (record .line name fields) :=
  ((hn.append (by decide)).append (visible_intercalate (by decide) h)).append (by decide)

theorem visible_list {elements : List (List Char)} (h : ∀ part ∈ elements, Visible part) :
    Visible (list .line elements) := by
  cases elements with
  | nil => decide
  | cons part parts =>
    exact .cons (by decide) ((visible_intercalate (by decide) h).append (by decide))

end Outline

theorem User.visible_outline (u : User) : Visible (u.outline .line) := by
  apply visible_record (by decide)
  intro part hpart
  simp only [List.mem_cons, List.not_mem_nil, or_false] at hpart
  rcases hpart with rfl | rfl | rfl
  · exact visible_field (by decide) (Text.visible_numeral _)
  · exact visible_field (by decide) (Text.visible_quotedChars _)
  · exact visible_field (by decide) (Text.visible_quotedChars _)

theorem Store.visible_outline (s : Store) : Visible (s.outline .line) := by
  have hlist : Visible (list .line (s.users.map (User.outline .line))) := by
    apply visible_list
    intro part hpart
    obtain ⟨u, -, rfl⟩ := List.mem_map.mp hpart
    exact u.visible_outline
  apply visible_record (by decide)
  intro part hpart
  simp only [List.mem_cons, List.not_mem_nil, or_false] at hpart
  rcases hpart with rfl | rfl
  · exact visible_field (by decide) (Text.visible_quotedChars _)
  · exact visible_field (by decide) hlist

/-- In either style the outline of a store tells the store, and where the outline ends, whatever
follows. The one on a line has no control character in it. -/
theorem Store.outline_unambiguous (a b : Store) :
    (∀ style s t, a.outline style ++ s = b.outline style ++ t → a = b ∧ s = t) ∧
      ∀ c ∈ a.outline .line, ¬ Text.IsControl c := by
  constructor
  · intro style s t h
    exact (Store.prefixFree_outline style).append_inj h
  · exact a.visible_outline.not_isControl

end Roster
