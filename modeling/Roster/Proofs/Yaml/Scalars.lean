import Roster.Proofs.Json.Printer
import Roster.Yaml.Scalar

/-! Printed JSON scalars as YAML: a text with JSON escapes between double quotes stands for the same
text, and decimal digits stand for themselves. -/
namespace Roster.Yaml

/-! ### Marks -/

namespace Mark

theorem through_append (m : Mark) (v w : List Char) :
    m.through (v ++ w) = (m.through v).through w := by
  simp [through]

@[simp] theorem line_through (m : Mark) (w : List Char) : (m.through w).line = m.line := by
  induction w generalizing m with
  | nil => rfl
  | cons c w ih => exact ih (m.next c)

@[simp] theorem column_through (m : Mark) (w : List Char) :
    (m.through w).column = m.column + w.length := by
  induction w generalizing m with
  | nil => rfl
  | cons c w ih =>
    have h := ih (m.next c)
    simp only [next] at h
    simp only [through, List.foldl_cons, next, List.length_cons] at h ⊢
    omega

@[simp] theorem offset_through (m : Mark) (w : List Char) :
    (m.through w).offset = m.offset + Json.byteCount w := by
  induction w generalizing m with
  | nil => rfl
  | cons c w ih =>
    have h := ih (m.next c)
    simp only [next] at h
    simp only [through, List.foldl_cons, next, Json.byteCount_cons] at h ⊢
    omega

end Mark

/-! ### Texts -/

/-- A character that means in YAML what it means in JSON, be it as it is or by its JSON escape. The
controls from 7F on and the byte order mark have no JSON escape, and two more end a line. -/
def IsSafe (c : Char) : Prop :=
  c.toNat ≤ 0x7E ∨
    (0xA0 ≤ c.toNat ∧ c.toNat ≤ 0xD7FF ∧ c.toNat ≠ 0x2028 ∧ c.toNat ≠ 0x2029) ∨
    (0xE000 ≤ c.toNat ∧ c.toNat ≤ 0xFFFD ∧ c.toNat ≠ 0xFEFF) ∨ 0x10000 ≤ c.toNat

instance (c : Char) : Decidable (IsSafe c) := inferInstanceAs (Decidable (_ ∨ _))

theorem safe_of_all {w : List Char} (h : w.all (fun c => decide (IsSafe c)) = true) :
    ∀ c ∈ w, IsSafe c := by
  intro c hc
  exact of_decide_eq_true (List.all_eq_true.mp h c hc)

theorem IsSafe.isAllowed {c : Char} (h : IsSafe c) (hc : 0x20 ≤ c.toNat) : isAllowed c = true := by
  simp only [Yaml.isAllowed, Bool.or_eq_true, Bool.and_eq_true, decide_eq_true_eq, beq_iff_eq]
  unfold IsSafe at h
  omega

theorem IsSafe.not_isBreak {c : Char} (h : IsSafe c) (hc : 0x20 ≤ c.toNat) :
    isBreak c = false := by
  cases hb : isBreak c with
  | false => rfl
  | true =>
    simp only [isBreak, Bool.or_eq_true, beq_iff_eq] at hb
    rcases hb with (((rfl | rfl) | rfl) | rfl) | rfl <;> revert h hc <;> decide

theorem readHex_digits {w : List Char} {n : Nat} (h : Json.CodeUnit w n) (t : List Char) :
    readHex 0 4 (w ++ t) = some (n, t) := by
  cases h with
  | digits ha hb hc hd =>
    simp [readHex, Json.hexDigit_iff.mp ha, Json.hexDigit_iff.mp hb, Json.hexDigit_iff.mp hc,
      Json.hexDigit_iff.mp hd]

theorem unescape?_shortEscape {c letter : Char} (h : Json.shortEscape? c = some letter) :
    unescape? letter = some c := by
  unfold Json.shortEscape? at h
  split at h <;> cases h <;> rfl

theorem readEscape_letter {c letter : Char} (h : Json.shortEscape? c = some letter)
    (start mark : Mark) (t : List Char) :
    readEscape start mark (letter :: t) = .ok (c, mark.through ['\\', letter], t) := by
  simp [readEscape, unescape?_shortEscape h]

theorem readEscape_code {c : Char} {w : List Char} (hw : Json.CodeUnit w c.toNat)
    (start mark : Mark) (t : List Char) :
    readEscape start mark ('u' :: (w ++ t)) = .ok (c, mark.through ('\\' :: 'u' :: w), t) := by
  have hvalid : Nat.isValidChar c.toNat := c.valid
  have htake : (w ++ t).take 4 = w := List.take_left' hw.length
  have hthrough : (mark.through ['\\', 'u']).through w = mark.through ('\\' :: 'u' :: w) := rfl
  simp [readEscape, unescape?, codeLength?, readHex_digits hw, hvalid, htake, hthrough]

theorem readQuotedFrom_escape {b c : Char} {t more : List Char} {start mark next : Mark}
    (hb : isBreak b = false) (column : 0 < mark.column)
    (h : readEscape start mark (b :: t) = .ok (c, next, more)) (done : List Char) (gap : Gap) :
    readQuotedFrom .double start done gap mark ('\\' :: b :: t) =
      readQuotedFrom .double start (gap.join done [c]) .none next more := by
  have hcolumn : (mark.column == 0) = false := by
    rw [beq_eq_false_iff_ne]
    omega
  have hgap : (isBreak '\\' || isBlank '\\') = false := rfl
  have hquote : ¬ '\\' = Quote.double.char := by decide
  rw [readQuotedFrom.eq_def]
  simp only [hgap, hcolumn, Bool.false_and, Bool.false_eq_true, if_false, hquote, and_self, if_true]
  split
  · next heq =>
    rw [(List.cons.inj heq).1] at hb
    exact absurd hb (by decide)
  · next heq =>
    cases heq
    simp only [hb, Bool.false_eq_true, if_false]
    split
    · next he =>
      rw [h] at he
      cases he
    · next he =>
      rw [h] at he
      cases he
      rfl
  · next heq => cases heq

theorem readQuotedFrom_plain {c : Char} (hc : Json.IsPlain c) (hb : isBreak c = false)
    (hs : isBlank c = false) {mark : Mark} (column : 0 < mark.column) (start : Mark)
    (done : List Char) (gap : Gap) (t : List Char) :
    readQuotedFrom .double start done gap mark (c :: t) =
      readQuotedFrom .double start (gap.join done [c]) .none (mark.next c) t := by
  have hcolumn : (mark.column == 0) = false := by
    rw [beq_eq_false_iff_ne]
    omega
  rw [readQuotedFrom.eq_def]
  simp [hb, hs, hcolumn, Quote.char, hc.1, hc.2.1]

theorem readQuotedFrom_space (start mark : Mark) (done blanks t : List Char) :
    readQuotedFrom .double start done (.blanks blanks) mark (' ' :: t) =
      readQuotedFrom .double start done (.blanks (blanks ++ [' '])) (mark.next ' ') t := by
  rw [readQuotedFrom.eq_def]
  simp [isBlank, Gap.add, isHalfBreak, isBreak, Gap.addBlank, Mark.past]

theorem readQuotedFrom_close {mark : Mark} (column : 0 < mark.column) (start : Mark)
    (done blanks t : List Char) :
    readQuotedFrom .double start done (.blanks blanks) mark ('"' :: t) =
      .ok (done.reverse ++ blanks, ⟨t, mark.next '"'⟩) := by
  have hcolumn : (mark.column == 0) = false := by
    rw [beq_eq_false_iff_ne]
    omega
  rw [readQuotedFrom.eq_def]
  simp [isBlank, isBreak, hcolumn, Quote.char, Gap.join, Gap.folded]

theorem safe_escape {c : Char} (h : IsSafe c) : ∀ d ∈ Json.escape c, IsSafe d := by
  rcases Json.escape_cases c with ⟨letter, hl, he⟩ | ⟨w, -, hw, he⟩ | ⟨-, he⟩
  · rw [he]
    intro d hd
    rcases List.mem_cons.mp hd with rfl | hd
    · decide
    · rw [List.mem_singleton.mp hd]
      exact .inl (Json.shortEscape?_sound hl).graphic.2
  · rw [he]
    intro d hd
    rcases List.mem_cons.mp hd with rfl | hd
    · decide
    · rcases List.mem_cons.mp hd with rfl | hd
      · decide
      · exact .inl (hw.graphic d hd).2
  · rw [he]
    intro d hd
    rwa [List.mem_singleton.mp hd]

theorem safe_literal {s : List Char} (h : ∀ c ∈ s, IsSafe c) :
    ∀ d ∈ Json.literalChars s, IsSafe d := by
  have hquote : IsSafe '"' := by decide
  intro d hd
  rcases List.mem_cons.mp hd with rfl | hd
  · exact hquote
  · rcases List.mem_append.mp hd with hd | hd
    · obtain ⟨c, hc, hdc⟩ := List.mem_flatMap.mp hd
      exact safe_escape (h c hc) d hdc
    · rwa [List.mem_singleton.mp hd]

/-- One character is read whichever way it is printed. A space waits in the gap, since a line might
end behind it; all others are done at once. -/
theorem readQuotedFrom_printed {c : Char} (hc : IsSafe c) {mark : Mark} (column : 0 < mark.column)
    (start : Mark) (done blanks t : List Char) :
    ∃ done' blanks', done'.reverse ++ blanks' = done.reverse ++ (blanks ++ [c]) ∧
      readQuotedFrom .double start done (.blanks blanks) mark (Json.escape c ++ t) =
        readQuotedFrom .double start done' (.blanks blanks') (mark.through (Json.escape c)) t := by
  have hjoin : (Gap.join done (.blanks blanks) [c]).reverse ++ [] =
      done.reverse ++ (blanks ++ [c]) := by
    simp [Gap.join, Gap.folded]
  rcases Json.escape_cases c with ⟨letter, hl, he⟩ | ⟨w, -, hw, he⟩ | ⟨hplain, he⟩
  · rw [he]
    have hb : isBreak letter = false := by
      have := Json.shortEscape?_sound hl
      cases this <;> rfl
    have hr := readEscape_letter hl start mark t
    exact ⟨_, [], hjoin, readQuotedFrom_escape hb column hr done (.blanks blanks)⟩
  · rw [he]
    have hr := readEscape_code hw start mark t
    exact ⟨_, [], hjoin, readQuotedFrom_escape rfl column hr done (.blanks blanks)⟩
  · rw [he]
    by_cases hs : c = ' '
    · subst hs
      exact ⟨done, blanks ++ [' '], rfl, readQuotedFrom_space start mark done blanks t⟩
    · have hb := hc.not_isBreak hplain.2.2
      have hblank : isBlank c = false := by
        have htab : c ≠ '\t' := by
          rintro rfl
          exact absurd hplain.2.2 (by decide)
        simp [isBlank, hs, htab]
      exact ⟨_, [], hjoin,
        readQuotedFrom_plain hplain hb hblank column start done (.blanks blanks) t⟩

theorem readQuotedFrom_literal {s : List Char} (hs : ∀ c ∈ s, IsSafe c) {mark : Mark}
    (column : 0 < mark.column) (start : Mark) (done blanks t : List Char) :
    readQuotedFrom .double start done (.blanks blanks) mark (s.flatMap Json.escape ++ '"' :: t) =
      .ok (done.reverse ++ (blanks ++ s),
        ⟨t, mark.through (s.flatMap Json.escape ++ ['"'])⟩) := by
  induction s generalizing done blanks mark with
  | nil =>
    rw [List.append_nil]
    exact readQuotedFrom_close column start done blanks t
  | cons c s ih =>
    have hc := hs c List.mem_cons_self
    have hrest : ∀ d ∈ s, IsSafe d := fun d hd => hs d (List.mem_cons_of_mem _ hd)
    obtain ⟨done', blanks', hdone, hread⟩ := readQuotedFrom_printed hc column start done blanks
      (s.flatMap Json.escape ++ '"' :: t)
    have hcolumn : 0 < (mark.through (Json.escape c)).column := by
      rw [Mark.column_through]
      omega
    have hvalue : done'.reverse ++ (blanks' ++ s) = done.reverse ++ (blanks ++ c :: s) := by
      rw [← List.append_assoc, hdone]
      simp
    rw [List.flatMap_cons, List.append_assoc, hread, ih hrest hcolumn, hvalue,
      List.append_assoc, ← Mark.through_append]

/-- A printed text is read up to its closing quote, as the text it was printed for. -/
theorem readQuoted_literal {s : List Char} (hs : ∀ c ∈ s, IsSafe c) (mark : Mark) (t : List Char) :
    readQuoted .double ⟨Json.literalChars s ++ t, mark⟩ =
      .ok (s, ⟨t, mark.through (Json.literalChars s)⟩) := by
  have hcolumn : 0 < (mark.next '"').column := Nat.succ_pos _
  have h := readQuotedFrom_literal hs hcolumn mark [] [] t
  simp only [readQuoted, Json.literalChars, List.cons_append, List.append_assoc,
    List.drop_succ_cons, List.drop_zero, List.nil_append]
  exact h

/-! ### Names and numbers -/

def isNameChar (c : Char) : Bool := c.isAlphanum || c == '_'

theorem isNameChar_of_isDigit {c : Char} (h : c.isDigit = true) : isNameChar c = true := by
  simp [isNameChar, Char.isAlphanum, h]

theorem ne_of_isNameChar {c d : Char} (h : isNameChar c = true) (hd : isNameChar d = false) :
    c ≠ d := by
  rintro rfl
  rw [h] at hd
  cases hd

theorem beq_of_isNameChar {c d : Char} (h : isNameChar c = true) (hd : isNameChar d = false) :
    (c == d) = false :=
  beq_false_of_ne (ne_of_isNameChar h hd)

theorem ne_of_isDigit {c d : Char} (h : c.isDigit = true) (hd : d.isDigit = false) : c ≠ d := by
  rintro rfl
  rw [h] at hd
  cases hd

theorem toNat_of_isDigit {c : Char} (h : c.isDigit = true) : 0x30 ≤ c.toNat ∧ c.toNat ≤ 0x39 := by
  simp only [Char.isDigit, Bool.and_eq_true, decide_eq_true_eq] at h
  have hlow : '0'.toNat ≤ c.toNat := h.1
  have hhigh : c.toNat ≤ '9'.toNat := h.2
  exact ⟨hlow, hhigh⟩

theorem toNat_of_isNameChar {c : Char} (h : isNameChar c = true) :
    0x30 ≤ c.toNat ∧ c.toNat ≤ 0x7A := by
  have range (low high : Char) (hc : low.val ≤ c.val ∧ c.val ≤ high.val)
      (hlow : 0x30 ≤ low.toNat) (hhigh : high.toNat ≤ 0x7A) :
      0x30 ≤ c.toNat ∧ c.toNat ≤ 0x7A :=
    ⟨Nat.le_trans hlow hc.1, Nat.le_trans hc.2 hhigh⟩
  have hname : c.isAlphanum = true ∨ c = '_' := by
    simpa [isNameChar] using h
  rcases hname with hname | rfl
  · rcases (Bool.or_eq_true _ _).mp hname with hletter | hdigit
    · rcases (Bool.or_eq_true _ _).mp hletter with hupper | hlower
      · have hc : c.val ≥ 'A'.val ∧ c.val ≤ 'Z'.val := of_decide_eq_true hupper
        exact range 'A' 'Z' hc (by decide) (by decide)
      · obtain ⟨hge, hle⟩ := (Bool.and_eq_true _ _).mp hlower
        exact range 'a' 'z' ⟨of_decide_eq_true hge, of_decide_eq_true hle⟩ (by decide) (by decide)
    · have hdigits := toNat_of_isDigit hdigit
      omega
  · decide

theorem safe_of_isNameChar {c : Char} (h : isNameChar c = true) : IsSafe c := by
  have hhigh := (toNat_of_isNameChar h).2
  exact .inl (by omega)

theorem not_isBreak_of_isNameChar {c : Char} (h : isNameChar c = true) : isBreak c = false := by
  have hlow := (toNat_of_isNameChar h).1
  exact (safe_of_isNameChar h).not_isBreak (by omega)

theorem readPlainFrom_name {w : List Char} (hw : ∀ c ∈ w, isNameChar c = true) (s : Setting)
    (done : List Char) (mark : Mark) (t : List Char) :
    readPlainFrom s done .none mark (w ++ t) =
      readPlainFrom s (w.reverse ++ done) .none (mark.through w) t := by
  induction w generalizing done mark with
  | nil => rfl
  | cons c w ih =>
    have hc : isNameChar c = true := hw c List.mem_cons_self
    have hrest : ∀ d ∈ w, isNameChar d = true := fun d hd => hw d (List.mem_cons_of_mem _ hd)
    have hbreak := not_isBreak_of_isNameChar hc
    have hblank : isBlank c = false := by simp [isBlank, beq_of_isNameChar hc, isNameChar]
    have hcolon : (c == ':') = false := beq_of_isNameChar hc rfl
    have hindicator : isFlowIndicator c = false := by
      simp [isFlowIndicator, beq_of_isNameChar hc, isNameChar]
    have hreturn : c ≠ '\r' := ne_of_isNameChar hc rfl
    have hpast (rest : List Char) : mark.past c rest = mark.next c := by
      simp [Mark.past, hbreak, isHalfBreak, hreturn]
    rw [List.cons_append, readPlainFrom]
    simp [hbreak, hblank, hcolon, Setting.endsBefore, Gap.isNone, Setting.endsAt, hindicator, hpast,
      ih hrest, Mark.through]

theorem readPlain_name {w : List Char} (hw : ∀ c ∈ w, isNameChar c = true) (indent : Int)
    (mark : Mark) (t : List Char) :
    readPlain false indent ⟨w ++ ':' :: ' ' :: t, mark⟩ =
      .ok (w, false, ⟨':' :: ' ' :: t, mark.through w⟩) := by
  have hname := readPlainFrom_name hw ⟨false, indent, mark⟩ [] mark (':' :: ' ' :: t)
  have hend : readPlainFrom ⟨false, indent, mark⟩ (w.reverse ++ []) .none (mark.through w)
      (':' :: ' ' :: t) = .ok (w, false, ⟨':' :: ' ' :: t, mark.through w⟩) := by
    simp [readPlainFrom, isBreak, isBlank, Setting.endsBefore, Gap.isNone, Setting.endsAt, atBlank,
      Gap.none, Gap.hasBreak]
  simp only [readPlain]
  rw [hname, hend]

theorem isNameChar_of_allDigits {w : List Char} (hw : Json.AllDigits w) :
    ∀ c ∈ w, isNameChar c = true :=
  fun c hc => isNameChar_of_isDigit (hw c hc)

theorem readPlain_digits {w : List Char} (hw : Json.AllDigits w) (indent : Int) (mark : Mark)
    {c : Char} (hc : c = ',' ∨ c = '\x7d') (t : List Char) :
    readPlain true indent ⟨w ++ c :: t, mark⟩ = .ok (w, false, ⟨c :: t, mark.through w⟩) := by
  have hdigits :=
    readPlainFrom_name (isNameChar_of_allDigits hw) ⟨true, indent, mark⟩ [] mark (c :: t)
  have hend : readPlainFrom ⟨true, indent, mark⟩ (w.reverse ++ []) .none (mark.through w) (c :: t) =
      .ok (w, false, ⟨c :: t, mark.through w⟩) := by
    rcases hc with rfl | rfl <;>
      simp [readPlainFrom, isBreak, isBlank, Setting.endsBefore, Gap.isNone, Setting.endsAt,
        isFlowIndicator, Gap.none, Gap.hasBreak]
  simp only [readPlain]
  rw [hdigits, hend]

theorem hexValue?_of_isDigit {c : Char} (h : c.isDigit = true) :
    Text.hexValue? c = some (c.toNat - '0'.toNat) ∧ c.toNat - '0'.toNat < 10 := by
  obtain ⟨hlow, hhigh⟩ := toNat_of_isDigit h
  have hzero : '0'.toNat = 48 := rfl
  have hrange : '0' ≤ c ∧ c ≤ '9' := ⟨hlow, hhigh⟩
  exact ⟨by simp [Text.hexValue?, hrange], by omega⟩

theorem digits?_of_allDigits {w : List Char} (hw : Json.AllDigits w) (hne : w ≠ []) :
    digits? 10 w = some (Nat.ofDigitChars 10 w 0) := by
  have hfold (n : Nat) : w.foldl (fun n? c => do
      let n ← n?
      let digit ← Text.hexValue? c
      if digit < 10 then some (n * 10 + digit) else none) (some n) =
        some (Nat.ofDigitChars 10 w n) := by
    clear hne
    induction w generalizing n with
    | nil => simp
    | cons c w ih =>
      obtain ⟨hc, hlt⟩ := hexValue?_of_isDigit hw.head
      have hstep := ih hw.tail (n * 10 + (c.toNat - '0'.toNat))
      rw [List.foldl_cons, Nat.ofDigitChars_cons, Nat.mul_comm 10 n]
      have hten : c.toNat - 48 < 10 := hlt
      simpa [hc, hten] using hstep
  rw [digits?, if_neg hne]
  exact hfold 0

theorem stripPlus_of_allDigits {w : List Char} (hw : Json.AllDigits w) : stripPlus w = w := by
  unfold stripPlus
  split
  · exact absurd hw.head (by decide)
  · rfl

theorem based?_of_allDigits {w : List Char} (hw : Json.AllDigits w) : (based? w).join = none := by
  unfold based?
  split
  · next letter rest =>
    have hletter : letter.isDigit = true := hw.tail.head
    have hbase : baseOf? letter = none := by
      unfold baseOf?
      split
      · exact absurd hletter (by decide)
      · exact absurd hletter (by decide)
      · exact absurd hletter (by decide)
      · rfl
    rw [hbase]
    rfl
  · rfl

theorem not_hasLeadingZero_of_wholePart {w : List Char} (h : Json.WholePart w) :
    hasLeadingZero w = false := by
  cases h with
  | zero => rfl
  | positive hdigit hzero _ =>
    -- The first digit is neither a sign nor a zero.
    unfold hasLeadingZero
    split
    · next heq => exact absurd (List.cons.inj heq).1 (ne_of_isDigit hdigit rfl)
    · next heq => exact absurd (List.cons.inj heq).1 (ne_of_isDigit hdigit rfl)
    · dsimp only
      split
      · next heq => exact absurd (List.cons.inj heq).1 hzero
      · rfl

/-- A whole number as JSON writes it is one in YAML too; no letter or leading zero makes it anything
else. -/
theorem unsigned?_of_wholeNumber {w : List Char} {n : Nat} (h : Json.WholeNumber w n)
    (limit : Nat) : unsigned? limit w = if n < limit then some n else none := by
  have hdigits := h.form.allDigits
  have hplus := stripPlus_of_allDigits hdigits
  have hbased := based?_of_allDigits hdigits
  have hzero := not_hasLeadingZero_of_wholePart h.form
  have hvalue : digits? 10 w = some n := by
    rw [digits?_of_allDigits hdigits h.form.ne_nil, h.value]
  have hbelow : below? limit (some n) = if n < limit then some n else none := by
    simp [below?, Option.filter]
  simp only [unsigned?, hplus, hbased, hzero, hvalue, hbelow]
  rfl

theorem wordNumber?_natural (n : Nat) :
    wordNumber? (Text.numeral n).toList .plain none =
      if n < wordLimit then some (UInt64.ofNat n) else none := by
  have h := unsigned?_of_wholeNumber (Json.wholeNumber_numeral n) wordLimit
  have hplain : mayBeInteger .plain none = true := rfl
  rw [wordNumber?, if_pos hplain, h]
  split <;> rfl

theorem wordNumber?_numeral (n : UInt64) :
    wordNumber? (Text.numeral n.toNat).toList .plain none = some n := by
  have fits : n.toNat < wordLimit := n.toNat_lt
  rw [wordNumber?_natural, if_pos fits, UInt64.ofNat_toNat]

end Roster.Yaml
