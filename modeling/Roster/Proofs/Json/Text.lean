import Roster.Json.Skip

/-! The language of JSON, as sets of texts and apart from every reader, and the readers of blanks
and of texts between quotes, which accept exactly their languages. -/
namespace Roster.Json

/-! ## The grammar

A text between quotes is related to what it stands for; a whole number to its value. Values of which
only the form matters form a language of their own, in which neither the size of numbers nor the
pairing of surrogate escapes is looked at. -/

def Blanks (w : List Char) : Prop := ∀ c ∈ w, c = ' ' ∨ c = '\t' ∨ c = '\n' ∨ c = '\r'

theorem isBlank_iff {c : Char} :
    isBlank c = true ↔ c = ' ' ∨ c = '\t' ∨ c = '\n' ∨ c = '\r' := by
  simp [isBlank, or_assoc]

theorem blanks_nil : Blanks [] := by
  intro c hc
  cases hc

theorem Blanks.append {v w : List Char} (hv : Blanks v) (hw : Blanks w) : Blanks (v ++ w) := by
  intro c hc
  rcases List.mem_append.mp hc with h | h
  · exact hv c h
  · exact hw c h

/-! ### Texts between quotes -/

inductive HexDigit : Char → Nat → Prop where
  | decimal {c} : '0' ≤ c → c ≤ '9' → HexDigit c (c.toNat - '0'.toNat)
  | lower {c} : 'a' ≤ c → c ≤ 'f' → HexDigit c (c.toNat - 'a'.toNat + 10)
  | upper {c} : 'A' ≤ c → c ≤ 'F' → HexDigit c (c.toNat - 'A'.toNat + 10)

inductive CodeUnit : List Char → Nat → Prop where
  | digits {a b c d i j k l} : HexDigit a i → HexDigit b j → HexDigit c k → HexDigit d l →
      CodeUnit [a, b, c, d] (((i * 16 + j) * 16 + k) * 16 + l)

inductive LetterEscape : Char → Char → Prop where
  | quote : LetterEscape '"' '"'
  | backslash : LetterEscape '\\' '\\'
  | slash : LetterEscape '/' '/'
  | backspace : LetterEscape 'b' '\x08'
  | formFeed : LetterEscape 'f' '\x0c'
  | lineFeed : LetterEscape 'n' '\n'
  | carriageReturn : LetterEscape 'r' '\r'
  | tab : LetterEscape 't' '\t'

def IsPlain (c : Char) : Prop := c ≠ '"' ∧ c ≠ '\\' ∧ 0x20 ≤ c.toNat

/-- One character and a way to write it. Two surrogate escapes count only as a pair. -/
inductive Spelled : List Char → Char → Prop where
  | plain {c} : IsPlain c → Spelled [c] c
  | letter {l c} : LetterEscape l c → Spelled ['\\', l] c
  | unit {w n} : CodeUnit w n → n < 0xD800 ∨ 0xDFFF < n →
      Spelled ('\\' :: 'u' :: w) (Char.ofNat n)
  | pair {v w high low} : CodeUnit v high → 0xD800 ≤ high → high ≤ 0xDBFF →
      CodeUnit w low → 0xDC00 ≤ low → low ≤ 0xDFFF →
      Spelled ('\\' :: 'u' :: (v ++ '\\' :: 'u' :: w))
        (Char.ofNat (0x10000 + (high - 0xD800) * 0x400 + (low - 0xDC00)))

/-- What stands between two quotes, and the text that it means. -/
inductive Content : List Char → List Char → Prop where
  | nil : Content [] []
  | cons {v w c s} : Spelled v c → Content w s → Content (v ++ w) (c :: s)

inductive TextToken : List Char → List Char → Prop where
  | quoted {w s} : Content w s → TextToken ('"' :: (w ++ ['"'])) s

/-- What may stand between two quotes if nobody asks what it means. -/
inductive LooseContent : List Char → Prop where
  | nil : LooseContent []
  | plain {c w} : IsPlain c → LooseContent w → LooseContent (c :: w)
  | letter {l c w} : LetterEscape l c → LooseContent w → LooseContent ('\\' :: l :: w)
  | unit {v n w} : CodeUnit v n → LooseContent w → LooseContent ('\\' :: 'u' :: (v ++ w))

/-! ### Numbers -/

def AllDigits (w : List Char) : Prop := ∀ c ∈ w, c.isDigit = true

inductive WholePart : List Char → Prop where
  | zero : WholePart ['0']
  | positive {c w} : c.isDigit = true → c ≠ '0' → AllDigits w → WholePart (c :: w)

structure WholeNumber (w : List Char) (n : Nat) : Prop where
  form : WholePart w
  value : Nat.ofDigitChars 10 w 0 = n

inductive Fraction : List Char → Prop where
  | absent : Fraction []
  | present {w} : w ≠ [] → AllDigits w → Fraction ('.' :: w)

inductive Exponent : List Char → Prop where
  | absent : Exponent []
  | present {e sign w} : e = 'e' ∨ e = 'E' → sign = [] ∨ sign = ['+'] ∨ sign = ['-'] →
      w ≠ [] → AllDigits w → Exponent (e :: (sign ++ w))

inductive NumberToken : List Char → Prop where
  | number {sign whole fraction exponent} : sign = [] ∨ sign = ['-'] → WholePart whole →
      Fraction fraction → Exponent exponent →
      NumberToken (sign ++ (whole ++ (fraction ++ exponent)))

/-! ### Values -/

def Frame.opening : Frame → Char
  | list => '['
  | object => '{'

inductive Lead : Frame → List Char → Prop where
  | list : Lead .list []
  | object {a key b} : Blanks a → LooseContent key → Blanks b →
      Lead .object (a ++ '"' :: (key ++ '"' :: (b ++ [':'])))

inductive Separator : Bool → List Char → Prop where
  | first {b} : Blanks b → Separator true b
  | comma {a b} : Blanks a → Blanks b → Separator false (a ++ ',' :: b)

theorem Separator.append {first : Bool} {a b : List Char} (ha : Separator first a)
    (hb : Blanks b) : Separator first (a ++ b) := by
  cases ha with
  | first ha => exact .first (ha.append hb)
  | comma ha hc => simpa using Separator.comma ha (hc.append hb)

/-- The parts of a value. The rest of a list or an object is what follows its opening bracket, or
what follows one of its values. -/
inductive Part where
  | value
  | rest (first : Bool) (frame : Frame)

inductive Derives : Part → List Char → Prop where
  | nullWord : Derives .value ['n', 'u', 'l', 'l']
  | trueWord : Derives .value ['t', 'r', 'u', 'e']
  | falseWord : Derives .value ['f', 'a', 'l', 's', 'e']
  | text {w} : LooseContent w → Derives .value ('"' :: (w ++ ['"']))
  | number {w} : NumberToken w → Derives .value w
  | group {frame w} : Derives (.rest true frame) w → Derives .value (frame.opening :: w)
  | close {first frame b} : Blanks b → Derives (.rest first frame) (b ++ [frame.closing])
  | next {first frame a lead b v w} : Separator first a → Lead frame lead → Blanks b →
      Derives .value v → Derives (.rest false frame) w →
      Derives (.rest first frame) (a ++ (lead ++ (b ++ (v ++ w))))

abbrev IsValue : List Char → Prop := Derives .value

inductive Items {β : Type} (frame : Frame) (Item : β → List Char → Prop) :
    Bool → List β → List Char → Prop where
  | close {first b} : Blanks b → Items frame Item first [] (b ++ [frame.closing])
  | next {first a x xs w t} : Separator first a → Item x w → Items frame Item false xs t →
      Items frame Item first (x :: xs) (a ++ (w ++ t))

/-! ## Blanks and texts

What the readers consume is in the language, and everything in the language is consumed whole. -/

theorem exists_blanks (t : List Char) : ∃ b, Blanks b ∧ t = b ++ skipBlanks t := by
  refine ⟨t.takeWhile isBlank, ?_, List.takeWhile_append_dropWhile.symm⟩
  intro c hc
  exact isBlank_iff.mp (List.all_eq_true.mp List.all_takeWhile c hc)

theorem skipBlanks_append {b : List Char} (hb : Blanks b) (t : List Char) :
    skipBlanks (b ++ t) = skipBlanks t := by
  induction b with
  | nil => rfl
  | cons c b ih =>
    have hc : isBlank c = true := isBlank_iff.mpr (hb c List.mem_cons_self)
    have hr : Blanks b := fun d hd => hb d (List.mem_cons_of_mem _ hd)
    simpa [skipBlanks, hc] using ih hr

theorem skipBlanks_cons {c : Char} (hc : isBlank c = false) (t : List Char) :
    skipBlanks (c :: t) = c :: t := by
  simp [skipBlanks, hc]

theorem skipBlanks_append_cons {b : List Char} (hb : Blanks b) {c : Char}
    (hc : isBlank c = false) (t : List Char) : skipBlanks (b ++ c :: t) = c :: t := by
  rw [skipBlanks_append hb, skipBlanks_cons hc]

theorem skipBlanks_eq_nil {b : List Char} (hb : Blanks b) : skipBlanks b = [] := by
  simpa [skipBlanks] using skipBlanks_append hb []

theorem blanks_of_skipBlanks_eq_nil {t : List Char} (h : skipBlanks t = []) : Blanks t := by
  obtain ⟨b, hb, ht⟩ := exists_blanks t
  rw [h, List.append_nil] at ht
  rwa [ht]

/-! ### Escapes -/

theorem hexDigit_iff {c : Char} {n : Nat} : HexDigit c n ↔ Text.hexValue? c = some n := by
  constructor
  · intro h
    cases h with
    | decimal low high => simp [Text.hexValue?, low, high]
    | lower low high =>
      have : ¬ c ≤ '9' := by
        intro h
        exact absurd (Char.le_trans low h) (by decide)
      simp [Text.hexValue?, low, high, this]
    | upper low high =>
      have h9 : ¬ c ≤ '9' := by
        intro h
        exact absurd (Char.le_trans low h) (by decide)
      have ha : ¬ 'a' ≤ c := by
        intro h
        exact absurd (Char.le_trans h high) (by decide)
      simp [Text.hexValue?, low, high, h9, ha]
  · intro h
    unfold Text.hexValue? at h
    split at h
    · next hc => cases h; exact .decimal hc.1 hc.2
    · split at h
      · next hc => cases h; exact .lower hc.1 hc.2
      · split at h
        · next hc => cases h; exact .upper hc.1 hc.2
        · cases h

theorem letterEscape_iff {l c : Char} : LetterEscape l c ↔ unescape? l = some c := by
  constructor
  · intro h
    cases h <;> rfl
  · intro h
    unfold unescape? at h
    split at h <;> cases h <;> constructor

theorem LetterEscape.ne_u {l c : Char} (h : LetterEscape l c) : l ≠ 'u' := by
  cases h <;> decide

theorem CodeUnit.length {w : List Char} {n : Nat} (h : CodeUnit w n) : w.length = 4 := by
  cases h
  rfl

theorem readUnit_sound {t rest : List Char} {n : Nat} (h : readUnit t = .ok (n, rest)) :
    ∃ w, CodeUnit w n ∧ t = w ++ rest := by
  unfold readUnit at h
  split at h
  · next a b c d more =>
    split at h
    · next ha hb hc hd =>
      cases h
      exact ⟨[a, b, c, d], .digits (hexDigit_iff.mpr ha) (hexDigit_iff.mpr hb)
        (hexDigit_iff.mpr hc) (hexDigit_iff.mpr hd), rfl⟩
    · cases h
  · split at h <;> cases h

theorem CodeUnit.readUnit {w : List Char} {n : Nat} (h : CodeUnit w n) (rest : List Char) :
    readUnit (w ++ rest) = .ok (n, rest) := by
  cases h with
  | digits ha hb hc hd =>
    simp [Json.readUnit, hexDigit_iff.mp ha, hexDigit_iff.mp hb, hexDigit_iff.mp hc,
      hexDigit_iff.mp hd]

theorem isLeading_iff {n : Nat} : isLeading n = true ↔ 0xD800 ≤ n ∧ n ≤ 0xDBFF := by
  simp [isLeading]

theorem isTrailing_iff {n : Nat} : isTrailing n = true ↔ 0xDC00 ≤ n ∧ n ≤ 0xDFFF := by
  simp [isTrailing]

theorem readEscapeStart_sound {t rest : List Char}
    (h : readEscapeStart ['\\', 'u'] t = .ok rest) : t = '\\' :: 'u' :: rest := by
  cases t with
  | nil => cases h
  | cons c t =>
    simp only [readEscapeStart] at h
    split at h
    · next hc =>
      cases t with
      | nil => cases h
      | cons d t =>
        simp only [readEscapeStart] at h
        split at h
        · next hd => cases h; rw [hc, hd]
        · cases h
    · cases h

theorem readEscapeStart_escape (rest : List Char) :
    readEscapeStart ['\\', 'u'] ('\\' :: 'u' :: rest) = .ok rest := rfl

theorem readCodePoint_sound {t rest : List Char} {c : Char}
    (h : readCodePoint t = .ok (c, rest)) :
    ∃ w, Spelled ('\\' :: 'u' :: w) c ∧ t = w ++ rest := by
  unfold readCodePoint at h
  split at h
  · cases h
  · next high digits hu =>
    obtain ⟨v, hv, rfl⟩ := readUnit_sound hu
    split at h
    · cases h
    · next ht =>
      split at h
      · next hl =>
        -- A leading surrogate: the pair is one character.
        unfold readPartner at h
        split at h
        · cases h
        · next hs =>
          rw [readEscapeStart_sound hs]
          split at h
          · cases h
          · next low more hp =>
            obtain ⟨w, hw, rfl⟩ := readUnit_sound hp
            split at h
            · next hlow =>
              rw [Except.ok.injEq, Prod.mk.injEq] at h
              obtain ⟨rfl, rfl⟩ := h
              have hl := isLeading_iff.mp hl
              have hlow := isTrailing_iff.mp hlow
              exact ⟨v ++ '\\' :: 'u' :: w, .pair hv hl.1 hl.2 hw hlow.1 hlow.2, by simp⟩
            · cases h
      · next hl =>
        cases h
        rw [isTrailing_iff] at ht
        rw [isLeading_iff] at hl
        exact ⟨v, .unit hv (by omega), rfl⟩

theorem readEscape_sound {t rest : List Char} {c : Char} (h : readEscape t = .ok (c, rest)) :
    ∃ w, Spelled ('\\' :: w) c ∧ t = w ++ rest := by
  cases t with
  | nil => cases h
  | cons l t =>
    simp only [readEscape] at h
    split at h
    · next hl =>
      obtain ⟨w, hw, rfl⟩ := readCodePoint_sound h
      exact ⟨'u' :: w, hw, by rw [hl]; rfl⟩
    · split at h
      · next hl =>
        cases h
        exact ⟨[l], .letter (letterEscape_iff.mpr hl), rfl⟩
      · cases h

theorem Spelled.readEscape {w : List Char} {c : Char} (h : Spelled ('\\' :: w) c)
    (rest : List Char) : readEscape (w ++ rest) = .ok (c, rest) := by
  generalize hv : '\\' :: w = v at h
  cases h with
  | plain hc =>
    cases hv
    exact absurd rfl hc.2.1
  | letter hl =>
    cases hv
    simp [Json.readEscape, hl.ne_u, letterEscape_iff.mp hl]
  | @unit u n hu hn =>
    cases hv
    have ht : isTrailing n = false := by simp [isTrailing]; omega
    have hl : isLeading n = false := by simp [isLeading]; omega
    simp [Json.readEscape, readCodePoint, hu.readUnit, ht, hl]
  | @pair u v high low hu h₁ h₂ hv' l₁ l₂ =>
    cases hv
    have ht : isTrailing high = false := by simp [isTrailing]; omega
    have hl : isLeading high = true := isLeading_iff.mpr ⟨h₁, h₂⟩
    have hlow : isTrailing low = true := isTrailing_iff.mpr ⟨l₁, l₂⟩
    simp [Json.readEscape, readCodePoint, readPartner, readEscapeStart_escape, hu.readUnit,
      hv'.readUnit, ht, hl, hlow]

/-! ### Decoding -/

theorem isControl_of_isPlain {c : Char} (h : IsPlain c) : isControl c = false := by
  simpa [isControl] using h.2.2

theorem isPlain_of {c : Char} (hq : c ≠ '"') (hb : c ≠ '\\') (hc : ¬isControl c = true) :
    IsPlain c := by
  refine ⟨hq, hb, ?_⟩
  simpa [isControl] using hc

theorem readTextFrom_quote (done rest : List Char) :
    readTextFrom done ('"' :: rest) = .ok (done.reverse, rest) := by
  rw [readTextFrom, if_pos rfl]

theorem readTextFrom_plain {c : Char} (h : IsPlain c) (done rest : List Char) :
    readTextFrom done (c :: rest) = readTextFrom (c :: done) rest := by
  rw [readTextFrom, if_neg h.1, if_neg h.2.1, if_neg (by simp [isControl_of_isPlain h])]

theorem readTextFrom_escape {rest more : List Char} {c : Char}
    (h : readEscape rest = .ok (c, more)) (done : List Char) :
    readTextFrom done ('\\' :: rest) = readTextFrom (c :: done) more := by
  rw [readTextFrom, if_neg (by decide), if_pos rfl]
  split
  · next he =>
    rw [h] at he
    cases he
    rfl
  · next he =>
    rw [h] at he
    cases he

theorem readTextFrom_spelled {w : List Char} {c : Char} (h : Spelled w c)
    (done rest : List Char) :
    readTextFrom done (w ++ rest) = readTextFrom (c :: done) rest := by
  cases w with
  | nil => cases h
  | cons d w =>
    by_cases hd : d = '\\'
    · subst hd
      exact readTextFrom_escape (h.readEscape rest) done
    · cases h with
      | plain hc => exact readTextFrom_plain hc done rest
      | letter => exact absurd rfl hd
      | unit => exact absurd rfl hd
      | pair => exact absurd rfl hd

theorem readTextFrom_content {w s : List Char} (h : Content w s) (done rest : List Char) :
    readTextFrom done (w ++ '"' :: rest) = .ok (done.reverse ++ s, rest) := by
  induction h generalizing done with
  | nil => simpa using readTextFrom_quote done rest
  | cons hc _ ih =>
    rw [List.append_assoc, readTextFrom_spelled hc, ih]
    simp

theorem readTextFrom_sound {done t s rest : List Char}
    (h : readTextFrom done t = .ok (s, rest)) :
    ∃ w u, Content w u ∧ s = done.reverse ++ u ∧ t = w ++ '"' :: rest := by
  fun_induction readTextFrom done t with
  | case1 => cases h
  | case2 done t =>
    cases h
    exact ⟨[], [], .nil, by simp, rfl⟩
  | case3 done t c more he _ ih =>
    obtain ⟨w, u, hw, rfl, rfl⟩ := ih h
    obtain ⟨v, hv, rfl⟩ := readEscape_sound he
    exact ⟨'\\' :: v ++ w, c :: u, .cons hv hw, by simp, by simp⟩
  | case4 => cases h
  | case5 => cases h
  | case6 done c t hq hb hc ih =>
    obtain ⟨w, u, hw, rfl, rfl⟩ := ih h
    exact ⟨[c] ++ w, c :: u, .cons (.plain (isPlain_of hq hb hc)) hw, by simp, by simp⟩

/-- Reading from behind the opening quote on gives what the content up to the closing quote
means. -/
theorem readText_iff {t s rest : List Char} :
    readText t = .ok (s, rest) ↔ ∃ w, Content w s ∧ t = w ++ '"' :: rest := by
  constructor
  · intro h
    obtain ⟨w, u, hw, rfl, ht⟩ := readTextFrom_sound h
    exact ⟨w, hw, ht⟩
  · rintro ⟨w, hw, rfl⟩
    exact readTextFrom_content hw [] rest

/-! ### Passing over -/

theorem skipEscape_sound {t rest : List Char} (h : skipEscape t = .ok rest) :
    (∃ l c, LetterEscape l c ∧ t = l :: rest) ∨
      ∃ v n, CodeUnit v n ∧ t = 'u' :: (v ++ rest) := by
  cases t with
  | nil => cases h
  | cons l t =>
    simp only [skipEscape] at h
    split at h
    · next hl =>
      obtain ⟨⟨n, more⟩, hu, rfl⟩ := map_eq_ok h
      obtain ⟨v, hv, rfl⟩ := readUnit_sound hu
      exact .inr ⟨v, n, hv, by rw [hl]⟩
    · split at h
      · next c hl =>
        cases h
        exact .inl ⟨l, c, letterEscape_iff.mpr hl, rfl⟩
      · cases h

theorem skipText_escape {rest more : List Char} (h : skipEscape rest = .ok more) :
    skipText ('\\' :: rest) = skipText more := by
  rw [skipText, if_neg (by decide), if_pos rfl]
  split
  · next he =>
    rw [h] at he
    cases he
    rfl
  · next he =>
    rw [h] at he
    cases he

theorem skipText_content {w : List Char} (h : LooseContent w) (rest : List Char) :
    skipText (w ++ '"' :: rest) = .ok rest := by
  induction h with
  | nil => rw [List.nil_append, skipText, if_pos rfl]
  | @plain c w hc _ ih =>
    rw [List.cons_append, skipText, if_neg hc.1, if_neg hc.2.1,
      if_neg (by simp [isControl_of_isPlain hc]), ih]
  | @letter l c w hl _ ih =>
    rw [List.cons_append, skipText_escape, ih]
    simp [skipEscape, hl.ne_u, letterEscape_iff.mp hl]
  | @unit v n w hv _ ih =>
    rw [List.cons_append, skipText_escape, ih]
    simp [skipEscape, hv.readUnit, Except.map]

theorem skipText_sound {t rest : List Char} (h : skipText t = .ok rest) :
    ∃ w, LooseContent w ∧ t = w ++ '"' :: rest := by
  fun_induction skipText t with
  | case1 => cases h
  | case2 t => cases h; exact ⟨[], .nil, rfl⟩
  | case3 t more he _ ih =>
    obtain ⟨w, hw, rfl⟩ := ih h
    rcases skipEscape_sound he with ⟨l, c, hl, rfl⟩ | ⟨v, n, hv, rfl⟩
    · exact ⟨'\\' :: l :: w, .letter hl hw, rfl⟩
    · exact ⟨'\\' :: 'u' :: (v ++ w), .unit hv hw, by simp⟩
  | case4 => cases h
  | case5 => cases h
  | case6 c t hq hb hc ih =>
    obtain ⟨w, hw, rfl⟩ := ih h
    exact ⟨c :: w, .plain (isPlain_of hq hb hc) hw, rfl⟩

end Roster.Json
