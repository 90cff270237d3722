import Roster.Proofs.Yaml.Block
import Roster.Proofs.Yaml.Objects

/-! Mappings in block style, one member a line. A key is a name, and behind each value is a line
break. -/
namespace Roster.Yaml

namespace Member

def line (m : Member) : List Char := m.key ++ ':' :: ' ' :: (m.value.chars ++ ['\n'])

def lineTokens (m : Member) : List TokenKind :=
  [.key, .scalar m.key .plain, .value, m.value.token]

def lineEvents (m : Member) : List EventKind :=
  [.scalar m.key .plain none, .scalar m.value.content m.value.style none]

/-- The key is a name, and the colon comes near enough behind it. -/
structure FitsLine (m : Member) : Prop where
  name : ∀ c ∈ m.key, isNameChar c = true
  nonempty : m.key ≠ []
  near : m.key.length ≤ PendingKey.maxLength
  value : m.value.IsSafe

end Member

theorem byteCount_name {w : List Char} (h : ∀ c ∈ w, isNameChar c = true) :
    Json.byteCount w = w.length := by
  induction w with
  | nil => rfl
  | cons c w ih =>
    have hc := (toNat_of_isNameChar (h c List.mem_cons_self)).2
    have hsize : c.utf8Size = 1 := by
      rw [Char.utf8Size_eq_one_iff, UInt32.le_iff_toNat_le]
      exact Nat.le_trans hc (by decide)
    rw [Json.byteCount_cons, hsize, ih fun d hd => h d (List.mem_cons_of_mem _ hd),
      List.length_cons, Nat.add_comm]

theorem Leaf.printable_chars (v : Leaf) : Json.Printable v.chars := by
  cases v with
  | text s => exact Json.printable_literal s
  | number n => exact Json.printable_numeral n

theorem Member.FitsLine.isAllowed {m : Member} (h : m.FitsLine) :
    ∀ c ∈ m.line, isAllowed c = true := by
  have hcolon : Yaml.isAllowed ':' = true := by decide
  have hspace : Yaml.isAllowed ' ' = true := by decide
  have hbreak : Yaml.isAllowed '\n' = true := by decide
  intro c hc
  simp only [Member.line, List.mem_append, List.mem_cons, List.not_mem_nil, or_false] at hc
  rcases hc with hc | rfl | rfl | hc | rfl
  · have hname := h.name c hc
    have hlow := (toNat_of_isNameChar hname).1
    exact (safe_of_isNameChar hname).isAllowed (by omega)
  · exact hcolon
  · exact hspace
  · exact (h.value.safe_chars c hc).isAllowed (m.value.printable_chars c hc)
  · exact hbreak

namespace Lexer

theorem noGap_chars (v : Leaf) (t : List Char) : NoGap (v.chars ++ t) := by
  cases v with
  | text s => exact noGap_cons rfl
  | number n =>
    have hform := (Json.wholeNumber_numeral n).form
    simp only [Leaf.chars]
    cases hw : (Text.numeral n).toList with
    | nil => exact absurd hw hform.ne_nil
    | cons d w =>
      have hd : d.isDigit = true := by
        have hdigits := hform.allDigits
        rw [hw] at hdigits
        exact hdigits.head
      exact noGap_cons (not_isGapChar_of_isNameChar (isNameChar_of_isDigit hd))

theorem noGap_lines {members : List Member} (fits : ∀ m ∈ members, m.FitsLine) :
    NoGap (members.flatMap Member.line) := by
  cases members with
  | nil => exact noGap_nil
  | cons m members =>
    have hm := fits m List.mem_cons_self
    obtain ⟨c, w, hw⟩ := List.exists_cons_of_ne_nil hm.nonempty
    have hc : isNameChar c = true := hm.name c (by simp [hw])
    rw [List.flatMap_cons, Member.line, hw]
    exact noGap_cons (not_isGapChar_of_isNameChar hc)

theorem readPlain_line {w t : List Char} (hw : ∀ c ∈ w, isNameChar c = true) {indent : Int}
    (inside : 0 < indent) (mark : Mark) (h : NoGap t) :
    readPlain false indent ⟨w ++ '\n' :: t, mark⟩ =
      .ok (w, true, ⟨t, (mark.through w).nextLine 1⟩) := by
  have hname := readPlainFrom_name hw ⟨false, indent, mark⟩ [] mark ('\n' :: t)
  have hbreak : readPlainFrom ⟨false, indent, mark⟩ (w.reverse ++ []) .none (mark.through w)
      ('\n' :: t) = readPlainFrom ⟨false, indent, mark⟩ (w.reverse ++ []) (.lines (some '\n') [])
        ((mark.through w).nextLine 1) t := by
    simp [readPlainFrom, isBreak, isHalfBreak, Gap.add, Gap.none, Gap.addBreak, normalBreak,
      Mark.past, Char.utf8Size]
  have hend : readPlainFrom ⟨false, indent, mark⟩ (w.reverse ++ []) (.lines (some '\n') [])
      ((mark.through w).nextLine 1) t = .ok (w, true, ⟨t, (mark.through w).nextLine 1⟩) := by
    cases t with
    | nil => simp [readPlainFrom, Gap.hasBreak]
    | cons c t =>
      have hc := h c rfl
      simp only [isGapChar, Bool.or_eq_false_iff] at hc
      obtain ⟨⟨⟨⟨hbreak, hspace⟩, htab⟩, -⟩, -⟩ := hc
      simp [readPlainFrom, hbreak, isBlank, hspace, htab, Setting.endsBefore, Gap.isNone, Gap.none,
        Gap.hasBreak, Mark.nextLine, inside]
  simp only [readPlain]
  rw [hname, hbreak, hend]

namespace InBlock

variable {opened : Bool} {spot : Spot} {l : Lexer} {out : List Token} {kinds : List TokenKind}
  {rest : List Char}

theorem readKey {w t : List Char} (h : InBlock opened .fresh l out kinds (w ++ ':' :: ' ' :: t))
    (name : ∀ c ∈ w, isNameChar c = true) (nonempty : w ≠ [])
    (near : w.length ≤ PendingKey.maxLength) :
    ∃ tokens l', l.Reads tokens l' ∧ InBlock opened (.key kinds.length) l' (out ++ tokens)
      (kinds ++ [.scalar w .plain]) (':' :: ' ' :: t) := by
  cases w with
  | nil => exact absurd rfl nonempty
  | cons c w =>
    have hc : isNameChar c = true := name c List.mem_cons_self
    apply step (c := c) (t := w ++ ':' :: ' ' :: t) h (by simp)
    intro l out h
    have hflow : Lexer.flow { l with pending := some ⟨opened, kinds.length, l.mark⟩ } = false :=
      h.flow
    have hread : readPlain (Lexer.flow { l with pending := some ⟨opened, kinds.length, l.mark⟩ })
        (l.indent + 1) l.cursor =
          .ok (c :: w, false, ⟨':' :: ' ' :: t, l.mark.through (c :: w)⟩) := by
      rw [hflow, cursor_eq h.rest_eq]
      exact readPlain_name name _ _ t
    have hfetch := fetchPlain_of_read h.saveKey_fresh hread
    refine ⟨_, (fetchToken_name hc l _).trans hfetch, ?_⟩
    have hholds := h.holds.pushTo (.scalar (c :: w) .plain)
      ⟨':' :: ' ' :: t, l.mark.through (c :: w)⟩
    have hnear : (l.mark.through (c :: w)).offset ≤ l.mark.offset + PendingKey.maxLength := by
      rw [Mark.offset_through, byteCount_name name]
      omega
    exact {
      rest_eq := rfl
      clean := noGap_cons rfl
      beyond := h.beyond
      ended := h.ended
      indent := h.indent
      outerIndents := h.outerIndents
      outer := h.outer
      holds := ⟨hholds.kinds_eq, hholds.released_eq⟩
      fits := ⟨rfl, h.out_le, by simp, l.mark, rfl, h.fits.2.2,
        (Mark.line_through l.mark (c :: w)).symm, hnear⟩ }

theorem readColon {number : Nat} {t : List Char}
    (h : InBlock opened (.key number) l out kinds (':' :: ' ' :: t)) (clean : NoGap t) :
    ∃ tokens l', l.Reads tokens l' ∧ InBlock true .past l' (out ++ tokens)
      (kinds.take number ++ (opening opened ++ .key :: kinds.drop number) ++ [.value]) t := by
  apply h.step_gap
  intro l out h
  obtain ⟨-, -, -, mark, hpending, hcolumn, -⟩ := h.fits
  obtain ⟨l₁, hroll, hcursor, hbeyond, hended, hindent, houters, houter, hholds⟩ := h.roll hcolumn
  have hrest : l₁.rest = ':' :: ' ' :: t := by
    rw [← h.rest_eq]
    exact congrArg Cursor.rest hcursor
  have hpush := hholds.pushTo .value ⟨' ' :: t, l₁.mark.through [':']⟩
  have hfetch : l.fetchToken ':' (' ' :: t) = .ok
      { l₁.pushTo .value ⟨' ' :: t, l₁.mark.through [':']⟩ with
        pending := none, keyAllowed := false } := by
    have hvalue : l.fetchToken ':' (' ' :: t) = l.fetchValue := by
      simp [fetchToken, atDocumentIndicator, atBlank, isBlank]
    rw [hvalue, ← pushIndicator_eq hrest]
    simp only [fetchValue, hpending, hroll]
  have hgap := passGap_space (t := t) (l :=
    { l₁.pushTo .value ⟨' ' :: t, l₁.mark.through [':']⟩ with
      pending := none, keyAllowed := false }) rfl clean
  refine ⟨_, hfetch, rfl, Nat.le_succ t.length, Nat.le_refl _, ?_⟩
  rw [hgap]
  exact {
    rest_eq := rfl
    clean := clean
    beyond := hbeyond
    ended := hended
    indent := hindent
    outerIndents := houters
    outer := houter
    holds := ⟨hpush.kinds_eq, hpush.released_eq⟩
    fits := ⟨rfl, rfl⟩ }

theorem readValue {v : Leaf} {t : List Char}
    (h : InBlock true .past l out kinds (v.chars ++ '\n' :: t)) (hv : v.IsSafe) (clean : NoGap t) :
    ∃ tokens l', l.Reads tokens l' ∧
      InBlock true .fresh l' (out ++ tokens) (kinds ++ [v.token]) t := by
  cases v with
  | text s =>
    apply step_gap (c := '"') (t := s.flatMap Json.escape ++ ['"'] ++ '\n' :: t) h
    intro l out h
    have hfetch := fetchQuoted_eq h.saveKey_past hv h.rest_eq
    have hgap := passGap_break (t := t) (l := { l.pushTo (.scalar s .quoted)
      ⟨'\n' :: t, l.mark.through (Json.literalChars s)⟩ with keyAllowed := false }) rfl h.flow clean
    refine ⟨_, (fetchToken_quote l _).trans hfetch, h.fits.1, Nat.le_succ t.length, ?_, ?_⟩
    · show ('\n' :: t).length ≤ (s.flatMap Json.escape ++ ['"'] ++ '\n' :: t).length
      rw [List.length_append]
      exact Nat.le_add_left _ _
    · rw [hgap]
      exact h.endLine clean _ _ rfl
  | number n =>
    have hform := (Json.wholeNumber_numeral n).form
    have hname := isNameChar_of_allDigits hform.allDigits
    simp only [Leaf.chars, Leaf.token, Leaf.content, Leaf.style] at h ⊢
    cases hw : (Text.numeral n).toList with
    | nil => exact absurd hw hform.ne_nil
    | cons d w =>
      rw [hw] at h hname
      apply step (c := d) (t := w ++ '\n' :: t) h (by simp; omega)
      intro l out h
      have hinside : 0 < l.indent + 1 := by
        have hindent : l.indent = 0 := h.indent
        omega
      have hread : readPlain l.flow (l.indent + 1) l.cursor =
          .ok (d :: w, true, ⟨t, (l.mark.through (d :: w)).nextLine 1⟩) := by
        rw [h.flow, cursor_eq h.rest_eq]
        exact readPlain_line hname hinside l.mark clean
      have hfetch := fetchPlain_of_read h.saveKey_past hread
      refine ⟨_, (fetchToken_name (hname d List.mem_cons_self) l _).trans hfetch, ?_⟩
      exact h.endLine clean _ _ rfl

theorem readLine {m : Member} {t : List Char}
    (h : InBlock opened .fresh l out kinds (m.line ++ t)) (fits : m.FitsLine) (clean : NoGap t) :
    ∃ tokens l', l.Reads tokens l' ∧
      InBlock true .fresh l' (out ++ tokens) (kinds ++ (opening opened ++ m.lineTokens)) t := by
  have hline : m.line ++ t = m.key ++ ':' :: ' ' :: (m.value.chars ++ '\n' :: t) := by
    simp [Member.line]
  rw [hline] at h
  obtain ⟨tokens₁, l₁, hreads₁, h₁⟩ := h.readKey fits.name fits.nonempty fits.near
  obtain ⟨tokens₂, l₂, hreads₂, h₂⟩ := h₁.readColon (noGap_chars m.value _)
  obtain ⟨tokens₃, l₃, hreads₃, h₃⟩ := h₂.readValue fits.value clean
  refine ⟨_, l₃, (hreads₁.trans hreads₂).trans hreads₃, ?_⟩
  simpa [Member.lineTokens] using h₃

theorem readLines {members : List Member}
    (h : InBlock true .fresh l out kinds (members.flatMap Member.line))
    (fits : ∀ m ∈ members, m.FitsLine) :
    ∃ tokens l', l.Reads tokens l' ∧
      InBlock true .fresh l' (out ++ tokens) (kinds ++ members.flatMap Member.lineTokens) [] := by
  induction members generalizing l out kinds with
  | nil =>
    refine ⟨[], l, .refl l, ?_⟩
    simpa using h
  | cons m members ih =>
    have hrest : ∀ m' ∈ members, m'.FitsLine := fun m' hm' => fits m' (List.mem_cons_of_mem _ hm')
    rw [List.flatMap_cons] at h
    obtain ⟨tokens₁, l₁, hreads₁, h₁⟩ := h.readLine (fits m List.mem_cons_self) (noGap_lines hrest)
    obtain ⟨tokens₂, l₂, hreads₂, h₂⟩ := ih h₁ hrest
    refine ⟨_, l₂, hreads₁.trans hreads₂, ?_⟩
    simpa [opening] using h₂

end InBlock
end Lexer

def blockTokens (members : List Member) : List TokenKind :=
  .blockMappingStart :: (members.flatMap Member.lineTokens ++ [.blockEnd])

theorem ofSource_lines {m : Member} {members : List Member}
    (fits : ∀ m' ∈ m :: members, m'.FitsLine) :
    ∃ tokens, Feed.ofSource ⟨(m :: members).flatMap Member.line, none⟩ = ⟨tokens, none⟩ ∧
      tokens.map Token.kind = blockTokens (m :: members) ++ [.streamEnd] := by
  have hrest : ∀ m' ∈ members, m'.FitsLine := fun m' hm' => fits m' (List.mem_cons_of_mem _ hm')
  have h := Lexer.inBlock_ofSource (Lexer.noGap_lines fits)
  rw [List.flatMap_cons] at h
  obtain ⟨tokens₁, l₁, hreads₁, h₁⟩ :=
    h.readLine (fits m List.mem_cons_self) (Lexer.noGap_lines hrest)
  obtain ⟨tokens₂, l₂, hreads₂, h₂⟩ := h₁.readLines hrest
  rw [← List.flatMap_cons] at hreads₁
  obtain ⟨n, hn, hfeed⟩ := hreads₁.trans hreads₂
  have hlength : n ≤ ((m :: members).flatMap Member.line).length :=
    Nat.le_trans (Nat.le_add_right _ _) hn
  obtain ⟨tokens₃, hend, hkinds⟩ :=
    h₂.feed (((m :: members).flatMap Member.line).length + 1 - n)
  have hfuel : ((m :: members).flatMap Member.line).length + 3 =
      ((m :: members).flatMap Member.line).length + 1 - n + 2 + n := by omega
  refine ⟨tokens₁ ++ tokens₂ ++ tokens₃, ?_, ?_⟩
  · rw [Feed.ofSource]
    dsimp only
    rw [hfuel]
    exact (hfeed _).trans (by rw [hend])
  · simpa [blockTokens, Lexer.opening] using hkinds

/-! ### Events -/

def blockEvents (members : List Member) : List EventKind :=
  .mappingStart :: (members.flatMap Member.lineEvents ++ [.mappingEnd])

/-- The phases of one line: its key, the node for it, its value and the node for that. -/
theorem runPhases_line {m : Member} {tokens : List Token}
    (h : tokens.map Token.kind = m.lineTokens) (handles : Handles) (start : Mark)
    (phases : List Phase) (rest : List Token) (fuel : Nat) :
    ∃ events, Bare events m.lineEvents ∧
      runPhases handles (fuel + 4) (.blockKey start :: phases) (tokens ++ rest) =
        ⟨events ++ (runPhases handles fuel (.blockKey start :: phases) rest).events,
          (runPhases handles fuel (.blockKey start :: phases) rest).rest⟩ := by
  simp only [Member.lineTokens, Leaf.token, List.map_eq_cons_iff, List.map_eq_nil_iff] at h
  obtain ⟨⟨kind₁, start₁, stop₁⟩, _, rfl, rfl, ⟨kind₂, start₂, stop₂⟩, _, rfl, rfl,
    ⟨kind₃, start₃, stop₃⟩, _, rfl, rfl, ⟨kind₄, start₄, stop₄⟩, _, rfl, rfl, rfl⟩ := h
  refine ⟨[⟨.scalar m.key .plain none, none, start₂⟩,
    ⟨.scalar m.value.content m.value.style none, none, start₄⟩], ⟨rfl, by simp⟩, ?_⟩
  rfl

theorem runPhases_lines {members : List Member} {tokens : List Token}
    (h : tokens.map Token.kind = members.flatMap Member.lineTokens ++ [.blockEnd, .streamEnd])
    (handles : Handles) (start : Mark) {fuel : Nat} (hf : 4 * members.length + 2 ≤ fuel) :
    ∃ events last, runPhases handles fuel [.blockKey start] tokens = ⟨events, .ok [last]⟩ ∧
      last.kind = .streamEnd ∧
      Bare events (members.flatMap Member.lineEvents ++ [.mappingEnd]) := by
  refine runPhases_members ?_ (fun _ _ _ _ => rfl) h hf
  intro m tokens htokens rest fuel
  exact runPhases_line htokens handles start [] rest fuel

theorem length_lineTokens (members : List Member) :
    (members.flatMap Member.lineTokens).length = 4 * members.length := by
  induction members with
  | nil => rfl
  | cons m members ih =>
    rw [List.flatMap_cons, List.length_append, ih, List.length_cons, Member.lineTokens]
    simp only [List.length_cons, List.length_nil]
    omega

theorem ofTokens_lines {members : List Member} {tokens : List Token}
    (h : tokens.map Token.kind = blockTokens members ++ [.streamEnd]) :
    ∃ events last, EventRun.ofTokens tokens = ⟨events, .ok [last]⟩ ∧ last.kind = .streamEnd ∧
      Bare events (blockEvents members) := by
  have hlength := congrArg List.length h
  rw [blockTokens, List.cons_append, List.append_assoc] at h
  obtain ⟨⟨_, start, stop⟩, rest, rfl, rfl, hrest⟩ := List.map_eq_cons_iff.mp h
  have hfuel : 4 * members.length + 2 ≤ 4 * rest.length + 11 := by
    simp only [blockTokens, List.length_map, List.length_append, List.length_cons,
      length_lineTokens, List.length_nil] at hlength
    omega
  obtain ⟨events, last, hlines, hlast, hbare⟩ :=
    runPhases_lines hrest defaultHandles start hfuel
  have hrun : EventRun.ofTokens (⟨.blockMappingStart, start, stop⟩ :: rest) =
      ⟨.plainEvent .mappingStart start ::
          (runPhases defaultHandles (4 * rest.length + 11) [.blockKey start] rest).events,
        (runPhases defaultHandles (4 * rest.length + 11) [.blockKey start] rest).rest⟩ := rfl
  have hstart : Bare [.plainEvent .mappingStart start] [.mappingStart] :=
    ⟨rfl, by simp [Event.plainEvent]⟩
  refine ⟨.plainEvent .mappingStart start :: events, last, ?_, hlast, ?_⟩
  · rw [hrun, hlines]
  · simpa [blockEvents] using hstart.append hbare

theorem ofFeed_lines {members : List Member} {tokens : List Token}
    (h : tokens.map Token.kind = blockTokens members ++ [.streamEnd]) :
    ∃ events, Document.ofFeed ⟨tokens, none⟩ = ⟨events.map .node, none, false⟩ ∧
      Bare events (blockEvents members) := by
  obtain ⟨events, last, hrun, hlast, hbare⟩ := ofTokens_lines h
  have hnone : ∀ name, .aliasOf name ∉ blockEvents members := by
    simp [blockEvents, Member.lineEvents]
  exact ⟨events, ofFeed_of_run hrun hlast hbare hnone, hbare⟩

end Roster.Yaml
