import Roster.Proofs.Yaml.Scalars
import Roster.Yaml.Lexer

/-! Tokens of text in flow style on one line. Which tokens are released and which are held back
changes from step to step, and the key of the whole collection is given up once it is too far away;
all tokens together, in their order, tell what was read. -/
namespace Roster.Yaml

namespace Lexer

/-- The tokens come from `l` before any that come from `l'`. No more steps are made than characters
are read. -/
def Reads (l : Lexer) (tokens : List Token) (l' : Lexer) : Prop :=
  ∃ n, n + l'.rest.length ≤ l.rest.length ∧
    ∀ fuel, l.feed (fuel + n) = ⟨tokens ++ (l'.feed fuel).tokens, (l'.feed fuel).fault⟩

theorem Reads.refl (l : Lexer) : l.Reads [] l := ⟨0, by omega, fun _ => rfl⟩

theorem Reads.trans {l₁ l₂ l₃ : Lexer} {tokens more : List Token} (h : l₁.Reads tokens l₂)
    (h' : l₂.Reads more l₃) : l₁.Reads (tokens ++ more) l₃ := by
  obtain ⟨n, hn, hfeed⟩ := h
  obtain ⟨n', hn', hfeed'⟩ := h'
  refine ⟨n' + n, by omega, ?_⟩
  intro fuel
  rw [← Nat.add_assoc, hfeed, hfeed', List.append_assoc]

/-- The kinds of all tokens so far. Those in `out` are released, the others are held back. -/
structure Holds (l : Lexer) (out : List Token) (kinds : List TokenKind) : Prop where
  kinds_eq : (out ++ l.held).map Token.kind = kinds
  released_eq : l.released = out.length

namespace Holds

variable {l : Lexer} {out : List Token} {kinds : List TokenKind}

theorem length_eq (h : l.Holds out kinds) : kinds.length = l.released + l.held.length := by
  rw [← h.kinds_eq, h.released_eq]
  simp

theorem pushTo (h : l.Holds out kinds) (kind : TokenKind) (c : Cursor) :
    (l.pushTo kind c).Holds out (kinds ++ [kind]) where
  kinds_eq := by
    rw [← h.kinds_eq]
    simp [Lexer.pushTo]
  released_eq := h.released_eq

theorem insert (h : l.Holds out kinds) {number : Nat} (hn : out.length ≤ number)
    (kind : TokenKind) (mark : Mark) :
    (l.insert number kind mark).Holds out (kinds.take number ++ kind :: kinds.drop number) where
  kinds_eq := by
    have htake : out.take number = out := List.take_of_length_le hn
    have hdrop : out.drop number = [] := List.drop_eq_nil_of_le hn
    rw [← h.kinds_eq]
    simp [Lexer.insert, h.released_eq, ← List.map_take, ← List.map_drop, List.take_append,
      List.drop_append, htake, hdrop]
  released_eq := h.released_eq

theorem release (h : l.Holds out kinds) {n : Nat} (hn : n ≤ l.held.length) :
    Holds { l with held := l.held.drop n, released := l.released + n } (out ++ l.held.take n)
      kinds where
  kinds_eq := by
    rw [List.append_assoc, List.take_append_drop]
    exact h.kinds_eq
  released_eq := by
    simp [h.released_eq, Nat.min_eq_left hn]

end Holds

theorem release_of_none {l : Lexer} (h : l.firstPending? = none) :
    l.release = (l.held.take l.held.length,
      { l with held := l.held.drop l.held.length, released := l.released + l.held.length }) := by
  simp [Lexer.release, h]

theorem release_of_some {l : Lexer} {number : Nat} (h : l.firstPending? = some number) :
    l.release = (l.held.take (number - l.released),
      { l with
        held := l.held.drop (number - l.released)
        released := l.released + (number - l.released) }) := by
  simp [Lexer.release, h]

/-- Tokens are released up to where the first key token can still be inserted. -/
theorem Holds.exists_release {l : Lexer} {out : List Token} {kinds : List TokenKind}
    (h : l.Holds out kinds) (inside : ∀ first ∈ l.firstPending?, first ≤ kinds.length) :
    ∃ n, n ≤ l.held.length ∧ (∀ first ∈ l.firstPending?, n ≤ first - out.length) ∧
      l.release =
        (l.held.take n, { l with held := l.held.drop n, released := l.released + n }) := by
  have hlength := h.length_eq
  have hreleased := h.released_eq
  cases hfirst : l.firstPending? with
  | none => exact ⟨l.held.length, Nat.le_refl _, by simp, release_of_none hfirst⟩
  | some first =>
    have hle : first ≤ kinds.length := inside first hfirst
    refine ⟨first - l.released, by omega, ?_, release_of_some hfirst⟩
    rintro _ ⟨⟩
    exact Nat.le_of_eq (by rw [hreleased])

theorem cursor_eq {l : Lexer} {t : List Char} (h : l.rest = t) : l.cursor = ⟨t, l.mark⟩ := by
  rw [← h]
  rfl

def isGapChar (c : Char) : Bool := isBreak c || c == ' ' || c == '\t' || c == '\uFEFF' || c == '#'

theorem passGap_eq {l : Lexer} {c : Char} {t : List Char} (h : l.rest = c :: t)
    (hc : isGapChar c = false) : l.passGap = l := by
  have hskip : skipGap l.flow l.keyAllowed l.cursor = (l.keyAllowed, l.cursor) := by
    simp only [isGapChar, Bool.or_eq_false_iff] at hc
    obtain ⟨⟨⟨⟨hbreak, hspace⟩, htab⟩, hmark⟩, hcomment⟩ := hc
    rw [cursor_eq h]
    simp [skipGap, skipGapFrom, hbreak, hspace, htab, hmark, hcomment]
  simp [passGap, hskip]

theorem passGap_nil {l : Lexer} (h : l.rest = []) : l.passGap = l := by
  have hskip : skipGap l.flow l.keyAllowed l.cursor = (l.keyAllowed, l.cursor) := by
    rw [cursor_eq h]
    rfl
  simp [passGap, hskip]

theorem lookBeyond_eq {l : Lexer} (h : l.beyond = none) : l.lookBeyond = .ok l := by
  simp [lookBeyond, h]

/-- What is true of a lexer with and without its stale keys is true of it at each step. -/
theorem settle_eq {P : Lexer → Prop} {l : Lexer} (h : P l)
    (hstale : ∃ l', l.dropStale = .ok l' ∧ P l') :
    ∃ l₁, (if l.held = [] then .ok l else l.dropStale) = .ok l₁ ∧ P l₁ := by
  by_cases hheld : l.held = []
  · exact ⟨l, if_pos hheld, h⟩
  · rw [if_neg hheld]
    exact hstale

theorem feed_step {l l₁ l₂ : Lexer} (settle : (if l.held = [] then .ok l else l.dropStale) = .ok l₁)
    (ended : l₁.ended = false) (fetch : l₁.release.2.fetch = .ok l₂) (fuel : Nat) :
    l.feed (fuel + 1) =
      ⟨l₁.release.1 ++ (l₂.feed fuel).tokens, (l₂.feed fuel).fault⟩ := by
  have hended : l₁.release.2.ended = false := ended
  simp [feed, settle, hended, fetch]

theorem settle_of_near {mark : Mark} {key? : Option PendingKey}
    (h : ∀ key ∈ key?, key.mark.line = mark.line ∧
      mark.offset ≤ key.mark.offset + PendingKey.maxLength) :
    PendingKey.settle mark key? = .ok key? := by
  cases key? with
  | none => rfl
  | some key =>
    obtain ⟨hline, hnear⟩ := h key rfl
    have hstale : key.isStale mark = false := by
      simp only [PendingKey.isStale, Bool.or_eq_false_iff, decide_eq_false_iff_not]
      omega
    simp [PendingKey.settle, hstale]

theorem dropStale_eq {l : Lexer} (outer : l.outerPending = [])
    (settle : PendingKey.settle l.mark l.pending = .ok l.pending) : l.dropStale = .ok l := by
  simp only [dropStale, outer, settle, bind, Except.bind, pure, Except.pure, List.mapM_nil]
  rw [← outer]

theorem feed_ended {l : Lexer} (ended : l.ended = true) (pending : l.pending = none)
    (outer : l.outerPending = []) (fuel : Nat) : l.feed (fuel + 1) = ⟨l.held, none⟩ := by
  have hsettle : PendingKey.settle l.mark l.pending = .ok l.pending := by
    rw [pending]
    rfl
  have hstale := dropStale_eq outer hsettle
  have hnone : l.firstPending? = none := by simp [firstPending?, pending, outer]
  have hrelease := release_of_none hnone
  simp [feed, hstale, hrelease, ended]

/-! ### Inside of one flow collection -/

/-- A flow collection at the start of a text need not be a key, so it can be given up as one. -/
theorem settle_flow_key (mark : Mark) {key? : Option PendingKey}
    (h : ∀ key ∈ key?, key.required = false ∧ key.number = 0) :
    ∃ key?', PendingKey.settle mark key? = .ok key?' ∧
      ∀ key ∈ key?', key.required = false ∧ key.number = 0 := by
  cases key? with
  | none => exact ⟨none, rfl, h⟩
  | some key =>
    by_cases hs : key.isStale mark = true
    · refine ⟨none, ?_, by simp⟩
      simp [PendingKey.settle, hs, PendingKey.drop, (h key rfl).1, Except.map]
    · exact ⟨some key, by simp [PendingKey.settle, hs], h⟩

/-- Where the cursor is: where a key can start, behind a node that may be a key, or where no key can
start. For a node that may be a key the number of the token is told before which its key token would
go. -/
inductive Spot where
  | fresh
  | key (number : Nat)
  | past

def Spot.Fits (l : Lexer) (out : List Token) (kinds : List TokenKind) : Spot → Prop
  | fresh => l.pending = none ∧ l.keyAllowed = true
  | key number => l.keyAllowed = false ∧ out.length ≤ number ∧ number ≤ kinds.length ∧
      ∃ mark, l.pending = some ⟨false, number, mark⟩ ∧ mark.line = 0 ∧
        l.mark.offset ≤ mark.offset + PendingKey.maxLength
  | past => l.pending = none ∧ l.keyAllowed = false

/-- The lexer is inside of a flow collection on the first line, with `rest` before it. The
collection itself may have been given up as a key. -/
structure InFlow (spot : Spot) (l : Lexer) (out : List Token) (kinds : List TokenKind)
    (rest : List Char) : Prop where
  rest_eq : l.rest = rest
  line : l.mark.line = 0
  column : 0 < l.mark.column
  beyond : l.beyond = none
  ended : l.ended = false
  indent : l.indent = -1
  outerIndents : l.outerIndents = []
  outer : ∃ key?, l.outerPending = [key?] ∧ ∀ key ∈ key?, key.required = false ∧ key.number = 0
  holds : l.Holds out kinds
  fits : spot.Fits l out kinds

namespace InFlow

variable {spot : Spot} {l : Lexer} {out : List Token} {kinds : List TokenKind} {rest : List Char}

theorem flow (h : InFlow spot l out kinds rest) : l.flow = true := by
  obtain ⟨key?, ho, -⟩ := h.outer
  simp [Lexer.flow, ho]

/-- The key before the cursor is near enough; the one of the collection need not be. -/
theorem dropStale (h : InFlow spot l out kinds rest) :
    ∃ l', l.dropStale = .ok l' ∧ InFlow spot l' out kinds rest := by
  obtain ⟨key?, houter, hkey⟩ := h.outer
  have hpending : PendingKey.settle l.mark l.pending = .ok l.pending := by
    apply settle_of_near
    have hfits := h.fits
    cases spot with
    | fresh => simp [hfits.1]
    | past => simp [hfits.1]
    | key number =>
      obtain ⟨-, -, -, mark, hp, hline, hnear⟩ := hfits
      rw [hp]
      rintro _ ⟨⟩
      exact ⟨hline.trans h.line.symm, hnear⟩
  obtain ⟨key?', hsettle, hkey'⟩ := settle_flow_key l.mark hkey
  refine ⟨{ l with outerPending := [key?'] }, ?_, ?_⟩
  · simp [Lexer.dropStale, houter, hsettle, hpending, bind, Except.bind, pure, Except.pure]
  · have hholds := h.holds
    exact { h with
      outer := ⟨key?', rfl, hkey'⟩
      holds := ⟨hholds.kinds_eq, hholds.released_eq⟩ }

theorem release (h : InFlow spot l out kinds rest) :
    InFlow spot l.release.2 (out ++ l.release.1) kinds rest := by
  obtain ⟨key?, houter, hkey⟩ := h.outer
  have hfirst : (∀ first ∈ l.firstPending?, first ≤ kinds.length) ∧
      ∀ number, spot = .key number → ∃ first ∈ l.firstPending?, first ≤ number := by
    cases key? with
    | some key =>
      -- The key of the collection would go before the first token, so nothing is released.
      have hzero : l.firstPending? = some 0 := by
        cases hp : l.pending <;> simp [firstPending?, houter, hp, (hkey key rfl).2]
      simp [hzero]
    | none =>
      have hfits := h.fits
      cases spot with
      | fresh => simp [firstPending?, houter, hfits.1]
      | past => simp [firstPending?, houter, hfits.1]
      | key number =>
        obtain ⟨-, -, hle, mark, hp, -⟩ := hfits
        simp [firstPending?, houter, hp, hle]
  obtain ⟨n, hn, hkeep, heq⟩ := h.holds.exists_release hfirst.1
  rw [heq]
  refine { h with holds := h.holds.release hn, fits := ?_ }
  cases spot with
  | fresh => exact h.fits
  | past => exact h.fits
  | key number =>
    obtain ⟨first, hmem, hfirst⟩ := hfirst.2 number rfl
    have hle := hkeep first hmem
    obtain ⟨hallowed, hout, hfits⟩ := h.fits
    refine ⟨hallowed, ?_, hfits⟩
    simp only [List.length_append, List.length_take]
    omega

theorem fetch {c : Char} {t : List Char} (h : InFlow spot l out kinds (c :: t))
    (hc : isGapChar c = false) :
    ∃ l', InFlow spot l' out kinds (c :: t) ∧
      ∀ l'', l'.fetchToken c t = .ok l'' → l''.beyond = none → l.fetch = .ok l'' := by
  obtain ⟨l', hstale, h'⟩ := h.dropStale
  refine ⟨l', h', ?_⟩
  intro l'' hfetch hbeyond
  have hgap := passGap_eq h.rest_eq hc
  have hlook := lookBeyond_eq h.beyond
  have hunroll : l'.unroll l'.mark.column = l' := by simp [unroll, h'.flow]
  have hlook' := lookBeyond_eq hbeyond
  simp [Lexer.fetch, hgap, hlook, hstale, hunroll, h'.rest_eq, hfetch, hlook', bind, Except.bind]

theorem step_of {P : Lexer → List Token → Prop} {c : Char} {t : List Char}
    (h : InFlow spot l out kinds (c :: t)) (hc : isGapChar c = false)
    (fetches : ∀ l out, InFlow spot l out kinds (c :: t) →
      ∃ l', l.fetchToken c t = .ok l' ∧ l'.beyond = none ∧ l'.rest.length ≤ t.length ∧ P l' out) :
    ∃ tokens l', l.Reads tokens l' ∧ P l' (out ++ tokens) := by
  obtain ⟨l₁, hsettle, h₁⟩ := settle_eq h h.dropStale
  obtain ⟨l₂, h₂, hfetch⟩ := h₁.release.fetch hc
  obtain ⟨l', htoken, hbeyond, hle, hp⟩ := fetches l₂ _ h₂
  refine ⟨l₁.release.1, l', ⟨1, ?_, ?_⟩, hp⟩
  · rw [h.rest_eq, List.length_cons]
    omega
  · exact feed_step hsettle h₁.ended (hfetch l' htoken hbeyond)

theorem step {spot' : Spot} {kinds' : List TokenKind} {c : Char} {t t' : List Char}
    (h : InFlow spot l out kinds (c :: t)) (hc : isGapChar c = false) (ht : t'.length ≤ t.length)
    (fetches : ∀ l out, InFlow spot l out kinds (c :: t) →
      ∃ l', l.fetchToken c t = .ok l' ∧ InFlow spot' l' out kinds' t') :
    ∃ tokens l', l.Reads tokens l' ∧ InFlow spot' l' (out ++ tokens) kinds' t' := by
  refine step_of (P := fun l' out' => InFlow spot' l' out' kinds' t') h hc ?_
  intro l out h
  obtain ⟨l', hfetch, h'⟩ := fetches l out h
  exact ⟨l', hfetch, h'.beyond, by rw [h'.rest_eq]; exact ht, h'⟩

theorem advance {spot' : Spot} {w t : List Char} (h : InFlow spot l out kinds rest) (hw : w ≠ [])
    (kind : TokenKind) (pending : Option PendingKey) (keyAllowed : Bool)
    (fits : spot'.Fits
      { l.pushTo kind ⟨t, l.mark.through w⟩ with pending := pending, keyAllowed := keyAllowed } out
      (kinds ++ [kind])) :
    InFlow spot'
      { l.pushTo kind ⟨t, l.mark.through w⟩ with pending := pending, keyAllowed := keyAllowed } out
      (kinds ++ [kind]) t where
  rest_eq := rfl
  line := (Mark.line_through l.mark w).trans h.line
  column := by
    have hlength : 0 < w.length := List.length_pos_iff.mpr hw
    have hcolumn := Mark.column_through l.mark w
    simp only [Lexer.mark, Lexer.pushTo] at hcolumn ⊢
    omega
  beyond := h.beyond
  ended := h.ended
  indent := h.indent
  outerIndents := h.outerIndents
  outer := h.outer
  holds := by
    have hholds := h.holds.pushTo kind ⟨t, l.mark.through w⟩
    exact ⟨hholds.kinds_eq, hholds.released_eq⟩
  fits := fits

theorem saveKey_fresh (h : InFlow .fresh l out kinds rest) :
    l.saveKey = .ok { l with pending := some ⟨false, kinds.length, l.mark⟩ } := by
  obtain ⟨hpending, hallowed⟩ := h.fits
  have hflow : Lexer.flow { l with pending := none, keyAllowed := true } = true := h.flow
  simp [saveKey, hallowed, dropKey, hpending, PendingKey.drop, Except.map, hflow,
    h.holds.length_eq, Lexer.mark]

theorem saveKey_past (h : InFlow .past l out kinds rest) : l.saveKey = .ok l := by
  simp [saveKey, h.fits.2]

theorem dropKey_past (h : InFlow .past l out kinds rest) : l.dropKey = .ok l := by
  have hpending := h.fits.1
  simp only [dropKey, hpending, PendingKey.drop, Except.map]
  rw [← hpending]

end InFlow

theorem fetchToken_quote (l : Lexer) (t : List Char) :
    l.fetchToken '"' t = l.fetchQuoted .double := by
  simp [fetchToken, atDocumentIndicator]

theorem fetchToken_comma (l : Lexer) (t : List Char) : l.fetchToken ',' t = l.fetchFlowEntry := by
  simp [fetchToken, atDocumentIndicator]

theorem fetchToken_close (l : Lexer) (t : List Char) :
    l.fetchToken '\x7d' t = l.fetchFlowEnd .flowMappingEnd := by
  simp [fetchToken, atDocumentIndicator]

theorem fetchToken_colon {l : Lexer} (h : l.flow = true) (t : List Char) :
    l.fetchToken ':' t = l.fetchValue := by
  simp [fetchToken, atDocumentIndicator, h]

theorem not_isNameChar_of_isIndicator {c : Char} (h : isIndicator c = true) :
    isNameChar c = false := by
  have hall : ∀ l : List Char, l.all (fun d => !isNameChar d) = true → c ∈ l →
      isNameChar c = false := by
    intro l hl hc
    simpa using List.all_eq_true.mp hl c hc
  simp only [isIndicator, List.contains_iff_mem] at h
  exact hall _ (by decide) h

theorem not_isGapChar_of_isNameChar {c : Char} (h : isNameChar c = true) :
    isGapChar c = false := by
  simp [isGapChar, not_isBreak_of_isNameChar h, beq_of_isNameChar h, isNameChar]

theorem fetchToken_name {c : Char} (hc : isNameChar c = true) (l : Lexer) (t : List Char) :
    l.fetchToken c t = l.fetchPlain := by
  have hindicator : isIndicator c = false := by
    cases hi : isIndicator c with
    | false => rfl
    | true =>
      have hd := not_isNameChar_of_isIndicator hi
      rw [hc] at hd
      cases hd
  have hdocument : atDocumentIndicator (c :: t) = false := by
    unfold atDocumentIndicator
    split
    · next heq => exact absurd (List.cons.inj heq).1 (ne_of_isNameChar hc rfl)
    · next heq => exact absurd (List.cons.inj heq).1 (ne_of_isNameChar hc rfl)
    · rfl
  have hplain : startsPlain l.flow c t = true := by
    simp [startsPlain, hindicator, isBlank, beq_of_isNameChar hc, isNameChar]
  simp [fetchToken, hdocument, hplain, beq_of_isNameChar hc, isNameChar]

theorem pushIndicator_eq {l : Lexer} {c : Char} {t : List Char} (h : l.rest = c :: t)
    (kind : TokenKind) : l.pushIndicator kind 1 = l.pushTo kind ⟨t, l.mark.through [c]⟩ := by
  have hrest : l.cursor.rest = c :: t := h
  simp [pushIndicator, Cursor.skip, hrest, Lexer.mark]

theorem fetchFlowEntry_eq {l : Lexer} {t : List Char} (drop : l.dropKey = .ok l)
    (rest : l.rest = ',' :: t) :
    l.fetchFlowEntry =
      .ok { l.pushTo .flowEntry ⟨t, l.mark.through [',']⟩ with keyAllowed := true } := by
  rw [← pushIndicator_eq rest, fetchFlowEntry, drop]
  rfl

theorem fetchValue_eq {l : Lexer} {key : PendingKey} {t : List Char} (flow : l.flow = true)
    (pending : l.pending = some key) (rest : l.rest = ':' :: t) :
    l.fetchValue = .ok { (l.insert key.number .key key.mark).pushTo .value
      ⟨t, l.mark.through [':']⟩ with pending := none, keyAllowed := false } := by
  have hflow : (l.insert key.number .key key.mark).flow = true := flow
  have hroll : (l.insert key.number .key key.mark).roll key.number .blockMappingStart key.mark =
      l.insert key.number .key key.mark := by
    simp [roll, hflow]
  have hrest : (l.insert key.number .key key.mark).rest = ':' :: t := rest
  have hpush := pushIndicator_eq hrest .value
  simp only [fetchValue, pending, hroll, hpush]
  rfl

theorem fetchQuoted_eq {l l' : Lexer} {s t : List Char} (save : l.saveKey = .ok l')
    (hs : ∀ c ∈ s, IsSafe c) (rest : l'.rest = Json.literalChars s ++ t) :
    l.fetchQuoted .double = .ok { l'.pushTo (.scalar s .quoted)
      ⟨t, l'.mark.through (Json.literalChars s)⟩ with keyAllowed := false } := by
  simp only [fetchQuoted, fetchNode, save, cursor_eq rest, readQuoted_literal hs]
  rfl

theorem fetchPlain_of_read {l l' : Lexer} {w : List Char} {broken : Bool} {c : Cursor}
    (save : l.saveKey = .ok l')
    (read : readPlain l'.flow (l'.indent + 1) l'.cursor = .ok (w, broken, c)) :
    l.fetchPlain = .ok { l'.pushTo (.scalar w .plain) c with keyAllowed := broken } := by
  simp only [fetchPlain, save, read]
  rfl

theorem fetchPlain_eq {l l' : Lexer} {w t : List Char} {c : Char} (save : l.saveKey = .ok l')
    (flow : l'.flow = true) (hw : Json.AllDigits w) (hc : c = ',' ∨ c = '\x7d')
    (rest : l'.rest = w ++ c :: t) :
    l.fetchPlain = .ok { l'.pushTo (.scalar w .plain)
      ⟨c :: t, l'.mark.through w⟩ with keyAllowed := false } := by
  apply fetchPlain_of_read save
  rw [flow, cursor_eq rest]
  exact readPlain_digits hw _ _ hc t

/-! ### The end of the text -/

structure Ending (l : Lexer) (out : List Token) (kinds : List TokenKind) : Prop where
  rest_eq : l.rest = []
  beyond : l.beyond = none
  ended : l.ended = false
  indent : l.indent = -1
  outerIndents : l.outerIndents = []
  outer : l.outerPending = []
  key : ∀ key ∈ l.pending, key.required = false ∧ key.number = 0
  holds : l.Holds out kinds

namespace Ending

variable {l : Lexer} {out : List Token} {kinds : List TokenKind}

theorem dropStale (h : Ending l out kinds) :
    ∃ l', l.dropStale = .ok l' ∧ Ending l' out kinds := by
  obtain ⟨key?, hsettle, hkey⟩ := settle_flow_key l.mark h.key
  refine ⟨{ l with pending := key? }, ?_, ?_⟩
  · simp [Lexer.dropStale, h.outer, hsettle, bind, Except.bind, pure, Except.pure]
  · have hholds := h.holds
    exact { h with key := hkey, holds := ⟨hholds.kinds_eq, hholds.released_eq⟩ }

theorem release (h : Ending l out kinds) : Ending l.release.2 (out ++ l.release.1) kinds := by
  cases hp : l.pending with
  | some key =>
    have hzero : l.firstPending? = some 0 := by
      simp [firstPending?, h.outer, hp, (h.key key hp).2]
    rw [release_of_some hzero]
    exact { h with holds := h.holds.release (by omega) }
  | none =>
    have hnone : l.firstPending? = none := by simp [firstPending?, h.outer, hp]
    rw [release_of_none hnone]
    exact { h with holds := h.holds.release (Nat.le_refl _) }

theorem unroll (h : Ending l out kinds) (column : Int) : l.unroll column = l := by
  have hi := h.indent
  have ho := h.outerIndents
  have hflow : l.flow = false := by simp [Lexer.flow, h.outer]
  have hclosing : closing column l.indent l.outerIndents = (0, l.indent, l.outerIndents) := by
    rw [hi, ho]
    rfl
  simp [Lexer.unroll, hflow, hclosing]

theorem dropKey (h : Ending l out kinds) : l.dropKey = .ok { l with pending := none } := by
  cases hp : l.pending with
  | none => simp [Lexer.dropKey, hp, PendingKey.drop, Except.map]
  | some key => simp [Lexer.dropKey, hp, PendingKey.drop, (h.key key hp).1, Except.map]

theorem fetchStreamEnd (h : Ending l out kinds) :
    ∃ l', l.fetchStreamEnd = .ok l' ∧ l'.ended = true ∧ l'.pending = none ∧
      l'.outerPending = [] ∧ l'.Holds out (kinds ++ [.streamEnd]) := by
  have hmoved (mark : Mark) : Ending { l with cursor := ⟨[], mark⟩ } out kinds := by
    have hholds := h.holds
    exact { h with rest_eq := rfl, holds := ⟨hholds.kinds_eq, hholds.released_eq⟩ }
  unfold Lexer.fetchStreamEnd
  dsimp only
  generalize (if l.mark.column = 0 then l.mark else l.mark.nextLine 0) = mark
  have hholds := (hmoved mark).holds.pushTo .streamEnd ⟨[], mark⟩
  rw [(hmoved mark).unroll, (hmoved mark).dropKey]
  exact ⟨_, rfl, rfl, rfl, h.outer, hholds.kinds_eq, hholds.released_eq⟩

theorem fetch (h : Ending l out kinds) :
    ∃ l', l.fetch = .ok l' ∧ l'.ended = true ∧ l'.pending = none ∧ l'.outerPending = [] ∧
      l'.Holds out (kinds ++ [.streamEnd]) := by
  obtain ⟨l₁, hstale, h₁⟩ := h.dropStale
  obtain ⟨l₂, hend, h₂⟩ := h₁.fetchStreamEnd
  have hgap := passGap_nil h.rest_eq
  have hlook := lookBeyond_eq h.beyond
  have hunroll := h₁.unroll l₁.mark.column
  refine ⟨l₂, ?_, h₂⟩
  simp [Lexer.fetch, hgap, hlook, hstale, hunroll, h₁.rest_eq, hend, bind, Except.bind]

theorem feed (h : Ending l out kinds) (fuel : Nat) :
    ∃ tokens, l.feed (fuel + 2) = ⟨tokens, none⟩ ∧
      (out ++ tokens).map Token.kind = kinds ++ [.streamEnd] := by
  obtain ⟨l₁, hsettle, h₁⟩ := settle_eq h h.dropStale
  obtain ⟨l₂, hfetch, hended, hpending, houter, hholds⟩ := h₁.release.fetch
  refine ⟨l₁.release.1 ++ l₂.held, ?_, ?_⟩
  · rw [feed_step hsettle h₁.ended hfetch, feed_ended hended hpending houter]
  · rw [← List.append_assoc]
    exact hholds.kinds_eq

end Ending
end Lexer
end Roster.Yaml
