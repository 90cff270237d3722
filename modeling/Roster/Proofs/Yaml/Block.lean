import Roster.Proofs.Yaml.Lexer

/-! Tokens of a mapping in block style. Its first key starts it, and only at the end of the text it
is closed. Each later key stands at the indentation of the mapping, where nothing but a key may
stand. -/
namespace Roster.Yaml

namespace Lexer

/-! ### Gaps -/

def NoGap (t : List Char) : Prop := ∀ c ∈ t.head?, isGapChar c = false

theorem noGap_nil : NoGap [] := by
  simp [NoGap]

theorem noGap_cons {c : Char} {t : List Char} (hc : isGapChar c = false) : NoGap (c :: t) := by
  simpa [NoGap] using hc

theorem passGap_of_noGap {l : Lexer} {t : List Char} (rest : l.rest = t) (h : NoGap t) :
    l.passGap = l := by
  cases t with
  | nil => exact passGap_nil rest
  | cons c t => exact passGap_eq rest (h c rfl)

theorem passGap_space {l : Lexer} {t : List Char} (rest : l.rest = ' ' :: t) (h : NoGap t) :
    l.passGap = { l with cursor := ⟨t, l.mark.next ' '⟩ } := by
  have hclean := passGap_of_noGap (l := { l with cursor := ⟨t, l.mark.next ' '⟩ }) rfl h
  have hskip : skipGap l.flow l.keyAllowed l.cursor =
      skipGap l.flow l.keyAllowed ⟨t, l.mark.next ' '⟩ := by
    rw [cursor_eq rest]
    simp [skipGap, skipGapFrom, isBreak, isHalfBreak, Mark.past]
  rw [← hclean]
  simp only [passGap, hskip]
  rfl

theorem passGap_break {l : Lexer} {t : List Char} (rest : l.rest = '\n' :: t)
    (flow : l.flow = false) (h : NoGap t) :
    l.passGap = { l with keyAllowed := true, cursor := ⟨t, l.mark.nextLine 1⟩ } := by
  have hclean := passGap_of_noGap
    (l := { l with keyAllowed := true, cursor := ⟨t, l.mark.nextLine 1⟩ }) rfl h
  have hskip : skipGap l.flow l.keyAllowed l.cursor =
      skipGap l.flow true ⟨t, l.mark.nextLine 1⟩ := by
    rw [cursor_eq rest]
    simp [skipGap, skipGapFrom, isBreak, isHalfBreak, Mark.past, flow, Char.utf8Size]
  rw [← hclean]
  simp only [passGap, hskip]
  rfl

/-- A gap may be passed at once, as the next step would pass it anyway. -/
theorem feed_passGap {l : Lexer} (pending : l.pending = none) (outer : l.outerPending = [])
    (clean : NoGap l.passGap.rest) (fuel : Nat) : l.feed fuel = l.passGap.feed fuel := by
  cases fuel with
  | zero => rfl
  | succ fuel =>
    have hstale : l.dropStale = .ok l := dropStale_eq outer (by rw [pending]; rfl)
    have hstale' : l.passGap.dropStale = .ok l.passGap :=
      dropStale_eq outer (by
        have hp : l.passGap.pending = none := pending
        rw [hp]
        rfl)
    have hfetch : l.passGap.release.2.fetch = l.release.2.fetch := by
      have hpassed : l.passGap.release.2.passGap = l.release.2.passGap :=
        passGap_of_noGap (l := l.passGap.release.2) rfl clean
      simp only [fetch, hpassed]
    have hheld : l.passGap.held = l.held := rfl
    have hended : l.passGap.release.2.ended = l.release.2.ended := rfl
    have hout : l.passGap.release.1 = l.release.1 := rfl
    simp only [feed, hstale, hstale', hheld, ite_self, hended, hout, hfetch]

theorem Reads.passGap {l l' : Lexer} {tokens : List Token} (h : l.Reads tokens l')
    (pending : l'.pending = none) (outer : l'.outerPending = []) (clean : NoGap l'.passGap.rest)
    (shorter : l'.passGap.rest.length ≤ l'.rest.length) : l.Reads tokens l'.passGap := by
  obtain ⟨n, hn, hfeed⟩ := h
  refine ⟨n, by omega, ?_⟩
  intro fuel
  rw [hfeed fuel, feed_passGap pending outer clean]

/-! ### Inside of one block mapping -/

def opening (opened : Bool) : List TokenKind := if opened then [] else [.blockMappingStart]

/-- Where the cursor is: at the start of a line, behind a key, or in front of a value. Once the
mapping has begun, a key that starts a line is required to be one. -/
def Spot.FitsBlock (opened : Bool) (l : Lexer) (out : List Token) (kinds : List TokenKind) :
    Spot → Prop
  | fresh => l.pending = none ∧ l.keyAllowed = true ∧ l.mark.column = 0
  | key number => l.keyAllowed = false ∧ out.length ≤ number ∧ number ≤ kinds.length ∧
      ∃ mark, l.pending = some ⟨opened, number, mark⟩ ∧ mark.column = 0 ∧
        mark.line = l.mark.line ∧ l.mark.offset ≤ mark.offset + PendingKey.maxLength
  | past => l.pending = none ∧ l.keyAllowed = false

/-- The lexer is in a block mapping that has begun or is about to, with `rest` before it. -/
structure InBlock (opened : Bool) (spot : Spot) (l : Lexer) (out : List Token)
    (kinds : List TokenKind) (rest : List Char) : Prop where
  rest_eq : l.rest = rest
  clean : NoGap rest
  beyond : l.beyond = none
  ended : l.ended = false
  indent : l.indent = if opened then 0 else -1
  outerIndents : l.outerIndents = if opened then [-1] else []
  outer : l.outerPending = []
  holds : l.Holds out kinds
  fits : spot.FitsBlock opened l out kinds

namespace InBlock

variable {opened : Bool} {spot : Spot} {l : Lexer} {out : List Token} {kinds : List TokenKind}
  {rest : List Char}

theorem flow (h : InBlock opened spot l out kinds rest) : l.flow = false := by
  simp [Lexer.flow, h.outer]

theorem dropStale (h : InBlock opened spot l out kinds rest) : l.dropStale = .ok l := by
  apply dropStale_eq h.outer
  apply settle_of_near
  have hfits := h.fits
  cases spot with
  | fresh => simp [hfits.1]
  | past => simp [hfits.1]
  | key number =>
    obtain ⟨-, -, -, mark, hp, -, hline, hnear⟩ := hfits
    rw [hp]
    rintro _ ⟨⟩
    exact ⟨hline, hnear⟩

theorem unroll (h : InBlock opened spot l out kinds rest) : l.unroll l.mark.column = l := by
  have hclosing : closing l.mark.column l.indent l.outerIndents =
      (0, l.indent, l.outerIndents) := by
    rw [h.indent, h.outerIndents]
    cases opened with
    | false => rfl
    | true =>
      have hcolumn : ¬ (l.mark.column : Int) < 0 := by omega
      simp [closing, hcolumn]
  simp [Lexer.unroll, h.flow, hclosing]

theorem release (h : InBlock opened spot l out kinds rest) :
    InBlock opened spot l.release.2 (out ++ l.release.1) kinds rest := by
  have hfirst : (∀ first ∈ l.firstPending?, first ≤ kinds.length) ∧
      ∀ number, spot = .key number → number ∈ l.firstPending? := by
    have hfits := h.fits
    cases spot with
    | fresh => simp [firstPending?, h.outer, hfits.1]
    | past => simp [firstPending?, h.outer, hfits.1]
    | key number =>
      obtain ⟨-, -, hle, mark, hp, -⟩ := hfits
      simp [firstPending?, h.outer, hp, hle]
  obtain ⟨n, hn, hkeep, heq⟩ := h.holds.exists_release hfirst.1
  rw [heq]
  refine { h with holds := h.holds.release hn, fits := ?_ }
  cases spot with
  | fresh => exact h.fits
  | past => exact h.fits
  | key number =>
    have hle := hkeep number (hfirst.2 number rfl)
    obtain ⟨hallowed, hout, hfits⟩ := h.fits
    refine ⟨hallowed, ?_, hfits⟩
    simp only [List.length_append, List.length_take]
    omega

theorem fetch {c : Char} {t : List Char} (h : InBlock opened spot l out kinds (c :: t))
    {l' : Lexer} (token : l.fetchToken c t = .ok l') (beyond : l'.beyond = none) :
    l.fetch = .ok l' := by
  have hgap := passGap_of_noGap h.rest_eq h.clean
  have hlook := lookBeyond_eq h.beyond
  have hlook' := lookBeyond_eq beyond
  simp [Lexer.fetch, hgap, hlook, h.dropStale, h.unroll, h.rest_eq, token, hlook', bind,
    Except.bind]

theorem step_of {P : Lexer → List Token → Prop} {c : Char} {t : List Char}
    (h : InBlock opened spot l out kinds (c :: t))
    (fetches : ∀ l out, InBlock opened spot l out kinds (c :: t) →
      ∃ l', l.fetchToken c t = .ok l' ∧ l'.beyond = none ∧ l'.rest.length ≤ t.length ∧ P l' out) :
    ∃ tokens l', l.Reads tokens l' ∧ P l' (out ++ tokens) := by
  obtain ⟨l', htoken, hbeyond, hle, hp⟩ := fetches _ _ h.release
  have hsettle : (if l.held = [] then .ok l else l.dropStale) = .ok l := by
    rw [h.dropStale, ite_self]
  refine ⟨l.release.1, l', ⟨1, ?_, ?_⟩, hp⟩
  · rw [h.rest_eq, List.length_cons]
    omega
  · exact feed_step hsettle h.ended (h.release.fetch htoken hbeyond)

theorem step {opened' : Bool} {spot' : Spot} {kinds' : List TokenKind} {c : Char} {t t' : List Char}
    (h : InBlock opened spot l out kinds (c :: t)) (ht : t'.length ≤ t.length)
    (fetches : ∀ l out, InBlock opened spot l out kinds (c :: t) →
      ∃ l', l.fetchToken c t = .ok l' ∧ InBlock opened' spot' l' out kinds' t') :
    ∃ tokens l', l.Reads tokens l' ∧ InBlock opened' spot' l' (out ++ tokens) kinds' t' := by
  refine step_of (P := fun l' out' => InBlock opened' spot' l' out' kinds' t') h ?_
  intro l out h
  obtain ⟨l', hfetch, h'⟩ := fetches l out h
  exact ⟨l', hfetch, h'.beyond, by rw [h'.rest_eq]; exact ht, h'⟩

theorem step_gap {opened' : Bool} {spot' : Spot} {kinds' : List TokenKind} {c : Char}
    {t t' : List Char} (h : InBlock opened spot l out kinds (c :: t))
    (fetches : ∀ l out, InBlock opened spot l out kinds (c :: t) →
      ∃ l', l.fetchToken c t = .ok l' ∧ l'.pending = none ∧ t'.length ≤ l'.rest.length ∧
        l'.rest.length ≤ t.length ∧ InBlock opened' spot' l'.passGap out kinds' t') :
    ∃ tokens l', l.Reads tokens l' ∧ InBlock opened' spot' l' (out ++ tokens) kinds' t' := by
  obtain ⟨tokens, l', hreads, hpending, hle, h'⟩ := step_of
    (P := fun l' out' => l'.pending = none ∧ t'.length ≤ l'.rest.length ∧
      InBlock opened' spot' l'.passGap out' kinds' t') h (by
    intro l out h
    obtain ⟨l', hfetch, hpending, hle, hle', h'⟩ := fetches l out h
    exact ⟨l', hfetch, h'.beyond, hle', hpending, hle, h'⟩)
  have hrest := h'.rest_eq
  refine ⟨tokens, l'.passGap, hreads.passGap hpending h'.outer ?_ ?_, h'⟩
  · rw [hrest]
    exact h'.clean
  · rw [hrest]
    exact hle

theorem out_le (h : InBlock opened spot l out kinds rest) : out.length ≤ kinds.length := by
  rw [h.holds.length_eq, h.holds.released_eq]
  omega

/-- At the start of a line a key can start; it has to if the mapping has begun. -/
theorem saveKey_fresh (h : InBlock opened .fresh l out kinds rest) :
    l.saveKey = .ok { l with pending := some ⟨opened, kinds.length, l.mark⟩ } := by
  obtain ⟨hpending, hallowed, hcolumn⟩ := h.fits
  have hflow : Lexer.flow { l with pending := none, keyAllowed := true } = false := h.flow
  have hrequired : (l.indent == (l.mark.column : Int)) = opened := by
    rw [h.indent, hcolumn]
    cases opened <;> rfl
  have hrequired' : (l.indent == (l.cursor.mark.column : Int)) = opened := hrequired
  simp [saveKey, hallowed, dropKey, hpending, PendingKey.drop, Except.map, hflow,
    h.holds.length_eq, Lexer.mark, hrequired']

theorem saveKey_past (h : InBlock opened .past l out kinds rest) : l.saveKey = .ok l := by
  simp [saveKey, h.fits.2]

/-- The key token goes in front of the key; in front of the first one the mapping starts. -/
theorem roll {number : Nat} (h : InBlock opened (.key number) l out kinds rest) {mark : Mark}
    (column : mark.column = 0) :
    ∃ l', (l.insert number .key mark).roll number .blockMappingStart mark = l' ∧
      l'.cursor = l.cursor ∧ l'.beyond = none ∧ l'.ended = false ∧ l'.indent = 0 ∧
      l'.outerIndents = [-1] ∧ l'.outerPending = [] ∧
      l'.Holds out (kinds.take number ++ (opening opened ++ .key :: kinds.drop number)) := by
  obtain ⟨-, hout, hle, -⟩ := h.fits
  have hkey := h.holds.insert hout .key mark
  have hflow : (l.insert number .key mark).flow = false := h.flow
  cases opened with
  | true =>
    have hindent : (l.insert number .key mark).indent = 0 := h.indent
    have hroll : (l.insert number .key mark).roll number .blockMappingStart mark =
        l.insert number .key mark := by
      simp [Lexer.roll, hindent, column]
    exact ⟨_, hroll, rfl, h.beyond, h.ended, hindent, h.outerIndents, h.outer, hkey⟩
  | false =>
    have hindent : (l.insert number .key mark).indent = -1 := h.indent
    have houters : (l.insert number .key mark).outerIndents = [] := h.outerIndents
    have hroll : (l.insert number .key mark).roll number .blockMappingStart mark =
        Lexer.insert { l.insert number .key mark with indent := 0, outerIndents := [-1] } number
          .blockMappingStart mark := by
      simp [Lexer.roll, hindent, houters, hflow, column]
    have hstart := hkey.insert hout .blockMappingStart mark
    have hlength : (kinds.take number).length = number := by simp [hle]
    rw [List.take_left' hlength, List.drop_left' hlength] at hstart
    exact ⟨_, hroll, rfl, h.beyond, h.ended, rfl, rfl, h.outer, hstart.kinds_eq,
      hstart.released_eq⟩

theorem endLine {t : List Char} (h : InBlock true .past l out kinds rest) (clean : NoGap t)
    (kind : TokenKind) (c : Cursor) {mark : Mark} (column : mark.column = 0) :
    InBlock true .fresh { l.pushTo kind c with keyAllowed := true, cursor := ⟨t, mark⟩ } out
      (kinds ++ [kind]) t where
  rest_eq := rfl
  clean := clean
  beyond := h.beyond
  ended := h.ended
  indent := h.indent
  outerIndents := h.outerIndents
  outer := h.outer
  holds := by
    have hholds := h.holds.pushTo kind c
    exact ⟨hholds.kinds_eq, hholds.released_eq⟩
  fits := ⟨h.fits.1, rfl, column⟩

theorem fetchStreamEnd (h : InBlock true .fresh l out kinds []) :
    ∃ l', l.fetchStreamEnd = .ok l' ∧ l'.ended = true ∧ l'.pending = none ∧
      l'.outerPending = [] ∧ l'.Holds out (kinds ++ [.blockEnd, .streamEnd]) := by
  obtain ⟨hpending, -, hcolumn⟩ := h.fits
  have hindent : l.indent = 0 := h.indent
  have houters : l.outerIndents = [-1] := h.outerIndents
  have hunroll : l.unroll (-1) = { l.pushTo .blockEnd l.cursor with
      indent := -1, outerIndents := [] } := by
    simp [Lexer.unroll, h.flow, hindent, houters, closing, Lexer.pushTo, Lexer.mark]
  have hcursor : { l with cursor := ⟨[], l.mark⟩ } = l := by
    rw [← h.rest_eq]
    rfl
  have hholds := (h.holds.pushTo .blockEnd l.cursor).pushTo .streamEnd l.cursor
  rw [List.append_assoc] at hholds
  refine ⟨{ (l.pushTo .blockEnd l.cursor).pushTo .streamEnd l.cursor with
      indent := -1, outerIndents := [], pending := none, keyAllowed := false, ended := true }, ?_,
    rfl, rfl, h.outer, hholds.kinds_eq, hholds.released_eq⟩
  have hdrop : dropKey { l.pushTo .blockEnd l.cursor with indent := -1, outerIndents := [] } =
      .ok { l.pushTo .blockEnd l.cursor with
        indent := -1, outerIndents := [], pending := none } := by
    simp [dropKey, Lexer.pushTo, hpending, PendingKey.drop, Except.map]
  simp only [Lexer.fetchStreamEnd, if_pos hcolumn, hcursor, hunroll, hdrop]
  rfl

theorem feed (h : InBlock true .fresh l out kinds []) (fuel : Nat) :
    ∃ tokens, l.feed (fuel + 2) = ⟨tokens, none⟩ ∧
      (out ++ tokens).map Token.kind = kinds ++ [.blockEnd, .streamEnd] := by
  obtain ⟨l', hend, hended, hpending, houter, hholds⟩ := h.release.fetchStreamEnd
  have hfetch : l.release.2.fetch = .ok l' := by
    have hgap := passGap_of_noGap h.release.rest_eq noGap_nil
    have hlook := lookBeyond_eq h.release.beyond
    simp [Lexer.fetch, hgap, hlook, h.release.dropStale, h.release.unroll, h.release.rest_eq, hend,
      bind, Except.bind]
  have hsettle : (if l.held = [] then .ok l else l.dropStale) = .ok l := by
    rw [h.dropStale, ite_self]
  refine ⟨l.release.1 ++ l'.held, ?_, ?_⟩
  · rw [feed_step hsettle h.ended hfetch, feed_ended hended hpending houter]
  · rw [← List.append_assoc]
    exact hholds.kinds_eq

end InBlock

theorem inBlock_ofSource {t : List Char} (clean : NoGap t) :
    InBlock false .fresh (ofSource ⟨t, none⟩) [] [] t where
  rest_eq := rfl
  clean := clean
  beyond := rfl
  ended := rfl
  indent := rfl
  outerIndents := rfl
  outer := rfl
  holds := ⟨rfl, rfl⟩
  fits := ⟨rfl, rfl, rfl⟩

end Lexer
end Roster.Yaml
