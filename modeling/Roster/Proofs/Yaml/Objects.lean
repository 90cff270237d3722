import Roster.Proofs.Yaml.Lexer
import Roster.Yaml.Document

/-! Printed JSON objects of texts and numbers, as YAML: every object is a flow mapping of the same
keys and values, and the document it makes holds these one after the other. -/
namespace Roster.Yaml

/-! ## Tokens of an object -/

inductive Leaf where
  | text (s : List Char)
  | number (n : Nat)

namespace Leaf

def chars : Leaf → List Char
  | text s => Json.literalChars s
  | number n => (Text.numeral n).toList

def content : Leaf → List Char
  | text s => s
  | number n => (Text.numeral n).toList

def style : Leaf → Style
  | text _ => .quoted
  | number _ => .plain

def token (v : Leaf) : TokenKind := .scalar v.content v.style

def IsSafe : Leaf → Prop
  | text s => ∀ c ∈ s, Yaml.IsSafe c
  | number _ => True

theorem IsSafe.safe_chars {v : Leaf} (h : v.IsSafe) : ∀ c ∈ v.chars, Yaml.IsSafe c := by
  cases v with
  | text s => exact safe_literal h
  | number n =>
    intro c hc
    exact safe_of_isNameChar (isNameChar_of_isDigit (Text.isDigit_of_mem_numeral hc))

end Leaf

structure Member where
  key : List Char
  value : Leaf

namespace Member

def chars (m : Member) : List Char := Json.literalChars m.key ++ ':' :: m.value.chars

def tokens (m : Member) : List TokenKind :=
  [.key, .scalar m.key .quoted, .value, m.value.token]

structure IsSafe (m : Member) : Prop where
  key : ∀ c ∈ m.key, Yaml.IsSafe c
  near : Json.byteCount (Json.literalChars m.key) ≤ PendingKey.maxLength
  value : m.value.IsSafe

end Member

namespace Lexer
namespace InFlow

variable {spot : Spot} {l : Lexer} {out : List Token} {kinds : List TokenKind} {rest : List Char}

theorem out_le (h : InFlow spot l out kinds rest) : out.length ≤ kinds.length := by
  rw [h.holds.length_eq, h.holds.released_eq]
  omega

theorem readKey {s t : List Char} (h : InFlow .fresh l out kinds (Json.literalChars s ++ t))
    (hs : ∀ c ∈ s, IsSafe c)
    (near : Json.byteCount (Json.literalChars s) ≤ PendingKey.maxLength) :
    ∃ tokens l', l.Reads tokens l' ∧
      InFlow (.key kinds.length) l' (out ++ tokens) (kinds ++ [.scalar s .quoted]) t := by
  apply step (c := '"') (t := s.flatMap Json.escape ++ ['"'] ++ t) h rfl (by simp; omega)
  intro l out h
  have hfetch := fetchQuoted_eq h.saveKey_fresh hs h.rest_eq
  have hnear : (l.mark.through (Json.literalChars s)).offset ≤
      l.mark.offset + PendingKey.maxLength := by
    rw [Mark.offset_through]
    omega
  refine ⟨_, (fetchToken_quote l _).trans hfetch, ?_⟩
  apply h.advance (Json.literalChars_ne_nil s) (.scalar s .quoted)
    (some ⟨false, kinds.length, l.mark⟩)
  exact ⟨rfl, h.out_le, by simp, l.mark, rfl, h.line, hnear⟩

theorem readColon {number : Nat} {t : List Char} (h : InFlow (.key number) l out kinds (':' :: t)) :
    ∃ tokens l', l.Reads tokens l' ∧
      InFlow .past l' (out ++ tokens) (kinds.take number ++ .key :: kinds.drop number ++ [.value])
        t := by
  apply step h rfl (Nat.le_refl _)
  intro l out h
  obtain ⟨hallowed, hout, hle, mark, hpending, hline, hnear⟩ := h.fits
  have hfits : (Spot.key number).Fits (l.insert number .key mark) out
      (kinds.take number ++ .key :: kinds.drop number) := by
    refine ⟨hallowed, hout, ?_, mark, hpending, hline, hnear⟩
    simp only [List.length_append, List.length_take, List.length_cons]
    omega
  have hinsert : InFlow (.key number) (l.insert number .key mark) out
      (kinds.take number ++ .key :: kinds.drop number) (':' :: t) :=
    { h with holds := h.holds.insert hout .key mark, fits := hfits }
  have hfetch := fetchValue_eq h.flow hpending h.rest_eq
  refine ⟨_, (fetchToken_colon h.flow t).trans hfetch, ?_⟩
  exact hinsert.advance (w := [':']) (by simp) .value none false ⟨rfl, rfl⟩

theorem readValue {v : Leaf} {c : Char} {t : List Char}
    (h : InFlow .past l out kinds (v.chars ++ c :: t)) (hv : v.IsSafe) (hc : c = ',' ∨ c = '\x7d') :
    ∃ tokens l', l.Reads tokens l' ∧
      InFlow .past l' (out ++ tokens) (kinds ++ [v.token]) (c :: t) := by
  cases v with
  | text s =>
    apply step (c := '"') (t := s.flatMap Json.escape ++ ['"'] ++ c :: t) h rfl (by simp; omega)
    intro l out h
    have hfetch := fetchQuoted_eq h.saveKey_past hv h.rest_eq
    refine ⟨_, (fetchToken_quote l _).trans hfetch, ?_⟩
    exact h.advance (Json.literalChars_ne_nil s) (.scalar s .quoted) l.pending false
      ⟨h.fits.1, rfl⟩
  | number n =>
    have hform := (Json.wholeNumber_numeral n).form
    have hdigits := hform.allDigits
    have hne := hform.ne_nil
    simp only [Leaf.chars, Leaf.token, Leaf.content, Leaf.style] at h ⊢
    cases hw : (Text.numeral n).toList with
    | nil => exact absurd hw hne
    | cons d w =>
      rw [hw] at h hdigits
      have hd : isNameChar d = true := isNameChar_of_isDigit hdigits.head
      apply step (c := d) (t := w ++ c :: t) h (not_isGapChar_of_isNameChar hd) (by simp)
      intro l out h
      have hfetch := fetchPlain_eq h.saveKey_past h.flow hdigits hc h.rest_eq
      refine ⟨_, (fetchToken_name hd l _).trans hfetch, ?_⟩
      exact h.advance (List.cons_ne_nil _ _) (.scalar (d :: w) .plain) l.pending false
        ⟨h.fits.1, rfl⟩

theorem readComma {t : List Char} (h : InFlow .past l out kinds (',' :: t)) :
    ∃ tokens l', l.Reads tokens l' ∧
      InFlow .fresh l' (out ++ tokens) (kinds ++ [.flowEntry]) t := by
  apply step h rfl (Nat.le_refl _)
  intro l out h
  have hfetch := fetchFlowEntry_eq h.dropKey_past h.rest_eq
  refine ⟨_, (fetchToken_comma l t).trans hfetch, ?_⟩
  exact h.advance (w := [',']) (by simp) .flowEntry l.pending true ⟨h.fits.1, rfl⟩

theorem readMember {m : Member} {c : Char} {t : List Char}
    (h : InFlow .fresh l out kinds (m.chars ++ c :: t)) (hm : m.IsSafe)
    (hc : c = ',' ∨ c = '\x7d') :
    ∃ tokens l', l.Reads tokens l' ∧
      InFlow .past l' (out ++ tokens) (kinds ++ m.tokens) (c :: t) := by
  rw [Member.chars, List.append_assoc, List.cons_append] at h
  obtain ⟨tokens₁, l₁, hreads₁, h₁⟩ := h.readKey hm.key hm.near
  obtain ⟨tokens₂, l₂, hreads₂, h₂⟩ := h₁.readColon
  obtain ⟨tokens₃, l₃, hreads₃, h₃⟩ := h₂.readValue hm.value hc
  refine ⟨_, l₃, (hreads₁.trans hreads₂).trans hreads₃, ?_⟩
  simpa [Member.tokens] using h₃

theorem trail_eq_cons (members : List Member) :
    ∃ c t, (c = ',' ∨ c = '\x7d') ∧ Json.trail (members.map Member.chars) = c :: t := by
  cases members with
  | nil => exact ⟨_, _, .inr rfl, rfl⟩
  | cons m members => exact ⟨_, _, .inl rfl, rfl⟩

theorem readTrail {members : List Member}
    (h : InFlow .past l out kinds (Json.trail (members.map Member.chars)))
    (safe : ∀ m ∈ members, m.IsSafe) :
    ∃ tokens l', l.Reads tokens l' ∧
      InFlow .past l' (out ++ tokens)
        (kinds ++ members.flatMap fun m => .flowEntry :: m.tokens) ['\x7d'] := by
  induction members generalizing l out kinds with
  | nil =>
    refine ⟨[], l, .refl l, ?_⟩
    simpa [Json.trail] using h
  | cons m members ih =>
    obtain ⟨c, t, hc, ht⟩ := trail_eq_cons members
    have hrest : Json.trail ((m :: members).map Member.chars) = ',' :: (m.chars ++ c :: t) := by
      rw [← ht]
      simp [Json.trail]
    rw [hrest] at h
    obtain ⟨tokens₁, l₁, hreads₁, h₁⟩ := h.readComma
    obtain ⟨tokens₂, l₂, hreads₂, h₂⟩ := h₁.readMember (safe m List.mem_cons_self) hc
    rw [← ht] at h₂
    obtain ⟨tokens₃, l₃, hreads₃, h₃⟩ := ih h₂ fun m' hm' => safe m' (List.mem_cons_of_mem _ hm')
    refine ⟨_, l₃, (hreads₁.trans hreads₂).trans hreads₃, ?_⟩
    simpa using h₃

theorem readClose (h : InFlow .past l out kinds ['\x7d']) :
    ∃ tokens l', l.Reads tokens l' ∧ Ending l' (out ++ tokens) (kinds ++ [.flowMappingEnd]) := by
  refine step_of (P := fun l' out' => Ending l' out' (kinds ++ [.flowMappingEnd])) h rfl ?_
  intro l out h
  obtain ⟨key?, houter, hkey⟩ := h.outer
  have hholds := h.holds.pushTo .flowMappingEnd ⟨[], l.mark.through ['\x7d']⟩
  have hfetch : l.fetchToken '\x7d' [] = .ok
      { l.pushTo .flowMappingEnd ⟨[], l.mark.through ['\x7d']⟩ with
        pending := key?, outerPending := [], keyAllowed := false } := by
    rw [fetchToken_close, fetchFlowEnd, h.dropKey_past, ← pushIndicator_eq h.rest_eq]
    simp [Except.map, houter]
  refine ⟨_, hfetch, h.beyond, Nat.le_refl _, ?_⟩
  exact {
    rest_eq := rfl
    beyond := h.beyond
    ended := h.ended
    indent := h.indent
    outerIndents := h.outerIndents
    outer := rfl
    key := hkey
    holds := ⟨hholds.kinds_eq, hholds.released_eq⟩ }

end InFlow

theorem ofSource_reads (t : List Char) :
    ∃ l', (ofSource ⟨'\x7b' :: t, none⟩).Reads [] l' ∧
      InFlow .fresh l' [] [.flowMappingStart] t := by
  have hfetch : (ofSource ⟨'\x7b' :: t, none⟩).release.2.fetch = .ok
      { (ofSource ⟨'\x7b' :: t, none⟩).pushTo .flowMappingStart ⟨t, Mark.start.next '\x7b'⟩ with
        outerPending := [some ⟨false, 0, .start⟩] } := by
    rfl
  have hlength : 1 + t.length ≤ ('\x7b' :: t).length := by
    rw [List.length_cons]
    omega
  refine ⟨_, ⟨1, ?_, feed_step rfl rfl hfetch⟩, ?_⟩
  · exact hlength
  · exact {
      rest_eq := rfl
      line := rfl
      column := Nat.succ_pos _
      beyond := rfl
      ended := rfl
      indent := rfl
      outerIndents := rfl
      outer := ⟨_, rfl, by simp⟩
      holds := ⟨rfl, rfl⟩
      fits := ⟨rfl, rfl⟩ }

end Lexer

def objectChars (m : Member) (members : List Member) : List Char :=
  '\x7b' :: (m.chars ++ Json.trail (members.map Member.chars))

def objectTokens (m : Member) (members : List Member) : List TokenKind :=
  .flowMappingStart :: (m.tokens ++
    ((members.flatMap fun m => .flowEntry :: m.tokens) ++ [.flowMappingEnd]))

theorem Member.IsSafe.safe_chars {m : Member} (h : m.IsSafe) : ∀ c ∈ m.chars, Yaml.IsSafe c := by
  have hcolon : Yaml.IsSafe ':' := by decide
  intro c hc
  rcases List.mem_append.mp hc with hc | hc
  · exact safe_literal h.key c hc
  · rcases List.mem_cons.mp hc with rfl | hc
    · exact hcolon
    · exact h.value.safe_chars c hc

theorem safe_object {m : Member} {members : List Member} (hm : m.IsSafe)
    (safe : ∀ m ∈ members, m.IsSafe) : ∀ c ∈ objectChars m members, IsSafe c := by
  have hopen : IsSafe '\x7b' := by decide
  have hclose : IsSafe '\x7d' := by decide
  have hcomma : IsSafe ',' := by decide
  intro c hc
  rcases List.mem_cons.mp hc with rfl | hc
  · exact hopen
  · rcases List.mem_append.mp hc with hc | hc
    · exact hm.safe_chars c hc
    · rcases List.mem_append.mp hc with hc | hc
      · obtain ⟨w, hw, hcw⟩ := List.mem_flatMap.mp hc
        obtain ⟨m', hm', rfl⟩ := List.mem_map.mp hw
        rcases List.mem_cons.mp hcw with rfl | hcw
        · exact hcomma
        · exact (safe m' hm').safe_chars c hcw
      · rwa [List.mem_singleton.mp hc]

theorem ofSource_object {m : Member} {members : List Member} (hm : m.IsSafe)
    (safe : ∀ m ∈ members, m.IsSafe) :
    ∃ tokens, Feed.ofSource ⟨objectChars m members, none⟩ = ⟨tokens, none⟩ ∧
      tokens.map Token.kind = objectTokens m members ++ [.streamEnd] := by
  obtain ⟨c, t, hc, ht⟩ := Lexer.InFlow.trail_eq_cons members
  obtain ⟨l₁, hreads₁, h₁⟩ :=
    Lexer.ofSource_reads (m.chars ++ Json.trail (members.map Member.chars))
  rw [ht] at h₁
  obtain ⟨tokens₂, l₂, hreads₂, h₂⟩ := h₁.readMember hm hc
  rw [← ht] at h₂
  obtain ⟨tokens₃, l₃, hreads₃, h₃⟩ := h₂.readTrail safe
  obtain ⟨tokens₄, l₄, hreads₄, h₄⟩ := h₃.readClose
  obtain ⟨n, hn, hfeed⟩ := ((hreads₁.trans hreads₂).trans hreads₃).trans hreads₄
  have hlength : n ≤ (objectChars m members).length := by
    have hrest : (Lexer.ofSource ⟨objectChars m members, none⟩).rest = objectChars m members := rfl
    rw [← hrest]
    exact Nat.le_trans (Nat.le_add_right _ _) hn
  obtain ⟨tokens₅, hend, hkinds⟩ := h₄.feed ((objectChars m members).length + 1 - n)
  have hfuel : (objectChars m members).length + 3 =
      (objectChars m members).length + 1 - n + 2 + n := by omega
  refine ⟨[] ++ tokens₂ ++ tokens₃ ++ tokens₄ ++ tokens₅, ?_, ?_⟩
  · rw [Feed.ofSource]
    dsimp only
    rw [hfuel]
    exact (hfeed _).trans (by rw [hend])
  · simpa [objectTokens] using hkinds

/-! ## From tokens to the document -/

def Member.events (m : Member) : List EventKind :=
  [.scalar m.key .quoted none, .scalar m.value.content m.value.style none]

def objectEvents (members : List Member) : List EventKind :=
  .mappingStart :: (members.flatMap Member.events ++ [.mappingEnd])

structure Bare (events : List Event) (kinds : List EventKind) : Prop where
  kinds_eq : events.map Event.kind = kinds
  anchor : ∀ event ∈ events, event.anchor = none

theorem Bare.append {events events' : List Event} {kinds kinds' : List EventKind}
    (h : Bare events kinds) (h' : Bare events' kinds') :
    Bare (events ++ events') (kinds ++ kinds') where
  kinds_eq := by rw [List.map_append, h.kinds_eq, h'.kinds_eq]
  anchor := by
    intro event he
    rcases List.mem_append.mp he with he | he
    · exact h.anchor event he
    · exact h'.anchor event he

/-! ### Events -/

/-- The phases of one member: its key, the node for it, its value and the node for that. -/
theorem runPhases_member {m : Member} {tokens : List Token} (h : tokens.map Token.kind = m.tokens)
    (handles : Handles) (start : Mark) (phases : List Phase) (rest : List Token) (fuel : Nat) :
    ∃ events, Bare events m.events ∧
      runPhases handles (fuel + 4) (.flowKey start true :: phases) (tokens ++ rest) =
        ⟨events ++ (runPhases handles fuel (.flowKey start false :: phases) rest).events,
          (runPhases handles fuel (.flowKey start false :: phases) rest).rest⟩ := by
  simp only [Member.tokens, Leaf.token, List.map_eq_cons_iff, List.map_eq_nil_iff] at h
  obtain ⟨⟨kind₁, start₁, stop₁⟩, _, rfl, rfl, ⟨kind₂, start₂, stop₂⟩, _, rfl, rfl,
    ⟨kind₃, start₃, stop₃⟩, _, rfl, rfl, ⟨kind₄, start₄, stop₄⟩, _, rfl, rfl, rfl⟩ := h
  refine ⟨[⟨.scalar m.key .quoted none, none, start₂⟩,
    ⟨.scalar m.value.content m.value.style none, none, start₄⟩], ⟨rfl, by simp⟩, ?_⟩
  rfl

theorem runPhases_comma {m : Member} {comma : Token} {tokens : List Token}
    (hcomma : comma.kind = .flowEntry) (h : tokens.map Token.kind = m.tokens) (handles : Handles)
    (start : Mark) (phases : List Phase) (rest : List Token) (fuel : Nat) :
    runPhases handles (fuel + 4) (.flowKey start false :: phases) (comma :: (tokens ++ rest)) =
      runPhases handles (fuel + 4) (.flowKey start true :: phases) (tokens ++ rest) := by
  simp only [Member.tokens, List.map_eq_cons_iff] at h
  obtain ⟨⟨_, start₁, stop₁⟩, tokens, rfl, rfl, -⟩ := h
  obtain ⟨_, start₂, stop₂⟩ := comma
  cases hcomma
  rfl

/-- Member after member, up to the end of the mapping and of the text. A mapping is in one phase
whenever the next member is due, in flow style as well as in block style. -/
theorem runPhases_members {handles : Handles} {phase : Phase} {ending : TokenKind}
    {written : Member → List TokenKind} {meant : Member → List EventKind}
    (member : ∀ {m tokens}, tokens.map Token.kind = written m → ∀ rest fuel,
      ∃ events, Bare events (meant m) ∧ runPhases handles (fuel + 4) [phase] (tokens ++ rest) =
        ⟨events ++ (runPhases handles fuel [phase] rest).events,
          (runPhases handles fuel [phase] rest).rest⟩)
    (close : ∀ start stop last fuel,
      runPhases handles (fuel + 2) [phase] [⟨ending, start, stop⟩, last] =
        ⟨[.plainEvent .mappingEnd start], .ok [last]⟩)
    {members : List Member} {tokens : List Token}
    (h : tokens.map Token.kind = members.flatMap written ++ [ending, .streamEnd]) {fuel : Nat}
    (hf : 4 * members.length + 2 ≤ fuel) :
    ∃ events last, runPhases handles fuel [phase] tokens = ⟨events, .ok [last]⟩ ∧
      last.kind = .streamEnd ∧ Bare events (members.flatMap meant ++ [.mappingEnd]) := by
  induction members generalizing tokens fuel with
  | nil =>
    simp only [List.flatMap_nil, List.nil_append, List.map_eq_cons_iff, List.map_eq_nil_iff] at h
    obtain ⟨⟨_, start, stop⟩, _, rfl, rfl, last, _, rfl, hlast, rfl⟩ := h
    obtain ⟨fuel, rfl⟩ := Nat.exists_eq_add_of_le' hf
    exact ⟨_, last, close start stop last fuel, hlast, rfl, by simp [Event.plainEvent]⟩
  | cons m members ih =>
    rw [List.flatMap_cons, List.append_assoc] at h
    obtain ⟨tokens, rest, rfl, htokens, hrest⟩ := List.map_eq_append_iff.mp h
    obtain ⟨fuel, rfl⟩ := Nat.exists_eq_add_of_le' (Nat.le_trans (Nat.le_add_left 4 _) hf)
    obtain ⟨events, hbare, hmember⟩ := member htokens rest fuel
    have hfuel : 4 * members.length + 2 ≤ fuel := by
      rw [List.length_cons] at hf
      omega
    obtain ⟨events', last, hmembers, hlast, hbare'⟩ := ih hrest hfuel
    refine ⟨events ++ events', last, ?_, hlast, ?_⟩
    · rw [hmember, hmembers]
    · rw [List.flatMap_cons, List.append_assoc]
      exact hbare.append hbare'

theorem runPhases_trail {members : List Member} {tokens : List Token}
    (h : tokens.map Token.kind =
      (members.flatMap fun m => .flowEntry :: m.tokens) ++ [.flowMappingEnd, .streamEnd])
    (handles : Handles) (start : Mark) {fuel : Nat} (hf : 4 * members.length + 2 ≤ fuel) :
    ∃ events last, runPhases handles fuel [.flowKey start false] tokens = ⟨events, .ok [last]⟩ ∧
      last.kind = .streamEnd ∧ Bare events (members.flatMap Member.events ++ [.mappingEnd]) := by
  refine runPhases_members ?_ (fun _ _ _ _ => rfl) h hf
  intro m tokens htokens rest fuel
  obtain ⟨comma, tokens, rfl, hcomma, htokens⟩ := List.map_eq_cons_iff.mp htokens
  rw [List.cons_append, runPhases_comma hcomma htokens]
  exact runPhases_member htokens handles start [] rest fuel

theorem length_le_tokens (members : List Member) :
    members.length ≤ (members.flatMap fun m => TokenKind.flowEntry :: m.tokens).length := by
  induction members with
  | nil => exact Nat.le_refl 0
  | cons m members ih =>
    simp only [List.flatMap_cons, List.length_append, List.length_cons]
    omega

theorem ofTokens_object {m : Member} {members : List Member} {tokens : List Token}
    (h : tokens.map Token.kind = objectTokens m members ++ [.streamEnd]) :
    ∃ events last, EventRun.ofTokens tokens = ⟨events, .ok [last]⟩ ∧ last.kind = .streamEnd ∧
      Bare events (objectEvents (m :: members)) := by
  have hlength : 4 * members.length + 2 + 4 + 1 ≤ 4 * tokens.length + 8 := by
    have hmap := congrArg List.length h
    have hsum := length_le_tokens members
    simp only [objectTokens, List.length_map, List.length_append, List.length_cons] at hmap
    omega
  rw [objectTokens, List.cons_append, List.append_assoc, List.append_assoc] at h
  obtain ⟨⟨_, start, stop⟩, behind, rfl, rfl, hbehind⟩ := List.map_eq_cons_iff.mp h
  obtain ⟨first, rest, rfl, hfirst, hrest⟩ := List.map_eq_append_iff.mp hbehind
  obtain ⟨fuel, hfuel⟩ := Nat.exists_eq_add_of_le' hlength
  obtain ⟨events, hbare, hmember⟩ :=
    runPhases_member hfirst defaultHandles start [] rest (fuel + (4 * members.length + 2))
  obtain ⟨events', last, htrail, hlast, hbare'⟩ :=
    runPhases_trail hrest defaultHandles start (Nat.le_add_left _ fuel)
  have hstart (fuel : Nat) :
      runPhases defaultHandles (fuel + 1) [.node .block]
        (⟨.flowMappingStart, start, stop⟩ :: (first ++ rest)) =
      ⟨.plainEvent .mappingStart start ::
          (runPhases defaultHandles fuel [.flowKey start true] (first ++ rest)).events,
        (runPhases defaultHandles fuel [.flowKey start true] (first ++ rest)).rest⟩ := rfl
  have hrun : EventRun.ofTokens (⟨.flowMappingStart, start, stop⟩ :: (first ++ rest)) =
      runPhases defaultHandles (4 * (first ++ rest).length + 4 + 8) [.node .block]
        (⟨.flowMappingStart, start, stop⟩ :: (first ++ rest)) := rfl
  have hfuel' : 4 * (first ++ rest).length + 4 + 8 =
      fuel + (4 * members.length + 2) + 4 + 1 := by
    rw [List.length_cons] at hfuel
    omega
  refine ⟨.plainEvent .mappingStart start :: (events ++ events'), last, ?_, hlast, ?_⟩
  · rw [hrun, hfuel', hstart, hmember, htrail]
  · have hstartBare : Bare [.plainEvent .mappingStart start] [.mappingStart] :=
      ⟨rfl, by simp [Event.plainEvent]⟩
    have hall := hstartBare.append (hbare.append hbare')
    simpa [objectEvents] using hall

/-! ### Documents -/

/-- Nothing is to be linked where there is neither an alias nor an anchor. -/
theorem link_of_bare {events : List Event} {kinds : List EventKind} (h : Bare events kinds)
    (noAlias : ∀ name, .aliasOf name ∉ kinds) (anchors : Anchors) :
    link anchors events = (events.map fun event => (event, none), anchors, none) := by
  induction events generalizing kinds with
  | nil => rfl
  | cons event events ih =>
    have hkind : ∀ name, event.kind ≠ .aliasOf name := by
      intro name hname
      apply noAlias name
      rw [← h.kinds_eq, ← hname]
      exact List.mem_cons_self
    have hanchor : anchors.add event = anchors := by
      simp [Anchors.add, h.anchor event List.mem_cons_self]
    have hrest : Bare events kinds.tail := by
      refine ⟨?_, fun e he => h.anchor e (List.mem_cons_of_mem _ he)⟩
      rw [← h.kinds_eq]
      rfl
    have hlink := ih hrest fun name hname => noAlias name (List.mem_of_mem_tail hname)
    unfold link
    split
    · next name hname => exact absurd hname (hkind name)
    · rw [hanchor, hlink]
      rfl

/-- The document of a run that reaches the end of the text: its events one for one, nothing wrong
and nothing behind it. -/
theorem ofFeed_of_run {tokens : List Token} {events : List Event} {last : Token}
    {kinds : List EventKind} (run : EventRun.ofTokens tokens = ⟨events, .ok [last]⟩)
    (last_eq : last.kind = .streamEnd) (bare : Bare events kinds)
    (noAlias : ∀ name, .aliasOf name ∉ kinds) :
    Document.ofFeed ⟨tokens, none⟩ = ⟨events.map .node, none, false⟩ := by
  have hlink := link_of_bare bare noAlias .empty
  have hfollowed : isFollowed [last] = false := by
    obtain ⟨_, start, stop⟩ := last
    cases last_eq
    rfl
  simp [Document.ofFeed, run, hlink, hfollowed, Anchors.entry]

theorem ofFeed_object {m : Member} {members : List Member} {tokens : List Token}
    (h : tokens.map Token.kind = objectTokens m members ++ [.streamEnd]) :
    ∃ events, Document.ofFeed ⟨tokens, none⟩ = ⟨events.map .node, none, false⟩ ∧
      Bare events (objectEvents (m :: members)) := by
  obtain ⟨events, last, hrun, hlast, hbare⟩ := ofTokens_object h
  have hnone : ∀ name, .aliasOf name ∉ objectEvents (m :: members) := by
    simp [objectEvents, Member.events]
  exact ⟨events, ofFeed_of_run hrun hlast hbare hnone, hbare⟩

end Roster.Yaml
