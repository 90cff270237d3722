import Mathlib.Data.List.Nodup
import Roster.Proofs.Config.Yaml
import Roster.Proofs.Yaml.Lines

/-! Configurations in YAML as they are written by hand: one key and one value a line. Each line is
read on its own, into what the lines before it have given. -/
namespace Roster.Config

open Yaml (Entry Leaf Member)

/-- The key is a name in small letters; the address is a text and the timeout a number. What the
value of another key is does not matter. -/
structure IsLine (m : Member) : Prop where
  name : ∀ c ∈ m.key, c.isLower = true ∨ c = '_'
  nonempty : m.key ≠ []
  short : m.key.length ≤ 128
  safe : m.value.IsSafe
  apiUrl : m.key = "api_url".toList → ∃ url, m.value = .text url
  timeout : m.key = "timeout".toList → ∃ n, m.value = .number n

def ofLines (lines : List Member) : String := String.ofList (lines.flatMap Member.line)

def Fits (m : Member) : Prop := ∀ n, m = ⟨"timeout".toList, .number n⟩ → n < UInt64.size

structure Accepted (lines : List Member) : Prop where
  apiUrl : (lines.map Member.key).count "api_url".toList ≤ 1
  timeout : (lines.map Member.key).count "timeout".toList ≤ 1
  fits : ∀ m ∈ lines, Fits m

/-- The configuration has the values of the lines, and defaults in place of all others. -/
structure Loads (c : Config) (lines : List Member) : Prop where
  apiUrl : ∀ url, ⟨"api_url".toList, .text url⟩ ∈ lines → c.apiUrl = String.ofList url
  timeout : ∀ n, ⟨"timeout".toList, .number n⟩ ∈ lines → c.timeout.toNat = n
  defaultApiUrl : "api_url".toList ∉ lines.map Member.key → c.apiUrl = "https://api.example.com"
  defaultTimeout : "timeout".toList ∉ lines.map Member.key → c.timeout = 5000

/-! ### Fields of lines -/

def fieldsOf (lines : List Member) : List Field := lines.filterMap fun m => Field.ofName? m.key

theorem ofName?_eq_some {key : List Char} {f : Field} :
    Field.ofName? key = some f ↔ key = f.label.toList :=
  language.field?_eq_some

theorem count_fieldsOf (f : Field) (lines : List Member) :
    (fieldsOf lines).count f = (lines.map Member.key).count f.label.toList := by
  induction lines with
  | nil => rfl
  | cons m lines ih =>
    rw [fieldsOf] at ih ⊢
    rw [List.filterMap_cons, List.map_cons, List.count_cons, ← ih]
    cases hf : Field.ofName? m.key with
    | none =>
      have hne : m.key ≠ f.label.toList := by
        intro hkey
        rw [ofName?_eq_some.mpr hkey] at hf
        cases hf
      simp [hne]
    | some f' =>
      have hsame : (m.key = f.label.toList) ↔ f' = f := by
        rw [← ofName?_eq_some, hf, Option.some.injEq]
      simp [List.count_cons, hsame]

theorem not_mem_fieldsOf {f : Field} {lines : List Member} :
    f ∉ fieldsOf lines ↔ f.label.toList ∉ lines.map Member.key := by
  rw [← List.count_eq_zero, count_fieldsOf, List.count_eq_zero]

theorem nodup_fieldsOf {lines : List Member} :
    (fieldsOf lines).Nodup ↔ (lines.map Member.key).count "api_url".toList ≤ 1 ∧
      (lines.map Member.key).count "timeout".toList ≤ 1 := by
  rw [List.nodup_iff_count_le_one]
  constructor
  · intro h
    have hurl := h .apiUrl
    have htimeout := h .timeout
    rw [count_fieldsOf] at hurl htimeout
    exact ⟨hurl, htimeout⟩
  · rintro ⟨hurl, htimeout⟩ f
    rw [count_fieldsOf]
    cases f with
    | apiUrl => exact hurl
    | timeout => exact htimeout

/-! ### Values of lines -/

variable {m : Member}

def given? (m : Member) : Option Given :=
  match Field.ofName? m.key, m.value with
  | some .apiUrl, .text url => some (.apiUrl url)
  | some .timeout, .number n => some (.timeout (UInt64.ofNat n))
  | _, _ => none

theorem IsLine.cases (h : IsLine m) :
    (Field.ofName? m.key = none ∧ given? m = none) ∨
      (∃ url, m = ⟨"api_url".toList, .text url⟩ ∧ given? m = some (.apiUrl url)) ∨
      ∃ n, m = ⟨"timeout".toList, .number n⟩ ∧
        given? m = some (.timeout (UInt64.ofNat n)) := by
  cases hf : Field.ofName? m.key with
  | none => exact .inl ⟨rfl, by simp [given?, hf]⟩
  | some f =>
    have hkey := ofName?_eq_some.mp hf
    obtain ⟨key, value⟩ := m
    cases f with
    | apiUrl =>
      obtain ⟨url, hv⟩ := h.apiUrl hkey
      cases hkey
      cases hv
      exact .inr (.inl ⟨url, rfl, rfl⟩)
    | timeout =>
      obtain ⟨n, hv⟩ := h.timeout hkey
      cases hkey
      cases hv
      exact .inr (.inr ⟨n, rfl, rfl⟩)

theorem IsLine.given?_field (h : IsLine m) :
    (given? m).map Given.field = Field.ofName? m.key := by
  rcases h.cases with ⟨hf, hg⟩ | ⟨url, rfl, hg⟩ | ⟨n, rfl, hg⟩
  · rw [hf, hg]
    rfl
  · rw [hg]
    rfl
  · rw [hg]
    rfl

theorem fieldsOf_eq {lines : List Member} (h : ∀ m ∈ lines, IsLine m) :
    fieldsOf lines = (lines.filterMap given?).map Given.field := by
  induction lines with
  | nil => rfl
  | cons m lines ih =>
    have hfield := (h m List.mem_cons_self).given?_field
    have hrest := ih fun m' hm' => h m' (List.mem_cons_of_mem _ hm')
    rw [fieldsOf] at hrest ⊢
    rw [List.filterMap_cons, List.filterMap_cons, ← hfield, hrest]
    cases given? m <;> rfl

/-! ### Reading lines -/

section

variable {d : Draft} {key value : Yaml.Event} {text text' : List Char} {style style' : Yaml.Style}
  {tag tag' : Option (List UInt8)}

theorem readMembers_unknown (hkey : key.kind = .scalar text style tag)
    (unknown : Field.ofName? text = none) (hvalue : value.kind = .scalar text' style' tag')
    (start : Yaml.Mark) (failure : Yaml.Error) (entries : List Entry) :
    readMembers start failure d 0 (.node key :: .node value :: entries) =
      readMembers start failure d 0 entries := by
  have hcloses : closes (.node key) = false := by simp [closes, hkey]
  have hread : readKey (.node key) = .ok (text, String.ofList text) := by
    simp [readKey, Entry.event, hkey]
  have hopens : opens (.node value) = false := by simp [opens, hvalue]
  rw [readMembers]
  simp [hcloses, hread, unknown, hopens]

theorem readMembers_repeated {f : Field} (hkey : key.kind = .scalar f.label.toList style tag)
    (held : d.holds f = true) (start : Yaml.Mark) (failure : Yaml.Error) (entries : List Entry) :
    readMembers start failure d 0 (.node key :: .node value :: entries) =
      .error (.mismatch (.repeatedField f.label) none start) := by
  rw [readMembers_known hkey, held]
  rfl

theorem readMembers_mistyped {f : Field} (hkey : key.kind = .scalar f.label.toList style tag)
    (fresh : d.holds f = false) {e : Yaml.Error} (hvalue : d.readYaml f f.label value = .error e)
    (start : Yaml.Mark) (failure : Yaml.Error) (entries : List Entry) :
    readMembers start failure d 0 (.node key :: .node value :: entries) = .error e := by
  rw [readMembers_known hkey, fresh, hvalue]
  rfl

end

structure IsEvents (m : Member) (key value : Yaml.Event) : Prop where
  key : key.kind = .scalar m.key .plain none
  value : value.kind = .scalar m.value.content m.value.style none

variable {key value : Yaml.Event} {d : Draft}

theorem readMembers_line (h : IsLine m) (he : IsEvents m key value)
    (fresh : ∀ g ∈ given? m, d.holds g.field = false) (fits : Fits m) (start : Yaml.Mark)
    (failure : Yaml.Error) (entries : List Entry) :
    readMembers start failure d 0 (.node key :: .node value :: entries) =
      readMembers start failure ((given? m).toList.foldl Draft.put d) 0 entries := by
  rcases h.cases with ⟨hf, hg⟩ | ⟨url, rfl, hg⟩ | ⟨n, rfl, hg⟩
  · rw [hg]
    exact readMembers_unknown he.key hf he.value start failure entries
  · rw [hg]
    have hread : d.readYaml .apiUrl Field.apiUrl.label value = .ok (d.put (.apiUrl url)) := by
      simp [Draft.readYaml, he.value, Leaf.content, Draft.put]
    exact readMembers_field he.key (fresh _ hg) hread start failure entries
  · rw [hg]
    have hread : d.readYaml .timeout Field.timeout.label value =
        .ok (d.put (.timeout (UInt64.ofNat n))) := by
      have hlimit : n < Yaml.wordLimit := fits n rfl
      have hnumber := Yaml.wordNumber?_natural n
      rw [if_pos hlimit] at hnumber
      simp only [Draft.readYaml, he.value, Leaf.content, Leaf.style, hnumber, Draft.put]
    exact readMembers_field he.key (fresh _ hg) hread start failure entries

theorem readMembers_refused (h : IsLine m) (he : IsEvents m key value)
    (refused : ¬((∀ g ∈ given? m, d.holds g.field = false) ∧ Fits m)) (start : Yaml.Mark)
    (failure : Yaml.Error) (entries : List Entry) :
    ∃ e, readMembers start failure d 0 (.node key :: .node value :: entries) = .error e := by
  rcases h.cases with ⟨hf, hg⟩ | ⟨url, rfl, hg⟩ | ⟨n, rfl, hg⟩
  · -- A line for an unknown key is always taken up.
    refine absurd ⟨by simp [hg], ?_⟩ refused
    rintro n rfl
    cases (ofName?_label .timeout).symm.trans hf
  · by_cases held : d.holds .apiUrl = true
    · exact ⟨_, readMembers_repeated he.key held start failure _⟩
    · refine absurd ⟨?_, ?_⟩ refused
      · rw [hg]
        rintro g ⟨⟩
        exact eq_false_of_ne_true held
      · intro n hn
        cases congrArg Member.value hn
  · by_cases held : d.holds .timeout = true
    · exact ⟨_, readMembers_repeated he.key held start failure _⟩
    · have fresh := eq_false_of_ne_true held
      have hlarge : ¬ n < Yaml.wordLimit := by
        intro fits
        refine refused ⟨?_, ?_⟩
        · rw [hg]
          rintro g ⟨⟩
          exact fresh
        · intro n' hn
          cases congrArg Member.value hn
          exact fits
      have hnumber := Yaml.wordNumber?_natural n
      rw [if_neg hlarge] at hnumber
      have hread : d.readYaml .timeout Field.timeout.label value =
          .error (mismatch value .wordNumber (some Field.timeout.label)) := by
        simp only [Draft.readYaml, he.value, Leaf.content, Leaf.style, hnumber]
      exact ⟨_, readMembers_mistyped he.key fresh hread start failure entries⟩

/-- Into this draft the lines can be taken up one after the other. -/
def Takes (d : Draft) (lines : List Member) : Prop :=
  language.Fresh d (lines.filterMap given?) ∧ ∀ m ∈ lines, Fits m

theorem takes_cons {lines : List Member} :
    Takes d (m :: lines) ↔ ((∀ g ∈ given? m, d.holds g.field = false) ∧ Fits m) ∧
      Takes ((given? m).toList.foldl Draft.put d) lines := by
  simp only [Takes, List.forall_mem_cons, List.filterMap_cons]
  cases hg : given? m with
  | none =>
    simp only [Option.toList_none, List.foldl_nil]
    constructor
    · rintro ⟨hfresh, hm, hfits⟩
      exact ⟨⟨by simp, hm⟩, hfresh, hfits⟩
    · rintro ⟨⟨-, hm⟩, hfresh, hfits⟩
      exact ⟨hfresh, hm, hfits⟩
  | some g =>
    simp only [Option.toList_some, List.foldl_cons, List.foldl_nil, language.fresh_cons]
    constructor
    · rintro ⟨⟨hg, hfresh⟩, hm, hfits⟩
      refine ⟨⟨?_, hm⟩, hfresh, hfits⟩
      rintro g' ⟨⟩
      exact hg
    · rintro ⟨⟨hg, hm⟩, hfresh, hfits⟩
      exact ⟨⟨hg g rfl, hfresh⟩, hm, hfits⟩

theorem readMembers_lines {lines : List Member} (h : ∀ m ∈ lines, IsLine m)
    {events : List Yaml.Event}
    (he : Yaml.Bare events (lines.flatMap Member.lineEvents ++ [.mappingEnd])) (d : Draft)
    (start : Yaml.Mark) (failure : Yaml.Error) :
    (Takes d lines → readMembers start failure d 0 (events.map .node) =
        .ok ((lines.filterMap given?).foldl Draft.put d)) ∧
      (¬ Takes d lines → ∃ e, readMembers start failure d 0 (events.map .node) = .error e) := by
  have hkinds := he.kinds_eq
  clear he
  induction lines generalizing d events with
  | nil =>
    simp only [List.flatMap_nil, List.nil_append, List.map_eq_cons_iff,
      List.map_eq_nil_iff] at hkinds
    obtain ⟨last, _, rfl, hlast, rfl⟩ := hkinds
    constructor
    · intro _
      exact readMembers_close hlast start failure d []
    · intro refused
      exact absurd ⟨language.fresh_nil d, by simp⟩ refused
  | cons m lines ih =>
    have hm := h m List.mem_cons_self
    have hrest : ∀ m' ∈ lines, IsLine m' := fun m' hm' => h m' (List.mem_cons_of_mem _ hm')
    simp only [List.flatMap_cons, Member.lineEvents, List.cons_append, List.nil_append,
      List.map_eq_cons_iff] at hkinds
    obtain ⟨key, _, rfl, hkey, value, events, rfl, hvalue, hkinds⟩ := hkinds
    have hline : IsEvents m key value := ⟨hkey, hvalue⟩
    rw [takes_cons, List.map_cons, List.map_cons]
    by_cases taken : (∀ g ∈ given? m, d.holds g.field = false) ∧ Fits m
    · rw [readMembers_line hm hline taken.1 taken.2]
      have hfold : ((m :: lines).filterMap given?).foldl Draft.put d =
          (lines.filterMap given?).foldl Draft.put ((given? m).toList.foldl Draft.put d) := by
        rw [List.filterMap_cons]
        cases given? m <;> rfl
      rw [hfold]
      have hmore := ih hrest ((given? m).toList.foldl Draft.put d) hkinds
      exact ⟨fun htakes => hmore.1 htakes.2,
        fun refused => hmore.2 fun htakes => refused ⟨taken, htakes⟩⟩
    · constructor
      · intro htakes
        exact absurd htakes.1 taken
      · intro _
        exact readMembers_refused hm hline taken start failure _

/-! ### Whole texts -/

theorem IsLine.fitsLine (h : IsLine m) : m.FitsLine where
  name := by
    intro c hc
    rcases h.name c hc with hlower | rfl
    · have hletter : c.isAlpha = true := (Bool.or_eq_true _ _).mpr (.inr hlower)
      simp [Yaml.isNameChar, Char.isAlphanum, hletter]
    · rfl
  nonempty := h.nonempty
  near := Nat.le_trans h.short (by decide)
  value := h.safe

theorem takes_blank {lines : List Member} (h : ∀ m ∈ lines, IsLine m) :
    Takes .blank lines ↔ Accepted lines := by
  constructor
  · rintro ⟨hfresh, hfits⟩
    obtain ⟨hurl, htimeout⟩ := nodup_fieldsOf.mp ((fieldsOf_eq h).symm ▸ hfresh.2)
    exact ⟨hurl, htimeout, hfits⟩
  · rintro ⟨hurl, htimeout, hfits⟩
    have honce := nodup_fieldsOf.mpr ⟨hurl, htimeout⟩
    refine ⟨⟨?_, (fieldsOf_eq h) ▸ honce⟩, hfits⟩
    intro g _
    cases g <;> rfl

theorem loads_build {lines : List Member} (h : ∀ m ∈ lines, IsLine m) (accepted : Accepted lines) :
    Loads ((lines.filterMap given?).foldl Draft.put .blank).build lines := by
  have hfields := fieldsOf_eq h
  have honce := nodup_fieldsOf.mpr ⟨accepted.apiUrl, accepted.timeout⟩
  rw [hfields] at honce
  have hcarries := carries_build honce
  constructor
  · intro url hmem
    exact hcarries.apiUrl url (List.mem_filterMap.mpr ⟨_, hmem, rfl⟩)
  · intro n hmem
    have hfits : n < UInt64.size := accepted.fits _ hmem n rfl
    rw [hcarries.timeout (UInt64.ofNat n) (List.mem_filterMap.mpr ⟨_, hmem, rfl⟩)]
    exact UInt64.toNat_ofNat_of_lt' hfits
  · intro hf
    exact hcarries.defaultApiUrl (hfields ▸ not_mem_fieldsOf.mpr hf)
  · intro hf
    exact hcarries.defaultTimeout (hfields ▸ not_mem_fieldsOf.mpr hf)

theorem ofYaml_lines {lines : List Member} (nonempty : lines ≠ [])
    (h : ∀ m ∈ lines, IsLine m) :
    (Accepted lines → ofYaml (ofLines lines) =
        .ok ((lines.filterMap given?).foldl Draft.put .blank).build) ∧
      (¬ Accepted lines → ∃ e, ofYaml (ofLines lines) = .error e) := by
  obtain ⟨m, members, rfl⟩ := List.exists_cons_of_ne_nil nonempty
  have hfits : ∀ m' ∈ m :: members, m'.FitsLine := fun m' hm' => (h m' hm').fitsLine
  have hallowed : ∀ c ∈ (m :: members).flatMap Member.line, Yaml.isAllowed c = true := by
    intro c hc
    obtain ⟨m', hm', hc⟩ := List.mem_flatMap.mp hc
    exact (hfits m' hm').isAllowed c hc
  obtain ⟨tokens, hfeed, htokens⟩ := Yaml.ofSource_lines hfits
  obtain ⟨events, hdocument, hevents⟩ := Yaml.ofFeed_lines htokens
  have htext : Yaml.Document.ofText (ofLines (m :: members)) =
      ⟨events.map .node, none, false⟩ := by
    rw [Yaml.Document.ofText, Yaml.Feed.ofText, ofLines, String.toList_ofList,
      Yaml.Source.ofText_of_allowed hallowed, hfeed, hdocument]
  obtain ⟨first, events, rfl, hfirst, hkinds⟩ := List.map_eq_cons_iff.mp hevents.kinds_eq
  have hbare : Yaml.Bare events ((m :: members).flatMap Member.lineEvents ++ [.mappingEnd]) :=
    ⟨hkinds, fun event he => hevents.anchor event (List.mem_cons_of_mem _ he)⟩
  have hmapping : readMapping .moreDocuments ((first :: events).map .node) =
      readMembers first.mark .moreDocuments .blank 0 (events.map .node) := by
    simp only [List.map_cons, readMapping, Entry.event, hfirst]
  obtain ⟨haccepted, hrefused⟩ := readMembers_lines h hbare .blank first.mark .moreDocuments
  rw [← takes_blank h, ofYaml, htext, ofDocument]
  simp only [Option.getD_none, hmapping]
  constructor
  · intro htakes
    rw [haccepted htakes]
    rfl
  · intro htakes
    obtain ⟨e, he⟩ := hrefused htakes
    exact ⟨e, by rw [he]⟩

/-- Lines are read exactly if no field comes twice and the timeout fits its type. Then every field
has its value or its default, and otherwise there is an error of YAML. -/
theorem parse_lines {lines : List Member} (nonempty : lines ≠ []) (h : ∀ m ∈ lines, IsLine m) :
    ((∃ c, parse false (ofLines lines) = .ok c) ↔ Accepted lines) ∧
      (∀ c, parse false (ofLines lines) = .ok c → c.Loads lines) ∧
      (¬ Accepted lines → ∃ e, parse false (ofLines lines) = .error (.yaml e)) := by
  obtain ⟨haccepted, hrefused⟩ := ofYaml_lines nonempty h
  have hparse : parse false (ofLines lines) = (ofYaml (ofLines lines)).mapError .yaml := rfl
  by_cases accepted : Accepted lines
  · rw [hparse, haccepted accepted]
    refine ⟨⟨fun _ => accepted, fun _ => ⟨_, rfl⟩⟩, ?_, fun refused => absurd accepted refused⟩
    intro c hc
    cases hc
    exact loads_build h accepted
  · obtain ⟨e, he⟩ := hrefused accepted
    rw [hparse, he]
    refine ⟨⟨?_, fun h => absurd h accepted⟩, ?_, fun _ => ⟨e, rfl⟩⟩
    · rintro ⟨c, hc⟩
      cases hc
    · intro c hc
      cases hc

/-- A timeout between two lines for the same unknown key, one of which holds what looks like another
line and a comment. -/
theorem parse_lines_partial :
    let lines : List Member := [⟨['n', 'o', 't', 'e'], .text "timeout: 1 # \"".toList⟩,
      ⟨['t', 'i', 'm', 'e', 'o', 'u', 't'], .number 250⟩, ⟨['n', 'o', 't', 'e'], .number 7⟩]
    lines ≠ [] ∧ (∀ m ∈ lines, IsLine m) ∧
      ofLines lines = "note: \"timeout: 1 # \\\"\"\ntimeout: 250\nnote: 7\n" ∧
      parse false (ofLines lines) = .ok ⟨"https://api.example.com", 250⟩ := by
  intro lines
  have hne : lines ≠ [] := List.cons_ne_nil _ _
  have hletters (w : List Char) (h : w.all (fun c => c.isLower || c == '_') = true) :
      ∀ c ∈ w, c.isLower = true ∨ c = '_' := by
    intro c hc
    simpa using List.all_eq_true.mp h c hc
  have hkey : ['n', 'o', 't', 'e'] ≠ "api_url".toList ∧
      ['n', 'o', 't', 'e'] ≠ "timeout".toList := by decide
  have hnote (v : Leaf) (safe : v.IsSafe) : IsLine ⟨['n', 'o', 't', 'e'], v⟩ :=
    ⟨hletters _ rfl, List.cons_ne_nil _ _, Nat.le_of_ble_eq_true rfl, safe,
      fun he => absurd he hkey.1, fun he => absurd he hkey.2⟩
  have htimeout : IsLine ⟨['t', 'i', 'm', 'e', 'o', 'u', 't'], .number 250⟩ :=
    ⟨hletters _ rfl, by decide, by decide, trivial, fun he => absurd he (by decide),
      fun _ => ⟨250, rfl⟩⟩
  have hlines : ∀ m ∈ lines, IsLine m := by
    intro m hm
    simp only [lines, List.mem_cons, List.not_mem_nil, or_false] at hm
    rcases hm with rfl | rfl | rfl
    · exact hnote _ (Yaml.safe_of_all (by decide))
    · exact htimeout
    · exact hnote _ trivial
  have haccepted : Accepted lines := by
    refine ⟨by decide, by decide, ?_⟩
    intro m hm n hn
    simp only [lines, List.mem_cons, List.not_mem_nil, or_false] at hm
    rcases hm with rfl | rfl | rfl
    · cases congrArg Member.value hn
    · cases congrArg Member.value hn
      decide
    · exact absurd (congrArg Member.key hn) hkey.2
  obtain ⟨hiff, hloads, -⟩ := parse_lines hne hlines
  obtain ⟨⟨url, timeout⟩, hparse⟩ := hiff.mpr haccepted
  refine ⟨hne, hlines, by decide, ?_⟩
  have hc := hloads _ hparse
  have hurl : url = "https://api.example.com" := hc.defaultApiUrl (by decide)
  have hword : timeout.toNat = 250 := hc.timeout 250 (List.mem_cons_of_mem _ List.mem_cons_self)
  have heq : timeout = 250 := UInt64.toNat_inj.mp hword
  rw [hparse, hurl, heq]

end Roster.Config
