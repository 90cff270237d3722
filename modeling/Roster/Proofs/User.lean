import Roster.Proofs.Json.Faults
import Roster.Proofs.Json.Printer
import Roster.User.Json

/-! Which JSON texts are users, and what is said about an object that is none. All three fields are
needed, each once; of an object that lacks some the first one lacking is told, and of an object that
goes wrong at some member the fault of that member. -/
namespace Roster.User

/-! ## The language of users -/

inductive Given where
  | id (id : UserId)
  | name (name : List Char)
  | email (email : List Char)

namespace Given

def field : Given → Field
  | id _ => .id
  | name _ => .name
  | email _ => .email

/-- How a value is written: the id as a whole number that fits 64 bits and has neither sign nor
fraction nor exponent, the others as texts. -/
inductive Written : Given → List Char → Prop where
  | id {n w} : Json.WholeNumber w n.toNat → Written (.id n) w
  | name {s w} : Json.TextToken w s → Written (.name s) w
  | email {s w} : Json.TextToken w s → Written (.email s) w

def print : Given → String
  | id n => Text.numeral n.toNat
  | name s => Json.literal (String.ofList s)
  | email s => Json.literal (String.ofList s)

theorem written_print (g : Given) : g.Written g.print.toList := by
  cases g with
  | id n => exact .id (Json.wholeNumber_numeral _)
  | name s => exact .name (by simpa [print] using Json.textToken_literal s)
  | email s => exact .email (by simpa [print] using Json.textToken_literal s)

theorem printable_print (g : Given) : Json.Printable g.print.toList := by
  cases g with
  | id n => exact Json.printable_numeral _
  | name s => simpa [print] using Json.printable_literal s
  | email s => simpa [print] using Json.printable_literal s

end Given

namespace Draft

def put (d : Draft) : Given → Draft
  | .id n => { d with id := some n }
  | .name s => { d with name := some s }
  | .email s => { d with email := some s }

def get (d : Draft) : Field → Option Given
  | .id => d.id.map .id
  | .name => d.name.map .name
  | .email => d.email.map .email

theorem read_append {b w t : List Char} {g : Given} (d : Draft) (hb : Json.Blanks b)
    (hw : g.Written w) (ht : Json.EndsNumber t) :
    read g.field d (b ++ (w ++ t)) = .ok (d.put g, t) := by
  cases hw with
  | id hw => simp [Given.field, read, Json.readWordNumber_append hb hw ht, Except.map, put]
  | name hw => simp [Given.field, read, Json.readTextValue_append hb hw, Except.map, put]
  | email hw => simp [Given.field, read, Json.readTextValue_append hb hw, Except.map, put]

theorem read_sound {f : Field} {d d' : Draft} {t rest : List Char}
    (h : read f d t = .ok (d', rest)) :
    ∃ b w g, Json.Blanks b ∧ Given.Written g w ∧ g.field = f ∧ d' = d.put g ∧
      t = b ++ (w ++ rest) := by
  cases f with
  | id =>
    obtain ⟨⟨n, more⟩, hr, he⟩ := Json.map_eq_ok h
    cases he
    obtain ⟨b, w, hb, hw, rfl⟩ := Json.readWordNumber_sound hr
    exact ⟨b, w, .id n, hb, .id hw, rfl, rfl, rfl⟩
  | name =>
    obtain ⟨⟨s, more⟩, hr, he⟩ := Json.map_eq_ok h
    cases he
    obtain ⟨b, w, hb, hw, rfl⟩ := Json.readTextValue_sound hr
    exact ⟨b, w, .name s, hb, .name hw, rfl, rfl, rfl⟩
  | email =>
    obtain ⟨⟨s, more⟩, hr, he⟩ := Json.map_eq_ok h
    cases he
    obtain ⟨b, w, hb, hw, rfl⟩ := Json.readTextValue_sound hr
    exact ⟨b, w, .email s, hb, .email hw, rfl, rfl, rfl⟩

end Draft

def language : schema.Language Given where
  key
    | .id => "id"
    | .name => "name"
    | .email => "email"
  order := [.id, .name, .email]
  field := Given.field
  Written := Given.Written
  put := Draft.put
  get := Draft.get
  head := by
    rintro g w (hw | hw | hw)
    · exact hw.head
    · exact hw.head
    · exact hw.head
  read_append := Draft.read_append
  read_sound := Draft.read_sound
  get_blank := by
    intro f
    cases f <;> rfl
  get_put_self := by
    intro d g
    cases g <;> rfl
  get_put_of_ne := by
    intro d g f hf
    cases g <;> cases f <;> first | rfl | exact absurd rfl hf
  holds_eq := by
    intro d f
    cases f <;> simp [schema, Draft.holds, Draft.get]
  label_eq := by
    intro f
    cases f <;> rfl
  fields_eq := rfl
  mem_order := by
    intro f
    cases f <;> decide
  key_injective := by
    intro f f' h
    cases f <;> cases f' <;> first | rfl | exact absurd h (by decide)

/-- The values of a user, in the order in which they are printed. -/
def values (u : User) : List Given := [.id u.id, .name u.name.toList, .email u.email.toList]

theorem toJson_eq (u : User) :
    u.toJson = Json.object (u.values.map fun g => (language.key g.field, g.print)) := by
  simp [toJson, values, Given.field, Given.print, language]

theorem delimited_toJson (u : User) : Json.Delimited ofJson u.toJson u := by
  have hn : (u.values.map Given.field).Nodup := by
    simp [values, Given.field]
  have hbuild : (u.values.foldl Draft.put .blank).build = .ok u := by
    simp [values, Draft.put, Draft.build]
  rw [toJson_eq]
  exact language.delimited_object Given.written_print Given.printable_print hn hbuild

/-! ## Complete users and blamed members -/

/-! ### Complete records -/

/-- The text is a record of this user: an object in which each value is given once, in any order
among unknown members, or the list of the three values in order. -/
inductive Complete (u : User) : List Char → Prop where
  | object {items w} : Json.Items .object language.Member true items w →
      (Json.givenBy items).Perm u.values → Complete u ('{' :: w)
  | list {w} : Json.Items .list Given.Written true u.values w → Complete u ('[' :: w)

theorem nodup_fields_values (u : User) : (u.values.map Given.field).Nodup := by
  simp [values, Given.field]

theorem mem_values_field (u : User) (f : Field) : f ∈ u.values.map Given.field := by
  cases f <;> simp [values, Given.field]

theorem Draft.build_eq_ok {d : Draft} {u : User} :
    d.build = .ok u ↔ ∀ g ∈ u.values, d.get g.field = some g := by
  obtain ⟨id, name, email⟩ := d
  obtain ⟨uid, uname, uemail⟩ := u
  cases id <;> cases name <;> cases email <;>
    simp [Draft.build, values, Given.field, Draft.get, ← String.toList_inj]

/-- The values that are given make a user exactly if they are the values of that user. -/
theorem build_foldl {given : List Given} (hn : (given.map Given.field).Nodup) {u : User} :
    (given.foldl Draft.put .blank).build = .ok u ↔ given.Perm u.values := by
  have hfold : ∀ g ∈ given, (given.foldl Draft.put .blank).get g.field = some g :=
    fun g hg => language.get_foldl_of_mem hn hg Draft.blank
  rw [Draft.build_eq_ok]
  constructor
  · intro h
    have hgiven : given.Nodup :=
      List.Pairwise.of_map Given.field (fun _ _ hne he => hne (congrArg _ he)) hn
    have hvalues : u.values.Nodup := by
      simp [values]
    apply (List.perm_ext_iff_of_nodup hgiven hvalues).mpr
    intro g
    constructor
    · intro hg
      obtain ⟨g', hg', hfield⟩ := List.mem_map.mp (mem_values_field u g.field)
      have hsame := h g' hg'
      rw [hfield, hfold g hg, Option.some.injEq] at hsame
      exact hsame ▸ hg'
    · intro hg
      have hput := h g hg
      by_cases hf : g.field ∈ given.map Given.field
      · obtain ⟨g', hg', hfield⟩ := List.mem_map.mp hf
        rw [← hfield, hfold g' hg', Option.some.injEq] at hput
        exact hput ▸ hg'
      · have hnone : (given.foldl Draft.put .blank).get g.field = none :=
          (language.get_foldl_of_notMem hf Draft.blank).trans (language.get_blank _)
        rw [hnone] at hput
        cases hput
  · intro hp g hg
    exact hfold g (hp.mem_iff.mpr hg)

def value (u : User) : Field → Given
  | .id => .id u.id
  | .name => .name u.name.toList
  | .email => .email u.email.toList

theorem eq_values {given : List Given} {u : User} (hp : given.Perm u.values)
    (hf : given.map Given.field <+: language.order) : given = u.values := by
  have hlength : (given.map Given.field).length = language.order.length := by
    rw [List.length_map, hp.length_eq]
    rfl
  have hfields := hf.eq_of_length hlength
  have hvalue : ∀ g ∈ given, u.value g.field = g := by
    intro g hg
    have hmem := hp.mem_iff.mp hg
    simp only [values, List.mem_cons, List.not_mem_nil, or_false] at hmem
    rcases hmem with rfl | rfl | rfl <;> rfl
  calc given = given.map fun g => u.value g.field := by
        rw [List.map_congr_left hvalue, List.map_id']
    _ = (given.map Given.field).map u.value := by simp
    _ = u.values := by
        rw [hfields]
        rfl

theorem complete_iff {u : User} {w : List Char} :
    u.Complete w ↔
      ∃ given, language.Record given w ∧ (given.foldl Draft.put .blank).build = .ok u := by
  constructor
  · intro h
    rcases h with ⟨hitems, hp⟩ | hitems
    · have hn := (hp.map Given.field).nodup_iff.mpr (nodup_fields_values u)
      exact ⟨_, .object hitems hn, (build_foldl hn).mpr hp⟩
    · have hn := nodup_fields_values u
      exact ⟨_, .list hitems ⟨[], rfl⟩, (build_foldl hn).mpr (.refl _)⟩
  · rintro ⟨given, hrecord, hbuild⟩
    have hp := (build_foldl (language.nodup_of_record hrecord (by decide))).mp hbuild
    rcases hrecord with ⟨hitems, hn⟩ | ⟨hitems, hf⟩
    · exact .object hitems hp
    · obtain rfl := eq_values hp hf
      exact .list hitems

/-! ### Flawed records -/

/-- The first field, in the order of the record, for which no value is given. -/
def firstMissing? (given : List Given) : Option Field :=
  language.order.find? fun f => f ∉ given.map Given.field

theorem Draft.build_eq_error {d : Draft} {f : Field} :
    d.build = .error f ↔ language.order.find? (fun f => !d.holds f) = some f := by
  obtain ⟨id, name, email⟩ := d
  cases id <;> cases name <;> cases email <;> simp [Draft.build, language, Draft.holds]

theorem build_foldl_missing {given : List Given} (hn : (given.map Given.field).Nodup) {f : Field} :
    (given.foldl Draft.put .blank).build = .error f ↔ firstMissing? given = some f := by
  have hholds (f : Field) :
      (!(given.foldl Draft.put .blank).holds f) = decide (f ∉ given.map Given.field) := by
    have h : (given.foldl Draft.put .blank).holds f = true ↔ f ∈ given.map Given.field :=
      language.holds_foldl hn f
    by_cases hf : f ∈ given.map Given.field
    · simp [h.mpr hf, hf]
    · simp [eq_false_of_ne_true (mt h.mp hf), hf]
  rw [Draft.build_eq_error, firstMissing?]
  simp only [hholds]

def Field.wanted : Field → Wanted
  | id => .wordNumber
  | name => .text
  | email => .text

theorem Draft.read_refused {f : Field} {b v t : List Char} (hb : Json.Blanks b)
    (hv : Json.Sound v) (wrong : ∀ g : Given, g.field = f → ¬ g.Written v)
    (ht : Json.EndsNumber t) :
    ∃ fault, (∀ d, Draft.read f d (b ++ (v ++ t)) = .error fault) ∧
      Json.Refused f.wanted v fault.cause := by
  cases f with
  | id =>
    have hlarge := Json.wordLimit_le_of_no_word fun n hn => wrong (.id n) rfl (.id hn)
    obtain ⟨fault, hread, hrefused⟩ := Json.readWordNumber_refused hb hv hlarge ht
    exact ⟨fault, by simp [read, hread, Except.map], hrefused⟩
  | name =>
    obtain ⟨fault, hread, hrefused⟩ :=
      Json.readTextValue_refused hb hv (fun s hs => wrong (.name s) rfl (.name hs)) ht
    exact ⟨fault, by simp [read, hread, Except.map], hrefused⟩
  | email =>
    obtain ⟨fault, hread, hrefused⟩ :=
      Json.readTextValue_refused hb hv (fun s hs => wrong (.email s) rfl (.email hs)) ht
    exact ⟨fault, by simp [read, hread, Except.map], hrefused⟩

inductive Flaw where
  | missing (f : Field)
  | repeated (f : Field)
  | mistyped (f : Field) (value : List Char)

namespace Flaw

/-- The text starts with an object in which this is the first flaw. A field can only be missed at
the end of an object; what follows one of the other flaws does not matter. -/
inductive First : Flaw → List Char → Prop where
  | missing {items w f t} : Json.Items .object language.Member true items w →
      ((Json.givenBy items).map Given.field).Nodup →
      firstMissing? (Json.givenBy items) = some f → First (.missing f) ('{' :: (w ++ t))
  | repeated {items w f key t} : Json.Begun language.Member true items w →
      ((Json.givenBy items).map Given.field).Nodup → f ∈ (Json.givenBy items).map Given.field →
      Json.Content key (language.key f).toList →
      First (.repeated f) ('{' :: (w ++ '"' :: (key ++ '"' :: t)))
  | mistyped {items w f key a b v t} : Json.Begun language.Member true items w →
      ((Json.givenBy items).map Given.field).Nodup → f ∉ (Json.givenBy items).map Given.field →
      Json.Content key (language.key f).toList → Json.Blanks a → Json.Blanks b → Json.Sound v →
      (∀ g : Given, g.field = f → ¬ g.Written v) → Json.EndsNumber t →
      First (.mistyped f v) ('{' :: (w ++ '"' :: (key ++ '"' :: (a ++ ':' :: (b ++ (v ++ t))))))

def Blamed : Flaw → Json.Cause → Prop
  | missing f, cause => cause = .mismatch (.missingField (language.key f))
  | repeated f, cause => cause = .mismatch (.repeatedField (language.key f))
  | mistyped f v, cause => Json.Refused f.wanted v cause

theorem First.blamed {flaw : Flaw} {a w : List Char} {text : String} (h : First flaw w)
    (ha : Json.Blanks a) (ht : text.toList = a ++ w) :
    ∃ e, ofJson text = .error e ∧ flaw.Blamed e.cause := by
  cases h with
  | missing hitems hn hmissing =>
    exact language.decode_missing ha hitems hn ((build_foldl_missing hn).mpr hmissing) ht
  | repeated hbegun hn hf hk => exact language.decode_repeated ha hbegun hn hf hk ht
  | mistyped hbegun hn hf hk hb hb' hv wrong hends =>
    obtain ⟨fault, hread, hrefused⟩ := Draft.read_refused hb' hv wrong hends
    obtain ⟨e, he, hcause⟩ := language.decode_refused ha hbegun hn hf hk hb hread ht
    refine ⟨e, he, ?_⟩
    show Json.Refused _ _ e.cause
    rw [hcause]
    exact hrefused

end Flaw

/-- A text is read as a user exactly if, up to blanks, it is a complete record of that user. An
object that goes wrong is blamed for its first flaw. -/
theorem ofJson_complete_or_blamed (text : String) :
    (∀ u, ofJson text = .ok u ↔
      ∃ a w b, Json.Blanks a ∧ Json.Blanks b ∧ u.Complete w ∧ text.toList = a ++ (w ++ b)) ∧
    ∀ flaw a w, Json.Blanks a → Flaw.First flaw w → text.toList = a ++ w →
      ∃ e, ofJson text = .error e ∧ flaw.Blamed e.cause := by
  constructor
  · intro u
    constructor
    · intro h
      obtain ⟨given, ⟨a, w, b, ha, hb, hw, ht⟩, hbuild⟩ := language.decode_iff.mp h
      exact ⟨a, w, b, ha, hb, complete_iff.mpr ⟨given, hw, hbuild⟩, ht⟩
    · rintro ⟨a, w, b, ha, hb, hcomplete, ht⟩
      obtain ⟨given, hw, hbuild⟩ := complete_iff.mp hcomplete
      exact language.decode_iff.mpr ⟨given, ⟨a, w, b, ha, hb, hw, ht⟩, hbuild⟩
  · intro flaw a w ha hfirst ht
    exact hfirst.blamed ha ht

/-- Behind an unknown member and the id comes a key that is the id again once it is unescaped. What
follows is no JSON any more. -/
theorem ofJson_complete_or_blamed_escaped :
    let text := " \x7b\"x\":null,\"id\":7,\"\\u0069d\":tru"
    ∃ e, ofJson text = .error e ∧ e.cause = .mismatch (.repeatedField "id") := by
  intro text
  have hnull : language.Member none ['"', 'x', '"', ':', 'n', 'u', 'l', 'l'] :=
    .unknown (Json.content_escape ['x']) (by intro f; cases f <;> decide) Json.blanks_nil
      Json.blanks_nil .nullWord
  have hseven : Json.WholeNumber ['7'] 7 :=
    ⟨.positive rfl (by decide) Json.allDigits_nil, rfl⟩
  have hwritten : language.Written (.id 7) ['7'] := Given.Written.id hseven
  have hid : language.Member (some (.id 7)) ['"', 'i', 'd', '"', ':', '7'] :=
    .known (Json.content_escape ['i', 'd']) Json.blanks_nil Json.blanks_nil hwritten
  have hcomma : Json.Separator false [','] := .comma Json.blanks_nil Json.blanks_nil
  have hbegun : Json.Begun language.Member true [none, some (.id 7)]
      "\"x\":null,\"id\":7,".toList :=
    .next (.first Json.blanks_nil) hnull (.next hcomma hid (.start hcomma))
  have hunit : Json.Spelled ['\\', 'u', '0', '0', '6', '9'] 'i' :=
    .unit (.digits (.decimal (by decide) (by decide)) (.decimal (by decide) (by decide))
      (.decimal (by decide) (by decide)) (.decimal (by decide) (by decide))) (.inl (by decide))
  have hkey : Json.Content "\\u0069d".toList "id".toList :=
    .cons hunit (Json.content_escape ['d'])
  have hfirst : Flaw.First (.repeated .id) ('{' :: ("\"x\":null,\"id\":7,".toList ++
      '"' :: ("\\u0069d".toList ++ '"' :: [':', 't', 'r', 'u']))) :=
    .repeated hbegun (by decide) (by decide) hkey
  have hblank : Json.Blanks [' '] := by
    intro c hc
    exact .inl (List.mem_singleton.mp hc)
  exact (ofJson_complete_or_blamed text).2 _ _ _ hblank hfirst (by decide)

end Roster.User
