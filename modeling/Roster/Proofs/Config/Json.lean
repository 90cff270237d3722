import Roster.Config.File
import Roster.Proofs.Json.Printer

/-! Which JSON texts are configurations, and which configuration each of them is. A text counts for
the values that it gives and for nothing else: neither their order nor blanks, the spelling of keys
or members with unknown keys make a difference, and a field that is not given has its default. -/
namespace Roster.Config

inductive Given where
  | apiUrl (url : List Char)
  | timeout (n : UInt64)

namespace Given

def field : Given → Field
  | apiUrl _ => .apiUrl
  | timeout _ => .timeout

/-- How a value is written: the address as a text, the timeout as a whole number that fits 64 bits
and has neither sign nor fraction nor exponent. -/
inductive Written : Given → List Char → Prop where
  | apiUrl {url w} : Json.TextToken w url → Written (.apiUrl url) w
  | timeout {n w} : Json.WholeNumber w n.toNat → Written (.timeout n) w

def print : Given → String
  | apiUrl url => Json.literal (String.ofList url)
  | timeout n => Text.numeral n.toNat

theorem written_print (g : Given) : g.Written g.print.toList := by
  cases g with
  | apiUrl url => exact .apiUrl (by simpa [print] using Json.textToken_literal url)
  | timeout n => exact .timeout (Json.wholeNumber_numeral _)

theorem printable_print (g : Given) : Json.Printable g.print.toList := by
  cases g with
  | apiUrl url => simpa [print] using Json.printable_literal url
  | timeout n => exact Json.printable_numeral _

end Given

namespace Draft

def put (d : Draft) : Given → Draft
  | .apiUrl url => { d with apiUrl := some url }
  | .timeout n => { d with timeout := some n }

def get (d : Draft) : Field → Option Given
  | .apiUrl => d.apiUrl.map .apiUrl
  | .timeout => d.timeout.map .timeout

theorem readJson_append {b w t : List Char} {g : Given} (d : Draft) (hb : Json.Blanks b)
    (hw : g.Written w) (ht : Json.EndsNumber t) :
    readJson g.field d (b ++ (w ++ t)) = .ok (d.put g, t) := by
  cases hw with
  | apiUrl hw => simp [Given.field, readJson, Json.readTextValue_append hb hw, Except.map, put]
  | timeout hw =>
    simp [Given.field, readJson, Json.readWordNumber_append hb hw ht, Except.map, put]

theorem readJson_sound {f : Field} {d d' : Draft} {t rest : List Char}
    (h : readJson f d t = .ok (d', rest)) :
    ∃ b w g, Json.Blanks b ∧ Given.Written g w ∧ g.field = f ∧ d' = d.put g ∧
      t = b ++ (w ++ rest) := by
  cases f with
  | apiUrl =>
    obtain ⟨⟨url, more⟩, hr, he⟩ := Json.map_eq_ok h
    cases he
    obtain ⟨b, w, hb, hw, rfl⟩ := Json.readTextValue_sound hr
    exact ⟨b, w, .apiUrl url, hb, .apiUrl hw, rfl, rfl, rfl⟩
  | timeout =>
    obtain ⟨⟨n, more⟩, hr, he⟩ := Json.map_eq_ok h
    cases he
    obtain ⟨b, w, hb, hw, rfl⟩ := Json.readWordNumber_sound hr
    exact ⟨b, w, .timeout n, hb, .timeout hw, rfl, rfl, rfl⟩

end Draft

def language : schema.Language Given where
  key
    | .apiUrl => "api_url"
    | .timeout => "timeout"
  order := [.apiUrl, .timeout]
  field := Given.field
  Written := Given.Written
  put := Draft.put
  get := Draft.get
  head := by
    rintro g w (hw | hw)
    · exact hw.head
    · exact hw.head
  read_append := Draft.readJson_append
  read_sound := Draft.readJson_sound
  get_blank := by
    intro f
    cases f <;> rfl
  get_put_self := by
    intro d g
    cases g <;> rfl
  get_put_of_ne := by
    intro d g f hf
    cases g <;> cases f <;> first | rfl | exact absurd rfl hf
  holds_eq := by
    intro d f
    cases f <;> simp [schema, Draft.holds, Draft.get]
  label_eq := by
    intro f
    cases f <;> rfl
  fields_eq := rfl
  mem_order := by
    intro f
    cases f <;> decide
  key_injective := by
    intro f f' h
    cases f <;> cases f' <;> first | rfl | exact absurd h (by decide)

/-- The configuration has the values that are given, and defaults in place of all others. -/
structure Carries (c : Config) (given : List Given) : Prop where
  apiUrl : ∀ url, .apiUrl url ∈ given → c.apiUrl = String.ofList url
  timeout : ∀ n, .timeout n ∈ given → c.timeout = n
  defaultApiUrl : Field.apiUrl ∉ given.map Given.field → c.apiUrl = "https://api.example.com"
  defaultTimeout : Field.timeout ∉ given.map Given.field → c.timeout = 5000

theorem carries_build {given : List Given} (hn : (given.map Given.field).Nodup) :
    Carries (given.foldl Draft.put .blank).build given := by
  have hget : ∀ g ∈ given, (given.foldl Draft.put .blank).get g.field = some g := by
    intro g hg
    exact language.get_foldl_of_mem hn hg Draft.blank
  have hdefault : ∀ f, f ∉ given.map Given.field →
      (given.foldl Draft.put .blank).get f = none := by
    intro f hf
    exact (language.get_foldl_of_notMem hf Draft.blank).trans (language.get_blank f)
  generalize given.foldl Draft.put .blank = d at hget hdefault ⊢
  constructor
  · intro url hurl
    have h := hget _ hurl
    simp only [Given.field, Draft.get, Option.map_eq_some_iff] at h
    obtain ⟨_, h, he⟩ := h
    cases he
    simp [Draft.build, h]
  · intro n hn
    have h := hget _ hn
    simp only [Given.field, Draft.get, Option.map_eq_some_iff] at h
    obtain ⟨_, h, he⟩ := h
    cases he
    simp [Draft.build, h]
  · intro hf
    have h : d.apiUrl = none := by simpa [Draft.get] using hdefault _ hf
    simp [Draft.build, h, Config.defaultApiUrl]
  · intro hf
    have h : d.timeout = none := by simpa [Draft.get] using hdefault _ hf
    simp [Draft.build, h, Config.defaultTimeout]

/-- Only which values are given matters, not in which order. -/
theorem Carries.unique {c c' : Config} {given given' : List Given} (h : c.Carries given)
    (h' : c'.Carries given') (same : ∀ g, g ∈ given ↔ g ∈ given') : c = c' := by
  have hfield (f : Field) : f ∈ given.map Given.field ↔ f ∈ given'.map Given.field := by
    simp only [List.mem_map, same]
  have hurl : c.apiUrl = c'.apiUrl := by
    by_cases hf : Field.apiUrl ∈ given.map Given.field
    · obtain ⟨g, hg, hfield⟩ := List.mem_map.mp hf
      cases g with
      | apiUrl url => rw [h.apiUrl url hg, h'.apiUrl url ((same _).mp hg)]
      | timeout => cases hfield
    · rw [h.defaultApiUrl hf, h'.defaultApiUrl (fun hf' => hf ((hfield _).mpr hf'))]
  have htimeout : c.timeout = c'.timeout := by
    by_cases hf : Field.timeout ∈ given.map Given.field
    · obtain ⟨g, hg, hfield⟩ := List.mem_map.mp hf
      cases g with
      | apiUrl => cases hfield
      | timeout n => rw [h.timeout n hg, h'.timeout n ((same _).mp hg)]
    · rw [h.defaultTimeout hf, h'.defaultTimeout (fun hf' => hf ((hfield _).mpr hf'))]
  cases c
  cases c'
  cases hurl
  cases htimeout
  rfl

theorem nodup_of_gives {given : List Given} {text : String} (h : language.Gives given text) :
    (given.map Given.field).Nodup :=
  language.nodup_of_gives h (by decide)

theorem ofJson_of_gives {given : List Given} {text : String} (h : language.Gives given text) :
    ofJson text = .ok (given.foldl Draft.put .blank).build :=
  language.decode_iff.mpr ⟨given, h, rfl⟩

theorem parse_json_of_ok {text : String} {c : Config} (h : ofJson text = .ok c) :
    parse true text = .ok c := by
  rw [parse, if_pos rfl, h]
  rfl

theorem parse_json_of_error {text : String} {e : Json.Error} (h : ofJson text = .error e) :
    parse true text = .error (.json e) := by
  rw [parse, if_pos rfl, h]
  rfl

theorem ofJson_of_parse {text : String} {c : Config} (h : parse true text = .ok c) :
    ofJson text = .ok c := by
  cases hread : ofJson text with
  | ok c' =>
    rw [parse_json_of_ok hread, Except.ok.injEq] at h
    rw [h]
  | error e =>
    rw [parse_json_of_error hread] at h
    cases h

/-- A text is read exactly if it is a record of configuration values; it is read as the
configuration that carries them, and any other text is an error of JSON. Texts that give the same
values are read as the same configuration, whatever else sets them apart. -/
theorem parse_json_iff_gives (text : String) :
    (∀ c, parse true text = .ok c ↔ ∃ given, language.Gives given text ∧ c.Carries given) ∧
      ((∀ given, ¬ language.Gives given text) → ∃ e, parse true text = .error (.json e)) ∧
      ∀ text' given given', language.Gives given text → language.Gives given' text' →
        given.Perm given' → ∃ c, parse true text = .ok c ∧ parse true text' = .ok c := by
  refine ⟨?_, ?_, ?_⟩
  · intro c
    constructor
    · intro h
      obtain ⟨given, hgiven, hbuild⟩ := language.decode_iff.mp (ofJson_of_parse h)
      cases hbuild
      exact ⟨given, hgiven, carries_build (nodup_of_gives hgiven)⟩
    · rintro ⟨given, hgiven, hc⟩
      have hbuild := carries_build (nodup_of_gives hgiven)
      have hsame := hbuild.unique hc fun _ => Iff.rfl
      rw [← hsame]
      exact parse_json_of_ok (ofJson_of_gives hgiven)
  · intro none
    cases hread : ofJson text with
    | ok c =>
      obtain ⟨given, hgiven, -⟩ := language.decode_iff.mp hread
      exact absurd hgiven (none given)
    | error e => exact ⟨e, parse_json_of_error hread⟩
  · intro text' given given' h h' hp
    have hc := carries_build (nodup_of_gives h)
    have hc' := carries_build (nodup_of_gives h')
    have hsame := hc.unique hc' fun _ => hp.mem_iff
    refine ⟨_, parse_json_of_ok (ofJson_of_gives h), ?_⟩
    rw [hsame]
    exact parse_json_of_ok (ofJson_of_gives h')

/-! ### Printed configurations -/

def values (c : Config) : List Given := [.apiUrl c.apiUrl.toList, .timeout c.timeout]

theorem toJson_eq (c : Config) :
    c.toJson = Json.object (c.values.map fun g => (language.key g.field, g.print)) := by
  simp [toJson, values, Given.field, Given.print, language]

theorem delimited_toJson (c : Config) : Json.Delimited (parse true) c.toJson c := by
  have hn : (c.values.map Given.field).Nodup := by
    simp [values, Given.field]
  have hbuild : (c.values.foldl Draft.put .blank).build = c := by
    simp [values, Draft.put, Draft.build]
  have h := language.delimited_object Given.written_print Given.printable_print hn
    (congrArg Except.ok hbuild)
  rw [toJson_eq]
  exact h.mapError ServiceError.json

end Roster.Config
