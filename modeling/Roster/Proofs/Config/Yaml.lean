import Roster.Proofs.Config.Json
import Roster.Proofs.Yaml.Objects

/-! Printed configurations as YAML. An object in JSON is a mapping in flow style, so both readers
find the same values in it, and a file may go by any name. -/
namespace Roster.Config

open Yaml (Entry EventKind Member Style)

/-! ### Reading a mapping -/

theorem ofName?_label (f : Field) : Field.ofName? f.label.toList = some f := by
  cases f <;> decide

theorem readMembers_known {d : Draft} {f : Field} {key : Yaml.Event} {style : Style}
    {tag : Option (List UInt8)} (hkey : key.kind = .scalar f.label.toList style tag)
    (start : Yaml.Mark) (failure : Yaml.Error) (value : Yaml.Event) (entries : List Entry) :
    readMembers start failure d 0 (.node key :: .node value :: entries) =
      if d.holds f then .error (.mismatch (.repeatedField f.label) none start)
      else (d.readYaml f f.label value).bind (readMembers start failure · 0 entries) := by
  have hcloses : closes (.node key) = false := by simp [closes, hkey]
  have hread : readKey (.node key) = .ok (f.label.toList, f.label) := by
    simp [readKey, Entry.event, hkey]
  have hevent : (Entry.node value).event = value := rfl
  rw [readMembers]
  simp only [hcloses, hread, ofName?_label, hevent]
  cases d.readYaml f f.label value <;> rfl

theorem readMembers_field {d d' : Draft} {f : Field} {key value : Yaml.Event} {style : Style}
    {tag : Option (List UInt8)} (hkey : key.kind = .scalar f.label.toList style tag)
    (fresh : d.holds f = false) (hvalue : d.readYaml f f.label value = .ok d') (start : Yaml.Mark)
    (failure : Yaml.Error) (entries : List Entry) :
    readMembers start failure d 0 (.node key :: .node value :: entries) =
      readMembers start failure d' 0 entries := by
  rw [readMembers_known hkey, fresh, hvalue]
  rfl

theorem readMembers_close {e : Yaml.Event} (he : e.kind = .mappingEnd) (start : Yaml.Mark)
    (failure : Yaml.Error) (d : Draft) (entries : List Entry) :
    readMembers start failure d 0 (.node e :: entries) = .ok d := by
  have hcloses : closes (.node e) = true := by simp [closes, he]
  simp [readMembers, hcloses]

/-! ### Printed configurations -/

def addressMember (c : Config) : Member := ⟨Field.apiUrl.label.toList, .text c.apiUrl.toList⟩

def timeoutMember (c : Config) : Member := ⟨Field.timeout.label.toList, .number c.timeout.toNat⟩

theorem toList_toJson (c : Config) :
    c.toJson.toList = Yaml.objectChars c.addressMember [c.timeoutMember] := by
  rw [toJson, Json.toList_object, List.map_cons, Json.intercalate_trail]
  simp [Yaml.objectChars, Member.chars, Json.memberChars, addressMember, timeoutMember,
    Yaml.Leaf.chars, Field.label]

/-- All the text of the address has to be safe; everything else is. -/
def IsSafe (c : Config) : Prop := ∀ x ∈ c.apiUrl.toList, Yaml.IsSafe x

theorem safe_label (f : Field) : (∀ x ∈ f.label.toList, Yaml.IsSafe x) ∧
    Json.byteCount (Json.literalChars f.label.toList) ≤ Yaml.PendingKey.maxLength := by
  cases f with
  | apiUrl => exact ⟨Yaml.safe_of_all (by decide), by decide⟩
  | timeout => exact ⟨Yaml.safe_of_all (by decide), by decide⟩

theorem safe_addressMember {c : Config} (h : c.IsSafe) : c.addressMember.IsSafe :=
  ⟨(safe_label .apiUrl).1, (safe_label .apiUrl).2, h⟩

theorem safe_timeoutMember (c : Config) : ∀ m ∈ [c.timeoutMember], m.IsSafe := by
  intro m hm
  rw [List.mem_singleton.mp hm]
  exact ⟨(safe_label .timeout).1, (safe_label .timeout).2, trivial⟩

theorem isAllowed_of_mem_toJson {c : Config} (h : c.IsSafe) :
    ∀ x ∈ c.toJson.toList, Yaml.isAllowed x = true := by
  intro x hx
  have hprintable := c.delimited_toJson.printable x hx
  rw [toList_toJson] at hx
  have hsafe := Yaml.safe_object (safe_addressMember h) c.safe_timeoutMember x hx
  exact hsafe.isAllowed hprintable

theorem readMapping_toJson {c : Config} {events : List Yaml.Event}
    (h : Yaml.Bare events (Yaml.objectEvents [c.addressMember, c.timeoutMember]))
    (failure : Yaml.Error) :
    readMapping failure (events.map .node) =
      .ok ⟨some c.apiUrl.toList, some c.timeout⟩ := by
  have hkinds := h.kinds_eq
  simp only [Yaml.objectEvents, Member.events, List.flatMap_cons, List.flatMap_nil,
    List.append_nil, List.cons_append, List.nil_append, List.map_eq_cons_iff,
    List.map_eq_nil_iff] at hkinds
  obtain ⟨first, _, rfl, hfirst, key, _, rfl, hkey, value, _, rfl, hvalue, key', _, rfl, hkey',
    value', _, rfl, hvalue', last, _, rfl, hlast, rfl⟩ := hkinds
  have hurl : Draft.blank.readYaml .apiUrl Field.apiUrl.label value =
      .ok ⟨some c.apiUrl.toList, none⟩ := by
    simp [Draft.readYaml, hvalue, addressMember, Yaml.Leaf.content, Draft.blank]
  have htimeout : Draft.readYaml ⟨some c.apiUrl.toList, none⟩ .timeout Field.timeout.label value' =
      .ok ⟨some c.apiUrl.toList, some c.timeout⟩ := by
    have hnumber := Yaml.wordNumber?_numeral c.timeout
    simp only [Draft.readYaml, hvalue', timeoutMember, Yaml.Leaf.content, Yaml.Leaf.style, hnumber]
  simp only [List.map_cons, List.map_nil, readMapping, Entry.event, hfirst]
  rw [readMembers_field hkey rfl hurl, readMembers_field hkey' rfl htimeout,
    readMembers_close hlast]

theorem ofYaml_toJson {c : Config} (h : c.IsSafe) : ofYaml c.toJson = .ok c := by
  obtain ⟨tokens, hfeed, htokens⟩ :=
    Yaml.ofSource_object (safe_addressMember h) c.safe_timeoutMember
  obtain ⟨events, hdocument, hevents⟩ := Yaml.ofFeed_object htokens
  have htext : Yaml.Document.ofText c.toJson = ⟨events.map .node, none, false⟩ := by
    rw [Yaml.Document.ofText, Yaml.Feed.ofText,
      Yaml.Source.ofText_of_allowed (isAllowed_of_mem_toJson h), toList_toJson, hfeed, hdocument]
  have hread := readMapping_toJson hevents .moreDocuments
  rw [ofYaml, htext, ofDocument]
  simp only [Option.getD_none, hread]
  simp [Draft.build]

/-! ### Files -/

theorem readText_of_readBytes {files : FileSystem} {path text : String}
    (h : files.readBytes path = .ok text.toByteArray) : files.readText path = .ok text := by
  have hutf8 : String.fromUTF8? text.toByteArray = some text := dif_pos text.isValidUTF8
  simp [FileSystem.readText, h, hutf8]

/-- A printed configuration is read back in either format, and from a file by whatever name. -/
theorem formats_agree {c : Config} (h : c.IsSafe) :
    parse false c.toJson = .ok c ∧ parse true c.toJson = .ok c ∧
      ∀ files path, FileSystem.readBytes files path = .ok c.toJson.toByteArray →
        (load files path).reply = .ok c := by
  have hyaml : parse false c.toJson = .ok c := by
    rw [parse, if_neg Bool.false_ne_true, ofYaml_toJson h]
    rfl
  have hjson : parse true c.toJson = .ok c := by
    have hnone : Json.Blanks "".toList := Json.blanks_nil
    have hdecoded := c.delimited_toJson.decode_between "" "" hnone hnone
    simpa using hdecoded
  refine ⟨hyaml, hjson, ?_⟩
  intro files path hbytes
  simp only [load, readText_of_readBytes hbytes]
  cases Path.isJson path with
  | true => exact hjson
  | false => exact hyaml

/-- An address with a quote, a tab and a letter beyond ASCII, in a file without an extension. -/
theorem formats_agree_on_escapes :
    let c : Config := ⟨"say \"\té\"", 250⟩
    let files := FileTree.mounted (.directory [(['c', 'o', 'n', 'f'], .file c.toJson.toByteArray)])
    c.IsSafe ∧ parse false c.toJson = .ok c ∧ parse true c.toJson = .ok c ∧
      (load files "conf").reply = .ok c := by
  intro c files
  have safe : c.IsSafe := Yaml.safe_of_all (by decide)
  obtain ⟨hyaml, hjson, hfile⟩ := formats_agree safe
  have hbytes : files.readBytes "conf" = .ok c.toJson.toByteArray := rfl
  exact ⟨safe, hyaml, hjson, hfile files "conf" hbytes⟩

end Roster.Config
