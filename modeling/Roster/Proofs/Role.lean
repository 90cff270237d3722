import Roster.Proofs.Json.Printer
import Roster.Role.Json

/-! Which JSON texts are roles. A role is taken by its own name only: as a text, or as the key of an
object with nothing else in it than this key and null. How the name is spelled makes no difference,
but a name that only resembles that of a role is no role. -/
namespace Roster.Role

/-- The ways to write a name where a role is expected, whether there is a role of that name or
not. -/
inductive Written : List Char → List Char → Prop where
  | text {name w} : Json.TextToken w name → Written name w
  | object {name key a b c d} : Json.Blanks a → Json.TextToken key name → Json.Blanks b →
      Json.Blanks c → Json.Blanks d →
      Written name
        ('{' :: (a ++ (key ++ (b ++ ':' :: (c ++ ("null".toList ++ (d ++ ['}'])))))))

def Names (name text : String) : Prop :=
  ∃ a w b, Json.Blanks a ∧ Json.Blanks b ∧ Written name.toList w ∧ text.toList = a ++ (w ++ b)

/-! ### Names of roles -/

theorem ofName?_eq_some {name : List Char} {r : Role} :
    ofName? name = some r ↔ name = r.name.toList := by
  constructor
  · intro h
    have hname := List.find?_some h
    exact (beq_iff_eq.mp hname).symm
  · rintro rfl
    exact ofName?_name r

theorem ofName?_eq_none {name : List Char} :
    ofName? name = none ↔ ∀ r : Role, r.name.toList ≠ name := by
  constructor
  · rintro h r rfl
    rw [ofName?_name] at h
    cases h
  · intro h
    cases hfound : ofName? name with
    | none => rfl
    | some r => exact absurd (ofName?_eq_some.mp hfound).symm (h r)

theorem named_sound {name t rest : List Char} {r : Role} (h : named name t = .ok (r, rest)) :
    name = r.name.toList ∧ t = rest := by
  unfold named at h
  split at h
  · next hfound =>
    cases h
    exact ⟨ofName?_eq_some.mp hfound, rfl⟩
  · cases h

/-! ### What is written is read -/

theorem readName_content {w name : List Char} (h : Json.Content w name) (t : List Char) :
    readName (w ++ '"' :: t) = named name t := by
  rw [readName, Json.readText_iff.mpr ⟨w, h, rfl⟩]

theorem read_text {a w name : List Char} (ha : Json.Blanks a) (hw : Json.TextToken w name)
    (t : List Char) : read (a ++ (w ++ t)) = named name t := by
  cases hw with
  | @quoted v _ hv =>
    have hskip := Json.skipBlanks_append_cons ha (c := '"') rfl (v ++ '"' :: t)
    simp [read, hskip, readName_content hv]

theorem read_brace {a : List Char} (ha : Json.Blanks a) (t : List Char) :
    read (a ++ '{' :: t) = readMember t := by
  simp [read, Json.skipBlanks_append_cons ha (c := '{') rfl]

theorem readKey_token {a key name : List Char} (ha : Json.Blanks a)
    (hkey : Json.TextToken key name) (t : List Char) :
    readKey (a ++ (key ++ t)) = named name t := by
  cases hkey with
  | @quoted v _ hv =>
    have hskip := Json.skipBlanks_append_cons ha (c := '"') rfl (v ++ '"' :: t)
    simp [readKey, hskip, readName_content hv]

theorem readNull_append {c : List Char} (hc : Json.Blanks c) (t : List Char) :
    readNull (c ++ ("null".toList ++ t)) = .ok t := by
  have hskip := Json.skipBlanks_append_cons hc (c := 'n') rfl ('u' :: 'l' :: 'l' :: t)
  have hword : Json.readWord ['u', 'l', 'l'] ('u' :: 'l' :: 'l' :: t) = .ok t :=
    Json.readWord_append ['u', 'l', 'l'] t
  simp [readNull, hskip, hword]

theorem readMember_known {a key b c d name : List Char} {r : Role} (ha : Json.Blanks a)
    (hkey : Json.TextToken key name) (hb : Json.Blanks b) (hc : Json.Blanks c)
    (hd : Json.Blanks d) (known : ofName? name = some r) (t : List Char) :
    readMember (a ++ (key ++ (b ++ ':' :: (c ++ ("null".toList ++ (d ++ '}' :: t)))))) =
      .ok (r, t) := by
  have hread := readKey_token ha hkey (b ++ ':' :: (c ++ ("null".toList ++ (d ++ '}' :: t))))
  rw [named, known] at hread
  simp only [readMember, hread, Json.readColon_append hb, readNull_append hc,
    Json.skipBlanks_append_cons hd (c := '}') rfl, if_true]

theorem read_known {a w name : List Char} {r : Role} (ha : Json.Blanks a) (hw : Written name w)
    (known : ofName? name = some r) (t : List Char) : read (a ++ (w ++ t)) = .ok (r, t) := by
  cases hw with
  | text hw => rw [read_text ha hw, named, known]
  | object hb hkey hc hd he =>
    simp only [List.cons_append, List.append_assoc, List.nil_append]
    rw [read_brace ha]
    exact readMember_known hb hkey hc hd he known t

/-- A name that is not the name of a role is refused before anything behind it is read. -/
theorem read_unknown {a w name : List Char} (ha : Json.Blanks a) (hw : Written name w)
    (unknown : ofName? name = none) (t : List Char) :
    ∃ rest, read (a ++ (w ++ t)) =
      .error (.behind (.mismatch (.unknownVariant name (all.map Role.name))) rest) := by
  cases hw with
  | text hw => exact ⟨t, by rw [read_text ha hw, named, unknown]⟩
  | @object key _ b c d hb hkey hc hd he =>
    let rest := b ++ ':' :: (c ++ ("null".toList ++ (d ++ '}' :: t)))
    have hread := readKey_token hb hkey rest
    rw [named, unknown] at hread
    refine ⟨rest, ?_⟩
    simp only [List.cons_append, List.append_assoc, List.nil_append]
    rw [read_brace ha, readMember, hread]

/-! ### What is read is written -/

theorem readName_sound {t rest : List Char} {r : Role} (h : readName t = .ok (r, rest)) :
    ∃ w, Json.TextToken w r.name.toList ∧ '"' :: t = w ++ rest := by
  unfold readName at h
  split at h
  · next name more hr =>
    obtain ⟨w, hw, rfl⟩ := Json.readText_iff.mp hr
    obtain ⟨rfl, rfl⟩ := named_sound h
    exact ⟨_, .quoted hw, by simp⟩
  · cases h

theorem readKey_sound {t rest : List Char} {r : Role} (h : readKey t = .ok (r, rest)) :
    ∃ a key, Json.Blanks a ∧ Json.TextToken key r.name.toList ∧ t = a ++ (key ++ rest) := by
  obtain ⟨a, ha, ht⟩ := Json.exists_blanks t
  unfold readKey at h
  split at h
  · cases h
  · next hs =>
    split at h
    · next hc =>
      obtain ⟨key, hkey, hrest⟩ := readName_sound h
      exact ⟨a, key, ha, hkey, by rw [ht, hs, hc, hrest]⟩
    · split at h <;> cases h

theorem readNull_sound {t rest : List Char} (h : readNull t = .ok rest) :
    ∃ c, Json.Blanks c ∧ t = c ++ ("null".toList ++ rest) := by
  obtain ⟨c, hc, ht⟩ := Json.exists_blanks t
  unfold readNull at h
  split at h
  · cases h
  · next hs =>
    split at h
    · next hn =>
      refine ⟨c, hc, ?_⟩
      rw [ht, hs, hn, Json.readWord_sound h]
      rfl
    · cases h

theorem readMember_sound {t rest : List Char} {r : Role} (h : readMember t = .ok (r, rest)) :
    ∃ w, Written r.name.toList ('{' :: w) ∧ t = w ++ rest := by
  unfold readMember at h
  split at h
  · cases h
  · next hkey =>
    split at h
    · cases h
    · next hcolon =>
      split at h
      · cases h
      · next behind hnull =>
        obtain ⟨d, hd, hbehind⟩ := Json.exists_blanks behind
        split at h
        · cases h
        · next hs =>
          split at h
          · next hc =>
            cases h
            obtain ⟨a, key, ha, htoken, rfl⟩ := readKey_sound hkey
            obtain ⟨b, hb, rfl⟩ := Json.readColon_sound hcolon
            obtain ⟨c, hc', rfl⟩ := readNull_sound hnull
            refine ⟨_, .object ha htoken hb hc' hd, ?_⟩
            rw [hbehind, hs, hc]
            simp
          · cases h

theorem read_sound {t rest : List Char} {r : Role} (h : read t = .ok (r, rest)) :
    ∃ a w, Json.Blanks a ∧ Written r.name.toList w ∧ t = a ++ (w ++ rest) := by
  obtain ⟨a, ha, ht⟩ := Json.exists_blanks t
  unfold read at h
  split at h
  · cases h
  · next hs =>
    split at h
    · next hc =>
      obtain ⟨w, hw, hrest⟩ := readMember_sound h
      exact ⟨a, _, ha, hw, by rw [ht, hs, hc, hrest]; rfl⟩
    · split at h
      · next hc =>
        obtain ⟨w, hw, hrest⟩ := readName_sound h
        exact ⟨a, w, ha, .text hw, by rw [ht, hs, hc, hrest]⟩
      · cases h

/-! ### Whole texts -/

theorem ofJson_eq_ok {text : String} {r : Role} : ofJson text = .ok r ↔ Names r.name text := by
  rw [ofJson, Json.readWhole_iff]
  constructor
  · rintro ⟨b, hread, hb⟩
    obtain ⟨a, w, ha, hw, htext⟩ := read_sound hread
    exact ⟨a, w, b, ha, hb, hw, htext⟩
  · rintro ⟨a, w, b, ha, hb, hw, htext⟩
    exact ⟨b, by rw [htext, read_known ha hw (ofName?_name r)], hb⟩

theorem names_toJson (r : Role) : Names r.name r.toJson :=
  ⟨[], Json.literalChars r.name.toList, [], Json.blanks_nil, Json.blanks_nil,
    .text (Json.textToken_literal _), by simp [toJson]⟩

theorem name_eq {name text : String} {r : Role} (h : Names name text)
    (hread : ofJson text = .ok r) : name = r.name := by
  obtain ⟨b, hread, -⟩ := Json.readWhole_iff.mp hread
  obtain ⟨a, w, c, ha, -, hw, htext⟩ := h
  cases hfound : ofName? name.toList with
  | some s =>
    rw [htext, read_known ha hw hfound] at hread
    cases hread
    exact String.toList_inj.mp (ofName?_eq_some.mp hfound)
  | none =>
    obtain ⟨rest, hrefused⟩ := read_unknown ha hw hfound c
    rw [htext, hrefused] at hread
    cases hread

theorem message_unknown (name : String) :
    (Json.Cause.mismatch (.unknownVariant name.toList (all.map Role.name))).message =
      "unknown variant `" ++ name ++
        "`, expected one of `admin`, `moderator`, `member`, `guest`" := by
  have hknown : ", ".intercalate ((all.map Role.name).map backquoted) =
      "`admin`, `moderator`, `member`, `guest`" := by decide
  have hmessage : (Json.Cause.mismatch (.unknownVariant name.toList (all.map Role.name))).message =
      "unknown variant " ++ backquoted (String.ofList name.toList) ++ ", expected one of " ++
        ", ".intercalate ((all.map Role.name).map backquoted) := rfl
  have hfront : "unknown variant `" = "unknown variant " ++ "`" := rfl
  have hback : "`, expected one of `admin`, `moderator`, `member`, `guest`" =
      "`" ++ ", expected one of " ++ "`admin`, `moderator`, `member`, `guest`" := rfl
  rw [hmessage, hknown, hfront, hback]
  simp only [backquoted, String.ofList_toList, String.append_assoc]

theorem ofJson_unknown {name text : String} (h : Names name text)
    (unknown : ∀ r : Role, r.name ≠ name) :
    ∃ e, ofJson text = .error e ∧
      e.cause = .mismatch (.unknownVariant name.toList (all.map Role.name)) := by
  obtain ⟨a, w, b, ha, -, hw, htext⟩ := h
  have hnone : ofName? name.toList = none :=
    ofName?_eq_none.mpr fun r hr => unknown r (String.toList_inj.mp hr)
  obtain ⟨rest, hread⟩ := read_unknown ha hw hnone b
  have hcause := Json.locate_cause text.toList
    (.behind (.mismatch (.unknownVariant name.toList (all.map Role.name))) rest)
  refine ⟨_, ?_, hcause⟩
  rw [ofJson, Json.readWhole, htext, hread]

/-- A role is read from the texts that name it, and from no others; what is printed for a role names
this role. Only the name `admin` makes an admin, and any name that is not the name of a role is
refused and quoted. -/
theorem ofJson_iff_names (text : String) :
    (∀ r, ofJson text = .ok r ↔ Names r.name text) ∧
      (∀ r s : Role, ofJson r.toJson = .ok s ↔ s = r) ∧
      ∀ name, Names name text →
        ((∃ r, ofJson text = .ok r ∧ r.isAdmin = true) ↔ name = "admin") ∧
        ((∀ r : Role, r.name ≠ name) → ∃ e, ofJson text = .error e ∧
          e.cause.message = "unknown variant `" ++ name ++
            "`, expected one of `admin`, `moderator`, `member`, `guest`") := by
  refine ⟨fun r => ofJson_eq_ok, ?_, ?_⟩
  · intro r s
    constructor
    · intro h
      exact (name_injective (name_eq r.names_toJson h)).symm
    · rintro rfl
      exact ofJson_eq_ok.mpr s.names_toJson
  · intro name hname
    refine ⟨⟨?_, ?_⟩, ?_⟩
    · rintro ⟨r, hread, hadmin⟩
      rw [name_eq hname hread, (isAdmin_iff r).mp hadmin]
      rfl
    · rintro rfl
      exact ⟨admin, ofJson_eq_ok.mpr hname, rfl⟩
    · intro unknown
      obtain ⟨e, he, hcause⟩ := ofJson_unknown hname unknown
      exact ⟨e, he, by rw [hcause, message_unknown]⟩

/-- An escape in the key makes no difference, a capital letter does. -/
theorem ofJson_iff_names_escaped :
    ofJson " \x7b\"\\u0061dmin\" :null\x7d" = .ok admin ∧
      ∃ e, ofJson "\"Admin\"" = .error e ∧ e.cause.message =
        "unknown variant `Admin`, expected one of `admin`, `moderator`, `member`, `guest`" := by
  have hspace : Json.Blanks [' '] := by
    intro c hc
    exact .inl (List.mem_singleton.mp hc)
  have hdigit {c : Char} {n : Nat} (h : Text.hexValue? c = some n) : Json.HexDigit c n :=
    Json.hexDigit_iff.mpr h
  have hunit : Json.CodeUnit ['0', '0', '6', '1'] (((0 * 16 + 0) * 16 + 6) * 16 + 1) :=
    .digits (hdigit rfl) (hdigit rfl) (hdigit rfl) (hdigit rfl)
  have ha : Json.Spelled ['\\', 'u', '0', '0', '6', '1'] 'a' := .unit hunit (.inl (by decide))
  have hadmin : Names "admin" " \x7b\"\\u0061dmin\" :null\x7d" :=
    ⟨[' '], _, [], hspace, Json.blanks_nil,
      .object Json.blanks_nil (.quoted (.cons ha (Json.content_escape "dmin".toList))) hspace
        Json.blanks_nil Json.blanks_nil, rfl⟩
  have hcapital : Names "Admin" "\"Admin\"" :=
    ⟨[], _, [], Json.blanks_nil, Json.blanks_nil, .text (Json.textToken_literal "Admin".toList),
      rfl⟩
  have hnone : ∀ r : Role, r.name ≠ "Admin" := by
    intro r
    cases r <;> decide
  constructor
  · exact ((ofJson_iff_names _).1 admin).mpr hadmin
  · exact ((ofJson_iff_names _).2.2 "Admin" hcapital).2 hnone

end Roster.Role
