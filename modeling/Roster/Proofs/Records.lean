import Roster.Proofs.Config.Json
import Roster.Proofs.User

/-! What users and configurations have in common as JSON records: they are read back as printed, and
a number in place of a timeout or an id is taken as it is or not at all. -/
namespace Roster

/-- Users and configurations are decoded from what is printed for them. A printed text that has
lost its end is never decoded, not even to a record with defaults, and neither is one with anything
but blanks behind it. -/
theorem toJson_selfDelimiting :
    (∀ u : User, Json.Delimited User.ofJson u.toJson u) ∧
      ∀ c : Config, Json.Delimited (Config.parse true) c.toJson c :=
  ⟨User.delimited_toJson, Config.delimited_toJson⟩

/-! ## Numbers as words

A number in place of the value of a field that wants a word of 64 bits. Nothing is rounded, cut off
or wrapped around. -/

namespace Json

/-- What becomes of a number where a word is wanted. Only a whole number that fits is a word. A
negative one that fits a signed word is called by its value; any other number is called a double,
or out of range. -/
structure Judged (w : List Char) (outcome : Except Error UInt64) : Prop where
  word : ∀ n : UInt64, outcome = .ok n ↔ WholeNumber w n.toNat
  negative : ∀ v n, w = '-' :: v → WholeNumber v n → 0 < n → n ≤ wordLimit / 2 →
    ∃ e, outcome = .error e ∧
      e.cause.message = "invalid value: integer `-" ++ Text.numeral n ++ "`, expected u64"
  other : (∀ n, WholeNumber w n → wordLimit ≤ n) →
    (∀ v n, w = '-' :: v → WholeNumber v n → n = 0 ∨ wordLimit / 2 < n) →
    ∃ e, outcome = .error e ∧ (e.cause.message = "number out of range" ∨
      ∃ x : Float, e.cause.message =
        "invalid type: floating point `" ++ spelling.number.render x ++ "`, expected u64")

theorem not_wholeNumber_minus {v : List Char} {n : Nat} : ¬ WholeNumber ('-' :: v) n := by
  intro h
  cases h.form.allDigits.head

theorem no_word {w : List Char} {e : Error} (wrong : ∀ n, WholeNumber w n → wordLimit ≤ n)
    (n : UInt64) : (.error e : Except Error UInt64) = .ok n ↔ WholeNumber w n.toNat := by
  constructor
  · intro h
    cases h
  · intro h
    have fits : n.toNat < wordLimit := n.toNat_lt
    exact absurd (wrong _ h) (Nat.not_le_of_lt fits)

theorem judged_word {w : List Char} {n : UInt64} (h : WholeNumber w n.toNat) :
    Judged w (.ok n) where
  word := by
    intro m
    constructor
    · intro hm
      cases hm
      exact h
    · intro hm
      rw [UInt64.toNat_inj.mp (h.value.symm.trans hm.value)]
  negative := by
    rintro v k rfl
    exact absurd h not_wholeNumber_minus
  other := by
    intro large
    have fits : n.toNat < wordLimit := n.toNat_lt
    exact absurd (large _ h) (Nat.not_le_of_lt fits)

theorem message_negative {n : Nat} (hpos : 0 < n) (fits : n ≤ wordLimit / 2) :
    (Cause.mismatch (.wrongValue (.integer (-n)) .wordNumber)).message =
      "invalid value: integer `-" ++ Text.numeral n ++ "`, expected u64" := by
  have hsmall : ¬ (UInt64.size : Int) ≤ -n := by
    simp only [UInt64.size]
    omega
  have hnear : ¬ (-n : Int) < -((UInt64.size / 2 : Nat) : Int) := by
    simp only [wordLimit] at fits
    omega
  have hsign : Text.signedNumeral (-n) = "-" ++ Text.numeral n := by
    rw [Text.signedNumeral, if_pos (by omega), Int.natAbs_neg, Int.natAbs_natCast]
  have hmessage : (Cause.mismatch (.wrongValue (.integer (-n)) .wordNumber)).message =
      "invalid value: " ++ describeInteger (-n) ++ ", expected " ++ "u64" := rfl
  have hfront : "invalid value: integer `-" = "invalid value: " ++ "integer " ++ "`" ++ "-" := rfl
  have hback : "`, expected u64" = "`" ++ ", expected " ++ "u64" := rfl
  rw [hmessage, hfront, hback]
  simp only [describeInteger, if_neg hsmall, if_neg hnear, hsign, backquoted, String.append_assoc]

theorem message_double (x : Float) :
    (Cause.mismatch (.wrongType (.float x) .wordNumber)).message =
      "invalid type: floating point `" ++ spelling.number.render x ++ "`, expected u64" := by
  have hmessage : (Cause.mismatch (.wrongType (.float x) .wordNumber)).message =
      "invalid type: " ++ ("floating point " ++ backquoted (spelling.number.render x)) ++
        ", expected " ++ "u64" := rfl
  have hfront : "invalid type: floating point `" =
      "invalid type: " ++ "floating point " ++ "`" := rfl
  have hback : "`, expected u64" = "`" ++ ", expected " ++ "u64" := rfl
  rw [hmessage, hfront, hback]
  simp only [backquoted, String.append_assoc]

theorem NumberToken.sound {w : List Char} (h : NumberToken w) : Sound w := by
  refine ⟨.number h, ?_⟩
  rintro v rfl
  obtain ⟨c, u, he, hc⟩ := h.head
  cases he
  rcases hc with hc | hc <;> cases hc

theorem judged_double {w : List Char} {e : Error} (wrong : ∀ n, WholeNumber w n → wordLimit ≤ n)
    (hnone : ∀ number, ¬ Exact w number)
    (hcause : e.cause = .numberOutOfRange ∨
      ∃ x, e.cause = .mismatch (.wrongType (.float x) .wordNumber)) : Judged w (.error e) where
  word := no_word wrong
  negative := by
    rintro v n rfl hv hpos fits
    exact absurd (.negative hv hpos fits) (hnone _)
  other := by
    intro _ _
    refine ⟨e, rfl, ?_⟩
    rcases hcause with hcause | ⟨x, hcause⟩
    · left
      rw [hcause]
      rfl
    · right
      exact ⟨x, by rw [hcause, message_double]⟩

theorem judged_negative {w : List Char} {n : Nat} {e : Error} (h : Exact w (.negative n))
    (hcause : e.cause = .mismatch (.wrongValue (.integer (-n)) .wordNumber)) :
    Judged w (.error e) := by
  cases h with
  | @negative v _ hv hpos fits =>
    constructor
    · exact no_word (fun m hm => absurd hm not_wholeNumber_minus)
    · rintro v' m he hv' - -
      cases he
      obtain rfl : n = m := hv.value.symm.trans hv'.value
      exact ⟨e, rfl, by rw [hcause, message_negative hpos fits]⟩
    · intro _ far
      have hfar := far v n rfl hv
      omega

theorem judged_refused {w : List Char} {e : Error} (hw : NumberToken w)
    (wrong : ∀ n, WholeNumber w n → wordLimit ≤ n) (h : Refused .wordNumber w e.cause) :
    Judged w (.error e) := by
  obtain ⟨c, u, hu, hc⟩ := hw.head
  generalize hcause : e.cause = cause at h
  cases h with
  | negative hn => exact judged_negative hn hcause
  | double _ hnone => exact judged_double wrong hnone (.inr ⟨_, hcause⟩)
  | outOfRange _ hnone => exact judged_double wrong hnone (.inl hcause)
  | text ht =>
    cases ht
    cases hu
    rcases hc with hc | hc <;> cases hc
  | _ =>
    -- The words and brackets do not start like a number.
    cases hu
    rcases hc with hc | hc <;> cases hc

/-! ### Numbers in an object -/

theorem Begun.items {β : Type} {frame : Frame} {Item : β → List Char → Prop} {first : Bool}
    {xs ys : List β} {x : β} {w v u : List Char} (h : Begun Item first xs w) (hx : Item x v)
    (hrest : Items frame Item false ys u) :
    Items frame Item first (xs ++ x :: ys) (w ++ (v ++ u)) := by
  induction h with
  | start ha => exact .next ha hx hrest
  | next ha hx' _ ih => simpa using Items.next ha hx' ih

namespace Schema.Language

variable {φ δ α γ : Type} {s : Schema φ δ α} (L : Language s γ)

/-- An object between blanks in which this stands in place of the value of a field, whatever it
is. The other members give these values, each for a field of its own. -/
inductive Placed (f : φ) (v : List Char) : List γ → List Char → Prop where
  | object {before behind p q key a b c d} : Blanks a → Begun L.Member true before p →
      Content key (L.key f).toList → Blanks b → Blanks c →
      Items .object L.Member false behind q → Blanks d →
      (f :: (givenBy before ++ givenBy behind).map L.field).Nodup →
      Placed f v (givenBy before ++ givenBy behind)
        (a ++ '{' :: (p ++ '"' :: (key ++ '"' :: (b ++ ':' :: (c ++ (v ++ (q ++ d)))))))

variable {L} {f : φ} {v w : List Char} {others : List γ} {text : String}

theorem Placed.gives (h : L.Placed f v others w) {g : γ} (hg : L.Written g v)
    (hf : L.field g = f) (ht : text.toList = w) :
    ∃ given, L.Gives given text ∧ given.Perm (g :: others) := by
  subst hf
  cases h with
  | @object before behind p q key a b c d ha hbefore hkey hb hc hbehind hd hn =>
    have hitems := hbefore.items (.known hkey hb hc hg) hbehind
    have hgiven : (before ++ some g :: behind).filterMap id =
        givenBy before ++ g :: givenBy behind := by
      simp [givenBy]
    have hperm : (givenBy before ++ g :: givenBy behind).Perm
        (g :: (givenBy before ++ givenBy behind)) := List.perm_middle
    have hn' : (((before ++ some g :: behind).filterMap id).map L.field).Nodup := by
      rw [hgiven]
      exact (hperm.map L.field).nodup_iff.mpr hn
    refine ⟨_, ⟨a, _, d, ha, hd, .object hitems hn', ?_⟩, hgiven ▸ hperm⟩
    rw [ht]
    simp [Frame.opening]

theorem Placed.refused (h : L.Placed f v others w) {P : Cause → Prop}
    (hread : ∀ b t, Blanks b → EndsNumber t →
      ∃ fault, (∀ d, s.read f d (b ++ (v ++ t)) = .error fault) ∧ P fault.cause)
    (ht : text.toList = w) : ∃ e, s.decode text = .error e ∧ P e.cause := by
  cases h with
  | @object before behind p q key a b c d ha hbefore hkey hb hc hbehind hd hn =>
    rw [List.nodup_cons, List.map_append, List.nodup_append] at hn
    obtain ⟨hf, hn, -, -⟩ := hn
    have hfree : f ∉ (givenBy before).map L.field := fun h => hf (List.mem_append_left _ h)
    obtain ⟨fault, hfault, hcause⟩ := hread c (q ++ d) hc (endsNumber_of_items hbehind d)
    obtain ⟨e, he, hsame⟩ := L.decode_refused ha hbefore hn hfree hkey hb hfault ht
    exact ⟨e, he, hsame ▸ hcause⟩

theorem Placed.judged (h : L.Placed f v others w) (hv : NumberToken v) {value : α → UInt64}
    (hread : ∀ t fault, readWordNumber t = .error fault → ∀ d, s.read f d t = .error fault)
    (hword : ∀ n : UInt64, WholeNumber v n.toNat → ∃ a, s.decode text = .ok a ∧ value a = n)
    (ht : text.toList = w) : Judged v ((s.decode text).map value) := by
  by_cases hn : ∃ n : UInt64, WholeNumber v n.toNat
  · obtain ⟨n, hn⟩ := hn
    obtain ⟨a, ha, hvalue⟩ := hword n hn
    rw [ha, Except.map, hvalue]
    exact judged_word hn
  · have wrong := wordLimit_le_of_no_word fun n hnumber => hn ⟨n, hnumber⟩
    have hrefused : ∀ b t, Blanks b → EndsNumber t →
        ∃ fault, (∀ d, s.read f d (b ++ (v ++ t)) = .error fault) ∧
          Refused .wordNumber v fault.cause := by
      intro b t hb ht
      obtain ⟨fault, hfault, hcause⟩ := readWordNumber_refused hb hv.sound wrong ht
      exact ⟨fault, hread _ _ hfault, hcause⟩
    obtain ⟨e, he, hcause⟩ := h.refused hrefused ht
    rw [he, Except.map]
    exact judged_refused hv wrong hcause

end Schema.Language
end Json

/-! ## Timeouts and ids -/

open Json.Schema.Language (Placed)

theorem Config.timeout_judged {v w : List Char} {others : List Config.Given} {text : String}
    (h : Placed Config.language .timeout v others w) (hv : Json.NumberToken v)
    (ht : text.toList = w) : Json.Judged v ((Config.ofJson text).map Config.timeout) := by
  apply h.judged hv _ _ ht
  · intro t fault hfault d
    simp [schema, Draft.readJson, hfault, Except.map]
  · intro n hn
    have hwritten : language.Written (.timeout n) v := Given.Written.timeout hn
    obtain ⟨given, hgiven, hperm⟩ := h.gives hwritten rfl ht
    have hcarries := carries_build (nodup_of_gives hgiven)
    have htimeout := hcarries.timeout n (hperm.mem_iff.mpr List.mem_cons_self)
    exact ⟨_, ofJson_of_gives hgiven, htimeout⟩

theorem User.id_judged {v w name email : List Char} {others : List User.Given} {text : String}
    (h : Placed User.language .id v others w) (complete : others.Perm [.name name, .email email])
    (hv : Json.NumberToken v) (ht : text.toList = w) :
    Json.Judged v ((User.ofJson text).map User.id) := by
  apply h.judged hv _ _ ht
  · intro t fault hfault d
    simp [schema, Draft.read, hfault, Except.map]
  · intro n hn
    have hwritten : language.Written (.id n) v := Given.Written.id hn
    obtain ⟨given, hgiven, hperm⟩ := h.gives hwritten rfl ht
    let user : User := ⟨n, String.ofList name, String.ofList email⟩
    have hvalues : user.values = [.id n, .name name, .email email] := by
      simp [values, user]
    have hall : given.Perm user.values := by
      rw [hvalues]
      exact hperm.trans (complete.cons _)
    have hbuild := (build_foldl (language.nodup_of_gives hgiven (by decide))).mpr hall
    exact ⟨user, language.decode_iff.mpr ⟨given, hgiven, hbuild⟩, rfl⟩

/-- A number that stands as the timeout of a configuration or as the id of a user, in an object
that is otherwise in order, is taken exactly if it is whole and fits 64 bits, and then as the word
that it denotes. Otherwise it is refused, and whatever the size of the number, the message tells
its exact value or calls it a double or out of range. -/
theorem word_fields_are_exact {w : List Char} (hw : Json.NumberToken w) (text : String) :
    (∀ others, Placed Config.language .timeout w others text.toList →
      ∃ outcome : Except Json.Error Config, Config.parse true text = outcome.mapError .json ∧
        Json.Judged w (outcome.map Config.timeout)) ∧
    ∀ others name email, Placed User.language .id w others text.toList →
      others.Perm [.name name, .email email] →
      Json.Judged w ((User.ofJson text).map User.id) := by
  constructor
  · intro others h
    exact ⟨Config.ofJson text, rfl, Config.timeout_judged h hw rfl⟩
  · intro others name email h complete
    exact User.id_judged h complete hw rfl

/-- The smallest signed word behind an unknown member, and the largest word between others. -/
theorem word_fields_are_exact_limits :
    (∃ e, Config.parse true "\x7b\"x\":null,\"timeout\":-9223372036854775808\x7d" =
        .error (.json e) ∧
      e.cause.message = "invalid value: integer `-9223372036854775808`, expected u64") ∧
    (User.ofJson "\x7b\"name\":\"\",\"id\":18446744073709551615,\"email\":\"\"\x7d").map User.id =
      .ok 18446744073709551615 := by
  have hcomma : Json.Separator false [','] := .comma Json.blanks_nil Json.blanks_nil
  constructor
  · have hnull : Config.language.Member none ['"', 'x', '"', ':', 'n', 'u', 'l', 'l'] :=
      .unknown (Json.content_escape ['x']) (by intro f; cases f <;> decide) Json.blanks_nil
        Json.blanks_nil .nullWord
    have hbegun : Json.Begun Config.language.Member true [none] "\"x\":null,".toList :=
      .next (.first Json.blanks_nil) hnull (.start hcomma)
    have hnumber : Json.WholeNumber "9223372036854775808".toList 9223372036854775808 :=
      Json.wholeNumber_numeral 9223372036854775808
    have hw : Json.NumberToken "-9223372036854775808".toList := by
      simpa using Json.NumberToken.number (.inr rfl) hnumber.form .absent .absent
    have hn : [Config.Field.timeout].Nodup := by decide
    have hplaced : Placed Config.language .timeout "-9223372036854775808".toList []
        "\x7b\"x\":null,\"timeout\":-9223372036854775808\x7d".toList :=
      .object Json.blanks_nil hbegun (Json.content_escape "timeout".toList) Json.blanks_nil
        Json.blanks_nil (.close Json.blanks_nil) Json.blanks_nil hn
    obtain ⟨outcome, hparse, hjudged⟩ := (word_fields_are_exact hw _).1 [] hplaced
    obtain ⟨e, he, hmessage⟩ := hjudged.negative _ _ rfl hnumber (by decide) (by decide)
    rcases outcome with e' | c
    · cases he
      exact ⟨e, hparse, hmessage.trans (by decide)⟩
    · cases he
  · have hempty : Json.TextToken ['"', '"'] [] := .quoted .nil
    have hwritten : User.language.Written (.name []) ['"', '"'] := User.Given.Written.name hempty
    have hwritten' : User.language.Written (.email []) ['"', '"'] :=
      User.Given.Written.email hempty
    have hname : User.language.Member (some (.name []))
        ['"', 'n', 'a', 'm', 'e', '"', ':', '"', '"'] :=
      .known (Json.content_escape ['n', 'a', 'm', 'e']) Json.blanks_nil Json.blanks_nil hwritten
    have hemail : User.language.Member (some (.email []))
        ['"', 'e', 'm', 'a', 'i', 'l', '"', ':', '"', '"'] :=
      .known (Json.content_escape ['e', 'm', 'a', 'i', 'l']) Json.blanks_nil Json.blanks_nil
        hwritten'
    have hnumber : Json.WholeNumber "18446744073709551615".toList 18446744073709551615 :=
      Json.wholeNumber_numeral 18446744073709551615
    have hw : Json.NumberToken "18446744073709551615".toList := by
      simpa using Json.NumberToken.number (.inl rfl) hnumber.form .absent .absent
    have hn : [User.Field.id, .name, .email].Nodup := by decide
    have hplaced : Placed User.language .id "18446744073709551615".toList [.name [], .email []]
        "\x7b\"name\":\"\",\"id\":18446744073709551615,\"email\":\"\"\x7d".toList :=
      .object Json.blanks_nil (.next (.first Json.blanks_nil) hname (.start hcomma))
        (Json.content_escape "id".toList) Json.blanks_nil Json.blanks_nil
        (.next hcomma hemail (.close Json.blanks_nil)) Json.blanks_nil hn
    have hjudged := (word_fields_are_exact hw _).2 _ [] [] hplaced (.refl _)
    exact (hjudged.word 18446744073709551615).mpr hnumber

end Roster
