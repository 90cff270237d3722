import Roster.Proofs.Config.Yaml

/-! Loading a configuration from a file. What goes wrong before there is a text is an error of
reading and is not traced; from there on the last component of the path decides how the text is
read. -/
namespace Roster
namespace Path

/-! ## Paths

Only the last component of a path says whether the file is JSON, and of that only what stands behind
its last dot; slashes that are repeated and dots that stand for the directory they are in make no
difference. -/

theorem names_eq_splitOn (path : List Char) : names path = path.splitOn '/' := by
  induction path with
  | nil => simp [names]
  | cons c rest ih =>
    obtain ⟨name, more, hrest⟩ := List.exists_cons_of_ne_nil (names_ne_nil rest)
    rw [List.splitOn_eq_splitOnP] at ih ⊢
    rw [List.splitOnP_cons_eq_if_modifyHead, ← ih, names, hrest]
    by_cases hc : c = '/'
    · simp [hc]
    · simp [hc]

theorem names_append_slash (front rest : List Char) :
    names (front ++ '/' :: rest) = names front ++ names rest := by
  induction front with
  | nil => simp [names]
  | cons c front ih =>
    by_cases hc : c = '/'
    · rw [hc, List.cons_append, names_slash, names_slash, ih, List.cons_append]
    · obtain ⟨name, more, hfront⟩ := List.exists_cons_of_ne_nil (names_ne_nil front)
      simp only [List.cons_append, names, if_neg hc, ih, hfront]

/-! ### Components -/

/-- The names in a path, without those that stay where they are. -/
def components (path : String) : List Name :=
  (path.toList.splitOn '/').filter fun name => name ≠ [] ∧ name ≠ ['.']

theorem components_eq (path : String) :
    components path = (names path.toList).filter fun name => !staysPut name := by
  rw [components, names_eq_splitOn]
  apply List.filter_congr
  intro name _
  by_cases hempty : name = [] <;> by_cases hdot : name = ['.'] <;> simp [staysPut, hempty, hdot]

theorem components_append_slash (front rest : String) :
    components (front ++ "/" ++ rest) = components front ++ components rest := by
  have hlist : (front ++ "/" ++ rest).toList = front.toList ++ '/' :: rest.toList := by simp
  rw [components_eq, hlist, names_append_slash, List.filter_append, ← components_eq,
    ← components_eq]

/-! ### Extensions -/

theorem extension?_eq_some {name ending : List Char} :
    extension? name = some ending ↔
      ∃ stem, stem ≠ [] ∧ '.' ∉ ending ∧ name = stem ++ '.' :: ending := by
  constructor
  · intro h
    have hsplit := List.takeWhile_append_dropWhile (p := (· != '.')) (l := name.reverse)
    have hbehind := List.all_eq_true.mp (List.all_takeWhile (p := (· != '.')) (l := name.reverse))
    have hfirst := List.head?_dropWhile_not (· != '.') name.reverse
    unfold extension? at h
    split at h
    · next dot c front hdrop =>
      cases h
      have hdot : dot = '.' := by simpa [hdrop] using hfirst
      rw [hdrop, hdot] at hsplit
      refine ⟨(c :: front).reverse, by simp, ?_, ?_⟩
      · intro hmem
        have := hbehind '.' (List.mem_reverse.mp hmem)
        simp at this
      · have := congrArg List.reverse hsplit
        simpa using this.symm
    · cases h
  · rintro ⟨stem, hne, hdot, rfl⟩
    have hbehind : ∀ c ∈ ending.reverse, (c != '.') = true := by
      intro c hc
      rw [bne_iff_ne]
      rintro rfl
      exact hdot (List.mem_reverse.mp hc)
    obtain ⟨c, front, hstem⟩ := List.exists_cons_of_ne_nil (List.reverse_ne_nil_iff.mpr hne)
    have hreverse : (stem ++ '.' :: ending).reverse = ending.reverse ++ '.' :: c :: front := by
      simp [hstem]
    rw [extension?, hreverse, List.dropWhile_append_of_pos hbehind,
      List.takeWhile_append_of_pos hbehind]
    simp

theorem toNat_toLower (c : Char) :
    c.toLower.toNat = if 65 ≤ c.toNat ∧ c.toNat ≤ 90 then c.toNat + 32 else c.toNat := by
  have hrange : ('A'.val ≤ c.val ∧ c.val ≤ 'Z'.val) ↔ 65 ≤ c.toNat ∧ c.toNat ≤ 90 := Iff.rfl
  unfold Char.toLower
  split
  · next h =>
    have hletter := hrange.mp h
    have hshift : ('a'.val - 'A'.val).toNat = 32 := rfl
    rw [if_pos hletter]
    simp only [Char.toNat, UInt32.toNat_add] at hletter ⊢
    omega
  · next h => rw [if_neg (mt hrange.mpr h)]

/-- Only letters have a case to lose. -/
theorem toLower_eq_iff {c upper lower : Char} (hupper : 65 ≤ upper.toNat ∧ upper.toNat ≤ 90)
    (hlower : lower.toNat = upper.toNat + 32) :
    c.toLower = lower ↔ c = lower ∨ c = upper := by
  rw [← Char.toNat_inj, ← Char.toNat_inj, ← Char.toNat_inj, toNat_toLower]
  split <;> omega

inductive SaysJson : List Char → Prop where
  | letters {j s o n} : j = 'j' ∨ j = 'J' → s = 's' ∨ s = 'S' → o = 'o' ∨ o = 'O' →
      n = 'n' ∨ n = 'N' → SaysJson [j, s, o, n]

theorem saysJson_iff {ending : List Char} :
    SaysJson ending ↔ ending.map Char.toLower = ['j', 's', 'o', 'n'] := by
  have hj (c : Char) : c.toLower = 'j' ↔ c = 'j' ∨ c = 'J' := toLower_eq_iff (by decide) rfl
  have hs (c : Char) : c.toLower = 's' ↔ c = 's' ∨ c = 'S' := toLower_eq_iff (by decide) rfl
  have ho (c : Char) : c.toLower = 'o' ↔ c = 'o' ∨ c = 'O' := toLower_eq_iff (by decide) rfl
  have hn (c : Char) : c.toLower = 'n' ↔ c = 'n' ∨ c = 'N' := toLower_eq_iff (by decide) rfl
  constructor
  · rintro ⟨j, s, o, n⟩
    simp [*]
  · intro h
    simp only [List.map_eq_cons_iff, List.map_eq_nil_iff] at h
    obtain ⟨j, _, rfl, hj', s, _, rfl, hs', o, _, rfl, ho', n, _, rfl, hn', rfl⟩ := h
    exact .letters ((hj j).mp hj') ((hs s).mp hs') ((ho o).mp ho') ((hn n).mp hn')

def IsJsonName (name : Name) : Prop :=
  ∃ stem ending, stem ≠ [] ∧ '.' ∉ ending ∧ name = stem ++ '.' :: ending ∧ SaysJson ending

theorem fileName?_eq_some {path : String} {name : Name} :
    fileName? path = some name ↔
      (components path).getLast? = some name ∧ name ≠ ['.', '.'] := by
  rw [components_eq, fileName?]
  cases ((names path.toList).filter fun name => !staysPut name).getLast? with
  | none => simp
  | some last =>
    by_cases hparent : last = ['.', '.']
    · simp only [isParent, hparent]
      constructor
      · intro h
        cases h
      · rintro ⟨h, hne⟩
        cases h
        exact absurd rfl hne
    · simp only [isParent, beq_eq_false_iff_ne.mpr hparent]
      constructor
      · intro h
        cases h
        exact ⟨rfl, hparent⟩
      · exact And.left

theorem isJson_iff (path : String) :
    isJson path = true ↔
      ∃ name, (components path).getLast? = some name ∧ name ≠ ['.', '.'] ∧ IsJsonName name := by
  have hending : isJson path = true ↔
      ∃ name ending, fileName? path = some name ∧ extension? name = some ending ∧
        SaysJson ending := by
    unfold isJson
    cases hname : fileName? path with
    | none => simp
    | some name =>
      cases hextension : extension? name with
      | none => simp [hextension]
      | some ending => simp [hextension, saysJson_iff]
  rw [hending]
  constructor
  · rintro ⟨name, ending, hname, hextension, hjson⟩
    obtain ⟨hlast, hparent⟩ := fileName?_eq_some.mp hname
    obtain ⟨stem, hne, hdot, rfl⟩ := extension?_eq_some.mp hextension
    exact ⟨_, hlast, hparent, stem, ending, hne, hdot, rfl, hjson⟩
  · rintro ⟨name, hlast, hparent, stem, ending, hne, hdot, rfl, hjson⟩
    exact ⟨_, ending, fileName?_eq_some.mpr ⟨hlast, hparent⟩,
      extension?_eq_some.mpr ⟨stem, hne, hdot, rfl⟩, hjson⟩

theorem isJson_congr {path path' : String}
    (h : (components path).getLast? = (components path').getLast?) :
    isJson path = isJson path' := by
  rw [Bool.eq_iff_iff, isJson_iff, isJson_iff, h]

/-! ### Respelling -/

/-- The path begins with a component, be it one that stays put. -/
def BeginsWithName (path : String) : Prop := ∃ c rest, path.toList = c :: rest ∧ c ≠ '/'

/-- The second path is the first one with a slash repeated, or with a dot and a slash put in front
of a component. -/
inductive Respelled : String → String → Prop where
  | slash (front rest) : Respelled (front ++ "/" ++ rest) (front ++ "//" ++ rest)
  | dotFirst {path} : BeginsWithName path → Respelled path ("./" ++ path)
  | dot {front rest} : BeginsWithName rest →
      Respelled (front ++ "/" ++ rest) (front ++ "/./" ++ rest)

/-- A respelled path leads through one more name, which stays put and is not the last one. -/
theorem Respelled.names_eq {path path' : String} (h : Respelled path path') :
    ∃ front name rest, staysPut name = true ∧ rest ≠ [] ∧ names path.toList = front ++ rest ∧
      names path'.toList = front ++ name :: rest := by
  have hdot (rest : List Char) : names ('.' :: '/' :: rest) = ['.'] :: names rest :=
    names_append_slash ['.'] rest
  cases h with
  | slash front rest =>
    refine ⟨names front.toList, [], names rest.toList, rfl, names_ne_nil _, ?_, ?_⟩
    · simp [names_append_slash]
    · simp [names_append_slash]
  | dotFirst =>
    refine ⟨[], ['.'], names path.toList, rfl, names_ne_nil _, rfl, ?_⟩
    simp [hdot]
  | @dot front rest =>
    refine ⟨names front.toList, ['.'], names rest.toList, rfl, names_ne_nil _, ?_, ?_⟩
    · simp [names_append_slash]
    · simp [names_append_slash, hdot]

theorem Respelled.components_eq {path path' : String} (h : Respelled path path') :
    components path' = components path := by
  obtain ⟨front, name, rest, hname, -, hp, hp'⟩ := h.names_eq
  rw [Path.components_eq, Path.components_eq, hp, hp', List.filter_append, List.filter_append,
    List.filter_cons_of_neg (by simp [hname])]

theorem Respelled.toList_ne_nil {path path' : String} (h : Respelled path path') :
    path.toList ≠ [] ∧ path'.toList ≠ [] := by
  cases h with
  | slash => simp
  | dotFirst hname =>
    obtain ⟨c, rest, hlist, -⟩ := hname
    simp [hlist]
  | dot => simp

theorem Respelled.mem_iff {path path' : String} (h : Respelled path path') {c : Char}
    (hslash : c ≠ '/') (hdot : c ≠ '.') : c ∈ path'.toList ↔ c ∈ path.toList := by
  cases h <;> simp [hslash, hdot]

theorem Respelled.head?_eq_slash_iff {path path' : String} (h : Respelled path path') :
    path'.toList.head? = some '/' ↔ path.toList.head? = some '/' := by
  cases h with
  | slash front => cases hfront : front.toList <;> simp [hfront]
  | dotFirst hname =>
    obtain ⟨c, rest, hlist, hc⟩ := hname
    simp [hlist, hc]
  | @dot front => cases hfront : front.toList <;> simp [hfront]

theorem Respelled.length_le {path path' : String} (h : Respelled path path') :
    (Text.bytes path).length ≤ (Text.bytes path').length := by
  have hslashes : (Text.bytes "/").length ≤ (Text.bytes "//").length := by decide
  have hdot : (Text.bytes "/").length ≤ (Text.bytes "/./").length := by decide
  cases h <;> simp only [Text.bytes_append, List.length_append] <;> omega

end Path

/-! ## Loading -/

namespace FileTree

/-- A name that stays put leads nowhere, as long as it is not the last one. -/
theorem follow_cons_staysPut (p : Position) {name : Name} (hname : Path.staysPut name = true)
    {rest : List Name} (hrest : rest ≠ []) : p.follow (name :: rest) = p.follow rest := by
  obtain ⟨first, rest, rfl⟩ := List.exists_cons_of_ne_nil hrest
  obtain ⟨here, above⟩ := p
  cases here with
  | file content => rfl
  | directory entries =>
    have henter : Position.enter ⟨directory entries, above⟩ name =
        .ok ⟨directory entries, above⟩ := by
      simp only [Position.enter, if_pos hname]
    rw [Position.follow, henter]

theorem follow_respelled {path path' : String} (h : Path.Respelled path path') (p : Position) :
    p.follow (Path.names path'.toList) = p.follow (Path.names path.toList) := by
  obtain ⟨front, name, rest, hname, hrest, hp, hp'⟩ := h.names_eq
  rw [hp, hp', follow_append, follow_append]
  congr 1
  funext q
  exact follow_cons_staysPut q hname hrest

end FileTree

namespace FileSystem

/-- Respelling a path makes no difference, unless it becomes too long to be followed. -/
theorem readBytes_respelled (files : FileSystem) {path path' : String}
    (h : Path.Respelled path path') :
    files.readBytes path' = files.readBytes path ∨
      ((Text.bytes path).length ≤ 4095 ∧ 4095 < (Text.bytes path').length ∧
        files.readBytes path' = .error .nameTooLong) := by
  have hnul : '\x00' ∈ path'.toList ↔ '\x00' ∈ path.toList :=
    h.mem_iff (by decide) (by decide)
  obtain ⟨hne, hne'⟩ := h.toList_ne_nil
  have hstart : files.start path'.toList = files.start path.toList := by
    simp only [start, h.head?_eq_slash_iff]
  have hfollow (p : FileTree.Position) : p.follow (Path.names path'.toList) =
      p.follow (Path.names path.toList) := FileTree.follow_respelled h p
  have hlength := h.length_le
  unfold readBytes
  simp only [hnul, if_neg hne, if_neg hne', hstart, hfollow]
  by_cases nul : '\x00' ∈ path.toList
  · left
    simp only [if_pos nul]
  · simp only [if_neg nul]
    by_cases long' : FileTree.maxPathBytes < (Text.bytes path').length
    · by_cases long : FileTree.maxPathBytes < (Text.bytes path).length
      · left
        simp only [if_pos long, if_pos long']
      · right
        exact ⟨Nat.le_of_not_lt long, long', if_pos long'⟩
    · have long : ¬ FileTree.maxPathBytes < (Text.bytes path).length := by omega
      left
      simp only [if_neg long, if_neg long']

theorem readBytes_too_long (files : FileSystem) {path : String} (hnul : '\x00' ∉ path.toList)
    (hlong : 4095 < (Text.bytes path).length) : files.readBytes path = .error .nameTooLong := by
  have hne : path.toList ≠ [] := by
    intro h
    rw [String.toList_eq_nil_iff.mp h, Text.bytes_empty] at hlong
    exact Nat.not_lt_zero _ hlong
  unfold readBytes
  simp only [if_neg hnul, if_neg hne, if_pos (show FileTree.maxPathBytes < _ from hlong)]

end FileSystem

namespace Config

theorem load_of_unreadable {files : FileSystem} {path : String} {e : IoError}
    (h : files.readText path = .error e) : load files path = ⟨files, .error (.io e), "", []⟩ := by
  simp only [load, h]
  rfl

theorem load_of_readable {files : FileSystem} {path text : String}
    (h : files.readText path = .ok text) :
    load files path =
      ⟨files, parse (Path.isJson path) text, "", [.configLoading path (Path.isJson path)]⟩ := by
  simp only [load, h]

theorem readText_of_unreadable {files : FileSystem} {path : String} {e : IoError}
    (h : files.readBytes path = .error e) : files.readText path = .error e := by
  simp only [FileSystem.readText, h]

theorem readText_of_invalid {files : FileSystem} {path : String} {content : ByteArray}
    (h : files.readBytes path = .ok content)
    (hinvalid : ∀ chars : List Char, content ≠ chars.utf8Encode) :
    files.readText path = .error .invalidText := by
  have hutf8 : String.fromUTF8? content = none := by
    apply dif_neg
    rintro ⟨chars, hchars⟩
    exact hinvalid chars hchars
  simp only [FileSystem.readText, h, hutf8]

theorem load_respelled (files : FileSystem) {path path' : String} (h : Path.Respelled path path') :
    (load files path').reply = (load files path).reply ∨
      ((Text.bytes path).length ≤ 4095 ∧ 4095 < (Text.bytes path').length ∧
        (load files path').reply = .error (.io .nameTooLong)) := by
  have hjson : Path.isJson path' = Path.isJson path :=
    Path.isJson_congr (congrArg List.getLast? h.components_eq)
  rcases files.readBytes_respelled h with hsame | ⟨hshort, hlong, herror⟩
  · left
    have hread : files.readText path' = files.readText path := by
      simp only [FileSystem.readText, hsame]
    cases hr : files.readText path with
    | error e => rw [load_of_unreadable hr, load_of_unreadable (hread.trans hr)]
    | ok text => rw [load_of_readable hr, load_of_readable (hread.trans hr), hjson]
  · right
    refine ⟨hshort, hlong, ?_⟩
    rw [load_of_unreadable (readText_of_unreadable herror)]

theorem length_bytes_replicate_slash (n : Nat) :
    (Text.bytes (String.ofList (List.replicate n '/'))).length = n := by
  induction n with
  | zero => simp
  | succ n ih =>
    have hslash : (Text.bytes (String.ofList ['/'])).length = 1 := by decide
    rw [List.replicate_succ', String.ofList_append, Text.bytes_append, List.length_append, ih,
      hslash]

def strewn (n : Nat) (name : String) : String :=
  "." ++ String.ofList (List.replicate n '/') ++ name

theorem length_strewn (n : Nat) (name : String) :
    (Text.bytes (strewn n name)).length = 1 + n + (Text.bytes name).length := by
  have hdot : (Text.bytes ".").length = 1 := by decide
  simp only [strewn, Text.bytes_append, List.length_append, length_bytes_replicate_slash, hdot]

theorem nul_notMem_strewn (n : Nat) {name : String} (h : '\x00' ∉ name.toList) :
    '\x00' ∉ (strewn n name).toList := by
  simp [strewn, h, List.mem_replicate]

theorem respelled_strewn (n : Nat) (name : String) :
    Path.Respelled (strewn (n + 1) name) (strewn (n + 2) name) := by
  have hone : strewn (n + 1) name = "." ++ String.ofList (List.replicate n '/') ++ "/" ++ name := by
    rw [strewn, List.replicate_succ', String.ofList_append, ← String.append_assoc]
  have htwo : strewn (n + 2) name =
      "." ++ String.ofList (List.replicate n '/') ++ "//" ++ name := by
    rw [strewn, List.replicate_succ', List.replicate_succ', List.append_assoc,
      String.ofList_append, ← String.append_assoc]
    rfl
  rw [hone, htwo]
  exact .slash _ _

theorem load_strewn (files : FileSystem) (n : Nat) (name : String)
    (hshort : (Text.bytes (strewn (n + 1) name)).length ≤ 4095) :
    (load files (strewn (n + 1) name)).reply = (load files (strewn 1 name)).reply := by
  induction n with
  | zero => rfl
  | succ n ih =>
    rw [length_strewn] at hshort ih
    rcases load_respelled files (respelled_strewn n name) with hsame | ⟨-, hlong, -⟩
    · rw [hsame, ih (by omega)]
    · rw [length_strewn] at hlong
      omega

/-- What cannot be read, or is no text in UTF-8, is an error of reading, and nothing is traced. A
text is traced before it is parsed, whatever comes of that, with its path just as it was given and
whether it is taken for JSON; that and nothing else decides which parser gets it. It is taken for
JSON exactly if its last component, apart from those that stay put, has an extension with the
letters of the word, large or small. The directories in front of that make no difference, and
neither do slashes that are repeated or dots put in front of a component, except that a path can
become too long to be followed. -/
theorem load_by_last_component (files : FileSystem) (path : String) :
    let json := Path.isJson path
    (∀ e, files.readBytes path = .error e →
      load files path = ⟨files, .error (.io e), "", []⟩) ∧
    (∀ content, files.readBytes path = .ok content →
      (∀ chars : List Char, content ≠ chars.utf8Encode) →
      load files path = ⟨files, .error (.io .invalidText), "", []⟩) ∧
    (∀ chars : List Char, files.readBytes path = .ok chars.utf8Encode →
      load files path =
        ⟨files, if json then (ofJson (String.ofList chars)).mapError .json
          else (ofYaml (String.ofList chars)).mapError .yaml, "", [.configLoading path json]⟩) ∧
    (json = true ↔ ∃ name, (Path.components path).getLast? = some name ∧ name ≠ ['.', '.'] ∧
      Path.IsJsonName name) ∧
    (∀ front, Path.components path ≠ [] → Path.isJson (front ++ "/" ++ path) = json) ∧
    ∀ path', Path.Respelled path path' → Path.isJson path' = json ∧
      ((load files path').reply = (load files path).reply ∨
        ((Text.bytes path).length ≤ 4095 ∧ 4095 < (Text.bytes path').length ∧
          (load files path').reply = .error (.io .nameTooLong))) := by
  intro json
  refine ⟨?_, ?_, ?_, Path.isJson_iff path, ?_, ?_⟩
  · intro e h
    exact load_of_unreadable (readText_of_unreadable h)
  · intro content h hinvalid
    exact load_of_unreadable (readText_of_invalid h hinvalid)
  · intro chars h
    have htext : files.readBytes path = .ok (String.ofList chars).toByteArray := h
    exact load_of_readable (readText_of_readBytes htext)
  · intro front hne
    apply Path.isJson_congr
    rw [Path.components_append_slash, List.getLast?_append, List.getLast?_eq_some_getLast hne,
      Option.some_or]
  · intro path' h
    exact ⟨Path.isJson_congr (congrArg List.getLast? h.components_eq), load_respelled files h⟩

theorem load_respelled_too_long :
    let files := FileTree.mounted (.directory [("a.json".toList, .file "[]".toByteArray)])
    let path := strewn 4088 "a.json"
    let path' := strewn 4089 "a.json"
    Path.Respelled path path' ∧ (load files path).reply = .ok Config.default ∧
      (load files path').reply = .error (.io .nameTooLong) := by
  intro files path path'
  have hname : (Text.bytes "a.json").length = 6 := by decide
  have hlength : (Text.bytes path).length = 4095 := by rw [length_strewn, hname]
  have hlength' : (Text.bytes path').length = 4096 := by rw [length_strewn, hname]
  have hresp : Path.Respelled path path' := respelled_strewn 4087 "a.json"
  have hread : files.readBytes "./a.json" = .ok "[]".toByteArray := rfl
  have hok : (load files path).reply = .ok Config.default := by
    rw [load_strewn files 4087 "a.json" (Nat.le_of_eq hlength)]
    have hload := load_of_readable (readText_of_readBytes hread)
    rw [show strewn 1 "a.json" = "./a.json" from rfl, hload]
    rfl
  refine ⟨hresp, hok, ?_⟩
  have herror : files.readBytes path' = .error .nameTooLong := by
    apply files.readBytes_too_long (nul_notMem_strewn _ (by decide))
    rw [hlength']
    decide
  rw [load_of_unreadable (readText_of_unreadable herror)]

end Config
end Roster
