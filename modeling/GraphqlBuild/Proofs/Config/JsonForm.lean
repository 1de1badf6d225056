import GraphqlBuild.Config.File
import GraphqlBuild.Proofs.Config.Options
import GraphqlBuild.Proofs.Json.Reading
/-!
# Configurations in JSON are read back

Writing a configuration leaves out the fields that are not set, reading one leaves unset the fields that are left out,
so the compact form of a configuration is read back as that configuration (`TagConfig.ofJson_compact`). A file that
holds it is therefore accepted or refused just as the configuration itself (`TagConfig.ofFile_compact`).
-/

namespace GraphqlBuild

open Json

namespace TagConfig

/-! ## Field by field -/

/-- The written form of a field, if it is set. -/
def value? (c : TagConfig) : Field → Option JsonValue
  | .stripComments => c.stripComments.map .bool
  | .includeLocation => c.includeLocation.map .bool
  | .validate => c.validate.map .bool
  | .transform => c.transform.map .string
  | .tags => c.tags.map fun ts => .array (ts.map .string)
  | .extensions => c.extensions.map fun ts => .array (ts.map .string)

/-- The configuration with the field as another one has it. -/
def take (c : TagConfig) (source : TagConfig) : Field → TagConfig
  | .stripComments => { c with stripComments := source.stripComments }
  | .includeLocation => { c with includeLocation := source.includeLocation }
  | .validate => { c with validate := source.validate }
  | .transform => { c with transform := source.transform }
  | .tags => { c with tags := source.tags }
  | .extensions => { c with extensions := source.extensions }

/-- The members for those of the fields that are set. -/
def members (c : TagConfig) (fields : List Field) : List (Text × JsonValue) :=
  fields.filterMap fun f => (c.value? f).map fun v => (f.name, v)

theorem toJson_eq (c : TagConfig) : c.toJson = .object (c.members Field.all) := by
  obtain ⟨_ | _, _ | _, _ | _, _ | _, _ | _, _ | _⟩ := c <;> rfl

theorem foldl_take_all (c : TagConfig) : Field.all.foldl (take · c) {} = c := rfl

theorem take_of_value?_eq_none {b c : TagConfig} {f : Field} (hb : b.value? f = none) (hc : c.value? f = none) :
    b.take c f = b := by
  obtain ⟨_, _, _, _, _, _⟩ := b
  cases f <;> simp_all [value?, take]

theorem value?_take_of_ne {b c : TagConfig} {f g : Field} (h : g ≠ f) : (b.take c f).value? g = b.value? g := by
  cases f <;> cases g <;> simp_all [value?, take]

theorem ofName?_name (f : Field) : Field.ofName? f.name = some f := by
  cases f <;> decide

/-! ## Reading -/

/-- A field that is set is read back from its written form. -/
theorem reads_field {c : TagConfig} {f : Field} {v : JsonValue} (h : c.value? f = some v) (b : TagConfig) :
    Reads (readField f b) v.compact (b.take c f) := by
  have hbool (x : Bool) : Reads (readOptional readBool) (JsonValue.boolText x) (some x) := by
    cases x with
    | true => exact Reads.optional (d := 't') (t := ['r', 'u', 'e']) (reads_boolText true) rfl (by decide)
    | false => exact Reads.optional (d := 'f') (t := ['a', 'l', 's', 'e']) (reads_boolText false) rfl (by decide)
  have htext (t : Text) : Reads (readOptional readText) (quoted t) (some t) := (reads_quoted t).optional rfl (by decide)
  have htexts (ts : List Text) :
      Reads (readOptional readTexts) (JsonValue.compact (.array (ts.map .string))) (some ts) :=
    (reads_texts ts).optional rfl (by decide)
  cases f with
  | stripComments =>
    obtain ⟨x, hx, rfl⟩ := Option.map_eq_some_iff.1 h
    simp only [take, hx]
    exact (hbool x).map fun v => { b with stripComments := v }
  | includeLocation =>
    obtain ⟨x, hx, rfl⟩ := Option.map_eq_some_iff.1 h
    simp only [take, hx]
    exact (hbool x).map fun v => { b with includeLocation := v }
  | validate =>
    obtain ⟨x, hx, rfl⟩ := Option.map_eq_some_iff.1 h
    simp only [take, hx]
    exact (hbool x).map fun v => { b with validate := v }
  | transform =>
    obtain ⟨t, ht, rfl⟩ := Option.map_eq_some_iff.1 h
    simp only [take, ht]
    exact (htext t).map fun v => { b with transform := v }
  | tags =>
    obtain ⟨ts, hts, rfl⟩ := Option.map_eq_some_iff.1 h
    simp only [take, hts]
    exact (htexts ts).map fun v => { b with tags := v }
  | extensions =>
    obtain ⟨ts, hts, rfl⟩ := Option.map_eq_some_iff.1 h
    simp only [take, hts]
    exact (htexts ts).map fun v => { b with extensions := v }

theorem length_le_length_compactMembers (first : Bool) (ms : List (Text × JsonValue)) :
    ms.length ≤ (JsonValue.compactMembers first ms).length := by
  induction ms generalizing first with
  | nil => simp
  | cons m ms ih =>
    obtain ⟨name, v⟩ := m
    have hrest := ih false
    simp only [JsonValue.compactMembers, List.length_append, List.length_cons]
    omega

/-- One member of a field that is not read yet is read, and the members behind it are left. -/
theorem readMembers_member {c b : TagConfig} {f : Field} {v : JsonValue} (hv : c.value? f = some v) {seen : List Field}
    (hfresh : f ∉ seen) (n : Nat) (first : Bool) (ms : List (Text × JsonValue)) (rest : Text) (offset : Nat) :
    ∃ offset', readMembers (n + 1) first seen b
        ⟨JsonValue.compactMembers first ((f.name, v) :: ms) ++ '}' :: rest, offset⟩ =
      readMembers n false (f :: seen) (b.take c f) ⟨JsonValue.compactMembers false ms ++ '}' :: rest, offset'⟩ := by
  -- the text behind the value, behind the colon and behind the opening quotation mark
  obtain ⟨others, hothers⟩ : ∃ t, t = JsonValue.compactMembers false ms ++ '}' :: rest := ⟨_, rfl⟩
  obtain ⟨valued, hvalued⟩ : ∃ t, t = v.compact ++ others := ⟨_, rfl⟩
  obtain ⟨named, hnamed⟩ : ∃ t, t = f.name.flatMap escapeChar ++ ['"'] ++ ([':'] ++ valued) := ⟨_, rfl⟩
  have htext : JsonValue.compactMembers first ((f.name, v) :: ms) ++ '}' :: rest = comma first ++ '"' :: named := by
    simp [JsonValue.compactMembers, comma, quoted, hnamed, hvalued, hothers]
  obtain ⟨o₁, hmore⟩ := moreMembers_comma first named offset
  obtain ⟨o₂, hkey⟩ := reads_chars f.name ([':'] ++ valued) (o₁ + 1)
  obtain ⟨o₃, hcolon⟩ := reads_colon valued o₂
  obtain ⟨o₄, hvalue⟩ := reads_field hv b others o₃
  have hnext : Cursor.next ⟨'"' :: named, o₁⟩ = ⟨named, o₁ + 1⟩ := rfl
  rw [← hvalued] at hvalue
  rw [← hnamed] at hkey
  refine ⟨o₄, ?_⟩
  simp only [htext, readMembers, hmore, bind, Except.bind, if_true, hnext]
  rw [hkey]
  simp only [ofName?_name, if_neg hfresh, hcolon]
  rw [hvalue, hothers]

/-- The members of fields that are not read yet are read back. -/
theorem readMembers_members (c : TagConfig) {fields : List Field} (hnodup : fields.Nodup) (n : Nat)
    (hn : (c.members fields).length < n) (first : Bool) (seen : List Field) (hseen : ∀ f ∈ fields, f ∉ seen)
    (b : TagConfig) (hb : ∀ f ∈ fields, b.value? f = none) (rest : Text) (offset : Nat) :
    ∃ offset', readMembers n first seen b
      ⟨JsonValue.compactMembers first (c.members fields) ++ '}' :: rest, offset⟩ =
        .ok (fields.foldl (take · c) b, ⟨rest, offset'⟩) := by
  induction fields generalizing n first seen b offset with
  | nil =>
    obtain ⟨n, rfl⟩ := Nat.exists_eq_succ_of_ne_zero (by omega : n ≠ 0)
    exact ⟨_, rfl⟩
  | cons f fields ih =>
    obtain ⟨hf, hnodup⟩ := List.nodup_cons.1 hnodup
    obtain ⟨hbf, hb⟩ := List.forall_mem_cons.1 hb
    obtain ⟨hfresh, hseen⟩ := List.forall_mem_cons.1 hseen
    have hne : ∀ g ∈ fields, g ≠ f := fun g hg hgf => hf (hgf ▸ hg)
    cases hv : c.value? f with
    | none =>
      have hmembers : c.members (f :: fields) = c.members fields := by simp [members, hv]
      rw [hmembers] at hn ⊢
      rw [List.foldl_cons, take_of_value?_eq_none hbf hv]
      exact ih hnodup n hn first seen hseen b hb offset
    | some v =>
      have hmembers : c.members (f :: fields) = (f.name, v) :: c.members fields := by simp [members, hv]
      obtain ⟨n, rfl⟩ := Nat.exists_eq_succ_of_ne_zero (by omega : n ≠ 0)
      rw [hmembers, List.length_cons] at hn
      rw [hmembers, List.foldl_cons]
      obtain ⟨o, hstep⟩ := readMembers_member hv hfresh n first (c.members fields) rest offset
      rw [hstep]
      refine ih hnodup n (by omega) false (f :: seen) (fun g hg => ?_) (b.take c f) (fun g hg => ?_) o
      · exact List.not_mem_cons_of_ne_of_not_mem (hne g hg) (hseen g hg)
      · rw [value?_take_of_ne (hne g hg)]
        exact hb g hg

/-- **A configuration is read back** from its compact form. -/
theorem ofJson_compact (c : TagConfig) : ofJson c.toJson.compact = .ok c := by
  have hlength := length_le_length_compactMembers true (c.members Field.all)
  have hnodup : Field.all.Nodup := by decide
  obtain ⟨offset, hread⟩ := readMembers_members c hnodup
    (('{' :: (JsonValue.compactMembers true (c.members Field.all) ++ ['}'])).length + 1)
    (by simp only [List.length_cons, List.length_append]; omega) true [] (by simp) {} (by decide) [] 1
  have htext : c.toJson.compact = '{' :: (JsonValue.compactMembers true (c.members Field.all) ++ ['}']) := by
    rw [toJson_eq, JsonValue.compact, List.cons_append]
  have hall : read ⟨c.toJson.compact, 0⟩ = .ok (c, ⟨[], offset⟩) := by
    rw [htext, read, atValue_cons rfl, if_pos rfl]
    rwa [foldl_take_all] at hread
  rw [ofJson, hall]
  rfl

/-! ## Files -/

theorem settings_eq_error {c : TagConfig} {e : ConfigError} (h : c.settings = .error e) :
    ∃ name, c.transform = some name ∧ e = .unknownTransform name (Preset.suggestion? name) := by
  unfold settings at h
  cases htransform : c.transform with
  | none => simp [htransform, pure, Except.pure, bind, Except.bind] at h
  | some name =>
    refine ⟨name, rfl, ?_⟩
    unfold Preset.named at h
    cases hpreset : Preset.ofName? name with
    | none =>
      simp only [htransform, hpreset, Except.map, bind, Except.bind, Except.error.injEq] at h
      exact h.symm
    | some preset => simp [htransform, hpreset, Except.map, pure, Except.pure, bind, Except.bind] at h

/-- What is wrong with a configuration is never how it is written. -/
theorem toOptions_ne_invalid (c : TagConfig) (p : Path) (fault : DecodeFault) :
    c.toOptions ≠ .error (.invalid p fault) := by
  intro h
  unfold toOptions at h
  cases hsettings : c.settings with
  | error e =>
    obtain ⟨name, -, rfl⟩ := settings_eq_error hsettings
    simp [hsettings, bind, Except.bind] at h
  | ok settings =>
    simp only [hsettings, bind, Except.bind, Options.ofSettings, Draft.build_eq_error_iff] at h
    cases h

theorem ofPath?_of_json {p : Path} (h : p.extension? = some "json".toList) : ConfigFormat.ofPath? p = some .json := by
  rw [ConfigFormat.ofPath?, h]
  rfl

/-- **A file that holds a configuration** in its compact form is accepted if the configuration asks for valid options,
as the configuration itself, and otherwise refused for what is wrong with those; never for the way it is written. -/
theorem ofFile_compact (c : TagConfig) {p : Path} (h : p.extension? = some "json".toList) :
    (∀ options, c.toOptions = .ok options → ofFile p c.toJson.compact = .ok (c, options)) ∧
    (∀ e, c.toOptions = .error e → ofFile p c.toJson.compact = .error e) ∧
    (∀ d options, ofFile p c.toJson.compact = .ok (d, options) → d = c) ∧
    ∀ q fault, ofFile p c.toJson.compact ≠ .error (.invalid q fault) := by
  have hdecode : ConfigFormat.json.decode c.toJson.compact = .ok c := by
    simp only [ConfigFormat.decode, ofJson_compact, Except.mapError]
  have hfile : ofFile p c.toJson.compact = c.toOptions.map fun options => (c, options) := by
    unfold ofFile
    simp only [ofPath?_of_json h, hdecode, Except.mapError, bind, Except.bind]
    cases c.toOptions <;> rfl
  rw [hfile]
  refine ⟨fun options ho => ?_, fun e he => ?_, fun d options hd => ?_, fun q fault hinvalid => ?_⟩
  · rw [ho]
    rfl
  · rw [he]
    rfl
  · cases ho : c.toOptions with
    | ok options' =>
      rw [ho] at hd
      cases hd
      rfl
    | error e =>
      rw [ho] at hd
      cases hd
  · cases ho : c.toOptions with
    | ok options =>
      rw [ho] at hinvalid
      cases hinvalid
    | error e =>
      rw [ho] at hinvalid
      cases hinvalid
      exact c.toOptions_ne_invalid q fault ho

/-- A quotation mark, a backslash, a control character and a letter outside ASCII do not get in the way: what is wrong
is that they make no tag. -/
theorem ofFile_compact_invalid_tag :
    let c : TagConfig := { validate := some false, transform := some "identity", tags := some ["gql", "\"\\\x01é"] }
    Path.extension? "conf/tags.json" = some "json".toList ∧
      ofFile "conf/tags.json" c.toJson.compact = .error (.invalidTag "\"\\\x01é") := by
  intro c
  have hpath : Path.extension? "conf/tags.json" = some "json".toList := by decide
  have herror : c.toOptions = .error (.invalidTag "\"\\\x01é".toList) := rfl
  exact ⟨hpath, (c.ofFile_compact hpath).2.1 _ herror⟩

end TagConfig

end GraphqlBuild
