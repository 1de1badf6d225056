import GraphqlBuild.Adapter
import GraphqlBuild.Proofs.Route
/-!
# Options from settings

Whatever is set in whatever order, each field of the draft holds what the last setting of it said
(`Draft.foldl_set`), so only the last list of tags and the last list of extensions decide whether there are options
(`Options.ofSettings_outcome`). Options that exist have a pipeline, and it takes each of their extensions for that of
a GraphQL file (`Options.route_append_extension`).
-/

namespace GraphqlBuild

/-! ## What settings say -/

namespace Setting

/-- Whether the setting says that comments go, if it says anything about it. -/
def stripComments? : Setting → Option Bool
  | .stripComments b => some b
  | .normalization n => some n.stripComments
  | _ => none

/-- The transform or the lack of one that the setting asks for, if it says anything about it. -/
def transform? : Setting → Option (Option (Text → Text))
  | .transform f => some (some f)
  | .normalization n => some n.transform
  | _ => none

/-- What the setting says about locations. -/
def includeLocation? : Setting → Option Bool
  | .includeLocation b => some b
  | _ => none

/-- What the setting says about validation. -/
def validate? : Setting → Option Bool
  | .validate b => some b
  | _ => none

/-- The tags that the setting names. -/
def tags? : Setting → Option (List Text)
  | .tags names => some names
  | _ => none

/-- The extensions that the setting names, as they are written. -/
def extensions? : Setting → Option (List Text)
  | .extensions names => some names
  | _ => none

/-- What the last setting that says anything about a field says. -/
def last? {α : Type} (says? : Setting → Option α) (settings : List Setting) : Option α :=
  settings.reverse.findSome? says?

theorem last?_cons {α : Type} (says? : Setting → Option α) (s : Setting) (settings : List Setting) :
    last? says? (s :: settings) = (last? says? settings).or (says? s) := by
  simp [last?, List.findSome?_append]

end Setting

/-- The name of an extension without the dots in front. -/
def dropDots (name : Text) : Text := name.dropWhile (· == '.')

/-! ## The draft after all settings -/

namespace Draft
variable {d : Draft}

/-- A field that each setting either leaves or replaces holds in the end what the last setting of it said. -/
theorem field_foldl_set {α β : Type} (field : Draft → β) (says? : Setting → Option α) (stored : α → β)
    (hset : ∀ d s, field (d.set s) = ((says? s).map stored).getD (field d)) (settings : List Setting) (d : Draft) :
    field (settings.foldl Draft.set d) = ((Setting.last? says? settings).map stored).getD (field d) := by
  induction settings generalizing d with
  | nil => rfl
  | cons s settings ih =>
    rw [List.foldl_cons, ih, hset, Setting.last?_cons]
    cases Setting.last? says? settings <;> rfl

/-- **The last setting counts**, for each field by itself. -/
theorem foldl_set (settings : List Setting) (d : Draft) :
    settings.foldl Draft.set d =
      { normalization :=
          { stripComments := (Setting.last? Setting.stripComments? settings).getD d.normalization.stripComments
            transform := (Setting.last? Setting.transform? settings).getD d.normalization.transform }
        includeLocation := (Setting.last? Setting.includeLocation? settings).getD d.includeLocation
        validate := (Setting.last? Setting.validate? settings).getD d.validate
        tags := (Setting.last? Setting.tags? settings).getD d.tags
        extensions := ((Setting.last? Setting.extensions? settings).map (List.map dropDots)).getD d.extensions } := by
  have hstrip := field_foldl_set (fun d => d.normalization.stripComments) Setting.stripComments? id
    (fun d s => by cases s <;> rfl) settings d
  have htransform := field_foldl_set (fun d => d.normalization.transform) Setting.transform? id
    (fun d s => by cases s <;> rfl) settings d
  have hlocation := field_foldl_set Draft.includeLocation Setting.includeLocation? id
    (fun d s => by cases s <;> rfl) settings d
  have hvalidate := field_foldl_set Draft.validate Setting.validate? id (fun d s => by cases s <;> rfl) settings d
  have htags := field_foldl_set Draft.tags Setting.tags? id (fun d s => by cases s <;> rfl) settings d
  have hextensions := field_foldl_set Draft.extensions Setting.extensions? (List.map dropDots)
    (fun d s => by cases s <;> rfl) settings d
  simp only [Option.map_id_fun, id] at hstrip htransform hlocation hvalidate htags
  rw [← hstrip, ← htransform, ← hlocation, ← hvalidate, ← htags, ← hextensions]

end Draft

/-! ## Good names -/

/-- The text is made of ASCII letters, digits, `_` and `$`, and no digit comes first. -/
structure IsIdentifier (t : Text) : Prop where
  ne_nil : t ≠ []
  chars : ∀ c ∈ t, c.isAlpha = true ∨ c.isDigit = true ∨ c = '_' ∨ c = '$'
  head : ∀ c ∈ t.head?, c.isDigit = false

/-- The text is made of ASCII letters and digits. -/
structure IsExtension (t : Text) : Prop where
  ne_nil : t ≠ []
  chars : ∀ c ∈ t, c.isAlpha = true ∨ c.isDigit = true

theorem isDigit_eq_false_of_isAlpha {c : Char} (h : c.isAlpha = true) : c.isDigit = false := by
  rw [← Bool.not_eq_true]
  intro hdigit
  have hnine : c.toNat ≤ 57 := of_decide_eq_true (Bool.and_eq_true_iff.1 hdigit).2
  rcases Bool.or_eq_true_iff.1 h with hupper | hlower
  · have hrange : 65 ≤ c.toNat ∧ c.toNat ≤ 90 := of_decide_eq_true hupper
    omega
  · have hlow : 97 ≤ c.toNat := of_decide_eq_true (Bool.and_eq_true_iff.1 hlower).1
    omega

theorem continuesIdentifier_iff {c : Char} :
    continuesIdentifier c = true ↔ c.isAlpha = true ∨ c.isDigit = true ∨ c = '_' ∨ c = '$' := by
  simp [continuesIdentifier, Char.isAlphanum, or_assoc]

theorem isIdentifier_iff {t : Text} : isIdentifier t = true ↔ IsIdentifier t := by
  cases t with
  | nil =>
    constructor
    · intro h
      cases h
    · intro h
      exact absurd rfl h.ne_nil
  | cons c t =>
    simp only [isIdentifier, Bool.and_eq_true, Bool.or_eq_true, beq_iff_eq, List.all_eq_true]
    constructor
    · rintro ⟨hc, ht⟩
      refine ⟨by simp, fun d hd => ?_, fun d hd => ?_⟩
      · rcases List.mem_cons.1 hd with rfl | hd
        · tauto
        · exact continuesIdentifier_iff.1 (ht d hd)
      · obtain rfl : c = d := by simpa using hd
        rcases hc with (hc | rfl) | rfl
        · exact isDigit_eq_false_of_isAlpha hc
        · rfl
        · rfl
    · intro h
      refine ⟨?_, fun d hd => continuesIdentifier_iff.2 (h.chars d (List.mem_cons_of_mem c hd))⟩
      have hc := h.chars c List.mem_cons_self
      rw [h.head c rfl] at hc
      simpa [or_assoc] using hc

theorem isExtensionName_iff {t : Text} : isExtensionName t = true ↔ IsExtension t := by
  simp only [isExtensionName, Bool.and_eq_true, Bool.not_eq_true', List.isEmpty_eq_false_iff, List.all_eq_true,
    Char.isAlphanum, Bool.or_eq_true]
  constructor
  · rintro ⟨hne, hchars⟩
    exact ⟨hne, hchars⟩
  · rintro ⟨hne, hchars⟩
    exact ⟨hne, hchars⟩

/-! ## The first fault -/

/-- The text is the first in the list that is not good. -/
def IsFirstBad (good : Text → Prop) (t : Text) (texts : List Text) : Prop :=
  ∃ before after, texts = before ++ t :: after ∧ (∀ s ∈ before, good s) ∧ ¬good t

theorem find?_eq_some_iff_isFirstBad {good : Text → Prop} {test : Text → Bool} (h : ∀ t, test t = true ↔ good t)
    {texts : List Text} {t : Text} : texts.find? (fun t => !test t) = some t ↔ IsFirstBad good t texts := by
  rw [List.find?_eq_some_iff_append]
  constructor
  · rintro ⟨ht, before, after, heq, hbefore⟩
    refine ⟨before, after, heq, fun s hs => ?_, ?_⟩
    · exact (h s).1 (by simpa using hbefore s hs)
    · rw [← h t]
      simpa using ht
  · rintro ⟨before, after, heq, hbefore, ht⟩
    refine ⟨?_, before, after, heq, fun s hs => ?_⟩
    · rw [← h t] at ht
      simpa using ht
    · simpa using (h s).2 (hbefore s hs)

theorem find?_eq_none_iff_good {good : Text → Prop} {test : Text → Bool} (h : ∀ t, test t = true ↔ good t)
    {texts : List Text} : texts.find? (fun t => !test t) = none ↔ ∀ t ∈ texts, good t := by
  simp [List.find?_eq_none, h]

theorem good_or_exists_isFirstBad {good : Text → Prop} {test : Text → Bool} (h : ∀ t, test t = true ↔ good t)
    (texts : List Text) : (∀ t ∈ texts, good t) ∨ ∃ t, IsFirstBad good t texts := by
  cases hfind : texts.find? fun t => !test t with
  | none => exact .inl ((find?_eq_none_iff_good h).1 hfind)
  | some t => exact .inr ⟨t, (find?_eq_some_iff_isFirstBad h).1 hfind⟩

theorem IsFirstBad.ne_nil {good : Text → Prop} {t : Text} {texts : List Text} (h : IsFirstBad good t texts) :
    texts ≠ [] := by
  obtain ⟨before, after, rfl, -⟩ := h
  simp

/-- The tags and the extensions are as they must be. -/
structure Admissible (tags extensions : List Text) : Prop where
  tags_ne_nil : tags ≠ []
  tags : ∀ t ∈ tags, IsIdentifier t
  extensions_ne_nil : extensions ≠ []
  extensions : ∀ e ∈ extensions, IsExtension e

/-- The first thing wrong: a lack of tags, a bad tag, a lack of extensions, a bad extension. -/
inductive FirstFault (tags extensions : List Text) : ConfigError → Prop
  | noTags (h : tags = []) : FirstFault tags extensions .noTags
  | invalidTag {t : Text} (h : IsFirstBad IsIdentifier t tags) : FirstFault tags extensions (.invalidTag t)
  | noExtensions (hne : tags ≠ []) (htags : ∀ t ∈ tags, IsIdentifier t) (h : extensions = []) :
    FirstFault tags extensions .noExtensions
  | invalidExtension (hne : tags ≠ []) (htags : ∀ t ∈ tags, IsIdentifier t) {e : Text}
    (h : IsFirstBad IsExtension e extensions) : FirstFault tags extensions (.invalidExtension e)

theorem admissible_or_exists_firstFault (tags extensions : List Text) :
    Admissible tags extensions ∨ ∃ e, FirstFault tags extensions e := by
  by_cases hne : tags = []
  · exact .inr ⟨_, .noTags hne⟩
  · obtain htags | ⟨t, ht⟩ := good_or_exists_isFirstBad (fun _ => isIdentifier_iff) tags
    · by_cases hne' : extensions = []
      · exact .inr ⟨_, .noExtensions hne htags hne'⟩
      · obtain hextensions | ⟨e, he⟩ := good_or_exists_isFirstBad (fun _ => isExtensionName_iff) extensions
        · exact .inl ⟨hne, htags, hne', hextensions⟩
        · exact .inr ⟨_, .invalidExtension hne htags he⟩
    · exact .inr ⟨_, .invalidTag ht⟩

namespace Draft
variable {d : Draft} {e : ConfigError}

theorem fault?_of_admissible (h : Admissible d.tags d.extensions) : d.fault? = none := by
  have htags := (find?_eq_none_iff_good fun _ => isIdentifier_iff).2 h.tags
  have hextensions := (find?_eq_none_iff_good fun _ => isExtensionName_iff).2 h.extensions
  simp [fault?, h.tags_ne_nil, h.extensions_ne_nil, htags, hextensions]

theorem fault?_of_firstFault (h : FirstFault d.tags d.extensions e) : d.fault? = some e := by
  cases h with
  | noTags h => simp [fault?, h]
  | invalidTag h =>
    have htag := (find?_eq_some_iff_isFirstBad fun _ => isIdentifier_iff).2 h
    simp [fault?, h.ne_nil, htag]
  | noExtensions hne htags h =>
    have htags := (find?_eq_none_iff_good fun _ => isIdentifier_iff).2 htags
    simp [fault?, hne, htags, h]
  | invalidExtension hne htags h =>
    have htags := (find?_eq_none_iff_good fun _ => isIdentifier_iff).2 htags
    have hextension := (find?_eq_some_iff_isFirstBad fun _ => isExtensionName_iff).2 h
    simp [fault?, hne, htags, h.ne_nil, hextension]

theorem fault?_eq_none_iff : d.fault? = none ↔ Admissible d.tags d.extensions := by
  refine ⟨fun h => ?_, fault?_of_admissible⟩
  obtain hadmissible | ⟨e, he⟩ := admissible_or_exists_firstFault d.tags d.extensions
  · exact hadmissible
  · rw [fault?_of_firstFault he] at h
    cases h

theorem fault?_eq_some_iff : d.fault? = some e ↔ FirstFault d.tags d.extensions e := by
  refine ⟨fun h => ?_, fault?_of_firstFault⟩
  obtain hadmissible | ⟨e', he'⟩ := admissible_or_exists_firstFault d.tags d.extensions
  · rw [fault?_of_admissible hadmissible] at h
    cases h
  · rw [fault?_of_firstFault he'] at h
    cases h
    exact he'

theorem build_eq_ok_iff {o : Options} : d.build = .ok o ↔ o.toDraft = d := by
  unfold build
  split
  · rename_i h
    constructor
    · rintro ⟨⟩
      rfl
    · rintro rfl
      rfl
  · rename_i e h
    constructor
    · rintro ⟨⟩
    · rintro rfl
      rw [o.fault?_eq_none] at h
      cases h

theorem build_eq_error_iff : d.build = .error e ↔ FirstFault d.tags d.extensions e := by
  rw [← fault?_eq_some_iff]
  unfold build
  split
  · rename_i h
    simp [h]
  · rename_i e' h
    simp [h]

theorem exists_build_eq_ok_iff : (∃ o, d.build = .ok o) ↔ Admissible d.tags d.extensions := by
  rw [← fault?_eq_none_iff]
  constructor
  · rintro ⟨o, ho⟩
    rw [← build_eq_ok_iff.1 ho]
    exact o.fault?_eq_none
  · intro h
    exact ⟨⟨d, h⟩, build_eq_ok_iff.2 rfl⟩

end Draft

/-! ## Options and what is made of them -/

namespace Options
variable (o : Options)

theorem admissible : Admissible o.tags o.extensions := Draft.fault?_eq_none_iff.1 o.fault?_eq_none

theorem pipeline_build : Pipeline.build o = .ok { options := o } := by
  rw [Pipeline.build, if_neg (by simpa using o.admissible.tags_ne_nil)]

theorem hookPlugin_build : HookPlugin.build o = .ok (.ofOptions o) := by
  rw [HookPlugin.build, o.pipeline_build]
  rfl

/-- A file with one of the extensions is a GraphQL file. -/
theorem route_append_extension {e : Text} (he : e ∈ o.extensions) {stem : Text} (hstem : stem ≠ [])
    (hslash : '/' ∉ stem) (hquery : '?' ∉ stem) :
    SourceMode.route (stem ++ '.' :: e) o.extensions = some .wholeFile := by
  have hextension := o.admissible.extensions e he
  refine SourceMode.route_append hstem hslash hquery (fun c hc => ?_) hextension.ne_nil he
  refine ⟨?_, ?_, ?_⟩ <;> rintro rfl <;> exact absurd (hextension.chars _ hc) (by decide)

/-- **The outcome of settings**, made in any order on the default draft. -/
theorem ofSettings_outcome (settings : List Setting) :
    let tags := (Setting.last? Setting.tags? settings).getD [defaultTag]
    let extensions := ((Setting.last? Setting.extensions? settings).getD defaultExtensions).map dropDots
    ((∃ o, ofSettings settings = .ok o) ↔ Admissible tags extensions) ∧
    (∀ e, ofSettings settings = .error e ↔ FirstFault tags extensions e) ∧
    ∀ o, ofSettings settings = .ok o →
      o.toDraft =
        { normalization :=
            { stripComments := (Setting.last? Setting.stripComments? settings).getD true
              transform := (Setting.last? Setting.transform? settings).getD none }
          includeLocation := (Setting.last? Setting.includeLocation? settings).getD false
          validate := (Setting.last? Setting.validate? settings).getD true
          tags, extensions } ∧
      ∃ p, Pipeline.build o = .ok p ∧ HookPlugin.build o = .ok ⟨p⟩ ∧
        ∀ e ∈ extensions, ∀ stem, stem ≠ [] → '/' ∉ stem → '?' ∉ stem →
          p.route (stem ++ '.' :: e) = some .wholeFile := by
  intro tags extensions
  have hdraft := Draft.foldl_set settings {}
  have hextensions : ((Setting.last? Setting.extensions? settings).map (List.map dropDots)).getD defaultExtensions =
      extensions := by
    simp only [extensions]
    cases Setting.last? Setting.extensions? settings with
    | none => rfl
    | some names => rfl
  rw [hextensions] at hdraft
  refine ⟨?_, fun e => ?_, fun o ho => ?_⟩
  · rw [ofSettings, hdraft, Draft.exists_build_eq_ok_iff]
  · rw [ofSettings, hdraft, Draft.build_eq_error_iff]
  · rw [ofSettings, hdraft, Draft.build_eq_ok_iff] at ho
    refine ⟨ho, _, o.pipeline_build, o.hookPlugin_build, fun e he stem hstem hslash hquery => ?_⟩
    have he' : e ∈ o.extensions := by
      rw [ho]
      exact he
    exact o.route_append_extension he' hstem hslash hquery

/-- What was set before and is no good does not count, and a whole normalization takes a transform back. -/
theorem ofSettings_outcome_replaced :
    let settings : List Setting := [.tags ["1gql"], .transform Text.upper, .extensions [], .normalization .verbatim,
      .extensions ["..gqls"], .tags ["graphql"]]
    ∃ o, ofSettings settings = .ok o ∧ o.normalization.stripComments = false ∧ o.normalization.transform = none ∧
      o.validate = true ∧ o.tags = ["graphql".toList] ∧ o.extensions = ["gqls".toList] ∧
      ∃ p, Pipeline.build o = .ok p ∧ p.route "a.b.gqls" = some .wholeFile := by
  intro settings
  obtain ⟨hok, -, hfields⟩ := ofSettings_outcome settings
  have hidentifier : IsIdentifier "graphql".toList := isIdentifier_iff.1 (by decide)
  have hextension : IsExtension "gqls".toList := isExtensionName_iff.1 (by decide)
  obtain ⟨o, ho⟩ := hok.2 ⟨by decide, List.forall_mem_singleton.2 hidentifier, by decide,
    List.forall_mem_singleton.2 hextension⟩
  obtain ⟨hdraft, p, hbuild, -, hroute⟩ := hfields o ho
  refine ⟨o, ho, by rw [hdraft]; rfl, by rw [hdraft]; rfl, by rw [hdraft]; rfl, by rw [hdraft]; rfl,
    by rw [hdraft]; rfl, p, hbuild, ?_⟩
  exact hroute "gqls".toList List.mem_cons_self "a.b".toList (by decide) (by decide) (by decide)

end Options

end GraphqlBuild
