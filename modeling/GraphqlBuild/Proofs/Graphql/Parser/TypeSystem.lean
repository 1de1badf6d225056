import GraphqlBuild.Proofs.Graphql.Parser.Executable
/-!
# Definitions and documents of words that are alike

Keywords are told by their text, and so is a definition by what announces it; no keyword begins with a
quotation mark, so a string is never taken for one. The whole parser respects every likeness
(`respects_document`).
-/

namespace GraphqlBuild.Graphql.Likeness

variable {L : Likeness} {α : Type} {Q : α → α → Prop}

theorem respects_constDirectives :
    L.Respects (List.Forall₂ (Directive.Alike L.values)) Parser.constDirectives Parser.constDirectives :=
  respects_directives _ _

/-! ## Fields and values -/

theorem respects_typed {missing : Complaint} {a a' : α} {rest rest' : TypeRef → Parser α} (ha : Q a a')
    (hrest : ∀ t, L.Respects Q (rest t) (rest' t)) :
    L.Respects Q (Parser.typed missing a rest) (Parser.typed missing a' rest') :=
  respects_orComplain (same_isMark ':') ha <| same_skip.bind fun _ =>
    respects_orComplain (same_isNameOr '[') ha <| (same_type maxDepth).bind fun t => hrest t

theorem respects_inputValue :
    L.Respects (InputValue.Alike L.values) Parser.inputValue Parser.inputValue :=
  respects_description?.bind fun _ _ hd => same_name.bind fun _ =>
    respects_typed ⟨hd, rfl, rfl, .none, .nil⟩ fun _ => respects_defaultValue.bind fun _ _ hv =>
      respects_constDirectives.bind fun _ _ hds => respects_pure ⟨hd, rfl, rfl, hv, hds⟩

theorem respects_argumentDefinitions? :
    L.Respects (List.Forall₂ (InputValue.Alike L.values)) Parser.argumentDefinitions?
      Parser.argumentDefinitions? :=
  respects_whenever (same_isMark '(') .nil <| same_skip.bind fun _ =>
    (respects_someWhile same_isNameOrString respects_inputValue).bind fun _ _ hvs =>
      (same_await .rightParen).bind fun _ => respects_pure hvs

theorem respects_fieldDefinition :
    L.Respects (FieldDefinition.Alike L.values) Parser.fieldDefinition Parser.fieldDefinition :=
  respects_description?.bind fun _ _ hd => same_name.bind fun _ =>
    respects_argumentDefinitions?.bind fun _ _ hargs =>
      respects_typed ⟨hd, rfl, hargs, rfl, .nil⟩ fun _ =>
        respects_constDirectives.bind fun _ _ hds => respects_pure ⟨hd, rfl, hargs, rfl, hds⟩

theorem respects_enumValue : L.Respects (EnumValue.Alike L.values) Parser.enumValue Parser.enumValue := by
  have hname : L.Same (Parser.orComplain Parser.isName .noEnumValue [] do
      if (← Parser.isText "true") || (← Parser.isText "false") || (← Parser.isText "null") then
        Parser.complain .reservedEnumValue
      Parser.name) :=
    respects_orComplain same_isName rfl <| (same_isText (by decide)).bind fun _ =>
      (same_isText (by decide)).bind fun _ => (same_isText (by decide)).bind fun _ =>
        .when (same_complain .reservedEnumValue) same_name
  exact respects_description?.bind fun _ _ hd => hname.bind fun _ =>
    respects_constDirectives.bind fun _ _ hds => respects_pure ⟨hd, rfl, hds⟩

theorem respects_inBraces {missing : Complaint} {item : Parser α} (hitem : L.Respects Q item item) :
    L.Respects (List.Forall₂ Q) (Parser.inBraces missing item) (Parser.inBraces missing item) :=
  respects_whenever (same_isMark '{') .nil <| same_skip.bind fun _ =>
    (respects_someWhile same_isNameOrString hitem).bind fun _ _ hfound =>
      (same_await .rightCurly).bind fun _ => respects_pure hfound

theorem same_implements : L.Same Parser.implements :=
  respects_whenever (same_isText (by decide)) rfl <| same_skip.bind fun _ =>
    (respects_separated (same_nameOr .noInterfaceName)).same

theorem same_members : L.Same Parser.members :=
  respects_whenever (same_isMark '=') rfl <| same_skip.bind fun _ =>
    (respects_separated (same_nameOr .noMember)).same

theorem same_rootOperation : L.Same Parser.rootOperation :=
  same_operationType.bind fun _ => respects_orComplain (same_isMark ':') rfl <| same_skip.bind fun _ =>
    same_name?.bind fun _ => same_pure _

theorem same_location : L.Same Parser.location := by
  refine respects_word.bind fun o o' ho => ?_
  cases ho with
  | none => exact same_pure _
  | @some w w' hw =>
    simp only [← hw.kind]
    split
    · rename_i hname
      rw [← hw.text (by rw [hname]; decide)]
      exact .ite (same_skip.bind fun _ => same_pure _) ((same_complain .badLocation).bind fun _ => same_pure _)
    · exact (same_complain .noLocation).bind fun _ => same_pure _

/-! ## Definitions -/

theorem respects_heading {keyword : Text} (hk : keyword.head? ≠ some '"') :
    L.Respects (Option.Rel L.values) (Parser.heading keyword) (Parser.heading keyword) :=
  respects_description?.bind fun _ _ hd =>
    Same.bind ((same_isText hk).bind fun _ => .ite same_skip (same_pure ())) fun _ => respects_pure hd

theorem respects_schemaDefinition :
    L.Respects (SchemaDefinition.Alike L.values) Parser.schemaDefinition Parser.schemaDefinition := by
  refine (respects_heading (by decide)).bind fun _ _ hd => respects_constDirectives.bind fun _ _ hds => ?_
  refine Same.bind (respects_whenever (same_isMark '{') rfl ?_) fun _ => respects_pure ⟨hd, hds, rfl⟩
  exact same_skip.bind fun _ => (respects_someWhile same_isName same_rootOperation).same.bind fun _ =>
    (same_await .rightCurly).bind fun _ => same_pure _

theorem respects_scalarDefinition :
    L.Respects (TypeDefinition.Alike L.values) Parser.scalarDefinition Parser.scalarDefinition :=
  (respects_heading (by decide)).bind fun _ _ hd => same_name.bind fun _ =>
    respects_constDirectives.bind fun _ _ hds => respects_pure ⟨hd, rfl, hds, .scalar⟩

theorem respects_fieldDefinitions :
    L.Respects (List.Forall₂ (FieldDefinition.Alike L.values)) Parser.fieldDefinitions Parser.fieldDefinitions :=
  respects_inBraces respects_fieldDefinition

theorem respects_enumValues :
    L.Respects (List.Forall₂ (EnumValue.Alike L.values)) Parser.enumValues Parser.enumValues :=
  respects_inBraces respects_enumValue

theorem respects_inputFields :
    L.Respects (List.Forall₂ (InputValue.Alike L.values)) Parser.inputFields Parser.inputFields :=
  respects_inBraces respects_inputValue

theorem respects_objectDefinition :
    L.Respects (TypeDefinition.Alike L.values) Parser.objectDefinition Parser.objectDefinition :=
  (respects_heading (by decide)).bind fun _ _ hd => (same_nameOr .noObjectName).bind fun _ =>
    same_implements.bind fun i => respects_constDirectives.bind fun _ _ hds =>
      respects_fieldDefinitions.bind fun _ _ hfs => respects_pure ⟨hd, rfl, hds, .object i hfs⟩

theorem respects_interfaceDefinition :
    L.Respects (TypeDefinition.Alike L.values) Parser.interfaceDefinition Parser.interfaceDefinition :=
  (respects_heading (by decide)).bind fun _ _ hd => same_name.bind fun _ =>
    same_implements.bind fun i => respects_constDirectives.bind fun _ _ hds =>
      respects_fieldDefinitions.bind fun _ _ hfs => respects_pure ⟨hd, rfl, hds, .interface i hfs⟩

theorem respects_unionDefinition :
    L.Respects (TypeDefinition.Alike L.values) Parser.unionDefinition Parser.unionDefinition :=
  (respects_heading (by decide)).bind fun _ _ hd => same_name.bind fun _ =>
    respects_constDirectives.bind fun _ _ hds => same_members.bind fun ms =>
      respects_pure ⟨hd, rfl, hds, .union ms⟩

theorem respects_enumDefinition :
    L.Respects (TypeDefinition.Alike L.values) Parser.enumDefinition Parser.enumDefinition :=
  (respects_heading (by decide)).bind fun _ _ hd => same_name.bind fun _ =>
    respects_constDirectives.bind fun _ _ hds => respects_enumValues.bind fun _ _ hvs =>
      respects_pure ⟨hd, rfl, hds, .enum hvs⟩

theorem respects_inputDefinition :
    L.Respects (TypeDefinition.Alike L.values) Parser.inputDefinition Parser.inputDefinition :=
  (respects_heading (by decide)).bind fun _ _ hd => same_name.bind fun _ =>
    respects_constDirectives.bind fun _ _ hds => respects_inputFields.bind fun _ _ hfs =>
      respects_pure ⟨hd, rfl, hds, .input hfs⟩

theorem respects_directiveDefinition :
    L.Respects (DirectiveDefinition.Alike L.values) Parser.directiveDefinition Parser.directiveDefinition := by
  have hlocations : L.Same (Parser.orComplain (Parser.isNameOr '|') .badLocation []
      (Parser.separated '|' Parser.location)) :=
    respects_orComplain (same_isNameOr '|') rfl (respects_separated same_location).same
  have hon : L.Same (Parser.orComplain (Parser.isText "on") .noLocations () Parser.skip) :=
    respects_orComplain (same_isText (by decide)) rfl same_skip
  refine (respects_heading (by decide)).bind fun _ _ hd => ?_
  refine Same.bind (respects_orComplain (same_isMark '@') rfl same_skip) fun _ => same_name.bind fun _ => ?_
  refine respects_argumentDefinitions?.bind fun _ _ hargs => (same_isText (by decide)).bind fun repeatable => ?_
  exact .when same_skip <| hon.bind fun _ => hlocations.bind fun _ =>
    respects_pure ⟨hd, rfl, hargs, rfl, rfl⟩

/-! ## Extensions -/

theorem isEmpty_eq {β : Type} {R : β → β → Prop} {l l' : List β} (h : List.Forall₂ R l l') :
    l.isEmpty = l'.isEmpty := by
  cases h with
  | nil => rfl
  | cons _ _ => rfl

theorem respects_schemaExtension :
    L.Respects (SchemaDefinition.Alike L.values) Parser.schemaExtension Parser.schemaExtension := by
  have hfound : L.Same (Parser.whenever (Parser.isMark '{') [] do
      Parser.skip
      let found ← Parser.repeatWhile Parser.isName Parser.rootOperation
      Parser.await .rightCurly
      return found) :=
    respects_whenever (same_isMark '{') rfl <| same_skip.bind fun _ =>
      (respects_repeatWhile same_isName same_rootOperation).same.bind fun _ =>
        (same_await .rightCurly).bind fun _ => same_pure _
  refine respects_constDirectives.bind fun _ _ hds => hfound.bind fun found => ?_
  rw [isEmpty_eq hds]
  exact .when (same_complain .emptySchemaExtension) (respects_pure ⟨.none, hds, rfl⟩)

theorem respects_typeExtension {missing : Complaint} {interfaces : Parser (List Name)} {present : Parser Bool}
    {body : List Name → Parser TypeBody} (hinterfaces : L.Same interfaces) (hpresent : L.Same present)
    (hbody : ∀ i, L.Respects (TypeBody.Alike L.values) (body i) (body i)) :
    L.Respects (TypeDefinition.Alike L.values) (Parser.typeExtension missing interfaces present body)
      (Parser.typeExtension missing interfaces present body) := by
  refine same_name.bind fun n => hinterfaces.bind fun i => respects_constDirectives.bind fun _ _ hds => ?_
  refine hpresent.bind fun added => (hbody i).bind fun _ _ hb => ?_
  rw [isEmpty_eq hds]
  exact .when (same_complain missing) (respects_pure ⟨.none, rfl, hds, hb⟩)

/-- The text of what follows the word at hand; none counts as empty. -/
theorem sameSpelling_of_rel {o o' : Option (Kind × Text)} (h : Option.Rel Announced o o') :
    SameSpelling ((o.map Prod.snd).getD []) ((o'.map Prod.snd).getD []) := by
  cases h with
  | none => exact .inl rfl
  | some ha => exact ha.spelling

theorem respects_extension :
    L.Respects (Option.Rel (Definition.Alike L.values)) Parser.extension Parser.extension := by
  refine respects_second.bind fun o o' ho => ?_
  have hwhat := sameSpelling_of_rel ho
  generalize (o.map Prod.snd).getD [] = what, (o'.map Prod.snd).getD [] = what' at hwhat
  have hextend {p : Parser TypeDefinition} (hp : L.Respects (TypeDefinition.Alike L.values) p p) :
      L.Respects (Option.Rel (Definition.Alike L.values))
        (do Parser.skip; Parser.skip; return some (.extendType (← p)))
        (do Parser.skip; Parser.skip; return some (.extendType (← p))) :=
    same_skip.bind fun _ => same_skip.bind fun _ => hp.bind fun _ _ ht => respects_pure (.some (.extendType ht))
  refine .iteKeyword hwhat (by decide) ?schema <| .iteKeyword hwhat (by decide) ?scalar <|
    .iteKeyword hwhat (by decide) ?type <| .iteKeyword hwhat (by decide) ?interface <|
    .iteKeyword hwhat (by decide) ?union <| .iteKeyword hwhat (by decide) ?enum <|
    .iteKeyword hwhat (by decide) ?input ?other
  case schema =>
    exact same_skip.bind fun _ => same_skip.bind fun _ =>
      respects_schemaExtension.bind fun _ _ hs => respects_pure (.some (.extendSchema hs))
  case scalar =>
    exact hextend (respects_typeExtension (same_pure _) (same_pure _) fun _ => respects_pure .scalar)
  case type =>
    exact hextend (respects_typeExtension same_implements (same_isMark '{') fun i =>
      respects_fieldDefinitions.map fun _ _ => .object i)
  case interface =>
    exact hextend (respects_typeExtension same_implements (same_isMark '{') fun i =>
      respects_fieldDefinitions.map fun _ _ => .interface i)
  case union =>
    refine hextend (respects_typeExtension (same_pure _) (same_isMark '=') fun _ => same_members.map fun ms _ h => ?_)
    cases h
    exact .union ms
  case enum =>
    exact hextend (respects_typeExtension (same_pure _) (same_isMark '{') fun _ =>
      respects_enumValues.map fun _ _ => .enum)
  case input =>
    exact hextend (respects_typeExtension (same_pure _) (same_isMark '{') fun _ =>
      respects_inputFields.map fun _ _ => .input)
  case other => exact (same_reject .noExtension).bind fun _ => respects_pure .none

/-! ## Documents -/

theorem respects_definitionOf {announced announced' : Text} (h : SameSpelling announced announced') :
    L.Respects (Option.Rel (Definition.Alike L.values)) (Parser.definitionOf announced)
      (Parser.definitionOf announced') := by
  have htype {p : Parser TypeDefinition} (hp : L.Respects (TypeDefinition.Alike L.values) p p) :
      L.Respects (Option.Rel (Definition.Alike L.values)) (do return some (.type (← p)))
        (do return some (.type (← p))) :=
    hp.bind fun _ _ ht => respects_pure (.some (.type ht))
  refine .iteKeyword h (by decide) ?directive <| .iteKeyword h (by decide) (htype respects_enumDefinition) <|
    .iteKeyword h (by decide) respects_extension <| .iteKeyword h (by decide) ?fragment <|
    .iteKeyword h (by decide) (htype respects_inputDefinition) <|
    .iteKeyword h (by decide) (htype respects_interfaceDefinition) <|
    .iteKeyword h (by decide) (htype respects_objectDefinition) <|
    .iteKeyword h (by decide) (htype respects_scalarDefinition) <| .iteKeyword h (by decide) ?schema <|
    .iteKeyword h (by decide) (htype respects_unionDefinition) ?operation
  case directive => exact respects_directiveDefinition.bind fun _ _ hd => respects_pure (.some (.directive hd))
  case fragment => exact respects_fragment.bind fun _ _ hf => respects_pure (.some (.fragment hf))
  case schema => exact respects_schemaDefinition.bind fun _ _ hs => respects_pure (.some (.schema hs))
  case operation =>
    have hany : (announced = "query".toList ∨ announced = "mutation".toList ∨
        announced = "subscription".toList ∨ announced = "\x7b".toList) ↔ _ :=
      or_congr (h.eq_iff (by decide)) <| or_congr (h.eq_iff (by decide)) <|
        or_congr (h.eq_iff (by decide)) (h.eq_iff (by decide))
    exact .iteIff hany (respects_operation.bind fun _ _ ho => respects_pure (.some (.operation ho)))
      ((same_reject .noDefinition).bind fun _ => respects_pure .none)

theorem respects_definition :
    L.Respects (Option.Rel (Definition.Alike L.values)) Parser.definition Parser.definition := by
  refine respects_word.bind fun o o' ho => ?_
  cases ho with
  | none => exact respects_pure .none
  | @some w w' hw =>
    simp only [← hw.kind]
    refine .ite (respects_second.bind fun _ _ ha => respects_definitionOf (sameSpelling_of_rel ha)) (.ite ?_ ?_)
    · exact respects_definitionOf hw.spelling
    · exact (same_reject .noDefinitionStart).bind fun _ => respects_pure .none

theorem same_isOpen : L.Same Parser.isOpen := by
  refine respects_word.bind fun o o' ho => respects_pure ?_
  cases ho with
  | none => rfl
  | some hw => simp only [Option.any_some, hw.kind]

/-- **The grammar does not look inside strings.** -/
theorem respects_document : L.Respects (Document.Alike L.values) Parser.document Parser.document :=
  (same_isKind .stop).bind fun _ => .when (same_complain .emptyDocument) <|
    (respects_repeatWhile same_isOpen respects_definition).bind fun _ _ hds =>
      respects_pure (forall₂_filterMap_id hds)

end GraphqlBuild.Graphql.Likeness
