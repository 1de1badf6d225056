import GraphqlBuild.Proofs.Graphql.Parser.Value
/-!
# Operations and fragments of words that are alike

Selection sets nest like values: a set is read by the parser for one level less, and within a level by
rounds (`respects_selectionSet`).
-/

namespace GraphqlBuild.Graphql.Likeness

variable {L : Likeness}

/-! ## Selections -/

theorem same_fragmentName : L.Same Parser.fragmentName :=
  same_isName.bind fun _ => (same_isText (by decide)).bind fun _ =>
    .ite ((same_complain .fragmentNamedOn).bind fun _ => same_pure _) (same_nameOr .noFragmentName)

theorem same_typeCondition : L.Same Parser.typeCondition :=
  same_isName.bind fun _ => (same_isText (by decide)).bind fun _ =>
    .ite (same_skip.bind fun _ => same_nameOr _) ((same_complain .noOn).bind fun _ => same_nameOr _)

/-- The parser for what stands in a selection set. -/
abbrev RespectsSet (L : Likeness) (set : Parser (List Selection)) : Prop :=
  L.Respects (List.Forall₂ (Selection.Alike L.values)) set set

theorem respects_selectionSetWith {inner : Option (Parser (List Selection))}
    (h : Option.Rel (L.Respects (List.Forall₂ (Selection.Alike L.values))) inner inner) :
    L.RespectsSet (Parser.selectionSetWith inner) := by
  refine same_skip.bind fun _ => (respects_nested h).bind fun set set' hset => ?_
  cases hset with
  | none => exact respects_pure .nil
  | some hset => exact (same_await .rightCurly).bind fun _ => respects_pure hset

theorem respects_field (depth : Nat) {set : Parser (List Selection)} (hset : L.RespectsSet set) :
    L.Respects (Selection.Alike L.values) (Parser.field depth set) (Parser.field depth set) := by
  have hrest (responseName : Option Name) : L.Respects (Selection.Alike L.values)
      (do
        let n ← Parser.name
        let args ← Parser.arguments? .free depth
        let dirs ← Parser.directives .free depth
        let selections ← Parser.whenever (Parser.isMark '{') [] set
        return Selection.field responseName n args dirs selections)
      (do
        let n ← Parser.name
        let args ← Parser.arguments? .free depth
        let dirs ← Parser.directives .free depth
        let selections ← Parser.whenever (Parser.isMark '{') [] set
        return Selection.field responseName n args dirs selections) :=
    same_name.bind fun n => (respects_arguments? .free depth).bind fun _ _ hargs =>
      (respects_directives .free depth).bind fun _ _ hds =>
        (respects_whenever (same_isMark '{') .nil hset).bind fun _ _ hset =>
          respects_pure (.field responseName n hargs hds hset)
  refine respects_second.bind fun o o' ho => ?_
  have haliased : (o.any fun s => s.1 == .mark ':') = o'.any fun s => s.1 == .mark ':' := by
    cases ho with
    | none => rfl
    | some ha => simp only [Option.any_some, ha.kind]
  simp only [haliased]
  exact .ite (same_name.bind fun n => same_skip.bind fun _ => hrest (some n)) (hrest none)

theorem respects_fragmentSpread (depth : Nat) :
    L.Respects (Selection.Alike L.values) (Parser.fragmentSpread depth) (Parser.fragmentSpread depth) :=
  same_skip.bind fun _ => same_fragmentName.bind fun n =>
    (respects_directives .free depth).bind fun _ _ hds => respects_pure (.spread n hds)

theorem respects_inlineFragment (depth : Nat) {set : Parser (List Selection)} (hset : L.RespectsSet set) :
    L.Respects (Selection.Alike L.values) (Parser.inlineFragment depth set) (Parser.inlineFragment depth set) :=
  same_skip.bind fun _ =>
    Same.bind (respects_whenever same_isName rfl (same_typeCondition.map fun _ _ => congrArg some)) fun condition =>
      (respects_directives .free depth).bind fun _ _ hds =>
        (respects_orComplain (same_isMark '{') .nil hset).bind fun _ _ hset =>
          respects_pure (.inline condition hds hset)

/-- The same comes of the two rounds. -/
inductive SameRound (L : Likeness) : Parser.Round → Parser.Round → Prop
  | selected {s s' : Selection} : s.Alike L.values s' → SameRound L (.selected s) (.selected s')
  | dots : SameRound L .dots .dots
  | done : SameRound L .done .done

theorem respects_selection (depth : Nat) {set : Parser (List Selection)} (hset : L.RespectsSet set) :
    L.Respects L.SameRound (Parser.selection depth set) (Parser.selection depth set) := by
  refine (same_isKind .spread).bind fun _ => .ite ?_ ?_
  · refine respects_second.bind fun o o' ho => ?_
    cases ho with
    | none => exact (same_reject .noSpread).bind fun _ => respects_pure .done
    | @some a a' ha =>
      obtain ⟨kind, text⟩ := a
      obtain ⟨kind', text'⟩ := a'
      obtain rfl : kind = kind' := ha.kind
      have hspread : (kind = .name ∧ text ≠ "on".toList) ↔ (kind = .name ∧ text' ≠ "on".toList) :=
        and_congr_right fun _ => not_congr (ha.spelling.eq_iff (by decide))
      refine .iteIff hspread ((respects_fragmentSpread depth).bind fun _ _ hs => respects_pure (.selected hs)) (.ite ?_ ?_)
      · exact (respects_inlineFragment depth hset).bind fun _ _ hs => respects_pure (.selected hs)
      · exact (same_reject .noSpread).bind fun _ => respects_pure .dots
  · exact same_isName.bind fun _ => .ite
      ((respects_field depth hset).bind fun _ _ hs => respects_pure (.selected hs)) (respects_pure .done)

/-- By induction on the number of rounds. -/
theorem respects_selectionRounds (depth : Nat) {set : Parser (List Selection)} (hset : L.RespectsSet set) (n : Nat) :
    L.Respects (fun r r' => List.Forall₂ (Selection.Alike L.values) r.1 r'.1 ∧ r.2 = r'.2)
      (Parser.selectionRounds depth set n) (Parser.selectionRounds depth set n) := by
  induction n with
  | zero => exact respects_pure ⟨.nil, rfl⟩
  | succ n ih =>
    refine (respects_selection depth hset).bind fun r r' hr => ?_
    cases hr with
    | done => exact respects_pure ⟨.nil, rfl⟩
    | dots => exact ih.bind fun _ _ hmore => respects_pure ⟨hmore.1, rfl⟩
    | selected hs => exact ih.bind fun _ _ hmore => respects_pure ⟨.cons hs hmore.1, rfl⟩

theorem respects_selections (depth : Nat) {set : Parser (List Selection)} (hset : L.RespectsSet set) :
    L.RespectsSet (Parser.selections depth set) := by
  refine respects_get.bind fun s s' hs => ?_
  rw [hs.words.length_eq]
  refine (respects_selectionRounds depth hset _).bind fun ⟨found, any⟩ ⟨found', any'⟩ ⟨hfound, hany⟩ => ?_
  cases hany
  exact .when (same_complain .noSelection) (respects_pure hfound)

/-- By induction on the levels still open. -/
theorem respects_selectionSet (depth : Nat) : L.RespectsSet (Parser.selectionSet depth) := by
  induction depth with
  | zero => exact respects_selectionSetWith .none
  | succ depth ih => exact respects_selectionSetWith (.some (respects_selections depth ih))

/-! ## Definitions -/

theorem same_operationType : L.Same Parser.operationType :=
  (same_isText (by decide)).bind fun _ => .ite (same_skip.bind fun _ => same_pure _) <|
    (same_isText (by decide)).bind fun _ => .ite (same_skip.bind fun _ => same_pure _) <|
      (same_isText (by decide)).bind fun _ => .ite (same_skip.bind fun _ => same_pure _) <|
        (same_reject .noOperationType).bind fun _ => same_pure _

theorem respects_defaultValue :
    L.Respects (Option.Rel (Value.Alike L.values)) Parser.defaultValue Parser.defaultValue :=
  respects_whenever (same_isMark '=') .none <| same_skip.bind fun _ =>
    (respects_value .constant maxDepth false).bind fun _ _ hv => respects_pure (.some hv)

theorem respects_variableDefinition :
    L.Respects (VariableDefinition.Alike L.values) Parser.variableDefinition Parser.variableDefinition := by
  refine same_variableName.bind fun n => ?_
  have hmissing : VariableDefinition.Alike L.values ⟨n, .named [], none, []⟩ ⟨n, .named [], none, []⟩ :=
    ⟨rfl, rfl, .none, .nil⟩
  exact respects_orComplain (same_isMark ':') hmissing <| same_skip.bind fun _ =>
    respects_orComplain (same_isNameOr '[') hmissing <| (same_type maxDepth).bind fun t =>
      respects_defaultValue.bind fun _ _ hv => (respects_directives .constant maxDepth).bind fun _ _ hds =>
        respects_pure ⟨rfl, rfl, hv, hds⟩

theorem respects_variableDefinitions :
    L.Respects (List.Forall₂ (VariableDefinition.Alike L.values)) Parser.variableDefinitions
      Parser.variableDefinitions :=
  same_skip.bind fun _ => (respects_someWhile (same_isMark '$') respects_variableDefinition).bind fun _ _ hvs =>
    (same_await .rightParen).bind fun _ => respects_pure hvs

theorem respects_operation :
    L.Respects (Operation.Alike L.values) Parser.operation Parser.operation := by
  refine same_isName.bind fun _ => .ite ?_ ?_
  · refine same_operationType.bind fun t => same_name?.bind fun n => ?_
    refine (respects_whenever (same_isMark '(') .nil respects_variableDefinitions).bind fun _ _ hvs => ?_
    refine (respects_directives .free maxDepth).bind fun _ _ hds => (same_isMark '{').bind fun _ => .ite ?_ ?_
    · exact (respects_selectionSet maxDepth).bind fun _ _ hset => respects_pure ⟨rfl, rfl, hvs, hds, hset⟩
    · exact (same_reject .noOperationBody).bind fun _ => respects_pure ⟨rfl, rfl, hvs, hds, .nil⟩
  · refine (same_isMark '{').bind fun _ => .ite ?_ ?_
    · exact (respects_selectionSet maxDepth).bind fun _ _ hset => respects_pure ⟨rfl, rfl, .nil, .nil, hset⟩
    · exact (same_reject .noOperation).bind fun _ => respects_pure ⟨rfl, rfl, .nil, .nil, .nil⟩

theorem respects_fragment : L.Respects (Fragment.Alike L.values) Parser.fragment Parser.fragment :=
  same_skip.bind fun _ => same_fragmentName.bind fun _ => same_typeCondition.bind fun _ =>
    (respects_directives .free maxDepth).bind fun _ _ hds =>
      (respects_orComplain (same_isMark '{') .nil (respects_selectionSet maxDepth)).bind fun _ _ hset =>
        respects_pure ⟨rfl, rfl, hds, hset⟩

end GraphqlBuild.Graphql.Likeness
