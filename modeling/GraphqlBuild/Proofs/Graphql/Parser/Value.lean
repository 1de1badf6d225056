import GraphqlBuild.Proofs.Graphql.Alike
import GraphqlBuild.Proofs.Graphql.Parser.Likeness
/-!
# Values and types of words that are alike

A value's parts are read by the parser for one level less, so the statement about `value` goes by induction
on the levels still open (`respects_value`). A word that is no type is handed up to whoever asked for the
type, and what stands behind it is looked at only then; so `type?` must also say that the word comes right
before the words that are left (`Typed.wrong`).
-/

namespace GraphqlBuild.Graphql.Likeness

variable {L : Likeness}

/-! ## Names and strings -/

theorem same_nameOr (missing : Complaint) : L.Same (Parser.nameOr missing) := by
  refine respects_word.bind fun o o' ho => ?_
  cases ho with
  | none => exact same_pure _
  | @some w w' hw =>
    simp only [← hw.kind]
    split
    · rename_i hname
      rw [← hw.text (by rw [hname]; decide)]
      exact same_skip.bind fun _ => same_pure _
    · exact (same_complain missing).bind fun _ => same_pure _

theorem same_name : L.Same Parser.name := same_nameOr _

theorem same_name? : L.Same Parser.name? :=
  respects_whenever same_isName rfl (same_name.map fun _ _ => congrArg some)

theorem respects_description? :
    L.Respects (Option.Rel L.values) Parser.description? Parser.description? := by
  refine respects_word.bind fun o o' ho => ?_
  cases ho with
  | none => exact respects_pure .none
  | @some w w' hw =>
    simp only [← hw.kind]
    split
    · rename_i hstring
      exact same_skip.bind fun _ => respects_pure (.some (hw.value hstring))
    · exact respects_pure .none

theorem same_variableName : L.Same Parser.variableName := same_skip.bind fun _ => same_name

/-! ## Values -/

theorem same_refuse (take : Bool) (complaint : Complaint) : L.Same (Parser.refuse take complaint) :=
  .ite (same_reject complaint) (same_complain complaint)

variable {α : Type} {Q : α → α → Prop}

theorem respects_nested {inner inner' : Option (Parser α)} (h : Option.Rel (L.Respects Q) inner inner') :
    L.Respects (Option.Rel Q) (Parser.nested inner) (Parser.nested inner') := by
  cases h with
  | none => exact same_tooDeep.bind fun _ => respects_pure .none
  | some hp => exact hp.map fun _ _ => .some

/-- The parser for the parts of a value. -/
abbrev Inner (L : Likeness) (inner : Option (Parser Value)) : Prop :=
  Option.Rel (L.Respects (Value.Alike L.values)) inner inner

/-- By induction on the number of rounds. -/
theorem respects_listItems {inner : Option (Parser Value)} (h : L.Inner inner) (n : Nat) :
    L.Respects (List.Forall₂ (Value.Alike L.values)) (Parser.listItems inner n) (Parser.listItems inner n) := by
  induction n with
  | zero => exact respects_pure .nil
  | succ n ih =>
    refine (same_isMark ']').bind fun _ => .ite (same_skip.bind fun _ => respects_pure .nil) ?_
    refine respects_word.bind fun o o' ho => ?_
    have hstop : (o.all fun w => w.kind == .stop) = o'.all fun w => w.kind == .stop := by
      cases ho with
      | none => rfl
      | some hw => simp only [Option.all_some, hw.kind]
    rw [hstop]
    refine .ite (respects_pure .nil) ((respects_nested h).bind fun v v' hv => ?_)
    cases hv with
    | none => exact respects_pure .nil
    | some hv => exact ih.bind fun vs vs' hvs => respects_pure (.cons hv hvs)

theorem respects_list {inner : Option (Parser Value)} (h : L.Inner inner) :
    L.Respects (Value.Alike L.values) (Parser.list inner) (Parser.list inner) := by
  refine same_skip.bind fun _ => respects_get.bind fun s s' hs => ?_
  rw [hs.words.length_eq]
  exact (respects_listItems h _).bind fun vs vs' hvs => respects_pure (.list hvs)

theorem respects_member {inner : Option (Parser Value)} (h : L.Inner inner) :
    L.Respects (Option.Rel (Named (Value.Alike L.values))) (Parser.member inner) (Parser.member inner) := by
  refine same_name.bind fun n => (same_isMark ':').bind fun _ => .ite ?_ (respects_pure .none)
  refine same_skip.bind fun _ => (respects_nested h).bind fun v v' hv => respects_pure ?_
  cases hv with
  | none => exact .none
  | some hv => exact .some (.mk n hv)

/-- The members that came to something. -/
theorem forall₂_filterMap_id {os os' : List (Option α)} (h : List.Forall₂ (Option.Rel Q) os os') :
    List.Forall₂ Q (os.filterMap id) (os'.filterMap id) := by
  induction h with
  | nil => exact .nil
  | cons ho _ ih =>
    cases ho with
    | none => exact ih
    | some ha => exact .cons ha ih

theorem respects_object {inner : Option (Parser Value)} (h : L.Inner inner) :
    L.Respects (Value.Alike L.values) (Parser.object inner) (Parser.object inner) :=
  same_skip.bind fun _ => (respects_repeatWhile same_isName (respects_member h)).bind fun _ _ hfields =>
    (same_await .rightCurly).bind fun _ => respects_pure (.object (forall₂_filterMap_id hfields))

theorem alike_ofName (S : Text → Text → Prop) (t : Name) : (Value.ofName t).Alike S (.ofName t) := by
  fun_cases Value.ofName t
  · exact .boolean true
  · exact .boolean false
  · exact .null
  · exact .enum t

theorem respects_valueWith {inner : Option (Parser Value)} (h : L.Inner inner)
    (constancy : Parser.Constancy) (take : Bool) :
    L.Respects (Value.Alike L.values) (Parser.valueWith inner constancy take)
      (Parser.valueWith inner constancy take) := by
  refine respects_word.bind fun o o' ho => ?_
  cases ho with
  | none => exact respects_pure .null
  | @some w w' hw =>
    simp only [← hw.kind]
    split
    · exact .when (same_refuse take .variableInConst) <|
        same_variableName.bind fun n => respects_pure (.variable n)
    · rename_i hint
      rw [← hw.text (by rw [hint]; decide)]
      exact same_skip.bind fun _ => respects_pure (.int _)
    · rename_i hfloat
      rw [← hw.text (by rw [hfloat]; decide)]
      exact same_skip.bind fun _ => respects_pure (.float _)
    · rename_i hstring
      exact same_skip.bind fun _ => respects_pure (.string (hw.value hstring))
    · rename_i hname
      rw [← hw.text (by rw [hname]; decide)]
      exact same_skip.bind fun _ => respects_pure (alike_ofName _ _)
    · exact respects_list h
    · exact respects_object h
    · exact (same_refuse take .noValue).bind fun _ => respects_pure .null

/-- By induction on the levels still open. -/
theorem respects_value (constancy : Parser.Constancy) (depth : Nat) (take : Bool) :
    L.Respects (Value.Alike L.values) (Parser.value constancy depth take)
      (Parser.value constancy depth take) := by
  induction depth generalizing take with
  | zero => exact respects_valueWith .none constancy take
  | succ depth ih => exact respects_valueWith (.some (ih true)) constancy take

theorem respects_arguments (constancy : Parser.Constancy) (depth : Nat) :
    L.Respects (Arguments.Alike L.values) (Parser.arguments constancy depth) (Parser.arguments constancy depth) :=
  same_skip.bind fun _ =>
    (respects_someWhile same_isName (respects_member (.some (respects_value constancy depth false)))).bind
      fun _ _ hargs => (same_await .rightParen).bind fun _ => respects_pure (forall₂_filterMap_id hargs)

theorem respects_arguments? (constancy : Parser.Constancy) (depth : Nat) :
    L.Respects (Arguments.Alike L.values) (Parser.arguments? constancy depth) (Parser.arguments? constancy depth) :=
  respects_whenever (same_isMark '(') .nil (respects_arguments constancy depth)

/-! ## Directives -/

theorem respects_directive (constancy : Parser.Constancy) (depth : Nat) :
    L.Respects (Directive.Alike L.values) (Parser.directive constancy depth) (Parser.directive constancy depth) :=
  (same_await .atSign).bind fun _ => same_name.bind fun _ =>
    (respects_arguments? constancy depth).bind fun _ _ hargs => respects_pure ⟨rfl, hargs⟩

theorem respects_directives (constancy : Parser.Constancy) (depth : Nat) :
    L.Respects (List.Forall₂ (Directive.Alike L.values)) (Parser.directives constancy depth)
      (Parser.directives constancy depth) :=
  respects_repeatWhile (same_isMark '@') (respects_directive constancy depth)

/-! ## Types -/

theorem same_nullability (type : TypeRef) : L.Same (Parser.nullability type) :=
  (same_isMark '!').bind fun _ => .ite (same_skip.bind fun _ => same_pure _) (same_pure _)

/-- The same type, or words that are no types and come right before those that are left. -/
inductive Typed (L : Likeness) (rest rest' : List Graphql.Word) :
    Except Graphql.Word TypeRef → Except Graphql.Word TypeRef → Prop
  | type (t : TypeRef) : Typed L rest rest' (.ok t) (.ok t)
  | wrong {w w' : Graphql.Word} : L.Word w w' → L.Closing w rest w' rest' → Typed L rest rest' (.error w) (.error w')

/-- From these states the parsers go on to states that are alike, with results that fit to the words left. -/
def LeadsToType (L : Likeness) (p p' : Parser (Except Graphql.Word TypeRef)) (s s' : Parse) : Prop :=
  L.Typed (p.run s).2.words (p'.run s').2.words (p.run s).1 (p'.run s').1 ∧ L.State (p.run s).2 (p'.run s').2

/-- The parsers do so from all states that are alike. -/
def RespectsType (L : Likeness) (p p' : Parser (Except Graphql.Word TypeRef)) : Prop :=
  ∀ s s', L.State s s' → L.LeadsToType p p' s s'

theorem Respects.bindType {p p' : Parser α} {f f' : α → Parser (Except Graphql.Word TypeRef)}
    (hp : L.Respects Q p p') (hf : ∀ a a', Q a a' → L.RespectsType (f a) (f' a')) :
    L.RespectsType (p >>= f) (p' >>= f') := by
  intro s s' hs
  obtain ⟨ha, hs⟩ := hp s s' hs
  exact hf _ _ ha _ _ hs

theorem Same.type {p : Parser TypeRef} (hp : L.Same p) :
    L.RespectsType (do return .ok (← p)) (do return .ok (← p)) := by
  refine hp.bindType fun t t' ht s s' hs => ?_
  cases ht
  exact ⟨.type t, hs⟩

theorem RespectsType.bind {p p' : Parser (Except Graphql.Word TypeRef)}
    {f f' : Except Graphql.Word TypeRef → Parser (Except Graphql.Word TypeRef)} (hp : L.RespectsType p p')
    (htype : ∀ t, L.RespectsType (f (.ok t)) (f' (.ok t)))
    (hwrong : ∀ w w' s s', L.State s s' → L.Word w w' → L.Closing w s.words w' s'.words →
      L.LeadsToType (f (.error w)) (f' (.error w')) s s') : L.RespectsType (p >>= f) (p' >>= f') := by
  intro s s' hs
  obtain ⟨htyped, hs⟩ := hp s s' hs
  change L.LeadsToType (f (p.run s).1) (f' (p'.run s').1) (p.run s).2 (p'.run s').2
  generalize (p.run s).1 = r, (p'.run s').1 = r' at htyped
  cases htyped with
  | type t => exact htype t _ _ hs
  | wrong hw hclosing => exact hwrong _ _ _ _ hs hw hclosing

theorem words_complainAt (n : Nat) (c : Complaint) (s : Parse) : ((Parser.complainAt n c).run s).2.words = s.words := by
  change (if s.silent then s else _).words = s.words
  split
  · rfl
  · rfl

theorem closeAfter_run {w : Graphql.Word} {s : Parse} {q : Complaint × Nat} (h : closing? w s.words = some q) :
    (Parser.closeAfter w).run s = (Parser.complainAt q.2 q.1).run s := by
  obtain ⟨words, complaints, silent⟩ := s
  unfold Parser.closeAfter
  cases htrailing : w.trailing with
  | some t =>
    simp only [closing?, htrailing, Option.some.injEq] at h
    subst h
    rfl
  | none =>
    cases words with
    | nil => simp [closing?, htrailing] at h
    | cons next rest =>
      simp only [closing?, htrailing, Option.ite_none_left_eq_some, Option.some.injEq] at h
      obtain ⟨hnext, rfl⟩ := h
      change (if next.kind = .mark ']' then _ else _ : Parser Unit).run _ = _
      rw [if_neg hnext]

theorem state_closeAfter {w w' : Graphql.Word} {s s' : Parse} (hs : L.State s s')
    (h : L.Closing w s.words w' s'.words) :
    L.State ((Parser.closeAfter w).run s).2 ((Parser.closeAfter w').run s').2 := by
  rcases h with ⟨hnone, hnone'⟩ | ⟨q, q', hq, hq', hqq⟩
  · simp only [Parser.closeAfter, hnone, hnone']
    exact (same_await .rightBracket s s' hs).2
  · rw [closeAfter_run hq, closeAfter_run hq']
    exact (respects_complainAt hqq s s' hs).2

theorem leadsToType_word {w w' : Graphql.Word} {words words' : List Graphql.Word} {cs cs' : List (Complaint × Nat)}
    {silent silent' : Bool} {f f' : Option Graphql.Word → Parser (Except Graphql.Word TypeRef)}
    (h : L.LeadsToType (f (some w)) (f' (some w')) ⟨w :: words, cs, silent⟩ ⟨w' :: words', cs', silent'⟩) :
    L.LeadsToType (Parser.word >>= f) (Parser.word >>= f') ⟨w :: words, cs, silent⟩ ⟨w' :: words', cs', silent'⟩ := h

theorem respectsType_typeWith {inner : Option (Parser (Except Graphql.Word TypeRef))}
    (h : ∀ p, inner = some p → L.RespectsType p p) :
    L.RespectsType (Parser.typeWith inner) (Parser.typeWith inner) := by
  intro s s' hs
  obtain ⟨words, complaints, silent⟩ := s
  obtain ⟨words', complaints', silent'⟩ := s'
  cases hs.words with
  | nil => exact ⟨.type _, hs⟩
  | @cons w w' rest rest' hw hclosing hrest =>
    unfold Parser.typeWith
    refine leadsToType_word ?_
    dsimp only
    rw [← hw.kind]
    split
    · refine (same_skip.bindType fun _ _ _ => ?_) _ _ hs
      cases inner with
      | none => exact same_tooDeep.bindType fun _ _ _ => (same_pure (TypeRef.named [])).type
      | some p =>
        have hnested (f : Option (Except Graphql.Word TypeRef) → Parser (Except Graphql.Word TypeRef)) :
            (Parser.nested (some p) >>= f) = p >>= fun r => f (some r) := rfl
        rw [hnested]
        refine (h p rfl).bind (fun t => ?_) fun w w' s s' hs hw hclosing => ?_
        · exact (same_await .rightBracket).bindType fun _ _ _ => (same_nullability _).type
        · obtain ⟨-, hcomplained⟩ := respects_complainAt (hw.complaint .noItemType) s s' hs
          have hclosed := state_closeAfter hcomplained (by rwa [words_complainAt, words_complainAt])
          exact (same_nullability (.named [])).type _ _ hclosed
    · rename_i hname
      rw [← hw.text (by rw [hname]; decide)]
      exact (same_skip.bindType fun _ _ _ => (same_nullability _).type) _ _ hs
    · exact ⟨.wrong hw hclosing, hrest, hs.complaints, hs.silent⟩

/-- By induction on the levels still open. -/
theorem respectsType_type? (depth : Nat) : L.RespectsType (Parser.type? depth) (Parser.type? depth) := by
  induction depth with
  | zero =>
    refine respectsType_typeWith fun p hp => ?_
    cases hp
  | succ depth ih =>
    refine respectsType_typeWith fun p hp => ?_
    cases hp
    exact ih

theorem same_type (depth : Nat) : L.Same (Parser.type depth) := by
  have htype : L.Respects (fun r r' => ∃ rest rest', L.Typed rest rest' r r') (Parser.type? depth)
      (Parser.type? depth) := by
    intro s s' hs
    obtain ⟨htyped, hs⟩ := respectsType_type? depth s s' hs
    exact ⟨⟨_, _, htyped⟩, hs⟩
  refine htype.bind fun r r' ⟨_, _, hr⟩ => ?_
  cases hr with
  | type t => exact same_pure t
  | wrong hw _ => exact (respects_complainAt (hw.complaint .noTypeHere)).bind fun _ _ _ => same_pure _

end GraphqlBuild.Graphql.Likeness
