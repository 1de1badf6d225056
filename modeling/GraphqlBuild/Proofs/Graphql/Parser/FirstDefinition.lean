import GraphqlBuild.Document.Parsed
import GraphqlBuild.Proofs.Document.QueryType
import GraphqlBuild.Proofs.Graphql.Parser.Accumulates
/-!
# The first definition of a document

A document without complaints has a definition, and its first word announces the first one unless it is a string
(`Parser.exists_first`): the word is one of the keywords, or the brace of a query that has none, and tells the kind
of the definition and the type of an operation.
-/

namespace GraphqlBuild

/-- The query type that a definition stands for; one that is neither an operation nor a fragment counts as a query. -/
def DefinitionNode.Announces (node : DefinitionNode) (type : QueryType) : Prop :=
  match node.kind with
  | .operation => node.operation = some type
  | .fragment => type = .fragment
  | .typeSystem | .typeExtension => type = .query

instance (node : DefinitionNode) (type : QueryType) : Decidable (node.Announces type) := by
  unfold DefinitionNode.Announces
  split <;> infer_instance

namespace Graphql

/-- The type of an operation that begins with the word. -/
def OperationType.ofWord (t : Text) : OperationType :=
  if t = "mutation".toList then .mutation else if t = "subscription".toList then .subscription else .query

open QueryType (openers)

namespace Parser

variable {α β : Type}

/-! ## Results -/

/-- Whatever is at hand, the result is such. -/
def Yields (Q : α → Prop) (p : Parser α) : Prop := ∀ s, Q (p.run s).1

theorem yields_pure {Q : α → Prop} {a : α} (h : Q a) : Yields Q (pure a) := fun _ => h

theorem Yields.bind {Q : β → Prop} {p : Parser α} {f : α → Parser β} (hf : ∀ a, Yields Q (f a)) :
    Yields Q (p >>= f) := fun s => hf (p.run s).1 (p.run s).2

theorem Yields.ite {Q : α → Prop} {c : Prop} [Decidable c] {p q : Parser α} (hp : Yields Q p) (hq : Yields Q q) :
    Yields Q (if c then p else q) := by
  split
  · exact hp
  · exact hq

/-- The result as it depends on that of the first part. -/
theorem result_bind (Q : α → β → Prop) {p : Parser α} {f : α → Parser β} (hf : ∀ a, Yields (Q a) (f a)) (s : Parse) :
    Q (p.run s).1 ((p >>= f).run s).1 := hf (p.run s).1 (p.run s).2

/-! ## The first words -/

variable {w : Word} {rest : List Word}

/-- These words, before any is taken. -/
abbrev start (w : Word) (rest : List Word) : Parse := { words := w :: rest }

theorem run_isKind_bind (kind : Kind) (f : Bool → Parser α) :
    (isKind kind >>= f).run (start w rest) = (f (w.kind == kind)).run (start w rest) := rfl

theorem run_isText_bind (t : Text) (f : Bool → Parser α) :
    (isText t >>= f).run (start w rest) = (f (w.text == t)).run (start w rest) := rfl

theorem run_second_bind (f : Option (Kind × Text) → Parser α) :
    ∃ next, (second >>= f).run (start w rest) = (f next).run (start w rest) := by
  cases hcomma : w.comma with
  | true =>
    refine ⟨some (.comma, [',']), ?_⟩
    change (ite _ _ _ >>= f : Parser α).run _ = _
    rw [if_pos hcomma]
    rfl
  | false =>
    refine ⟨rest.head?.map fun n => (n.kind, n.text), ?_⟩
    change (ite _ _ _ >>= f : Parser α).run _ = _
    rw [if_neg (by simp [hcomma])]
    rfl

/-- What is rejected at once draws a complaint. -/
theorem complaints_reject (complaint : Complaint) : ((reject complaint).run (start w rest)).2.complaints ≠ [] :=
  List.cons_ne_nil _ _

/-! ## Definitions -/

theorem operationType_result (w : Word) (rest : List Word) :
    (operationType.run (start w rest)).1 = .ofWord w.text := by
  rw [operationType, run_isText_bind]
  by_cases hquery : w.text = "query".toList
  · rw [if_pos (by simpa using hquery), hquery]
    rfl
  · rw [if_neg (by simpa using hquery), run_isText_bind]
    by_cases hmutation : w.text = "mutation".toList
    · rw [if_pos (by simpa using hmutation), hmutation]
      rfl
    · rw [if_neg (by simpa using hmutation), run_isText_bind, OperationType.ofWord, if_neg hmutation]
      by_cases hsubscription : w.text = "subscription".toList
      · rw [if_pos (by simpa using hsubscription), if_pos hsubscription]
        rfl
      · rw [if_neg (by simpa using hsubscription), if_neg hsubscription]
        rfl

theorem operation_type (h : w.kind = .name ∨ w.text = "\x7b".toList) :
    (operation.run (start w rest)).1.type = .ofWord w.text := by
  rw [operation, isName, run_isKind_bind]
  by_cases hname : w.kind = .name
  · -- the type is read first, and nothing that follows changes it
    rw [if_pos (by simpa using hname), ← operationType_result w rest]
    exact result_bind (fun t (o : Operation) => o.type = t) (fun t => .bind fun _ => .bind fun _ => .bind fun _ =>
      .bind fun _ => .ite (.bind fun _ => yields_pure rfl) (.bind fun _ => yields_pure rfl)) _
  · rw [if_neg (by simpa using hname), h.resolve_left hname]
    exact Yields.bind (Q := fun o : Operation => o.type = .query) (fun _ =>
      .ite (.bind fun _ => yields_pure rfl) (.bind fun _ => yields_pure rfl)) _

/-- Such a definition is there, unless the parser draws a complaint. -/
def Defines (w : Word) (rest : List Word) (Q : Definition → Prop) (p : Parser (Option Definition)) : Prop :=
  (p.run (start w rest)).2.complaints = [] → ∃ d, (p.run (start w rest)).1 = some d ∧ Q d

section Defines
variable {Q : Definition → Prop}

theorem defines_some {p : Parser α} {f : α → Definition} (h : ∀ a, Q (f a)) :
    Defines w rest Q (p >>= fun a => pure (some (f a))) := fun _ => ⟨_, rfl, h _⟩

theorem defines_reject (complaint : Complaint) :
    Defines w rest Q (reject complaint >>= fun _ => pure none) := fun h => absurd h (complaints_reject complaint)

theorem Defines.ite {c : Prop} [Decidable c] {p q : Parser (Option Definition)} (hp : c → Defines w rest Q p)
    (hq : ¬c → Defines w rest Q q) : Defines w rest Q (if c then p else q) := by
  by_cases hc : c
  · rw [if_pos hc]
    exact hp hc
  · rw [if_neg hc]
    exact hq hc

theorem Defines.mono {R : Definition → Prop} {p : Parser (Option Definition)} (h : Defines w rest Q p)
    (hQR : ∀ d, Q d → R d) : Defines w rest R p := fun hnone => by
  obtain ⟨d, hd, hq⟩ := h hnone
  exact ⟨d, hd, hQR d hq⟩

theorem defines_second_bind {f : Option (Kind × Text) → Parser (Option Definition)}
    (h : ∀ next, Defines w rest Q (f next)) : Defines w rest Q (second >>= f) := by
  obtain ⟨next, hnext⟩ := run_second_bind f
  rw [Defines, hnext]
  exact h next

end Defines

theorem extension_defines : Defines w rest (fun d => (DefinitionNode.ofDefinition d).Announces .query) extension := by
  unfold extension
  refine defines_second_bind fun next => ?_
  dsimp only
  -- a schema and the six kinds of types
  iterate 7 refine .ite (fun _ => fun _ => ⟨_, rfl, rfl⟩) fun _ => ?_
  exact defines_reject .noExtension

/-- The keyword begins a definition, which is the one announced if the keyword is the first word. -/
def Fits (w : Word) (keyword : Text) (d : Definition) : Prop :=
  ∃ type, (keyword, type) ∈ openers ∧ (w.text = keyword → (w.kind = .name ∨ keyword = "\x7b".toList) →
    (DefinitionNode.ofDefinition d).Announces type)

theorem defines_of_keyword {keyword word : Text} {type : QueryType} {p : Parser α} {f : α → Definition}
    (hopener : (word, type) ∈ openers) (hf : ∀ a, (DefinitionNode.ofDefinition (f a)).Announces type)
    (h : keyword = word) : Defines w rest (Fits w keyword) (p >>= fun a => pure (some (f a))) :=
  defines_some fun a => ⟨type, h ▸ hopener, fun _ _ => hf a⟩

theorem definitionOf_defines (keyword : Text) : Defines w rest (Fits w keyword) (definitionOf keyword) := by
  unfold definitionOf
  -- the keywords in the order in which they are tried: two before that of extensions, seven behind it
  iterate 2 refine .ite (defines_of_keyword (by decide) fun _ => rfl) fun _ => ?_
  refine .ite (fun h => extension_defines.mono fun _ hd => ⟨_, h ▸ by decide, fun _ _ => hd⟩) fun _ => ?_
  iterate 7 refine .ite (defines_of_keyword (by decide) fun _ => rfl) fun _ => ?_
  refine .ite (fun hoperation => ?_) fun _ => defines_reject .noDefinition
  refine fun _ => ⟨_, rfl, .ofOperation (.ofWord keyword), ?_, fun hword hname => ?_⟩
  · rcases hoperation with rfl | rfl | rfl | rfl <;> decide
  · subst hword
    exact congrArg (some ∘ QueryType.ofOperation) (operation_type hname)

theorem definition_defines :
    Defines w rest (fun d => w.kind = .string ∨ (w.kind = .name ∨ w.kind = .mark '\x7b') ∧ Fits w w.text d)
      definition := by
  change Defines w rest _ (if _ then _ else if _ then _ else _)
  refine .ite (fun hstring => defines_second_bind fun _ => ?_) fun _ => .ite (fun hname => ?_) fun _ => ?_
  · exact (definitionOf_defines _).mono fun _ _ => .inl hstring
  · exact (definitionOf_defines _).mono fun _ hfits => .inr ⟨hname, hfits⟩
  · exact defines_reject .noDefinitionStart

/-! ## The document -/

theorem document_of_stop (h : w.kind = .stop) : (document.run (start w rest)).2.complaints ≠ [] := by
  intro hnone
  rw [document, run_isKind_bind, if_pos (by simpa using h)] at hnone
  -- what follows does not take the complaint back
  have hlater := Accumulates.suffix (p := do return (← repeatWhile isOpen definition).filterMap id)
    { words := w :: rest, complaints := [(.emptyDocument, w.offset)] }
  exact absurd (List.suffix_nil.1 (hnone ▸ hlater)) (List.cons_ne_nil _ _)

/-- The first definition, and then the others. -/
theorem document_of_open (h : w.kind ≠ .stop) : document.run (start w rest) =
    (((definition.run (start w rest)).1 ::
        ((repeatUpTo isOpen definition rest.length).run (definition.run (start w rest)).2).1).filterMap id,
      ((repeatUpTo isOpen definition rest.length).run (definition.run (start w rest)).2).2) := by
  have hround : (repeatUpTo isOpen definition (rest.length + 1)).run (start w rest) =
      ((definition.run (start w rest)).1 ::
        ((repeatUpTo isOpen definition rest.length).run (definition.run (start w rest)).2).1,
      ((repeatUpTo isOpen definition rest.length).run (definition.run (start w rest)).2).2) := by
    change (if (w.kind != .stop) = true then _ else _ : Parser (List (Option Definition))).run _ = _
    rw [if_pos (by simpa using h)]
    rfl
  rw [document, run_isKind_bind, if_neg (by simpa using h)]
  change Prod.map (List.filterMap id) id ((repeatUpTo isOpen definition (rest.length + 1)).run (start w rest)) = _
  rw [hround]
  rfl

/-- **The first definition**: a document without complaints has one, which its first word announces unless that is a
string. -/
theorem exists_first (h : (document.run (start w rest)).2.complaints = []) :
    w.kind ≠ .stop ∧ ∃ d more, (document.run (start w rest)).1 = d :: more ∧
      (w.kind = .string ∨ (w.kind = .name ∨ w.kind = .mark '\x7b') ∧ Fits w w.text d) := by
  by_cases hstop : w.kind = .stop
  · exact absurd h (document_of_stop hstop)
  · rw [document_of_open hstop] at h ⊢
    have hlater := Accumulates.suffix (p := repeatUpTo isOpen definition rest.length)
      (definition.run (start w rest)).2
    rw [h] at hlater
    obtain ⟨d, hd, hfits⟩ := definition_defines (List.suffix_nil.1 hlater)
    exact ⟨hstop, d, _, by rw [hd]; rfl, hfits⟩

end Parser

end Graphql

end GraphqlBuild
