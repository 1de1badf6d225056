import GraphqlBuild.Document.Parsed
import Mathlib.Data.List.Forall2
/-!
# Syntax trees that differ in their strings

Two trees are alike if they differ in nothing but the texts of their strings, and the texts at the same
place are related by `S`. Alike documents have the same outline (`Document.Alike.map_ofDefinition`), and if
`S` relates no text to another one they are the same (`Document.Alike.eq`).
-/

namespace GraphqlBuild.Graphql

/-- The same name with related things. -/
inductive Named {α : Type} (R : α → α → Prop) : Name × α → Name × α → Prop
  | mk (name : Name) {a a' : α} : R a a' → Named R (name, a) (name, a')

/-- Values that differ in their strings. -/
inductive Value.Alike (S : Text → Text → Prop) : Value → Value → Prop
  | variable (name : Name) : Alike S (.variable name) (.variable name)
  | int (digits : Text) : Alike S (.int digits) (.int digits)
  | float (digits : Text) : Alike S (.float digits) (.float digits)
  | string {t t' : Text} : S t t' → Alike S (.string t) (.string t')
  | boolean (value : Bool) : Alike S (.boolean value) (.boolean value)
  | null : Alike S .null .null
  | enum (name : Name) : Alike S (.enum name) (.enum name)
  | list {items items' : List Value} :
      List.Forall₂ (Alike S) items items' → Alike S (.list items) (.list items')
  | object {fields fields' : List (Name × Value)} :
      List.Forall₂ (Named (Alike S)) fields fields' → Alike S (.object fields) (.object fields')

/-- Arguments that differ in the strings of their values. -/
abbrev Arguments.Alike (S : Text → Text → Prop) : Arguments → Arguments → Prop :=
  List.Forall₂ (Named (Value.Alike S))

section Structures
variable (S : Text → Text → Prop)

structure Directive.Alike (d d' : Directive) : Prop where
  name : d.name = d'.name
  arguments : Arguments.Alike S d.arguments d'.arguments

structure VariableDefinition.Alike (v v' : VariableDefinition) : Prop where
  name : v.name = v'.name
  type : v.type = v'.type
  default : Option.Rel (Value.Alike S) v.default v'.default
  directives : List.Forall₂ (Directive.Alike S) v.directives v'.directives

inductive Selection.Alike : Selection → Selection → Prop
  | field (responseName : Option Name) (name : Name) {args args' : Arguments} {ds ds' : List Directive}
      {set set' : List Selection} :
      Arguments.Alike S args args' → List.Forall₂ (Directive.Alike S) ds ds' →
      List.Forall₂ Alike set set' →
      Alike (.field responseName name args ds set) (.field responseName name args' ds' set')
  | spread (name : Name) {ds ds' : List Directive} :
      List.Forall₂ (Directive.Alike S) ds ds' → Alike (.spread name ds) (.spread name ds')
  | inline (condition : Option Name) {ds ds' : List Directive} {set set' : List Selection} :
      List.Forall₂ (Directive.Alike S) ds ds' → List.Forall₂ Alike set set' →
      Alike (.inline condition ds set) (.inline condition ds' set')

structure InputValue.Alike (v v' : InputValue) : Prop where
  description : Option.Rel S v.description v'.description
  name : v.name = v'.name
  type : v.type = v'.type
  default : Option.Rel (Value.Alike S) v.default v'.default
  directives : List.Forall₂ (Directive.Alike S) v.directives v'.directives

structure FieldDefinition.Alike (f f' : FieldDefinition) : Prop where
  description : Option.Rel S f.description f'.description
  name : f.name = f'.name
  arguments : List.Forall₂ (InputValue.Alike S) f.arguments f'.arguments
  type : f.type = f'.type
  directives : List.Forall₂ (Directive.Alike S) f.directives f'.directives

structure EnumValue.Alike (v v' : EnumValue) : Prop where
  description : Option.Rel S v.description v'.description
  name : v.name = v'.name
  directives : List.Forall₂ (Directive.Alike S) v.directives v'.directives

structure Operation.Alike (o o' : Operation) : Prop where
  type : o.type = o'.type
  name : o.name = o'.name
  parameters : List.Forall₂ (VariableDefinition.Alike S) o.parameters o'.parameters
  directives : List.Forall₂ (Directive.Alike S) o.directives o'.directives
  selections : List.Forall₂ (Selection.Alike S) o.selections o'.selections

inductive TypeBody.Alike : TypeBody → TypeBody → Prop
  | scalar : Alike .scalar .scalar
  | object (interfaces : List Name) {fields fields' : List FieldDefinition} :
      List.Forall₂ (FieldDefinition.Alike S) fields fields' →
      Alike (.object interfaces fields) (.object interfaces fields')
  | interface (interfaces : List Name) {fields fields' : List FieldDefinition} :
      List.Forall₂ (FieldDefinition.Alike S) fields fields' →
      Alike (.interface interfaces fields) (.interface interfaces fields')
  | union (members : List Name) : Alike (.union members) (.union members)
  | enum {values values' : List EnumValue} :
      List.Forall₂ (EnumValue.Alike S) values values' → Alike (.enum values) (.enum values')
  | input {fields fields' : List InputValue} :
      List.Forall₂ (InputValue.Alike S) fields fields' → Alike (.input fields) (.input fields')

structure TypeDefinition.Alike (t t' : TypeDefinition) : Prop where
  description : Option.Rel S t.description t'.description
  name : t.name = t'.name
  directives : List.Forall₂ (Directive.Alike S) t.directives t'.directives
  body : TypeBody.Alike S t.body t'.body

structure SchemaDefinition.Alike (s s' : SchemaDefinition) : Prop where
  description : Option.Rel S s.description s'.description
  directives : List.Forall₂ (Directive.Alike S) s.directives s'.directives
  roots : s.roots = s'.roots

structure DirectiveDefinition.Alike (d d' : DirectiveDefinition) : Prop where
  description : Option.Rel S d.description d'.description
  name : d.name = d'.name
  arguments : List.Forall₂ (InputValue.Alike S) d.arguments d'.arguments
  repeatable : d.repeatable = d'.repeatable
  locations : d.locations = d'.locations

structure Fragment.Alike (f f' : Fragment) : Prop where
  name : f.name = f'.name
  condition : f.condition = f'.condition
  directives : List.Forall₂ (Directive.Alike S) f.directives f'.directives
  selections : List.Forall₂ (Selection.Alike S) f.selections f'.selections

inductive Definition.Alike : Definition → Definition → Prop
  | operation {o o' : Operation} : o.Alike S o' → Alike (.operation o) (.operation o')
  | fragment {f f' : Fragment} : f.Alike S f' → Alike (.fragment f) (.fragment f')
  | directive {d d' : DirectiveDefinition} : d.Alike S d' → Alike (.directive d) (.directive d')
  | schema {s s' : SchemaDefinition} : s.Alike S s' → Alike (.schema s) (.schema s')
  | type {t t' : TypeDefinition} : t.Alike S t' → Alike (.type t) (.type t')
  | extendSchema {s s' : SchemaDefinition} : s.Alike S s' → Alike (.extendSchema s) (.extendSchema s')
  | extendType {t t' : TypeDefinition} : t.Alike S t' → Alike (.extendType t) (.extendType t')

/-- Documents that differ in their strings. -/
abbrev Document.Alike : Document → Document → Prop := List.Forall₂ (Definition.Alike S)

end Structures

variable {S : Text → Text → Prop}

/-! ## The outline -/

theorem Definition.Alike.ofDefinition_eq {d d' : Definition} (h : d.Alike S d') :
    DefinitionNode.ofDefinition d = DefinitionNode.ofDefinition d' := by
  cases h with
  | operation h => simp only [DefinitionNode.ofDefinition, h.type, h.name]
  | fragment h => simp only [DefinitionNode.ofDefinition, h.name]
  | directive h => simp only [DefinitionNode.ofDefinition, h.name]
  | schema h => rfl
  | type h => simp only [DefinitionNode.ofDefinition, h.name]
  | extendSchema h => rfl
  | extendType h => simp only [DefinitionNode.ofDefinition, h.name]

theorem Document.Alike.map_ofDefinition {d d' : Document} (h : Document.Alike S d d') :
    d.map DefinitionNode.ofDefinition = d'.map DefinitionNode.ofDefinition := by
  induction h with
  | nil => rfl
  | cons hd _ ih => rw [List.map_cons, List.map_cons, hd.ofDefinition_eq, ih]

/-! ## Strings that are the same -/

theorem eq_of_forall₂ {α : Type} {R : α → α → Prop} (hR : ∀ {a a'}, R a a' → a = a') {l l' : List α}
    (h : List.Forall₂ R l l') : l = l' := by
  have heq := h.imp fun _ _ => hR
  rwa [List.forall₂_eq_eq_eq] at heq

theorem eq_of_rel {α : Type} {R : α → α → Prop} (hR : ∀ {a a'}, R a a' → a = a') {o o' : Option α}
    (h : Option.Rel R o o') : o = o' := by
  cases h with
  | some ha => rw [hR ha]
  | none => rfl

theorem Named.eq {α : Type} {R : α → α → Prop} (hR : ∀ {a a'}, R a a' → a = a') {p p' : Name × α}
    (h : Named R p p') : p = p' := by
  cases h with
  | mk _ ha => rw [hR ha]

section Same
variable (hS : ∀ {t t'}, S t t' → t = t')
include hS

/-- By induction on the relation; the other motives are for the items and fields inside. -/
theorem Value.Alike.eq {v v' : Value} (h : v.Alike S v') : v = v' :=
  @Value.Alike.rec S (fun v v' _ => v = v') (fun items items' _ => items = items')
    (fun fields fields' _ => fields = fields') (fun f f' _ => f = f')
    (fun _ => rfl) (fun _ => rfl) (fun _ => rfl) (fun ht => congrArg Value.string (hS ht)) (fun _ => rfl) rfl
    (fun _ => rfl) (fun _ => congrArg Value.list) (fun _ => congrArg Value.object)
    rfl (fun _ _ => congrArg₂ List.cons) rfl (fun _ _ => congrArg₂ List.cons)
    (fun name _ _ _ => congrArg (Prod.mk name)) v v' h

theorem Arguments.Alike.eq {args args' : Arguments} (h : Arguments.Alike S args args') : args = args' :=
  eq_of_forall₂ (Named.eq (Value.Alike.eq hS)) h

theorem Directive.Alike.eq {d d' : Directive} (h : d.Alike S d') : d = d' := by
  cases d
  cases d'
  simp only [Directive.mk.injEq]
  exact ⟨h.name, Arguments.Alike.eq hS h.arguments⟩

theorem eq_of_directives {ds ds' : List Directive} (h : List.Forall₂ (Directive.Alike S) ds ds') : ds = ds' :=
  eq_of_forall₂ (Directive.Alike.eq hS) h

theorem VariableDefinition.Alike.eq {v v' : VariableDefinition} (h : v.Alike S v') : v = v' := by
  cases v
  cases v'
  simp only [VariableDefinition.mk.injEq]
  exact ⟨h.name, h.type, eq_of_rel (Value.Alike.eq hS) h.default, eq_of_directives hS h.directives⟩

theorem Selection.Alike.eq {s s' : Selection} (h : s.Alike S s') : s = s' :=
  @Selection.Alike.rec S (fun s s' _ => s = s') (fun set set' _ => set = set')
    (fun responseName name _ _ _ _ _ _ hargs hds _ hset => by
      rw [Arguments.Alike.eq hS hargs, eq_of_directives hS hds, hset])
    (fun name _ _ hds => by rw [eq_of_directives hS hds])
    (fun condition _ _ _ _ hds _ hset => by rw [eq_of_directives hS hds, hset])
    rfl (fun _ _ => congrArg₂ List.cons) s s' h

theorem InputValue.Alike.eq {v v' : InputValue} (h : v.Alike S v') : v = v' := by
  cases v
  cases v'
  simp only [InputValue.mk.injEq]
  exact ⟨eq_of_rel hS h.description, h.name, h.type, eq_of_rel (Value.Alike.eq hS) h.default,
    eq_of_directives hS h.directives⟩

theorem FieldDefinition.Alike.eq {f f' : FieldDefinition} (h : f.Alike S f') : f = f' := by
  cases f
  cases f'
  simp only [FieldDefinition.mk.injEq]
  exact ⟨eq_of_rel hS h.description, h.name, eq_of_forall₂ (InputValue.Alike.eq hS) h.arguments, h.type,
    eq_of_directives hS h.directives⟩

theorem EnumValue.Alike.eq {v v' : EnumValue} (h : v.Alike S v') : v = v' := by
  cases v
  cases v'
  simp only [EnumValue.mk.injEq]
  exact ⟨eq_of_rel hS h.description, h.name, eq_of_directives hS h.directives⟩

theorem Operation.Alike.eq {o o' : Operation} (h : o.Alike S o') : o = o' := by
  cases o
  cases o'
  simp only [Operation.mk.injEq]
  exact ⟨h.type, h.name, eq_of_forall₂ (VariableDefinition.Alike.eq hS) h.parameters,
    eq_of_directives hS h.directives, eq_of_forall₂ (Selection.Alike.eq hS) h.selections⟩

theorem TypeBody.Alike.eq {b b' : TypeBody} (h : b.Alike S b') : b = b' := by
  cases h with
  | scalar => rfl
  | object _ h => rw [eq_of_forall₂ (FieldDefinition.Alike.eq hS) h]
  | interface _ h => rw [eq_of_forall₂ (FieldDefinition.Alike.eq hS) h]
  | union => rfl
  | enum h => rw [eq_of_forall₂ (EnumValue.Alike.eq hS) h]
  | input h => rw [eq_of_forall₂ (InputValue.Alike.eq hS) h]

theorem TypeDefinition.Alike.eq {t t' : TypeDefinition} (h : t.Alike S t') : t = t' := by
  cases t
  cases t'
  simp only [TypeDefinition.mk.injEq]
  exact ⟨eq_of_rel hS h.description, h.name, eq_of_directives hS h.directives, h.body.eq hS⟩

theorem SchemaDefinition.Alike.eq {s s' : SchemaDefinition} (h : s.Alike S s') : s = s' := by
  cases s
  cases s'
  simp only [SchemaDefinition.mk.injEq]
  exact ⟨eq_of_rel hS h.description, eq_of_directives hS h.directives, h.roots⟩

theorem DirectiveDefinition.Alike.eq {d d' : DirectiveDefinition} (h : d.Alike S d') : d = d' := by
  cases d
  cases d'
  simp only [DirectiveDefinition.mk.injEq]
  exact ⟨eq_of_rel hS h.description, h.name, eq_of_forall₂ (InputValue.Alike.eq hS) h.arguments, h.repeatable,
    h.locations⟩

theorem Fragment.Alike.eq {f f' : Fragment} (h : f.Alike S f') : f = f' := by
  cases f
  cases f'
  simp only [Fragment.mk.injEq]
  exact ⟨h.name, h.condition, eq_of_directives hS h.directives, eq_of_forall₂ (Selection.Alike.eq hS) h.selections⟩

theorem Definition.Alike.eq {d d' : Definition} (h : d.Alike S d') : d = d' := by
  cases h with
  | operation h => rw [h.eq hS]
  | fragment h => rw [h.eq hS]
  | directive h => rw [h.eq hS]
  | schema h => rw [h.eq hS]
  | type h => rw [h.eq hS]
  | extendSchema h => rw [h.eq hS]
  | extendType h => rw [h.eq hS]

theorem Document.Alike.eq {d d' : Document} (h : Document.Alike S d d') : d = d' :=
  eq_of_forall₂ (Definition.Alike.eq hS) h

end Same

end GraphqlBuild.Graphql
