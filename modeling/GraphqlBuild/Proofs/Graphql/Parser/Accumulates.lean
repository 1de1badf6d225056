import GraphqlBuild.Graphql.Parser.Document
import Mathlib.Tactic.SplitIfs
/-!
# Complaints add up

No parser takes a complaint back (`Accumulates`), so a document without complaints is made of definitions without
complaints. The property is closed under sequence and choice, and a parser has it by its parts: there is one instance
for each parser, with an induction where parsers nest or go round.
-/

namespace GraphqlBuild.Graphql.Parser

variable {α β : Type}

/-- The parser takes no complaint back. -/
class Accumulates (p : Parser α) : Prop where
  suffix (s : Parse) : s.complaints <:+ (p.run s).2.complaints

/-! ## Monadic structure -/

instance (a : α) : Accumulates (pure a) := ⟨fun _ => List.suffix_refl _⟩

theorem Accumulates.bind {p : Parser α} {f : α → Parser β} [hp : Accumulates p] (hf : ∀ a, Accumulates (f a)) :
    Accumulates (p >>= f) :=
  ⟨fun s => (hp.suffix s).trans ((hf _).suffix _)⟩

instance (p : Parser α) (f : α → Parser β) [Accumulates p] [hf : ∀ a, Accumulates (f a)] : Accumulates (p >>= f) :=
  .bind hf

instance (p : Parser α) (f : α → β) [hp : Accumulates p] : Accumulates (f <$> p) := ⟨hp.suffix⟩

instance (c : Prop) [Decidable c] (p q : Parser α) [hp : Accumulates p] [hq : Accumulates q] :
    Accumulates (if c then p else q) := by
  split
  · exact hp
  · exact hq

/-- What follows is told apart by whether there is a result. -/
theorem Accumulates.bindOption {p : Parser (Option α)} {f : Option α → Parser β} [Accumulates p]
    (hsome : ∀ a, Accumulates (f (some a))) (hnone : Accumulates (f none)) : Accumulates (p >>= f) := by
  refine .bind fun o => ?_
  cases o with
  | none => exact hnone
  | some a => exact hsome a

/-! ## The word at hand -/

instance : Accumulates (get : Parser Parse) := ⟨fun _ => List.suffix_refl _⟩

instance : Accumulates word := by
  unfold word
  infer_instance

instance (kind : Kind) : Accumulates (isKind kind) := by
  unfold isKind
  infer_instance

instance (c : Char) : Accumulates (isMark c) := inferInstanceAs (Accumulates (isKind (.mark c)))

instance : Accumulates isName := inferInstanceAs (Accumulates (isKind .name))

instance (t : Text) : Accumulates (isText t) := by
  unfold isText
  infer_instance

instance (c : Char) : Accumulates (isNameOr c) := by
  unfold isNameOr
  infer_instance

instance : Accumulates isNameOrString := by
  unfold isNameOrString
  infer_instance

instance : Accumulates second := by
  refine ⟨fun ⟨words, complaints, silent⟩ => ?_⟩
  cases words with
  | nil => exact List.suffix_refl _
  | cons w rest =>
    have hchoice : Accumulates (if w.comma then return some (.comma, [',']) else
        return rest.head?.map fun n => (n.kind, n.text) : Parser (Option (Kind × Text))) := inferInstance
    exact hchoice.suffix ⟨w :: rest, complaints, silent⟩

instance : Accumulates skip := ⟨fun _ => List.suffix_refl _⟩

/-! ## Complaints -/

instance (offset : Nat) (complaint : Complaint) : Accumulates (complainAt offset complaint) := by
  refine ⟨fun s => ?_⟩
  change s.complaints <:+ (if s.silent then s else _ : Parse).complaints
  split
  · exact List.suffix_refl _
  · exact List.suffix_cons _ _

instance (complaint : Complaint) : Accumulates (complain complaint) := by
  unfold complain
  exact .bindOption inferInstance inferInstance

instance (complaint : Complaint) : Accumulates (reject complaint) := by
  unfold reject
  infer_instance

instance : Accumulates tooDeep := ⟨fun s => Accumulates.suffix (p := complain .tooDeep) s⟩

instance (awaited : Awaited) : Accumulates (await awaited) := by
  unfold await
  exact .bindOption inferInstance inferInstance

/-! ## Choice and repetition -/

section Combinators
variable (test : Parser Bool) (missing : Complaint) (default : α) (item : Parser α) [Accumulates test] [Accumulates item]

instance : Accumulates (whenever test default item) := by
  unfold whenever
  infer_instance

instance : Accumulates (orComplain test missing default item) := by
  unfold orComplain
  infer_instance

instance (n : Nat) : Accumulates (repeatUpTo test item n) := by
  induction n with
  | zero => exact inferInstanceAs (Accumulates (pure []))
  | succ n ih =>
    unfold repeatUpTo
    infer_instance

instance : Accumulates (repeatWhile test item) := by
  unfold repeatWhile
  infer_instance

instance : Accumulates (someWhile test missing item) := by
  unfold someWhile
  infer_instance

omit [Accumulates test] in
instance (c : Char) : Accumulates (separated c item) := by
  unfold separated
  infer_instance

end Combinators

/-! ## Names and values -/

instance (missing : Complaint) : Accumulates (nameOr missing) := by
  unfold nameOr
  exact .bindOption inferInstance inferInstance

instance : Accumulates name := inferInstanceAs (Accumulates (nameOr .noName))

instance : Accumulates name? := by
  unfold name?
  infer_instance

instance : Accumulates description? := by
  unfold description?
  exact .bindOption inferInstance inferInstance

instance : Accumulates variableName := by
  unfold variableName
  infer_instance

instance (take : Bool) (complaint : Complaint) : Accumulates (refuse take complaint) := by
  unfold refuse
  infer_instance

instance : Accumulates (nested (none : Option (Parser α))) := by
  unfold nested
  infer_instance

instance (p : Parser α) [Accumulates p] : Accumulates (nested (some p)) := by
  unfold nested
  infer_instance

section Inner
variable (inner : Option (Parser Value)) [Accumulates (nested inner)]

instance (n : Nat) : Accumulates (listItems inner n) := by
  induction n with
  | zero => exact inferInstanceAs (Accumulates (pure []))
  | succ n ih =>
    unfold listItems
    refine .bind fun closed => ?_
    split
    · infer_instance
    · refine .bind fun w => ?_
      split
      · infer_instance
      · exact .bindOption inferInstance inferInstance

instance : Accumulates (list inner) := by
  unfold list
  infer_instance

instance : Accumulates (member inner) := by
  unfold member
  infer_instance

instance : Accumulates (object inner) := by
  unfold object
  infer_instance

instance (constancy : Constancy) (take : Bool) : Accumulates (valueWith inner constancy take) := by
  unfold valueWith
  refine .bindOption (fun w => ?_) inferInstance
  dsimp only
  split <;> infer_instance

end Inner

instance (constancy : Constancy) (depth : Nat) (take : Bool) : Accumulates (value constancy depth take) := by
  induction depth generalizing take with
  | zero =>
    unfold value
    infer_instance
  | succ depth ih =>
    unfold value
    infer_instance

instance (constancy : Constancy) (depth : Nat) : Accumulates (arguments constancy depth) := by
  unfold arguments
  infer_instance

instance (constancy : Constancy) (depth : Nat) : Accumulates (arguments? constancy depth) := by
  unfold arguments?
  infer_instance

instance (constancy : Constancy) (depth : Nat) : Accumulates (directive constancy depth) := by
  unfold directive
  infer_instance

instance (constancy : Constancy) (depth : Nat) : Accumulates (directives constancy depth) := by
  unfold directives
  infer_instance

/-! ## Types -/

instance (type : TypeRef) : Accumulates (nullability type) := by
  unfold nullability
  infer_instance

instance (wrong : Word) : Accumulates (closeAfter wrong) := by
  unfold closeAfter
  split <;> infer_instance

instance (inner : Option (Parser (Except Word TypeRef))) [Accumulates (nested inner)] :
    Accumulates (typeWith inner) := by
  unfold typeWith
  refine .bindOption (fun w => ?_) inferInstance
  dsimp only
  split
  · refine .bind fun _ => .bindOption (fun item => ?_) inferInstance
    cases item <;> infer_instance
  · infer_instance
  · infer_instance

instance (depth : Nat) : Accumulates (type? depth) := by
  induction depth with
  | zero =>
    unfold type?
    infer_instance
  | succ depth ih =>
    unfold type?
    infer_instance

instance (depth : Nat) : Accumulates (type depth) := by
  unfold type
  refine .bind fun t => ?_
  cases t <;> infer_instance

/-! ## Operations and fragments -/

instance : Accumulates fragmentName := by
  unfold fragmentName
  infer_instance

instance : Accumulates typeCondition := by
  unfold typeCondition
  infer_instance

instance (inner : Option (Parser (List Selection))) [Accumulates (nested inner)] :
    Accumulates (selectionSetWith inner) := by
  unfold selectionSetWith
  exact .bind fun _ => .bindOption inferInstance inferInstance

section Set
variable (depth : Nat) (set : Parser (List Selection)) [Accumulates set]

instance : Accumulates (field depth set) := by
  unfold field
  have hrest (responseName : Option Name) : Accumulates (do
      let n ← name
      let args ← arguments? .free depth
      let dirs ← directives .free depth
      let selections ← whenever (isMark '\x7b') [] set
      return Selection.field responseName n args dirs selections) := inferInstance
  refine .bind fun next => ?_
  dsimp only
  infer_instance

omit [Accumulates set] in
instance : Accumulates (fragmentSpread depth) := by
  unfold fragmentSpread
  infer_instance

instance : Accumulates (inlineFragment depth set) := by
  unfold inlineFragment
  infer_instance

instance : Accumulates (selection depth set) := by
  unfold selection
  refine .bind fun spread => ?_
  split
  · exact .bindOption inferInstance inferInstance
  · infer_instance

instance (n : Nat) : Accumulates (selectionRounds depth set n) := by
  induction n with
  | zero => exact inferInstanceAs (Accumulates (pure ([], false)))
  | succ n ih =>
    unfold selectionRounds
    refine .bind fun round => ?_
    cases round <;> infer_instance

instance : Accumulates (selections depth set) := by
  unfold selections
  infer_instance

end Set

instance (depth : Nat) : Accumulates (selectionSet depth) := by
  induction depth with
  | zero =>
    unfold selectionSet
    infer_instance
  | succ depth ih =>
    unfold selectionSet
    infer_instance

instance : Accumulates operationType := by
  unfold operationType
  infer_instance

instance : Accumulates defaultValue := by
  unfold defaultValue
  infer_instance

instance : Accumulates variableDefinition := by
  unfold variableDefinition
  infer_instance

instance : Accumulates variableDefinitions := by
  unfold variableDefinitions
  infer_instance

instance : Accumulates operation := by
  unfold operation
  infer_instance

instance : Accumulates fragment := by
  unfold fragment
  infer_instance

/-! ## Type system definitions -/

instance : Accumulates constDirectives := inferInstanceAs (Accumulates (directives .constant maxDepth))

instance (missing : Complaint) (default : α) (rest : TypeRef → Parser α) [∀ t, Accumulates (rest t)] :
    Accumulates (typed missing default rest) := by
  unfold typed
  infer_instance

instance : Accumulates inputValue := by
  unfold inputValue
  infer_instance

instance : Accumulates argumentDefinitions := by
  unfold argumentDefinitions
  infer_instance

instance : Accumulates argumentDefinitions? := by
  unfold argumentDefinitions?
  infer_instance

instance : Accumulates fieldDefinition := by
  unfold fieldDefinition
  infer_instance

instance : Accumulates enumValue := by
  unfold enumValue
  infer_instance

instance (missing : Complaint) (item : Parser α) [Accumulates item] : Accumulates (inBraces missing item) := by
  unfold inBraces
  infer_instance

instance : Accumulates fieldDefinitions := inferInstanceAs (Accumulates (inBraces .noField fieldDefinition))

instance : Accumulates enumValues := inferInstanceAs (Accumulates (inBraces .noEnumValueDefinition enumValue))

instance : Accumulates inputFields := inferInstanceAs (Accumulates (inBraces .noInputValue inputValue))

instance : Accumulates implements := by
  unfold implements
  infer_instance

instance : Accumulates members := by
  unfold members
  infer_instance

instance : Accumulates rootOperation := by
  unfold rootOperation
  infer_instance

instance : Accumulates location := by
  unfold location
  exact .bindOption inferInstance inferInstance

instance (t : Text) : Accumulates (keyword t) := by
  unfold keyword
  infer_instance

instance (t : Text) : Accumulates (heading t) := by
  unfold heading
  infer_instance

instance : Accumulates schemaDefinition := by
  unfold schemaDefinition
  infer_instance

instance : Accumulates scalarDefinition := by
  unfold scalarDefinition
  infer_instance

instance : Accumulates objectDefinition := by
  unfold objectDefinition
  infer_instance

instance : Accumulates interfaceDefinition := by
  unfold interfaceDefinition
  infer_instance

instance : Accumulates unionDefinition := by
  unfold unionDefinition
  infer_instance

instance : Accumulates enumDefinition := by
  unfold enumDefinition
  infer_instance

instance : Accumulates inputDefinition := by
  unfold inputDefinition
  infer_instance

instance : Accumulates directiveDefinition := by
  unfold directiveDefinition
  infer_instance

instance : Accumulates schemaExtension := by
  unfold schemaExtension
  infer_instance

instance (missing : Complaint) (interfaces : Parser (List Name)) (present : Parser Bool)
    (body : List Name → Parser TypeBody) [Accumulates interfaces] [Accumulates present]
    [∀ names, Accumulates (body names)] : Accumulates (typeExtension missing interfaces present body) := by
  unfold typeExtension
  infer_instance

instance : Accumulates extension := by
  unfold extension
  refine .bind fun next => ?_
  dsimp only
  split_ifs <;> infer_instance

/-! ## Documents -/

instance (announced : Text) : Accumulates (definitionOf announced) := by
  unfold definitionOf
  infer_instance

instance : Accumulates definition := by
  unfold definition
  exact .bindOption inferInstance inferInstance

instance : Accumulates isOpen := by
  unfold isOpen
  infer_instance

instance : Accumulates document := by
  unfold document
  infer_instance

end GraphqlBuild.Graphql.Parser
