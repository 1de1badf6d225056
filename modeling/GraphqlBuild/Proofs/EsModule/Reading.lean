import GraphqlBuild.EsModule
import GraphqlBuild.Proofs.EsModule.StringLiteral
import GraphqlBuild.Proofs.Text.Cut
/-!
# Reading emitted modules

A module is made of fixed parts with a string literal between each two. `literals?` reads the values of these
literals, and no text that the module carries can make it read something else (`literals?_emitted`).
-/

namespace GraphqlBuild

theorem QueryType.name_injective : Function.Injective QueryType.name := by
  intro a b h
  cases a <;> cases b <;> first | rfl | exact absurd h (by decide)

namespace EsModule

/-- The values of the string literals of a text that is made of the parts, with a literal between each two. -/
def literals? : List Text → Text → Option (List (List UInt16))
  | [], _ => none
  | [part], t => if t = part then some [] else none
  | part :: next :: parts, t => do
    let t ← Text.after? part t
    let (value, t) ← stringLiteral? t
    let values ← literals? (next :: parts) t
    return value :: values

/-- The fixed parts of a module. -/
def parts : EmitStyle → List Text
  | .parse => [parseOpening, ");" ++ exports]
  | .pending =>
    [pendingOpening ++ propertyOpening "__raw", propertyClosing ++ "\n" ++ propertyOpening "__queryType",
      propertyClosing ++ "\n" ++ propertyOpening "toString" ++ "() => ", propertyClosing ++ exports]

theorem literals?_quoted (part next : Text) (parts : List Text) (t rest : Text) :
    literals? (part :: next :: parts) (part ++ (Json.quoted t ++ rest)) =
      (literals? (next :: parts) rest).map (t.units :: ·) := by
  have hafter : Text.after? part (part ++ (Json.quoted t ++ rest)) = some (Json.quoted t ++ rest) :=
    Text.after?_eq_some_iff.2 rfl
  simp only [literals?, hafter, stringLiteral?_quoted, Option.bind_eq_bind, Option.bind_some]
  cases literals? (next :: parts) rest <;> rfl

theorem literals?_ofText (t : Text) : literals? (parts .parse) (ofText t) = some [t.units] := by
  have hmodule : ofText t = parseOpening ++ (Json.quoted t ++ (");" ++ exports)) := by
    simp only [ofText, List.append_assoc]
  rw [hmodule, parts, literals?_quoted, literals?, if_pos rfl]
  rfl

theorem literals?_ofPending (d : PendingDocument) :
    literals? (parts .pending) (ofPending d) = some [d.render.units, d.queryType.name.units, d.render.units] := by
  have hmodule : ofPending d = pendingOpening ++ propertyOpening "__raw" ++ (Json.quoted d.render ++
      (propertyClosing ++ "\n" ++ propertyOpening "__queryType" ++ (Json.quoted d.queryType.name ++
        (propertyClosing ++ "\n" ++ propertyOpening "toString" ++ "() => " ++ (Json.quoted d.render ++
          (propertyClosing ++ exports)))))) := by
    simp only [ofPending, property, List.append_assoc]
  rw [hmodule, parts, literals?_quoted, literals?_quoted, literals?_quoted, literals?, if_pos rfl]
  rfl

/-- **No text breaks out of its literal**: a module reads back as the fixed parts around the values of what it
carries, so two modules are the same only if they carry the same. -/
theorem literals?_emitted :
    (∀ t : Text, literals? (parts .parse) (ofText t) = some [t.units]) ∧
      (∀ d : PendingDocument, literals? (parts .pending) (ofPending d) =
        some [d.render.units, d.queryType.name.units, d.render.units]) ∧
      Function.Injective ofText ∧ Function.Injective ofPending := by
  refine ⟨literals?_ofText, literals?_ofPending, fun t t' h => ?_, fun d d' h => ?_⟩
  · have hread := literals?_ofText t
    rw [h, literals?_ofText, Option.some.injEq, List.cons.injEq] at hread
    exact Text.units_injective hread.1.symm
  · have hread := literals?_ofPending d
    rw [h, literals?_ofPending] at hread
    simp only [Option.some.injEq, List.cons.injEq, and_true] at hread
    obtain ⟨htext, htype, -⟩ := hread
    obtain ⟨text, type⟩ := d
    obtain ⟨text', type'⟩ := d'
    obtain rfl : text' = text := Text.units_injective htext
    obtain rfl : type' = type := QueryType.name_injective (Text.units_injective htype)
    rfl

end EsModule

end GraphqlBuild
