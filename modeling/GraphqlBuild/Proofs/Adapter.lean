import GraphqlBuild.Adapter
import GraphqlBuild.Proofs.Pipeline.ErrorPlace
import GraphqlBuild.Proofs.Pipeline.Literals
/-!
# Adapters of one pipeline

The hooks and the two loaders, made from one pipeline, agree on every source (`adapters_agree`): the plugin resolves
the identities that the file loader accepts and makes the same of them, and what it does to the others is what the
literal loader does to host modules.
-/

namespace GraphqlBuild

open Graphql

namespace HookPlugin
variable (plugin : HookPlugin) (code : Text) {id : Path}

theorem resolve_eq_some_iff : plugin.resolve id = some id ↔ plugin.pipeline.route id = some .wholeFile := by
  unfold resolve
  by_cases hroute : plugin.pipeline.route id = some .wholeFile <;> simp [hroute]

theorem resolve_eq_none_iff : plugin.resolve id = none ↔ plugin.pipeline.route id ≠ some .wholeFile := by
  unfold resolve
  by_cases hroute : plugin.pipeline.route id = some .wholeFile <;> simp [hroute]

theorem transform_of_resolve (h : plugin.resolve id = some id) :
    plugin.transform code id = (plugin.pipeline.transformFile code id).map some := by
  rw [resolve_eq_some_iff] at h
  rw [transform, Pipeline.transform, h]

/-- Nothing can go wrong where the plugin resolves nothing. -/
theorem transform_of_resolve_eq_none (h : plugin.resolve id = none) :
    plugin.transform code id = .ok
      (if plugin.pipeline.route id = some .embeddedLiteral then plugin.pipeline.transformLiterals code else none) := by
  rw [resolve_eq_none_iff] at h
  rw [transform, Pipeline.transform]
  cases hroute : plugin.pipeline.route id with
  | none => rfl
  | some mode =>
    cases mode with
    | wholeFile => exact absurd hroute h
    | embeddedLiteral => rfl

end HookPlugin

theorem LiteralLoader.run_eq_getD (loader : LiteralLoader) (code : Text) :
    loader.run code = ((loader.pipeline.transformLiterals code).map Output.code).getD code := by
  unfold run
  cases loader.pipeline.transformLiterals code <;> rfl

theorem FileLoader.accepts_iff (loader : FileLoader) (id : Path) :
    loader.accepts id = true ↔ loader.pipeline.route id = some .wholeFile := beq_iff_eq

/-- **The adapters agree.** An identity that the plugin resolves is transformed into what the file loader makes of it,
a module or an error; with any other nothing fails, and the plugin changes a host module with literals only, just as the
literal loader does. -/
theorem adapters_agree (p : Pipeline) (code : Text) (id : Path) :
    let plugin : HookPlugin := ⟨p⟩
    let files : FileLoader := ⟨p⟩
    let literals : LiteralLoader := ⟨p⟩
    ((plugin.resolve id = some id ↔ files.accepts id = true) ∧
      (files.accepts id = true ↔ p.route id = some .wholeFile) ∧
      (p.route id ≠ some .wholeFile → plugin.resolve id = none)) ∧
    (plugin.resolve id = some id → plugin.transform code id ≠ .ok none ∧
      (plugin.transform code id).map (Option.map Output.code) = (files.run code id).map some) ∧
    (plugin.resolve id = none → ∃ out?, plugin.transform code id = .ok out? ∧
      (out? ≠ none ↔ p.route id = some .embeddedLiteral ∧ p.extractLiterals code ≠ []) ∧
      (p.route id = some .embeddedLiteral → (out?.map Output.code).getD code = literals.run code)) := by
  intro plugin files literals
  refine ⟨⟨?_, files.accepts_iff id, plugin.resolve_eq_none_iff.2⟩, fun hresolve => ?_, fun hresolve => ?_⟩
  · rw [files.accepts_iff, plugin.resolve_eq_some_iff]
  · rw [plugin.transform_of_resolve code hresolve, FileLoader.run]
    cases p.transformFile code id with
    | error e => simp [Except.map]
    | ok out => simp [Except.map]
  · refine ⟨_, plugin.transform_of_resolve_eq_none code hresolve, ?_, fun hroute => ?_⟩
    · rw [ne_eq (p.extractLiterals code), ← p.transformLiterals_eq_none_iff code]
      by_cases hroute : p.route id = some .embeddedLiteral <;> simp [plugin, hroute]
    · rw [if_pos hroute, literals.run_eq_getD]

/-- A GraphQL file whose error both report, and a host module that both rewrite: its literal loses a comment and a line
feed. -/
theorem adapters_agree_default :
    let p : Pipeline := { options := Options.default }
    let plugin : HookPlugin := ⟨p⟩
    let files : FileLoader := ⟨p⟩
    let literals : LiteralLoader := ⟨p⟩
    let file : Path := "q.graphql"
    let e : FileError := ⟨file, ⟨.grammatical .noSelection, 1, 1, 2⟩⟩
    let host : Text := "f(gql\x60\x7b a # c\n b \x7d\x60)"
    (plugin.resolve file = some file ∧ files.run "\x7b" file = .error e ∧ plugin.transform "\x7b" file = .error e) ∧
    plugin.resolve "a.ts" = none ∧ literals.run host = ("f(gql\x60\x7b a b \x7d\x60)" : Text) ∧
      ∃ out, plugin.transform host "a.ts" = .ok (some out) ∧ out.code = literals.run host := by
  intro p plugin files literals file e host
  have hresolve : plugin.resolve file = some file := by decide
  have hleave : plugin.resolve "a.ts" = none := by decide
  have herror : p.transformFile "\x7b" file = .error e :=
    Pipeline.transformFile_of_error _ rfl (by decide) (validate_of_head? (t := "\x7b") (by decide))
  have hrun : files.run "\x7b" file = .error e := by
    rw [FileLoader.run, herror]
    rfl
  have hfails : plugin.transform "\x7b" file = .error e := by
    obtain ⟨-, hclaimed, -⟩ := adapters_agree p "\x7b" file
    have hmap : (plugin.transform "\x7b" file).map (Option.map Output.code) = (files.run "\x7b" file).map some :=
      (hclaimed hresolve).2
    rw [hrun] at hmap
    cases hout : plugin.transform "\x7b" file with
    | error e' =>
      rw [hout] at hmap
      cases hmap
      rfl
    | ok out? =>
      rw [hout] at hmap
      cases hmap
  obtain ⟨-, -, hleft⟩ := adapters_agree p host "a.ts"
  obtain ⟨out?, hout, hchanged, hcode⟩ := hleft hleave
  obtain ⟨out, rfl⟩ := Option.ne_none_iff_exists'.1 (hchanged.2 (by decide))
  exact ⟨⟨hresolve, hrun, hfails⟩, hleave, by decide, out, hout, hcode (by decide)⟩

end GraphqlBuild
