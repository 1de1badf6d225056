import GraphqlBuild.Config.Options
import GraphqlBuild.EsModule
import GraphqlBuild.Graphql.Validate
/-!
# The build pipeline

What a build does with one source: a GraphQL file becomes a module, unless its text has a syntax error and
validation is on (`Pipeline.transformFile`); in a host module the interiors of tagged literals are normalized
and nothing else is touched (`Pipeline.transformLiterals`); everything else is left alone
(`Pipeline.transform`).

| here | in the program |
| --- | --- |
| `Output`, `FileError` | `TransformOutput`, `TransformError::Parse` |
| `Pipeline.build`, `route` | `Pipeline::new`, `Pipeline::route` |
| `normalizeFile`, `transformFile` | `normalize_file`, `transform_file` |
| `extractLiterals`, `normalizeLiteral` | `extract_literals`, `normalize_literal` |
| `replacement?`, `transformLiterals` | one round over the literals in `transform_literals`, `transform_literals` |
| `transform` | `Pipeline::transform` |
-/

namespace GraphqlBuild

/-- The code that takes a source's place. -/
structure Output where
  code : Text
  /-- The source map; none is ever made. -/
  map : Option Text := none
deriving DecidableEq, Repr

/-- A GraphQL file with a syntax error. -/
structure FileError where
  id : Path
  error : Graphql.SyntaxError
deriving DecidableEq, Repr

/-- The wording of the error. -/
def FileError.message (e : FileError) : Text :=
  "GraphQL parsing error in file " ++ e.id ++ ": " ++ e.error.display

/-- Valid options and the style of the modules to emit. -/
structure Pipeline where
  options : Options
  style : EmitStyle := .parse

namespace Pipeline

/-- The pipeline for these options. Its scanner needs a tag to look for; the pattern made of the tags is assumed to
compile (`ExtractError`). -/
def build (options : Options) : Except ExtractError Pipeline :=
  if options.tags.isEmpty then .error .noTags else .ok { options }

/-- How the source called `id` is handled, if at all. -/
def route (p : Pipeline) (id : Path) : Option SourceMode := SourceMode.route id p.options.extensions

/-! ## GraphQL files -/

/-- The normalized text of a GraphQL file. -/
def normalizeFile (p : Pipeline) (code : Text) : Text :=
  p.options.normalization.apply (wholeFile (unixLines code)).source

/-- The module that takes a GraphQL file's place. -/
def transformFile (p : Pipeline) (code : Text) (id : Path) : Except FileError Output := do
  let text := p.normalizeFile code
  if p.options.validate then (Graphql.validate text).mapError (FileError.mk id)
  return { code := EsModule.emit text p.style }

/-! ## Host modules -/

/-- The tagged literals of a host module. -/
def extractLiterals (p : Pipeline) (code : Text) : List EmbeddedText := taggedLiterals p.options.tags code

/-- The interior of a literal, normalized and on one line. -/
def normalizeLiteral (p : Pipeline) (text : Text) : Text := (p.options.normalization.apply text).collapse

/-- The new interior of a literal; one that would become empty stays as it is. -/
def replacement? (p : Pipeline) (e : EmbeddedText) : Option (EmbeddedText × Text) :=
  let text := p.normalizeLiteral e.source
  if text.isEmpty then none else some (e, text)

/-- The host module with its literals normalized; `none` if it has no tagged literal. -/
def transformLiterals (p : Pipeline) (code : Text) : Option Output :=
  match p.extractLiterals code with
  | [] => none
  | found => some { code := spliceLiterals code (found.filterMap p.replacement?) }

/-! ## Any source -/

/-- What takes the place of the source called `id`; `none` if it stays as it is. -/
def transform (p : Pipeline) (code : Text) (id : Path) : Except FileError (Option Output) :=
  match p.route id with
  | some .wholeFile => (p.transformFile code id).map some
  | some .embeddedLiteral => .ok (p.transformLiterals code)
  | none => .ok none

end Pipeline

end GraphqlBuild
