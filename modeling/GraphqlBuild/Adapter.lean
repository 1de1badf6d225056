import GraphqlBuild.Pipeline
/-!
# Adapters for build tools

A bundler calls the pipeline through hooks (`HookPlugin`) or through loaders, one for host modules
(`LiteralLoader`) and one for GraphQL files (`FileLoader`). A loader always answers with a source: where the
pipeline has nothing to do it gives its input back.

| here | in the program |
| --- | --- |
| `HookPlugin`, its `build` | `VitePlugin`, `VitePlugin::new` |
| `HookPlugin.resolve`, `load`, `transform` | its hooks `resolve_id`, `load`, `transform` |
| `LiteralLoader.run` | `WebpackLoader::run` |
| `FileLoader.accepts`, `FileLoader.run` | `GraphQLFileLoader::matches`, `GraphQLFileLoader::run` |
-/

namespace GraphqlBuild

/-- A plugin whose hooks resolve, load and transform sources. -/
structure HookPlugin where
  pipeline : Pipeline

namespace HookPlugin

/-- The plugin for these options. -/
def ofOptions (options : Options) : HookPlugin := ⟨{ options }⟩

/-- The plugin for these options, if there is a pipeline for them. -/
def build (options : Options) : Except ExtractError HookPlugin := (Pipeline.build options).map HookPlugin.mk

/-- The name that the build tool reports. -/
def name : Text := "graphql"

/-- Takes the GraphQL files and leaves other identities to the build tool. -/
def resolve (plugin : HookPlugin) (id : Path) : Option Path :=
  if plugin.pipeline.route id = some .wholeFile then some id else none

/-- The build tool reads every file itself. -/
def load (_ : HookPlugin) (_ : Path) : Option Text := none

/-- What takes the place of a source; `none` if it stays as it is. -/
def transform (plugin : HookPlugin) (code : Text) (id : Path) : Except FileError (Option Output) :=
  plugin.pipeline.transform code id

end HookPlugin

/-- A loader for host modules. -/
structure LiteralLoader where
  pipeline : Pipeline

/-- The module with its literals normalized. -/
def LiteralLoader.run (loader : LiteralLoader) (source : Text) : Text :=
  (loader.pipeline.transformLiterals source).elim source Output.code

/-- A loader for GraphQL files. -/
structure FileLoader where
  pipeline : Pipeline

namespace FileLoader

/-- The loader is meant for the file. -/
def accepts (loader : FileLoader) (id : Path) : Bool := loader.pipeline.route id == some .wholeFile

/-- The module that takes the file's place. -/
def run (loader : FileLoader) (source : Text) (id : Path) : Except FileError Text :=
  (loader.pipeline.transformFile source id).map Output.code

end FileLoader

end GraphqlBuild
