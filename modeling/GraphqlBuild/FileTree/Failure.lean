import GraphqlBuild.Text.Basic
/-!
# Why a file cannot be read

The messages of `read_source`, `load_config` and `check_file` end with `ReadFailure.message`.
-/

namespace GraphqlBuild

/-- Why a path gives no text. -/
inductive ReadFailure
  /-- Nothing is there. -/
  | notFound
  /-- A directory is there. -/
  | isDirectory
  /-- The path goes through something that is no directory. -/
  | notDirectory
  /-- The file's bytes are not UTF-8. -/
  | notText
deriving DecidableEq, Repr

/-- The wording of the failure. -/
def ReadFailure.message : ReadFailure → Text
  | notFound => "No such file or directory (os error 2)"
  | isDirectory => "Is a directory (os error 21)"
  | notDirectory => "Not a directory (os error 20)"
  | notText => "stream did not contain valid UTF-8"

end GraphqlBuild
