import GraphqlBuild.Config.TagConfig
import GraphqlBuild.Json.Reader
/-!
# Configurations in JSON

A configuration is an object whose keys are fields, each at most once, or a list of the six values in
order. `null` leaves a field unset.

`TagConfig.ofJson` is `parse_json`, with what is derived for `TagConfig` to read its fields.
-/

namespace GraphqlBuild.TagConfig

open Json

/-- How messages name the record. -/
def kindName : Text := "struct TagConfig"

/-- Reads the value of a field into the record. -/
def readField (field : Field) (config : TagConfig) : Reader TagConfig := fun c =>
  match field with
  | .stripComments => (readOptional readBool c).map fun r => ({ config with stripComments := r.1 }, r.2)
  | .includeLocation =>
    (readOptional readBool c).map fun r => ({ config with includeLocation := r.1 }, r.2)
  | .validate => (readOptional readBool c).map fun r => ({ config with validate := r.1 }, r.2)
  | .transform => (readOptional readText c).map fun r => ({ config with transform := r.1 }, r.2)
  | .tags => (readOptional readTexts c).map fun r => ({ config with tags := r.1 }, r.2)
  | .extensions => (readOptional readTexts c).map fun r => ({ config with extensions := r.1 }, r.2)

/-- At most `n` members of an object whose opening brace is read. `seen` are the fields read so far. -/
def readMembers : Nat → Bool → List Field → TagConfig → Reader TagConfig
  | 0, _, _, config, c => .ok (config, c)
  | n + 1, first, seen, config, c => do
    let (more, c) ← moreMembers first c
    if more then
      let (key, c) ← readString c.next
      match Field.ofName? key with
      | none => wholeFault '}' (.unknownField key (Field.all.map Field.name)) c
      | some field =>
        if field ∈ seen then wholeFault '}' (.duplicateField key) c
        else
          let ((), c) ← readColon c
          let (config, c) ← readField field config c
          readMembers n false (field :: seen) config c
    else return (config, c.next)

/-- The fields of a list whose opening bracket is read; `count` of them came before. -/
def readListed : List Field → Nat → TagConfig → Reader TagConfig
  | [], _, config, c => do
    let ((), c) ← readListEnd c
    return (config, c)
  | field :: fields, count, config, c => do
    let (more, c) ← moreElements (count == 0) c
    if more then
      let (config, c) ← readField field config c
      readListed fields (count + 1) config c
    else wholeFault ']' (.wrongLength count (kindName ++ " with 6 elements")) c

/-- The record at the front of the text. -/
def read : Reader TagConfig := fun c =>
  atValue c fun d here =>
    if d = '{' then readMembers (here.rest.length + 1) true [] {} here.next
    else if d = '[' then readListed Field.all 0 {} here.next
    else refuse kindName here

/-- The record that a JSON text holds, or the wording of the first fault. -/
def ofJson (source : Text) : Except Text TagConfig :=
  let result : Except Fault TagConfig := do
    let (config, c) ← read ⟨source, 0⟩
    let ((), _) ← readEnd c
    return config
  result.mapError (Fault.message source)

end GraphqlBuild.TagConfig
