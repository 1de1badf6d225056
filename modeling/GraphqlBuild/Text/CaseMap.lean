import GraphqlBuild.Text.CaseData
/-!
# Upper and lower case

The full case mapping of Unicode without a locale: some characters become a sequence, and a capital sigma
becomes a final one where it ends a word.

`upper` and `lower` are the presets `Uppercase` and `Lowercase` of `TransformPreset::apply`.
-/

namespace GraphqlBuild

/-- The sequence listed for the code point, or else the character that a run maps it to, or else itself. -/
def mapCase (runs : List CaseRun) (sequences : List (Nat × List Nat)) (c : Char) : Text :=
  match sequences.lookup c.toNat with
  | some codes => codes.map Char.ofNat
  | none => [(runs.findSome? fun run => run.map? c.toNat).getD c]

/-- The character has the property Cased. -/
def isCased (c : Char) : Bool := CodeRange.cover casedRanges c

/-- The character has the property Case_Ignorable. -/
def isCaseIgnorable (c : Char) : Bool := CodeRange.cover caseIgnorableRanges c

/-- The first character that is not ignorable is cased. -/
def meetsCased (t : Text) : Bool := ((t.dropWhile isCaseIgnorable).head?.map isCased).getD false

namespace Text

/-- The text in upper case. -/
def upper (t : Text) : Text := t.flatMap (mapCase upperRuns upperSequences)

/-- The text in lower case, given what stands before it, last character first. A capital sigma that
follows a cased character and is not followed by one is final. -/
def lowerAfter (before : Text) : Text → Text
  | [] => []
  | c :: t =>
    let mapped :=
      if c = 'Σ' then (if meetsCased before && !meetsCased t then ['ς'] else ['σ'])
      else mapCase lowerRuns lowerSequences c
    mapped ++ lowerAfter (c :: before) t

/-- The text in lower case. -/
def lower (t : Text) : Text := lowerAfter [] t

end Text

end GraphqlBuild
