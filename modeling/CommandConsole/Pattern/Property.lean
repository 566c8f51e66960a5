import CommandConsole.Pattern.Fault
import CommandConsole.Text.Age
import CommandConsole.Text.Segment

/-!
# CommandConsole.Pattern.Property — characters that a pattern asks for by their properties

A pattern may name a property, a general category or a script, or a property and a value of it. How
such a name is spelled matters little.

* `propertySet`: the characters that a text asks for.
-/

namespace CommandConsole.Pattern

open Text

/-- A name as it is looked up: in small letters, without blanks, dashes and underscores, and without
characters that are not ASCII. A leading `is` is left out, unless it would leave a single c. -/
def looseName (name : List Char) : String :=
  let loose (cs : List Char) :=
    (cs.filter fun c => c.toNat < 128 && c ≠ ' ' && c ≠ '-' && c ≠ '_').map Char.toLower
  match name with
  | i :: s :: rest =>
    if i.toLower = 'i' ∧ s.toLower = 's' then
      if loose rest = ['c'] then "isc" else String.ofList (loose rest)
    else String.ofList (loose name)
  | _ => String.ofList (loose name)

/-- The characters with a property, of a general category or of a script. -/
def withProperty (name : String) : Except PatternFault CharSet :=
  match (Property.find? name).or ((Category.find? name).or (script? name)) with
  | some s => .ok s
  | none => .error .unknownProperty

/-- The sets of characters that the values of a property make. -/
def valuesOf? : String → Option (String → Option CharSet)
  | "gc" | "generalcategory" => some Category.find?
  | "sc" | "script" => some script?
  | "scx" | "scriptextensions" => some scriptExtensions?
  | "age" => some age?
  | "gcb" | "graphemeclusterbreak" => some clusterBreak?
  | "wb" | "wordbreak" => some wordBreak?
  | "sb" | "sentencebreak" => some sentenceBreak?
  | _ => none

/-- The characters with a value of a property. -/
def withValue (property value : String) : Except PatternFault CharSet :=
  match valuesOf? property with
  | none => .error .unknownProperty
  | some find? =>
    match find? value with
    | none => .error .unknownValue
    | some s => .ok s

/-- What stands in front of a sign and behind it, where the sign comes first. -/
def cutAt? (sign : List Char) : List Char → Option (List Char × List Char)
  | [] => none
  | c :: cs =>
    if sign.isPrefixOf (c :: cs) then some ([], (c :: cs).drop sign.length)
    else (cutAt? sign cs).map fun (front, behind) => (c :: front, behind)

/-- The characters that a text asks for, and whether it asks for all others. -/
def propertySet (text : List Char) : Except PatternFault (CharSet × Bool) :=
  match cutAt? ['!', '='] text with
  | some (name, value) => (·, true) <$> withValue (looseName name) (looseName value)
  | none =>
    (·, false) <$> match (cutAt? [':'] text).or (cutAt? ['='] text) with
    | some (name, value) => withValue (looseName name) (looseName value)
    | none => withProperty (looseName text)

end CommandConsole.Pattern
