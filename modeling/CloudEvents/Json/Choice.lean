/-
  A choice among words, as a document spells it.

  A word that stands for one of a closed set of things is a string literal.  The same choice may also
  be spelled as an object with one member, the word, whose value is `null`.
-/
import CloudEvents.Json.Value

namespace CloudEvents.Json

/-- The word that a JSON text chooses. -/
def choice? (s : List Char) : Option String :=
  match Source.text.literal? s with
  | some word => some word
  | none =>
    match Source.text.members? s with
    | some [(word, value)] => if value = "null".toList then some word else none
    | _ => none

example : choice? "\"kafka\"".toList = some "kafka" := by cbv
example : choice? " \x7b\"kafka\" : null\x7d".toList = some "kafka" := by cbv
example : choice? "\x7b\"kafka\":1\x7d".toList = none := by cbv

end CloudEvents.Json
