/-
  Character data: references, read and written.

  Three characters are written as references, because they would be taken for markup.  Reading knows
  the five predefined names and numbers in both bases; any other name is an error, and so is an
  ampersand that no semicolon ends.  **Main law:** `resolve?_escape`, what is written is read back.
-/
import CloudEvents.Text.Ascii
import CloudEvents.Text.Split
import CloudEvents.Text.Integer

namespace CloudEvents.Xml

/-- A character as it stands in character data. -/
def escapeChar (c : Char) : List Char :=
  if c = '&' then "&amp;".toList
  else if c = '<' then "&lt;".toList
  else if c = '>' then "&gt;".toList
  else [c]

/-- A text as it stands in character data. -/
def escape (s : List Char) : List Char := s.flatMap escapeChar

/-- The character of a code point; the null character has none. -/
def codePoint? (n : Nat) : Option Char :=
  if 0 < n ∧ (n < 0xD800 ∨ 0xDFFF < n ∧ n < 0x110000) then some (Char.ofNat n) else none

/-- The character of a number, in base ten, or in base sixteen behind an `x`; it has at least one
digit. -/
def numbered? (s : List Char) : Option Char :=
  match s with
  | 'x' :: r => if r.isEmpty then none else (Text.hexNumber? r).bind codePoint?
  | r => (Text.natural? r).bind codePoint?

/-- The character of a reference, by what stands between ampersand and semicolon. -/
def referent? (s : List Char) : Option Char :=
  match s with
  | '#' :: r => numbered? r
  | name =>
    if name = "lt".toList then some '<'
    else if name = "gt".toList then some '>'
    else if name = "amp".toList then some '&'
    else if name = "apos".toList then some '\''
    else if name = "quot".toList then some '"'
    else none

/-- The text of character data.  The first argument is what has been read of a reference, backwards,
if one is open. -/
def resolveFrom : Option (List Char) → List Char → Option (List Char)
  | none, [] => some []
  | some _, [] => none
  | none, c :: r => if c = '&' then resolveFrom (some []) r else (resolveFrom none r).map (c :: ·)
  | some name, c :: r =>
    if c = ';' then
      match referent? name.reverse with
      | some x => (resolveFrom none r).map (x :: ·)
      | none => none
    else if c = '&' then none
    else resolveFrom (some (c :: name)) r

/-- The text of character data. -/
def resolve? (s : List Char) : Option (List Char) := resolveFrom none s

/-- One character is resolved to itself in front of anything. -/
theorem resolveFrom_escapeChar (c : Char) (r : List Char) :
    resolveFrom none (escapeChar c ++ r) = (resolveFrom none r).map (c :: ·) := by
  unfold escapeChar
  split
  · subst_vars; simp [resolveFrom, referent?]
  split
  · subst_vars; simp [resolveFrom, referent?]
  split
  · subst_vars; simp [resolveFrom, referent?]
  · rename_i h _ _
    simp [resolveFrom, h]

/-- What `escape` writes, `resolve?` reads. -/
theorem resolve?_escape (s : List Char) : resolve? (escape s) = some s := by
  unfold resolve? escape
  induction s with
  | nil => rfl
  | cons c s ih => simp [List.flatMap_cons, resolveFrom_escapeChar, ih]

end CloudEvents.Xml
