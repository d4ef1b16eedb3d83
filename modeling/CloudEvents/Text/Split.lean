/-
  Cutting a text at a separator.

  A content type is cut at its semicolons, a parameter at its first equals sign, a media type at its
  first slash.  All three are the two functions below; neither loses a character other than the
  separators it cuts at.
-/

namespace CloudEvents.Text

/-- The part before the first `sep` and the part after it, if there is one. -/
def cutFirst? (sep : Char) : List Char → Option (List Char × List Char)
  | [] => none
  | c :: r => if c = sep then some ([], r) else (cutFirst? sep r).map fun (a, b) => (c :: a, b)

/-- The part before the first `sep`; all of the text if there is none. -/
def before (sep : Char) (s : List Char) : List Char := s.takeWhile (· ≠ sep)

/-- The pieces between the separators; never empty. -/
def pieces (sep : Char) : List Char → List (List Char)
  | [] => [[]]
  | c :: r =>
    if c = sep then [] :: pieces sep r
    else
      match pieces sep r with
      | [] => [[c]]
      | p :: ps => (c :: p) :: ps

/-- The part before the first occurrence of a text and the part after it, if it occurs. -/
def cutAt? (sep : List Char) : List Char → Option (List Char × List Char)
  | [] => none
  | c :: r =>
    match sep.isPrefixOf? (c :: r) with
    | some rest => some ([], rest)
    | none => (cutAt? sep r).map fun (a, b) => (c :: a, b)

/-- What was cut off the front and the rest make up the text. -/
theorem eq_append_of_isPrefixOf? {p s r : List Char} (h : p.isPrefixOf? s = some r) : s = p ++ r := by
  induction p generalizing s with
  | nil => cases s <;> exact Option.some.inj h
  | cons c p ih =>
    cases s with
    | nil =>
      have h : none = some r := h
      simp at h
    | cons d s =>
      have h : (if c == d then p.isPrefixOf? s else none) = some r := h
      split at h
      · rename_i hcd
        rw [ih h, beq_iff_eq.1 hcd]
        rfl
      · simp at h

/-- Nothing is lost but what was cut at. -/
theorem cutAt?_eq_some {sep s a b : List Char} (h : cutAt? sep s = some (a, b)) :
    s = a ++ sep ++ b := by
  induction s generalizing a b with
  | nil => simp [cutAt?] at h
  | cons c r ih =>
    simp only [cutAt?] at h
    split at h
    · rename_i rest hp
      simp only [Option.some.injEq, Prod.mk.injEq] at h
      obtain ⟨rfl, rfl⟩ := h
      simpa using eq_append_of_isPrefixOf? hp
    · simp only [Option.map_eq_some_iff] at h
      obtain ⟨⟨a', b'⟩, h', he⟩ := h
      simp only [Prod.mk.injEq] at he
      obtain ⟨rfl, rfl⟩ := he
      simp [ih h']

end CloudEvents.Text
