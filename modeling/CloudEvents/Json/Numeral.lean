/-
  JSON numbers, as they are spelled.

  A numeral is kept in its parts (sign, whole part, fraction, exponent) and not evaluated: an envelope
  carries numbers through verbatim, and a reader that wants a value takes it from the parts.  The parts
  hold everything that was written, so a numeral has a text, and **nothing is lost**
  (`numeral?_eq_some`): what is read is that text and the rest behind it.
-/

namespace CloudEvents.Json

/-- An exponent: its letter and sign as they stand, whether it is negative, and its digits. -/
structure Exponent where
  mark : List Char
  negative : Bool
  digits : List Char
  deriving DecidableEq, Repr

/-- The parts of a number.  The digits are kept as characters, an absent part is empty or `none`. -/
structure Numeral where
  negative : Bool
  whole : List Char
  fraction : List Char
  exponent : Option Exponent
  deriving DecidableEq, Repr

/-! ## Texts -/

/-- The text of a sign. -/
def signText (negative : Bool) : List Char := if negative then ['-'] else []

/-- The text of a fraction. -/
def fractionText (digits : List Char) : List Char := if digits.isEmpty then [] else '.' :: digits

/-- The text of an exponent, if there is one. -/
def exponentText : Option Exponent → List Char
  | none => []
  | some x => x.mark ++ x.digits

/-- A number as it is spelled. -/
def Numeral.text (n : Numeral) : List Char :=
  signText n.negative ++ (n.whole ++ (fractionText n.fraction ++ exponentText n.exponent))

/-! ## Reading -/

/-- The digits at the start of a text, at least one, and what comes after them. -/
def leadingDigits? (s : List Char) : Option (List Char × List Char) :=
  match s.takeWhile Char.isDigit with
  | [] => none
  | ds => some (ds, s.dropWhile Char.isDigit)

/-- Whether a minus sign stands here, and what comes after it. -/
def signPart (s : List Char) : Bool × List Char :=
  match s with
  | '-' :: r => (true, r)
  | r => (false, r)

/-- A whole part: no leading zero, except in zero itself. -/
def wholePart? (s : List Char) : Option (List Char × List Char) :=
  match leadingDigits? s with
  | some ('0' :: _ :: _, _) => none
  | p => p

/-- A fraction, if a point stands here; then it has at least one digit. -/
def fractionPart? (s : List Char) : Option (List Char × List Char) :=
  match s with
  | '.' :: r => leadingDigits? r
  | r => some ([], r)

/-- The digits of an exponent, behind its letter and sign; there is at least one. -/
def exponentDigits? (mark : List Char) (negative : Bool) (s : List Char) :
    Option (Option Exponent × List Char) :=
  (leadingDigits? s).map fun p => (some ⟨mark, negative, p.1⟩, p.2)

/-- An exponent, if its letter stands here. -/
def exponentPart? (s : List Char) : Option (Option Exponent × List Char) :=
  match s with
  | c :: r =>
    if c = 'e' ∨ c = 'E' then
      match r with
      | '-' :: r => exponentDigits? [c, '-'] true r
      | '+' :: r => exponentDigits? [c, '+'] false r
      | r => exponentDigits? [c] false r
    else some (none, s)
  | [] => some (none, [])

/-- The number at the start of a text, and what comes after it. -/
def numeral? (s : List Char) : Option (Numeral × List Char) := do
  let (whole, s₁) ← wholePart? (signPart s).2
  let (fraction, s₂) ← fractionPart? s₁
  let (exponent, s₃) ← exponentPart? s₂
  some (⟨(signPart s).1, whole, fraction, exponent⟩, s₃)

/-! ## Nothing is lost -/

/-- The digits at the front are cut off, and there is one at least. -/
theorem leadingDigits?_eq_some {s ds r : List Char} (h : leadingDigits? s = some (ds, r)) :
    s = ds ++ r ∧ ds ≠ [] := by
  unfold leadingDigits? at h
  split at h
  · simp at h
  · rename_i hne
    simp only [Option.some.injEq, Prod.mk.injEq] at h
    obtain ⟨rfl, rfl⟩ := h
    exact ⟨(List.takeWhile_append_dropWhile).symm, hne⟩

/-- The sign and the rest make up the whole text. -/
theorem signPart_eq (s : List Char) : s = signText (signPart s).1 ++ (signPart s).2 := by
  unfold signPart
  split <;> simp [signText]

/-- The whole part has a digit at least, and with its rest makes up the text. -/
theorem wholePart?_eq_some {s ds r : List Char} (h : wholePart? s = some (ds, r)) :
    s = ds ++ r ∧ ds ≠ [] := by
  unfold wholePart? at h
  split at h
  · simp at h
  · exact leadingDigits?_eq_some h

/-- A fraction is cut off with its point. -/
theorem fractionPart?_eq_some {s ds r : List Char} (h : fractionPart? s = some (ds, r)) :
    s = fractionText ds ++ r := by
  unfold fractionPart? at h
  split at h
  · obtain ⟨rfl, hne⟩ := leadingDigits?_eq_some h
    simp [fractionText, hne]
  · simp only [Option.some.injEq, Prod.mk.injEq] at h
    obtain ⟨rfl, rfl⟩ := h
    simp [fractionText]

/-- The digits of an exponent are cut off behind their mark. -/
theorem exponentDigits?_eq_some {mark s r : List Char} {negative : Bool} {x : Option Exponent}
    (h : exponentDigits? mark negative s = some (x, r)) : mark ++ s = exponentText x ++ r := by
  simp only [exponentDigits?, Option.map_eq_some_iff, Prod.mk.injEq] at h
  obtain ⟨⟨ds, t⟩, hp, rfl, rfl⟩ := h
  simp [exponentText, (leadingDigits?_eq_some hp).1]

/-- An exponent is cut off with its mark. -/
theorem exponentPart?_eq_some {s r : List Char} {x : Option Exponent}
    (h : exponentPart? s = some (x, r)) : s = exponentText x ++ r := by
  unfold exponentPart? at h
  split at h
  · split at h
    · split at h
      · simpa using exponentDigits?_eq_some h
      · simpa using exponentDigits?_eq_some h
      · simpa using exponentDigits?_eq_some h
    · simp only [Option.some.injEq, Prod.mk.injEq] at h
      obtain ⟨rfl, rfl⟩ := h
      simp [exponentText]
  · simp only [Option.some.injEq, Prod.mk.injEq] at h
    obtain ⟨rfl, rfl⟩ := h
    simp [exponentText]

/-- **What is read is the text of the number and the rest**, and that text is not empty. -/
theorem numeral?_eq_some {s r : List Char} {n : Numeral} (h : numeral? s = some (n, r)) :
    s = n.text ++ r ∧ n.text ≠ [] := by
  unfold numeral? at h
  simp only [Option.bind_eq_bind, Option.bind_eq_some_iff, Option.some.injEq, Prod.mk.injEq] at h
  obtain ⟨⟨w, s₁⟩, hw, ⟨f, s₂⟩, hf, ⟨x, s₃⟩, hx, rfl, rfl⟩ := h
  obtain ⟨h1, hne⟩ := wholePart?_eq_some hw
  have h2 : s₁ = fractionText f ++ s₂ := fractionPart?_eq_some hf
  have h3 : s₂ = exponentText x ++ s₃ := exponentPart?_eq_some hx
  refine ⟨?_, by simp [Numeral.text, hne]⟩
  calc s = signText (signPart s).1 ++ (signPart s).2 := signPart_eq s
    _ = _ := by rw [h1, h2, h3]; simp [Numeral.text]

example : (numeral? "-12.50e+3,".toList).map (fun p => (String.ofList p.1.text, p.2)) =
    some ("-12.50e+3", [',']) := by cbv
example : (numeral? "012".toList).isNone = true := by cbv

end CloudEvents.Json
