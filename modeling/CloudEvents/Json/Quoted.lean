/-
  JSON string literals.

  Writing escapes what the format forbids inside quotes (the quote, the backslash and the controls
  below the space) and nothing else, so a literal holds every other character as it is.  Reading has
  two strengths.  `closing?` only finds where a literal ends: an escape has to be lexically in order,
  but `\ud800` by itself passes.  `unescape?` gives the text, and there the two halves of a surrogate
  pair have to stand together.  A member that is never read as text is held to the first rule only.

  **Main law:** `unescape?_escape`, what is written is read back.
-/
import CloudEvents.Text.Ascii

namespace CloudEvents.Json

open Text (hexValue? hexDigit)

/-! ## Writing -/

/-- A character as it stands between the quotes of a literal. -/
def escapeChar (c : Char) : List Char :=
  if c = '"' then ['\\', '"']
  else if c = '\\' then ['\\', '\\']
  else if c = '\n' then ['\\', 'n']
  else if c = '\r' then ['\\', 'r']
  else if c = '\t' then ['\\', 't']
  else if c = '\x08' then ['\\', 'b']
  else if c = '\x0c' then ['\\', 'f']
  else if c.toNat < 0x20 then
    ['\\', 'u', '0', '0', hexDigit (c.toNat / 16), hexDigit (c.toNat % 16)]
  else [c]

/-- A text as it stands between the quotes of a literal. -/
def escape (s : List Char) : List Char := s.flatMap escapeChar

/-- The literal of a text. -/
def quote (s : List Char) : List Char := '"' :: escape s ++ ['"']

/-! ## Finding the end of a literal -/

/-- The letters that may follow a backslash, other than `u`. -/
def isShortEscape (c : Char) : Bool :=
  c == '"' || c == '\\' || c == '/' || c == 'b' || c == 'f' || c == 'n' || c == 'r' || c == 't'

/-- The value of four hexadecimal digits. -/
def hex4? (a b c d : Char) : Option Nat := do
  let w ← hexValue? a
  let x ← hexValue? b
  let y ← hexValue? c
  let z ← hexValue? d
  some (((w * 16 + x) * 16 + y) * 16 + z)

/-- For a text that starts behind an opening quote: what stands before the closing quote, and what
comes after it. -/
def closing? : List Char → Option (List Char × List Char)
  | [] => none
  | '"' :: r => some ([], r)
  | '\\' :: 'u' :: a :: b :: c :: d :: r =>
    if (hex4? a b c d).isSome then
      (closing? r).map fun p => ('\\' :: 'u' :: a :: b :: c :: d :: p.1, p.2)
    else none
  | '\\' :: e :: r =>
    if isShortEscape e then (closing? r).map fun p => ('\\' :: e :: p.1, p.2) else none
  | c :: r => if c.toNat < 0x20 ∨ c = '\\' then none else (closing? r).map fun p => (c :: p.1, p.2)

/-- Nothing is lost: the text is what stands before the quote, the quote and the rest. -/
theorem closing?_eq_some {s b r : List Char} (h : closing? s = some (b, r)) : s = b ++ '"' :: r := by
  fun_induction closing? s generalizing b r with
  | case1 => simp at h
  | case2 => simp_all
  | case3 x1 x2 x3 x4 t hx ih =>
    simp only [Option.map_eq_some_iff, Prod.mk.injEq] at h
    obtain ⟨p, hp, rfl, rfl⟩ := h
    simp [ih hp]
  | case4 => simp at h
  | case5 e t _ he ih =>
    simp only [Option.map_eq_some_iff, Prod.mk.injEq] at h
    obtain ⟨p, hp, rfl, rfl⟩ := h
    simp [ih hp]
  | case6 => simp at h
  | case7 => simp at h
  | case8 c t _ _ _ hc ih =>
    simp only [Option.map_eq_some_iff, Prod.mk.injEq] at h
    obtain ⟨p, hp, rfl, rfl⟩ := h
    simp [ih hp]

/-! ## Reading -/

/-- The first half of a surrogate pair. -/
def isHighSurrogate (n : Nat) : Bool := 0xD800 ≤ n && n ≤ 0xDBFF

/-- The second half of a surrogate pair. -/
def isLowSurrogate (n : Nat) : Bool := 0xDC00 ≤ n && n ≤ 0xDFFF

/-- The character of a surrogate pair. -/
def pairChar (high low : Nat) : Char :=
  Char.ofNat ((high - 0xD800) * 0x400 + (low - 0xDC00) + 0x10000)

/-- The character of a letter that follows a backslash. -/
def shortEscape? (c : Char) : Option Char :=
  if c = '"' then some '"'
  else if c = '\\' then some '\\'
  else if c = '/' then some '/'
  else if c = 'b' then some '\x08'
  else if c = 'f' then some '\x0c'
  else if c = 'n' then some '\n'
  else if c = 'r' then some '\r'
  else if c = 't' then some '\t'
  else none

/-- The text that stands between the quotes of a literal. -/
def unescape? : List Char → Option (List Char)
  | [] => some []
  | '\\' :: 'u' :: a :: b :: c :: d :: r =>
    match hex4? a b c d with
    | none => none
    | some n =>
      if isHighSurrogate n then
        match r with
        | '\\' :: 'u' :: e :: f :: g :: h :: r' =>
          match hex4? e f g h with
          | none => none
          | some m =>
            if isLowSurrogate m then (unescape? r').map (pairChar n m :: ·) else none
        | _ => none
      else if isLowSurrogate n then none
      else (unescape? r).map (Char.ofNat n :: ·)
  | '\\' :: e :: r =>
    match shortEscape? e with
    | none => none
    | some c => (unescape? r).map (c :: ·)
  | c :: r => if c.toNat < 0x20 ∨ c = '\\' ∨ c = '"' then none else (unescape? r).map (c :: ·)

/-! ## A written text is read back -/

/-- The four digits that are written for a control character are read as its code. -/
theorem hex4?_control {n : Nat} (h : n < 32) :
    hex4? '0' '0' (hexDigit (n / 16)) (hexDigit (n % 16)) = some n := by
  have key : ∀ n : Fin 32, hex4? '0' '0' (hexDigit (n.val / 16)) (hexDigit (n.val % 16)) = some n.val := by
    decide
  exact key ⟨n, h⟩

/-- One character is read back in front of anything. -/
theorem unescape?_escapeChar (c : Char) (r : List Char) :
    unescape? (escapeChar c ++ r) = (unescape? r).map (c :: ·) := by
  unfold escapeChar
  iterate 7
    split
    · subst_vars; simp [unescape?, shortEscape?]
  split
  · rename_i h
    have h1 : isHighSurrogate c.toNat = false := by simp [isHighSurrogate]; omega
    have h2 : isLowSurrogate c.toNat = false := by simp [isLowSurrogate]; omega
    simp [unescape?, hex4?_control h, h1, h2]
  · rename_i h1 h2 _ _ _ _ _ h3
    have key : unescape? (c :: r) = (unescape? r).map (c :: ·) := by
      rw [unescape?.eq_def]
      split
      · contradiction
      · rename_i heq
        exact absurd (List.cons.inj heq).1 h2
      · rename_i heq
        exact absurd (List.cons.inj heq).1 h2
      · rename_i heq
        obtain ⟨rfl, rfl⟩ := List.cons.inj heq
        exact if_neg fun h => h.elim h3 fun h => h.elim h2 h1
    simpa using key

/-- What `escape` writes, `unescape?` reads. -/
theorem unescape?_escape (s : List Char) : unescape? (escape s) = some s := by
  induction s with
  | nil => rfl
  | cons c s ih =>
    rw [escape, List.flatMap_cons, unescape?_escapeChar]
    simp only [escape] at ih
    simp [ih]

/-- What is written for one character does not end a literal. -/
theorem closing?_escapeChar (c : Char) (r : List Char) :
    closing? (escapeChar c ++ r) = (closing? r).map fun p => (escapeChar c ++ p.1, p.2) := by
  unfold escapeChar
  iterate 7
    split
    · subst_vars; simp [closing?, isShortEscape]
  split
  · rename_i h
    simp [closing?, hex4?_control h]
  · rename_i h1 h2 _ _ _ _ _ h3
    have key : closing? (c :: r) = (closing? r).map fun p => (c :: p.1, p.2) := by
      rw [closing?.eq_def]
      split
      · contradiction
      · rename_i heq
        exact absurd (List.cons.inj heq).1 h1
      · rename_i heq
        exact absurd (List.cons.inj heq).1 h2
      · rename_i heq
        exact absurd (List.cons.inj heq).1 h2
      · rename_i heq
        obtain ⟨rfl, rfl⟩ := List.cons.inj heq
        exact if_neg fun h => h.elim h3 h2
    simpa using key

/-- The end of a written literal is where it was put. -/
theorem closing?_escape (s r : List Char) : closing? (escape s ++ '"' :: r) = some (escape s, r) := by
  induction s with
  | nil => simp [escape, closing?]
  | cons c s ih =>
    simp only [escape, List.flatMap_cons, List.append_assoc] at ih ⊢
    rw [closing?_escapeChar, ih]
    simp

end CloudEvents.Json
