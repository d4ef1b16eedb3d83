/-
  The tokens of an XML text.

  Markup starts at a left angle bracket, and the character behind it says what sort it is.  Comments,
  processing instructions and the declaration leave no token.  A tag ends at the first right bracket
  that is not inside quotes; what is in a tag is looked at only by whoever needs its attributes.  A tag
  that ends in a slash opens and closes an element.

  The tokens in front of markup that cannot be read are good: a reader may have all it needs by then.
-/
import CloudEvents.Text.Split

namespace CloudEvents.Xml

/-- A piece of an XML text. -/
inductive Token where
  /-- Character data, with its references. -/
  | data (raw : List Char)
  /-- A section of characters that stand for themselves. -/
  | verbatim (s : List Char)
  | doctype
  /-- A start tag, by what stands between its brackets. -/
  | opening (tag : List Char)
  | closing (name : List Char)
  deriving DecidableEq, Repr

/-- The white space of XML. -/
def isGap (c : Char) : Bool := c == ' ' || c == '\t' || c == '\n' || c == '\r'

/-- The name at the start of a tag. -/
def tagName (tag : List Char) : List Char := tag.takeWhile fun c => !isGap c

/-- Drops white space at the end. -/
def trimEnd (s : List Char) : List Char := (s.reverse.dropWhile isGap).reverse

/-- Drops white space at the start. -/
def trimStart (s : List Char) : List Char := s.dropWhile isGap

/-- What stands in a tag, and what comes behind it; the first argument is the quote that is open. -/
def tagEnd? : Option Char → List Char → Option (List Char × List Char)
  | _, [] => none
  | none, c :: r =>
    if c = '>' then some ([], r)
    else
      (tagEnd? (if c = '"' ∨ c = '\'' then some c else none) r).map fun p => (c :: p.1, p.2)
  | some q, c :: r => (tagEnd? (if c = q then none else some q) r).map fun p => (c :: p.1, p.2)

/-- What stands in a document type declaration, in which brackets are paired, and what comes behind
it. -/
def doctypeEnd? : Nat → List Char → Option (List Char × List Char)
  | _, [] => none
  | depth, c :: r =>
    if c = '<' then (doctypeEnd? (depth + 1) r).map fun p => (c :: p.1, p.2)
    else if c = '>' then
      match depth with
      | 0 => some ([], r)
      | d + 1 => (doctypeEnd? d r).map fun p => (c :: p.1, p.2)
    else (doctypeEnd? depth r).map fun p => (c :: p.1, p.2)

/-- Whether a document type declaration has its word, in any case, and a name behind it. -/
def isDoctype (s : List Char) : Bool :=
  (s.take 7).map Char.toUpper == "DOCTYPE".toList && (s.drop 7).any fun c => !isGap c

/-- The tokens of a start tag. -/
def tagTokens (tag : List Char) : List Token :=
  if tag.getLast? = some '/' then [.opening tag.dropLast, .closing (tagName tag.dropLast)]
  else [.opening tag]

/-- The name in an end tag, behind which white space may stand, if there is a name. -/
def closingName (tag : List Char) : List Char :=
  if (trimEnd tag).isEmpty then tag else trimEnd tag

/-- The tokens of the markup whose left bracket has been read, and what comes behind it. -/
def markup? (s : List Char) : Option (List Token × List Char) :=
  match s with
  | '!' :: '-' :: '-' :: r => (Text.cutAt? ['-', '-', '>'] r).map fun p => ([], p.2)
  | '!' :: '[' :: 'C' :: 'D' :: 'A' :: 'T' :: 'A' :: '[' :: r =>
    (Text.cutAt? [']', ']', '>'] r).map fun p => ([.verbatim p.1], p.2)
  | '!' :: r =>
    match doctypeEnd? 0 r with
    | some (s, r) => if isDoctype s then some ([.doctype], r) else none
    | none => none
  -- One question mark cannot be both the beginning and the end.
  | '?' :: '>' :: _ => none
  | '?' :: r => (Text.cutAt? ['?', '>'] r).map fun p => ([], p.2)
  | '/' :: r => (tagEnd? none r).map fun p => ([.closing (closingName p.1)], p.2)
  | r => (tagEnd? none r).map fun p => (tagTokens p.1, p.2)

/-! ## Every piece of markup leaves a shorter text -/

theorem tagEnd?_length {q : Option Char} {s a r : List Char} (h : tagEnd? q s = some (a, r)) :
    r.length < s.length := by
  induction s generalizing q a r with
  | nil => cases q <;> simp [tagEnd?] at h
  | cons c t ih =>
    cases q with
    | none =>
      simp only [tagEnd?] at h
      split at h
      · simp only [Option.some.injEq, Prod.mk.injEq] at h
        obtain ⟨_, rfl⟩ := h
        simp
      · simp only [Option.map_eq_some_iff, Prod.mk.injEq] at h
        obtain ⟨p, hp, _, rfl⟩ := h
        have := ih hp
        simp only [List.length_cons]
        omega
    | some q =>
      simp only [tagEnd?, Option.map_eq_some_iff, Prod.mk.injEq] at h
      obtain ⟨p, hp, _, rfl⟩ := h
      have := ih hp
      simp only [List.length_cons]
      omega

/-- What stands behind the end of a document type is shorter. -/
theorem doctypeEnd?_length {n : Nat} {s a r : List Char} (h : doctypeEnd? n s = some (a, r)) :
    r.length < s.length := by
  induction s generalizing n a r with
  | nil => simp [doctypeEnd?] at h
  | cons c t ih =>
    simp only [doctypeEnd?] at h
    split at h
    · simp only [Option.map_eq_some_iff, Prod.mk.injEq] at h
      obtain ⟨p, hp, _, rfl⟩ := h
      have := ih hp
      simp only [List.length_cons]
      omega
    · split at h
      · split at h
        · simp only [Option.some.injEq, Prod.mk.injEq] at h
          obtain ⟨_, rfl⟩ := h
          simp
        · simp only [Option.map_eq_some_iff, Prod.mk.injEq] at h
          obtain ⟨p, hp, _, rfl⟩ := h
          have := ih hp
          simp only [List.length_cons]
          omega
      · simp only [Option.map_eq_some_iff, Prod.mk.injEq] at h
        obtain ⟨p, hp, _, rfl⟩ := h
        have := ih hp
        simp only [List.length_cons]
        omega

theorem cutAt?_length {sep s a r : List Char} (h : Text.cutAt? sep s = some (a, r)) :
    r.length ≤ s.length := by
  rw [Text.cutAt?_eq_some h]
  simp only [List.length_append]
  omega

/-- Every piece of markup takes something away, and by this the reader of tokens ends. -/
theorem markup?_length {s r : List Char} {ts : List Token} (h : markup? s = some (ts, r)) :
    r.length < s.length := by
  unfold markup? at h
  split at h
  · simp only [Option.map_eq_some_iff, Prod.mk.injEq] at h
    obtain ⟨p, hp, _, rfl⟩ := h
    have := cutAt?_length hp
    simp only [List.length_cons]
    omega
  · simp only [Option.map_eq_some_iff, Prod.mk.injEq] at h
    obtain ⟨p, hp, _, rfl⟩ := h
    have := cutAt?_length hp
    simp only [List.length_cons]
    omega
  · split at h
    · rename_i hp
      split at h
      · simp only [Option.some.injEq, Prod.mk.injEq] at h
        obtain ⟨_, rfl⟩ := h
        have := doctypeEnd?_length hp
        simp only [List.length_cons]
        omega
      · simp at h
    · simp at h
  · simp at h
  · simp only [Option.map_eq_some_iff, Prod.mk.injEq] at h
    obtain ⟨p, hp, _, rfl⟩ := h
    have := cutAt?_length hp
    simp only [List.length_cons]
    omega
  · simp only [Option.map_eq_some_iff, Prod.mk.injEq] at h
    obtain ⟨p, hp, _, rfl⟩ := h
    have := tagEnd?_length hp
    simp only [List.length_cons]
    omega
  · simp only [Option.map_eq_some_iff, Prod.mk.injEq] at h
    obtain ⟨p, hp, _, rfl⟩ := h
    exact tagEnd?_length hp

/-! ## Whole texts -/

/-- The tokens of a text, and whether all of it could be read. -/
def tokensFrom (s : List Char) : List Token × Bool :=
  match s with
  | [] => ([], true)
  | '<' :: r =>
    match _h : markup? r with
    | none => ([], false)
    | some (ts, rest) =>
      let (us, complete) := tokensFrom rest
      (ts ++ us, complete)
  | c :: r =>
    let raw := c :: r.takeWhile (· ≠ '<')
    let (us, complete) := tokensFrom (r.dropWhile (· ≠ '<'))
    (.data raw :: us, complete)
termination_by s.length
decreasing_by
  · have := markup?_length _h
    simp only [List.length_cons]
    omega
  · have := (List.dropWhile_sublist (l := r) (fun c : Char => decide (c ≠ '<'))).length_le
    simp only [List.length_cons]
    omega

/-- The mark of the byte order, which may stand in front of a text. -/
def byteOrderMark : Char := Char.ofNat 0xFEFF

/-- The tokens of a text, and whether all of it could be read. -/
def tokens (s : List Char) : List Token × Bool :=
  match s with
  | c :: r => if c = byteOrderMark then tokensFrom r else tokensFrom s
  | [] => ([], true)

end CloudEvents.Xml
