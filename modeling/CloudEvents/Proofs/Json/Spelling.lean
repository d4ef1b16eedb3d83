/-
  How numbers and strings are spelled.

  A numeral is read greedily, so the same characters are read as the same number behind which nothing
  stands that could go on with it (`Stops continues`).  `Numeral.IsSpelled` says which parts a numeral can
  have; `numeral?_text` and `isSpelled_of_numeral?` are the two directions of "these are what is read".

  The contents of a literal need no such care, because the closing quote ends them.
-/
import CloudEvents.Json.Scan

namespace CloudEvents.Json

/-- A text that does not start with a character of a class. -/
def Stops (p : Char → Bool) (r : List Char) : Prop := ∀ c ∈ r.head?, p c = false

theorem Stops.nil (p : Char → Bool) : Stops p [] := by
  intro c hc
  exact absurd hc (by simp)

theorem stops_cons {p : Char → Bool} {c : Char} {r : List Char} : Stops p (c :: r) ↔ p c = false := by
  constructor
  · intro h
    exact h c rfl
  · intro h x hx
    rw [← Option.some.inj hx]
    exact h

/-- Only the first character counts. -/
theorem Stops.append {p : Char → Bool} {s r : List Char} (hs : Stops p s) (hr : Stops p r) :
    Stops p (s ++ r) := by
  cases s with
  | nil => exact hr
  | cons c s => exact stops_cons.2 (stops_cons.1 hs)

theorem Stops.mono {p q : Char → Bool} {r : List Char} (h : Stops q r) (hpq : ∀ c, p c = true → q c = true) :
    Stops p r := by
  intro c hc
  cases hp : p c with
  | false => rfl
  | true => rw [← h c hc, hpq c hp]

/-! ## Digits -/

/-- A text of digits, at least one. -/
def IsDigits (s : List Char) : Prop := s ≠ [] ∧ ∀ c ∈ s, c.isDigit = true

theorem IsDigits.isDigit_of_append {ds r t : List Char} {c : Char} (h : IsDigits ds)
    (heq : ds ++ r = c :: t) : c.isDigit = true := by
  obtain ⟨hne, hall⟩ := h
  cases ds with
  | nil => exact absurd rfl hne
  | cons d ds =>
    rw [← (List.cons.inj heq).1]
    exact hall d List.mem_cons_self

/-- Characters of one kind end where one of another kind follows. -/
theorem takeWhile_append_stops {p : Char → Bool} {ds r : List Char} (hds : ∀ c ∈ ds, p c = true)
    (hr : Stops p r) : (ds ++ r).takeWhile p = ds ∧ (ds ++ r).dropWhile p = r := by
  rw [List.takeWhile_append_of_pos hds, List.dropWhile_append_of_pos hds]
  cases r with
  | nil => exact ⟨List.append_nil ds, rfl⟩
  | cons c r =>
    have hc : p c = false := stops_cons.1 hr
    rw [List.takeWhile_cons, List.dropWhile_cons, hc]
    exact ⟨List.append_nil ds, rfl⟩

/-- Digits are read up to the first character that is none. -/
theorem leadingDigits?_append {ds r : List Char} (hds : IsDigits ds) (hr : Stops Char.isDigit r) :
    leadingDigits? (ds ++ r) = some (ds, r) := by
  obtain ⟨htake, hdrop⟩ := takeWhile_append_stops hds.2 hr
  unfold leadingDigits?
  rw [htake, hdrop]
  obtain ⟨hne, -⟩ := hds
  cases ds with
  | nil => exact absurd rfl hne
  | cons c ds => rfl

theorem isDigits_of_leadingDigits? {s ds r : List Char} (h : leadingDigits? s = some (ds, r)) :
    IsDigits ds := by
  refine ⟨(leadingDigits?_eq_some h).2, ?_⟩
  unfold leadingDigits? at h
  split at h
  · exact absurd h (by simp)
  · rename_i hd
    obtain ⟨rfl, -⟩ := Prod.mk.inj (Option.some.inj h)
    intro c hc
    exact List.all_eq_true.1 List.all_takeWhile c hc

/-! ## Numerals -/

/-- An exponent that can be read: a letter, perhaps a sign, and digits. -/
structure Exponent.IsSpelled (x : Exponent) : Prop where
  mark : ∃ c, (c = 'e' ∨ c = 'E') ∧
    (x.mark = [c, '-'] ∧ x.negative = true ∨ (x.mark = [c, '+'] ∨ x.mark = [c]) ∧ x.negative = false)
  digits : IsDigits x.digits

/-- A numeral that can be read: no leading zero, and digits wherever digits have to be. -/
structure Numeral.IsSpelled (n : Numeral) : Prop where
  whole : IsDigits n.whole
  noLeadingZero : n.whole.head? = some '0' → n.whole = ['0']
  fraction : ∀ c ∈ n.fraction, c.isDigit = true
  exponent : ∀ x, n.exponent = some x → x.IsSpelled

/-- The characters that go on with a numeral in front of its exponent. -/
def isFractional (c : Char) : Bool := c.isDigit || c == '.'

/-- The characters that go on with a numeral. -/
def continues (c : Char) : Bool := isFractional c || c == 'e' || c == 'E'

theorem isFractional_of_isDigit (c : Char) (h : c.isDigit = true) : isFractional c = true := by
  simp [isFractional, h]

theorem continues_of_isFractional (c : Char) (h : isFractional c = true) : continues c = true := by
  simp [continues, h]

/-- A sign is read as itself, in front of anything that has none. -/
theorem signPart_append {neg : Bool} {s : List Char} (h : ∀ t, s ≠ '-' :: t) :
    signPart (signText neg ++ s) = (neg, s) := by
  cases neg with
  | true => rfl
  | false =>
    unfold signPart signText
    rw [if_neg (by decide), List.nil_append]
    split
    · exact absurd rfl (h _)
    · rfl

/-- The whole part is read as it is spelled, a leading zero standing alone. -/
theorem wholePart?_append {ds r : List Char} (hds : IsDigits ds) (hz : ds.head? = some '0' → ds = ['0'])
    (hr : Stops Char.isDigit r) : wholePart? (ds ++ r) = some (ds, r) := by
  unfold wholePart?
  rw [leadingDigits?_append hds hr]
  split
  · rename_i heq
    obtain ⟨rfl, -⟩ := Prod.mk.inj (Option.some.inj heq)
    exact absurd (hz rfl) (by simp)
  · rfl

/-- The fraction is read as it is spelled, and also where there is none. -/
theorem fractionPart?_append {ds r : List Char} (hds : ∀ c ∈ ds, c.isDigit = true)
    (hr : Stops isFractional r) : fractionPart? (fractionText ds ++ r) = some (ds, r) := by
  cases ds with
  | nil =>
    show fractionPart? r = _
    unfold fractionPart?
    split
    · exact absurd (stops_cons.1 hr) (by decide)
    · rfl
  | cons c ds => exact leadingDigits?_append ⟨by simp, hds⟩ (hr.mono isFractional_of_isDigit)

theorem exponentDigits?_append {mark ds r : List Char} {neg : Bool} (hds : IsDigits ds)
    (hr : Stops Char.isDigit r) : exponentDigits? mark neg (ds ++ r) = some (some ⟨mark, neg, ds⟩, r) := by
  rw [exponentDigits?, leadingDigits?_append hds hr]
  rfl

/-- The exponent is read as it is spelled, and also where there is none. -/
theorem exponentPart?_append {x : Option Exponent} {r : List Char}
    (hx : ∀ y, x = some y → y.IsSpelled) (hr : Stops continues r) :
    exponentPart? (exponentText x ++ r) = some (x, r) := by
  cases x with
  | none =>
    show exponentPart? r = _
    unfold exponentPart?
    split
    · rename_i c _
      have hc := stops_cons.1 hr
      rw [if_neg]
      rintro (rfl | rfl)
      · exact absurd hc (by decide)
      · exact absurd hc (by decide)
    · rfl
  | some y =>
    obtain ⟨mark, neg, ds⟩ := y
    obtain ⟨⟨c, hc, hmark⟩, hds⟩ := hx _ rfl
    simp only at hmark hds
    have hr : Stops Char.isDigit r :=
      (hr.mono continues_of_isFractional).mono isFractional_of_isDigit
    rcases hmark with ⟨rfl, rfl⟩ | ⟨rfl | rfl, rfl⟩
    · show exponentPart? (c :: '-' :: (ds ++ r)) = _
      rw [exponentPart?, if_pos hc]
      exact exponentDigits?_append hds hr
    · show exponentPart? (c :: '+' :: (ds ++ r)) = _
      rw [exponentPart?, if_pos hc]
      exact exponentDigits?_append hds hr
    · show exponentPart? (c :: (ds ++ r)) = _
      -- The first digit is no sign.
      rw [exponentPart?, if_pos hc]
      · exact exponentDigits?_append hds hr
      · exact fun t ht => absurd (hds.isDigit_of_append ht) (by decide)
      · exact fun t ht => absurd (hds.isDigit_of_append ht) (by decide)

theorem stops_exponentText {x : Option Exponent} (hx : ∀ y, x = some y → y.IsSpelled) :
    Stops isFractional (exponentText x) := by
  cases x with
  | none => exact Stops.nil _
  | some y =>
    obtain ⟨⟨c, hc, hmark⟩, -⟩ := hx y rfl
    have hcons : ∃ t, exponentText (some y) = c :: t := by
      rcases hmark with ⟨hm, -⟩ | ⟨hm | hm, -⟩ <;> exact ⟨_, by rw [exponentText, hm]; rfl⟩
    obtain ⟨t, ht⟩ := hcons
    rw [ht]
    rcases hc with rfl | rfl <;> exact stops_cons.2 (by decide)

/-- **A numeral is read from its text**, whatever stands behind it that does not go on with it. -/
theorem numeral?_text {n : Numeral} (hn : n.IsSpelled) {r : List Char} (hr : Stops continues r) :
    numeral? (n.text ++ r) = some (n, r) := by
  have hexp : Stops isFractional (exponentText n.exponent ++ r) :=
    (stops_exponentText hn.exponent).append (hr.mono continues_of_isFractional)
  have hfrac : Stops Char.isDigit (fractionText n.fraction ++ (exponentText n.exponent ++ r)) := by
    refine Stops.append ?_ (hexp.mono isFractional_of_isDigit)
    unfold fractionText
    split
    · exact Stops.nil _
    · exact stops_cons.2 (by decide)
  have hsign : ∀ t, n.whole ++ (fractionText n.fraction ++ (exponentText n.exponent ++ r)) ≠ '-' :: t :=
    fun t ht => absurd (hn.whole.isDigit_of_append ht) (by decide)
  unfold numeral? Numeral.text
  simp only [List.append_assoc, signPart_append hsign, wholePart?_append hn.whole hn.noLeadingZero hfrac,
    fractionPart?_append hn.fraction hexp, exponentPart?_append hn.exponent hr, Option.bind_eq_bind,
    Option.bind_some]

/-! ## What is read is spelled so -/

/-- A whole part that was read has digits, and no zero before others. -/
theorem isSpelled_of_wholePart? {s ds r : List Char} (h : wholePart? s = some (ds, r)) :
    IsDigits ds ∧ (ds.head? = some '0' → ds = ['0']) := by
  unfold wholePart? at h
  split at h
  · exact absurd h (by simp)
  · rename_i hne
    refine ⟨isDigits_of_leadingDigits? h, ?_⟩
    intro hz
    cases ds with
    | nil => exact absurd hz (by simp)
    | cons c ds =>
      cases ds with
      | nil => rw [Option.some.inj hz]
      | cons d ds => exact absurd (by rw [h, Option.some.inj hz]) (hne d ds r)

theorem isDigit_of_fractionPart? {s ds r : List Char} (h : fractionPart? s = some (ds, r)) :
    ∀ c ∈ ds, c.isDigit = true := by
  unfold fractionPart? at h
  split at h
  · exact (isDigits_of_leadingDigits? h).2
  · obtain ⟨rfl, -⟩ := Prod.mk.inj (Option.some.inj h)
    intro c hc
    exact absurd hc (by simp)

theorem isSpelled_of_exponentPart? {s r : List Char} {x : Option Exponent}
    (h : exponentPart? s = some (x, r)) : ∀ y, x = some y → y.IsSpelled := by
  rintro y rfl
  have hdigits : ∀ {mark neg t}, exponentDigits? mark neg t = some (some y, r) →
      y.mark = mark ∧ y.negative = neg ∧ IsDigits y.digits := by
    intro mark neg t ht
    simp only [exponentDigits?, Option.map_eq_some_iff, Prod.mk.injEq, Option.some.injEq] at ht
    obtain ⟨⟨ds, t'⟩, hp, rfl, -⟩ := ht
    exact ⟨rfl, rfl, isDigits_of_leadingDigits? hp⟩
  unfold exponentPart? at h
  split at h
  · rename_i c t
    split at h
    · rename_i hc
      split at h
      · obtain ⟨hm, hneg, hds⟩ := hdigits h
        exact ⟨⟨c, hc, .inl ⟨hm, hneg⟩⟩, hds⟩
      · obtain ⟨hm, hneg, hds⟩ := hdigits h
        exact ⟨⟨c, hc, .inr ⟨.inl hm, hneg⟩⟩, hds⟩
      · obtain ⟨hm, hneg, hds⟩ := hdigits h
        exact ⟨⟨c, hc, .inr ⟨.inr hm, hneg⟩⟩, hds⟩
    · exact absurd h (by simp)
  · exact absurd h (by simp)

/-- **A number that was read is spelled by the grammar.** -/
theorem isSpelled_of_numeral? {s r : List Char} {n : Numeral} (h : numeral? s = some (n, r)) :
    n.IsSpelled := by
  unfold numeral? at h
  simp only [Option.bind_eq_bind, Option.bind_eq_some_iff, Option.some.injEq, Prod.mk.injEq] at h
  obtain ⟨⟨w, s₁⟩, hw, ⟨f, s₂⟩, hf, ⟨x, s₃⟩, hx, rfl, rfl⟩ := h
  obtain ⟨hwhole, hz⟩ := isSpelled_of_wholePart? hw
  exact ⟨hwhole, hz, isDigit_of_fractionPart? hf, isSpelled_of_exponentPart? hx⟩

/-! ## Literals -/

/-- What can stand between the quotes of a literal. -/
def IsBody (body : List Char) : Prop := ∀ r, closing? (body ++ '"' :: r) = some (body, r)

theorem isBody_escape (s : List Char) : IsBody (escape s) := fun r => closing?_escape s r

/-- The end of a literal is found where it was found before, whatever comes after it. -/
theorem isBody_of_closing? {s body r : List Char} (h : closing? s = some (body, r)) : IsBody body := by
  intro r'
  fun_induction closing? s generalizing body r with
  | case1 => exact absurd h (by simp)
  | case2 =>
    obtain ⟨rfl, -⟩ := Prod.mk.inj (Option.some.inj h)
    rfl
  | case3 a b c d t hx ih =>
    simp only [Option.map_eq_some_iff, Prod.mk.injEq] at h
    obtain ⟨p, hp, rfl, rfl⟩ := h
    show closing? ('\\' :: 'u' :: a :: b :: c :: d :: (p.1 ++ '"' :: r')) = _
    rw [closing?, if_pos hx, ih hp]
    rfl
  | case4 => exact absurd h (by simp)
  | case5 e t _ he ih =>
    simp only [Option.map_eq_some_iff, Prod.mk.injEq] at h
    obtain ⟨p, hp, rfl, rfl⟩ := h
    show closing? ('\\' :: e :: (p.1 ++ '"' :: r')) = _
    rw [closing?, if_pos he, ih hp]
    · rfl
    · rintro a b c d t rfl _
      exact absurd he (by decide)
  | case6 => exact absurd h (by simp)
  | case7 => exact absurd h (by simp)
  | case8 c t hquote _ _ hc ih =>
    simp only [Option.map_eq_some_iff, Prod.mk.injEq] at h
    obtain ⟨p, hp, rfl, rfl⟩ := h
    have hslash : c ≠ '\\' := fun heq => hc (.inr heq)
    show closing? (c :: (p.1 ++ '"' :: r')) = _
    rw [closing?, if_neg hc, ih hp]
    · rfl
    · exact hquote
    · exact fun _ _ _ _ _ heq _ => hslash heq
    · exact fun _ _ heq _ => hslash heq

end CloudEvents.Json
