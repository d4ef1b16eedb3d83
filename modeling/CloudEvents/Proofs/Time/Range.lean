/-
  Which instants a text can give, and which of them can be written.

  A text has a year of four digits, but that is the year at its own place on earth.  The offset moves it
  by less than a day, so in UTC the year is one of those from -1 to 10000 (`year_of_read?`).  The two at
  the ends have a sign when they are written, and a text that begins with a sign is not read.  So the wire
  text of an instant is read back exactly in the years of four digits (`read?_wireText_isSome_iff`).

  The bound is on days and not on dates: of the day before the first one and the day after the last one
  nothing has to be known but their year.
-/
import CloudEvents.Proofs.Time.WireText
import Mathlib.Data.List.Induction

namespace CloudEvents.Time

/-! ## Days of the years 0 to 9999 -/

/-- Months are counted from one. -/
theorem Date.one_le_month {d : Date} (h : d.exists = true) : 1 ≤ d.month := by
  unfold Date.exists at h
  rw [Bool.and_eq_true, decide_eq_true_eq, decide_eq_true_eq] at h
  by_contra hm
  have h0 : daysInMonth d.year d.month = 0 := by
    rw [show d.month = 0 by omega]
    rfl
  omega

/-- The first and the last day of the years that have four digits. -/
theorem Date.dayNumber_bounds {d : Date} (h : d.exists = true) (h0 : 0 ≤ d.year) (h1 : d.year ≤ 9999) :
    -719528 ≤ d.dayNumber ∧ d.dayNumber ≤ 2932896 := by
  have hm := Date.month_le h
  have hm' := Date.one_le_month h
  have hd := Date.day_le h
  unfold Date.dayNumber daysBeforeYear daysBeforeMonth eraDays
  split <;> simp only <;> omega

/-- One day more at either end lies in the year before or behind. -/
theorem Date.year_ofDayNumber {n : Int} (h : -719529 ≤ n) (h' : n ≤ 2932897) :
    -1 ≤ (Date.ofDayNumber n).year ∧ (Date.ofDayNumber n).year ≤ 10000 := by
  obtain ⟨era, y, m, day, hy, hm, hd, hl, hn, he⟩ := ofDayNumber_parts n
  rw [he]
  unfold dateOf civilMonth
  unfold daysBeforeYear daysBeforeMonth eraDays at *
  split at hl <;> split <;> simp only <;> omega

end CloudEvents.Time

namespace CloudEvents.Text

theorem digitValue_lt {c : Char} (h : c.isDigit = true) : digitValue c < 10 := by
  simp only [Char.isDigit, ge_iff_le, UInt32.le_iff_toNat_le, Bool.and_eq_true, decide_eq_true_eq] at h
  have h2 : c.toNat ≤ 57 := h.2
  have h0 : '0'.toNat = 48 := rfl
  unfold digitValue
  omega

/-- A number of `n` digits is less than the `n`-th power of ten. -/
theorem valueFrom_lt {s : List Char} (h : s.all Char.isDigit = true) :
    valueFrom 0 s < 10 ^ s.length := by
  induction s using List.reverseRecOn with
  | nil => exact Nat.one_pos
  | append_singleton s c ih =>
    rw [List.all_append, Bool.and_eq_true, List.all_cons, Bool.and_eq_true] at h
    have hc := digitValue_lt h.2.1
    have ih := ih h.1
    rw [valueFrom_append, List.length_append, List.length_singleton, Nat.pow_succ]
    show 10 * _ + _ < _
    omega

end CloudEvents.Text

namespace CloudEvents.Instant

open Time

/-! ## What a text gives -/

/-- A number that was read from `n` digits is less than the `n`-th power of ten. -/
theorem takeNumber?_lt {n v : Nat} {s r : List Char} (h : takeNumber? n s = some (v, r)) : v < 10 ^ n := by
  simp only [takeNumber?] at h
  split at h
  · rename_i hd
    rw [Bool.and_eq_true, decide_eq_true_eq] at hd
    cases h
    calc Text.valueFrom 0 (s.take n) < 10 ^ (s.take n).length := Text.valueFrom_lt hd.2
      _ = 10 ^ n := by rw [hd.1]
  · exact absurd h (by simp)

/-- An offset is shorter than a day. -/
theorem offset?_bounds {s : List Char} {o : Int} (h : offset? s = some o) : -86340 ≤ o ∧ o ≤ 86340 := by
  have hclock : ∀ {sign : Int} {r : List Char}, sign = 1 ∨ sign = -1 →
      ((takeNumber? 2 r).bind fun h => (takeChar? ':' h.2).bind fun r => (takeNumber? 2 r).bind fun m =>
        if m.2.isEmpty ∧ h.1 ≤ 23 ∧ m.1 ≤ 59 then some (sign * (3600 * h.1 + 60 * m.1 : Nat)) else none) =
          some o →
      -86340 ≤ o ∧ o ≤ 86340 := by
    intro sign r hsign h
    obtain ⟨⟨hour, r⟩, -, h⟩ := Option.bind_eq_some_iff.1 h
    obtain ⟨r, -, h⟩ := Option.bind_eq_some_iff.1 h
    obtain ⟨⟨minute, r⟩, -, h⟩ := Option.bind_eq_some_iff.1 h
    obtain ⟨hle, h⟩ := Option.ite_none_right_eq_some.1 h
    obtain rfl := Option.some.inj h
    rcases hsign with rfl | rfl <;> omega
  simp only [offset?] at h
  split at h
  · split at h
    · obtain ⟨-, h⟩ := Option.ite_none_right_eq_some.1 h
      cases h
      decide
    · split at h
      · exact hclock (.inl rfl) h
      · split at h
        · exact hclock (.inr rfl) h
        · exact absurd h (by simp)
  · exact absurd h (by simp)

theorem seconds_of? {seconds : Int} {nanos : Nat} {t : Instant} (h : of? seconds nanos = some t) :
    t.seconds = seconds := by
  unfold of? at h
  split at h
  · cases h
    rfl
  · exact absurd h (by simp)

/-- The offset moves an instant out of the years of its text by one day at most. -/
theorem readExact?_bounds {s : List Char} {t : Instant} (h : readExact? s = some t) :
    -719529 ≤ t.dayNumber ∧ t.dayNumber ≤ 2932897 := by
  unfold readExact? at h
  obtain ⟨⟨year, s₁⟩, hyear, h⟩ := Option.bind_eq_some_iff.1 h
  obtain ⟨s₂, -, h⟩ := Option.bind_eq_some_iff.1 h
  obtain ⟨⟨month, s₃⟩, -, h⟩ := Option.bind_eq_some_iff.1 h
  obtain ⟨s₄, -, h⟩ := Option.bind_eq_some_iff.1 h
  obtain ⟨⟨day, s₅⟩, -, h⟩ := Option.bind_eq_some_iff.1 h
  simp only at h
  split at h
  · split at h
    · obtain ⟨s₆, -, h⟩ := Option.bind_eq_some_iff.1 h
      obtain ⟨⟨hour, s₇⟩, -, h⟩ := Option.bind_eq_some_iff.1 h
      obtain ⟨s₈, -, h⟩ := Option.bind_eq_some_iff.1 h
      obtain ⟨⟨minute, s₉⟩, -, h⟩ := Option.bind_eq_some_iff.1 h
      obtain ⟨s₁₀, -, h⟩ := Option.bind_eq_some_iff.1 h
      obtain ⟨⟨second, s₁₁⟩, -, h⟩ := Option.bind_eq_some_iff.1 h
      obtain ⟨⟨nanos, s₁₂⟩, -, h⟩ := Option.bind_eq_some_iff.1 h
      obtain ⟨offset, hoffset, h⟩ := Option.bind_eq_some_iff.1 h
      obtain ⟨hvalid, h⟩ := Option.ite_none_right_eq_some.1 h
      have hy := takeNumber?_lt hyear
      have hd := Date.dayNumber_bounds hvalid.1 (by simp only; omega) (by simp only; omega)
      have ho := offset?_bounds hoffset
      have hs := seconds_of? h
      unfold dayNumber
      omega
    · exact absurd h (by simp)
  · exact absurd h (by simp)

/-- **The year of an instant that a text gives**, in UTC. -/
theorem year_of_read? {s : String} {t : Instant} (h : read? s = some t) :
    -1 ≤ t.date.year ∧ t.date.year ≤ 10000 := by
  obtain ⟨hl, hu⟩ := readExact?_bounds h
  exact Date.year_ofDayNumber hl hu

/-! ## Years with a sign -/

/-- A year beyond the four digits opens with a sign. -/
theorem writeYear_of_not {y : Int} (h : ¬(0 ≤ y ∧ y ≤ 9999)) :
    ∃ c s, writeYear y = c :: s ∧ Text.isBlank c = false ∧ c.isDigit = false := by
  refine ⟨_, _, if_neg h, ?_, ?_⟩ <;> split <;> decide

theorem takeNumber?_eq_none {c : Char} (h : c.isDigit = false) (n : Nat) (s : List Char) :
    takeNumber? (n + 1) (c :: s) = none := by
  simp only [takeNumber?, List.take_succ_cons, List.all_cons, h, Bool.false_and, Bool.and_false,
    Bool.false_eq_true, if_false]

/-- The wire text of an instant in a year with a sign is refused. -/
theorem read?_wireText_eq_none {t : Instant} (h : ¬t.InFourDigitYear) : read? t.wireText = none := by
  obtain ⟨c, s, hyear, hblank, hdigit⟩ := writeYear_of_not h
  have hw : ∃ r, t.write .ticks = c :: r ++ ['Z'] := by
    rw [write, hyear]
    exact ⟨_, rfl⟩
  obtain ⟨r, hw⟩ := hw
  unfold read? wireText toText
  rw [String.toList_ofList, hw, Text.trim_eq_self hblank (by decide), List.cons_append]
  show (takeNumber? 4 _).bind _ = _
  rw [takeNumber?_eq_none hdigit]
  rfl

/-- **The wire text of an instant is read back exactly in the years of four digits.** -/
theorem read?_wireText_isSome_iff {t : Instant} : (read? t.wireText).isSome = true ↔ t.InFourDigitYear := by
  constructor
  · intro h
    by_contra hy
    rw [read?_wireText_eq_none hy] at h
    exact absurd h (by decide)
  · intro h
    rw [read?_wireText h]
    rfl

end CloudEvents.Instant
