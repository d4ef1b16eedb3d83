/-
  UTF-8: from characters to octets and back.

  Decoding is one pass over the octets.  Between two characters the decoder holds nothing; inside
  one it holds how many octets are still owed, the bounds on the next of them, and the bits read so
  far.  The bounds are what keeps out overlong forms, surrogates and values past the last code
  point.  An octet that does not fit ends the sequence in front of it as ill-formed and is looked at
  again as the start of a new one, so each ill-formed stretch is the longest start of a character
  that is there.

  `units` is the result with `none` for each ill-formed stretch.  The lossy reading puts the
  replacement character there, the strict one refuses the text.  **Main law:** `units_encode`, a
  text written by `encode` is read back as it was, with nothing ill-formed in it.
-/

namespace CloudEvents.Text.Utf8

/-- The octets of a character. -/
def encodeChar (c : Char) : List UInt8 :=
  let n := c.toNat
  if n < 0x80 then [UInt8.ofNat n]
  else if n < 0x800 then [UInt8.ofNat (0xC0 + n / 64), UInt8.ofNat (0x80 + n % 64)]
  else if n < 0x10000 then
    [UInt8.ofNat (0xE0 + n / 4096), UInt8.ofNat (0x80 + n / 64 % 64), UInt8.ofNat (0x80 + n % 64)]
  else
    [UInt8.ofNat (0xF0 + n / 262144), UInt8.ofNat (0x80 + n / 4096 % 64),
      UInt8.ofNat (0x80 + n / 64 % 64), UInt8.ofNat (0x80 + n % 64)]

/-- The octets of a text. -/
def encode (s : List Char) : List UInt8 := s.flatMap encodeChar

/-- Inside a character: the octets still owed after the next one, the bounds on the next one, and the
value of the bits read so far. -/
structure Partial where
  owed : Nat
  low : Nat
  high : Nat
  value : Nat

/-- What an octet is at the start of a character. -/
inductive Lead where
  /-- A character by itself. -/
  | single (c : Char)
  /-- The first octet of several. -/
  | opens (p : Partial)
  /-- No character starts with it. -/
  | stray

/-- The reading of an octet between two characters. -/
def lead (b : Nat) : Lead :=
  -- C0, C1 and the low ranges behind E0 and F0 would be overlong, the high range behind ED surrogates,
  -- and the high range behind F4 past the last code point.
  if b < 0x80 then .single (Char.ofNat b)
  else if b < 0xC2 then .stray
  else if b < 0xE0 then .opens ⟨0, 0x80, 0xBF, b - 0xC0⟩
  else if b = 0xE0 then .opens ⟨1, 0xA0, 0xBF, 0⟩
  else if b = 0xED then .opens ⟨1, 0x80, 0x9F, 13⟩
  else if b < 0xF0 then .opens ⟨1, 0x80, 0xBF, b - 0xE0⟩
  else if b = 0xF0 then .opens ⟨2, 0x90, 0xBF, 0⟩
  else if b < 0xF4 then .opens ⟨2, 0x80, 0xBF, b - 0xF0⟩
  else if b = 0xF4 then .opens ⟨2, 0x80, 0x8F, 4⟩
  else .stray

/-- The characters of an octet sequence, with `none` for each ill-formed stretch; the first argument
is the character that is begun, if one is. -/
def unitsFrom : Option Partial → List UInt8 → List (Option Char)
  | none, [] => []
  | some _, [] => [none]
  | none, b :: r =>
    match lead b.toNat with
    | .single c => some c :: unitsFrom none r
    | .opens p => unitsFrom (some p) r
    | .stray => none :: unitsFrom none r
  | some p, b :: r =>
    if p.low ≤ b.toNat ∧ b.toNat ≤ p.high then
      let value := 64 * p.value + (b.toNat - 0x80)
      match p.owed with
      | 0 => some (Char.ofNat value) :: unitsFrom none r
      | owed + 1 => unitsFrom (some ⟨owed, 0x80, 0xBF, value⟩) r
    else
      none ::
        match lead b.toNat with
        | .single c => some c :: unitsFrom none r
        | .opens q => unitsFrom (some q) r
        | .stray => none :: unitsFrom none r

/-- The characters of an octet sequence, with `none` for each ill-formed stretch. -/
def units (bytes : List UInt8) : List (Option Char) := unitsFrom none bytes

/-- The character that stands for an ill-formed stretch. -/
def replacement : Char := Char.ofNat 0xFFFD

/-- The text of an octet sequence, each ill-formed stretch replaced. -/
def decodeLossy (bytes : List UInt8) : List Char := (units bytes).map (·.getD replacement)

/-- The text of a well-formed octet sequence. -/
def decode? (bytes : List UInt8) : Option (List Char) := (units bytes).mapM id

/-! ## A written text is read back -/

private theorem toNat_ofNat_of_lt {n : Nat} (h : n < 256) : (UInt8.ofNat n).toNat = n := by
  simp only [UInt8.toNat_ofNat']
  omega

/-- **The octets of one character** are read as that character, whatever stands behind them. -/
theorem unitsFrom_encodeChar (c : Char) (r : List UInt8) :
    unitsFrom none (encodeChar c ++ r) = some c :: unitsFrom none r := by
  have hv : c.toNat < 0x110000 ∧ ¬(0xD800 ≤ c.toNat ∧ c.toNat ≤ 0xDFFF) := by
    have h := c.valid
    simp only [UInt32.isValidChar, Nat.isValidChar] at h
    have : c.val.toNat = c.toNat := rfl
    omega
  have hc : Char.ofNat c.toNat = c := Char.ofNat_toNat c
  generalize hn : c.toNat = n at hv hc
  unfold encodeChar
  simp only [hn]
  split
  · rename_i h
    have e := toNat_ofNat_of_lt (n := n) (by omega)
    simp [unitsFrom, lead, e, h, hc]
  · split
    · rename_i h0 h
      have e1 := toNat_ofNat_of_lt (n := 0xC0 + n / 64) (by omega)
      have e2 := toNat_ofNat_of_lt (n := 0x80 + n % 64) (by omega)
      have v : 64 * (n / 64) + n % 64 = n := by omega
      have l : lead (0xC0 + n / 64) = .opens ⟨0, 0x80, 0xBF, n / 64⟩ := by
        unfold lead
        rw [if_neg (by omega), if_neg (by omega), if_pos (by omega)]
        simp
      have b : 0x80 ≤ 0x80 + n % 64 ∧ 0x80 + n % 64 ≤ 0xBF := by omega
      simp only [List.cons_append, List.nil_append, unitsFrom, e1, l, e2, b, and_self, if_true,
        Nat.add_sub_cancel_left, v, hc]
    · split
      · rename_i h0 h1 h
        have e1 := toNat_ofNat_of_lt (n := 0xE0 + n / 4096) (by omega)
        have e2 := toNat_ofNat_of_lt (n := 0x80 + n / 64 % 64) (by omega)
        have e3 := toNat_ofNat_of_lt (n := 0x80 + n % 64) (by omega)
        have v : 64 * (64 * (n / 4096) + n / 64 % 64) + n % 64 = n := by omega
        have b3 : 0x80 ≤ 0x80 + n % 64 ∧ 0x80 + n % 64 ≤ 0xBF := by omega
        have l : ∃ lo hi, lead (0xE0 + n / 4096) = .opens ⟨1, lo, hi, n / 4096⟩ ∧
            lo ≤ 0x80 + n / 64 % 64 ∧ 0x80 + n / 64 % 64 ≤ hi := by
          unfold lead
          rw [if_neg (by omega), if_neg (by omega), if_neg (by omega)]
          split
          · exact ⟨0xA0, 0xBF, by rw [show n / 4096 = 0 by omega], by omega, by omega⟩
          · split
            · exact ⟨0x80, 0x9F, by rw [show n / 4096 = 13 by omega], by omega, by omega⟩
            · rw [if_pos (by omega)]
              exact ⟨0x80, 0xBF, by simp, by omega, by omega⟩
        obtain ⟨lo, hi, l, b1, b2⟩ := l
        simp only [List.cons_append, List.nil_append, unitsFrom, e1, l, e2, e3, b1, b2, b3, and_self,
          if_true, Nat.add_sub_cancel_left, v, hc]
      · rename_i h0 h1 h2
        have e1 := toNat_ofNat_of_lt (n := 0xF0 + n / 262144) (by omega)
        have e2 := toNat_ofNat_of_lt (n := 0x80 + n / 4096 % 64) (by omega)
        have e3 := toNat_ofNat_of_lt (n := 0x80 + n / 64 % 64) (by omega)
        have e4 := toNat_ofNat_of_lt (n := 0x80 + n % 64) (by omega)
        have v : 64 * (64 * (64 * (n / 262144) + n / 4096 % 64) + n / 64 % 64) + n % 64 = n := by
          omega
        have b3 : 0x80 ≤ 0x80 + n / 64 % 64 ∧ 0x80 + n / 64 % 64 ≤ 0xBF := by omega
        have b4 : 0x80 ≤ 0x80 + n % 64 ∧ 0x80 + n % 64 ≤ 0xBF := by omega
        have l : ∃ lo hi, lead (0xF0 + n / 262144) = .opens ⟨2, lo, hi, n / 262144⟩ ∧
            lo ≤ 0x80 + n / 4096 % 64 ∧ 0x80 + n / 4096 % 64 ≤ hi := by
          unfold lead
          rw [if_neg (by omega), if_neg (by omega), if_neg (by omega), if_neg (by omega),
            if_neg (by omega), if_neg (by omega)]
          split
          · exact ⟨0x90, 0xBF, by rw [show n / 262144 = 0 by omega], by omega, by omega⟩
          · split
            · exact ⟨0x80, 0xBF, by simp, by omega, by omega⟩
            · rw [if_pos (by omega)]
              exact ⟨0x80, 0x8F, by rw [show n / 262144 = 4 by omega], by omega, by omega⟩
        obtain ⟨lo, hi, l, b1, b2⟩ := l
        simp only [List.cons_append, List.nil_append, unitsFrom, e1, l, e2, e3, e4, b1, b2, b3, b4,
          and_self, if_true, Nat.add_sub_cancel_left, v, hc]

/-- A text written as octets has no ill-formed stretch and is read back character for character. -/
theorem units_encode (s : List Char) : units (encode s) = s.map some := by
  unfold units encode
  induction s with
  | nil => rfl
  | cons c s ih => simp [List.flatMap_cons, unitsFrom_encodeChar, ih]

/-- Nothing is replaced in what was encoded. -/
theorem decodeLossy_encode (s : List Char) : decodeLossy (encode s) = s := by
  simp [decodeLossy, units_encode, Function.comp_def]

/-- Nothing that was encoded is refused. -/
theorem decode?_encode (s : List Char) : decode? (encode s) = some s := by
  unfold decode?
  rw [units_encode]
  induction s with
  | nil => rfl
  | cons c s ih => simp [ih]

end CloudEvents.Text.Utf8
