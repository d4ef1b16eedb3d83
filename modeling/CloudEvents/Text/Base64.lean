/-
  Base 64, the standard alphabet with padding.

  Three octets make four letters; one or two octets left over make two or three letters and the
  padding that fills the group.  Reading is strict: the length is a multiple of four, the padding is
  there, and the bits that padding leaves unused are zero.  So each octet sequence has one written
  form, and nothing else is read.

  **Main law:** `decode?_eq_some_iff`, what is written is read back, and nothing else is read.
-/

namespace CloudEvents.Text.Base64

/-- The letter of a value below sixty-four. -/
def letter (n : Nat) : Char :=
  if n < 26 then Char.ofNat (65 + n)
  else if n < 52 then Char.ofNat (71 + n)
  else if n < 62 then Char.ofNat (n - 4)
  else if n = 62 then '+' else '/'

/-- The value of a letter. -/
def value? (c : Char) : Option Nat :=
  if 'A' ≤ c ∧ c ≤ 'Z' then some (c.toNat - 65)
  else if 'a' ≤ c ∧ c ≤ 'z' then some (c.toNat - 71)
  else if '0' ≤ c ∧ c ≤ '9' then some (c.toNat + 4)
  else if c = '+' then some 62
  else if c = '/' then some 63
  else none

/-- The written form of an octet sequence. -/
def encode : List UInt8 → List Char
  | [] => []
  | [a] =>
    let n := a.toNat
    [letter (n / 4), letter (n % 4 * 16), '=', '=']
  | [a, b] =>
    let n := a.toNat * 256 + b.toNat
    [letter (n / 1024), letter (n / 16 % 64), letter (n % 16 * 4), '=']
  | a :: b :: c :: r =>
    let n := (a.toNat * 256 + b.toNat) * 256 + c.toNat
    letter (n / 262144) :: letter (n / 4096 % 64) :: letter (n / 64 % 64) :: letter (n % 64) ::
      encode r

/-- The octets of a written form. -/
def decode? : List Char → Option (List UInt8)
  | [] => some []
  | [a, b, '=', '='] => do
    let x ← value? a
    let y ← value? b
    if y % 16 = 0 then some [UInt8.ofNat (x * 4 + y / 16)] else none
  | [a, b, c, '='] => do
    let x ← value? a
    let y ← value? b
    let z ← value? c
    if z % 4 = 0 then
      some [UInt8.ofNat (x * 4 + y / 16), UInt8.ofNat (y % 16 * 16 + z / 4)]
    else none
  | a :: b :: c :: d :: r => do
    let x ← value? a
    let y ← value? b
    let z ← value? c
    let w ← value? d
    let tail ← decode? r
    some (UInt8.ofNat (x * 4 + y / 16) :: UInt8.ofNat (y % 16 * 16 + z / 4) ::
      UInt8.ofNat (z % 4 * 64 + w) :: tail)
  | _ => none

/-- A letter of the alphabet stands for its place in it. -/
theorem value?_letter {n : Nat} (h : n < 64) : value? (letter n) = some n := by
  have key : ∀ n : Fin 64, value? (letter n.val) = some n.val := by decide
  exact key ⟨n, h⟩

theorem letter_ne_padding {n : Nat} (h : n < 64) : letter n ≠ '=' := by
  have key : ∀ n : Fin 64, letter n.val ≠ '=' := by decide
  exact key ⟨n, h⟩

theorem ofNat_eq {n : Nat} {a : UInt8} (h : n = a.toNat) : UInt8.ofNat n = a := by
  rw [h, UInt8.ofNat_toNat]

/-- **What is written is read back**, octet by octet. -/
theorem decode?_encode (bytes : List UInt8) : decode? (encode bytes) = some bytes := by
  fun_induction encode bytes with
  | case1 => rfl
  | case2 a n =>
    have ha := a.toNat_lt
    rw [decode?, value?_letter (by omega), value?_letter (by omega)]
    simp only [Option.bind_eq_bind, Option.bind_some]
    rw [if_pos (by omega), ofNat_eq (a := a) (by omega)]
  | case3 a b n =>
    have ha := a.toNat_lt
    have hb := b.toNat_lt
    have hc : letter (n % 16 * 4) ≠ '=' := letter_ne_padding (by omega)
    rw [decode?, value?_letter (by omega), value?_letter (by omega), value?_letter (by omega)]
    · simp only [Option.bind_eq_bind, Option.bind_some]
      rw [if_pos (by omega), ofNat_eq (a := a) (by omega), ofNat_eq (a := b) (by omega)]
    · exact hc
  | case4 a b c r n ih =>
    have ha := a.toNat_lt
    have hb := b.toNat_lt
    have hc := c.toNat_lt
    have hd : letter (n % 64) ≠ '=' := letter_ne_padding (by omega)
    rw [decode?, value?_letter (by omega), value?_letter (by omega), value?_letter (by omega),
      value?_letter (by omega), ih]
    · simp only [Option.bind_eq_bind, Option.bind_some]
      rw [ofNat_eq (a := a) (by omega), ofNat_eq (a := b) (by omega), ofNat_eq (a := c) (by omega)]
    · exact fun _ h _ => hd h
    · exact fun h _ => hd h

/-- Nothing but the letter of a value has that value. -/
theorem value?_eq_some {c : Char} {n : Nat} (h : value? c = some n) : n < 64 ∧ letter n = c := by
  have hrange : ∀ {a z : Char}, a ≤ c ∧ c ≤ z → a.toNat ≤ c.toNat ∧ c.toNat ≤ z.toNat := fun h => h
  have hchar : ∀ {k : Nat}, k = c.toNat → Char.ofNat k = c := fun hk => hk ▸ Char.ofNat_toNat c
  unfold value? at h
  unfold letter
  split at h
  · rename_i hc
    obtain ⟨hlow, hhigh⟩ := hrange hc
    obtain rfl := Option.some.inj h
    simp only [Char.reduceToNat] at hlow hhigh
    refine ⟨by omega, ?_⟩
    rw [if_pos (by omega)]
    exact hchar (by omega)
  · split at h
    · rename_i hc
      obtain ⟨hlow, hhigh⟩ := hrange hc
      obtain rfl := Option.some.inj h
      simp only [Char.reduceToNat] at hlow hhigh
      refine ⟨by omega, ?_⟩
      rw [if_neg (by omega), if_pos (by omega)]
      exact hchar (by omega)
    · split at h
      · rename_i hc
        obtain ⟨hlow, hhigh⟩ := hrange hc
        obtain rfl := Option.some.inj h
        simp only [Char.reduceToNat] at hlow hhigh
        refine ⟨by omega, ?_⟩
        rw [if_neg (by omega), if_neg (by omega), if_pos (by omega)]
        exact hchar (by omega)
      · split at h
        · rename_i hc
          obtain rfl := Option.some.inj h
          exact ⟨by decide, hc.symm⟩
        · split at h
          · rename_i hc
            obtain rfl := Option.some.inj h
            exact ⟨by decide, hc.symm⟩
          · exact absurd h (by simp)

theorem toNat_ofNat {n : Nat} (h : n < 256) : (UInt8.ofNat n).toNat = n := by
  rw [UInt8.toNat_ofNat']
  exact Nat.mod_eq_of_lt h

/-- Only what is written is read. -/
theorem decode?_eq_some {s : List Char} {bytes : List UInt8} (h : decode? s = some bytes) : s = encode bytes := by
  fun_induction decode? s generalizing bytes with
  | case1 =>
    cases h
    rfl
  | case2 a b =>
    simp only [Option.bind_eq_bind, Option.bind_eq_some_iff] at h
    obtain ⟨x, hx, y, hy, h⟩ := h
    obtain ⟨hx, rfl⟩ := value?_eq_some hx
    obtain ⟨hy, rfl⟩ := value?_eq_some hy
    split at h
    · obtain rfl := Option.some.inj h
      -- The bits that are left over have been tested to be zero.
      have hfirst : (x * 4 + y / 16) / 4 = x := by omega
      have hsecond : (x * 4 + y / 16) % 4 * 16 = y := by omega
      simp only [encode, toNat_ofNat (show x * 4 + y / 16 < 256 by omega), hfirst, hsecond]
    · exact absurd h (by simp)
  | case3 a b c =>
    simp only [Option.bind_eq_bind, Option.bind_eq_some_iff] at h
    obtain ⟨x, hx, y, hy, z, hz, h⟩ := h
    obtain ⟨hx, rfl⟩ := value?_eq_some hx
    obtain ⟨hy, rfl⟩ := value?_eq_some hy
    obtain ⟨hz, rfl⟩ := value?_eq_some hz
    split at h
    · obtain rfl := Option.some.inj h
      have hfirst : ((x * 4 + y / 16) * 256 + (y % 16 * 16 + z / 4)) / 1024 = x := by omega
      have hsecond : ((x * 4 + y / 16) * 256 + (y % 16 * 16 + z / 4)) / 16 % 64 = y := by omega
      have hthird : ((x * 4 + y / 16) * 256 + (y % 16 * 16 + z / 4)) % 16 * 4 = z := by omega
      simp only [encode, toNat_ofNat (show x * 4 + y / 16 < 256 by omega),
        toNat_ofNat (show y % 16 * 16 + z / 4 < 256 by omega), hfirst, hsecond, hthird]
    · exact absurd h (by simp)
  | case4 a b c d r _ _ ih =>
    simp only [Option.bind_eq_bind, Option.bind_eq_some_iff, Option.some.injEq] at h
    obtain ⟨x, hx, y, hy, z, hz, w, hw, tail, htail, rfl⟩ := h
    obtain ⟨hx, rfl⟩ := value?_eq_some hx
    obtain ⟨hy, rfl⟩ := value?_eq_some hy
    obtain ⟨hz, rfl⟩ := value?_eq_some hz
    obtain ⟨hw, rfl⟩ := value?_eq_some hw
    -- The three octets make up the number whose digits to the base 64 are the four values.
    have hgroup : ((x * 4 + y / 16) * 256 + (y % 16 * 16 + z / 4)) * 256 + (z % 4 * 64 + w) =
        ((x * 64 + y) * 64 + z) * 64 + w := by omega
    have hfirst : (((x * 64 + y) * 64 + z) * 64 + w) / 262144 = x := by omega
    have hsecond : (((x * 64 + y) * 64 + z) * 64 + w) / 4096 % 64 = y := by omega
    have hthird : (((x * 64 + y) * 64 + z) * 64 + w) / 64 % 64 = z := by omega
    have hfourth : (((x * 64 + y) * 64 + z) * 64 + w) % 64 = w := by omega
    simp only [encode, toNat_ofNat (show x * 4 + y / 16 < 256 by omega),
      toNat_ofNat (show y % 16 * 16 + z / 4 < 256 by omega), toNat_ofNat (show z % 4 * 64 + w < 256 by omega),
      hgroup, hfirst, hsecond, hthird, hfourth, ih htail]
  | case5 => exact absurd h (by simp)

/-- **An octet sequence has one written form**, and nothing else is read as it. -/
theorem decode?_eq_some_iff {s : List Char} {bytes : List UInt8} : decode? s = some bytes ↔ s = encode bytes := by
  constructor
  · exact decode?_eq_some
  · rintro rfl
    exact decode?_encode bytes

example : encode [77, 97] = ['T', 'W', 'E', '='] := by decide
example : decode? ['T', 'W', 'E', '='] = some [77, 97] := by decide
example : decode? ['T', 'W', 'F', '='] = none := by decide

end CloudEvents.Text.Base64
