/-
  A text that travels as octets.

  A sender writes a text and the receiver may be handed octets.  What mode a message is in hangs on its headers,
  and the payload passes that step untouched (`exists_receive`).  From there on the two modes differ.  A document
  is read as a text, and the text of the octets of a text is that text, because decoding UTF-8 gives back whatever
  was encoded (`asText_toUTF8`).  In binary mode the payload is the data, and data that came as octets stays
  octets (`Binary.decode_payload`).

  The octets are those that the core library has for a string, so that encoder and decoder do not just agree with
  each other (`encode_eq_toUTF8`).

  Main statement: `decode_toUTF8`.
-/
import CloudEvents.Proofs.Wire.BinaryVerdict
import CloudEvents.Proofs.Wire.Framing

namespace CloudEvents

/-! ## The octets of a text -/

namespace Text.Utf8

/-- The first octet of several is cut to the bits it has room for, which changes nothing. -/
theorem encodeChar_eq (c : Char) : encodeChar c = String.utf8EncodeChar c := by
  have hvalid := c.valid
  simp only [UInt32.isValidChar, Nat.isValidChar] at hvalid
  have hn : c.val.toNat = c.toNat := rfl
  rw [hn] at hvalid
  unfold encodeChar String.utf8EncodeChar
  simp only [hn]
  generalize c.toNat = n at hvalid
  have h1 : n ≤ 127 ↔ n < 0x80 := by omega
  have h2 : n ≤ 2047 ↔ n < 0x800 := by omega
  have h3 : n ≤ 65535 ↔ n < 0x10000 := by omega
  have hnext : ∀ k, k % 64 + 128 = 0x80 + k % 64 := fun k => Nat.add_comm _ _
  simp only [h1, h2, h3, hnext]
  split
  · rfl
  · split
    · rw [show n / 64 % 32 + 192 = 0xC0 + n / 64 by omega]
    · split
      · rw [show n / 4096 % 16 + 224 = 0xE0 + n / 4096 by omega]
      · rw [show n / 262144 % 8 + 240 = 0xF0 + n / 262144 by omega]

theorem encode_eq_toUTF8 (s : String) : encode s.toList = s.toUTF8.data.toList := by
  rw [String.toUTF8, ← String.utf8Encode_toList, List.utf8Encode, List.data_toByteArray, encode,
    funext encodeChar_eq]

end Text.Utf8

/-- **The octets of a text are read as that text.** -/
theorem Payload.asText_toUTF8 (s : String) : (Payload.octets s.toUTF8.data.toList).asText = s := by
  rw [← Text.Utf8.encode_eq_toUTF8]
  exact asText_octets_asOctets s

namespace Wire

/-! ## The payload of a message -/

/-- What mode a message is in, and what its headers are then, does not hang on its payload. -/
theorem exists_receive (b : Binding) (h : Headers) : ∃ h' mode, ∀ p, receive b ⟨p, h⟩ = (⟨p, h'⟩, mode) := by
  unfold receive
  cases b.rewrites with
  | false => exact ⟨h, detectMode h, fun _ => rfl⟩
  | true => exact ⟨(Record.incoming b h).1, (Record.incoming b h).2, fun _ => rfl⟩

/-- Reading a message in binary mode only takes its payload along. -/
theorem Binary.decode_payload (b : Binding) (p q : Payload) (h : Headers) :
    Binary.decode b ⟨q, h⟩ = (Binary.decode b ⟨p, h⟩).map fun e => { e with data := some q } := by
  rw [decode_eq_readSlots, decode_eq_readSlots]
  cases readSlots b h with
  | error err => rfl
  | ok e =>
    show (setAttributes e (extensions b h) >>= _) = Except.map _ (setAttributes e (extensions b h) >>= _)
    cases setAttributes e (extensions b h) <;> rfl

/-- **A text may travel as octets.** -/
theorem decode_toUTF8 (b : Binding) (h : Headers) (s : String) :
    decode b ⟨.octets s.toUTF8.data.toList, h⟩ =
      match (receive b ⟨.text s, h⟩).2 with
      | .ok .structured => decode b ⟨.text s, h⟩
      | .ok .binary =>
        (decode b ⟨.text s, h⟩).map fun e => { e with data := some (.octets s.toUTF8.data.toList) }
      | .error err => .error err := by
  obtain ⟨h', mode, hreceive⟩ := exists_receive b h
  rw [decode_eq, decode_eq, hreceive, hreceive]
  match mode with
  | .ok .structured =>
    show Structured.decode b (Payload.octets _).asText = Structured.decode b s
    rw [Payload.asText_toUTF8]
  | .ok .binary => exact Binary.decode_payload b (.text s) _ h'
  | .error err => rfl

end Wire

end CloudEvents
