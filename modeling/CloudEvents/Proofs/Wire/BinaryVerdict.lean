/-
  Whether a message in binary mode can be read.

  The reader takes the slots first and the other headers after that.  For the slots it looks at their own
  headers and at nothing else (`readSlots_congr`).  A header that is left over is set as an extension attribute,
  and the setter refuses two sorts of names.  A reserved name does not get there.  The empty name does, and so
  one header that is nobody's can make a message unreadable: the nameless one (`verdict_eq`).

  Main statement: `verdict_insert_iff`.
-/
import CloudEvents.Proofs.Wire.BinaryReading
import Mathlib.Data.List.Induction

namespace CloudEvents.Wire.Binary

variable {b : Binding} {h h' : Headers} {m : Message} {e : Event}

/-! ## The slots -/

/-- An event as the slots alone make it. -/
def readSlots (b : Binding) (h : Headers) : Except Error Event := do
  checkVersion b h
  let id ← readId b h
  let source ← slot b h Uri .source
  let dataContentType ← slot b h ContentType .datacontenttype
  let dataSchema ← slot b h Uri .dataschema
  let time ← slot b h Instant .time
  return { Event.blank b with
    id, source, dataContentType, dataSchema, time
    type := slotText? b h .type
    subject := slotText? b h .subject }

/-- Slots first, then the other headers, then the payload. -/
theorem decode_eq_readSlots (b : Binding) (m : Message) :
    decode b m = (do
      let e ← readSlots b m.headers
      let e ← setAttributes e (extensions b m.headers)
      return { e with data := some m.payload }) := by
  simp only [decode, readSlots, bind_assoc, pure_bind]

/-- **The slots hang on their own headers.** -/
theorem readSlots_congr (hsame : ∀ w, slotHeader? b h w = slotHeader? b h' w) : readSlots b h = readSlots b h' := by
  simp only [readSlots, checkVersion, readId, slot, slotText?, hsame]

/-! ## The verdict -/

/-- Whether a message can be read, and if it cannot, why. -/
def verdict (b : Binding) (m : Message) : Except Error Unit := (decode b m).map fun _ => ()

/-- Where no name is reserved, the setter refuses the empty name and no other. -/
theorem setAttributes_eq_error {l : List (String × String)} (hl : ∀ x ∈ l, isReserved x.1 = false)
    (hnot : ¬∀ x ∈ l, IsExtensionName x.1) : setAttributes e l = .error (.emptyArgument .attributeName) := by
  induction l generalizing e with
  | nil => exact absurd (by simp) hnot
  | cons x r ih =>
    obtain ⟨n, v⟩ := x
    obtain ⟨hn, hr⟩ := List.forall_mem_cons.1 hl
    rw [setAttributes]
    by_cases hne : n = ""
    · rw [Event.setAttribute, if_pos hne]
    · rw [Event.setAttribute_eq_ok_iff.2 ⟨hne, hn, rfl⟩]
      apply ih hr
      intro hall
      exact hnot (List.forall_mem_cons.2 ⟨⟨hne, hn⟩, hall⟩)

theorem isReserved_of_mem_extensions {x : String × String} (hx : x ∈ extensions b h) : isReserved x.1 = false := by
  obtain ⟨y, hy, rfl⟩ := List.mem_map.1 hx
  exact (isExtension_iff.1 (List.mem_filter.1 hy).2).2

/-- **A message can be read** if its slots can and no header is nameless. -/
theorem verdict_eq (b : Binding) (m : Message) :
    verdict b m = (readSlots b m.headers).bind fun _ =>
      if m.headers.get? "" = none then .ok () else .error (.emptyArgument .attributeName) := by
  rw [verdict, decode_eq_readSlots]
  cases readSlots b m.headers with
  | error err => rfl
  | ok e =>
    show Except.map _ (setAttributes e (extensions b m.headers) >>= _) = ite _ _ _
    by_cases hnameless : m.headers.get? "" = none
    · rw [if_pos hnameless, setAttributes_eq_ok_iff.2 ⟨forall_isExtensionName_iff.2 hnameless, rfl⟩]
      rfl
    · rw [if_neg hnameless, setAttributes_eq_error (fun _ => isReserved_of_mem_extensions)
        fun hall => hnameless (forall_isExtensionName_iff.1 hall)]
      rfl

/-- The verdict fails exactly where the decoder does, and with its error. -/
theorem verdict_eq_error_iff {err : Error} : verdict b m = .error err ↔ decode b m = .error err := by
  rw [verdict]
  cases decode b m <;> simp [Except.map]

/-- Only the headers of slots count, and whether there is a nameless one. -/
theorem verdict_congr {m' : Message} (hslots : ∀ w, slotHeader? b m'.headers w = slotHeader? b m.headers w)
    (hnameless : m'.headers.get? "" = none ↔ m.headers.get? "" = none) : verdict b m' = verdict b m := by
  rw [verdict_eq, verdict_eq, readSlots_congr hslots]
  simp only [hnameless]

/-! ## One header more -/

/-- No slot has a nameless header. -/
theorem empty_ne_headerName (b : Binding) (w : WellKnown) : "" ≠ b.headerName w.name :=
  (isExtension_iff.1 (isExtension_empty b)).1 w

/-- A nameless header is one more reason to fail, behind all others. -/
theorem verdict_nameless (b : Binding) (m : Message) (v : HeaderValue) :
    verdict b ⟨m.payload, m.headers.insert "" v⟩ =
      (verdict b m).bind fun _ => .error (.emptyArgument .attributeName) := by
  rw [verdict_eq, verdict_eq, readSlots_congr (slotHeader?_insert (empty_ne_headerName b) _ v),
    NameMap.get?_insert_self]
  cases readSlots b m.headers with
  | error err => rfl
  | ok e => by_cases hnameless : m.headers.get? "" = none <;> simp [hnameless, Except.bind]

/-- **A header that is nobody's does not change whether a message can be read, nor why it cannot**, unless it is
nameless and the message could be read without it; then it is refused as an attribute without a name.  But for
nameless headers, the verdict hangs on the headers of the slots alone. -/
theorem verdict_insert_iff (b : Binding) (m : Message) {n : String} (hn : ∀ w : WellKnown, n ≠ b.headerName w.name)
    (v : HeaderValue) :
    (verdict b ⟨m.payload, m.headers.insert n v⟩ = verdict b m ↔ n ≠ "" ∨ ∃ err, decode b m = .error err) ∧
      (n = "" → verdict b m = .ok () →
        decode b ⟨m.payload, m.headers.insert n v⟩ = .error (.emptyArgument .attributeName)) ∧
      ∀ m' : Message, (∀ w, slotHeader? b m'.headers w = slotHeader? b m.headers w) →
        (m'.headers.get? "" = none ↔ m.headers.get? "" = none) → verdict b m' = verdict b m := by
  refine ⟨?_, ?_, fun m' hslots hnameless => verdict_congr hslots hnameless⟩
  · by_cases hne : n = ""
    · subst hne
      rw [verdict_nameless]
      simp only [← verdict_eq_error_iff]
      cases verdict b m with
      | ok _ => simp [Except.bind]
      | error err => simp [Except.bind]
    · have hnameless : (m.headers.insert n v).get? "" = none ↔ m.headers.get? "" = none := by
        rw [NameMap.get?_insert_of_ne _ _ hne]
      exact iff_of_true (verdict_congr (slotHeader?_insert hn _ v) hnameless) (.inl hne)
  · rintro rfl hok
    rw [← verdict_eq_error_iff, verdict_nameless, hok]
    rfl

/-- A message with the headers that an envelope has to have. -/
def plainMessage : Message where
  payload := .text "x"
  headers := .ofList [("ce_id", .text "1"), ("ce_source", .text "/gates"), ("ce_type", .text "t")]

/-- What it is read as. -/
def plainEvent : Event :=
  { id := some "1", source := some ⟨"/gates", by decide⟩, type := some "t", data := some (.text "x"), binding := .http }

/-- A bare `time`, which under this binding is no time, may say anything. -/
theorem verdict_plainMessage_bareTime :
    (∀ w : WellKnown, "time" ≠ Binding.http.headerName w.name) ∧ decode .http plainMessage = .ok plainEvent ∧
      verdict .http ⟨plainMessage.payload, plainMessage.headers.insert "time" (.boolean true)⟩ = .ok () := by
  have hn : ∀ w : WellKnown, "time" ≠ Binding.http.headerName w.name := by
    intro w
    cases w <;> decide
  have hdecode : decode .http plainMessage = .ok plainEvent := by decide +kernel
  refine ⟨hn, hdecode, ?_⟩
  rw [(verdict_insert_iff .http plainMessage hn (.boolean true)).1.2 (.inl (by decide)), verdict, hdecode]
  rfl

/-- A nameless header makes the same message unreadable. -/
theorem decode_plainMessage_nameless :
    (∀ w : WellKnown, "" ≠ Binding.http.headerName w.name) ∧ decode .http plainMessage = .ok plainEvent ∧
      decode .http ⟨plainMessage.payload, plainMessage.headers.insert "" (.text "y")⟩ =
        .error (.emptyArgument .attributeName) := by
  refine ⟨empty_ne_headerName .http, ?_, ?_⟩ <;> decide +kernel

end CloudEvents.Wire.Binary
