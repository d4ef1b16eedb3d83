/-
  The time of an event that is received and sent on.

  An event that was read has the time that its message gave as a text, in UTC, and sending it on writes
  that instant anew.  What can go wrong is the year: in UTC it may have left the years of four digits
  (`year_of_read?`), and then the text that is written is not read (`read?_wireText_isSome_iff`).  The two
  modes meet this differently.  Publishing in binary mode looks at the headers once more and puts the
  current time in the place of one that cannot be read (`outgoing_eq`); a document goes out as it is and is
  refused by whoever receives it (`decode_encode_eq_error`).  Only where there are headers for instants can
  every time be carried (`Carries`).

  Main statement: `relay_time`.
-/
import CloudEvents.Proofs.Channel.Publishing
import CloudEvents.Proofs.Event.Reachable
import CloudEvents.Proofs.Time.Range
import CloudEvents.Proofs.Wire.BinaryRoundTrip
import CloudEvents.Proofs.Wire.StructuredRoundTrip

namespace CloudEvents.Wire

/-! ## Publishing -/

/-- What a configuration can carry of time: an instant as it is, or one in a year of four digits. -/
def Carries (c : Config) (t : Instant) : Prop :=
  (c.binding = .amqp ∧ c.mode = .binary) ∨ t.InFourDigitYear

instance (c : Config) (t : Instant) : Decidable (Carries c t) := inferInstanceAs (Decidable (_ ∨ _))

section Sending

variable {c : Config} {e : Event} {f : Fresh}

/-- The slots keep their headers in a record, but for the data content type. -/
theorem get?_encode (hm : c.mode = .binary) (hw : e.WellFormed) (hn : e.HasPlainNames) {w : WellKnown}
    (hct : w ≠ .datacontenttype) :
    (encode c e f).headers.get? (c.binding.headerName w.name) = Binary.slotValue? c.binding e f w := by
  rw [← Binary.slotHeader?_headers hw hn w]
  exact slotHeader?_encode_eq hm hct

/-- Another time changes one header. -/
theorem encode_time (hm : c.mode = .binary) (t : Instant) :
    encode c { e with time := some t } f =
      { encode c e f with
        headers := (encode c e f).headers.insert (c.binding.headerName WellKnown.time.name)
          (Binary.timeValue c.binding t) } := by
  rw [encode_of_binary hm, encode_of_binary hm, Binary.headers_time]
  cases c.binding.rewrites with
  | false => rfl
  | true =>
    simp only [if_true]
    rw [Record.outgoing_insert (Record.isFixed_headerName _ (by decide))]
    rfl

/-- A time is read from its header if the configuration can carry it. -/
theorem isSome_timeValue_iff (hm : c.mode = .binary) {t : Instant} :
    ((Binary.timeValue c.binding t).read? Instant).isSome = true ↔ Carries c t := by
  by_cases hb : c.binding = .amqp
  · rw [hb]
    exact iff_of_true rfl (.inl ⟨hb, hm⟩)
  · have htime : c.binding.hasTimeHeaders = false := by
      revert hb
      cases c.binding <;> decide
    rw [Binary.timeValue, htime, if_neg (by decide), HeaderValue.read?_text_instant,
      Instant.read?_wireText_isSome_iff]
    exact ⟨.inr, fun h => h.resolve_left fun h => hb h.1⟩

/-- The event as it is published.  In binary mode a time that cannot be carried gives way to the current
one. -/
def published (c : Config) (e : Event) (f : Fresh) : Event :=
  if c.mode = .binary ∧ ¬Carries c (e.timeOr f) then { e with time := some f.now } else e

/-- **What publishing sends** is the message of the event as it is published. -/
theorem outgoing_eq (hw : e.WellFormed) (hn : e.HasPlainNames) (hc : Validation.checkEvent e = .ok ()) :
    Channel.outgoing c e f = .ok (encode c (published c e f) f) := by
  cases hm : c.mode with
  | structured =>
    rw [published, if_neg (by rw [hm]; simp)]
    simp only [Channel.outgoing, hc, hm]
    rfl
  | binary =>
    have hfill : Validation.fillTime c.binding f (encode c e f).headers =
        (encode c (published c e f) f).headers := by
      have hread : (encode c e f).headers.read? Instant (c.binding.headerName WellKnown.time.name) =
          (Binary.timeValue c.binding (e.timeOr f)).read? Instant := by
        rw [Headers.read?, get?_encode hm hw hn (by decide)]
        rfl
      simp only [Validation.fillTime, hread, isSome_timeValue_iff hm, published, hm, true_and]
      by_cases ht : Carries c (e.timeOr f)
      · rw [if_pos ht, if_neg (not_not.2 ht)]
      · rw [if_neg ht, if_pos ht, encode_time hm]
    have hsent : encode c (published c e f) f =
        { encode c e f with headers := (encode c (published c e f) f).headers } := by
      unfold published
      split
      · rw [encode_time hm]
      · rfl
    rw [hsent, ← hfill]
    exact Channel.outgoing_of_validateHeaders hc hm (validateHeaders_encode hm hc f)

end Sending

/-! ## Receiving -/

namespace Structured

/-- A member that reads as no time is an error that names the member. -/
theorem setMember_time_eq_error {e : Event} {v : String} (hv : Instant.read? v = none) :
    setMember e WellKnown.time.name v = .error (.invalid (.invalidMember WellKnown.time.name)) := by
  rw [setMember, slotOfName?_name]
  simp only [hv]

variable {e : Event} {f : Fresh}

/-- A document is refused for its time. -/
theorem decode_encode_eq_error (b : Binding) (style : Json.Style) (hw : e.WellFormed)
    (ht : ¬(e.timeOr f).InFourDigitYear) :
    decode b (encode style e f) = .error (.invalid (.invalidMember WellKnown.time.name)) := by
  have hget := get?_documentMembers (f := f) hw
  have htime : (textMembers e f).get? WellKnown.time.name = some (e.timeOr f).wireText :=
    get?_textMembers_name hw .time
  have hraw : (attributeMembers (.ofList (documentMembers e f))).get? WellKnown.time.name =
      some (Json.quote (e.timeOr f).wireText.toList) := by
    rw [get?_attributeMembers, if_neg (by decide), hget, if_neg (by decide), htime]
    rfl
  -- Every other member is accepted, so wherever the time comes in their order, it is what the reader stops at.
  have hset := setMembers_eq_error (NameMap.mem_entries_iff.2 hraw) (Json.literal?_quote _)
    (fun e => setMember_time_eq_error (e := e) (Instant.read?_wireText_eq_none ht)) ?_ (.blank b)
  · unfold decode
    rw [members_encode]
    show (checkVersion _ >>= fun _ => readData _ >>= fun data => setMembers _ _ >>= _) = _
    rw [checkVersion_documentMembers hw, readData_documentMembers hw]
    show (setMembers _ _ >>= _) = _
    rw [hset]
    rfl
  · rintro ⟨n, raw⟩ hmem hne
    have hn := NameMap.mem_entries_iff.1 hmem
    have hnt : n ≠ WellKnown.time.name := by
      rintro rfl
      rw [hraw] at hn
      exact hne (by rw [Option.some.inj hn])
    rw [get?_attributeMembers] at hn
    split at hn
    · exact absurd hn (by simp)
    · rename_i hfixed
      rw [not_or, not_or] at hfixed
      rw [hget, if_neg hfixed.2.2] at hn
      obtain ⟨v, hv, rfl⟩ := Option.map_eq_some_iff.1 hn
      exact ⟨v, Json.literal?_quote v, accepts_textMembers hw (fun h => absurd h hnt) hfixed hv⟩

end Structured

section Arriving

variable {c : Config} {e : Event} {f : Fresh}

/-- The time of an event as it arrives. -/
def carried (c : Config) (t : Instant) : Instant :=
  if c.binding = .amqp ∧ c.mode = .binary then t else t.truncate

/-- **A time that can be carried arrives.** -/
theorem decode_encode_time (hw : e.WellFormed) (hn : e.HasPlainNames) (hd : ¬e.DeclaresEnvelope)
    (ht : Carries c (e.timeOr f)) :
    ∃ d, decode c.binding (encode c e f).received = .ok d ∧ d.time = some (carried c (e.timeOr f)) := by
  cases hm : c.mode with
  | structured =>
    have hy : (e.timeOr f).InFourDigitYear := ht.resolve_left fun h => by rw [hm] at h; simp at h
    have harrives := Structured.decode_eq_ok_iff.2 ⟨_, Structured.members_encode c.style e f,
      Structured.describes_documentMembers c.binding hw hy⟩
    refine ⟨_, (decode_encode_structured hm).trans harrives, ?_⟩
    rw [carried, if_neg (by rw [hm]; simp)]
  | binary =>
    have hy : c.binding ≠ .amqp → (e.timeOr f).InFourDigitYear := fun h => ht.resolve_left fun h' => h h'.1
    have harrives := Binary.decode_eq_ok_iff.2 (Binary.describes_encode hw hn hy)
    refine ⟨_, (decode_encode_binary hn hm fun h => hd h.2).trans harrives, ?_⟩
    simp only [Binary.arriving, carried, hm, and_true]

/-- A document whose time has a sign is refused. -/
theorem decode_encode_refused (hm : c.mode = .structured) (hw : e.WellFormed)
    (ht : ¬(e.timeOr f).InFourDigitYear) :
    decode c.binding (encode c e f).received =
      .error (.invalid (.invalidMember WellKnown.time.name)) := by
  rw [decode_encode_structured hm]
  exact Structured.decode_encode_eq_error c.binding c.style hw ht

end Arriving

/-! ## Relaying -/

/-- The text in which a message gives its time, if it gives it by a text. -/
def timeText? (b : Binding) (m : Message) : Option String :=
  match receive b m with
  | (_, .error _) => none
  | (m, .ok .binary) => (Binary.slotHeader? b m.headers .time).bind HeaderValue.text?
  | (m, .ok .structured) =>
    (Structured.members m.payload.asText.toList).toOption.bind fun ms =>
      Structured.member? ms WellKnown.time.name

/-- The time of a binary message is what the text of its header reads as. -/
theorem Binary.Describes.time_eq {b : Binding} {m : Message} {e : Event} {s : String}
    (h : Describes b m e) (hs : (slotHeader? b m.headers .time).bind HeaderValue.text? = some s) :
    ∃ t, Instant.read? s = some t ∧ e.time = some t := by
  obtain ⟨v, hv, htext⟩ := Option.bind_eq_some_iff.1 hs
  have ht := h.time
  rw [slot, hv] at ht
  cases v <;> simp only [HeaderValue.text?, Option.some.injEq, reduceCtorEq] at htext
  subst htext
  simp only [HeaderValue.read?_text_instant] at ht
  split at ht
  · rename_i t hread
    exact ⟨t, hread, (Except.ok.inj ht).symm⟩
  · exact absurd ht (by simp)

/-- The time of a document is what the text of its member reads as. -/
theorem Structured.Describes.time_eq {b : Binding} {ms : NameMap (List Char)} {e : Event} {s : String}
    (h : Describes b ms e) (hs : member? ms WellKnown.time.name = some s) :
    ∃ t, Instant.read? s = some t ∧ e.time = some t := by
  obtain ⟨raw, hraw, htext⟩ := Option.bind_eq_some_iff.1 hs
  have ht := h.time
  rw [hs, Option.bind_some] at ht
  obtain ⟨v, hv, ha⟩ := h.accepted WellKnown.time.name raw (by
    rw [get?_attributeMembers, if_neg (by decide), hraw])
  obtain rfl := Option.some.inj (htext.symm.trans hv)
  rw [Accepts, slotOfName?_name] at ha
  obtain ⟨t, hread⟩ := Option.isSome_iff_exists.1 ha
  exact ⟨t, hread, ht.trans hread⟩

/-- The time of a received event is what its text is read as. -/
theorem time_eq_read? {b : Binding} {m : Message} {e : Event} {s : String} (h : decode b m = .ok e)
    (hs : timeText? b m = some s) : ∃ t, Instant.read? s = some t ∧ e.time = some t := by
  unfold decode at h
  unfold timeText? at hs
  rcases hr : receive b m with ⟨m', mode⟩
  rw [hr] at h hs
  cases mode with
  | error err => exact absurd hs (by simp)
  | ok mode =>
    cases mode with
    | binary => exact (Binary.decode_eq_ok_iff.1 h).time_eq hs
    | structured =>
      obtain ⟨ms, hms, hdescribes⟩ := Structured.decode_eq_ok_iff.1 h
      simp only [hms] at hs
      exact hdescribes.time_eq hs

/-- **Relaying keeps the time that a text gave**, as far as the configuration can carry it.  What cannot be
carried is the last hours of the year before 0 and the first hours of the year after 9999, which a text
reaches by its offset.  A document with such a time is refused by its receiver, and in binary mode the
event arrives with the time at which it was sent on. -/
theorem relay_time (c : Config) (f : Fresh) {b : Binding} {m : Message} {e : Event} {s : String}
    (h : decode b m = .ok e) (hs : timeText? b m = some s) (hc : Validation.checkEvent e = .ok ())
    (hn : e.HasPlainNames) (hd : ¬e.DeclaresEnvelope) :
    ∃ t x, Instant.read? s = some t ∧ e.time = some t ∧ Channel.outgoing c e f = .ok x ∧
      (Carries c t →
        ∃ d, decode c.binding x.received = .ok d ∧ d.time = some (carried c t)) ∧
      (¬Carries c t → t.date.year = -1 ∨ t.date.year = 10000) ∧
      (¬Carries c t → c.mode = .structured →
        decode c.binding x.received = .error (.invalid (.invalidMember WellKnown.time.name))) ∧
      (¬Carries c t → c.mode = .binary → f.now.InFourDigitYear →
        ∃ d, decode c.binding x.received = .ok d ∧ d.time = some f.now.truncate) := by
  obtain ⟨t, hread, ht⟩ := time_eq_read? h hs
  have hw := wellFormed_decode h
  have htime : e.timeOr f = t := by rw [Event.timeOr, ht]; rfl
  refine ⟨t, _, hread, ht, outgoing_eq hw hn hc, ?_, ?_, ?_, ?_⟩
  · intro hcarries
    rw [published, if_neg (by rw [htime]; exact fun h => h.2 hcarries), ← htime]
    exact decode_encode_time hw hn hd (by rw [htime]; exact hcarries)
  · intro hcarries
    have hyear := Instant.year_of_read? hread
    have hfour : ¬(0 ≤ t.date.year ∧ t.date.year ≤ 9999) := fun h => hcarries (.inr h)
    omega
  · intro hcarries hm
    rw [published, if_neg (by rw [hm]; simp)]
    refine decode_encode_refused hm hw ?_
    rw [htime]
    exact fun h => hcarries (.inr h)
  · intro hcarries hm hnow
    rw [published, if_pos ⟨hm, by rw [htime]; exact hcarries⟩]
    obtain ⟨d, hdecode, hdtime⟩ := decode_encode_time (c := c) (e := { e with time := some f.now }) (f := f)
      (hw.of_eq rfl rfl) hn hd (.inr hnow)
    have hamqp : ¬(c.binding = .amqp ∧ c.mode = .binary) := fun h => hcarries (.inl h)
    rw [carried, if_neg hamqp] at hdtime
    exact ⟨d, hdecode, hdtime⟩

/-- A message whose time is written at another place on earth. -/
def messageAt (time : String) : Message where
  payload := .text "x"
  headers :=
    .ofList [("ce_id", .text "1"), ("ce_source", .text "/s"), ("ce_type", .text "t"), ("ce_time", .text time)]

/-- The event of such a message. -/
def eventAt (time : Option Instant) : Event where
  id := some "1"
  source := some ⟨"/s", by decide +kernel⟩
  type := some "t"
  time := time
  data := some (.text "x")
  binding := .http

theorem decode_messageAt_cairo :
    decode .http (messageAt "2024-01-01T02:00:00.123456789+02:00") =
      .ok (eventAt (Instant.of? 1704067200 123456789)) := by
  decide +kernel

/-- The last hour of the year 9999 west of Greenwich is read in the year 10000. -/
theorem decode_messageAt_lastHour :
    decode .http (messageAt "9999-12-31T23:59:59-01:00") = .ok (eventAt (Instant.of? 253402304399 0)) := by
  decide +kernel

/-- A time in Cairo arrives in UTC, down to a hundred nanoseconds. -/
theorem relay_time_cairo :
    decode .http (messageAt "2024-01-01T02:00:00.123456789+02:00") =
        .ok (eventAt (Instant.of? 1704067200 123456789)) ∧
      ∃ x d, Channel.outgoing ⟨.kafka, .binary, false⟩ (eventAt (Instant.of? 1704067200 123456789)) default =
          .ok x ∧
        decode .kafka x.received = .ok d ∧ d.time = Instant.of? 1704067200 123456700 := by
  obtain ⟨t, x, -, ht, hsent, hkept, -⟩ := relay_time ⟨.kafka, .binary, false⟩ default
    decode_messageAt_cairo (s := "2024-01-01T02:00:00.123456789+02:00") (by decide +kernel)
    (by decide +kernel) (by decide +kernel) (by decide +kernel)
  obtain rfl := Option.some.inj ht
  obtain ⟨d, hdecode, hd⟩ := hkept (by decide +kernel)
  exact ⟨decode_messageAt_cairo, x, d, hsent, hdecode, hd⟩

/-- The last hour of 9999 at a place west of Greenwich is lost: as a document it is refused, and in binary
mode the current time takes its place. -/
theorem relay_lastHour :
    ∃ e t, decode .http (messageAt "9999-12-31T23:59:59-01:00") = .ok e ∧ e.time = some t ∧
      Validation.checkEvent e = .ok () ∧ e.HasPlainNames ∧ ¬e.DeclaresEnvelope ∧
      (∃ x, Channel.outgoing ⟨.http, .structured, false⟩ e default = .ok x ∧
        decode .http x.received = .error (.invalid (.invalidMember WellKnown.time.name))) ∧
      ∃ x d, Channel.outgoing ⟨.http, .binary, false⟩ e default = .ok x ∧ decode .http x.received = .ok d ∧
        d.time = some .epoch ∧ d.time ≠ some t ∧ d.time ≠ some t.truncate := by
  have hw := wellFormed_decode decode_messageAt_lastHour
  have hc : Validation.checkEvent (eventAt (Instant.of? 253402304399 0)) = .ok () := by decide +kernel
  have hn : (eventAt (Instant.of? 253402304399 0)).HasPlainNames := by decide +kernel
  have hd : ¬(eventAt (Instant.of? 253402304399 0)).DeclaresEnvelope := by decide +kernel
  refine ⟨_, ⟨253402304399, 0, by decide, by decide⟩, decode_messageAt_lastHour, rfl, hc, hn, hd, ?_, ?_⟩
  · refine ⟨_, outgoing_eq hw hn hc, ?_⟩
    rw [published, if_neg (by simp)]
    exact decode_encode_refused (c := ⟨.http, .structured, false⟩) rfl hw (by decide +kernel)
  · have hpub : published ⟨.http, .binary, false⟩ (eventAt (Instant.of? 253402304399 0)) default =
        eventAt (some .epoch) := by
      decide +kernel
    have hout := outgoing_eq (c := ⟨.http, .binary, false⟩) (f := default) hw hn hc
    rw [hpub] at hout
    obtain ⟨d, hdecode, htime⟩ := decode_encode_time (c := ⟨.http, .binary, false⟩)
      (e := eventAt (some .epoch)) (f := default) (hw.of_eq rfl rfl) hn hd (by decide +kernel)
    refine ⟨_, d, hout, hdecode, htime, ?_, ?_⟩ <;> rw [htime] <;> decide +kernel

end CloudEvents.Wire
