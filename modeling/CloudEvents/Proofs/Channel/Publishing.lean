/-
  Publishing sends what was encoded.

  In binary mode a message is looked at once more before it is sent, by rules that fill in what is missing.
  After encoding nothing is: the slots have their headers first and keep them, whatever the extension
  attributes are called, and a record moves none of those that validation looks at (`slotHeader?_encode`).  So
  for an event that keeps to the rules only the time can be at fault, in a year of more than four digits
  (`validateHeaders_encode`), and within four digits validation changes nothing.

  Encoding fills in id and time for good.  `Edit.outgoing` is publishing with its event in place, up to the
  send; doing it again gives the same message and leaves the event alone.

  Main statement: `publish_sends_encoding`.
-/
import CloudEvents.Channel
import CloudEvents.Proofs.Event.Edit
import CloudEvents.Proofs.Validation.HeaderRules
import CloudEvents.Proofs.Wire.BinaryRoundTrip

namespace CloudEvents

/-! ## Encoding again -/

namespace Wire

/-- In binary mode an event that was stamped is written as it was before. -/
theorem Binary.encode_stamp (b : Binding) (e : Event) (f g : Fresh) :
    Binary.encode b (e.stamp f) g = Binary.encode b e f := by
  have hslots : Binary.slotValue? b (e.stamp f) g = Binary.slotValue? b e f := by
    funext w
    cases w <;> simp only [Binary.slotValue?, Event.idOr_stamp, Event.timeOr_stamp] <;> rfl
  unfold Binary.encode Binary.headers Binary.slotHeaders
  rw [hslots]
  rfl

/-- In structured mode as well. -/
theorem Structured.encode_stamp (style : Json.Style) (e : Event) (f g : Fresh) :
    Structured.encode style (e.stamp f) g = Structured.encode style e f := by
  have hslots : Structured.slotText? (e.stamp f) g = Structured.slotText? e f := by
    funext w
    cases w <;> simp only [Structured.slotText?, Event.idOr_stamp, Event.timeOr_stamp] <;> rfl
  unfold Structured.encode Structured.tree Structured.textMembers
  rw [hslots]
  rfl

/-- **An event is encoded as encoding it leaves it**, whatever could still be filled in. -/
theorem encode_stamp (c : Config) (e : Event) (f g : Fresh) : encode c (e.stamp f) g = encode c e f := by
  unfold encode structuredMessage
  rw [Binary.encode_stamp, Structured.encode_stamp]
  rfl

end Wire

/-! ## The headers of an encoded event -/

namespace Wire

open Binary (slotHeader? slotValue?)

variable {c : Config} {e : Event} {f : Fresh}

/-- In binary mode a record rewrites the headers of the message and nothing else. -/
theorem encode_of_binary (hm : c.mode = .binary) :
    encode c e f =
      { Binary.encode c.binding e f with
        headers :=
          if c.binding.rewrites then Record.outgoing c.binding e (Binary.headers c.binding e f)
          else Binary.headers c.binding e f } := by
  unfold encode
  rw [hm]
  cases c.binding.rewrites <;> rfl

/-- A record moves no header of a slot but that of the data content type. -/
theorem slotHeader?_encode_eq (hm : c.mode = .binary) {w : WellKnown} (hw : w ≠ .datacontenttype) :
    slotHeader? c.binding (encode c e f).headers w = slotHeader? c.binding (Binary.headers c.binding e f) w := by
  rw [encode_of_binary hm]
  show NameMap.get? (if _ then _ else _) _ = _
  split
  · exact Record.get?_outgoing_of_isFixed (Record.isFixed_headerName _ hw)
  · rfl

/-- **A slot that is set has its header**, but for the data content type, which a record moves. -/
theorem slotHeader?_encode (hm : c.mode = .binary) {w : WellKnown} (hw : w ≠ .datacontenttype) {v : HeaderValue}
    (hv : slotValue? c.binding e f w = some v) : slotHeader? c.binding (encode c e f).headers w = some v := by
  rw [slotHeader?_encode_eq hm hw, slotHeader?, Binary.get?_headers_headerName, hv, Option.some_or]

/-- An event that keeps to the rules is encoded with headers that do. -/
theorem isComplete_encode (hm : c.mode = .binary) (hc : Validation.checkEvent e = .ok ()) :
    Validation.IsComplete c.binding (encode c e f).headers := by
  obtain ⟨⟨u, hu⟩, ty, hty, hne⟩ := Validation.checkEvent_eq_ok_iff.1 hc
  constructor
  · intro v hv
    rw [slotHeader?_encode hm (by decide) rfl] at hv
    exact (Option.some.inj hv).symm
  · exact ⟨u.text, slotHeader?_encode hm (by decide) (by rw [slotValue?, hu]; rfl)⟩
  · exact ⟨.text ty, slotHeader?_encode hm (by decide) (by rw [slotValue?, hty]; rfl), hne⟩

/-- Of the headers of an event that keeps to the rules, only the time can be wrong. -/
theorem validateHeaders_encode (hm : c.mode = .binary) (hc : Validation.checkEvent e = .ok ()) (g : Fresh) :
    Validation.validateHeaders c.binding g (encode c e f).headers =
      (Validation.fillTime c.binding g (encode c e f).headers, .ok ()) := by
  have hid : Validation.fillId c.binding g (encode c e f).headers = (encode c e f).headers := by
    have hthere : (encode c e f).headers.get? (c.binding.headerName WellKnown.id.name) =
        some (.text (e.idOr f)) := slotHeader?_encode hm (by decide) rfl
    simp only [Validation.fillId, NameMap.contains, hthere, Option.isSome_some, if_true]
  rw [Validation.validateHeaders_of_isComplete (isComplete_encode hm hc), Validation.filled, hid]

/-- A time in a year of four digits stays. -/
theorem fillTime_encode (hm : c.mode = .binary) (ht : c.binding ≠ .amqp → (e.timeOr f).InFourDigitYear)
    (g : Fresh) : Validation.fillTime c.binding g (encode c e f).headers = (encode c e f).headers := by
  have hthere : (encode c e f).headers.get? (c.binding.headerName WellKnown.time.name) =
      some (Binary.timeValue c.binding (e.timeOr f)) := slotHeader?_encode hm (by decide) rfl
  simp only [Validation.fillTime, Headers.read?, hthere, Option.bind_some, Binary.read?_timeValue ht,
    Option.isSome_some, if_true]

end Wire

/-! ## Publishing -/

namespace Channel

variable {c : Config} {e : Event} {f : Fresh}

/-- In binary mode the rules for headers may replace headers of the message before it is sent. -/
theorem outgoing_of_validateHeaders {h : Headers} (hc : Validation.checkEvent e = .ok ()) (hm : c.mode = .binary)
    (hv : Validation.validateHeaders c.binding f (Wire.encode c e f).headers = (h, .ok ())) :
    outgoing c e f = .ok { Wire.encode c e f with headers := h } := by
  simp only [outgoing, hc, hm, hv]
  rfl

/-- **The message that is sent is the one that was encoded.** -/
theorem outgoing_eq_encode (hc : Validation.checkEvent e = .ok ())
    (ht : c.mode = .binary → c.binding ≠ .amqp → (e.timeOr f).InFourDigitYear) :
    outgoing c e f = .ok (Wire.encode c e f) := by
  cases hm : c.mode with
  | structured =>
    simp only [outgoing, hc, hm]
    rfl
  | binary =>
    have hv := Wire.validateHeaders_encode (f := f) hm hc f
    rw [Wire.fillTime_encode hm (ht hm)] at hv
    exact outgoing_of_validateHeaders hc hm hv

/-- An event that is not complete is not sent. -/
theorem outgoing_eq_error {err : Error} (hc : Validation.checkEvent e = .error err) :
    outgoing c e f = .error err := by
  unfold outgoing
  rw [hc]
  rfl

/-- An event that was stamped is sent as it was before, with whatever supply. -/
theorem outgoing_stamp (c : Config) (e : Event) (f : Fresh)
    (ht : c.mode = .binary → c.binding ≠ .amqp → (e.timeOr f).InFourDigitYear) (g : Fresh) :
    outgoing c (e.stamp f) g = outgoing c e f := by
  have hsame : Validation.checkEvent (e.stamp f) = Validation.checkEvent e := rfl
  cases hc : Validation.checkEvent e with
  | error err => rw [outgoing_eq_error hc, outgoing_eq_error (hsame.trans hc)]
  | ok _ => rw [outgoing_eq_encode hc ht, outgoing_eq_encode (hsame.trans hc) ht, Wire.encode_stamp]

end Channel

/-! ## In place -/

namespace Edit

variable {τ ν : Type}

/-- Publishing up to the send: the rules for events, the encoding, and in binary mode the rules for headers. -/
def outgoing (c : Config) (f : Fresh) : Edit τ ν Outgoing := do
  demand (← look Validation.checkEvent)
  let m ← encode (Wire.encode c) f
  match c.mode with
  | .structured => return m
  | .binary =>
    let (h, verdict) := Validation.validateHeaders c.binding f m.headers
    demand verdict
    return { m with headers := h }

/-- The event is checked before it is touched; after that it has id and time, whatever comes of it. -/
theorem run_outgoing (c : Config) (f : Fresh) (s : TypedEvent τ ν) :
    (outgoing c f).run s =
      (Channel.outgoing c s.event f,
        match Validation.checkEvent s.event with
        | .ok () => s.update fun e => e.stamp f
        | .error _ => s) := by
  simp only [outgoing, run_bind, run_look, run_demand, Channel.outgoing]
  -- Nothing has been changed where the event is refused; behind that the two run side by side.
  cases Validation.checkEvent s.event with
  | error err => rfl
  | ok _ =>
    simp only [encode, run_bind, run_change, run_look]
    cases c.mode with
    | structured => rfl
    | binary =>
      have hmessage : Wire.encode c (s.update fun e => e.stamp f).event f = Wire.encode c s.event f :=
        Wire.encode_stamp c s.event f f
      simp only [run_bind, run_demand, hmessage]
      rcases Validation.validateHeaders c.binding f (Wire.encode c s.event f).headers with
        ⟨h, err | ⟨⟨⟩⟩⟩ <;> rfl

/-- **Publishing twice is publishing the same**: the second time nothing is left to be filled in. -/
theorem run_outgoing_again (c : Config) (f : Fresh) (s : TypedEvent τ ν)
    (ht : c.mode = .binary → c.binding ≠ .amqp → (s.event.timeOr f).InFourDigitYear) (g : Fresh) :
    (outgoing c g).run ((outgoing c f).run s).2 = (outgoing c f).run s := by
  rw [run_outgoing c f s]
  cases hc : Validation.checkEvent s.event with
  | error err =>
    rw [run_outgoing, hc, Channel.outgoing_eq_error hc, Channel.outgoing_eq_error hc]
  | ok _ =>
    -- The second time the event has id and time, so neither the message nor the event depends on what is fresh.
    have hagain : Channel.outgoing c (s.update fun e => e.stamp f).event g = Channel.outgoing c s.event f :=
      Channel.outgoing_stamp c s.event f ht g
    have hcheck : Validation.checkEvent (s.update fun e => e.stamp f).event = .ok () := hc
    have hstays : ((s.update fun e => e.stamp f).update fun e => e.stamp g) = s.update fun e => e.stamp f := by
      show { s with event := { (s.event.stamp f).stamp g with data := s.event.data } } = _
      rw [Event.stamp_stamp]
      rfl
    simp only [run_outgoing, hagain, hcheck, hstays]

end Edit

namespace Channel

variable {τ ν : Type}

/-- **Publishing sends exactly what is encoded.**  A message is sent if the event keeps to the rules for events,
and then it is the encoded one: validation accepts its headers and leaves them as they are.  Publishing again,
with whatever could be filled in then, sends the same message. -/
theorem publish_sends_encoding (c : Config) (f : Fresh) (s : TypedEvent τ ν)
    (ht : c.mode = .binary → c.binding ≠ .amqp → (s.event.timeOr f).InFourDigitYear) :
    (∀ x, outgoing c s.event f = .ok x ↔
      Validation.checkEvent s.event = .ok () ∧ x = Wire.encode c s.event f) ∧
    (∀ m, publish c s.event f m =
      match Validation.checkEvent s.event with
      | .ok () => (m.send (Wire.encode c s.event f).received).mapError .refused
      | .error err => .error (.envelope err)) ∧
    (Validation.checkEvent s.event = .ok () → c.mode = .binary → ∀ g,
      Validation.validateHeaders c.binding g (Wire.encode c s.event f).headers =
        ((Wire.encode c s.event f).headers, .ok ())) ∧
    ((Edit.outgoing c f).run s).1 = outgoing c s.event f ∧
    ∀ g, (Edit.outgoing c g).run ((Edit.outgoing c f).run s).2 = (Edit.outgoing c f).run s := by
  refine ⟨fun x => ?_, fun m => ?_, fun hc hm g => ?_, ?_, Edit.run_outgoing_again c f s ht⟩
  · cases hc : Validation.checkEvent s.event with
    | error err =>
      rw [outgoing_eq_error hc]
      simp
    | ok _ =>
      rw [outgoing_eq_encode hc ht, Except.ok.injEq, eq_comm]
      simp
  · unfold publish
    cases hc : Validation.checkEvent s.event with
    | error err => rw [outgoing_eq_error hc]
    | ok _ => rw [outgoing_eq_encode hc ht]
  · rw [Wire.validateHeaders_encode hm hc, Wire.fillTime_encode hm (ht hm)]
  · rw [Edit.run_outgoing]

/-- An event without id and time whose extension attributes have the names of headers that mean something else. -/
def collidingEvent : Event where
  source := some ⟨"/shop", by decide⟩
  type := some "t"
  attributes :=
    .ofList [("ce_time", "never"), ("content-type", "application/cloudevents+json"), ("Kafka.Key", "k")]
  binding := .kafka

/-- An extension attribute that is named like the header of the time does not keep the time out. -/
theorem publish_sends_collidingEvent :
    outgoing ⟨.kafka, .binary, false⟩ collidingEvent default =
        .ok (Wire.encode ⟨.kafka, .binary, false⟩ collidingEvent default) ∧
      (Wire.encode ⟨.kafka, .binary, false⟩ collidingEvent default).headers.get? "ce_time" =
        some (.text Instant.epoch.wireText) := by
  obtain ⟨hsends, -⟩ := publish_sends_encoding (τ := Unit) (ν := Unit) ⟨.kafka, .binary, false⟩ default
    ⟨collidingEvent, none⟩ (by decide +kernel)
  exact ⟨(hsends _).2 ⟨by decide, rfl⟩, Wire.slotHeader?_encode (w := .time) rfl (by decide) rfl⟩

end Channel

end CloudEvents
