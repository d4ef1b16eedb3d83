/-
  What the commands have in common.

  Two of the commands read their document as it is.  The third one has it judged by the rules of a kind, and a kind
  takes messages: the document is put into one, which is told from others by its content type, and where messages are
  records the headers are looked through first.  None of this shows in the event (`decode_inputMessage`).  What a kind
  adds is its rules, and it changes no event but one without a correlation id; and what is printed in the end depends
  on a supply only if id or time are to be filled in.

  Main statement: `run_agrees`.
-/
import CloudEvents.Proofs.Channel.Publishing
import CloudEvents.Proofs.Event.Session
import CloudEvents.Proofs.Validation.Kinds
import CloudEvents.Proofs.Wire.Framing
import CloudEvents.Proofs.Wire.StructuredGrammar
import CloudEvents.Proofs.Wire.StructuredRelay

namespace CloudEvents.Cli

open Wire.Structured (IsLast Says Admits Fills)

variable {input : String} {c : Config} {f g : Fresh} {e e' : Event}

/-! ## The document in a message -/

/-- **A document that reaches a kind in a message** is read as it is, whatever carries it. -/
theorem decode_inputMessage (b : Binding) (input : String) :
    Wire.decode b (inputMessage input) = Wire.Structured.decode b input := by
  have hreceive : Wire.receive b (inputMessage input) = (inputMessage input, .ok .structured) := by
    unfold Wire.receive
    split
    · rfl
    · rw [show (inputMessage input).headers = (Wire.structuredMessage .compact (.blank b) default).headers from rfl,
        Wire.detectMode_structuredMessage]
  rw [Wire.decode, hreceive]
  rfl

/-! ## Its members -/

/-- The members of a document that is read are admitted, and the event has what they say. -/
theorem admits_and_fills {b : Binding} {l : List (String × List Char)} (h : Wire.Structured.decode b input = .ok e)
    (hl : Json.IsObject input.toList l) : Admits l ∧ Fills l b e := by
  obtain ⟨ms, hms, hd⟩ := Wire.Structured.decode_eq_ok_iff.1 h
  obtain ⟨l', hl', rfl⟩ := Wire.Structured.members_eq_ok_iff.1 hms
  have hsame : l' = l :=
    Option.some.inj ((Json.members?_eq_some_iff.2 hl').symm.trans (Json.members?_eq_some_iff.2 hl))
  subst hsame
  have hm := Wire.Structured.maps_ofList hl'
  exact ⟨hd.admits hm, hd.fills hm⟩

section Members

variable {b : Binding} {l : List (String × List Char)} (ha : Admits l) (hf : Fills l b e)

include ha hf

/-- A document with a member for the id has an id. -/
theorem id_ne_none (h : WellKnown.id.name ∈ l.map Prod.fst) : e.id ≠ none := by
  obtain ⟨raw, hlast⟩ := Wire.Structured.exists_isLast_iff.2 h
  obtain ⟨-, v, hv⟩ := ha.text _ raw (by decide) (by decide) (by decide) hlast
  rw [(hf.id v).2 ⟨raw, hlast, hv⟩]
  simp

/-- A document with a member for the time has a time. -/
theorem exists_time (h : WellKnown.time.name ∈ l.map Prod.fst) : ∃ t, e.time = some t := by
  obtain ⟨raw, hlast⟩ := Wire.Structured.exists_isLast_iff.2 h
  obtain ⟨-, v, hv⟩ := ha.text _ raw (by decide) (by decide) (by decide) hlast
  obtain ⟨t, ht⟩ := ha.time v ⟨raw, hlast, hv⟩
  exact ⟨t, (hf.time t).2 ⟨v, ⟨raw, hlast, hv⟩, ht⟩⟩

end Members

/-! ## The rules of a kind -/

/-- A kind has nothing to fill in where there is a correlation id. -/
theorem eq_of_check {k : Extension} (h : k.check f e = .ok e')
    (hc : k = .correlated → ∃ v, v ≠ "" ∧ e.attribute? correlationIdName = some v) : e' = e := by
  cases k with
  | plain => exact (Except.ok.inj h).symm
  | correlated =>
    obtain ⟨v, hv, hattribute⟩ := hc rfl
    have hkept : e.attribute? correlationIdName ≠ some "" := by
      rw [hattribute]
      simpa using hv
    have hcheck : Extension.correlated.check f e = .ok (e.correlate f) := by
      show Except.ok (Event.correlate (if _ then _ else e) f) = _
      rw [if_neg hkept]
    rw [hcheck, Event.correlate, hattribute] at h
    exact (Except.ok.inj h).symm
  | partitioned =>
    obtain ⟨-, -, rfl⟩ := map_eq_ok_iff.1 h
    rfl
  | sequenced =>
    obtain ⟨-, -, rfl⟩ := map_eq_ok_iff.1 h
    rfl

/-- A kind is found under its own tag only. -/
theorem eq_tag_of_find {k : Extension} {kind : String} (h : Registry.standard.find kind = .ok k.kind) :
    kind = k.tag := by
  obtain ⟨x, rfl, hx⟩ := Registry.find_standard h
  exact (congrArg Kind.tag hx).symm

/-- A kind of the registry accepts a document if it is an event that keeps to the rules for every envelope and to
those of the kind. -/
theorem decode_eq_ok_iff {kind : String} :
    Registry.standard.decode kind c.binding f (inputMessage input) = .ok e' ↔
      ∃ k : Extension, Registry.standard.find kind = .ok k.kind ∧ ∃ e, Wire.Structured.decode c.binding input = .ok e ∧
        Validation.checkEvent e = .ok () ∧ k.check f e = .ok e' := by
  rw [Registry.decode, bind_eq_ok_iff]
  constructor
  · rintro ⟨k, hfind, h⟩
    obtain ⟨x, -, rfl⟩ := Registry.find_standard hfind
    obtain ⟨e, hdecode, h⟩ := bind_eq_ok_iff.1 h
    obtain ⟨⟨⟩, hrules, h⟩ := bind_eq_ok_iff.1 h
    rw [decode_inputMessage] at hdecode
    exact ⟨x, hfind, e, hdecode, hrules, h⟩
  · rintro ⟨x, hfind, e, hdecode, hrules, h⟩
    rw [← decode_inputMessage] at hdecode
    exact ⟨_, hfind, bind_eq_ok_iff.2 ⟨e, hdecode, bind_eq_ok_iff.2 ⟨(), hrules, h⟩⟩⟩

/-! ## What is printed -/

/-- A command that reads a document reads what the reader of documents reads. -/
theorem readEvent_eq_ok_iff : readEvent c input = .ok e ↔ Wire.Structured.decode c.binding input = .ok e := by
  unfold readEvent
  cases Wire.Structured.decode c.binding input <;> simp [Except.mapError]

/-- A command that prints what it reads succeeds on the documents that are read. -/
theorem exists_print_iff {print : Event → String} :
    (∃ out, (readEvent c input >>= fun e => pure (print e)) = .ok out) ↔
      ∃ e, Wire.Structured.decode c.binding input = .ok e := by
  constructor
  · rintro ⟨out, h⟩
    cases hread : readEvent c input with
    | error err =>
      rw [hread] at h
      cases h
    | ok e => exact ⟨e, readEvent_eq_ok_iff.1 hread⟩
  · rintro ⟨e, h⟩
    rw [readEvent_eq_ok_iff.2 h]
    exact ⟨_, rfl⟩

/-- What is printed after a verdict is the event that the kind let through. -/
theorem run_validate_eq_ok_iff {kind out : String} :
    run (.validate kind) input c f = .ok out ↔
      ∃ e', Registry.standard.decode kind c.binding f (inputMessage input) = .ok e' ∧
        Wire.Structured.encode c.style e' f = out := by
  cases h : Registry.standard.decode kind c.binding f (inputMessage input) <;> simp [run, h]

/-- **The commands agree with each other.**  The two that print what they read succeed on the same documents, those
that are events; the third one on those that are events of its kind as well.  Where it has nothing to fill in, it
prints what the one that prints documents does. -/
theorem run_agrees (input : String) (c : Config) (f g : Fresh) :
    ((∃ out, run .binary input c f = .ok out) ↔ ∃ e, Wire.Structured.decode c.binding input = .ok e) ∧
    ((∃ out, run .structured input c f = .ok out) ↔ ∃ e, Wire.Structured.decode c.binding input = .ok e) ∧
    (∀ kind, (∃ out, run (.validate kind) input c f = .ok out) ↔
      ∃ k : Extension, Registry.standard.find kind = .ok k.kind ∧
        ∃ e, Wire.Structured.decode c.binding input = .ok e ∧ Validation.checkEvent e = .ok () ∧
          ∃ e', k.check f e = .ok e') ∧
    (∀ kind out l, run (.validate kind) input c f = .ok out → Json.IsObject input.toList l →
      WellKnown.id.name ∈ l.map Prod.fst → WellKnown.time.name ∈ l.map Prod.fst →
      (kind = Extension.correlated.tag → ∃ v, v ≠ "" ∧ Says l correlationIdName v) →
      run .structured input c g = .ok out) := by
  refine ⟨exists_print_iff, exists_print_iff, ?_, ?_⟩
  · intro kind
    simp only [run_validate_eq_ok_iff, decode_eq_ok_iff]
    constructor
    · rintro ⟨out, e', ⟨k, hfind, e, hdecode, hrules, hcheck⟩, -⟩
      exact ⟨k, hfind, e, hdecode, hrules, e', hcheck⟩
    · rintro ⟨k, hfind, e, hdecode, hrules, e', hcheck⟩
      exact ⟨_, e', ⟨k, hfind, e, hdecode, hrules, hcheck⟩, rfl⟩
  · intro kind out l hrun hl hid htime hcorrelated
    obtain ⟨e', h, rfl⟩ := run_validate_eq_ok_iff.1 hrun
    obtain ⟨k, hfind, e, hdecode, -, hcheck⟩ := decode_eq_ok_iff.1 h
    obtain ⟨ha, hf⟩ := admits_and_fills hdecode hl
    have hsame : e' = e := by
      refine eq_of_check hcheck ?_
      rintro rfl
      obtain ⟨v, hv, hsays⟩ := hcorrelated (eq_tag_of_find hfind)
      exact ⟨v, hv, (hf.attributes correlationIdName v).2 ⟨by decide, hsays⟩⟩
    subst hsame
    obtain ⟨t, ht⟩ := exists_time ha hf htime
    have hstamp := Wire.Structured.stamp_eq_self (id_ne_none ha hf hid) ht f
    have hprint : Wire.Structured.encode c.style e' g = Wire.Structured.encode c.style e' f := by
      rw [← Wire.Structured.encode_stamp c.style e' f g, hstamp]
    rw [Wire.Structured.run_structured g hdecode, hprint]

/-- An event with a correlation id. -/
def taggedEvent : Event where
  id := some "1"
  source := some ⟨"/orders", .refl true⟩
  type := some "t"
  time := Instant.of? 1704067200 0
  attributes := NameMap.empty.insert correlationIdName "c-1"
  binding := .kafka

/-- The document in which it is handed to a command. -/
def taggedDocument : String :=
  "\x7b\"id\":\"1\",\"source\":\"/orders\",\"type\":\"t\",\"time\":\"2024-01-01T00:00:00Z\"," ++
    "\"correlationid\":\"c-1\"\x7d"

/-- The texts that it is made of. -/
def taggedTexts : List (String × String) :=
  [("id", "1"), ("source", "/orders"), ("type", "t"), ("time", "2024-01-01T00:00:00Z"), (correlationIdName, "c-1")]

/-- The members of that document. -/
def taggedMembers : List (String × List Char) :=
  [("id", "\"1\"".toList), ("source", "\"/orders\"".toList), ("type", "\"t\"".toList),
    ("time", "\"2024-01-01T00:00:00Z\"".toList), (correlationIdName, "\"c-1\"".toList)]

theorem taggedDocument_eq : taggedDocument = Wire.Structured.textDocument .compact taggedTexts := by
  decide +kernel

theorem isObject_taggedDocument : Json.IsObject taggedDocument.toList taggedMembers := by
  rw [taggedDocument_eq]
  exact Wire.Structured.isObject_textDocument .compact taggedTexts

theorem decode_taggedDocument : Wire.Structured.decode .kafka taggedDocument = .ok taggedEvent := by
  rw [taggedDocument_eq]
  exact Wire.Structured.decode_textDocument .kafka .compact taggedTexts
    [(correlationIdName, "c-1"), ("id", "1"), ("source", "/orders"), ("time", "2024-01-01T00:00:00Z"), ("type", "t")]
    none taggedEvent rfl rfl rfl (by decide +kernel) (by decide +kernel)

/-- The event has a correlation id, so its kind prints it as the command without rules does. -/
theorem run_agrees_taggedDocument :
    Json.IsObject taggedDocument.toList taggedMembers ∧
      Says taggedMembers correlationIdName "c-1" ∧
      ∃ out, run (.validate "correlated") taggedDocument ⟨.kafka, .structured, true⟩ default = .ok out ∧
        run .structured taggedDocument ⟨.kafka, .structured, true⟩ default = .ok out := by
  have hsays : Says taggedMembers correlationIdName "c-1" :=
    ⟨_, ⟨taggedMembers.dropLast, [], rfl, by simp⟩, Json.isTextOf_quote "c-1"⟩
  obtain ⟨-, -, hvalidate, hprint⟩ := run_agrees taggedDocument ⟨.kafka, .structured, true⟩ default default
  obtain ⟨out, hout⟩ := (hvalidate "correlated").2
    ⟨.correlated, Registry.find_tag .correlated, taggedEvent, decode_taggedDocument, by decide +kernel, _, rfl⟩
  exact ⟨isObject_taggedDocument, hsays, out, hout,
    hprint _ out _ hout isObject_taggedDocument (by decide) (by decide) fun _ => ⟨"c-1", by decide, hsays⟩⟩

end CloudEvents.Cli
