/-
  A document that is read and written again.

  What is read from a document is an event whose data is a text, and writing it asks anew whether that
  text is a JSON text.  For most data the two undo each other: a number or an object is carried through as
  it stands, and a text that is no JSON text is written as a literal.  What does not come back is a text
  that is a JSON text by itself and was received inside a literal, in two cases: it has gaps around it, or
  it is a literal in turn, whose quotes the next reader takes off (`IsChanged`).

  Printing the event twice is a weaker test, because a text that has lost its gaps or quotes may be printed
  as before.  It fails only where the inner literal is not the one that is written for its text
  (`IsRespelled`).

  Main statement: `redecode_eq_self_iff`.
-/
import CloudEvents.Cli.Run
import CloudEvents.Proofs.Wire.StructuredGrammar
import CloudEvents.Proofs.Wire.StructuredRoundTrip

namespace CloudEvents.Wire.Structured

/-! ## Texts that do not come back -/

/-- A JSON text with gaps around it, or one that is a literal. -/
def IsChanged (s : String) : Prop :=
  ∃ v, Json.IsDocument s.toList v ∧ (v ≠ s.toList ∨ ∃ x, Json.IsTextOf v x)

/-- A literal, gaps aside, that is not how its text is written: it is spelled in another way, or its text
is a JSON text and is written without quotes. -/
def IsRespelled (s : String) : Prop :=
  ∃ v x, Json.IsDocument s.toList v ∧ Json.IsTextOf v x ∧ (v ≠ Json.quote x.toList ∨ ∃ u, Json.IsDocument x.toList u)

/-- A text that is respelled is changed as well. -/
theorem IsRespelled.isChanged {s : String} (h : IsRespelled s) : IsChanged s := by
  obtain ⟨v, x, hv, hx, -⟩ := h
  exact ⟨v, hv, .inr ⟨x, hx⟩⟩

/-- The first of the two can be found out by reading. -/
theorem isChanged_iff {s : String} :
    IsChanged s ↔ ∃ v, Json.document? s.toList = some v ∧ (v ≠ s.toList ∨ (text? v).isSome = true) := by
  unfold IsChanged
  refine exists_congr fun v => ?_
  rw [Json.document?_eq_some_iff, Option.isSome_iff_exists]
  refine and_congr_right fun hv => or_congr_right (exists_congr fun x => ?_)
  exact (Json.literal?_eq_some_iff hv.spells).symm

/-- And so can the second, by reading the text of the literal once more. -/
theorem isRespelled_iff {s : String} :
    IsRespelled s ↔ ∃ v x, Json.document? s.toList = some v ∧ text? v = some x ∧
      (v ≠ Json.quote x.toList ∨ (Json.document? x.toList).isSome = true) := by
  unfold IsRespelled
  refine exists_congr fun v => exists_congr fun x => ?_
  simp only [Option.isSome_iff_exists, Json.document?_eq_some_iff]
  exact and_congr_right fun hv => and_congr_left fun _ => (Json.literal?_eq_some_iff hv.spells).symm

/-- A JSON text is no shorter than the value in it. -/
theorem length_le_of_document? {s v : List Char} (h : Json.document? s = some v) : v.length ≤ s.length := by
  obtain ⟨-, g, g', -, -, rfl⟩ := Json.document?_eq_some_iff.1 h
  simp only [List.length_append]
  omega

/-- The text of a literal is shorter than any text the literal stands in. -/
theorem length_lt_of_document? {s x : String} {v : List Char} (h : Json.document? s.toList = some v)
    (hx : text? v = some x) : x.toList.length < s.toList.length := by
  have hlt := Json.length_lt_of_literal? (Json.document?_eq_some_iff.1 h).1 hx
  have hle := length_le_of_document? h
  omega

/-- **A text is kept by a document exactly if it is neither of the two.** -/
theorem settledText_eq_self_iff {s : String} : settledText s = s ↔ ¬IsChanged s := by
  rw [isChanged_iff]
  unfold settledText
  cases hd : Json.document? s.toList with
  | none => simp
  | some v =>
    simp only [Option.some.injEq, exists_eq_left', not_or, not_not, Bool.not_eq_true]
    cases hx : text? v with
    | none =>
      simp only [Option.getD_none, Option.isSome_none, and_true]
      rw [← String.toList_inj, String.toList_ofList]
    | some x =>
      simp only [Option.getD_some, Option.isSome_some, Bool.true_eq_false, and_false, iff_false]
      have hlt := length_lt_of_document? hd hx
      rintro rfl
      exact absurd hlt (Nat.lt_irrefl _)

/-- **A text that went through a document is written as before** exactly if it was not respelled. -/
theorem dataText_settledText_iff {s : String} : dataText (settledText s) = dataText s ↔ ¬IsRespelled s := by
  rw [isRespelled_iff]
  unfold settledText
  cases hd : Json.document? s.toList with
  | none => simp
  | some v =>
    have hv := (Json.document?_eq_some_iff.1 hd).1
    have hs : dataText s = v := by rw [dataText, hd, Option.getD_some]
    rw [hs]
    simp only [Option.some.injEq, exists_eq_left', exists_and_left]
    cases hx : text? v with
    | none =>
      have hsame : dataText (String.ofList v) = v := by
        rw [dataText, String.toList_ofList, Json.document?_of_spells hv, Option.getD_some]
      simp [hsame]
    | some x =>
      have hlt := Json.length_lt_of_literal? hv hx
      simp only [Option.getD_some, Option.some.injEq, exists_eq_left', not_or, not_not, dataText,
        Bool.not_eq_true, Option.isSome_eq_false_iff, Option.isNone_iff_eq_none]
      cases hxd : Json.document? x.toList with
      | none => simp [eq_comm]
      | some u =>
        -- The literal is longer than its text, and the text no shorter than the value in it.
        have hle := length_le_of_document? hxd
        simp only [Option.getD_some, reduceCtorEq, and_false, iff_false]
        rintro rfl
        omega

/-! ## Events that were received -/

section Received

variable {e : Event} {t : Instant} (hid : e.id ≠ none) (ht : e.time = some t)

include hid ht

/-- Nothing is filled in where id and time are there. -/
theorem stamp_eq_self (f : Fresh) : e.stamp f = e := by
  obtain ⟨id, hid⟩ := Option.ne_none_iff_exists'.1 hid
  have h1 : some (e.idOr f) = e.id := by rw [Event.idOr, hid]; rfl
  have h2 : some (e.timeOr f) = e.time := by rw [Event.timeOr, ht]; rfl
  show { e with id := some (e.idOr f), time := some (e.timeOr f) } = e
  rw [h1, h2]

/-- Then only the data says what the members are. -/
theorem slotText?_of_data (f g : Fresh) (data : Option Payload) (w : WellKnown) :
    slotText? { e with data } g w = slotText? e f w := by
  obtain ⟨id, hid⟩ := Option.ne_none_iff_exists'.1 hid
  cases w with
  | id =>
    show some (e.id.getD _) = some (e.id.getD _)
    rw [hid, Option.getD_some, Option.getD_some]
  | time =>
    show some (e.time.getD _).wireText = some (e.time.getD _).wireText
    rw [ht, Option.getD_some, Option.getD_some]
  | source => rfl
  | specversion => rfl
  | type => rfl
  | datacontenttype => rfl
  | dataschema => rfl
  | subject => rfl

/-- Data has a part in the members that are texts by its octets only. -/
theorem textMembers_of_data (f g : Fresh) {data : Option Payload}
    (hd : base64Member? { e with data } = base64Member? e) :
    textMembers { e with data } g = textMembers e f := by
  unfold textMembers
  rw [hd, funext (slotText?_of_data hid ht f g data)]

/-- **The document of an event that went through one is the same document**, unless its data is a text that
was respelled. -/
theorem encode_settled_iff (style : Json.Style) (f g : Fresh) :
    encode style { e with data := e.data.map settled } g = encode style e f ↔
      ∀ s, e.data = some (.text s) → ¬IsRespelled s := by
  have hbase : base64Member? { e with data := e.data.map settled } = base64Member? e := by
    unfold base64Member?
    cases hd : e.data with
    | none => rfl
    | some p => cases p <;> rfl
  rw [encode_eq_iff, documentMembers, documentMembers, textMembers_of_data hid ht f g hbase,
    List.append_cancel_left_eq]
  cases hd : e.data with
  | none => simp
  | some p =>
    cases p with
    | octets bytes => simp [settled, Payload.text?]
    | text s =>
      simp only [Option.map_some, settled, Option.bind_some, Payload.text?, Option.toList_some,
        List.cons.injEq, Prod.mk.injEq, true_and, and_true, Option.some.injEq, Payload.text.injEq,
        forall_eq']
      exact dataText_settledText_iff

end Received

/-- An event keeps its data exactly if that is no text that is changed. -/
theorem map_settled_eq_self_iff {data : Option Payload} :
    data.map settled = data ↔ ∀ s, data = some (.text s) → ¬IsChanged s := by
  cases data with
  | none => simp
  | some p =>
    cases p with
    | octets bytes => simp [settled]
    | text s =>
      simp only [Option.map_some, settled, Option.some.injEq, Payload.text.injEq, forall_eq']
      exact settledText_eq_self_iff

/-- Printing a document means writing the event it is read as. -/
theorem run_structured {c : Config} {json : String} {e : Event} (f : Fresh)
    (h : decode c.binding json = .ok e) :
    Cli.run .structured json c f = .ok (encode c.style e f) := by
  have hread : Cli.readEvent c json = .ok e := by rw [Cli.readEvent, h]; rfl
  show (Cli.readEvent c json >>= fun e => pure (encode c.style e f)) = _
  rw [hread]
  rfl

/-- An event that was received in a document is read from its own document with its data settled. -/
theorem decode_encode_received (b : Binding) (style : Json.Style) (f : Fresh) {json : String} {e : Event}
    {t : Instant} (h : decode b json = .ok e) (hid : e.id ≠ none) (ht : e.time = some t)
    (hy : t.InFourDigitYear) (hp : t.truncate = t) :
    decode b (encode style e f) = .ok { e with data := e.data.map settled } := by
  have htime : e.timeOr f = t := by rw [Event.timeOr, ht]; rfl
  obtain ⟨ms, -, hreceived⟩ := decode_eq_ok_iff.1 h
  have hsent := describes_documentMembers (f := f) b (wellFormed_decode h) (by rw [htime]; exact hy)
  rw [htime, hp, stamp_eq_self hid ht, ← ht, ← hreceived.binding] at hsent
  rw [← hreceived.binding]
  exact decode_eq_ok_iff.2 ⟨_, members_encode style e f, hsent⟩

/-- **A document that is read and written again** is read as the same event once more, but for data that is
a text: a JSON text in it loses the gaps around it or, if it is a literal, its quotes.  So the event comes
back exactly if its data is no such text, and printing a document that was printed changes it exactly if
the data was respelled. -/
theorem redecode_eq_self_iff (c : Config) (f g : Fresh) {json : String} {e : Event} {t : Instant}
    (h : decode c.binding json = .ok e) (hid : e.id ≠ none) (ht : e.time = some t)
    (hy : t.InFourDigitYear) (hp : t.truncate = t) :
    decode c.binding (encode c.style e f) = .ok { e with data := e.data.map settled } ∧
    (∀ s, e.data = some (.text s) → SettlesAs s (settledText s)) ∧
    (decode c.binding (encode c.style e f) = .ok e ↔ ∀ s, e.data = some (.text s) → ¬IsChanged s) ∧
    Cli.run .structured json c f = .ok (encode c.style e f) ∧
    (Cli.run .structured (encode c.style e f) c g = .ok (encode c.style e f) ↔
      ∀ s, e.data = some (.text s) → ¬IsRespelled s) := by
  have hagain := decode_encode_received c.binding c.style f h hid ht hy hp
  refine ⟨hagain, fun s _ => settlesAs_iff.2 rfl, ?_, run_structured f h, ?_⟩
  · rw [hagain, ← map_settled_eq_self_iff, Except.ok.injEq]
    exact ⟨fun heq => congrArg Event.data heq, fun heq => by rw [heq]⟩
  · rw [run_structured g hagain, Except.ok.injEq]
    exact encode_settled_iff hid ht c.style f g

/-- An event whose data is an array, and which was received with its data as a literal. -/
def arrayEvent : Event where
  id := some "1"
  time := Instant.of? 1704067200 0
  attributes := NameMap.empty.insert "x" ""
  data := some (.text "[1.50]")
  binding := .http

/-- The texts that were sent. -/
def arrayTexts : List (String × String) :=
  [("id", "1"), ("time", "2024-01-01T00:00:00Z"), ("x", ""), ("data", "[1.50]")]

/-- The document in which it was received. -/
def arrayDocument : String :=
  "\x7b\"id\":\"1\",\"time\":\"2024-01-01T00:00:00Z\",\"x\":\"\",\"data\":\"[1.50]\"\x7d"

theorem decode_arrayDocument : decode .http arrayDocument = .ok arrayEvent := by
  have hdocument : arrayDocument = textDocument .compact arrayTexts := by decide +kernel
  rw [hdocument]
  exact decode_textDocument .http .compact arrayTexts [("id", "1"), ("time", "2024-01-01T00:00:00Z"), ("x", "")]
    (some "[1.50]") { arrayEvent with data := none } rfl rfl rfl (by decide +kernel) (by decide +kernel)

/-- An array is relayed as it was received. -/
theorem redecode_arrayEvent :
    decode .http arrayDocument = .ok arrayEvent ∧
      decode .http (encode .pretty arrayEvent default) = .ok arrayEvent ∧
      Cli.run .structured (encode .pretty arrayEvent default) ⟨.http, .binary, true⟩ default =
        .ok (encode .pretty arrayEvent default) := by
  have hnumeral : Json.Numeral.IsSpelled ⟨false, ['1'], ['5', '0'], none⟩ :=
    ⟨⟨by decide, List.all_eq_true.1 rfl⟩, by decide, List.all_eq_true.1 rfl, by simp⟩
  have hvalue : Json.Spells .value "[1.50]".toList :=
    .array (g := []) (by decide) (.lastItem (.number hnumeral) (g := []) (by decide))
  have hdocument : Json.IsDocument "[1.50]".toList "[1.50]".toList := ⟨hvalue, [], [], by decide, by decide, rfl⟩
  have hnone : ∀ x, ¬Json.IsTextOf "[1.50]".toList x := fun x ⟨_, hx, _⟩ => by cases hx
  have hkept : ¬IsChanged "[1.50]" := settledText_eq_self_iff.1 (settlesAs_iff.1 (.value hdocument hnone))
  have htext : ∀ s, arrayEvent.data = some (.text s) → s = "[1.50]" := by
    intro s hs
    exact (Payload.text.inj (Option.some.inj hs)).symm
  obtain ⟨-, -, hevent, -, hprint⟩ := redecode_eq_self_iff ⟨.http, .binary, true⟩ default default
    decode_arrayDocument (by decide) (t := ⟨1704067200, 0, by decide, by decide⟩) rfl (by decide +kernel) rfl
  refine ⟨decode_arrayDocument, hevent.2 ?_, hprint.2 ?_⟩
  · exact fun s hs => htext s hs ▸ hkept
  · exact fun s hs => htext s hs ▸ fun hrespelled => hkept hrespelled.isChanged

/-- An event whose data is the literal of a number. -/
def quotedNumberEvent : Event where
  id := some "1"
  time := Instant.of? 1704067200 0
  data := some (.text "\"42\"")
  binding := .http

/-- The texts that were sent. -/
def quotedNumberTexts : List (String × String) :=
  [("id", "1"), ("time", "2024-01-01T00:00:00Z"), ("data", "\"42\"")]

/-- The document in which it was received: a literal in a literal. -/
def quotedNumberDocument : String :=
  "\x7b\"id\":\"1\",\"time\":\"2024-01-01T00:00:00Z\",\"data\":\"\\\"42\\\"\"\x7d"

theorem decode_quotedNumberDocument : decode .http quotedNumberDocument = .ok quotedNumberEvent := by
  have hdocument : quotedNumberDocument = textDocument .compact quotedNumberTexts := by decide +kernel
  rw [hdocument]
  exact decode_textDocument .http .compact quotedNumberTexts [("id", "1"), ("time", "2024-01-01T00:00:00Z")]
    (some "\"42\"") { quotedNumberEvent with data := none } rfl rfl rfl (by decide +kernel) (by decide +kernel)

/-- A literal that was received in a literal does not come back: its quotes are lost on the way, and what is
printed the second time is the number. -/
theorem redecode_quotedNumber_ne :
    decode .http quotedNumberDocument = .ok quotedNumberEvent ∧ quotedNumberEvent.id ≠ none ∧
      (∃ t, quotedNumberEvent.time = some t ∧ t.InFourDigitYear ∧ t.truncate = t) ∧
      decode .http (encode .compact quotedNumberEvent default) ≠ .ok quotedNumberEvent ∧
      ∃ out, Cli.run .structured quotedNumberDocument ⟨.http, .binary, false⟩ default = .ok out ∧
        Cli.run .structured out ⟨.http, .binary, false⟩ default ≠ .ok out := by
  have hid : quotedNumberEvent.id ≠ none := by decide
  have ht : quotedNumberEvent.time = some ⟨1704067200, 0, by decide, by decide⟩ := rfl
  have hdocument : Json.IsDocument "\"42\"".toList "\"42\"".toList :=
    ⟨Json.spells_quote "42".toList, [], [], by decide, by decide, rfl⟩
  have hnumeral : Json.Numeral.IsSpelled ⟨false, ['4', '2'], [], none⟩ :=
    ⟨⟨by decide, List.all_eq_true.1 rfl⟩, by decide, List.all_eq_true.1 rfl, by simp⟩
  have hnumber : Json.IsDocument "42".toList "42".toList := ⟨.number hnumeral, [], [], by decide, by decide, rfl⟩
  have hrespelled : IsRespelled "\"42\"" := ⟨_, "42", hdocument, Json.isTextOf_quote "42", .inr ⟨_, hnumber⟩⟩
  have hagain := decode_encode_received .http .compact default decode_quotedNumberDocument hid ht
    (by decide +kernel) rfl
  refine ⟨decode_quotedNumberDocument, hid, ⟨_, ht, by decide +kernel, rfl⟩, ?_, _,
    run_structured (c := ⟨.http, .binary, false⟩) default decode_quotedNumberDocument, ?_⟩
  · intro h
    have hdata := congrArg Event.data (Except.ok.inj (hagain.symm.trans h))
    exact map_settled_eq_self_iff.1 hdata _ rfl hrespelled.isChanged
  · intro h
    have hprint := Except.ok.inj ((run_structured (c := ⟨.http, .binary, false⟩) default hagain).symm.trans h)
    exact (encode_settled_iff hid ht .compact default default).1 hprint _ rfl hrespelled

end CloudEvents.Wire.Structured
