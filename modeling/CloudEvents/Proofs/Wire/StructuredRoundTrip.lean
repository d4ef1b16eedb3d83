/-
  An event that is sent in structured mode comes back.

  The document has one member for each slot with a value, each extension attribute and the data, and no
  name occurs twice: an extension attribute has neither the name of a slot nor one of the two names for
  data.  So under every name stands what the event holds there (`get?_documentMembers`), written as a
  literal, and the members describe the event.

  Data that is a text is where the trip can change something (`settled`).  A text that is a JSON text goes
  into the document as it is and comes back without the gaps around it, or, if it is a literal, as the
  text that the literal stands for.  Every other text is written as a literal and comes back unchanged.
  `SettlesAs` says this of the grammar of JSON, and `settlesAs_iff` that it is what the program does.

  Main statement: `decode_encode_eq_settled`.
-/
import CloudEvents.Proofs.Event.Reachable
import CloudEvents.Proofs.Json.Denotation
import CloudEvents.Proofs.Time.WireText

namespace CloudEvents.Wire.Structured

/-! ## What the data becomes -/

/-- What a text becomes as the data of a document: the text a literal stands for, any other JSON text
without the gaps around it, and everything else as it is. -/
def settledText (s : String) : String :=
  match Json.document? s.toList with
  | some raw => (text? raw).getD (String.ofList raw)
  | none => s

/-- The same by the grammar alone, without reading anything. -/
inductive SettlesAs (s : String) : String → Prop where
  | literal {v : List Char} {x : String} (hv : Json.IsDocument s.toList v) (hx : Json.IsTextOf v x) : SettlesAs s x
  | value {v : List Char} (hv : Json.IsDocument s.toList v) (hx : ∀ x, ¬Json.IsTextOf v x) :
    SettlesAs s (String.ofList v)
  | text (h : ∀ v, ¬Json.IsDocument s.toList v) : SettlesAs s s

/-- A JSON text becomes what the value in it is read as, or else that value. -/
theorem settledText_of_isDocument {s : String} {v : List Char} (hv : Json.IsDocument s.toList v) :
    settledText s = (text? v).getD (String.ofList v) := by
  rw [settledText, Json.document?_eq_some_iff.2 hv]

/-- **Every text settles as what it becomes**, and as nothing else. -/
theorem settlesAs_iff {s t : String} : SettlesAs s t ↔ settledText s = t := by
  constructor
  · intro h
    cases h with
    | literal hv hx =>
      rw [settledText_of_isDocument hv, text?, (Json.literal?_eq_some_iff hv.spells).2 hx, Option.getD_some]
    | value hv hx =>
      rw [settledText_of_isDocument hv, text?, (Json.literal?_eq_none_iff hv.spells).2 hx, Option.getD_none]
    | text h => rw [settledText, Json.document?_eq_none_iff.2 h]
  · rintro rfl
    cases hd : Json.document? s.toList with
    | none =>
      have hs : settledText s = s := by rw [settledText, hd]
      rw [hs]
      exact .text (Json.document?_eq_none_iff.1 hd)
    | some v =>
      have hv := Json.document?_eq_some_iff.1 hd
      rw [settledText_of_isDocument hv]
      cases hx : text? v with
      | none => exact .value hv ((Json.literal?_eq_none_iff hv.spells).1 hx)
      | some x => exact .literal hv ((Json.literal?_eq_some_iff hv.spells).1 hx)

/-- What data becomes in a document. -/
def settled : Payload → Payload
  | .text s => .text (settledText s)
  | .octets bytes => .octets bytes

/-- The value of the member for data that is a text. -/
def dataText (s : String) : List Char := (Json.document? s.toList).getD (Json.quote s.toList)

/-- Data is written as it stands, in whatever style and however deep. -/
theorem renderAt_dataTree (style : Json.Style) (depth : Nat) (s : String) :
    Json.Tree.renderAt style depth (dataTree s) = dataText s := by
  unfold dataTree dataText
  cases Json.document? s.toList with
  | none => rw [Json.Tree.renderAt]; rfl
  | some raw => rw [Json.Tree.renderAt]; rfl

/-- **Data is written as a value**, be it a JSON text or not. -/
theorem spells_dataText (s : String) : Json.Spells .value (dataText s) := by
  unfold dataText
  cases hd : Json.document? s.toList with
  | none => exact Json.spells_quote _
  | some raw => exact (Json.document?_eq_some_iff.1 hd).1

/-- The member for data is read as the text that the data becomes. -/
theorem text?_dataText (s : String) :
    (text? (dataText s)).getD (String.ofList (dataText s)) = settledText s := by
  unfold dataText settledText
  cases Json.document? s.toList with
  | none =>
    show (text? (Json.quote s.toList)).getD _ = s
    rw [text?, Json.literal?_quote, Option.getD_some]
  | some raw => rfl

/-! ## The members of a document -/

section Members

variable {e : Event} {f : Fresh}

/-- The members of an event's document, with their values as they are written. -/
def documentMembers (e : Event) (f : Fresh) : List (String × List Char) :=
  ((textMembers e f).entries.map fun m => (m.1, Json.quote m.2.toList)) ++
    ((e.data.bind Payload.text?).map fun s => (dataName, dataText s)).toList

/-- The members of an event's document, as they are to be rendered. -/
def treeMembers (e : Event) (f : Fresh) : List (String × Json.Tree) :=
  (textMembers e f).entries.map (fun m => (m.1, .text m.2)) ++
    ((e.data.bind Payload.text?).map fun s => (dataName, dataTree s)).toList

theorem spells_treeMembers (style : Json.Style) (e : Event) (f : Fresh) :
    ∀ m ∈ treeMembers e f, Json.Spells .value (Json.Tree.renderAt style 1 m.2) := by
  intro m hm
  rcases List.mem_append.1 hm with hm | hm
  · obtain ⟨x, -, rfl⟩ := List.mem_map.1 hm
    rw [Json.Tree.renderAt]
    exact Json.spells_quote _
  · obtain ⟨s, -, rfl⟩ := Option.map_eq_some_iff.1 (Option.mem_toList.1 hm)
    rw [renderAt_dataTree]
    exact spells_dataText s

theorem map_renderAt_treeMembers (style : Json.Style) (e : Event) (f : Fresh) :
    (treeMembers e f).map (fun m => (m.1, Json.Tree.renderAt style 1 m.2)) = documentMembers e f := by
  rw [treeMembers, documentMembers, List.map_append, List.map_map]
  congr 2
  cases e.data.bind Payload.text? with
  | none => rfl
  | some s =>
    show [(dataName, Json.Tree.renderAt style 1 (dataTree s))] = _
    rw [renderAt_dataTree]
    rfl

/-- **What is written is one object**, whose members are those of the event. -/
theorem members?_encode (style : Json.Style) (e : Event) (f : Fresh) :
    Json.Source.text.members? (encode style e f).toList = some (documentMembers e f) := by
  rw [encode, Json.Tree.render, String.toList_ofList, ← map_renderAt_treeMembers style]
  exact Json.Tree.members?_renderAt (spells_treeMembers style e f)

/-- Two documents in one layout are the same if their members are. -/
theorem encode_eq_iff (style : Json.Style) {e d : Event} {f g : Fresh} :
    encode style d g = encode style e f ↔ documentMembers d g = documentMembers e f := by
  rw [encode, encode, Json.Tree.render, Json.Tree.render, String.ofList_inj,
    ← map_renderAt_treeMembers style, ← map_renderAt_treeMembers style]
  exact Json.Tree.renderAt_object_eq_iff (spells_treeMembers style d g) (spells_treeMembers style e f)

theorem nodup_toList {α : Type} (o : Option (String × α)) : (o.toList.map Prod.fst).Nodup := by
  cases o with
  | none => exact List.nodup_nil
  | some x => exact List.pairwise_singleton _ _

/-- The members for octets have the one name that is set aside for them. -/
theorem eq_of_mem_base64Member? {n : String} (h : n ∈ (base64Member? e).toList.map Prod.fst) :
    n = base64Name := by
  obtain ⟨x, hx, rfl⟩ := List.mem_map.1 h
  have hm := Option.mem_toList.1 hx
  unfold base64Member? at hm
  split at hm
  · rw [← Option.some.inj hm]
  · exact absurd hm (by simp)

/-- No two of the members with text values have the same name. -/
theorem nodup_textMembers (hw : e.WellFormed) :
    (((WellKnown.all.filterMap fun w => (slotText? e f w).map (w.name, ·)) ++ e.attributes.entries ++
      (base64Member? e).toList).map Prod.fst).Nodup := by
  have hext : ∀ n ∈ e.attributes.entries.map Prod.fst, IsExtensionName n := by
    intro n hn
    obtain ⟨x, hx, rfl⟩ := List.mem_map.1 hn
    exact hw.names x.1 x.2 (NameMap.mem_entries_iff.1 hx)
  have hslots : ∀ n ∈ (WellKnown.all.filterMap fun w => (slotText? e f w).map (w.name, ·)).map Prod.fst,
      ∃ w : WellKnown, n = w.name := by
    intro n hn
    by_cases hname : ∃ w : WellKnown, n = w.name
    · exact hname
    · refine absurd hn (NameMap.lookup_eq_none_iff.1 ?_)
      exact lookup_slotEntries_of_ne _ fun w heq => hname ⟨w, heq⟩
  -- Names of slots, names of extension attributes and the name for octets are three kinds of names.
  rw [List.map_append, List.map_append]
  refine List.nodup_append.2 ⟨List.nodup_append.2 ⟨?_, e.attributes.nodup_entries, ?_⟩, ?_, ?_⟩
  · exact nodup_slotEntries WellKnown.name_injective _
  · rintro n hn m hm rfl
    obtain ⟨w, rfl⟩ := hslots n hn
    exact (hext _ hm).ne_name w rfl
  · exact nodup_toList _
  · rintro n hn m hm rfl
    obtain rfl := eq_of_mem_base64Member? hm
    rcases List.mem_append.1 hn with hn | hn
    · obtain ⟨w, hname⟩ := hslots _ hn
      cases w <;> exact absurd hname (by decide)
    · exact (hext _ hn).ne_base64Name rfl

/-- Under a name stand the slot, or else the attribute, or else the octets. -/
theorem get?_textMembers (hw : e.WellFormed) (n : String) :
    (textMembers e f).get? n =
      ((NameMap.lookup n (WellKnown.all.filterMap fun w => (slotText? e f w).map (w.name, ·))).or
        (e.attribute? n)).or (NameMap.lookup n (base64Member? e).toList) := by
  unfold textMembers
  rw [NameMap.get?_ofList (nodup_textMembers hw), NameMap.lookup_append, NameMap.lookup_append]
  rfl

theorem lookup_base64Member? {n : String} (h : n ≠ base64Name) :
    NameMap.lookup n (base64Member? e).toList = none :=
  NameMap.lookup_eq_none_iff.2 fun hn => h (eq_of_mem_base64Member? hn)

/-- Under the name of a slot stands what the slot holds. -/
theorem get?_textMembers_name (hw : e.WellFormed) (w : WellKnown) :
    (textMembers e f).get? w.name = slotText? e f w := by
  have hext : ¬IsExtensionName w.name := fun h => h.ne_name w rfl
  have hbase : w.name ≠ base64Name := by cases w <;> decide
  rw [get?_textMembers hw, lookup_slotEntries WellKnown.name_injective, Event.attribute?_eq_none hw.names hext,
    lookup_base64Member? hbase, Option.or_none, Option.or_none]

/-- Under a name that is not reserved stands the extension attribute of that name. -/
theorem get?_textMembers_of_not_reserved (hw : e.WellFormed) {n : String} (h : isReserved n = false) :
    (textMembers e f).get? n = e.attribute? n := by
  have hslot : ∀ w : WellKnown, n ≠ w.name := by
    rintro w rfl
    rw [isReserved_name] at h
    exact absurd h (by decide)
  have hbase : n ≠ base64Name := by
    rintro rfl
    exact absurd h (by decide)
  rw [get?_textMembers hw, lookup_slotEntries_of_ne _ hslot, lookup_base64Member? hbase, Option.none_or,
    Option.or_none]

/-- No attribute stands in the place of the octets. -/
theorem get?_textMembers_base64Name (hw : e.WellFormed) :
    (textMembers e f).get? base64Name = (base64Member? e).map Prod.snd := by
  have hslot : ∀ w : WellKnown, base64Name ≠ w.name := by
    intro w
    cases w <;> decide
  rw [get?_textMembers hw, lookup_slotEntries_of_ne _ hslot, Event.attribute?_eq_none hw.names (by decide),
    Option.none_or, Option.none_or]
  unfold base64Member?
  split
  · rfl
  · rfl

theorem get?_textMembers_dataName (hw : e.WellFormed) : (textMembers e f).get? dataName = none := by
  have hslot : ∀ w : WellKnown, dataName ≠ w.name := by
    intro w
    cases w <;> decide
  rw [get?_textMembers hw, lookup_slotEntries_of_ne _ hslot, Event.attribute?_eq_none hw.names (by decide),
    lookup_base64Member? (by decide)]
  rfl

/-- No two members of a document have the same name. -/
theorem nodup_documentMembers (hw : e.WellFormed) : ((documentMembers e f).map Prod.fst).Nodup := by
  unfold documentMembers
  rw [List.map_append, List.map_map]
  refine List.nodup_append.2 ⟨(textMembers e f).nodup_entries, nodup_toList _, ?_⟩
  rintro n hn m hm rfl
  obtain ⟨x, hx, rfl⟩ := List.mem_map.1 hm
  obtain ⟨s, -, rfl⟩ := Option.map_eq_some_iff.1 (Option.mem_toList.1 hx)
  exact NameMap.lookup_eq_none_iff.1 (get?_textMembers_dataName hw) hn

/-- **Under every name stands what the event holds there**, as a literal; the member for data that is a
text stands by itself. -/
theorem get?_documentMembers (hw : e.WellFormed) (n : String) :
    (NameMap.ofList (documentMembers e f)).get? n =
      if n = dataName then (e.data.bind Payload.text?).map dataText
      else ((textMembers e f).get? n).map fun v => Json.quote v.toList := by
  rw [NameMap.get?_ofList (nodup_documentMembers hw), documentMembers, NameMap.lookup_append,
    NameMap.lookup_map fun v : String => Json.quote v.toList]
  show (((textMembers e f).get? n).map _).or _ = _
  by_cases hn : n = dataName
  · subst hn
    rw [get?_textMembers_dataName hw, if_pos rfl]
    cases e.data.bind Payload.text? with
    | none => rfl
    | some s => rfl
  · rw [if_neg hn]
    have hdata : NameMap.lookup n
        ((e.data.bind Payload.text?).map fun s => (dataName, dataText s)).toList = none := by
      cases e.data.bind Payload.text? with
      | none => rfl
      | some s => exact if_neg (Ne.symm hn)
    rw [hdata, Option.or_none]

/-- Every member but the one for data is read as the text that was written. -/
theorem member?_documentMembers (hw : e.WellFormed) {n : String} (hn : n ≠ dataName) :
    member? (.ofList (documentMembers e f)) n = (textMembers e f).get? n := by
  rw [member?, get?_documentMembers hw, if_neg hn]
  cases (textMembers e f).get? n with
  | none => rfl
  | some v => exact Json.literal?_quote v

end Members

/-! ## The whole event -/

section Event

variable {e : Event} {f : Fresh}

/-- Data is read back as it settles. -/
theorem readData_documentMembers (hw : e.WellFormed) :
    readData (.ofList (documentMembers e f)) = .ok (e.data.map settled) := by
  have hbase : (NameMap.ofList (documentMembers e f)).get? base64Name =
      (base64Member? e).map fun m => Json.quote m.2.toList := by
    rw [get?_documentMembers hw, if_neg (by decide), get?_textMembers_base64Name hw, Option.map_map]
    rfl
  have hdata : (NameMap.ofList (documentMembers e f)).get? dataName =
      (e.data.bind Payload.text?).map dataText := by
    rw [get?_documentMembers hw, if_pos rfl]
  unfold readData readOctets
  rw [hbase, hdata, base64Member?]
  cases he : e.data with
  | none => rfl
  | some p =>
    cases p with
    | text s =>
      show Except.ok (some (Payload.text _)) = _
      rw [text?_dataText]
      rfl
    | octets bytes =>
      have htext : text? (Json.quote (String.ofList (Text.Base64.encode bytes)).toList) =
          some (String.ofList (Text.Base64.encode bytes)) := Json.literal?_quote _
      have hcontains : (NameMap.ofList (documentMembers e f)).contains dataName = false := by
        rw [NameMap.contains, hdata, he]
        rfl
      simp only [Option.map_some, htext]
      simp only [String.toList_ofList, Text.Base64.decode?_encode, hcontains]
      rfl

/-- The texts that an event writes are accepted where they are written. -/
theorem accepts_textMembers (hw : e.WellFormed) {n v : String}
    (ht : n = WellKnown.time.name → (e.timeOr f).InFourDigitYear)
    (hn : n ≠ WellKnown.specversion.name ∧ n ≠ base64Name ∧ n ≠ dataName)
    (hv : (textMembers e f).get? n = some v) : Accepts n v := by
  by_cases hr : isReserved n = false
  · rw [get?_textMembers_of_not_reserved hw hr] at hv
    rw [Accepts, slotOfName?_eq_none (isWellKnown_of_isReserved hr)]
    exact hw.names n v hv
  · have hslot : ∃ w : WellKnown, w.name = n := by
      rw [← isWellKnown_iff]
      simpa [isReserved, hn.2] using hr
    obtain ⟨w, rfl⟩ := hslot
    rw [get?_textMembers_name hw] at hv
    rw [Accepts, slotOfName?_name]
    cases w with
    | id =>
      rw [← Option.some.inj hv]
      exact hw.idOr_ne f
    | source =>
      obtain ⟨u, -, rfl⟩ := Option.map_eq_some_iff.1 hv
      exact u.isReference
    | specversion => exact absurd rfl hn.1
    | type => trivial
    | datacontenttype =>
      obtain ⟨c, -, rfl⟩ := Option.map_eq_some_iff.1 hv
      exact c.isContentType
    | dataschema =>
      obtain ⟨u, -, rfl⟩ := Option.map_eq_some_iff.1 hv
      exact u.isReference
    | subject => trivial
    | time =>
      rw [← Option.some.inj hv]
      show (Instant.read? (e.timeOr f).wireText).isSome = true
      rw [Instant.read?_wireText (ht rfl)]
      rfl

/-- An optional value is read back from its text, if each value is. -/
theorem bind_map_toOption {α : Type} {text : α → String} {parse : String → Except Error α}
    (h : ∀ a, parse (text a) = .ok a) (x : Option α) :
    ((x.map text).bind fun v => (parse v).toOption) = x := by
  cases x with
  | none => rfl
  | some a =>
    show (parse (text a)).toOption = some a
    rw [h]
    rfl

/-- A document has the version that is asked for. -/
theorem checkVersion_documentMembers (hw : e.WellFormed) :
    checkVersion (.ofList (documentMembers e f)) = .ok () := by
  have hversion : (NameMap.ofList (documentMembers e f)).get? WellKnown.specversion.name =
      some (Json.quote specVersion.toList) := by
    rw [get?_documentMembers hw, if_neg (by decide), get?_textMembers_name hw]
    rfl
  rw [checkVersion, hversion]
  exact if_pos (Json.literal?_quote specVersion)

/-- **The document of an event describes the event**, with its id and time filled in. -/
theorem describes_documentMembers (b : Binding) (hw : e.WellFormed) (ht : (e.timeOr f).InFourDigitYear) :
    Describes b (.ofList (documentMembers e f))
      { e.stamp f with
        time := some (e.timeOr f).truncate
        data := e.data.map settled
        binding := b } := by
  have hslot : ∀ w : WellKnown, member? (.ofList (documentMembers e f)) w.name = slotText? e f w := by
    intro w
    rw [member?_documentMembers hw (by cases w <;> decide), get?_textMembers_name hw]
  refine ⟨checkVersion_documentMembers hw, readData_documentMembers hw, ?_, ?_, ?_, ?_, ?_, ?_, ?_, ?_, ?_,
    rfl⟩
  -- What is left without the version and the data was written for a slot or an extension attribute.
  · intro n raw hraw
    rw [get?_attributeMembers] at hraw
    split at hraw
    · exact absurd hraw (by simp)
    · rename_i hn
      rw [not_or, not_or] at hn
      rw [get?_documentMembers hw, if_neg hn.2.2] at hraw
      obtain ⟨v, hv, rfl⟩ := Option.map_eq_some_iff.1 hraw
      exact ⟨v, Json.literal?_quote v, accepts_textMembers hw (fun _ => ht) hn hv⟩
  · rw [hslot]
    rfl
  · rw [hslot]
    exact (bind_map_toOption Uri.parse_text e.source).symm
  · rw [hslot]
    rfl
  · rw [hslot]
    exact (bind_map_toOption ContentType.parse_text e.dataContentType).symm
  · rw [hslot]
    exact (bind_map_toOption Uri.parse_text e.dataSchema).symm
  · rw [hslot]
    rfl
  · rw [hslot]
    show some (e.timeOr f).truncate = (some (e.timeOr f).wireText).bind Instant.read?
    rw [Option.bind_some, Instant.read?_wireText ht]
  · intro n
    show e.attribute? n = _
    by_cases hr : isReserved n = false
    · have hn : n ≠ dataName := by
        rintro rfl
        exact absurd hr (by decide)
      rw [if_pos hr, member?_documentMembers hw hn, get?_textMembers_of_not_reserved hw hr]
    · rw [if_neg hr]
      exact Event.attribute?_eq_none hw.names fun h => hr h.2

/-- Data is a text or octets, so there is one member for it at most. -/
theorem not_data_and_base64 (hw : e.WellFormed) :
    ¬(dataName ∈ (documentMembers e f).map Prod.fst ∧ base64Name ∈ (documentMembers e f).map Prod.fst) := by
  have hget : ∀ {n}, n ∈ (documentMembers e f).map Prod.fst →
      (NameMap.ofList (documentMembers e f)).get? n ≠ none := by
    intro n hn hnone
    rw [NameMap.get?_ofList (nodup_documentMembers hw)] at hnone
    exact NameMap.lookup_eq_none_iff.1 hnone hn
  rintro ⟨hdata, hbase⟩
  have hdata := hget hdata
  have hbase := hget hbase
  rw [get?_documentMembers hw, if_pos rfl] at hdata
  rw [get?_documentMembers hw, if_neg (by decide), get?_textMembers_base64Name hw, base64Member?] at hbase
  cases he : e.data with
  | none =>
    rw [he] at hdata
    exact hdata rfl
  | some p =>
    rw [he] at hdata hbase
    cases p with
    | text s => exact hbase rfl
    | octets bytes => exact hdata rfl

/-- **The reader has the members that were written.** -/
theorem members_encode (style : Json.Style) (e : Event) (f : Fresh) :
    members (encode style e f).toList = .ok (.ofList (documentMembers e f)) := by
  have hblank : Text.isAllBlank (encode style e f).toList = false := by
    obtain ⟨t, ht⟩ := Json.Tree.renderAt_object_eq_cons style 0 _
    rw [encode, Json.Tree.render, String.toList_ofList, tree, ht]
    rfl
  rw [members, hblank, if_neg (by decide), members?_encode]

/-- **An event that is sent in structured mode comes back**, however it came about.  Its document is one
object in which no name occurs twice, with the version, and with one of the two members for data at most.
Reading gives the event slot by slot, with its extension attributes, whatever their names and values are. -/
theorem decode_encode_eq_settled (style : Json.Style) (b : Binding) (e : Event) (f : Fresh)
    (he : e.Reachable) (ht : (e.timeOr f).InFourDigitYear) :
    (∃ ms, Json.IsObject (encode style e f).toList ms ∧
      (ms.map Prod.fst).Nodup ∧ (WellKnown.specversion.name, Json.quote specVersion.toList) ∈ ms ∧
      ¬(dataName ∈ ms.map Prod.fst ∧ base64Name ∈ ms.map Prod.fst)) ∧
    decode b (encode style e f) =
      .ok { e.stamp f with
        time := some (e.timeOr f).truncate
        data := e.data.map settled
        binding := b } ∧
    (∀ s, e.data = some (.text s) → SettlesAs s (settledText s)) := by
  have hw := he.wellFormed
  have hobject := Json.members?_eq_some_iff.1 (members?_encode style e f)
  refine ⟨⟨documentMembers e f, hobject, nodup_documentMembers hw, ?_, ?_⟩, ?_, fun s _ => settlesAs_iff.2 rfl⟩
  · refine (NameMap.lookup_eq_some_iff (nodup_documentMembers hw)).1 ?_
    rw [← NameMap.get?_ofList (nodup_documentMembers hw), get?_documentMembers hw, if_neg (by decide),
      get?_textMembers_name hw]
    rfl
  · exact not_data_and_base64 hw
  · exact decode_eq_ok_iff.2 ⟨_, members_encode style e f, describes_documentMembers b hw ht⟩

end Event

/-- An event with an extension attribute that has to be escaped, and a JSON text with gaps around it. -/
def documentedEvent : Event where
  id := some "\u0000"
  source := some ⟨"/a", by decide +kernel⟩
  time := Instant.of? 1704067200 123456789
  attributes := NameMap.empty.insert "Größe \"1\"\n" "\\"
  data := some (.text " [2.50, null]\n")
  binding := .http

/-- Escapes, a JSON text with blanks around it and a time finer than its text come back as they settle. -/
theorem decode_encode_documentedEvent :
    documentedEvent.Reachable ∧ (documentedEvent.timeOr default).InFourDigitYear ∧
      (∃ ms, Json.IsObject (encode .pretty documentedEvent default).toList ms ∧
        (ms.map Prod.fst).Nodup ∧ (WellKnown.specversion.name, Json.quote specVersion.toList) ∈ ms ∧
        ¬(dataName ∈ ms.map Prod.fst ∧ base64Name ∈ ms.map Prod.fst)) ∧
      decode .amqp (encode .pretty documentedEvent default) =
        .ok { documentedEvent with
          time := Instant.of? 1704067200 123456700
          data := some (.text "[2.50, null]")
          binding := .amqp } := by
  have he : documentedEvent.Reachable := Event.reachable_iff_wellFormed.2 (by decide +kernel)
  have ht : (documentedEvent.timeOr default).InFourDigitYear := by decide +kernel
  have hnumeral : Json.Numeral.IsSpelled ⟨false, ['2'], ['5', '0'], none⟩ :=
    ⟨⟨by decide, List.all_eq_true.1 rfl⟩, by decide, List.all_eq_true.1 rfl, by simp⟩
  have hitems : Json.Spells (.items [['2', '.', '5', '0'], ['n', 'u', 'l', 'l']]) "2.50, null]".toList :=
    .item (.number hnumeral) (g := []) (by decide) (show Json.IsGap [' '] by decide)
      (.lastItem .nullWord (g := []) (by decide))
  have hdocument : Json.IsDocument " [2.50, null]\n".toList "[2.50, null]".toList :=
    ⟨.array (g := []) (by decide) hitems, [' '], ['\n'], by decide, by decide, rfl⟩
  have hnone : ∀ x, ¬Json.IsTextOf "[2.50, null]".toList x := fun x ⟨_, hx, _⟩ => by cases hx
  have hdata : settledText " [2.50, null]\n" = "[2.50, null]" := settlesAs_iff.1 (.value hdocument hnone)
  obtain ⟨hmembers, hdecode, -⟩ := decode_encode_eq_settled .pretty .amqp documentedEvent default he ht
  refine ⟨he, ht, hmembers, ?_⟩
  rw [← hdata]
  exact hdecode

end CloudEvents.Wire.Structured
