/-
  Which documents are events, and which events they are.

  Reading a document takes out the members for version and data and goes through the others by name, and it
  stops at the first that is wrong.  Here is what it comes to, in terms of the text alone: a document is an
  object (`Json.IsObject`) whose members are admitted (`Admits`), and the event has in each place what the
  member of its name says (`Fills`).  Of several members of one name only the last counts (`IsLast`), so what
  the others hold does not matter as long as they are values.

  Main statement: `decode_iff_grammar`.  Documents whose members are all texts are read text by text
  (`decode_textDocument`).
-/
import CloudEvents.Proofs.Json.Denotation
import CloudEvents.Proofs.Wire.StructuredReading

namespace CloudEvents.Wire.Structured

/-! ## The rules -/

section Rules

variable (l : List (String × List Char))

/-- The last value of a name among the members of an object. -/
def IsLast (n : String) (raw : List Char) : Prop :=
  ∃ before after, l = before ++ (n, raw) :: after ∧ n ∉ after.map Prod.fst

/-- What the member of a name says: the text whose literal is its last value. -/
def Says (n v : String) : Prop := ∃ raw, IsLast l n raw ∧ Json.IsTextOf raw v

/-- What the members of an object have to be like to be those of an event. -/
structure Admits : Prop where
  version : ∀ raw, IsLast l WellKnown.specversion.name raw → Json.IsTextOf raw specVersion
  octets : ∀ raw, IsLast l base64Name raw →
    ∃ bytes, Json.IsTextOf raw (String.ofList (Text.Base64.encode bytes))
  oneData : ¬(base64Name ∈ l.map Prod.fst ∧ dataName ∈ l.map Prod.fst)
  /-- Every other member is a text, under a name that is not empty. -/
  text : ∀ n raw, n ≠ WellKnown.specversion.name → n ≠ base64Name → n ≠ dataName → IsLast l n raw →
    n ≠ "" ∧ ∃ v, Json.IsTextOf raw v
  id : ¬Says l WellKnown.id.name ""
  source : ∀ v, Says l WellKnown.source.name v → ∃ u, Uri.parse v = .ok u
  dataContentType : ∀ v, Says l WellKnown.datacontenttype.name v → ∃ c, ContentType.parse v = .ok c
  dataSchema : ∀ v, Says l WellKnown.dataschema.name v → ∃ u, Uri.parse v = .ok u
  time : ∀ v, Says l WellKnown.time.name v → ∃ t, Instant.read? v = some t

/-- The data of an object: octets, the text of a literal, or anything else as it is written. -/
inductive HasData : Payload → Prop where
  | octets {bytes : List UInt8} (h : Says l base64Name (String.ofList (Text.Base64.encode bytes))) :
    HasData (.octets bytes)
  | text {v : String} (h : Says l dataName v) : HasData (.text v)
  | verbatim {raw : List Char} (h : IsLast l dataName raw) (hno : ∀ v, ¬Json.IsTextOf raw v) :
    HasData (.text (String.ofList raw))

/-- An event that has what the members of an object say, and nothing else. -/
structure Fills (b : Binding) (e : Event) : Prop where
  id : ∀ v, e.id = some v ↔ Says l WellKnown.id.name v
  source : ∀ u, e.source = some u ↔ ∃ v, Says l WellKnown.source.name v ∧ Uri.parse v = .ok u
  type : ∀ v, e.type = some v ↔ Says l WellKnown.type.name v
  dataContentType : ∀ c, e.dataContentType = some c ↔
    ∃ v, Says l WellKnown.datacontenttype.name v ∧ ContentType.parse v = .ok c
  dataSchema : ∀ u, e.dataSchema = some u ↔ ∃ v, Says l WellKnown.dataschema.name v ∧ Uri.parse v = .ok u
  subject : ∀ v, e.subject = some v ↔ Says l WellKnown.subject.name v
  time : ∀ t, e.time = some t ↔ ∃ v, Says l WellKnown.time.name v ∧ Instant.read? v = some t
  attributes : ∀ n v, e.attribute? n = some v ↔ isReserved n = false ∧ Says l n v
  data : ∀ p, e.data = some p ↔ HasData l p
  binding : e.binding = b

end Rules

variable {l : List (String × List Char)} {b : Binding}

/-- The last value of a name is the first one from behind. -/
theorem isLast_iff_lookup {n : String} {raw : List Char} :
    IsLast l n raw ↔ NameMap.lookup n l.reverse = some raw :=
  NameMap.lookup_reverse_eq_some_iff.symm

theorem IsLast.unique {n : String} {raw raw' : List Char} (h : IsLast l n raw) (h' : IsLast l n raw') :
    raw = raw' :=
  Option.some.inj ((isLast_iff_lookup.1 h).symm.trans (isLast_iff_lookup.1 h'))

theorem exists_isLast_iff {n : String} : (∃ raw, IsLast l n raw) ↔ n ∈ l.map Prod.fst := by
  simp only [isLast_iff_lookup, ← Option.ne_none_iff_exists', ne_eq, NameMap.lookup_eq_none_iff,
    List.map_reverse, List.mem_reverse, not_not]

/-- Members say everything there is to an event. -/
theorem Fills.unique {d e : Event} (hd : Fills l b d) (he : Fills l b e) : d = e := by
  -- In each place both hold a value if and only if the members say it.
  have hattr : d.attributes = e.attributes :=
    NameMap.ext_get? fun n => Option.ext fun v => (hd.attributes n v).trans (he.attributes n v).symm
  have hid : d.id = e.id := Option.ext fun v => (hd.id v).trans (he.id v).symm
  have hsource : d.source = e.source := Option.ext fun u => (hd.source u).trans (he.source u).symm
  have htype : d.type = e.type := Option.ext fun v => (hd.type v).trans (he.type v).symm
  have hcontent : d.dataContentType = e.dataContentType :=
    Option.ext fun c => (hd.dataContentType c).trans (he.dataContentType c).symm
  have hschema : d.dataSchema = e.dataSchema :=
    Option.ext fun u => (hd.dataSchema u).trans (he.dataSchema u).symm
  have hsubject : d.subject = e.subject := Option.ext fun v => (hd.subject v).trans (he.subject v).symm
  have htime : d.time = e.time := Option.ext fun t => (hd.time t).trans (he.time t).symm
  have hdata : d.data = e.data := Option.ext fun p => (hd.data p).trans (he.data p).symm
  have hbinding : d.binding = e.binding := hd.binding.trans he.binding.symm
  cases d
  cases e
  simp only [Event.mk.injEq]
  exact ⟨hid, hsource, htype, hcontent, hschema, hsubject, htime, hattr, hdata, hbinding⟩

/-! ## Members as the reader has them -/

/-- The reader's map of the members of an object: the last value of each name, which is a value. -/
structure Maps (ms : NameMap (List Char)) (l : List (String × List Char)) : Prop where
  get?_eq_some_iff : ∀ n raw, ms.get? n = some raw ↔ IsLast l n raw
  spells : ∀ n raw, IsLast l n raw → Json.Spells .value raw

/-- The map of the reader is a map of the members that are there. -/
theorem maps_ofList {s : List Char} (h : Json.IsObject s l) : Maps (.ofList l) l where
  get?_eq_some_iff _ _ := NameMap.get?_ofList_eq_some_iff
  spells := by
    rintro n raw ⟨before, after, rfl, -⟩
    exact h.spells (List.mem_append_right _ List.mem_cons_self)

/-- An object is not blank. -/
theorem isAllBlank_eq_false {s : List Char} (h : Json.IsObject s l) : Text.isAllBlank s = false := by
  obtain ⟨g, t, g', ms, rfl, -, -, hobject, -⟩ := h
  have hbrace : '{' ∈ g ++ (t ++ g') := by
    refine List.mem_append_right _ (List.mem_append_left _ ?_)
    cases hobject <;> exact List.mem_cons_self
  refine Bool.eq_false_iff.2 fun hblank => ?_
  exact absurd (List.all_eq_true.1 hblank _ hbrace) (by decide)

/-- **The reader has members from the text of an object and from no other.** -/
theorem members_eq_ok_iff {s : List Char} {ms : NameMap (List Char)} :
    members s = .ok ms ↔ ∃ l, Json.IsObject s l ∧ ms = .ofList l := by
  unfold members
  constructor
  · intro h
    split at h
    · exact absurd h (by simp)
    · split at h
      · rename_i l hl
        exact ⟨l, Json.members?_eq_some_iff.1 hl, (Except.ok.inj h).symm⟩
      · exact absurd h (by simp)
  · rintro ⟨l, hl, rfl⟩
    rw [isAllBlank_eq_false hl, Json.members?_eq_some_iff.2 hl]
    rfl

variable {ms : NameMap (List Char)} {e : Event} {n v : String} {raw : List Char}

theorem Maps.get?_eq_none_iff (hm : Maps ms l) : ms.get? n = none ↔ n ∉ l.map Prod.fst := by
  rw [← not_iff_not, not_not, ← exists_isLast_iff, ← ne_eq, Option.ne_none_iff_exists']
  exact exists_congr fun raw => hm.get?_eq_some_iff n raw

/-- The text of a member is what its last value is a literal of. -/
theorem Maps.text?_eq_some_iff (hm : Maps ms l) (hraw : IsLast l n raw) :
    text? raw = some v ↔ Json.IsTextOf raw v :=
  Json.literal?_eq_some_iff (hm.spells n raw hraw)

/-- The reader finds what a member says. -/
theorem Maps.member?_eq_some_iff (hm : Maps ms l) : member? ms n = some v ↔ Says l n v := by
  unfold member? Says
  rw [Option.bind_eq_some_iff]
  constructor
  · rintro ⟨raw, hraw, hv⟩
    have hlast := (hm.get?_eq_some_iff n raw).1 hraw
    exact ⟨raw, hlast, (hm.text?_eq_some_iff hlast).1 hv⟩
  · rintro ⟨raw, hlast, hv⟩
    exact ⟨raw, (hm.get?_eq_some_iff n raw).2 hlast, (hm.text?_eq_some_iff hlast).2 hv⟩

/-! ## Version and data -/

/-- The version passes if every last value of it is a literal of this version. -/
theorem checkVersion_eq_ok_iff (hm : Maps ms l) :
    checkVersion ms = .ok () ↔ ∀ raw, IsLast l WellKnown.specversion.name raw → Json.IsTextOf raw specVersion := by
  unfold checkVersion
  cases hget : ms.get? WellKnown.specversion.name with
  | none =>
    refine iff_of_true rfl fun raw hraw => ?_
    rw [(hm.get?_eq_some_iff _ raw).2 hraw] at hget
    exact absurd hget (by simp)
  | some raw =>
    have hlast := (hm.get?_eq_some_iff _ raw).1 hget
    simp only
    split
    · rename_i hv
      refine iff_of_true rfl fun raw' h => ?_
      rw [h.unique hlast]
      exact (hm.text?_eq_some_iff hlast).1 hv
    · rename_i hv
      exact iff_of_false (by simp) fun h => hv ((hm.text?_eq_some_iff hlast).2 (h raw hlast))

/-- There are no octets if the member of octets is missing. -/
theorem readOctets_eq_none_iff (hm : Maps ms l) : readOctets ms = .ok none ↔ base64Name ∉ l.map Prod.fst := by
  rw [← hm.get?_eq_none_iff]
  unfold readOctets
  cases ms.get? base64Name with
  | none => simp
  | some raw =>
    cases ht : text? raw with
    | none => simp [ht]
    | some s => cases hd : Text.Base64.decode? s.toList <;> simp [ht, hd]

/-- Octets are read from their own text and from no other. -/
theorem readOctets_eq_some_iff (hm : Maps ms l) {bytes : List UInt8} :
    readOctets ms = .ok (some bytes) ↔ Says l base64Name (String.ofList (Text.Base64.encode bytes)) := by
  have hdecode : ∀ s : String, Text.Base64.decode? s.toList = some bytes ↔
      s = String.ofList (Text.Base64.encode bytes) := fun s => by
    rw [Text.Base64.decode?_eq_some_iff, ← String.toList_inj, String.toList_ofList]
  rw [← hm.member?_eq_some_iff, member?, Option.bind_eq_some_iff]
  unfold readOctets
  cases ms.get? base64Name with
  | none => simp
  | some raw =>
    simp only [Option.some.injEq, exists_eq_left']
    cases ht : text? raw with
    | none => simp
    | some s =>
      rw [Option.some.injEq, ← hdecode s]
      cases hd : Text.Base64.decode? s.toList <;> simp [hd]

/-- The data of an object is its octets, if it has a member for octets and none for text. -/
theorem hasData_iff_octets {bytes : List UInt8} (hm : Maps ms l) (ho : readOctets ms = .ok (some bytes))
    (hd : dataName ∉ l.map Prod.fst) {p : Payload} : HasData l p ↔ p = .octets bytes := by
  constructor
  · intro h
    cases h with
    | octets h =>
      have hsame := ((readOctets_eq_some_iff hm).2 h).symm.trans ho
      rw [Option.some.inj (Except.ok.inj hsame)]
    | text h =>
      obtain ⟨raw, hlast, -⟩ := h
      exact absurd (exists_isLast_iff.1 ⟨raw, hlast⟩) hd
    | verbatim hlast _ => exact absurd (exists_isLast_iff.1 ⟨_, hlast⟩) hd
  · rintro rfl
    exact .octets ((readOctets_eq_some_iff hm).1 ho)

/-- The data of an object is what its member for text says or is, if it has no member for octets. -/
theorem hasData_iff_text (hm : Maps ms l) (ho : base64Name ∉ l.map Prod.fst) {p : Payload} :
    HasData l p ↔ ∃ raw, IsLast l dataName raw ∧ p = .text ((text? raw).getD (String.ofList raw)) := by
  constructor
  · intro h
    cases h with
    | octets h =>
      obtain ⟨raw, hlast, -⟩ := h
      exact absurd (exists_isLast_iff.1 ⟨raw, hlast⟩) ho
    | text h =>
      obtain ⟨raw, hlast, hv⟩ := h
      exact ⟨raw, hlast, by rw [(hm.text?_eq_some_iff hlast).2 hv, Option.getD_some]⟩
    | @verbatim raw hlast hno =>
      -- What is the literal of no text is not read, and is taken as it is written.
      exact ⟨raw, hlast, by rw [text?, (Json.literal?_eq_none_iff (hm.spells _ _ hlast)).2 hno, Option.getD_none]⟩
  · rintro ⟨raw, hlast, rfl⟩
    cases ht : text? raw with
    | none =>
      refine .verbatim hlast fun v hv => ?_
      rw [(hm.text?_eq_some_iff hlast).2 hv] at ht
      exact absurd ht (by simp)
    | some v => exact .text ⟨raw, hlast, (hm.text?_eq_some_iff hlast).1 ht⟩

theorem Maps.contains_iff (hm : Maps ms l) : ms.contains n = true ↔ n ∈ l.map Prod.fst := by
  rw [NameMap.contains_iff, ← exists_isLast_iff]
  exact exists_congr fun raw => hm.get?_eq_some_iff n raw

/-- Data can be read if its members are admitted. -/
theorem exists_readData (hm : Maps ms l)
    (hoctets : ∀ raw, IsLast l base64Name raw →
      ∃ bytes, Json.IsTextOf raw (String.ofList (Text.Base64.encode bytes)))
    (hone : ¬(base64Name ∈ l.map Prod.fst ∧ dataName ∈ l.map Prod.fst)) : ∃ data, readData ms = .ok data := by
  unfold readData
  by_cases hpresent : base64Name ∈ l.map Prod.fst
  · obtain ⟨raw, hlast⟩ := exists_isLast_iff.2 hpresent
    obtain ⟨bytes, hbytes⟩ := hoctets raw hlast
    have hdata : ¬ms.contains dataName = true := fun hc => hone ⟨hpresent, hm.contains_iff.1 hc⟩
    simp only [(readOctets_eq_some_iff hm).2 ⟨raw, hlast, hbytes⟩, if_neg hdata]
    exact ⟨_, rfl⟩
  · simp only [(readOctets_eq_none_iff hm).2 hpresent]
    exact ⟨_, rfl⟩

/-- **Data that can be read is admitted**, and is what its members say. -/
theorem readData_eq_ok (hm : Maps ms l) {data : Option Payload} (h : readData ms = .ok data) :
    (∀ raw, IsLast l base64Name raw → ∃ bytes, Json.IsTextOf raw (String.ofList (Text.Base64.encode bytes))) ∧
      ¬(base64Name ∈ l.map Prod.fst ∧ dataName ∈ l.map Prod.fst) ∧ ∀ p, data = some p ↔ HasData l p := by
  unfold readData at h
  split at h
  · exact absurd h (by simp)
  · rename_i ho
    have habsent := (readOctets_eq_none_iff hm).1 ho
    refine ⟨fun raw hlast => absurd (exists_isLast_iff.1 ⟨raw, hlast⟩) habsent, fun hand => habsent hand.1, ?_⟩
    intro p
    rw [← Except.ok.inj h, hasData_iff_text hm habsent, Option.map_eq_some_iff]
    exact exists_congr fun raw => and_congr (hm.get?_eq_some_iff _ raw) eq_comm
  · rename_i bytes ho
    split at h
    · exact absurd h (by simp)
    · rename_i hc
      have habsent : dataName ∉ l.map Prod.fst := fun hmem => hc (hm.contains_iff.2 hmem)
      refine ⟨?_, fun hand => habsent hand.2, ?_⟩
      · intro raw hlast
        obtain ⟨raw', hlast', hbytes⟩ := (readOctets_eq_some_iff hm).1 ho
        exact ⟨bytes, hlast.unique hlast' ▸ hbytes⟩
      · intro p
        rw [← Except.ok.inj h, hasData_iff_octets hm ho habsent, Option.some.injEq, eq_comm]

/-! ## The other members -/

theorem exists_uri_iff {s : String} : (∃ u, Uri.parse s = .ok u) ↔ isUriReference s = true := by
  constructor
  · rintro ⟨u, hu⟩
    exact Uri.parse_eq_ok_iff.1 hu ▸ u.isReference
  · intro h
    exact ⟨⟨s, h⟩, Uri.parse_eq_ok_iff.2 rfl⟩

theorem exists_contentType_iff {s : String} : (∃ c, ContentType.parse s = .ok c) ↔ isContentType s = true := by
  constructor
  · rintro ⟨c, hc⟩
    exact ContentType.parse_eq_ok_iff.1 hc ▸ c.isContentType
  · intro h
    exact ⟨⟨s, h⟩, ContentType.parse_eq_ok_iff.2 rfl⟩

/-- A member that is neither the version nor data. -/
def IsOther (n : String) : Prop := n ≠ WellKnown.specversion.name ∧ n ≠ base64Name ∧ n ≠ dataName

theorem isOther_name {w : WellKnown} (hw : w ≠ .specversion) : IsOther w.name := by
  unfold IsOther
  cases w <;> first | exact absurd rfl hw | decide

theorem get?_attributeMembers_of_isOther (hn : IsOther n) : (attributeMembers ms).get? n = ms.get? n := by
  rw [get?_attributeMembers, if_neg]
  exact not_or.2 ⟨hn.1, not_or.2 hn.2⟩

theorem isOther_of_get?_attributeMembers (h : (attributeMembers ms).get? n = some raw) : IsOther n := by
  rw [get?_attributeMembers] at h
  split at h
  · exact absurd h (by simp)
  · rename_i hn
    rw [not_or, not_or] at hn
    exact hn

/-- A name that is no slot's and no member's for data is not reserved. -/
theorem isReserved_eq_false (hn : IsOther n) (hs : slotOfName? n = none) : isReserved n = false := by
  have hw : isWellKnown n = false := by
    refine Bool.eq_false_iff.2 fun hw => ?_
    obtain ⟨w, rfl⟩ := isWellKnown_iff.1 hw
    rw [slotOfName?_name] at hs
    exact absurd hs (by simp)
  have hbase : (n == base64Name) = false := beq_eq_false_iff_ne.2 hn.2.1
  have hdata : (n == dataName) = false := beq_eq_false_iff_ne.2 hn.2.2
  rw [isReserved, hw, hdata, hbase]
  rfl

/-- What a document may say, the reader accepts. -/
theorem Admits.accepts (ha : Admits l) (hn : IsOther n) (hs : Says l n v) : Accepts n v := by
  rw [Accepts]
  cases hslot : slotOfName? n with
  | none =>
    obtain ⟨raw, hlast, -⟩ := hs
    exact ⟨(ha.text n raw hn.1 hn.2.1 hn.2.2 hlast).1, isReserved_eq_false hn hslot⟩
  | some w =>
    obtain rfl := slotOfName?_eq_some_iff.1 hslot
    cases w with
    | id =>
      rintro rfl
      exact ha.id hs
    | source => exact exists_uri_iff.1 (ha.source v hs)
    | specversion => exact absurd rfl hn.1
    | type => trivial
    | datacontenttype => exact exists_contentType_iff.1 (ha.dataContentType v hs)
    | dataschema => exact exists_uri_iff.1 (ha.dataSchema v hs)
    | subject => trivial
    | time => exact Option.isSome_iff_exists.2 (ha.time v hs)

/-! ## The whole event -/

/-- **Members that are admitted describe an event.** -/
theorem exists_describes (b : Binding) (hm : Maps ms l) (ha : Admits l) : ∃ e, Describes b ms e := by
  have haccepted : ∀ x ∈ (attributeMembers ms).entries, ∃ v, text? x.2 = some v ∧ Accepts x.1 v := by
    rintro ⟨n, raw⟩ hx
    have hget := NameMap.mem_entries_iff.1 hx
    have hn := isOther_of_get?_attributeMembers hget
    rw [get?_attributeMembers_of_isOther hn] at hget
    have hlast := (hm.get?_eq_some_iff n raw).1 hget
    obtain ⟨-, v, hv⟩ := ha.text n raw hn.1 hn.2.1 hn.2.2 hlast
    exact ⟨v, (hm.text?_eq_some_iff hlast).2 hv, ha.accepts hn ⟨raw, hlast, hv⟩⟩
  obtain ⟨e, he⟩ := exists_setMembers_iff (e := .blank b).2 haccepted
  obtain ⟨data, hdata⟩ := exists_readData hm ha.octets ha.oneData
  exact ⟨_, describes_of_setMembers ((checkVersion_eq_ok_iff hm).2 ha.version) hdata he⟩

/-- **Members that describe an event are admitted.** -/
theorem Describes.admits (hd : Describes b ms e) (hm : Maps ms l) : Admits l := by
  obtain ⟨hoctets, hone, -⟩ := readData_eq_ok hm hd.data
  have haccepted : ∀ n raw, IsOther n → IsLast l n raw → ∃ v, Json.IsTextOf raw v ∧ Accepts n v := by
    intro n raw hn hlast
    have hget := (hm.get?_eq_some_iff n raw).2 hlast
    rw [← get?_attributeMembers_of_isOther hn] at hget
    obtain ⟨v, hv, ha⟩ := hd.accepted n raw hget
    exact ⟨v, (hm.text?_eq_some_iff hlast).1 hv, ha⟩
  -- The text of a value is unique, so what is accepted is what the member says.
  have hslot : ∀ (w : WellKnown) (v : String), w ≠ .specversion → Says l w.name v → Accepts w.name v := by
    rintro w v hw ⟨raw, hlast, hv⟩
    obtain ⟨v', hv', ha⟩ := haccepted w.name raw (isOther_name hw) hlast
    rw [← hm.text?_eq_some_iff hlast] at hv hv'
    rw [Option.some.inj (hv.symm.trans hv')]
    exact ha
  refine ⟨(checkVersion_eq_ok_iff hm).1 hd.version, hoctets, hone, ?_, ?_, ?_, ?_, ?_, ?_⟩
  · intro n raw hversion hbase hdata hlast
    obtain ⟨v, hv, ha⟩ := haccepted n raw ⟨hversion, hbase, hdata⟩ hlast
    refine ⟨?_, v, hv⟩
    rintro rfl
    exact absurd rfl (show IsExtensionName "" from ha).1
  · intro hempty
    exact absurd rfl (show "" ≠ "" from hslot .id "" (by decide) hempty)
  · exact fun v hv => exists_uri_iff.2 (hslot .source v (by decide) hv)
  · exact fun v hv => exists_contentType_iff.2 (hslot .datacontenttype v (by decide) hv)
  · exact fun v hv => exists_uri_iff.2 (hslot .dataschema v (by decide) hv)
  · exact fun v hv => Option.isSome_iff_exists.1 (hslot .time v (by decide) hv)

theorem toOption_eq_some_iff {α : Type} {r : Except Error α} {a : α} : r.toOption = some a ↔ r = .ok a := by
  cases r <;> simp [Except.toOption]

/-- **The event that members describe has what they say.** -/
theorem Describes.fills (hd : Describes b ms e) (hm : Maps ms l) : Fills l b e where
  id v := by rw [hd.id, hm.member?_eq_some_iff]
  source u := by
    rw [hd.source, Option.bind_eq_some_iff]
    exact exists_congr fun v => and_congr hm.member?_eq_some_iff toOption_eq_some_iff
  type v := by rw [hd.type, hm.member?_eq_some_iff]
  dataContentType c := by
    rw [hd.dataContentType, Option.bind_eq_some_iff]
    exact exists_congr fun v => and_congr hm.member?_eq_some_iff toOption_eq_some_iff
  dataSchema u := by
    rw [hd.dataSchema, Option.bind_eq_some_iff]
    exact exists_congr fun v => and_congr hm.member?_eq_some_iff toOption_eq_some_iff
  subject v := by rw [hd.subject, hm.member?_eq_some_iff]
  time t := by
    rw [hd.time, Option.bind_eq_some_iff]
    exact exists_congr fun v => and_congr_left fun _ => hm.member?_eq_some_iff
  attributes n v := by
    rw [hd.attributes]
    split
    · rename_i hn
      rw [hm.member?_eq_some_iff]
      exact (and_iff_right hn).symm
    · rename_i hn
      exact iff_of_false (by simp) fun hand => hn hand.1
  data := (readData_eq_ok hm hd.data).2.2
  binding := hd.binding

/-- **The reader accepts exactly the documents of events**: objects whose members are admitted.  The event it
finds is the one that has what the members say. -/
theorem decode_iff_grammar (b : Binding) (json : String) :
    ((∃ e, decode b json = .ok e) ↔ ∃ l, Json.IsObject json.toList l ∧ Admits l) ∧
    ∀ e, decode b json = .ok e ↔ ∃ l, Json.IsObject json.toList l ∧ Admits l ∧ Fills l b e := by
  have hfound : ∀ e, decode b json = .ok e → ∃ l, Json.IsObject json.toList l ∧ Admits l ∧ Fills l b e := by
    intro e h
    obtain ⟨ms, hms, hd⟩ := decode_eq_ok_iff.1 h
    obtain ⟨l, hl, rfl⟩ := members_eq_ok_iff.1 hms
    exact ⟨l, hl, hd.admits (maps_ofList hl), hd.fills (maps_ofList hl)⟩
  have haccepted : ∀ l, Json.IsObject json.toList l → Admits l → ∃ e, decode b json = .ok e ∧ Fills l b e := by
    intro l hl ha
    obtain ⟨e, hd⟩ := exists_describes b (maps_ofList hl) ha
    exact ⟨e, decode_eq_ok_iff.2 ⟨_, members_eq_ok_iff.2 ⟨l, hl, rfl⟩, hd⟩, hd.fills (maps_ofList hl)⟩
  refine ⟨⟨?_, ?_⟩, fun e => ⟨hfound e, ?_⟩⟩
  · rintro ⟨e, h⟩
    obtain ⟨l, hl, ha, -⟩ := hfound e h
    exact ⟨l, hl, ha⟩
  · rintro ⟨l, hl, ha⟩
    obtain ⟨e, h, -⟩ := haccepted l hl ha
    exact ⟨e, h⟩
  · rintro ⟨l, hl, ha, hf⟩
    -- Some event is read, and what the members say leaves no choice of it.
    obtain ⟨e', h, hf'⟩ := haccepted l hl ha
    rw [hf.unique hf']
    exact h

/-! ## Documents of texts -/

/-- A member with a text for its value, as it is written. -/
def literalMember (m : String × String) : String × List Char := (m.1, Json.quote m.2.toList)

/-- A document all of whose members are texts. -/
def textDocument (style : Json.Style) (l : List (String × String)) : String :=
  (Json.Tree.object (l.map fun (n, v) => (n, .text v))).render style

/-- It is an object with these members and no others. -/
theorem isObject_textDocument (style : Json.Style) (l : List (String × String)) :
    Json.IsObject (textDocument style l).toList (l.map literalMember) := by
  have hspells : ∀ m ∈ l.map fun (n, v) => (n, Json.Tree.text v),
      Json.Spells .value (Json.Tree.renderAt style 1 m.2) := by
    intro m hm
    obtain ⟨x, -, rfl⟩ := List.mem_map.1 hm
    rw [Json.Tree.renderAt]
    exact Json.spells_quote _
  have hread := Json.Tree.members?_renderAt hspells
  rw [List.map_map] at hread
  rw [textDocument, Json.Tree.render, String.toList_ofList, ← Json.members?_eq_some_iff, hread]
  refine congrArg some (List.map_congr_left fun m _ => ?_)
  rw [Function.comp_apply, Json.Tree.renderAt]
  rfl

/-- No text is lost between the quotes, so the members are set from the texts themselves. -/
theorem setMembers_literals (e : Event) (l : List (String × String)) :
    setMembers e (l.map literalMember) = l.foldlM (fun e m => setMember e m.1 m.2) e := by
  induction l generalizing e with
  | nil => rfl
  | cons m l ih =>
    simp only [List.map_cons, literalMember, setMembers, text?, Json.literal?_quote, List.foldlM_cons]
    cases setMember e m.1 m.2 with
    | ok e' => exact ih e'
    | error err => rfl

/-- **A document of texts is read without its quotes**: the data is one of the texts, and the others, in the
order of their names, are set one after the other. -/
theorem decode_textDocument (b : Binding) (style : Json.Style) (l attributes : List (String × String))
    (data : Option String) (e : Event)
    (hversion : (NameMap.ofList (l.map literalMember)).get? WellKnown.specversion.name = none)
    (hoctets : (NameMap.ofList (l.map literalMember)).get? base64Name = none)
    (hdata : (NameMap.ofList (l.map literalMember)).get? dataName = data.map fun s => Json.quote s.toList)
    (hattributes : (attributeMembers (.ofList (l.map literalMember))).entries = attributes.map literalMember)
    (he : attributes.foldlM (fun e m => setMember e m.1 m.2) (.blank b) = .ok e) :
    decode b (textDocument style l) = .ok { e with data := data.map .text } := by
  have hread : readData (.ofList (l.map literalMember)) = .ok (data.map .text) := by
    unfold readData readOctets
    rw [hoctets, hdata]
    cases data with
    | none => rfl
    | some s =>
      show Except.ok (some (Payload.text ((text? (Json.quote s.toList)).getD _))) = _
      rw [text?, Json.literal?_quote, Option.getD_some]
      rfl
  rw [decode, members_eq_ok_iff.2 ⟨_, isObject_textDocument style l, rfl⟩]
  show (checkVersion _ >>= fun _ => _) = _
  rw [checkVersion, hversion, hread, hattributes, setMembers_literals, he]
  rfl

end CloudEvents.Wire.Structured
