/-
  What becomes of the headers of a message in binary mode.

  The reader goes over the headers twice.  It asks for the header of each slot by its name, and it goes through
  the whole map and takes what is left over for extension attributes, by looking back from the name of a header
  to the attribute that it carries.  The two passes do not know of each other.  That they share out the headers
  between them, so that none is lost and none is used twice, is a fact about names: a header is either of a slot
  or not, of one slot only, and if it is of none then its own name is reserved or it is not (`perm_parts`).

  Main statement: `decode_eq_ok_iff_accounts`.
-/
import CloudEvents.Proofs.Wire.BinaryReading
import Mathlib.Data.List.Induction

namespace CloudEvents

/-- A map is the list of its entries. -/
theorem NameMap.entries_ofList {α : Type} {l : List (String × α)} (h : l.Pairwise (fun x y => x.1 < y.1)) :
    (ofList l).entries = l :=
  congrArg entries (ofList_entries ⟨l, h⟩)

theorem NameMap.nodup_of_nodup_names {α : Type} {l : List (String × α)} (h : (l.map Prod.fst).Nodup) :
    l.Nodup := by
  rw [List.Nodup, List.pairwise_map] at h
  exact h.imp fun hne heq => hne (congrArg Prod.fst heq)

namespace Wire.Binary

variable {b : Binding} {h : Headers} {m : Message} {e : Event} {n : String}

/-! ## Three sorts of headers -/

/-- A name under which a slot travels. -/
def IsSlotName (b : Binding) (n : String) : Prop := ∃ w : WellKnown, n = b.headerName w.name

instance (b : Binding) (n : String) : Decidable (IsSlotName b n) :=
  decidable_of_iff (∃ w ∈ WellKnown.all, n = b.headerName w.name)
    ⟨fun ⟨w, _, hw⟩ => ⟨w, hw⟩, fun ⟨w, hw⟩ => ⟨w, w.mem_all, hw⟩⟩

/-- The headers of slots, slot by slot. -/
def slotPart (b : Binding) (h : Headers) : List (String × HeaderValue) :=
  WellKnown.all.filterMap fun w => (slotHeader? b h w).map (b.headerName w.name, ·)

/-- The headers that are of no slot. -/
def otherPart (b : Binding) (h : Headers) : List (String × HeaderValue) :=
  h.entries.filter fun x => !IsSlotName b x.1

/-- Those of them that have a reserved name. -/
def reservedPart (b : Binding) (h : Headers) : List (String × HeaderValue) :=
  (otherPart b h).filter fun x => isReserved x.1

/-- Those of them that have a name of their own. -/
def ownPart (b : Binding) (h : Headers) : List (String × HeaderValue) :=
  (otherPart b h).filter fun x => !isReserved x.1

theorem mem_slotPart {x : String × HeaderValue} :
    x ∈ slotPart b h ↔ x ∈ h.entries ∧ IsSlotName b x.1 := by
  obtain ⟨n, v⟩ := x
  rw [NameMap.mem_entries_iff]
  constructor
  · intro hx
    obtain ⟨w, -, hw⟩ := List.mem_filterMap.1 hx
    obtain ⟨v', hv, heq⟩ := Option.map_eq_some_iff.1 hw
    obtain ⟨rfl, rfl⟩ := Prod.mk.inj heq
    exact ⟨hv, w, rfl⟩
  · rintro ⟨hv, w, rfl⟩
    have hv : slotHeader? b h w = some v := hv
    exact List.mem_filterMap.2 ⟨w, w.mem_all, by rw [hv]; rfl⟩

theorem nodup_slotPart (b : Binding) (h : Headers) : (slotPart b h).Nodup :=
  NameMap.nodup_of_nodup_names (nodup_slotEntries Binding.headerName_name_inj.1 _)

/-- **Every header is of one sort**, and each is counted once. -/
theorem perm_parts (b : Binding) (h : Headers) :
    h.entries.Perm (slotPart b h ++ (reservedPart b h ++ ownPart b h)) := by
  have hslots : (h.entries.filter fun x => IsSlotName b x.1).Perm (slotPart b h) := by
    apply (List.perm_ext_iff_of_nodup ?_ (nodup_slotPart b h)).2
    · intro x
      rw [mem_slotPart, List.mem_filter, decide_eq_true_iff]
    · exact (NameMap.nodup_of_nodup_names h.nodup_entries).filter _
  have hothers : (reservedPart b h ++ ownPart b h).Perm (otherPart b h) := List.filter_append_perm _ _
  exact (List.filter_append_perm _ h.entries).symm.trans (hslots.append hothers.symm)

/-- Looking back from the name of a header finds out whether it is of a slot. -/
theorem isExtension_eq (b : Binding) (n : String) : isExtension b n = (!isReserved n && !IsSlotName b n) := by
  have hnot : (∀ w : WellKnown, n ≠ b.headerName w.name) ↔ ¬IsSlotName b n := by
    rw [IsSlotName, not_exists]
  rw [Bool.eq_iff_iff, isExtension_iff, hnot]
  simp [and_comm]

/-- What the second pass takes for extension attributes is what the first one does not ask for. -/
theorem extensions_eq (b : Binding) (h : Headers) :
    extensions b h = (ownPart b h).map fun x => (x.1, x.2.display) := by
  unfold extensions ownPart otherPart
  simp only [isExtension_eq, List.filter_filter]

/-! ## The event -/

/-- What a slot holds that has a type: nothing without a header, and otherwise what the header reads as. -/
def ReadsAs {α : Type} [HeaderValue.Readable α] (header? : Option HeaderValue) (slot : Option α) : Prop :=
  slot.isSome = header?.isSome ∧ slot = header?.bind (·.read? α)

/-- A slot that has a type holds what its header reads as. -/
theorem slot_eq_ok_iff_readsAs {α : Type} [HeaderValue.Readable α] {w : WellKnown} {x : Option α} :
    slot b h α w = .ok x ↔ ReadsAs (slotHeader? b h w) x := by
  rw [slot_eq_ok_iff, ReadsAs]
  cases slotHeader? b h w with
  | none => simp
  | some v =>
    simp only [reduceCtorEq, false_and, false_or, Option.some.injEq, Option.isSome_some, Option.bind_some]
    constructor
    · rintro ⟨_, a, rfl, hread, rfl⟩
      exact ⟨rfl, hread.symm⟩
    · rintro ⟨hsome, rfl⟩
      obtain ⟨a, ha⟩ := Option.isSome_iff_exists.1 hsome
      exact ⟨v, a, rfl, ha, ha⟩

/-- An event is made of the headers of a message and of its payload, and every header is accounted for. -/
structure Accounts (b : Binding) (m : Message) (e : Event) : Prop where
  headers : m.headers.entries.Perm
    (slotPart b m.headers ++ (reservedPart b m.headers ++ ownPart b m.headers))
  /-- The version has no slot in an event. -/
  version : ∀ v, slotHeader? b m.headers .specversion = some v → v.display = specVersion
  id : e.id = (slotHeader? b m.headers .id).map HeaderValue.display
  type : e.type = (slotHeader? b m.headers .type).map HeaderValue.display
  subject : e.subject = (slotHeader? b m.headers .subject).map HeaderValue.display
  source : ReadsAs (slotHeader? b m.headers .source) e.source
  dataSchema : ReadsAs (slotHeader? b m.headers .dataschema) e.dataSchema
  dataContentType : ReadsAs (slotHeader? b m.headers .datacontenttype) e.dataContentType
  time : ReadsAs (slotHeader? b m.headers .time) e.time
  attributes : e.attributes.entries = (ownPart b m.headers).map fun x => (x.1, x.2.display)
  data : e.data = some m.payload
  binding : e.binding = b

/-- The attributes of an event are the list of what the reader takes for them. -/
theorem attributes_eq_iff :
    (∀ n, e.attribute? n = if isExtension b n then (h.get? n).map HeaderValue.display else none) ↔
      e.attributes.entries = extensions b h := by
  have hincreasing : (extensions b h).Pairwise fun x y => x.1 < y.1 := by
    unfold extensions
    rw [List.pairwise_map]
    exact h.increasing.filter _
  simp only [← lookup_extensions]
  constructor
  · intro hattr
    rw [← NameMap.entries_ofList hincreasing]
    apply congrArg
    apply NameMap.ext_get?
    intro n
    rw [NameMap.get?_ofList (nodup_extensions b h)]
    exact hattr n
  · intro heq n
    rw [← heq]
    rfl

/-- **Reading accounts for every header once.**  A message that can be read is read as the event that is made of
its headers and its payload; it can be read if there is such an event, with an id that is not empty, and if no
header is nameless. -/
theorem decode_eq_ok_iff_accounts :
    decode b m = .ok e ↔ Accounts b m e ∧ e.id ≠ some "" ∧ m.headers.get? "" = none := by
  rw [decode_eq_ok_iff]
  constructor
  · intro hd
    obtain ⟨hid, hne⟩ := readId_eq_ok_iff.1 hd.id
    refine ⟨?_, hne, hd.nameless⟩
    exact {
      headers := perm_parts b m.headers
      version := fun v hv => by rw [checkVersion_eq_ok_iff_text.1 hd.version v hv, HeaderValue.display]
      id := hid
      type := hd.type.symm
      subject := hd.subject.symm
      source := slot_eq_ok_iff_readsAs.1 hd.source
      dataSchema := slot_eq_ok_iff_readsAs.1 hd.dataSchema
      dataContentType := slot_eq_ok_iff_readsAs.1 hd.dataContentType
      time := slot_eq_ok_iff_readsAs.1 hd.time
      attributes := by rw [attributes_eq_iff.1 hd.attributes, extensions_eq]
      data := hd.data
      binding := hd.binding }
  · rintro ⟨ha, hne, hnameless⟩
    exact {
      version := checkVersion_eq_ok_iff_text.2 fun v hv =>
        HeaderValue.display_eq_specVersion_iff.1 (ha.version v hv)
      id := readId_eq_ok_iff.2 ⟨ha.id, hne⟩
      source := slot_eq_ok_iff_readsAs.2 ha.source
      type := ha.type.symm
      dataContentType := slot_eq_ok_iff_readsAs.2 ha.dataContentType
      dataSchema := slot_eq_ok_iff_readsAs.2 ha.dataSchema
      subject := ha.subject.symm
      time := slot_eq_ok_iff_readsAs.2 ha.time
      nameless := hnameless
      attributes := attributes_eq_iff.2 (by rw [ha.attributes, extensions_eq])
      data := ha.data
      binding := ha.binding }

/-- Headers of every sort, three of them no texts: of slots, under reserved names with nothing in front, and
under names that only look like those of slots. -/
def mixedHeaders : Headers :=
  .ofList [("ce_id", .integer 7), ("ce_source", .text "/boilers"), ("ce_type", .boolean true),
    ("type", .text "bare"), ("data", .text "bare"), ("ce_data", .text "x"), ("ce_foo", .integer (-1)),
    ("cloudEvents:id", .text "other"), ("subject", .text "bare")]

/-- What they are read as. -/
def mixedEvent : Event :=
  { id := some "7", source := some ⟨"/boilers", by decide⟩, type := some "true",
    attributes := .ofList [("ce_data", "x"), ("ce_foo", "-1"), ("cloudEvents:id", "other")],
    data := some (.octets [0]), binding := .http }

/-- Under a prefix, headers that are named like slots without it are neither slots nor attributes. -/
theorem decode_mixedHeaders :
    decode .http ⟨.octets [0], mixedHeaders⟩ = .ok mixedEvent ∧
      Accounts .http ⟨.octets [0], mixedHeaders⟩ mixedEvent ∧
      reservedPart .http mixedHeaders = [("data", .text "bare"), ("subject", .text "bare"), ("type", .text "bare")] := by
  have hdecode : decode .http ⟨.octets [0], mixedHeaders⟩ = .ok mixedEvent := by decide +kernel
  exact ⟨hdecode, (decode_eq_ok_iff_accounts.1 hdecode).1, by decide +kernel⟩

end Wire.Binary

end CloudEvents
