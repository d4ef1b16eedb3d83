/-
  What a message in binary mode has to be like to be read, and as what it is read.

  `Describes b m e` lists it slot by slot and name by name, without the order in which the reader goes
  about it: which headers have to read as what, that no header is nameless, and that every other header
  is an extension attribute by its text.  `decode_eq_ok_iff` says that this is all there is to reading.

  The slots have readings of their own, and each has a lemma that says exactly when it succeeds
  (`checkVersion_eq_ok_iff_text`, `readId_eq_ok_iff`, `slot_eq_ok_iff`).

  Two messages that differ in one header only are then compared through their descriptions, and not
  through two runs of the reader.
-/
import CloudEvents.Proofs.Text.Decimal
import CloudEvents.Proofs.Wire.Headers

namespace CloudEvents

/-! ## The text of the version -/

/-- **Only the version is displayed as the version.** -/
theorem HeaderValue.display_eq_specVersion_iff {v : HeaderValue} :
    v.display = specVersion ↔ v = .text specVersion := by
  constructor
  · intro h
    have hlist := congrArg String.toList h
    cases v with
    | text s => rw [← h, display]
    -- The version has a point in it, ends in a digit and has no hyphen; each of the others fails at one of these.
    | integer i =>
      rw [display, Text.integerString, String.toList_ofList] at hlist
      exact absurd (hlist ▸ by decide) (Text.not_mem_integer i.toInt)
    | boolean x => cases x <;> exact absurd h (by decide)
    | time t =>
      rw [display, Instant.wireText, Instant.toText, String.toList_ofList] at hlist
      have hlast := congrArg List.getLast? hlist
      rw [Instant.write, List.getLast?_concat] at hlast
      exact absurd hlast (by decide)
    | uuid u =>
      rw [display, Uuid.toText, String.toList_ofList] at hlist
      have hmem : '-' ∈ u.write := by simp [Uuid.write]
      rw [hlist] at hmem
      exact absurd hmem (by decide)
  · rintro rfl
    rfl

namespace Wire.Binary

variable {b : Binding} {h : Headers}

/-! ## Slots -/

/-- The version passes if it is missing or the text of this version. -/
theorem checkVersion_eq_ok_iff_text :
    checkVersion b h = .ok () ↔ ∀ v, slotHeader? b h .specversion = some v → v = .text specVersion := by
  unfold checkVersion slotText?
  cases slotHeader? b h .specversion with
  | none => simp
  | some v =>
    simp only [Option.map_some, HeaderValue.display_eq_specVersion_iff, Option.some.injEq, forall_eq']
    split
    · rename_i hv
      exact iff_of_true rfl hv
    · rename_i hv
      exact iff_of_false (by simp) hv

/-- An id is any text but the empty one, or none. -/
theorem readId_eq_ok_iff {id : Option String} :
    readId b h = .ok id ↔ id = slotText? b h .id ∧ id ≠ some "" := by
  unfold readId
  split
  · rename_i hempty
    rw [hempty]
    exact iff_of_false (by simp) fun hand => hand.2 hand.1
  · rename_i hne
    rw [Except.ok.injEq]
    constructor
    · rintro rfl
      exact ⟨rfl, hne⟩
    · exact fun hand => hand.1.symm

/-- A slot is empty without a header, and holds what its header reads as. -/
theorem slot_eq_ok_iff {α : Type} [HeaderValue.Readable α] {w : WellKnown} {x : Option α} :
    slot b h α w = .ok x ↔
      slotHeader? b h w = none ∧ x = none ∨
        ∃ v a, slotHeader? b h w = some v ∧ v.read? α = some a ∧ x = some a := by
  unfold slot
  cases slotHeader? b h w with
  | none => simp [eq_comm]
  | some v =>
    cases hread : v.read? α with
    | none => simp [hread]
    | some a => simp [hread, eq_comm]

/-! ## Extension attributes -/

/-- Setting attributes one after the other works if each of them can be set by itself. -/
theorem setAttributes_eq_ok_iff {e e' : Event} {l : List (String × String)} :
    setAttributes e l = .ok e' ↔
      (∀ x ∈ l, IsExtensionName x.1) ∧
        e' = { e with attributes := l.foldl (fun m x => m.insert x.1 x.2) e.attributes } := by
  induction l generalizing e with
  | nil => simp [setAttributes, eq_comm]
  | cons x r ih =>
    obtain ⟨n, v⟩ := x
    rw [setAttributes, List.forall_mem_cons]
    by_cases hn : IsExtensionName n
    · have hs : e.setAttribute n v = .ok (e.putAttribute n v) :=
        Event.setAttribute_eq_ok_iff.2 ⟨hn.1, hn.2, rfl⟩
      rw [hs]
      show setAttributes (e.putAttribute n v) r = .ok e' ↔ _
      rw [ih]
      simp only [hn, true_and, Event.putAttribute, List.foldl_cons]
    · constructor
      · intro h
        cases hs : e.setAttribute n v with
        | error err => rw [hs] at h; simp at h
        | ok e₁ =>
          obtain ⟨hne, hr, -⟩ := Event.setAttribute_eq_ok_iff.1 hs
          exact absurd ⟨hne, hr⟩ hn
      · rintro ⟨⟨h, -⟩, -⟩
        exact absurd h hn

theorem nodup_extensions (b : Binding) (h : Headers) : ((extensions b h).map Prod.fst).Nodup := by
  unfold extensions
  rw [List.map_map]
  exact h.nodup_entries.sublist (List.filter_sublist.map _)

/-- A name is among the extension attributes if it has a header that is one. -/
theorem lookup_extensions (b : Binding) (h : Headers) (n : String) :
    NameMap.lookup n (extensions b h) =
      if isExtension b n then (h.get? n).map HeaderValue.display else none := by
  ext v
  rw [NameMap.lookup_eq_some_iff (nodup_extensions b h)]
  unfold extensions
  simp only [List.mem_map, List.mem_filter, Prod.mk.injEq]
  constructor
  · rintro ⟨⟨k, x⟩, ⟨hk, hx⟩, rfl, rfl⟩
    rw [if_pos hx, NameMap.mem_entries_iff.1 hk]
    rfl
  · intro hv
    split at hv
    · rename_i hx
      obtain ⟨x, hg, rfl⟩ := Option.map_eq_some_iff.1 hv
      exact ⟨(n, x), ⟨NameMap.mem_entries_iff.2 hg, hx⟩, rfl, rfl⟩
    · exact absurd hv (by simp)

theorem isExtension_empty (b : Binding) : isExtension b "" = true := by
  cases b <;> decide

/-- Only the empty name is refused: a reserved one does not get that far. -/
theorem forall_isExtensionName_iff {b : Binding} {h : Headers} :
    (∀ x ∈ extensions b h, IsExtensionName x.1) ↔ h.get? "" = none := by
  constructor
  · intro hall
    cases hg : h.get? "" with
    | none => rfl
    | some v =>
      have hl : NameMap.lookup "" (extensions b h) = some v.display := by
        rw [lookup_extensions, if_pos (isExtension_empty b), hg]
        rfl
      exact absurd rfl (hall _ ((NameMap.lookup_eq_some_iff (nodup_extensions b h)).1 hl)).1
  · rintro hg ⟨n, v⟩ hx
    have hl := (NameMap.lookup_eq_some_iff (nodup_extensions b h)).2 hx
    rw [lookup_extensions] at hl
    split at hl
    · rename_i hn
      refine ⟨?_, (isExtension_iff.1 hn).2⟩
      rintro rfl
      rw [hg] at hl
      exact absurd hl (by simp)
    · exact absurd hl (by simp)

/-! ## The whole event -/

/-- An event is what a message in binary mode says: the headers of the slots read as what the slots hold,
every other header is an extension attribute, and the payload is the data. -/
structure Describes (b : Binding) (m : Message) (e : Event) : Prop where
  version : checkVersion b m.headers = .ok ()
  id : readId b m.headers = .ok e.id
  source : slot b m.headers Uri .source = .ok e.source
  type : slotText? b m.headers .type = e.type
  dataContentType : slot b m.headers ContentType .datacontenttype = .ok e.dataContentType
  dataSchema : slot b m.headers Uri .dataschema = .ok e.dataSchema
  subject : slotText? b m.headers .subject = e.subject
  time : slot b m.headers Instant .time = .ok e.time
  nameless : m.headers.get? "" = none
  attributes : ∀ n, e.attribute? n =
    if isExtension b n then (m.headers.get? n).map HeaderValue.display else none
  data : e.data = some m.payload
  binding : e.binding = b

/-- **A message is read as the event it describes**, and as nothing else. -/
theorem decode_eq_ok_iff {b : Binding} {m : Message} {e : Event} :
    decode b m = .ok e ↔ Describes b m e := by
  have hattr : ∀ n, ((extensions b m.headers).foldl (fun m x => m.insert x.1 x.2)
      (NameMap.empty : NameMap String)).get? n =
        if isExtension b n then (m.headers.get? n).map HeaderValue.display else none := by
    intro n
    rw [NameMap.get?_foldl_insert _ (nodup_extensions b m.headers), NameMap.get?_empty, Option.or_none,
      lookup_extensions]
  unfold decode
  simp only [bind_eq_ok_iff, setAttributes_eq_ok_iff, forall_isExtensionName_iff, pure, Except.pure,
    Except.ok.injEq]
  constructor
  · rintro ⟨⟨⟩, hv, id, hid, source, hs, ct, hct, schema, hsch, time, ht, e₁, ⟨hnl, rfl⟩, rfl⟩
    exact ⟨hv, hid, hs, rfl, hct, hsch, rfl, ht, hnl, hattr, rfl, rfl⟩
  · intro h
    refine ⟨(), h.version, e.id, h.id, e.source, h.source, e.dataContentType, h.dataContentType,
      e.dataSchema, h.dataSchema, e.time, h.time, _, ⟨h.nameless, rfl⟩, ?_⟩
    have ha : (extensions b m.headers).foldl (fun m x => m.insert x.1 x.2)
        (NameMap.empty : NameMap String) = e.attributes :=
      NameMap.ext_get? fun n => (hattr n).trans (h.attributes n).symm
    have hb := h.binding
    simp only [Event.blank, ha, h.type, h.subject, ← h.data]
    rw [← hb]

end Wire.Binary

end CloudEvents
