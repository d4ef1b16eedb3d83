/-
  What the operations on events keep.

  The setters refuse an empty id, and an extension attribute whose name is empty or reserved; everything
  else may have any value.  `WellFormed` says just that.  Encoding relies on it: an attribute with the name
  of a slot would stand in the slot's place on the wire, and an empty id would not be read back.

  Each operation that changes an id or an attribute has a lemma.  That reading a message keeps to the rule
  as well is said where reading is described.
-/
import CloudEvents.Extension

namespace CloudEvents

/-- A name that an extension attribute can have. -/
def IsExtensionName (n : String) : Prop := n ≠ "" ∧ isReserved n = false

instance (n : String) : Decidable (IsExtensionName n) := inferInstanceAs (Decidable (_ ∧ _))

/-- No extension attribute can have the name of a slot. -/
theorem IsExtensionName.ne_name {n : String} (h : IsExtensionName n) (w : WellKnown) : n ≠ w.name := by
  rintro rfl
  have := h.2
  rw [isReserved_name] at this
  exact absurd this (by decide)

/-- The name that octets have in a document is reserved. -/
theorem IsExtensionName.ne_base64Name {n : String} (h : IsExtensionName n) : n ≠ base64Name := by
  rintro rfl
  exact absurd h (by decide)

namespace Event

/-- An event whose id, if it has one, is not empty, and whose extension attributes have names of their
own. -/
structure WellFormed (e : Event) : Prop where
  id_ne : e.id ≠ some ""
  names : ∀ n v, e.attribute? n = some v → IsExtensionName n

/-- A condition on all names and values of a map is one on its entries. -/
theorem forall_attribute?_iff {e : Event} {p : String → String → Prop} :
    (∀ n v, e.attribute? n = some v → p n v) ↔ ∀ x ∈ e.attributes.entries, p x.1 x.2 := by
  constructor
  · rintro h ⟨n, v⟩ hx
    exact h n v (NameMap.mem_entries_iff.1 hx)
  · intro h n v hv
    exact h (n, v) (NameMap.mem_entries_iff.2 hv)

/-- Under a name that no attribute can have there is none. -/
theorem attribute?_eq_none {e : Event} {p : String → Prop} (h : ∀ n v, e.attribute? n = some v → p n)
    {n : String} (hn : ¬p n) : e.attribute? n = none := by
  cases ha : e.attribute? n with
  | none => rfl
  | some v => exact absurd (h n v ha) hn

instance (e : Event) : Decidable e.WellFormed :=
  decidable_of_iff (e.id ≠ some "" ∧ ∀ x ∈ e.attributes.entries, IsExtensionName x.1)
    ⟨fun h => ⟨h.1, forall_attribute?_iff.2 h.2⟩, fun h => ⟨h.1, forall_attribute?_iff.1 h.2⟩⟩

namespace WellFormed

variable {e e' : Event}

theorem blank (b : Binding) : (Event.blank b).WellFormed where
  id_ne := by simp [Event.blank]
  names n v h := by simp [Event.blank, attribute?] at h

/-- Whatever is done to the other slots, to data or binding, id and attributes decide. -/
theorem of_eq (h : e.WellFormed) (hid : e'.id = e.id) (hat : e'.attributes = e.attributes) :
    e'.WellFormed where
  id_ne := by rw [hid]; exact h.id_ne
  names n v hv := h.names n v (by rw [attribute?, ← hat]; exact hv)

theorem withId (h : e.WellFormed) (f : Fresh) : (e.withId f).WellFormed where
  id_ne := by
    unfold Event.withId idOr
    cases hid : e.id with
    | none => exact fun heq => f.eventId.toText_ne_empty (Option.some.inj heq)
    | some id => exact fun heq => h.id_ne (by rw [hid]; exact heq)
  names := h.names

/-- An empty id is not set. -/
theorem setId (h : e.WellFormed) {id : String} (hs : e.setId id = .ok e') : e'.WellFormed := by
  unfold Event.setId at hs
  split at hs
  · simp at hs
  · rename_i hne
    cases hs
    exact ⟨by simpa using hne, h.names⟩

/-- An attribute may be put under a name that is free for it. -/
theorem putAttribute (h : e.WellFormed) {n v : String} (hn : IsExtensionName n) :
    (e.putAttribute n v).WellFormed where
  id_ne := h.id_ne
  names k w hk := by
    rw [attribute?, Event.putAttribute, NameMap.get?_insert] at hk
    split at hk
    · rename_i heq
      exact heq ▸ hn
    · exact h.names k w hk

/-- An attribute that could be set has such a name. -/
theorem setAttribute (h : e.WellFormed) {n v : String} (hs : e.setAttribute n v = .ok e') :
    e'.WellFormed := by
  obtain ⟨hne, hr, rfl⟩ := setAttribute_eq_ok_iff.1 hs
  exact h.putAttribute ⟨hne, hr⟩

theorem removeAttribute (h : e.WellFormed) (n : String) : (e.removeAttribute n).WellFormed where
  id_ne := h.id_ne
  names k w hk := by
    rw [attribute?, Event.removeAttribute, NameMap.get?_erase] at hk
    split at hk
    · simp at hk
    · exact h.names k w hk

/-- A derived event has no id yet and the attributes of its source. -/
theorem deriveFrom (h : e.WellFormed) : e.deriveFrom.WellFormed where
  id_ne := by simp [Event.deriveFrom]
  names := h.names

/-- The id that is written is not empty, whether the event had it or it was filled in. -/
theorem idOr_ne (h : e.WellFormed) (f : Fresh) : e.idOr f ≠ "" := by
  intro heq
  exact (h.withId f).id_ne (by rw [Event.withId, heq])

end WellFormed

end Event

end CloudEvents
