/-
  The events that the operations make are the well-formed ones.

  An event comes about blank, by deriving it from another one or by reading a message, and is changed by
  the setters, by filling in its id and by the rules of its kind.  `Reachable` is closed under all of
  these and under nothing else.

  Main statement: `reachable_iff_wellFormed`.  That nothing else comes about is an induction on how an
  event did; each operation has a lemma of its own.  The other way round, an event is built up from a
  blank one, its id first and its attributes one by one.
-/
import CloudEvents.Proofs.Wire.BinaryReading
import CloudEvents.Proofs.Wire.Framing
import CloudEvents.Proofs.Wire.StructuredReading

namespace CloudEvents

/-! ## Reading -/

namespace Wire

/-- What headers describe is well-formed: an id that was read is not empty, and headers under reserved names are
no attributes. -/
theorem Binary.Describes.wellFormed {b : Binding} {m : Message} {e : Event} (h : Binary.Describes b m e) :
    e.WellFormed where
  id_ne heq := by
    have hid := h.id
    rw [heq, Binary.readId] at hid
    split at hid
    · exact absurd hid (by simp)
    · rename_i hne
      exact hne (Except.ok.inj hid)
  names n v hv := by
    rw [h.attributes] at hv
    split at hv
    · rename_i hx
      refine ⟨?_, (Binary.isExtension_iff.1 hx).2⟩
      rintro rfl
      rw [h.nameless] at hv
      exact absurd hv (by simp)
    · exact absurd hv (by simp)

/-- What is read from a document is well-formed. -/
theorem Structured.wellFormed_decode {b : Binding} {json : String} {e : Event}
    (h : Structured.decode b json = .ok e) : e.WellFormed := by
  unfold Structured.decode at h
  simp only [bind_eq_ok_iff, pure, Except.pure, Except.ok.injEq] at h
  obtain ⟨ms, -, -, -, data, -, e₁, hset, rfl⟩ := h
  exact (Structured.wellFormed_setMembers (.blank b) hset).of_eq rfl rfl

/-- **What is read from a message is well-formed**, in either mode. -/
theorem wellFormed_decode {b : Binding} {m : Message} {e : Event} (h : decode b m = .ok e) :
    e.WellFormed := by
  rw [decode_eq] at h
  split at h
  · exact absurd h (by simp)
  · exact (Binary.decode_eq_ok_iff.1 h).wellFormed
  · exact Structured.wellFormed_decode h

end Wire

namespace Event

/-! ## The rules of a kind -/

/-- A correlation id has a name of its own. -/
theorem WellFormed.correlate {e : Event} (h : e.WellFormed) (f : Fresh) : (e.correlate f).WellFormed := by
  unfold Event.correlate
  split
  · exact h
  · exact h.putAttribute (by decide)

/-- Deriving takes over attributes and sets the one of the place. -/
theorem WellFormed.derive {e : Event} (h : e.WellFormed) (k : Extension) : (k.derive e).WellFormed := by
  unfold Extension.derive
  cases k with
  | sequenced =>
    simp only
    split
    · exact h.deriveFrom.putAttribute (by decide)
    · exact h.deriveFrom.removeAttribute _
  | plain => exact h.deriveFrom
  | correlated => exact h.deriveFrom
  | partitioned => exact h.deriveFrom

/-- A kind fills in nothing but a correlation id. -/
theorem WellFormed.check {e e' : Event} (h : e.WellFormed) {k : Extension} {f : Fresh}
    (hc : k.check f e = .ok e') : e'.WellFormed := by
  unfold Extension.check at hc
  cases k with
  | plain =>
    cases hc
    exact h
  | correlated =>
    cases hc
    split
    · exact (h.removeAttribute _).correlate f
    · exact h.correlate f
  | partitioned =>
    obtain ⟨-, -, rfl⟩ := map_eq_ok_iff.1 hc
    exact h
  | sequenced =>
    obtain ⟨-, -, rfl⟩ := map_eq_ok_iff.1 hc
    exact h

/-! ## Every operation -/

/-- The events that the operations make. -/
inductive Reachable : Event → Prop where
  | blank (b : Binding) : Reachable (.blank b)
  | decode {b : Binding} {m : Message} {e : Event} (h : Wire.decode b m = .ok e) : Reachable e
  /-- The other slots, the data and the binding can be set to anything. -/
  | update {e e' : Event} (h : Reachable e) (hid : e'.id = e.id) (ha : e'.attributes = e.attributes) :
    Reachable e'
  | setId {e e' : Event} {id : String} (h : Reachable e) (hs : e.setId id = .ok e') : Reachable e'
  | withId {e : Event} (h : Reachable e) (f : Fresh) : Reachable (e.withId f)
  | setAttribute {e e' : Event} {n v : String} (h : Reachable e) (hs : e.setAttribute n v = .ok e') :
    Reachable e'
  | removeAttribute {e : Event} (h : Reachable e) (n : String) : Reachable (e.removeAttribute n)
  | derive {e : Event} (h : Reachable e) (k : Extension) : Reachable (k.derive e)
  | check {e e' : Event} {k : Extension} {f : Fresh} (h : Reachable e) (hc : k.check f e = .ok e') :
    Reachable e'

/-- **Every operation keeps an event well-formed**, so whatever can be reached is. -/
theorem Reachable.wellFormed {e : Event} (h : Reachable e) : e.WellFormed := by
  induction h with
  | blank b => exact .blank b
  | decode h => exact Wire.wellFormed_decode h
  | update _ hid ha ih => exact ih.of_eq hid ha
  | setId _ hs ih => exact ih.setId hs
  | withId _ f ih => exact ih.withId f
  | setAttribute _ hs ih => exact ih.setAttribute hs
  | removeAttribute _ n ih => exact ih.removeAttribute n
  | derive _ k ih => exact ih.derive k
  | check _ hc ih => exact ih.check hc

/-- Attributes with names of their own can be set one after the other. -/
theorem Reachable.insertAll {e : Event} (h : Reachable e) {l : List (String × String)}
    (hl : ∀ x ∈ l, IsExtensionName x.1) :
    Reachable { e with attributes := l.foldl (fun m x => m.insert x.1 x.2) e.attributes } := by
  induction l generalizing e with
  | nil => exact h
  | cons x l ih =>
    obtain ⟨hx, hl⟩ := List.forall_mem_cons.1 hl
    have hput : Reachable (e.putAttribute x.1 x.2) :=
      h.setAttribute (setAttribute_eq_ok_iff.2 ⟨hx.1, hx.2, rfl⟩)
    exact ih hput hl

/-- **And nothing that is well-formed is out of reach**: it is put together from a blank event field by
field. -/
theorem WellFormed.reachable {e : Event} (h : e.WellFormed) : Reachable e := by
  -- The id is set in a blank event, the only one that can have none.
  have hid : Reachable { Event.blank e.binding with id := e.id } := by
    cases heq : e.id with
    | none => exact .blank e.binding
    | some id =>
      have hne : id ≠ "" := by
        rintro rfl
        exact h.id_ne heq
      have hset : (Event.blank e.binding).setId id = .ok { Event.blank e.binding with id := some id } :=
        if_neg hne
      exact .setId (.blank e.binding) hset
  -- The attributes are in the order of the map, which is rebuilt from them; the rest is set at once.
  have hattributes := hid.insertAll (forall_attribute?_iff.1 h.names)
  refine hattributes.update rfl ?_
  exact (NameMap.ofList_entries e.attributes).symm

/-- **The events that the operations make are the well-formed ones.** -/
theorem reachable_iff_wellFormed {e : Event} : Reachable e ↔ e.WellFormed :=
  ⟨Reachable.wellFormed, WellFormed.reachable⟩

end Event

end CloudEvents
