/-
  What has nothing to do with data.

  Most operations on an event are about attributes.  They leave its data alone, the language that the data is in, and
  what is remembered of it.  Operations are put together of a few that look something up, ask for something or change
  something, so each of these has a lemma (`aside_look`, `aside_demand`, `aside_change`, `aside_attempt`), and doing
  one after the other has one (`Aside.bind`); the lemmas for the operations name what they are made of.

  Main statement: `Action.aside_edit`.
-/
import CloudEvents.Proofs.Event.Edit

namespace CloudEvents

/-! ## What is left alone -/

/-- An event after another one, with the same data in the same language and the same value remembered. -/
structure TypedEvent.SameData {τ ν : Type} (s s' : TypedEvent τ ν) : Prop where
  cache : s'.cache = s.cache
  data : s'.event.data = s.event.data
  dataContentType : s'.event.dataContentType = s.event.dataContentType

/-- Where the data is the same it is in the same language. -/
theorem TypedEvent.SameData.dataLanguage {τ ν : Type} {s s' : TypedEvent τ ν} (h : s.SameData s') :
    s'.event.dataLanguage = s.event.dataLanguage := by
  rw [Event.dataLanguage, h.dataContentType]
  rfl

theorem TypedEvent.SameData.refl {τ ν : Type} (s : TypedEvent τ ν) : s.SameData s := ⟨rfl, rfl, rfl⟩

theorem TypedEvent.SameData.trans {τ ν : Type} {r s s' : TypedEvent τ ν} (h : r.SameData s) (h' : s.SameData s') :
    r.SameData s' :=
  ⟨h'.cache.trans h.cache, h'.data.trans h.data, h'.dataContentType.trans h.dataContentType⟩

/-- A correlation id says nothing about the data. -/
theorem Event.dataContentType_correlate (e : Event) (f : Fresh) :
    (e.correlate f).dataContentType = e.dataContentType := by
  unfold correlate
  split <;> rfl

namespace Edit

variable {τ ν α β : Type}

/-- An operation that leaves the data alone. -/
structure Aside (m : Edit τ ν α) : Prop where
  sameData : ∀ s : TypedEvent τ ν, s.SameData (m.run s).2

/-- **Two operations in a row** leave the data alone if each of them does. -/
theorem Aside.bind {m : Edit τ ν α} {k : α → Edit τ ν β} (hm : m.Aside) (hk : ∀ a, (k a).Aside) :
    Aside (m >>= k) := by
  constructor
  intro s
  rw [run_bind]
  have h := hm.sameData s
  revert h
  rcases m.run s with ⟨err | a, s'⟩
  · exact fun h => h
  · exact fun h => h.trans ((hk a).sameData s')

theorem Aside.map {m : Edit τ ν α} (h : m.Aside) (g : α → β) : Aside (g <$> m) := by
  constructor
  intro s
  rw [run_map]
  exact h.sameData s

/-- Looking changes nothing at all. -/
theorem aside_look (read : Event → α) : Aside (look read : Edit τ ν α) := ⟨fun _ => .refl _⟩

/-- Neither does a demand, whether it is met or not. -/
theorem aside_demand (v : Except Error Unit) : Aside (demand v : Edit τ ν Unit) := by
  constructor
  intro s
  rw [run_demand]
  exact .refl _

/-- A change leaves the data alone if it leaves its content type alone. -/
theorem aside_change (g : Event → Event) (h : ∀ e, (g e).dataContentType = e.dataContentType) :
    Aside (change g : Edit τ ν Unit) :=
  ⟨fun s => ⟨rfl, rfl, h s.event⟩⟩

/-- Setting a slot other than the content type. -/
theorem aside_slot {g : Event → Event} (h : ∀ e, (g e).dataContentType = e.dataContentType) :
    Aside (silent (change g) : Edit τ ν (Answer ν)) :=
  (aside_change g h).map _

/-- Filling something in and reading it. -/
theorem aside_fill {g : Event → Event} (h : ∀ e, (g e).dataContentType = e.dataContentType) (read : Event → α) :
    Aside (do change g; look read : Edit τ ν α) :=
  (aside_change g h).bind fun _ => aside_look read

/-- The same goes for a change that may fail: a failure changes nothing. -/
theorem aside_attempt {g : Event → Except Error Event}
    (h : ∀ d e, g d = .ok e → e.dataContentType = d.dataContentType) : Aside (attempt g : Edit τ ν Unit) := by
  constructor
  intro s
  rw [run_attempt]
  split
  · rename_i e he
    exact ⟨rfl, rfl, h s.event e he⟩
  · exact .refl _

/-- The id is set beside the data. -/
theorem aside_setId (id : String) : Aside (attempt fun e => e.setId id : Edit τ ν Unit) := by
  refine aside_attempt ?_
  intro d e h
  unfold Event.setId at h
  split at h
  · cases h
  · cases h
    rfl

/-- An extension attribute is set beside the data. -/
theorem aside_setAttribute (name value : String) : Aside (setAttribute name value : Edit τ ν Unit) := by
  refine aside_attempt ?_
  intro d e h
  obtain ⟨-, -, rfl⟩ := Event.setAttribute_eq_ok_iff.1 h
  rfl

/-- An extension attribute is removed beside the data. -/
theorem aside_removeAttribute (name : String) : Aside (removeAttribute name : Edit τ ν (Option String)) :=
  (aside_look _).bind fun _ => (aside_change (fun e => e.removeAttribute name) fun _ => rfl).bind fun _ =>
    ⟨fun _ => .refl _⟩

theorem aside_setNonEmpty (arg : Argument) (name value : String) :
    Aside (setNonEmpty arg name value : Edit τ ν Unit) :=
  (aside_demand _).bind fun _ => aside_setAttribute name value

theorem aside_setIntegerSequence (i : Int32) : Aside (setIntegerSequence i : Edit τ ν Unit) :=
  (aside_setAttribute ..).bind fun _ => aside_setAttribute ..

theorem aside_checkEvent : Aside (do demand (← look Validation.checkEvent) : Edit τ ν Unit) :=
  (aside_look _).bind fun _ => aside_demand _

/-- The rules of a kind concern extension attributes only. -/
theorem aside_check (k : Extension) (f : Fresh) : Aside (check k f : Edit τ ν Unit) := by
  rw [check_eq_attempt]
  refine aside_attempt ?_
  intro d e h
  cases k with
  | plain =>
    cases h
    rfl
  -- Only this kind fills in something, and it is an attribute.
  | correlated =>
    cases h
    rw [Event.dataContentType_correlate]
    split <;> rfl
  | partitioned =>
    obtain ⟨-, -, rfl⟩ := map_eq_ok_iff.1 h
    rfl
  | sequenced =>
    obtain ⟨-, -, rfl⟩ := map_eq_ok_iff.1 h
    rfl

end Edit

namespace Action

variable {τ ν : Type} [DecidableEq τ]

/-- Whether an action has nothing to do with data. -/
def IsAside : Action τ ν → Prop
  | setDataContentType _ | setData _ | clearData | dataAs _ | tryDataAs _ | setDataAs _ _ => False
  | _ => True

/-- **Every action but those for the data** leaves the data alone. -/
theorem aside_edit (forms : Forms τ ν) (f : Fresh) (a : Action τ ν) (h : a.IsAside) : (a.edit forms f).Aside := by
  cases a with
  -- Those for the data are excluded.
  | setDataContentType c => exact h.elim
  | setData p => exact h.elim
  | clearData => exact h.elim
  | dataAs t => exact h.elim
  | tryDataAs t => exact h.elim
  | setDataAs t v => exact h.elim
  -- The others fill in, set or remove something else, or only look.
  | readId => exact (Edit.aside_fill (g := fun e => e.withId f) (fun _ => rfl) _).map _
  | readTime => exact (Edit.aside_fill (g := fun e => e.withTime f) (fun _ => rfl) _).map _
  | setId id => exact (Edit.aside_setId id).map _
  | setTime t => exact Edit.aside_slot fun _ => rfl
  | setSource u => exact Edit.aside_slot fun _ => rfl
  | setType type => exact Edit.aside_slot fun _ => rfl
  | setDataSchema u => exact Edit.aside_slot fun _ => rfl
  | setSubject subject => exact Edit.aside_slot fun _ => rfl
  | setBinding b => exact Edit.aside_slot fun _ => rfl
  | readAttribute name => exact (Edit.aside_look _).map _
  | setAttribute name value => exact (Edit.aside_setAttribute name value).map _
  | removeAttribute name => exact (Edit.aside_removeAttribute name).map _
  | readCorrelationId => exact (Edit.aside_fill (fun e => e.dataContentType_correlate f) _).map _
  | setCorrelationId id => exact (Edit.aside_setNonEmpty ..).map _
  | readPartitionKey => exact (Edit.aside_look _).map _
  | setPartitionKey key => exact (Edit.aside_setNonEmpty ..).map _
  | readSequence => exact (Edit.aside_look _).map _
  | readSequenceType => exact (Edit.aside_look _).map _
  | setSequence s => exact (Edit.aside_setAttribute ..).map _
  | setSequenceType s => exact (Edit.aside_setAttribute ..).map _
  | setIntegerSequence i => exact (Edit.aside_setIntegerSequence i).map _
  | checkEvent => exact Edit.aside_checkEvent.map _
  | check k => exact (Edit.aside_check k f).map _
  | encode c => exact (Edit.aside_fill (g := fun e => e.stamp f) (fun _ => rfl) _).map _
  | encodeBinary b => exact (Edit.aside_fill (g := fun e => e.stamp f) (fun _ => rfl) _).map _
  | encodeStructured style => exact (Edit.aside_fill (g := fun e => e.stamp f) (fun _ => rfl) _).map _

end Action

end CloudEvents
