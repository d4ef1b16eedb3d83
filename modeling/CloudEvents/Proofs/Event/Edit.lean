/-
  Operations in place: what they keep, and that they fail before they change anything.

  An operation that can fail fails at a guard, and what stands behind the guard cannot fail any more.  So it
  is the same as an `attempt`, which asks first and changes then (`setNonEmpty_eq_attempt`,
  `setIntegerSequence_eq_attempt`, `check_eq_attempt`).  The three are stated with the functions on events that
  everything else is about, so what is known of those holds of operations in place.

  `Event.Keeps` is what every change but two has in common: a well-formed event stays well-formed, and an id
  or a time that is there stays as it is.  `Sound` adds that failing changes nothing.

  Main statements: `Action.sound_edit`, and `Action.leaves_edit` for the two that give an id or a time as well.
-/
import CloudEvents.Proofs.Event.Reachable
import CloudEvents.Session

namespace CloudEvents

/-! ## Operations in place -/

namespace Edit
variable {τ ν α β : Type}

/-- Two operations that do the same to every event are the same. -/
theorem ext {m m' : Edit τ ν α} (h : ∀ s, m.run s = m'.run s) : m = m' := funext h

/-- The second operation goes on with what the first one left, unless that failed. -/
theorem run_bind (m : Edit τ ν α) (k : α → Edit τ ν β) (s : TypedEvent τ ν) :
    (m >>= k).run s =
      match m.run s with
      | (.ok a, s') => (k a).run s'
      | (.error err, s') => (.error err, s') := by
  show (match m.run s with
    | (a, s') => ExceptT.bindCont k a s') = _
  rcases m.run s with ⟨a | a, s'⟩ <;> rfl

theorem run_map (g : α → β) (m : Edit τ ν α) (s : TypedEvent τ ν) :
    (g <$> m).run s = ((m.run s).1.map g, (m.run s).2) := by
  rw [← bind_pure_comp, run_bind]
  rcases m.run s with ⟨a | a, s'⟩ <;> rfl

theorem run_look (read : Event → α) (s : TypedEvent τ ν) :
    (look read : Edit τ ν α).run s = (.ok (read s.event), s) :=
  rfl

theorem run_change (g : Event → Event) (s : TypedEvent τ ν) :
    (change g : Edit τ ν Unit).run s = (.ok (), s.update g) :=
  rfl

/-- A change that may fail is done as a whole or not at all. -/
theorem run_attempt (g : Event → Except Error Event) (s : TypedEvent τ ν) :
    (attempt g : Edit τ ν Unit).run s =
      match g s.event with
      | .ok e => (.ok (), s.update fun _ => e)
      | .error err => (.error err, s) := by
  show (match g s.event with | .ok e => _ | .error err => _ : Edit τ ν Unit).run s = _
  cases g s.event <;> rfl

/-- A demand hands on the verdict and changes nothing. -/
theorem run_demand (v : Except Error Unit) (s : TypedEvent τ ν) :
    (demand v : Edit τ ν Unit).run s = (v, s) := by
  rcases v with err | ⟨⟨⟩⟩ <;> rfl

/-- Reading the data as a type may keep what was read. -/
theorem run_dataAs [DecidableEq τ] (forms : Forms τ ν) (t : τ) (s : TypedEvent τ ν) :
    (dataAs forms t).run s =
      match s.dataAs forms t with
      | .ok (v, s') => (.ok v, s')
      | .error err => (.error err, s) := by
  show (match s.dataAs forms t with | .ok (v, s) => _ | .error err => _ : Edit τ ν ν).run s = _
  rcases s.dataAs forms t with err | ⟨v, s'⟩ <;> rfl

/-- Writing the data may fail, and then nothing is written. -/
theorem run_setDataAs (forms : Forms τ ν) (t : τ) (v : ν) (s : TypedEvent τ ν) :
    (setDataAs forms t v).run s =
      match s.setDataAs forms t v with
      | .ok s' => (.ok (), s')
      | .error err => (.error err, s) := by
  show (match s.setDataAs forms t v with | .ok s => _ | .error err => _ : Edit τ ν Unit).run s = _
  rcases s.setDataAs forms t v with err | s' <;> rfl

/-! ### What can fail, fails before it changes anything -/

/-- A demand before a change is one attempt. -/
theorem demand_attempt (v : Except Error Unit) (g : Event → Except Error Event) :
    (demand v >>= fun _ => attempt g : Edit τ ν Unit) = attempt fun e => v >>= fun _ => g e := by
  refine ext fun s => ?_
  rw [run_bind, run_demand]
  cases v <;> rfl

/-- An attribute with a value that must not be empty is set in one attempt. -/
theorem setNonEmpty_eq_attempt (arg : Argument) (name value : String) :
    (setNonEmpty arg name value : Edit τ ν Unit) = attempt fun e =>
      if value = "" then .error (.emptyArgument arg) else e.setAttribute name value := by
  show (demand _ >>= fun _ => attempt _ : Edit τ ν Unit) = _
  rw [demand_attempt]
  split <;> rfl

/-- A numbered place is set in one attempt, although it is two attributes. -/
theorem setIntegerSequence_eq_attempt (i : Int32) :
    (setIntegerSequence i : Edit τ ν Unit) = attempt fun e => e.setIntegerSequence i := by
  -- The names are no reserved ones, so neither of the two can fail.
  have hset : ∀ {name value : String}, IsExtensionName name →
      (setAttribute name value : Edit τ ν Unit) = change fun e => e.putAttribute name value := by
    intro name value hn
    refine ext fun s => ?_
    rw [setAttribute, run_attempt, Event.setAttribute_eq_ok_iff.2 ⟨hn.1, hn.2, rfl⟩]
    rfl
  refine ext fun s => ?_
  rw [setIntegerSequence, hset (by decide), hset (by decide), run_bind, run_change, run_attempt]
  rfl

/-- **The rules of a kind are applied in one attempt**, whatever they ask for and fill in. -/
theorem check_eq_attempt (k : Extension) (f : Fresh) : (check k f : Edit τ ν Unit) = attempt (k.check f) := by
  refine ext fun s => ?_
  cases k with
  | plain => rfl
  | correlated =>
    rw [run_attempt, check]
    simp only [run_bind, run_look, Extension.check]
    by_cases h : s.event.attribute? correlationIdName = some ""
    · -- An empty correlation id is removed first; the one step is the removal and the filling in together.
      simp only [if_pos h]
      rw [run_bind, run_change]
      rfl
    · simp only [if_neg h]
      rfl
  | partitioned =>
    rw [run_attempt, check]
    simp only [run_bind, run_look, run_demand, Extension.check]
    cases Extension.checkPresent partitionKeyName s.event.partitionKey? <;> rfl
  | sequenced =>
    rw [run_attempt, check]
    simp only [run_bind, run_look, run_demand, Extension.check]
    cases Extension.checkSequence s.event.sequence? s.event.sequenceType? <;> rfl

end Edit

/-! ## What every operation keeps -/

/-- An event after another one: it is well-formed if that one was, and id and time stay once they are there. -/
structure Event.Keeps (d e : Event) : Prop where
  wellFormed : d.WellFormed → e.WellFormed
  id : ∀ x, d.id = some x → e.id = some x
  time : ∀ t, d.time = some t → e.time = some t

namespace Event.Keeps

variable {d e : Event}

theorem refl (e : Event) : e.Keeps e := ⟨fun h => h, fun _ h => h, fun _ h => h⟩

theorem trans {c : Event} (h : c.Keeps d) (h' : d.Keeps e) : c.Keeps e :=
  ⟨fun hw => h'.wellFormed (h.wellFormed hw), fun x hx => h'.id x (h.id x hx),
    fun t ht => h'.time t (h.time t ht)⟩

/-- Id, time and attributes are all that counts here. -/
theorem of_eq (hid : e.id = d.id) (htime : e.time = d.time) (ha : e.attributes = d.attributes) : d.Keeps e :=
  ⟨fun h => h.of_eq hid ha, fun _ h => hid.trans h, fun _ h => htime.trans h⟩

/-- An id is filled in only where there is none. -/
theorem withId (e : Event) (f : Fresh) : e.Keeps (e.withId f) where
  wellFormed h := h.withId f
  id x hx := by rw [Event.withId, idOr, hx]; rfl
  time _ h := h

/-- A time is filled in only where there is none. -/
theorem withTime (e : Event) (f : Fresh) : e.Keeps (e.withTime f) where
  wellFormed h := h.of_eq rfl rfl
  id _ h := h
  time t ht := by rw [Event.withTime, timeOr, ht]; rfl

theorem stamp (e : Event) (f : Fresh) : e.Keeps (e.stamp f) := (withId e f).trans (withTime _ f)

theorem putAttribute (e : Event) {n : String} (hn : IsExtensionName n) (v : String) :
    e.Keeps (e.putAttribute n v) :=
  ⟨fun h => h.putAttribute hn, fun _ h => h, fun _ h => h⟩

theorem removeAttribute (e : Event) (n : String) : e.Keeps (e.removeAttribute n) :=
  ⟨fun h => h.removeAttribute n, fun _ h => h, fun _ h => h⟩

/-- An attribute that could be set has a name of its own. -/
theorem setAttribute {n v : String} (h : d.setAttribute n v = .ok e) : d.Keeps e := by
  obtain ⟨hne, hr, rfl⟩ := setAttribute_eq_ok_iff.1 h
  exact putAttribute d ⟨hne, hr⟩ v

/-- A numbered place is two attributes, one set after the other. -/
theorem setIntegerSequence {i : Int32} (h : d.setIntegerSequence i = .ok e) : d.Keeps e := by
  obtain ⟨c, hc, h⟩ := bind_eq_ok_iff.1 h
  exact (setAttribute hc).trans (setAttribute h)

/-- A correlation id is an extension attribute like others. -/
theorem correlate (e : Event) (f : Fresh) : e.Keeps (e.correlate f) := by
  unfold Event.correlate
  split
  · exact refl e
  · exact putAttribute e (by decide) _

/-- Whatever a kind fills in, it takes no id and no time away. -/
theorem check {k : Extension} {f : Fresh} (h : k.check f d = .ok e) : d.Keeps e := by
  unfold Extension.check at h
  cases k with
  | plain =>
    cases h
    exact refl _
  | correlated =>
    cases h
    split
    -- An empty correlation id makes room for a new one.
    · exact (removeAttribute d _).trans (correlate _ f)
    · exact correlate d f
  | partitioned =>
    obtain ⟨-, -, rfl⟩ := map_eq_ok_iff.1 h
    exact refl _
  | sequenced =>
    obtain ⟨-, -, rfl⟩ := map_eq_ok_iff.1 h
    exact refl _

end Event.Keeps

namespace TypedEvent

variable {τ ν : Type}

/-- Data is set beside the id, the time and the attributes. -/
theorem keeps_setData (s : TypedEvent τ ν) (p : Payload) : s.event.Keeps (s.setData p).event := by
  unfold setData
  split
  · exact .refl _
  · exact .of_eq rfl rfl rfl

/-- Data is removed beside the id, the time and the attributes. -/
theorem keeps_clearData (s : TypedEvent τ ν) : s.event.Keeps s.clearData.event := by
  unfold clearData
  split
  · exact .of_eq rfl rfl rfl
  · exact .refl _

/-- Reading data as a type changes nothing but what is remembered. -/
theorem event_of_dataAs [DecidableEq τ] {forms : Forms τ ν} {s s' : TypedEvent τ ν} {t : τ} {v : ν}
    (h : s.dataAs forms t = .ok (v, s')) : s'.event = s.event := by
  unfold dataAs at h
  split at h
  · -- What is remembered is of this type or of another one.
    split at h
    · cases h
      rfl
    · exact absurd h (by simp)
  · -- Nothing is remembered: the data is read, if there is any, and what is read is remembered.
    split at h
    · exact absurd h (by simp)
    · split at h
      · cases h
        rfl
      · exact absurd h (by simp)

/-- Data that was written for a value is data like any other. -/
theorem keeps_setDataAs {forms : Forms τ ν} {s s' : TypedEvent τ ν} {t : τ} {v : ν}
    (h : s.setDataAs forms t v = .ok s') : s.event.Keeps s'.event := by
  unfold setDataAs at h
  split at h
  · cases h
    exact s.keeps_setData _
  · exact absurd h (by simp)

end TypedEvent

namespace Edit

variable {τ ν α β : Type}

/-- An operation that keeps what is to be kept, and leaves its event as it was if it fails. -/
structure Sound (m : Edit τ ν α) : Prop where
  keeps : ∀ s : TypedEvent τ ν, s.event.Keeps (m.run s).2.event
  atomic : ∀ (s : TypedEvent τ ν) (err : Error), (m.run s).1 = .error err → (m.run s).2 = s

theorem Sound.map {m : Edit τ ν α} (h : m.Sound) (g : α → β) : Sound (g <$> m) where
  keeps s := by
    rw [run_map]
    exact h.keeps s
  atomic s err herr := by
    rw [run_map] at herr ⊢
    refine h.atomic s err ?_
    generalize (m.run s).1 = r at herr ⊢
    cases r with
    | ok a => exact absurd herr (by simp [Except.map])
    | error err' => simpa [Except.map] using herr

/-- An operation that cannot fail. -/
theorem sound_of_ok {m : Edit τ ν α} (hok : ∀ s : TypedEvent τ ν, ∃ a, (m.run s).1 = .ok a)
    (h : ∀ s : TypedEvent τ ν, s.event.Keeps (m.run s).2.event) : m.Sound where
  keeps := h
  atomic s err herr := by
    obtain ⟨a, ha⟩ := hok s
    exact absurd (herr.symm.trans ha) (by simp)

theorem sound_look (read : Event → α) : Sound (look read : Edit τ ν α) :=
  sound_of_ok (fun _ => ⟨_, rfl⟩) fun _ => .refl _

/-- A change of the event is one of the typed event. -/
theorem keeps_update {g : Event → Event} (h : ∀ e : Event, e.Keeps (g e)) (s : TypedEvent τ ν) :
    s.event.Keeps (s.update g).event :=
  (h s.event).trans (.of_eq rfl rfl rfl)

/-- A change is sound if what it makes of an event comes after that event. -/
theorem sound_change {g : Event → Event} (h : ∀ e : Event, e.Keeps (g e)) :
    Sound (change g : Edit τ ν Unit) :=
  sound_of_ok (fun _ => ⟨_, rfl⟩) (keeps_update h)

/-- Setting a slot that is neither the id nor the time. -/
theorem sound_slot {g : Event → Event} (hid : ∀ e, (g e).id = e.id) (htime : ∀ e, (g e).time = e.time)
    (ha : ∀ e, (g e).attributes = e.attributes) : Sound (silent (change g) : Edit τ ν (Answer ν)) :=
  Sound.map (sound_change fun e => .of_eq (hid e) (htime e) (ha e)) _

/-- Filling something in and reading it. -/
theorem sound_fill {g : Event → Event} (h : ∀ e : Event, e.Keeps (g e)) (read : Event → α) :
    Sound (do change g; look read : Edit τ ν α) :=
  sound_of_ok (fun _ => ⟨_, rfl⟩) (keeps_update h)

theorem sound_removeAttribute (name : String) : Sound (removeAttribute name : Edit τ ν (Option String)) :=
  sound_of_ok (fun _ => ⟨_, rfl⟩) (keeps_update fun e => .removeAttribute e name)

/-- A change of the data is sound if the event after it keeps what is to be kept. -/
theorem sound_modify {g : TypedEvent τ ν → TypedEvent τ ν} (h : ∀ s : TypedEvent τ ν, s.event.Keeps (g s).event) :
    Sound (modify g : Edit τ ν Unit) :=
  sound_of_ok (fun _ => ⟨_, rfl⟩) h

/-- What fails in an attempt leaves no trace. -/
theorem atomic_attempt (g : Event → Except Error Event) (s : TypedEvent τ ν) (err : Error)
    (h : ((attempt g : Edit τ ν Unit).run s).1 = .error err) : ((attempt g : Edit τ ν Unit).run s).2 = s := by
  rw [run_attempt] at h ⊢
  split at h
  · exact absurd h (by simp)
  · rfl

/-- An attempt is sound if what it makes of an event, when it succeeds, comes after that event. -/
theorem sound_attempt {g : Event → Except Error Event} (h : ∀ {d e}, g d = .ok e → d.Keeps e) :
    Sound (attempt g : Edit τ ν Unit) where
  keeps s := by
    rw [run_attempt]
    split
    · rename_i e he
      exact (h he).trans (.of_eq rfl rfl rfl)
    · exact .refl _
  atomic := atomic_attempt g

theorem sound_setAttribute (name value : String) : Sound (setAttribute name value : Edit τ ν Unit) :=
  sound_attempt .setAttribute

/-- A value that is empty is refused before anything is set. -/
theorem sound_setNonEmpty (arg : Argument) (name value : String) :
    Sound (setNonEmpty arg name value : Edit τ ν Unit) := by
  rw [setNonEmpty_eq_attempt]
  refine sound_attempt ?_
  intro d e h
  split at h
  · exact absurd h (by simp)
  · exact .setAttribute h

/-- Both attributes of a numbered place are set, or none. -/
theorem sound_setIntegerSequence (i : Int32) : Sound (setIntegerSequence i : Edit τ ν Unit) := by
  rw [setIntegerSequence_eq_attempt]
  exact sound_attempt .setIntegerSequence

/-- A rule for all envelopes changes nothing. -/
theorem sound_checkEvent : Sound (do demand (← look Validation.checkEvent) : Edit τ ν Unit) where
  keeps s := by
    simp only [run_bind, run_look, run_demand]
    exact .refl _
  atomic s err _ := by
    simp only [run_bind, run_look, run_demand]

/-- The rules of a kind are sound. -/
theorem sound_check (k : Extension) (f : Fresh) : Sound (check k f : Edit τ ν Unit) := by
  rw [check_eq_attempt]
  exact sound_attempt .check

/-- Reading the data as a type keeps the event as it is. -/
theorem sound_dataAs [DecidableEq τ] (forms : Forms τ ν) (t : τ) : Sound (dataAs forms t) := by
  constructor
  · intro s
    rw [run_dataAs]
    split
    · rename_i h
      rw [TypedEvent.event_of_dataAs h]
      exact .refl _
    · exact .refl _
  · intro s err h
    rw [run_dataAs] at h ⊢
    split at h
    · exact absurd h (by simp)
    · rfl

theorem sound_tryDataAs [DecidableEq τ] (forms : Forms τ ν) (t : τ) : Sound (tryDataAs forms t) := by
  refine sound_of_ok (fun _ => ⟨_, rfl⟩) fun s => ?_
  show s.event.Keeps (s.tryDataAs forms t).2.event
  unfold TypedEvent.tryDataAs
  split
  · rename_i h
    rw [TypedEvent.event_of_dataAs h]
    exact .refl _
  · exact .refl _

/-- Writing the data as a type keeps id, time and attributes. -/
theorem sound_setDataAs (forms : Forms τ ν) (t : τ) (v : ν) : Sound (setDataAs forms t v) := by
  constructor
  · intro s
    rw [run_setDataAs]
    split
    · rename_i h
      exact TypedEvent.keeps_setDataAs h
    · exact .refl _
  · intro s err h
    rw [run_setDataAs] at h ⊢
    split at h
    · exact absurd h (by simp)
    · rfl

end Edit

namespace Action

variable {τ ν : Type} [DecidableEq τ] (forms : Forms τ ν) (f : Fresh)

/-- **Every operation is sound**, but for the two that give an event another id or time. -/
theorem sound_edit (a : Action τ ν) (hid : ∀ id, a ≠ .setId id) (htime : ∀ t, a ≠ .setTime t) :
    (a.edit forms f).Sound := by
  cases a with
  | readId => exact (Edit.sound_fill (fun e => .withId e f) _).map _
  | readTime => exact (Edit.sound_fill (fun e => .withTime e f) _).map _
  | setId id => exact absurd rfl (hid id)
  | setTime t => exact absurd rfl (htime t)
  | setSource u => exact Edit.sound_slot (fun _ => rfl) (fun _ => rfl) fun _ => rfl
  | setType type => exact Edit.sound_slot (fun _ => rfl) (fun _ => rfl) fun _ => rfl
  | setDataContentType c => exact Edit.sound_slot (fun _ => rfl) (fun _ => rfl) fun _ => rfl
  | setDataSchema u => exact Edit.sound_slot (fun _ => rfl) (fun _ => rfl) fun _ => rfl
  | setSubject subject => exact Edit.sound_slot (fun _ => rfl) (fun _ => rfl) fun _ => rfl
  | setBinding b => exact Edit.sound_slot (fun _ => rfl) (fun _ => rfl) fun _ => rfl
  | readAttribute name => exact (Edit.sound_look _).map _
  | setAttribute name value => exact (Edit.sound_setAttribute name value).map _
  | removeAttribute name => exact (Edit.sound_removeAttribute name).map _
  | readCorrelationId => exact (Edit.sound_fill (fun e => .correlate e f) _).map _
  | setCorrelationId id => exact (Edit.sound_setNonEmpty ..).map _
  | readPartitionKey => exact (Edit.sound_look _).map _
  | setPartitionKey key => exact (Edit.sound_setNonEmpty ..).map _
  | readSequence => exact (Edit.sound_look _).map _
  | readSequenceType => exact (Edit.sound_look _).map _
  | setSequence s => exact (Edit.sound_setAttribute ..).map _
  | setSequenceType s => exact (Edit.sound_setAttribute ..).map _
  | setIntegerSequence i => exact (Edit.sound_setIntegerSequence i).map _
  | setData p => exact (Edit.sound_modify fun s => s.keeps_setData p).map _
  | clearData => exact (Edit.sound_modify TypedEvent.keeps_clearData).map _
  | dataAs t => exact (Edit.sound_dataAs forms t).map _
  | tryDataAs t => exact (Edit.sound_tryDataAs forms t).map _
  | setDataAs t v => exact (Edit.sound_setDataAs forms t v).map _
  | checkEvent => exact Edit.sound_checkEvent.map _
  | check k => exact (Edit.sound_check k f).map _
  | encode c => exact (Edit.sound_fill (fun e => .stamp e f) _).map _
  | encodeBinary b => exact (Edit.sound_fill (fun e => .stamp e f) _).map _
  | encodeStructured style => exact (Edit.sound_fill (fun e => .stamp e f) _).map _

/-- The id that an action gives its event, if it succeeds in giving it one. -/
def givenId? (a : Action τ ν) (answer : Except Error (Answer ν)) : Option String :=
  match a, answer with
  | .setId id, .ok _ => some id
  | _, _ => none

/-- The time that an action gives its event. -/
def givenTime? (a : Action τ ν) (answer : Except Error (Answer ν)) : Option Instant :=
  match a, answer with
  | .setTime t, .ok _ => some t
  | _, _ => none

/-- What an action leaves of an event. -/
structure Leaves (a : Action τ ν) (s : TypedEvent τ ν) (answer : Except Error (Answer ν))
    (s' : TypedEvent τ ν) : Prop where
  wellFormed : s.event.WellFormed → s'.event.WellFormed
  id : ∀ x, s.event.id = some x → s'.event.id = some ((a.givenId? answer).getD x)
  time : ∀ t, s.event.time = some t → s'.event.time = some ((a.givenTime? answer).getD t)
  atomic : ∀ err, answer = .error err → s' = s

/-- **What every action leaves of its event.** -/
theorem leaves_edit (a : Action τ ν) (s : TypedEvent τ ν) :
    a.Leaves s ((a.edit forms f).run s).1 ((a.edit forms f).run s).2 := by
  -- The two actions that give an event another id or time are looked at by themselves.
  by_cases hid : ∃ id, a = .setId id
  · obtain ⟨id, rfl⟩ := hid
    have hrun : ((setId id : Action τ ν).edit forms f).run s =
        match s.event.setId id with
        | .ok e => (.ok .done, s.update fun _ => e)
        | .error err => (.error err, s) := by
      show ((fun _ => Answer.done) <$> Edit.attempt _ : Edit τ ν (Answer ν)).run s = _
      rw [Edit.run_map, Edit.run_attempt]
      cases s.event.setId id <;> rfl
    rw [hrun]
    cases hset : s.event.setId id with
    | error err => exact ⟨fun h => h, fun _ h => h, fun _ h => h, fun _ _ => rfl⟩
    | ok e =>
      have hw := fun h : s.event.WellFormed => h.setId hset
      unfold Event.setId at hset
      split at hset
      · exact absurd hset (by simp)
      · cases hset
        exact ⟨fun h => (hw h).of_eq rfl rfl, fun _ _ => rfl, fun _ h => h, fun _ h => absurd h (by simp)⟩
  · by_cases htime : ∃ t, a = .setTime t
    · obtain ⟨t, rfl⟩ := htime
      refine ⟨fun h => h.of_eq rfl rfl, fun _ h => h, fun _ _ => rfl, fun err h => ?_⟩
      exact absurd (show Except.ok Answer.done = Except.error err from h) (by simp)
    · -- Every other action gives neither, so the event has the id and the time that it had.
      have hsound := a.sound_edit forms f (fun id h => hid ⟨id, h⟩) fun t h => htime ⟨t, h⟩
      have hgivenId : a.givenId? ((a.edit forms f).run s).1 = none := by
        unfold givenId?
        split
        · exact absurd ⟨_, rfl⟩ hid
        · rfl
      have hgivenTime : a.givenTime? ((a.edit forms f).run s).1 = none := by
        unfold givenTime?
        split
        · exact absurd ⟨_, rfl⟩ htime
        · rfl
      have hkeeps := hsound.keeps s
      refine ⟨hkeeps.wellFormed, ?_, ?_, hsound.atomic s⟩
      · rw [hgivenId]
        exact hkeeps.id
      · rw [hgivenTime]
        exact hkeeps.time

end Action

end CloudEvents
