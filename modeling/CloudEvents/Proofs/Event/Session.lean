/-
  What every session keeps.

  `leaves_step` says of one step what it leaves of a session: its events are well-formed if they were, no
  event goes away, id and time of an event that has them are those it had unless the step gave it another
  one, and a step that fails leaves everything as it was.  A run is one step after the other, so in the
  course of a run id and time are those that were last given (`lastGiven`).

  Main statement: `run_keeps`.
-/
import CloudEvents.Proofs.Event.Edit

namespace CloudEvents

/-! ## Steps -/

/-- What the registry finds is the kind of an extension, under its own tag. -/
theorem Registry.find_standard {tag : String} {k : Kind} (h : Registry.standard.find tag = .ok k) :
    ∃ x : Extension, x.tag = tag ∧ k = x.kind := by
  have hall : ∀ (l : List Extension) (r : Registry),
      (∀ {n k}, r.get? n = some k → ∃ x : Extension, x.tag = n ∧ k = x.kind) →
      ∀ {n k}, (l.foldl (fun r x => (r.register x.kind).1) r).get? n = some k →
        ∃ x : Extension, x.tag = n ∧ k = x.kind := by
    intro l
    induction l with
    | nil => exact fun r hr => hr
    | cons x l ih =>
      intro r hr
      refine ih _ ?_
      intro n k hk
      simp only [register] at hk
      split at hk
      · exact hr hk
      · rw [NameMap.get?_insert] at hk
        split at hk
        · rename_i hn
          exact ⟨x, hn, (Option.some.inj hk).symm⟩
        · exact hr hk
  unfold find at h
  split at h
  · rename_i k' hk
    cases h
    exact hall Extension.all .empty (fun h => absurd h (by simp)) hk
  · exact absurd h (by simp)

namespace Session

variable {τ ν : Type}

/-- A session all of whose events are well-formed. -/
def WellFormed (s : Session τ ν) : Prop := ∀ e ∈ s, e.event.WellFormed

theorem WellFormed.getElem? {s : Session τ ν} (h : WellFormed s) {i : Nat} {e : TypedEvent τ ν}
    (he : s[i]? = some e) : e.event.WellFormed :=
  h e (List.mem_of_getElem? he)

/-- Whatever an event is made from, it is well-formed. -/
theorem WellFormed.make {s : Session τ ν} (hs : WellFormed s) {f : Fresh} {o : Origin} {e : TypedEvent τ ν}
    (h : o.event? f s = some (.ok e)) : e.event.WellFormed := by
  cases o with
  | blank b =>
    cases h
    exact .blank b
  | clone i =>
    obtain ⟨d, hd, h⟩ := Option.map_eq_some_iff.1 h
    cases h
    exact hs.getElem? hd
  | deriveFrom i =>
    obtain ⟨d, hd, h⟩ := Option.map_eq_some_iff.1 h
    cases h
    exact (hs.getElem? hd).deriveFrom
  | deriveKind tag i =>
    obtain ⟨d, hd, h⟩ := Option.map_eq_some_iff.1 h
    obtain ⟨_, hk, rfl⟩ := map_eq_ok_iff.1 h
    obtain ⟨k, hfind, rfl⟩ := map_eq_ok_iff.1 hk
    obtain ⟨x, -, rfl⟩ := Registry.find_standard hfind
    exact (hs.getElem? hd).derive x
  | message b m =>
    obtain ⟨d, hd, rfl⟩ := map_eq_ok_iff.1 (Option.some.inj h)
    exact Wire.wellFormed_decode hd
  | binaryMessage b m =>
    obtain ⟨d, hd, rfl⟩ := map_eq_ok_iff.1 (Option.some.inj h)
    exact (Wire.Binary.decode_eq_ok_iff.1 hd).wellFormed
  | document b json =>
    obtain ⟨d, hd, rfl⟩ := map_eq_ok_iff.1 (Option.some.inj h)
    exact Wire.Structured.wellFormed_decode hd
  | messageOfKind tag b m =>
    obtain ⟨d, hd, rfl⟩ := map_eq_ok_iff.1 (Option.some.inj h)
    obtain ⟨k, hfind, hd⟩ := bind_eq_ok_iff.1 hd
    obtain ⟨x, -, rfl⟩ := Registry.find_standard hfind
    obtain ⟨c, hc, hd⟩ := bind_eq_ok_iff.1 hd
    obtain ⟨-, -, hd⟩ := bind_eq_ok_iff.1 hd
    exact (Wire.wellFormed_decode hc).check hd

end Session

namespace Command

variable {τ ν : Type}

/-- What a step gives to the event of a number: what its action gives, if that is done to this event. -/
def given? {α : Type} (what : Action τ ν → Except Error (Answer ν) → Option α) (i : Nat) (c : Command τ ν)
    (answer : Option (Except Error (Answer ν))) : Option α :=
  match c, answer with
  | .act j a, some answer => if j = i then what a answer else none
  | _, _ => none

end Command

namespace Session

variable {τ ν : Type} [DecidableEq τ] (forms : Forms τ ν)

/-- What a step leaves of a session. -/
structure Leaves (c : Command τ ν) (s : Session τ ν) (answer : Option (Except Error (Answer ν)))
    (s' : Session τ ν) : Prop where
  wellFormed : WellFormed s → WellFormed s'
  /-- No event goes away, and id and time of an event that has them are those it had, or the ones given. -/
  events : ∀ i e, s[i]? = some e → ∃ e', s'[i]? = some e' ∧
    (∀ x, e.event.id = some x → e'.event.id = some ((c.given? Action.givenId? i answer).getD x)) ∧
    (∀ t, e.event.time = some t → e'.event.time = some ((c.given? Action.givenTime? i answer).getD t))
  atomic : ∀ err, answer = some (.error err) → s' = s

theorem step_act_of_none {s : Session τ ν} {i : Nat} (h : s[i]? = none) (a : Action τ ν) (f : Fresh) :
    step forms s (.act i a) f = (s, none) := by
  rw [step, h]

/-- Acting on an event changes it alone. -/
theorem step_act_of_some {s : Session τ ν} {i : Nat} {e : TypedEvent τ ν} (h : s[i]? = some e)
    (a : Action τ ν) (f : Fresh) :
    step forms s (.act i a) f = (s.set i ((a.edit forms f).run e).2, some ((a.edit forms f).run e).1) := by
  rw [step, h]
  rfl

/-- **What every step leaves of its session.** -/
theorem leaves_step (s : Session τ ν) (c : Command τ ν) (f : Fresh) :
    Leaves c s (step forms s c f).2 (step forms s c f).1 := by
  cases c with
  | make o =>
    rw [step]
    cases ho : o.event? f s with
    -- An event to start from that is not there: nothing is made.
    | none => exact ⟨fun h => h, fun i e he => ⟨e, he, fun _ h => h, fun _ h => h⟩, fun _ _ => rfl⟩
    | some r =>
      cases r with
      | error err => exact ⟨fun h => h, fun i e he => ⟨e, he, fun _ h => h, fun _ h => h⟩, fun _ _ => rfl⟩
      | ok e =>
        refine ⟨fun h => ?_, fun i d hd => ⟨d, ?_, fun _ h => h, fun _ h => h⟩, fun _ h => absurd h (by simp)⟩
        · intro d hd
          rcases List.mem_append.1 hd with hd | hd
          · exact h d hd
          · rw [List.mem_singleton.1 hd]
            exact h.make ho
        · exact (List.getElem?_append_left (List.getElem?_eq_some_iff.1 hd).1).trans hd
  | act j a =>
    cases hj : s[j]? with
    | none =>
      rw [step_act_of_none forms hj]
      exact ⟨fun h => h, fun i e he => ⟨e, he, fun _ h => h, fun _ h => h⟩, fun _ _ => rfl⟩
    | some d =>
      have hleaves := a.leaves_edit forms f d
      rw [step_act_of_some forms hj]
      generalize ((a.edit forms f).run d).1 = answer at hleaves ⊢
      generalize ((a.edit forms f).run d).2 = d' at hleaves ⊢
      have hlt : j < s.length := (List.getElem?_eq_some_iff.1 hj).1
      refine ⟨fun h => ?_, fun i e he => ?_, fun err herr => ?_⟩
      · intro e he
        rcases List.mem_or_eq_of_mem_set he with he | rfl
        · exact h e he
        · exact hleaves.wellFormed (h.getElem? hj)
      · -- The event that is acted on changes as its action says; every other one is as it was.
        by_cases hij : j = i
        · subst hij
          obtain rfl := Option.some.inj (hj.symm.trans he)
          refine ⟨d', List.getElem?_set_self hlt, ?_, ?_⟩
          · simp only [Command.given?, if_true]
            exact hleaves.id
          · simp only [Command.given?, if_true]
            exact hleaves.time
        · refine ⟨e, (List.getElem?_set_ne hij).trans he, ?_, ?_⟩
          · simp only [Command.given?, if_neg hij]
            exact fun _ h => h
          · simp only [Command.given?, if_neg hij]
            exact fun _ h => h
      · -- An action that fails leaves its event, and so the session it is put back into.
        rw [hleaves.atomic err (Option.some.inj herr)]
        obtain ⟨_, rfl⟩ := List.getElem?_eq_some_iff.1 hj
        exact List.set_getElem_self hlt

/-! ## Runs -/

/-- What an event was last given in the course of some steps, or what it had before them. -/
def lastGiven {α : Type} (what : Action τ ν → Except Error (Answer ν) → Option α) (i : Nat) (s : Session τ ν)
    (cs : List (Command τ ν × Fresh)) (x : α) : α :=
  match cs with
  | [] => x
  | (c, f) :: cs =>
    lastGiven what i (step forms s c f).1 cs ((c.given? what i (step forms s c f).2).getD x)

/-- **A session stays well-formed**, whatever is done in it. -/
theorem WellFormed.run {s : Session τ ν} (h : WellFormed s) (cs : List (Command τ ν × Fresh)) :
    WellFormed (run forms s cs) := by
  induction cs generalizing s with
  | nil => exact h
  | cons c cs ih => exact ih ((leaves_step forms s c.1 c.2).wellFormed h)

/-- In the course of some steps, id and time of an event that has them are the ones that it was last given. -/
theorem exists_run (s : Session τ ν) (cs : List (Command τ ν × Fresh)) {i : Nat} {e : TypedEvent τ ν}
    (he : s[i]? = some e) : ∃ e', (run forms s cs)[i]? = some e' ∧
      (∀ x, e.event.id = some x → e'.event.id = some (lastGiven forms Action.givenId? i s cs x)) ∧
      (∀ t, e.event.time = some t → e'.event.time = some (lastGiven forms Action.givenTime? i s cs t)) := by
  induction cs generalizing s e with
  | nil => exact ⟨e, he, fun _ h => h, fun _ h => h⟩
  | cons c cs ih =>
    obtain ⟨c, f⟩ := c
    obtain ⟨d, hd, hid, htime⟩ := (leaves_step forms s c f).events i e he
    obtain ⟨e', he', hid', htime'⟩ := ih _ hd
    exact ⟨e', he', fun x hx => hid' _ (hid x hx), fun t ht => htime' _ (htime t ht)⟩

/-- **Sessions keep their events in order.**  Whatever the steps are, no event has an empty id or an
extension attribute with an empty or reserved name; an event keeps its id and its time, once it has them, but
for those that it is given afterwards; what is read as the id or the time is what the event has from then on;
and a step that fails changes nothing. -/
theorem run_keeps (before : List (Command τ ν × Fresh)) :
    (∀ e ∈ run forms [] before, e.event.id ≠ some "" ∧
      ∀ n v, e.event.attribute? n = some v → n ≠ "" ∧ isReserved n = false) ∧
    (∀ after i e, (run forms [] before)[i]? = some e → ∃ e', (run forms [] (before ++ after))[i]? = some e' ∧
      (∀ x, e.event.id = some x →
        e'.event.id = some (lastGiven forms Action.givenId? i (run forms [] before) after x)) ∧
      (∀ t, e.event.time = some t →
        e'.event.time = some (lastGiven forms Action.givenTime? i (run forms [] before) after t))) ∧
    (∀ i e f, (run forms [] before)[i]? = some e → ∃ x t d d',
      step forms (run forms [] before) (.act i .readId) f =
        ((run forms [] before).set i d, some (.ok (.text x))) ∧ d.event.id = some x ∧
      step forms (run forms [] before) (.act i .readTime) f =
        ((run forms [] before).set i d', some (.ok (.instant t))) ∧ d'.event.time = some t) ∧
    (∀ c f err, (step forms (run forms [] before) c f).2 = some (.error err) →
      (step forms (run forms [] before) c f).1 = run forms [] before) := by
  have hempty : WellFormed ([] : Session τ ν) := fun _ he => absurd he (by simp)
  refine ⟨?_, ?_, ?_, fun c f => (leaves_step forms _ c f).atomic⟩
  · intro e he
    have hw := hempty.run forms before e he
    exact ⟨hw.id_ne, hw.names⟩
  · intro after i e he
    obtain ⟨e', he', h⟩ := exists_run forms (run forms [] before) after he
    refine ⟨e', ?_, h⟩
    rw [run, List.foldl_append]
    exact he'
  · intro i e f he
    exact ⟨_, _, _, _, step_act_of_some forms he _ f, rfl, step_act_of_some forms he _ f, rfl⟩

/-- An event is made and given an id. -/
def namingSteps : List (Command DataType Json.Value × Fresh) :=
  [(.make (.blank .http), default), (.act 0 (.setId "a"), default)]

/-- Three steps that are not to change the id: one that reads it, one that fails and one that encodes. -/
def namedSteps : List (Command DataType Json.Value × Fresh) :=
  [(.act 0 .readId, default), (.act 0 (.setAttribute "id" "b"), default),
    (.act 0 (.encodeBinary .http), default)]

/-- An id that was set stays when an empty one is refused, and the refusal leaves the whole session as it is. -/
theorem run_namedSteps :
    (∃ e, (run DataType.forms [] (namingSteps ++ namedSteps))[0]? = some e ∧ e.event.id = some "a") ∧
      (step DataType.forms (run DataType.forms [] namingSteps) (.act 0 (.setId "")) default).1 =
        run DataType.forms [] namingSteps := by
  obtain ⟨-, hkeeps, -, hatomic⟩ := run_keeps DataType.forms namingSteps
  obtain ⟨e, he, hid, -⟩ := hkeeps namedSteps 0 { event := { binding := .http, id := some "a" } } rfl
  exact ⟨⟨e, he, hid "a" rfl⟩, hatomic (.act 0 (.setId "")) default (.emptyArgument .id) rfl⟩

end Session

end CloudEvents
