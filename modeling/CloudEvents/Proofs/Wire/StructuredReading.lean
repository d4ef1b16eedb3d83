/-
  What a document has to be like to be read, and as what it is read.

  A member sets one thing, so what a slot holds in the end depends on the member of its name alone and
  not on the others or on the order in which they are looked at (`project_setMembers`).  Whether a member
  is accepted depends on its name and text, and not on the event it is set in.  `Describes b ms e` puts
  both together: every member is accepted, and slot by slot and name by name the event is what the
  members say.  `decode_eq_ok_iff` says that this is all there is to reading.
-/
import CloudEvents.Proofs.Event.WellFormed
import CloudEvents.Wire.Structured

namespace CloudEvents.Wire.Structured

/-! ## One member -/

theorem slotOfName?_eq_some_iff {n : String} {w : WellKnown} : slotOfName? n = some w ↔ n = w.name := by
  unfold slotOfName?
  constructor
  · intro h
    have hw := List.find?_some h
    exact (beq_iff_eq.1 hw).symm
  · rintro rfl
    cases w <;> rfl

theorem slotOfName?_name (w : WellKnown) : slotOfName? w.name = some w := slotOfName?_eq_some_iff.2 rfl

/-- What the text of a member has to be like. -/
def Accepts (n v : String) : Prop :=
  match slotOfName? n with
  | some .id => v ≠ ""
  | some .source | some .dataschema => isUriReference v = true
  | some .datacontenttype => isContentType v = true
  | some .time => (Instant.read? v).isSome = true
  | some .type | some .subject => True
  | some .specversion | none => IsExtensionName n

/-- What setting a member changes, and what it leaves alone. -/
structure Sets (n v : String) (e e' : Event) : Prop where
  id : e'.id = if n = WellKnown.id.name then some v else e.id
  source : e'.source = if n = WellKnown.source.name then (Uri.parse v).toOption else e.source
  type : e'.type = if n = WellKnown.type.name then some v else e.type
  dataContentType : e'.dataContentType =
    if n = WellKnown.datacontenttype.name then (ContentType.parse v).toOption else e.dataContentType
  dataSchema : e'.dataSchema =
    if n = WellKnown.dataschema.name then (Uri.parse v).toOption else e.dataSchema
  subject : e'.subject = if n = WellKnown.subject.name then some v else e.subject
  time : e'.time = if n = WellKnown.time.name then Instant.read? v else e.time
  attributes : ∀ k, e'.attribute? k = if n = k ∧ isWellKnown k = false then some v else e.attribute? k
  rest : e'.data = e.data ∧ e'.binding = e.binding

/-- The name of a slot is no extension attribute's. -/
theorem ite_name {α : Type} (w : WellKnown) (k : String) (x y : α) :
    (if w.name = k ∧ isWellKnown k = false then x else y) = y := by
  refine if_neg ?_
  rintro ⟨rfl, hw⟩
  rw [isWellKnown_iff.2 ⟨w, rfl⟩] at hw
  exact absurd hw (by decide)

/-- A member with the name of no slot sets the attribute of that name and leaves the rest alone. -/
theorem sets_attribute {e e' : Event} {n v : String} (hs : ∀ w : WellKnown, w ≠ .specversion → n ≠ w.name)
    (h : e.setAttribute n v = .ok e') : IsExtensionName n ∧ Sets n v e e' := by
  obtain ⟨hne, hr, rfl⟩ := Event.setAttribute_eq_ok_iff.1 h
  refine ⟨⟨hne, hr⟩, ?_, ?_, ?_, ?_, ?_, ?_, ?_, ?_, rfl, rfl⟩
  · rw [if_neg (hs .id (by decide))]
    rfl
  · rw [if_neg (hs .source (by decide))]
    rfl
  · rw [if_neg (hs .type (by decide))]
    rfl
  · rw [if_neg (hs .datacontenttype (by decide))]
    rfl
  · rw [if_neg (hs .dataschema (by decide))]
    rfl
  · rw [if_neg (hs .subject (by decide))]
    rfl
  · rw [if_neg (hs .time (by decide))]
    rfl
  · intro k
    -- A name that can be set is reserved for nothing, so it is not that of a slot either.
    rw [Event.attribute?, Event.putAttribute, NameMap.get?_insert]
    by_cases hk : n = k
    · subst hk
      have hw : isWellKnown n = false := by
        cases hw : isWellKnown n with
        | false => rfl
        | true =>
          rw [isReserved, hw] at hr
          exact absurd hr (by simp)
      rw [if_pos rfl, if_pos ⟨rfl, hw⟩]
    · rw [if_neg hk, if_neg fun h => hk h.1]
      rfl

/-- **A member that is accepted sets its own slot or attribute**, and nothing else. -/
theorem sets_of_setMember {e e' : Event} {n v : String} (h : setMember e n v = .ok e') :
    Accepts n v ∧ Sets n v e e' := by
  rw [setMember] at h
  rw [Accepts]
  cases hs : slotOfName? n with
  | none =>
    rw [hs] at h
    refine sets_attribute ?_ h
    rintro w - rfl
    rw [slotOfName?_name] at hs
    exact absurd hs (by simp)
  | some w =>
    obtain rfl := slotOfName?_eq_some_iff.1 hs
    have hname : ∀ k, e.attribute? k = if w.name = k ∧ isWellKnown k = false then some v else e.attribute? k :=
      fun k => (ite_name w k ..).symm
    cases w with
    | id =>
      simp only [hs] at h
      rw [Event.setId] at h
      split at h
      · have h : Except.error _ = Except.ok e' := h
        exact absurd h (by simp)
      · rename_i hv
        cases h
        exact ⟨hv, rfl, rfl, rfl, rfl, rfl, rfl, rfl, hname, rfl, rfl⟩
    | source =>
      simp only [hs] at h
      split at h
      · rename_i u hu
        cases h
        have hv : isUriReference v = true := Uri.parse_eq_ok_iff.1 hu ▸ u.isReference
        refine ⟨hv, rfl, ?_, rfl, rfl, rfl, rfl, rfl, hname, rfl, rfl⟩
        rw [if_pos rfl, hu]
        rfl
      · exact absurd h (by simp)
    | specversion =>
      -- The version has no slot in an event: its name is treated as that of an attribute, and is reserved.
      simp only [hs] at h
      refine sets_attribute ?_ h
      intro w hw heq
      exact hw (WellKnown.name_injective heq).symm
    | type =>
      simp only [hs] at h
      cases h
      exact ⟨trivial, rfl, rfl, rfl, rfl, rfl, rfl, rfl, hname, rfl, rfl⟩
    | datacontenttype =>
      simp only [hs] at h
      split at h
      · rename_i c hc
        cases h
        have hv : isContentType v = true := ContentType.parse_eq_ok_iff.1 hc ▸ c.isContentType
        refine ⟨hv, rfl, rfl, rfl, ?_, rfl, rfl, rfl, hname, rfl, rfl⟩
        rw [if_pos rfl, hc]
        rfl
      · exact absurd h (by simp)
    | dataschema =>
      simp only [hs] at h
      split at h
      · rename_i u hu
        cases h
        have hv : isUriReference v = true := Uri.parse_eq_ok_iff.1 hu ▸ u.isReference
        refine ⟨hv, rfl, rfl, rfl, rfl, ?_, rfl, rfl, hname, rfl, rfl⟩
        rw [if_pos rfl, hu]
        rfl
      · exact absurd h (by simp)
    | subject =>
      simp only [hs] at h
      cases h
      exact ⟨trivial, rfl, rfl, rfl, rfl, rfl, rfl, rfl, hname, rfl, rfl⟩
    | time =>
      simp only [hs] at h
      split at h
      · rename_i t ht
        cases h
        refine ⟨by rw [ht]; rfl, rfl, rfl, rfl, rfl, rfl, rfl, ?_, hname, rfl, rfl⟩
        rw [if_pos rfl, ht]
      · exact absurd h (by simp)

/-- A member with a text that is accepted can be set on every event. -/
theorem exists_setMember {n v : String} (h : Accepts n v) (e : Event) : ∃ e', setMember e n v = .ok e' := by
  rw [Accepts] at h
  rw [setMember]
  cases hs : slotOfName? n with
  | none =>
    rw [hs] at h
    exact ⟨_, Event.setAttribute_eq_ok_iff.2 ⟨h.1, h.2, rfl⟩⟩
  | some w =>
    rw [hs] at h
    cases w with
    | id => exact ⟨{ e with id := some v }, by rw [Event.setId, if_neg h]; rfl⟩
    | source => exact ⟨{ e with source := some ⟨v, h⟩ }, by rw [Uri.parse, dif_pos h]⟩
    | specversion => exact ⟨_, Event.setAttribute_eq_ok_iff.2 ⟨h.1, h.2, rfl⟩⟩
    | type => exact ⟨_, rfl⟩
    | datacontenttype =>
      exact ⟨{ e with dataContentType := some ⟨v, h⟩ }, by rw [ContentType.parse, dif_pos h]⟩
    | dataschema => exact ⟨{ e with dataSchema := some ⟨v, h⟩ }, by rw [Uri.parse, dif_pos h]⟩
    | subject => exact ⟨_, rfl⟩
    | time =>
      obtain ⟨t, ht⟩ := Option.isSome_iff_exists.1 h
      exact ⟨{ e with time := some t }, by rw [ht]⟩

theorem isWellKnown_of_isReserved {n : String} (h : isReserved n = false) : isWellKnown n = false := by
  rw [isReserved, Bool.or_eq_false_iff, Bool.or_eq_false_iff] at h
  exact h.1.1

theorem slotOfName?_eq_none {n : String} (h : isWellKnown n = false) : slotOfName? n = none := by
  cases hs : slotOfName? n with
  | none => rfl
  | some w =>
    rw [isWellKnown_iff.2 ⟨w, (slotOfName?_eq_some_iff.1 hs).symm⟩] at h
    exact absurd h (by decide)

/-- A member that is set keeps an event well-formed. -/
theorem wellFormed_setMember {e e' : Event} {n v : String} (he : e.WellFormed)
    (h : setMember e n v = .ok e') : e'.WellFormed := by
  obtain ⟨ha, hs⟩ := sets_of_setMember h
  refine ⟨?_, ?_⟩
  · rw [hs.id]
    split
    · rename_i hn
      subst hn
      have hv : v ≠ "" := ha
      exact fun heq => hv (Option.some.inj heq)
    · exact he.id_ne
  · intro k w hk
    rw [hs.attributes] at hk
    split at hk
    · rename_i hn
      obtain ⟨rfl, hw⟩ := hn
      rw [Accepts, slotOfName?_eq_none hw] at ha
      exact ha
    · exact he.names k w hk

/-! ## All members -/

/-- Members are set one after the other, each on what the ones before it left. -/
theorem setMembers_cons_eq_ok_iff {e e' : Event} {n : String} {raw : List Char}
    {l : List (String × List Char)} :
    setMembers e ((n, raw) :: l) = .ok e' ↔
      ∃ v e₁, text? raw = some v ∧ setMember e n v = .ok e₁ ∧ setMembers e₁ l = .ok e' := by
  rw [setMembers]
  cases text? raw with
  | none => simp
  | some v =>
    cases hs : setMember e n v with
    | error err => simp [hs]
    | ok e₁ => simp [hs]

/-- Members can be set if each of them can, whatever the event is. -/
theorem exists_setMembers_iff {e : Event} {l : List (String × List Char)} :
    (∃ e', setMembers e l = .ok e') ↔ ∀ x ∈ l, ∃ v, text? x.2 = some v ∧ Accepts x.1 v := by
  induction l generalizing e with
  | nil => exact ⟨fun _ x hx => absurd hx (by simp), fun _ => ⟨e, rfl⟩⟩
  | cons x l ih =>
    obtain ⟨n, raw⟩ := x
    rw [List.forall_mem_cons]
    constructor
    · rintro ⟨e', h⟩
      obtain ⟨v, e₁, hv, hs, hl⟩ := setMembers_cons_eq_ok_iff.1 h
      exact ⟨⟨v, hv, (sets_of_setMember hs).1⟩, ih.1 ⟨e', hl⟩⟩
    · rintro ⟨⟨v, hv, ha⟩, hl⟩
      obtain ⟨e₁, hs⟩ := exists_setMember ha e
      obtain ⟨e', h⟩ := ih.2 hl
      exact ⟨e', setMembers_cons_eq_ok_iff.2 ⟨v, e₁, hv, hs, h⟩⟩

/-- **The first member that is refused decides**, whatever the event is it would be set in. -/
theorem setMembers_eq_error {l : List (String × List Char)} {n v : String} {raw : List Char} {err : Error}
    (hmem : (n, raw) ∈ l) (hraw : text? raw = some v) (herr : ∀ e, setMember e n v = .error err)
    (hrest : ∀ x ∈ l, x ≠ (n, raw) → ∃ u, text? x.2 = some u ∧ Accepts x.1 u) (e : Event) :
    setMembers e l = .error err := by
  induction l generalizing e with
  | nil => exact absurd hmem (by simp)
  | cons x l ih =>
    obtain ⟨hx, hl⟩ := List.forall_mem_cons.1 hrest
    by_cases heq : x = (n, raw)
    · rw [heq, setMembers]
      simp only [hraw, herr]
    · obtain ⟨u, hu, ha⟩ := hx heq
      obtain ⟨e₁, hset⟩ := exists_setMember ha e
      have hmem : (n, raw) ∈ l := (List.mem_cons.1 hmem).resolve_left (Ne.symm heq)
      rw [setMembers]
      simp only [hu, hset]
      exact ih hmem hl e₁

/-- **What one member alone sets has the value that this member gives it**, if it is there. -/
theorem project_setMembers {α : Type} (get : Event → Option α) (name : String) (read : String → Option α)
    (hstep : ∀ {e e' n v}, setMember e n v = .ok e' → get e' = if n = name then read v else get e)
    {e e' : Event} {l : List (String × List Char)} (hl : (l.map Prod.fst).Nodup)
    (h : setMembers e l = .ok e') :
    get e' =
      match NameMap.lookup name l with
      | none => get e
      | some raw => (text? raw).bind read := by
  induction l generalizing e with
  | nil =>
    cases h
    rfl
  | cons x l ih =>
    obtain ⟨n, raw⟩ := x
    obtain ⟨v, e₁, hv, hs, hrest⟩ := setMembers_cons_eq_ok_iff.1 h
    obtain ⟨hn, hl⟩ := List.nodup_cons.1 hl
    have ih := ih hl hrest
    -- The names differ, so after the member of this name no other one touches the value.
    rw [NameMap.lookup]
    by_cases heq : n = name
    · rw [heq] at hn
      rw [NameMap.lookup_eq_none_iff.2 hn] at ih
      rw [if_pos heq]
      simp only [ih, hstep hs, if_pos heq, hv, Option.bind_some]
    · rw [if_neg heq, ih, hstep hs, if_neg heq]

/-- What every member keeps, all of them keep. -/
theorem setMembers_induction {P : Event → Prop} {e e' : Event} {l : List (String × List Char)}
    (hstep : ∀ {e e' n v}, P e → setMember e n v = .ok e' → P e') (he : P e)
    (h : setMembers e l = .ok e') : P e' := by
  induction l generalizing e with
  | nil =>
    cases h
    exact he
  | cons x l ih =>
    obtain ⟨v, e₁, -, hs, hl⟩ := setMembers_cons_eq_ok_iff.1 h
    exact ih (hstep he hs) hl

theorem setMembers_rest {e e' : Event} {l : List (String × List Char)} (h : setMembers e l = .ok e') :
    e'.data = e.data ∧ e'.binding = e.binding := by
  refine setMembers_induction (P := fun x => x.data = e.data ∧ x.binding = e.binding) ?_ ⟨rfl, rfl⟩ h
  intro x y n v hx hs
  obtain ⟨hdata, hbinding⟩ := (sets_of_setMember hs).2.rest
  exact ⟨hdata.trans hx.1, hbinding.trans hx.2⟩

/-- Members that are set keep an event well-formed. -/
theorem wellFormed_setMembers {e e' : Event} {l : List (String × List Char)} (he : e.WellFormed)
    (h : setMembers e l = .ok e') : e'.WellFormed :=
  setMembers_induction wellFormed_setMember he h

/-! ## The whole event -/

/-- The text of a member, if there is one of that name and it is a text. -/
def member? (ms : NameMap (List Char)) (n : String) : Option String := (ms.get? n).bind text?

/-- An event is what the members of a document say: each member but those for version and data is a text
that is accepted, the slots and extension attributes hold these texts, and the data is what the members
for data say. -/
structure Describes (b : Binding) (ms : NameMap (List Char)) (e : Event) : Prop where
  version : checkVersion ms = .ok ()
  data : readData ms = .ok e.data
  accepted : ∀ n raw, (attributeMembers ms).get? n = some raw → ∃ v, text? raw = some v ∧ Accepts n v
  id : e.id = member? ms WellKnown.id.name
  source : e.source = (member? ms WellKnown.source.name).bind fun v => (Uri.parse v).toOption
  type : e.type = member? ms WellKnown.type.name
  dataContentType : e.dataContentType =
    (member? ms WellKnown.datacontenttype.name).bind fun v => (ContentType.parse v).toOption
  dataSchema : e.dataSchema = (member? ms WellKnown.dataschema.name).bind fun v => (Uri.parse v).toOption
  subject : e.subject = member? ms WellKnown.subject.name
  time : e.time = (member? ms WellKnown.time.name).bind Instant.read?
  attributes : ∀ n, e.attribute? n = if isReserved n = false then member? ms n else none
  binding : e.binding = b

/-- **Members describe one event at most.** -/
theorem Describes.unique {b : Binding} {ms : NameMap (List Char)} {d e : Event} (hd : Describes b ms d)
    (he : Describes b ms e) : d = e := by
  have hattr : d.attributes = e.attributes :=
    NameMap.ext_get? fun n => (hd.attributes n).trans (he.attributes n).symm
  have hdata : d.data = e.data := Except.ok.inj (hd.data.symm.trans he.data)
  have hbinding : d.binding = e.binding := hd.binding.trans he.binding.symm
  cases d
  cases e
  simp only [Event.mk.injEq]
  exact ⟨hd.id.trans he.id.symm, hd.source.trans he.source.symm, hd.type.trans he.type.symm,
    hd.dataContentType.trans he.dataContentType.symm, hd.dataSchema.trans he.dataSchema.symm,
    hd.subject.trans he.subject.symm, hd.time.trans he.time.symm, hattr, hdata, hbinding⟩

theorem get?_attributeMembers (ms : NameMap (List Char)) (n : String) :
    (attributeMembers ms).get? n =
      if n = WellKnown.specversion.name ∨ n = base64Name ∨ n = dataName then none else ms.get? n := by
  unfold attributeMembers
  rw [NameMap.get?_erase, NameMap.get?_erase, NameMap.get?_erase]
  by_cases h1 : n = dataName
  · simp [h1]
  · by_cases h2 : n = base64Name
    · simp [h2]
    · by_cases h3 : n = WellKnown.specversion.name
      · simp [h3]
      · rw [if_neg (Ne.symm h1), if_neg (Ne.symm h2), if_neg (Ne.symm h3), if_neg (by simp [h1, h2, h3])]

/-- **The members of a document are read as the event they describe.** -/
theorem describes_of_setMembers {b : Binding} {ms : NameMap (List Char)} {e : Event}
    (hv : checkVersion ms = .ok ()) {data : Option Payload} (hd : readData ms = .ok data)
    (h : setMembers (.blank b) (attributeMembers ms).entries = .ok e) : Describes b ms { e with data } := by
  have hnodup := (attributeMembers ms).nodup_entries
  have hslot : ∀ w : WellKnown, w ≠ .specversion →
      NameMap.lookup w.name (attributeMembers ms).entries = ms.get? w.name := by
    intro w hw
    show (attributeMembers ms).get? w.name = _
    rw [get?_attributeMembers, if_neg]
    cases w <;> first | exact absurd rfl hw | decide
  -- A slot is empty at first, so it holds what its member says, or nothing.
  have hget : ∀ {α : Type} (get : Event → Option α) (w : WellKnown) (read : String → Option α),
      w ≠ .specversion → get (.blank b) = none →
      (∀ {e e' n v}, setMember e n v = .ok e' → get e' = if n = w.name then read v else get e) →
      get e = (member? ms w.name).bind read := by
    intro α get w read hw hblank hstep
    rw [project_setMembers get w.name read hstep hnodup h, hslot w hw, hblank, member?]
    cases ms.get? w.name with
    | none => rfl
    | some raw => rfl
  have htext : ∀ (get : Event → Option String) (w : WellKnown), w ≠ .specversion →
      get (.blank b) = none →
      (∀ {e e' n v}, setMember e n v = .ok e' → get e' = if n = w.name then some v else get e) →
      get e = member? ms w.name := by
    intro get w hw hblank hstep
    rw [hget get w some hw hblank hstep, Option.bind_fun_some]
  refine ⟨hv, hd, ?_, ?_, ?_, ?_, ?_, ?_, ?_, ?_, ?_, (setMembers_rest h).2⟩
  · intro n raw hn
    exact exists_setMembers_iff.1 ⟨e, h⟩ (n, raw) (NameMap.mem_entries_iff.2 hn)
  · exact htext Event.id .id (by decide) rfl fun hs => (sets_of_setMember hs).2.id
  · exact hget Event.source .source _ (by decide) rfl fun hs => (sets_of_setMember hs).2.source
  · exact htext Event.type .type (by decide) rfl fun hs => (sets_of_setMember hs).2.type
  · exact hget Event.dataContentType .datacontenttype _ (by decide) rfl
      fun hs => (sets_of_setMember hs).2.dataContentType
  · exact hget Event.dataSchema .dataschema _ (by decide) rfl
      fun hs => (sets_of_setMember hs).2.dataSchema
  · exact htext Event.subject .subject (by decide) rfl fun hs => (sets_of_setMember hs).2.subject
  · exact hget Event.time .time _ (by decide) rfl fun hs => (sets_of_setMember hs).2.time
  · intro n
    show e.attribute? n = _
    by_cases hr : isReserved n = false
    · have hw := isWellKnown_of_isReserved hr
      have hmember : NameMap.lookup n (attributeMembers ms).entries = ms.get? n := by
        show (attributeMembers ms).get? n = _
        rw [get?_attributeMembers, if_neg]
        rintro (rfl | rfl | rfl) <;> exact absurd hr (by decide)
      rw [if_pos hr, project_setMembers (fun e => e.attribute? n) n some ?_ hnodup h, hmember, member?]
      · cases ms.get? n with
        | none => rfl
        | some raw => exact Option.bind_fun_some _
      · intro e e' k v hs
        rw [(sets_of_setMember hs).2.attributes]
        simp only [hw, and_true]
    · rw [if_neg hr]
      exact Event.attribute?_eq_none (wellFormed_setMembers (.blank b) h).names fun hn => hr hn.2

/-- **A document is read as the event its members describe**, and as nothing else. -/
theorem decode_eq_ok_iff {b : Binding} {json : String} {e : Event} :
    decode b json = .ok e ↔ ∃ ms, members json.toList = .ok ms ∧ Describes b ms e := by
  unfold decode
  simp only [bind_eq_ok_iff, pure, Except.pure, Except.ok.injEq]
  constructor
  · rintro ⟨ms, hms, ⟨⟩, hv, data, hd, e₁, h, rfl⟩
    exact ⟨ms, hms, describes_of_setMembers hv hd h⟩
  · rintro ⟨ms, hms, h⟩
    have haccepted : ∀ x ∈ (attributeMembers ms).entries, ∃ v, text? x.2 = some v ∧ Accepts x.1 v :=
      fun x hx => h.accepted x.1 x.2 (NameMap.mem_entries_iff.1 hx)
    obtain ⟨e₁, h₁⟩ := exists_setMembers_iff.2 haccepted
    exact ⟨ms, hms, (), h.version, e.data, h.data, e₁, h₁,
      (describes_of_setMembers h.version h.data h₁).unique h⟩

end CloudEvents.Wire.Structured
