/-
  What is remembered of an event's data.

  Once data was read as a type, or written from a value of one, the value is remembered, and from then on reading
  gives it back without a look at the data.  What makes this right is that the value is the data's own for as long
  as it is remembered (`TypedEvent.Backed`): the data reads as it, or is its text, and then the event was given that
  value.  Whatever changes the data forgets the value first, and most of what is done to an event has nothing to do
  with data (`Action.aside_edit`).

  A session works on many events, and a clone remembers what the event it is cloned from does.  But each of them has
  come about on a way of its own: some event that remembered nothing, and what was done to it, before it was cloned
  and after that (`Lineage`).  The events of a run are those that their lineages lead to (`map_event_lineages`), so
  the invariant is carried along a lineage and not through a session.

  Main statement: `run_serves`.
-/
import CloudEvents.Proofs.Event.Aside
import CloudEvents.Proofs.Event.Lineage

namespace CloudEvents

/-! ## Values that are read and written by any functions -/

/-- The error of data that is nothing in a language, and of values that have no text in it. -/
def DataLanguage.error : DataLanguage → Error
  | json => .json
  | xml => .xml

/-- What there is in a language, if there is anything. -/
def DataLanguage.orError {α : Type} (l : DataLanguage) : Option α → Except Error α
  | some a => .ok a
  | none => .error l.error

theorem DataLanguage.orError_eq_ok_iff {α : Type} {l : DataLanguage} {o : Option α} {a : α} :
    l.orError o = .ok a ↔ o = some a := by
  cases o <;> simp [orError]

theorem DataLanguage.orError_ne_otherType {α : Type} {l : DataLanguage} {o : Option α} :
    l.orError o ≠ .error .otherType := by
  cases o <;> cases l <;> simp [orError, error]

/-- The forms of values that are read by one function and written by another one, each of which may have no answer.
There is an error for that in every language, and it is no other error. -/
def Forms.ofPartial {τ ν : Type} (read : τ → DataLanguage → Payload → Option ν)
    (write : τ → DataLanguage → ν → Option String) : Forms τ ν where
  read t l p := l.orError (read t l p)
  write t l v := l.orError (write t l v)

/-- The forms of the types there are come from two such functions. -/
theorem DataType.forms_eq_ofPartial :
    forms = .ofPartial (fun t l p => (read t l p).toOption) fun t l v => (write t l v).toOption := by
  have hread : read = fun t l p => l.orError (read t l p).toOption := by
    funext t l p
    cases l with
    | json =>
      unfold read
      simp only
      split <;> rfl
    | xml =>
      unfold read
      simp only
      split <;> rfl
  have hwrite : write = fun t l v => l.orError (write t l v).toOption := by
    funext t l v
    cases l with
    | json => rfl
    | xml =>
      unfold write
      simp only
      split <;> rfl
  exact congr (congrArg Forms.mk hread) hwrite

/-! ## What the operations on data do -/

namespace TypedEvent

variable {τ ν : Type} {forms : Forms τ ν} {s s' : TypedEvent τ ν} {t : τ} {v : ν}

/-- A value that is answered is remembered then, and it was before or is what the data reads as. -/
theorem dataAs_eq_ok [DecidableEq τ] (h : s.dataAs forms t = .ok (v, s')) :
    s'.event = s.event ∧ s'.cache = some (t, v) ∧
      (s.cache = some (t, v) ∨ ∃ p, s.event.data = some p ∧ forms.read t s.event.dataLanguage p = .ok v) := by
  unfold dataAs at h
  split at h
  · rename_i t' v' hcache
    split at h
    · rename_i ht
      cases h
      exact ⟨rfl, ht ▸ hcache, .inl (ht ▸ hcache)⟩
    · cases h
  · split at h
    · cases h
    · rename_i p hdata
      split at h
      · rename_i hread
        cases h
        exact ⟨rfl, rfl, .inr ⟨p, hdata, hread⟩⟩
      · cases h

/-- A value is refused for its type only if one of another type is remembered. -/
theorem cache_of_dataAs_eq_otherType [DecidableEq τ] {read : τ → DataLanguage → Payload → Option ν}
    {write : τ → DataLanguage → ν → Option String} (h : s.dataAs (.ofPartial read write) t = .error .otherType) :
    ∃ t' v', s.cache = some (t', v') ∧ t' ≠ t := by
  unfold dataAs at h
  split at h
  · rename_i t' v' hcache
    split at h
    · cases h
    · rename_i ht
      exact ⟨t', v', hcache, ht⟩
  · split at h
    · cases h
    · split at h
      · cases h
      · rename_i herr
        cases h
        exact absurd herr DataLanguage.orError_ne_otherType

/-- Data that is set from a value is its text, and the value is remembered. -/
theorem setDataAs_eq_ok (h : s.setDataAs forms t v = .ok s') :
    ∃ text, forms.write t s.event.dataLanguage v = .ok text ∧ s'.event.data = some (.text text) ∧
      s'.cache = some (t, v) ∧ s'.event.dataLanguage = s.event.dataLanguage := by
  unfold setDataAs at h
  split at h
  · rename_i text hwrite
    cases h
    refine ⟨text, hwrite, ?_⟩
    unfold setData
    split
    · rename_i hdata
      exact ⟨hdata, rfl, rfl⟩
    · exact ⟨rfl, rfl, rfl⟩
  · cases h

/-- No write fails for the sake of the type. -/
theorem setDataAs_ne_otherType {read : τ → DataLanguage → Payload → Option ν}
    {write : τ → DataLanguage → ν → Option String} : s.setDataAs (.ofPartial read write) t v ≠ .error .otherType := by
  intro h
  unfold setDataAs at h
  split at h
  · cases h
  · rename_i herr
    cases h
    exact absurd herr DataLanguage.orError_ne_otherType

end TypedEvent

namespace Edit

variable {τ ν : Type} {forms : Forms τ ν} {s s' : TypedEvent τ ν} {t : τ} {v : ν} {err : Error}

/-- A typed read that succeeds leaves the event that the read itself gives. -/
theorem dataAs_of_run_ok [DecidableEq τ] (h : (dataAs forms t).run s = (.ok v, s')) :
    s.dataAs forms t = .ok (v, s') := by
  rw [run_dataAs] at h
  split at h
  · rename_i hok
    cases h
    exact hok
  · cases h

/-- A typed read that fails leaves the event as it was. -/
theorem dataAs_of_run_error [DecidableEq τ] (h : (dataAs forms t).run s = (.error err, s')) :
    s.dataAs forms t = .error err ∧ s' = s := by
  rw [run_dataAs] at h
  split at h
  · cases h
  · rename_i herr
    cases h
    exact ⟨herr, rfl⟩

/-- A tried read that finds nothing leaves the event as it was. -/
theorem eq_of_run_tryDataAs_none [DecidableEq τ] (h : (tryDataAs forms t).run s = (.ok none, s')) : s' = s := by
  have hrun : (tryDataAs forms t).run s = (.ok (s.tryDataAs forms t).1, (s.tryDataAs forms t).2) := rfl
  rw [hrun, TypedEvent.tryDataAs] at h
  split at h
  · cases h
  · cases h
    rfl

theorem setDataAs_of_run_error (h : (setDataAs forms t v).run s = (.error err, s')) :
    s.setDataAs forms t v = .error err ∧ s' = s := by
  rw [run_setDataAs] at h
  split at h
  · cases h
  · rename_i herr
    cases h
    exact ⟨herr, rfl⟩

end Edit

/-! ## What is remembered is the data's own -/

namespace TypedEvent

variable {τ ν : Type} {forms : Forms τ ν} {s s' : TypedEvent τ ν} {t : τ} {v : ν}

/-- A value that the data is entitled to, after what was done to its event: one that it reads as, or one that the event
was given and whose text it is. -/
def Backed (forms : Forms τ ν) (past : List (Action τ ν × Fresh)) (s : TypedEvent τ ν) (t : τ) (v : ν) : Prop :=
  ∃ p, s.event.data = some p ∧
    (forms.read t s.event.dataLanguage p = .ok v ∨
      (∃ f, (.setDataAs t v, f) ∈ past) ∧
        ∃ text, forms.write t s.event.dataLanguage v = .ok text ∧ p = .text text)

theorem Backed.append {past : List (Action τ ν × Fresh)} (h : s.Backed forms past t v) (a : Action τ ν × Fresh) :
    s.Backed forms (past ++ [a]) t v := by
  obtain ⟨p, hdata, hread | ⟨⟨f, hgiven⟩, hwrite⟩⟩ := h
  · exact ⟨p, hdata, .inl hread⟩
  · exact ⟨p, hdata, .inr ⟨⟨f, List.mem_append_left _ hgiven⟩, hwrite⟩⟩

/-- A value is backed by the data and its language alone. -/
theorem Backed.of_eq {past : List (Action τ ν × Fresh)} (h : s.Backed forms past t v)
    (hdata : s'.event.data = s.event.data) (hlanguage : s'.event.dataLanguage = s.event.dataLanguage) :
    s'.Backed forms past t v := by
  unfold Backed
  rw [hdata, hlanguage]
  exact h

/-- An event that remembers no value but one that is its data's own. -/
def IsBacked (forms : Forms τ ν) (past : List (Action τ ν × Fresh)) (s : TypedEvent τ ν) : Prop :=
  ∀ t v, s.cache = some (t, v) → s.Backed forms past t v

theorem isBacked_of_none {past : List (Action τ ν × Fresh)} (h : s.cache = none) : s.IsBacked forms past := by
  intro t v hcache
  rw [h] at hcache
  cases hcache

/-- The value that data was set from is the data's own, whatever was remembered before. -/
theorem isBacked_setDataAs {past : List (Action τ ν × Fresh)} (hok : s.setDataAs forms t v = .ok s') (f : Fresh) :
    s'.IsBacked forms (past ++ [(.setDataAs t v, f)]) := by
  obtain ⟨text, hwrite, hdata, hcache, hlanguage⟩ := setDataAs_eq_ok hok
  intro t' v' hcache'
  cases hcache.symm.trans hcache'
  exact ⟨_, hdata, .inr ⟨⟨f, List.mem_append_right _ List.mem_cons_self⟩, text, hlanguage ▸ hwrite, rfl⟩⟩

variable [DecidableEq τ] {past : List (Action τ ν × Fresh)}

/-- **A typed read gives a value that is backed**, and leaves a cache that is. -/
theorem IsBacked.dataAs (h : s.IsBacked forms past) (hok : s.dataAs forms t = .ok (v, s')) :
    s.Backed forms past t v ∧ s'.IsBacked forms past := by
  obtain ⟨hevent, hcache, hv⟩ := dataAs_eq_ok hok
  have hbacked : s.Backed forms past t v := by
    rcases hv with hv | ⟨p, hdata, hread⟩
    · exact h t v hv
    · exact ⟨p, hdata, .inl hread⟩
  refine ⟨hbacked, ?_⟩
  intro t' v' hcache'
  cases hcache.symm.trans hcache'
  exact hbacked.of_eq (congrArg Event.data hevent) (congrArg Event.dataLanguage hevent)

/-- Without data there is nothing to read, for any type. -/
theorem IsBacked.dataAs_of_none (h : s.IsBacked forms past) (hdata : s.event.data = none) (t : τ) :
    s.dataAs forms t = .error .missingData := by
  have hcache : s.cache = none := by
    refine Option.eq_none_iff_forall_ne_some.2 fun r hr => ?_
    obtain ⟨p, hp, -⟩ := h r.1 r.2 hr
    cases hdata.symm.trans hp
  rw [TypedEvent.dataAs, hcache, hdata]

/-- **Whatever is done to an event**, but for another content type, what it remembers stays its data's own. -/
theorem IsBacked.edit (h : s.IsBacked forms past) {a : Action τ ν} (ha : ∀ c, a ≠ .setDataContentType c) (f : Fresh) :
    ((a.edit forms f).run s).2.IsBacked forms (past ++ [(a, f)]) := by
  have hthen : ∀ {s' : TypedEvent τ ν}, s'.IsBacked forms past → s'.IsBacked forms (past ++ [(a, f)]) :=
    fun h' t v hcache => (h' t v hcache).append _
  -- Most actions leave alone all that counts here.
  by_cases haside : a.IsAside
  · have hsame := (Action.aside_edit forms f a haside).sameData s
    intro t v hcache
    exact ((h t v (hsame.cache.symm.trans hcache)).of_eq hsame.data hsame.dataLanguage).append _
  · cases a with
    | setDataContentType c => exact absurd rfl (ha c)
    | setData p =>
      show (s.setData p).IsBacked forms _
      unfold setData
      split
      · exact hthen h
      · exact isBacked_of_none rfl
    | clearData =>
      show s.clearData.IsBacked forms _
      unfold clearData
      split
      · exact isBacked_of_none rfl
      · exact hthen h
    | dataAs t =>
      show ((Answer.value <$> Edit.dataAs forms t).run s).2.IsBacked forms _
      rw [Edit.run_map, Edit.run_dataAs]
      cases hok : s.dataAs forms t with
      | ok r => exact hthen (h.dataAs hok).2
      | error err => exact hthen h
    | tryDataAs t =>
      show (s.tryDataAs forms t).2.IsBacked forms _
      unfold tryDataAs
      cases hok : s.dataAs forms t with
      | ok r => exact hthen (h.dataAs hok).2
      | error err => exact hthen h
    | setDataAs t v =>
      show (((fun _ => Answer.done) <$> Edit.setDataAs forms t v).run s).2.IsBacked forms _
      rw [Edit.run_map, Edit.run_setDataAs]
      cases hok : s.setDataAs forms t v with
      | ok s' => exact isBacked_setDataAs hok f
      | error err => exact hthen h
    | _ => exact absurd trivial haside

/-- **Whatever happens, the cache stays backed**, as long as nobody sets the content type. -/
theorem IsBacked.after (h : s.IsBacked forms past) {as : List (Action τ ν × Fresh)}
    (has : ∀ a ∈ as, ∀ c, a.1 ≠ .setDataContentType c) : (s.after forms as).IsBacked forms (past ++ as) := by
  induction as generalizing s past with
  | nil => rwa [List.append_nil]
  | cons a as ih =>
    rw [← List.singleton_append, ← List.append_assoc]
    exact ih (h.edit (has a List.mem_cons_self) a.2) fun b hb => has b (List.mem_cons_of_mem _ hb)

end TypedEvent

/-! ## The lineages of a session -/

namespace Lineage

variable {τ ν : Type}

/-- A lineage that begins without a value to be remembered, and in which the content type stays. -/
structure IsSettled (l : Lineage τ ν) : Prop where
  cache : l.origin.cache = none
  past : ∀ a ∈ l.past, ∀ c, a.1 ≠ .setDataContentType c

theorem isSettled_of_none {e : TypedEvent τ ν} (h : e.cache = none) : IsSettled { origin := e } :=
  ⟨h, fun _ ha => absurd ha List.not_mem_nil⟩

/-- A lineage stays settled through every action but the setting of a content type. -/
theorem IsSettled.extend {l : Lineage τ ν} (h : l.IsSettled) {a : Action τ ν} (ha : ∀ c, a ≠ .setDataContentType c)
    (f : Fresh) : (l.extend a f).IsSettled := by
  refine ⟨h.cache, ?_⟩
  intro b hb
  rcases List.mem_append.1 hb with hb | hb
  · exact h.past b hb
  · rw [List.mem_singleton.1 hb]
    exact ha

end Lineage

namespace Origin

variable {τ ν : Type} {ls : List (Lineage τ ν)} {f : Fresh} {o : Origin} {e : TypedEvent τ ν}

/-- A new event has a settled lineage, be it made or cloned. -/
theorem isSettled_lineage {s : Session τ ν} (hls : ∀ l ∈ ls, l.IsSettled) (hlength : s.length = ls.length)
    (h : o.event? f s = some (.ok e)) : (o.lineage ls e).IsSettled := by
  cases o with
  | clone i =>
    obtain ⟨d, hd, -⟩ := Option.map_eq_some_iff.1 h
    have hi : i < ls.length := hlength ▸ (List.getElem?_eq_some_iff.1 hd).1
    show (ls[i]?.getD _).IsSettled
    rw [List.getElem?_eq_getElem hi]
    exact hls _ (List.getElem_mem hi)
  | blank b =>
    cases h
    exact Lineage.isSettled_of_none rfl
  | deriveFrom i =>
    obtain ⟨d, -, hd⟩ := Option.map_eq_some_iff.1 h
    cases hd
    exact Lineage.isSettled_of_none rfl
  | deriveKind tag i =>
    obtain ⟨d, -, hd⟩ := Option.map_eq_some_iff.1 h
    obtain ⟨_, -, rfl⟩ := map_eq_ok_iff.1 hd
    exact Lineage.isSettled_of_none rfl
  | message | binaryMessage | document | messageOfKind =>
    obtain ⟨_, -, rfl⟩ := map_eq_ok_iff.1 (Option.some.inj h)
    exact Lineage.isSettled_of_none rfl

end Origin

namespace Session

variable {τ ν : Type} [DecidableEq τ] (forms : Forms τ ν)

/-- A step of a session keeps the lineages settled. -/
theorem isSettled_traceStep {ls : List (Lineage τ ν)} (hls : ∀ l ∈ ls, l.IsSettled) {c : Command τ ν}
    (hc : ∀ i t, c ≠ .act i (.setDataContentType t)) (f : Fresh) : ∀ l ∈ traceStep forms ls c f, l.IsSettled := by
  cases c with
  | act i a =>
    unfold traceStep
    simp only
    cases hi : ls[i]? with
    | none => exact hls
    | some l =>
      intro l' hl'
      rcases List.mem_or_eq_of_mem_set hl' with hl' | rfl
      · exact hls l' hl'
      · exact (hls l (List.mem_of_getElem? hi)).extend (fun t ht => hc i t (congrArg (Command.act i) ht)) f
  | make o =>
    unfold traceStep
    simp only
    split
    · rename_i e ho
      intro l hl
      rcases List.mem_append.1 hl with hl | hl
      · exact hls l hl
      · rw [List.mem_singleton.1 hl]
        exact Origin.isSettled_lineage hls (List.length_map _) ho
    · exact hls

/-- A whole session keeps the lineages settled. -/
theorem isSettled_trace {ls : List (Lineage τ ν)} (hls : ∀ l ∈ ls, l.IsSettled) {cs : List (Command τ ν × Fresh)}
    (hcs : ∀ c ∈ cs, ∀ i t, c.1 ≠ .act i (.setDataContentType t)) : ∀ l ∈ trace forms ls cs, l.IsSettled := by
  induction cs generalizing ls with
  | nil => exact hls
  | cons c cs ih =>
    exact ih (isSettled_traceStep forms hls (hcs c List.mem_cons_self) c.2) fun d hd =>
      hcs d (List.mem_cons_of_mem _ hd)

/-- Lineages that start with empty caches are settled at the end of every session. -/
theorem isSettled_lineages {s : Session τ ν} (hs : ∀ e ∈ s, e.cache = none) {cs : List (Command τ ν × Fresh)}
    (hcs : ∀ c ∈ cs, ∀ i t, c.1 ≠ .act i (.setDataContentType t)) : ∀ l ∈ lineages forms s cs, l.IsSettled := by
  refine isSettled_trace forms ?_ hcs
  intro l hl
  obtain ⟨e, he, rfl⟩ := List.mem_map.1 hl
  exact Lineage.isSettled_of_none (hs e he)

/-! ## What a session answers of its data -/

variable {forms}

/-- **No value that is answered is one of other data.**  However values are read and written, and whatever is done to
events but for another content type: of every event of the run, what is answered is what its data reads as, or the
value that its data was last set from; it is refused for its type only while a value of another type is remembered;
and what fails changes nothing. -/
theorem run_serves {read : τ → DataLanguage → Payload → Option ν} {write : τ → DataLanguage → ν → Option String}
    (hforms : forms = .ofPartial read write) {s : Session τ ν} (hs : ∀ e ∈ s, e.cache = none)
    {cs : List (Command τ ν × Fresh)} (hcs : ∀ c ∈ cs, ∀ i t, c.1 ≠ .act i (.setDataContentType t))
    {i : Nat} {e : TypedEvent τ ν} (he : (run forms s cs)[i]? = some e) :
    ∃ l, (lineages forms s cs)[i]? = some l ∧ l.event forms = e ∧
      (∀ t v, e.cache = some (t, v) → e.event.data ≠ none) ∧
      (∀ t v e', (Edit.dataAs forms t).run e = (.ok v, e') → ∃ p, e.event.data = some p ∧
        (read t e.event.dataLanguage p = some v ∨
          (∃ f, (.setDataAs t v, f) ∈ l.past) ∧
            ∃ text, write t e.event.dataLanguage v = some text ∧ p = .text text)) ∧
      (e.event.data = none → ∀ t, (Edit.dataAs forms t).run e = (.error .missingData, e)) ∧
      (∀ t e', (Edit.dataAs forms t).run e = (.error .otherType, e') → ∃ t' v, e.cache = some (t', v) ∧ t' ≠ t) ∧
      (∀ t err e', (Edit.dataAs forms t).run e = (.error err, e') → e' = e) ∧
      (∀ t e', (Edit.tryDataAs forms t).run e = (.ok none, e') → e' = e) ∧
      (∀ t v err e', (Edit.setDataAs forms t v).run e = (.error err, e') → err ≠ .otherType ∧ e' = e) := by
  rw [← map_event_lineages, List.getElem?_map] at he
  obtain ⟨l, hl, rfl⟩ := Option.map_eq_some_iff.1 he
  have hsettled := isSettled_lineages forms hs hcs l (List.mem_of_getElem? hl)
  -- At its beginning nothing is remembered, and from then on the invariant is carried along the lineage.
  have hstart : l.origin.IsBacked forms [] := TypedEvent.isBacked_of_none hsettled.cache
  have hbacked : (l.event forms).IsBacked forms l.past := hstart.after hsettled.past
  refine ⟨l, hl, rfl, ?_, ?_, ?_, ?_, ?_, ?_, ?_⟩
  · intro t v hcache hnone
    obtain ⟨p, hdata, -⟩ := hbacked t v hcache
    rw [hnone] at hdata
    cases hdata
  · intro t v e' h
    obtain ⟨p, hdata, hv⟩ := (hbacked.dataAs (Edit.dataAs_of_run_ok h)).1
    subst hforms
    refine ⟨p, hdata, ?_⟩
    rcases hv with hread | ⟨hgiven, text, hwrite, htext⟩
    · exact .inl (DataLanguage.orError_eq_ok_iff.1 hread)
    · exact .inr ⟨hgiven, text, DataLanguage.orError_eq_ok_iff.1 hwrite, htext⟩
  · intro hdata t
    rw [Edit.run_dataAs, hbacked.dataAs_of_none hdata t]
  · intro t e' h
    subst hforms
    exact TypedEvent.cache_of_dataAs_eq_otherType (Edit.dataAs_of_run_error h).1
  · intro t err e' h
    exact (Edit.dataAs_of_run_error h).2
  · intro t e' h
    exact Edit.eq_of_run_tryDataAs_none h
  · intro t v err e' h
    obtain ⟨herr, rfl⟩ := Edit.setDataAs_of_run_error h
    subst hforms
    refine ⟨?_, rfl⟩
    rintro rfl
    exact TypedEvent.setDataAs_ne_otherType herr

/-- An event that was given a value. -/
def paidEvent : TypedEvent DataType Json.Value where
  event := { Event.blank .http with data := some (.text "\"paid\"") }
  cache := some (.scalar .text, .text "paid")

/-- It is cloned, and then the one it is cloned from is given other data, which is read as a value of another type. -/
def paidSteps : List (Command DataType Json.Value × Fresh) :=
  [(.make (.blank .http), default), (.act 0 (.setDataAs (.scalar .text) (.text "paid")), default),
    (.make (.clone 0), default), (.act 0 (.setData (.text "7")), default),
    (.act 0 (.dataAs (.scalar .unsigned32)), default)]

theorem run_serves_paidEvent :
    (∀ c ∈ paidSteps, ∀ i t, c.1 ≠ .act i (.setDataContentType t)) ∧
      (run DataType.forms [] paidSteps)[1]? = some paidEvent ∧
      (Edit.dataAs DataType.forms (.scalar .text)).run paidEvent = (.ok (.text "paid"), paidEvent) ∧
      ∃ l, (lineages DataType.forms [] paidSteps)[1]? = some l ∧ ∃ p, paidEvent.event.data = some p ∧
        ((DataType.read (.scalar .text) paidEvent.event.dataLanguage p).toOption = some (.text "paid") ∨
          (∃ f, (.setDataAs (.scalar .text) (.text "paid"), f) ∈ l.past) ∧
            ∃ text, (DataType.write (.scalar .text) paidEvent.event.dataLanguage (.text "paid")).toOption = some text ∧
              p = .text text) := by
  have hsteps : ∀ c ∈ paidSteps, ∀ i t, c.1 ≠ .act i (.setDataContentType t) := by
    intro c hc i t
    simp only [paidSteps, List.mem_cons, List.not_mem_nil, or_false] at hc
    rcases hc with rfl | rfl | rfl | rfl | rfl <;> simp
  have hrun : (run DataType.forms [] paidSteps)[1]? = some paidEvent := rfl
  have hread : (Edit.dataAs DataType.forms (.scalar .text)).run paidEvent = (.ok (.text "paid"), paidEvent) := rfl
  obtain ⟨l, hl, -, -, hserves, -⟩ := run_serves DataType.forms_eq_ofPartial (by simp) hsteps hrun
  exact ⟨hsteps, hrun, hread, l, hl, hserves _ _ _ hread⟩

end Session
end CloudEvents
