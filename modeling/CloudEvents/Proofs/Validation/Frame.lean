/-
  What validation touches.

  Validation works on headers of any sort, with values of any type under any name, and it may stop at each of its
  rules.  Wherever it stops, it has written no other headers than these: an id if there was none, a time if there
  was none that can be read, and for a correlated envelope a correlation id if there was none or an empty one
  (`IsWritable`).  Every other header is as it came, whatever the verdict is, and none goes away.

  Each step either leaves the headers alone or writes one of them, so what a step changes is said once for each
  (`ChangesOnly`), and what they change one after the other follows.  The conditions on what may be written are
  about the headers as they came: id, time and correlation id have three names under every binding, so no step
  writes what a later one looks at.

  Main statement: `validateAll_frame`.
-/
import CloudEvents.Proofs.Validation.Repetition

namespace CloudEvents

/-! ## Headers that are written -/

/-- Headers after some of them were written: only those with names of a sort have changed, and none has gone away. -/
structure Headers.ChangesOnly (p : String → Prop) (h h' : Headers) : Prop where
  kept : ∀ n, ¬p n → h'.get? n = h.get? n
  present : ∀ n v, h.get? n = some v → ∃ v', h'.get? n = some v'

namespace Headers.ChangesOnly

variable {p q : String → Prop} {h h' h'' : Headers}

theorem refl (p : String → Prop) (h : Headers) : h.ChangesOnly p h := ⟨fun _ _ => rfl, fun _ v hv => ⟨v, hv⟩⟩

theorem mono (hc : h.ChangesOnly p h') (hpq : ∀ n, p n → q n) : h.ChangesOnly q h' :=
  ⟨fun n hn => hc.kept n fun hp => hn (hpq n hp), hc.present⟩

theorem trans (hc : h.ChangesOnly p h') (hc' : h'.ChangesOnly q h'') : h.ChangesOnly (fun n => p n ∨ q n) h'' where
  kept n hn := by
    rw [not_or] at hn
    rw [hc'.kept n hn.2, hc.kept n hn.1]
  present n v hv := by
    obtain ⟨v', hv'⟩ := hc.present n v hv
    exact hc'.present n v' hv'

theorem insert {n : String} (hn : p n) (v : HeaderValue) : h.ChangesOnly p (h.insert n v) where
  kept m hm := h.get?_insert_of_ne v fun heq => hm (heq ▸ hn)
  present m w hw := by
    rw [NameMap.get?_insert]
    split
    · exact ⟨v, rfl⟩
    · exact ⟨w, hw⟩

/-- A header that is there has changed only if its name is of the sort. -/
theorem eq_or (hc : h.ChangesOnly p h') {n : String} {v : HeaderValue} (hv : h.get? n = some v) :
    ∃ v', h'.get? n = some v' ∧ (v' = v ∨ p n) := by
  obtain ⟨v', hv'⟩ := hc.present n v hv
  refine ⟨v', hv', ?_⟩
  by_cases hp : p n
  · exact .inr hp
  · rw [hc.kept n hp, hv] at hv'
    exact .inl (Option.some.inj hv').symm

/-- A header that is new has a name of the sort. -/
theorem of_new (hc : h.ChangesOnly p h') {n : String} (hnone : h.get? n = none) (hnew : h'.get? n ≠ none) : p n := by
  by_contra hp
  rw [hc.kept n hp] at hnew
  exact hnew hnone

end Headers.ChangesOnly

variable {b : Binding} {f : Fresh} {h : Headers} {n : String}

/-! ## The base rules -/

namespace Validation

open Wire.Binary (slotHeader?)

/-- An id that is missing. -/
def LacksId (b : Binding) (h : Headers) (n : String) : Prop := n = b.headerName WellKnown.id.name ∧ h.get? n = none

/-- A time that is missing or cannot be read. -/
def LacksTime (b : Binding) (h : Headers) (n : String) : Prop :=
  n = b.headerName WellKnown.time.name ∧ h.read? Instant n = none

/-- Filling in the id touches that header alone, and only where it is missing. -/
theorem changesOnly_fillId (b : Binding) (f : Fresh) (h : Headers) : h.ChangesOnly (LacksId b h) (fillId b f h) := by
  simp only [fillId]
  split
  · exact .refl _ h
  · rename_i hc
    exact .insert ⟨rfl, Option.not_isSome_iff_eq_none.1 hc⟩ _

/-- Filling in the time touches that header alone, and only where no time can be read from it. -/
theorem changesOnly_fillTime (b : Binding) (f : Fresh) (h : Headers) :
    h.ChangesOnly (LacksTime b h) (fillTime b f h) := by
  simp only [fillTime]
  split
  · exact .refl _ h
  · rename_i hread
    exact .insert ⟨rfl, Option.not_isSome_iff_eq_none.1 hread⟩ _

/-- An id that is filled in is nothing to the time. -/
theorem lacksTime_fillId (ht : LacksTime b (fillId b f h) n) : LacksTime b h n := by
  obtain ⟨rfl, hread⟩ := ht
  refine ⟨rfl, ?_⟩
  rwa [Headers.read?, get?_fillId, if_neg (idHeader_ne_timeHeader b).symm] at hread

theorem changesOnly_filled (b : Binding) (f : Fresh) (h : Headers) :
    h.ChangesOnly (fun n => LacksId b h n ∨ LacksTime b h n) (filled b f h) :=
  ((changesOnly_fillId b f h).trans (changesOnly_fillTime b f (fillId b f h))).mono
    fun _ => Or.imp_right lacksTime_fillId

/-- **Where the base rules are broken**, an id may have been filled in, but not if it is the version that is
wrong. -/
theorem validateHeaders_of_not_isComplete (f : Fresh) (hc : ¬IsComplete b h) :
    ∃ err, (validateHeaders b f h).2 = .error err ∧ h.ChangesOnly (LacksId b h) (validateHeaders b f h).1 ∧
      ((∃ v, slotHeader? b h .specversion = some v ∧ v ≠ .text specVersion) → (validateHeaders b f h).1 = h) := by
  rw [validateHeaders_eq]
  cases hv : checkVersion b h with
  | error err => exact ⟨err, rfl, .refl _ h, fun _ => rfl⟩
  | ok _ =>
    cases hr : checkRequired b h with
    | error err =>
      refine ⟨err, rfl, changesOnly_fillId b f h, ?_⟩
      rintro ⟨v, hv', hne⟩
      exact absurd (checkVersion_eq_ok_iff.1 hv v hv') hne
    | ok _ => exact absurd (isComplete_iff_checks.2 ⟨hv, hr⟩) hc

end Validation

/-! ## The rules of kinds -/

namespace Extension

open Validation (IsComplete LacksId LacksTime validateHeaders filled)
open Wire.Binary (slotHeader?)

/-- For a correlated envelope, a correlation id that is missing or empty. -/
def LacksCorrelation (k : Extension) (h : Headers) (n : String) : Prop :=
  k = .correlated ∧ n = correlationIdName ∧ ∀ v, h.get? n = some v → v.display = ""

/-- A header that validation as a kind may write. -/
def IsWritable (k : Extension) (b : Binding) (h : Headers) (n : String) : Prop :=
  (LacksId b h n ∨ LacksTime b h n) ∨ k.LacksCorrelation h n

theorem isCorrelated_eq_false_iff :
    isCorrelated b h = false ↔ ∀ v, h.get? correlationIdName = some v → v.display = "" := by
  have halias : b.headerAlias? correlationIdName = none := if_neg fun hand => absurd hand.2 (by decide)
  rw [isCorrelated, headerText?_eq, halias, Option.bind_none, Option.or_none]
  cases h.get? correlationIdName with
  | none => simp
  | some v => simp

/-- A kind's own check touches the correlation id alone, and only where the correlation kind misses it. -/
theorem changesOnly_validate (k : Extension) (b : Binding) (f : Fresh) (h : Headers) :
    h.ChangesOnly (k.LacksCorrelation h) (k.validate b f h).1 := by
  cases k with
  | plain => exact .refl _ h
  | partitioned => exact .refl _ h
  | sequenced => exact .refl _ h
  | correlated =>
    simp only [validate]
    split
    · exact .refl _ h
    · rename_i hc
      exact .insert ⟨rfl, rfl, isCorrelated_eq_false_iff.1 (Bool.eq_false_iff.2 hc)⟩ _

/-- Id and time are nothing to the correlation id. -/
theorem lacksCorrelation_filled {k : Extension} (hk : k.LacksCorrelation (filled b f h) n) :
    k.LacksCorrelation h n := by
  obtain ⟨hcorrelated, rfl, hv⟩ := hk
  have hne := (Wire.Binary.isExtension_iff.1 (isFreeName_correlationIdName.isExtension b)).1
  rw [Validation.get?_filled_of_ne (hne .id) (hne .time)] at hv
  exact ⟨hcorrelated, rfl, hv⟩

/-- Where the general check fails, the kind's own check is not made. -/
theorem validateAll_of_error {k : Extension} {err : Error} (hv : (validateHeaders b f h).2 = .error err) :
    k.validateAll b f h = ((validateHeaders b f h).1, .error err) := by
  have hpair : validateHeaders b f h = ((validateHeaders b f h).1, .error err) := Prod.ext rfl hv
  rw [validateAll, hpair]

/-- Where the envelope is complete, the kind's own check decides on the filled headers. -/
theorem validateAll_of_isComplete (k : Extension) (f : Fresh) (hc : IsComplete b h) :
    k.validateAll b f h = k.validate b f (filled b f h) := by
  rw [validateAll, Validation.validateHeaders_of_isComplete hc]

/-- **What validation as a kind changes**, whatever the verdict. -/
theorem changesOnly_validateAll (k : Extension) (b : Binding) (f : Fresh) (h : Headers) :
    h.ChangesOnly (k.IsWritable b h) (k.validateAll b f h).1 := by
  by_cases hc : IsComplete b h
  · rw [validateAll_of_isComplete k f hc]
    exact ((Validation.changesOnly_filled b f h).trans (k.changesOnly_validate b f _)).mono
      fun _ => Or.imp_right lacksCorrelation_filled
  · obtain ⟨err, herr, hchanges, -⟩ := Validation.validateHeaders_of_not_isComplete f hc
    rw [validateAll_of_error herr]
    exact hchanges.mono fun _ hid => .inl (.inl hid)

/-- **The verdict of validation, and what it leaves of the headers.**  The base rules ask for three headers, as
they came.  Whatever the verdict is, no header goes away, and one that is there keeps its value unless it is a time
that cannot be read or the empty correlation id of a correlated envelope; new are at most an id, a time and a
correlation id.  Where the base rules are broken, at most an id is new, and nothing if the version is what is
wrong.  Where they are kept, there is an id afterwards, and a time that can be read, as long as the text form of
the current time can be read or is not needed. -/
theorem validateAll_frame (k : Extension) (b : Binding) (f : Fresh) (h : Headers) :
    ((validateHeaders b f h).2 = .ok () ↔ IsComplete b h) ∧
    (∀ n v, h.get? n = some v → ∃ v', (k.validateAll b f h).1.get? n = some v' ∧
      (v' = v ∨ n = b.headerName WellKnown.time.name ∧ v.read? Instant = none ∨
        k = .correlated ∧ n = correlationIdName ∧ v.display = "")) ∧
    (∀ n, h.get? n = none → (k.validateAll b f h).1.get? n ≠ none →
      n = b.headerName WellKnown.id.name ∨ n = b.headerName WellKnown.time.name ∨
        k = .correlated ∧ n = correlationIdName) ∧
    (¬IsComplete b h → (∃ err, (k.validateAll b f h).2 = .error err) ∧
      (∀ n, n ≠ b.headerName WellKnown.id.name → (k.validateAll b f h).1.get? n = h.get? n) ∧
      ((∃ v, slotHeader? b h .specversion = some v ∧ v ≠ .text specVersion) → (k.validateAll b f h).1 = h)) ∧
    (IsComplete b h → (∃ v, (k.validateAll b f h).1.get? (b.headerName WellKnown.id.name) = some v) ∧
      ((b ≠ .amqp → f.now.InFourDigitYear) →
        ∃ t, (k.validateAll b f h).1.read? Instant (b.headerName WellKnown.time.name) = some t)) := by
  have hchanges := k.changesOnly_validateAll b f h
  refine ⟨Validation.validateHeaders_verdict_iff, ?_, ?_, ?_, ?_⟩
  · intro n v hv
    obtain ⟨v', hv', hsame | (⟨-, hnone⟩ | ⟨rfl, hread⟩) | ⟨hk, rfl, hempty⟩⟩ := hchanges.eq_or hv
    · exact ⟨v', hv', .inl hsame⟩
    · rw [hv] at hnone
      exact absurd hnone (by simp)
    · rw [Headers.read?, hv] at hread
      exact ⟨v', hv', .inr (.inl ⟨rfl, hread⟩)⟩
    · exact ⟨v', hv', .inr (.inr ⟨hk, rfl, hempty v hv⟩)⟩
  · intro n hnone hnew
    obtain (⟨rfl, -⟩ | ⟨rfl, -⟩) | ⟨hk, rfl, -⟩ := hchanges.of_new hnone hnew
    · exact .inl rfl
    · exact .inr (.inl rfl)
    · exact .inr (.inr ⟨hk, rfl⟩)
  · intro hc
    obtain ⟨err, herr, hid, hversion⟩ := Validation.validateHeaders_of_not_isComplete f hc
    rw [validateAll_of_error herr]
    exact ⟨⟨err, rfl⟩, fun n hn => hid.kept n fun hlacks => hn hlacks.1, hversion⟩
  · intro hc
    rw [validateAll_of_isComplete k f hc]
    have hkind := k.changesOnly_validate b f (filled b f h)
    have hne := (Wire.Binary.isExtension_iff.1 (isFreeName_correlationIdName.isExtension b)).1
    refine ⟨hkind.present _ _ (Validation.slotHeader?_filled_id b f h), fun hnow => ?_⟩
    rw [Headers.read?, hkind.kept _ fun hlacks => hne .time hlacks.2.1.symm]
    exact Option.isSome_iff_exists.1 (Validation.isFilled_filled hnow h).time

end Extension

end CloudEvents
