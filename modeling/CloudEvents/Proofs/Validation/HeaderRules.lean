/-
  The rules for headers, name by name.

  Validation goes through its rules in an order, fills in an id on the way and a time at the end, and stops
  where a rule is broken.  No rule looks at what was filled in before it, so there are three cases, told apart by
  the headers as they came (`validateHeaders_eq`).  The verdict hangs on three of these (`IsComplete`), and where it
  is favourable the headers are as they came but for those of id and time (`get?_filled`).

  Who wants to know what validation does to some headers looks at these statements, and not at the steps.
-/
import CloudEvents.Proofs.Wire.Headers
import CloudEvents.Validation

namespace CloudEvents

theorem HeaderValue.text?_eq_some_iff {v : HeaderValue} {s : String} : v.text? = some s ↔ v = .text s := by
  cases v <;> simp [HeaderValue.text?]

namespace Validation

open Wire.Binary (slotHeader? timeValue)

variable {b : Binding} {f : Fresh} {h h' : Headers}

/-! ## The verdict -/

/-- What the headers of an envelope have to hold as they come: no version but the one there is, a source that
is a text, and a type that is not empty. -/
structure IsComplete (b : Binding) (h : Headers) : Prop where
  version : ∀ v, slotHeader? b h .specversion = some v → v = .text specVersion
  source : ∃ s, slotHeader? b h .source = some (.text s)
  type : ∃ v, slotHeader? b h .type = some v ∧ v.display ≠ ""

/-- The version passes if it is missing or the text of this version. -/
theorem checkVersion_eq_ok_iff :
    checkVersion b h = .ok () ↔ ∀ v, slotHeader? b h .specversion = some v → v = .text specVersion := by
  simp only [checkVersion, slotHeader?]
  cases h.get? (b.headerName WellKnown.specversion.name) with
  | none => simp
  | some v =>
    simp only [HeaderValue.text?_eq_some_iff, Option.some.injEq, forall_eq']
    split
    · rename_i hv
      exact iff_of_true rfl hv
    · rename_i hv
      exact iff_of_false (by simp) hv

/-- The source passes if it is a text. -/
theorem checkSource_eq_ok_iff :
    checkSource b h = .ok () ↔ ∃ s, slotHeader? b h .source = some (.text s) := by
  have hread : (h.read? String (b.headerName WellKnown.source.name)).isSome = true ↔
      ∃ s, slotHeader? b h .source = some (.text s) := by
    simp only [Headers.read?, slotHeader?, HeaderValue.read?_string, Option.isSome_iff_exists,
      Option.bind_eq_some_iff, HeaderValue.text?_eq_some_iff, exists_eq_right]
  rw [← hread]
  simp only [checkSource]
  split
  · rename_i hs
    exact iff_of_true rfl hs
  · rename_i hs
    exact iff_of_false (by simp) hs

/-- The type passes if it stands there and is not empty. -/
theorem checkType_eq_ok_iff :
    checkType b h = .ok () ↔ ∃ v, slotHeader? b h .type = some v ∧ v.display ≠ "" := by
  simp only [checkType, slotHeader?]
  cases h.get? (b.headerName WellKnown.type.name) with
  | none => simp
  | some v =>
    simp only [Option.map_some, Option.some.injEq, exists_eq_left']
    split
    · rename_i hv
      exact absurd hv (by simp)
    · -- The header is there and empty.
      rename_i hv
      exact iff_of_false (by simp) fun hne => hne (Option.some.inj hv)
    · rename_i s hne heq
      exact iff_of_true rfl fun hempty => hne ((Option.some.inj heq).symm.trans hempty)

/-! ## What is filled in -/

/-- An id that is there stays, whatever it is. -/
theorem get?_fillId (n : String) :
    (fillId b f h).get? n =
      if n = b.headerName WellKnown.id.name then some ((h.get? n).getD (.text f.eventId.toText))
      else h.get? n := by
  simp only [fillId]
  split
  · -- The id is there: nothing is filled in, and what is there is not the default.
    rename_i hc
    obtain ⟨v, hv⟩ := NameMap.contains_iff.1 hc
    split
    · rename_i hn
      rw [hn, hv, Option.getD_some]
    · rfl
  · rename_i hc
    rw [NameMap.get?_insert]
    by_cases hn : n = b.headerName WellKnown.id.name
    · have hnone : h.get? n = none := by
        rw [hn]
        exact Option.not_isSome_iff_eq_none.1 hc
      rw [if_pos hn.symm, if_pos hn, hnone, Option.getD_none]
    · rw [if_neg (Ne.symm hn), if_neg hn]

/-- A time that is there stays if it can be read. -/
theorem get?_fillTime (n : String) :
    (fillTime b f h).get? n =
      if n = b.headerName WellKnown.time.name ∧ h.read? Instant n = none then some (timeValue b f.now)
      else h.get? n := by
  simp only [fillTime]
  split
  · rename_i hread
    -- A time that can be read is not replaced.
    rw [if_neg]
    rintro ⟨rfl, hnone⟩
    rw [hnone] at hread
    exact absurd hread (by simp)
  · rename_i hread
    rw [NameMap.get?_insert]
    by_cases hn : n = b.headerName WellKnown.time.name
    · rw [if_pos hn.symm, if_pos ⟨hn, by rw [hn]; exact Option.not_isSome_iff_eq_none.1 hread⟩]
    · rw [if_neg (Ne.symm hn), if_neg fun hand => hn hand.1]

/-- The headers with id and time filled in. -/
def filled (b : Binding) (f : Fresh) (h : Headers) : Headers := fillTime b f (fillId b f h)

theorem idHeader_ne_timeHeader (b : Binding) :
    b.headerName WellKnown.id.name ≠ b.headerName WellKnown.time.name :=
  fun heq => absurd (Binding.headerName_name_inj.1 heq) (by decide)

/-- **What is filled in**: an id where there was none, and a time where there was none that can be read. -/
theorem get?_filled (n : String) :
    (filled b f h).get? n =
      if n = b.headerName WellKnown.id.name then some ((h.get? n).getD (.text f.eventId.toText))
      else if n = b.headerName WellKnown.time.name ∧ h.read? Instant n = none then some (timeValue b f.now)
      else h.get? n := by
  -- The id is filled in first, under another name than the time, so the time is read as it came.
  have hne := idHeader_ne_timeHeader b
  unfold filled
  rw [get?_fillTime, Headers.read?, get?_fillId]
  by_cases hid : n = b.headerName WellKnown.id.name
  · rw [if_neg fun hand => hne (hid.symm.trans hand.1), if_pos hid, if_pos hid]
  · simp only [if_neg hid]
    rfl

/-- Filling touches no headers but those of id and time. -/
theorem get?_filled_of_ne {n : String} (hid : n ≠ b.headerName WellKnown.id.name)
    (htime : n ≠ b.headerName WellKnown.time.name) : (filled b f h).get? n = h.get? n := by
  rw [get?_filled, if_neg hid, if_neg fun hand => htime hand.1]

/-- Filling in the id touches no other slot. -/
theorem slotHeader?_fillId {w : WellKnown} (hw : w ≠ .id) :
    slotHeader? b (fillId b f h) w = slotHeader? b h w := by
  unfold slotHeader?
  rw [get?_fillId, if_neg fun heq => hw (Binding.headerName_name_inj.1 heq)]

/-- Filling touches no slots but id and time. -/
theorem slotHeader?_filled {w : WellKnown} (hid : w ≠ .id) (htime : w ≠ .time) :
    slotHeader? b (filled b f h) w = slotHeader? b h w :=
  get?_filled_of_ne (fun heq => hid (Binding.headerName_name_inj.1 heq))
    fun heq => htime (Binding.headerName_name_inj.1 heq)

/-! ## Validation as a whole -/

theorem checkVersion_congr (hv : slotHeader? b h' .specversion = slotHeader? b h .specversion) :
    checkVersion b h' = checkVersion b h := by
  have hv : h'.get? (b.headerName WellKnown.specversion.name) = h.get? (b.headerName WellKnown.specversion.name) := hv
  simp only [checkVersion, hv]

theorem checkSource_congr (hs : slotHeader? b h' .source = slotHeader? b h .source) :
    checkSource b h' = checkSource b h := by
  have hs : h'.get? (b.headerName WellKnown.source.name) = h.get? (b.headerName WellKnown.source.name) := hs
  have hread : h'.read? String (b.headerName WellKnown.source.name) =
      h.read? String (b.headerName WellKnown.source.name) := by
    rw [Headers.read?, Headers.read?, hs]
  rw [checkSource, checkSource, hread]

theorem checkType_congr (ht : slotHeader? b h' .type = slotHeader? b h .type) : checkType b h' = checkType b h := by
  have ht : h'.get? (b.headerName WellKnown.type.name) = h.get? (b.headerName WellKnown.type.name) := ht
  rw [checkType, checkType, ht]

/-- The rules behind the one for the version. -/
def checkRequired (b : Binding) (h : Headers) : Except Error Unit := do
  checkSource b h
  checkType b h

theorem checkRequired_fillId (b : Binding) (f : Fresh) (h : Headers) :
    checkRequired b (fillId b f h) = checkRequired b h := by
  rw [checkRequired, checkRequired, checkSource_congr (slotHeader?_fillId (by decide)),
    checkType_congr (slotHeader?_fillId (by decide))]

/-- **Validation in three cases**, told apart by the headers as they came: nothing is filled in, or the id alone,
or id and time. -/
theorem validateHeaders_eq (b : Binding) (f : Fresh) (h : Headers) :
    validateHeaders b f h =
      match checkVersion b h, checkRequired b h with
      | .error err, _ => (h, .error err)
      | .ok (), .error err => (fillId b f h, .error err)
      | .ok (), .ok () => (filled b f h, .ok ()) := by
  -- Source and type are looked at when the id is there already, which is nothing to them.
  rw [← checkRequired_fillId b f h]
  simp only [validateHeaders, checkRequired, filled]
  cases checkVersion b h with
  | error err => rfl
  | ok _ =>
    cases checkSource b (fillId b f h) with
    | error err => rfl
    | ok _ => cases checkType b (fillId b f h) <;> rfl

/-- **An envelope is complete if both checks pass.** -/
theorem isComplete_iff_checks : IsComplete b h ↔ checkVersion b h = .ok () ∧ checkRequired b h = .ok () := by
  constructor
  · rintro ⟨hv, hs, ht⟩
    exact ⟨checkVersion_eq_ok_iff.2 hv,
      bind_eq_ok_iff.2 ⟨(), checkSource_eq_ok_iff.2 hs, checkType_eq_ok_iff.2 ht⟩⟩
  · rintro ⟨hv, hr⟩
    obtain ⟨⟨⟩, hs, ht⟩ := bind_eq_ok_iff.1 hr
    exact ⟨checkVersion_eq_ok_iff.1 hv, checkSource_eq_ok_iff.1 hs, checkType_eq_ok_iff.1 ht⟩

/-- **Where the verdict is favourable**, id and time are filled in and no more. -/
theorem validateHeaders_of_isComplete (hc : IsComplete b h) : validateHeaders b f h = (filled b f h, .ok ()) := by
  obtain ⟨hversion, hrequired⟩ := isComplete_iff_checks.1 hc
  rw [validateHeaders_eq, hversion, hrequired]

/-- **The verdict hangs on the headers as they came.** -/
theorem validateHeaders_verdict_iff : (validateHeaders b f h).2 = .ok () ↔ IsComplete b h := by
  rw [validateHeaders_eq, isComplete_iff_checks]
  cases checkVersion b h with
  | error err => simp
  | ok _ => cases checkRequired b h <;> simp

/-- A complete envelope stays complete when id and time are filled in. -/
theorem IsComplete.filled (hc : IsComplete b h) : IsComplete b (Validation.filled b f h) where
  version := by
    rw [slotHeader?_filled (by decide) (by decide)]
    exact hc.version
  source := by
    rw [slotHeader?_filled (by decide) (by decide)]
    exact hc.source
  type := by
    rw [slotHeader?_filled (by decide) (by decide)]
    exact hc.type

end Validation

end CloudEvents
