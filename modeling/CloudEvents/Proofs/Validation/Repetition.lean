/-
  Validating once more.

  Validation changes headers on its way and may stop half-way: it may leave an id behind and no time, or have
  filled in both when the rule of a kind is broken.  Yet whatever it leaves behind it would leave as it is.  The
  rules that can be broken look at headers that are never filled in, so they say the same again
  (`validateHeaders_eq`); an id that was filled in is there; a time that was filled in can be read; and a
  correlation id that was filled in is not empty and is no slot's header, so the base rules do not see it.

  Main statement: `validateAll_validateAll`.
-/
import CloudEvents.Proofs.Validation.Kinds

namespace CloudEvents

namespace Validation

variable {b : Binding} {f g : Fresh} {h : Headers}

/-! ## What is filled in stays -/

/-- An id that stands there is not filled in again. -/
theorem fillId_of_contains (hid : h.contains (b.headerName WellKnown.id.name) = true) : fillId b f h = h := by
  simp only [fillId, hid, if_true]

theorem contains_fillId (b : Binding) (f : Fresh) (h : Headers) :
    (fillId b f h).contains (b.headerName WellKnown.id.name) = true :=
  NameMap.contains_iff.2 ⟨_, by rw [get?_fillId, if_pos rfl]⟩

/-- Headers in which id and time are there as validation wants them. -/
structure IsFilled (b : Binding) (h : Headers) : Prop where
  id : h.contains (b.headerName WellKnown.id.name) = true
  time : (h.read? Instant (b.headerName WellKnown.time.name)).isSome = true

/-- **Headers that have id and time stay as they are.** -/
theorem filled_of_isFilled (hf : IsFilled b h) : filled b f h = h := by
  rw [filled, fillId_of_contains hf.id]
  simp only [fillTime, hf.time, if_true]

/-- **What validation fills in is what it looks for**: the time that it writes can be read. -/
theorem isFilled_filled (hnow : b ≠ .amqp → f.now.InFourDigitYear) (h : Headers) : IsFilled b (filled b f h) where
  id := NameMap.contains_iff.2 ⟨_, by rw [get?_filled, if_pos rfl]⟩
  time := by
    have htime : (filled b f h).get? (b.headerName WellKnown.time.name) = _ := slotHeader?_filled_time b f h
    rw [Headers.read?, htime]
    split
    · rw [Option.bind_some, Wire.Binary.read?_timeValue hnow]
      rfl
    · rename_i hread
      exact Option.isSome_iff_ne_none.2 hread

/-- Headers that keep to the base rules and in which there is nothing to fill in are left as they are. -/
theorem validateHeaders_of_isFilled (hc : IsComplete b h) (hf : IsFilled b h) (g : Fresh) :
    validateHeaders b g h = (h, .ok ()) := by
  rw [validateHeaders_of_isComplete hc, filled_of_isFilled hf]

/-- **The base rules, once more.** -/
theorem validateHeaders_validateHeaders (hnow : b ≠ .amqp → f.now.InFourDigitYear) (g : Fresh) (h : Headers) :
    validateHeaders b g (validateHeaders b f h).1 = validateHeaders b f h := by
  rw [validateHeaders_eq b f h]
  cases hv : checkVersion b h with
  | error err =>
    show validateHeaders b g h = _
    rw [validateHeaders_eq, hv]
  | ok _ =>
    cases hr : checkRequired b h with
    | error err =>
      show validateHeaders b g (fillId b f h) = (fillId b f h, .error err)
      have hversion : checkVersion b (fillId b f h) = .ok () :=
        (checkVersion_congr (slotHeader?_fillId (by decide))).trans hv
      have hrequired : checkRequired b (fillId b f h) = .error err := (checkRequired_fillId b f h).trans hr
      rw [validateHeaders_eq, hversion, hrequired, fillId_of_contains (contains_fillId b f h)]
    | ok _ =>
      show validateHeaders b g (filled b f h) = (filled b f h, .ok ())
      have hc : IsComplete b h := isComplete_iff_checks.2 ⟨hv, hr⟩
      exact validateHeaders_of_isFilled hc.filled (isFilled_filled hnow h) g

/-! ## A header beside those of the slots -/

/-- An envelope stays complete when a header of another name is added. -/
theorem IsComplete.insert (hc : IsComplete b h) {n : String} (hn : ∀ w : WellKnown, n ≠ b.headerName w.name)
    (v : HeaderValue) : IsComplete b (h.insert n v) := by
  have hsame := Wire.Binary.slotHeader?_insert hn h v
  obtain ⟨hversion, hsource, htype⟩ := hc
  exact ⟨by rwa [hsame], by rwa [hsame], by rwa [hsame]⟩

theorem IsFilled.insert (hf : IsFilled b h) {n : String} (hn : ∀ w : WellKnown, n ≠ b.headerName w.name)
    (v : HeaderValue) : IsFilled b (h.insert n v) where
  id := by
    rw [NameMap.contains, NameMap.get?_insert_of_ne _ _ (hn .id)]
    exact hf.id
  time := by
    rw [Headers.read?, NameMap.get?_insert_of_ne _ _ (hn .time)]
    exact hf.time

end Validation

namespace Extension

open Validation (IsComplete IsFilled)

variable {b : Binding} {f g : Fresh} {h : Headers}

/-! ## The rules of kinds -/

theorem isFreeName_correlationIdName : Wire.IsFreeName correlationIdName := by decide

/-- A correlation id that was filled in is found. -/
theorem isCorrelated_insert (b : Binding) (f : Fresh) (h : Headers) :
    isCorrelated b (h.insert correlationIdName (.text f.correlationId.toText)) = true := by
  rw [isCorrelated, headerText?_eq, NameMap.get?_insert_self]
  exact decide_eq_true f.correlationId.toText_ne_empty

/-- **The rule of a kind, once more.** -/
theorem validate_validate (k : Extension) (b : Binding) (f g : Fresh) (h : Headers) :
    k.validate b g (k.validate b f h).1 = k.validate b f h := by
  cases k with
  | plain => rfl
  | partitioned => rfl
  | sequenced => rfl
  | correlated =>
    cases hc : isCorrelated b h with
    | true => simp only [validate, hc, if_true]
    | false => simp only [validate, hc, isCorrelated_insert, if_true, Bool.false_eq_true, if_false]

/-- What a kind fills in is nothing to the base rules. -/
theorem validateHeaders_validate (k : Extension) (hc : IsComplete b h) (hf : IsFilled b h) (f g : Fresh) :
    Validation.validateHeaders b g (k.validate b f h).1 = ((k.validate b f h).1, .ok ()) := by
  have hkeep := Validation.validateHeaders_of_isFilled hc hf g
  cases k with
  | plain => exact hkeep
  | partitioned => exact hkeep
  | sequenced => exact hkeep
  | correlated =>
    have hn := (Wire.Binary.isExtension_iff.1 (isFreeName_correlationIdName.isExtension b)).1
    simp only [validate]
    split
    · exact hkeep
    · exact Validation.validateHeaders_of_isFilled (hc.insert hn _) (hf.insert hn _) g

/-- **Validation is idempotent**, in what it says and in what it does. -/
theorem validateAll_validateAll (k : Extension) (b : Binding) (f g : Fresh) (h : Headers)
    (hnow : b ≠ .amqp → f.now.InFourDigitYear) :
    k.validateAll b g (k.validateAll b f h).1 = k.validateAll b f h := by
  have hagain := Validation.validateHeaders_validateHeaders hnow g h
  cases hv : Validation.validateHeaders b f h with
  | mk h' verdict =>
    rw [hv] at hagain
    cases verdict with
    | error err =>
      -- The general rules fail again, and the kind's own are never reached.
      have hfirst : k.validateAll b f h = (h', .error err) := by rw [validateAll, hv]
      rw [hfirst, validateAll, hagain]
    | ok _ =>
      -- Neither what was filled in nor what the kind adds is a reason to fill in or to fail.
      have hfirst : k.validateAll b f h = k.validate b f h' := by rw [validateAll, hv]
      have hc : IsComplete b h := Validation.validateHeaders_verdict_iff.1 (congrArg Prod.snd hv)
      obtain rfl : Validation.filled b f h = h' := by
        rw [Validation.validateHeaders_of_isComplete hc] at hv
        exact congrArg Prod.fst hv
      rw [hfirst, validateAll, validateHeaders_validate k hc.filled (Validation.isFilled_filled hnow h) f g]
      exact validate_validate k b f g _

/-- Headers with a source only: an id is filled in, then validation stops. -/
def untypedHeaders : Headers := .ofList [("ce_source", .text "/meters")]

/-- They are left with the id of the first run, which the second one, supplied with another, does not touch. -/
theorem validateAll_untypedHeaders :
    correlated.validateAll .kafka default untypedHeaders =
        (untypedHeaders.insert "ce_id" (.text (⟨0⟩ : Uuid).toText), .error (.invalid (.missingHeader "ce_type"))) ∧
      correlated.validateAll .kafka ⟨⟨1⟩, ⟨1⟩, .epoch⟩
          (untypedHeaders.insert "ce_id" (.text (⟨0⟩ : Uuid).toText)) =
        (untypedHeaders.insert "ce_id" (.text (⟨0⟩ : Uuid).toText), .error (.invalid (.missingHeader "ce_type"))) := by
  have hfirst : correlated.validateAll .kafka default untypedHeaders =
      (untypedHeaders.insert "ce_id" (.text (⟨0⟩ : Uuid).toText), .error (.invalid (.missingHeader "ce_type"))) :=
    rfl
  have hagain := validateAll_validateAll correlated .kafka default ⟨⟨1⟩, ⟨1⟩, .epoch⟩ untypedHeaders
    fun _ => by decide +kernel
  rw [hfirst] at hagain
  exact ⟨hfirst, hagain⟩

end Extension

end CloudEvents
