/-
  The headers of an event, name by name.

  An event's headers come about in two steps, slots first and extension attributes behind them, and an
  extension attribute only gets a header whose name is still free.  `get?_headers` says it in one line:
  under any name stands the slot's value, or else the extension attribute of that name.

  A header is read back as an extension attribute if it is no slot's header and its name is not reserved
  (`isExtension_iff`).  For names of small letters and digits the two sides never meet
  (`IsPlainName.ne_headerName`), whatever the binding puts in front of the names of slots.
-/
import CloudEvents.Proofs.Event.Slots
import CloudEvents.Proofs.Event.WellFormed
import CloudEvents.Wire.Binary

namespace CloudEvents

/-! ## Plain names -/

/-- A name of small letters and digits. -/
def IsPlainName (n : String) : Prop := ∀ c ∈ n.toList, c.isLower = true ∨ c.isDigit = true

instance (n : String) : Decidable (IsPlainName n) :=
  List.decidableBAll (fun c : Char => c.isLower = true ∨ c.isDigit = true) n.toList

/-- An event whose extension attributes have plain names. -/
def Event.HasPlainNames (e : Event) : Prop := ∀ n v, e.attribute? n = some v → IsPlainName n

instance (e : Event) : Decidable e.HasPlainNames :=
  decidable_of_iff (∀ x ∈ e.attributes.entries, IsPlainName x.1)
    (Event.forall_attribute?_iff (p := fun n _ => IsPlainName n)).symm

/-- Under a binding that puts something in front of names, no plain name is a header of a slot. -/
theorem IsPlainName.ne_append {n : String} (h : IsPlainName n) {lead m : String}
    (hl : ∃ c ∈ lead.toList, ¬(c.isLower = true ∨ c.isDigit = true)) : n ≠ lead ++ m := by
  rintro rfl
  obtain ⟨c, hc, hn⟩ := hl
  refine hn (h c ?_)
  rw [String.toList_append]
  exact List.mem_append_left _ hc

namespace Binding

/-- What a binding puts in front of names is not plain. -/
theorem exists_not_plain {b : Binding} {lead : String} (h : b.lead? = some lead) :
    ∃ c ∈ lead.toList, ¬(c.isLower = true ∨ c.isDigit = true) := by
  cases b <;> simp only [lead?, Option.some.injEq, reduceCtorEq] at h
  · subst h
    exact ⟨':', by decide, by decide⟩
  · subst h
    exact ⟨'_', by decide, by decide⟩
  · subst h
    exact ⟨'_', by decide, by decide⟩

theorem headerName_name_inj {b : Binding} {v w : WellKnown} :
    b.headerName v.name = b.headerName w.name ↔ v = w := by
  constructor
  · intro h
    exact WellKnown.name_injective (b.headerName_injective h)
  · rintro rfl
    rfl

end Binding

/-- **A plain extension attribute never has the name of a slot's header.** -/
theorem IsPlainName.ne_headerName {n : String} (h : IsPlainName n) (hx : IsExtensionName n)
    (b : Binding) (w : WellKnown) : n ≠ b.headerName w.name := by
  unfold Binding.headerName
  split
  · exact hx.ne_name w
  · rename_i lead hl
    exact h.ne_append (Binding.exists_not_plain hl)

namespace Wire.Binary

/-! ## What is written -/

variable (b : Binding) (e : Event) (f : Fresh)

/-- The header of a slot holds the slot's value. -/
theorem get?_slotHeaders (w : WellKnown) :
    (slotHeaders b e f).get? (b.headerName w.name) = slotValue? b e f w := by
  unfold slotHeaders
  rw [NameMap.get?_ofList (nodup_slotEntries Binding.headerName_name_inj.1 _)]
  exact lookup_slotEntries Binding.headerName_name_inj.1 _ w

theorem get?_slotHeaders_of_ne {n : String} (h : ∀ w : WellKnown, n ≠ b.headerName w.name) :
    (slotHeaders b e f).get? n = none := by
  unfold slotHeaders
  rw [NameMap.get?_ofList (nodup_slotEntries Binding.headerName_name_inj.1 _)]
  exact lookup_slotEntries_of_ne _ h

/-- Adding extension attributes fills free names and changes no other. -/
theorem get?_foldl_addExtension (h : Headers) (l : List (String × String)) (n : String) :
    (l.foldl addExtension h).get? n = (h.get? n).or ((NameMap.lookup n l).map .text) := by
  induction l generalizing h with
  | nil => simp [NameMap.lookup]
  | cons x r ih =>
    obtain ⟨k, v⟩ := x
    rw [List.foldl_cons, ih, addExtension]
    by_cases hk : k = n
    · subst hk
      rw [NameMap.contains]
      cases hg : h.get? k <;> simp [NameMap.lookup, hg]
    · split <;> simp [NameMap.lookup, hk, NameMap.get?_insert_of_ne]

/-- **Under any name stands the slot's value, or else the extension attribute of that name.** -/
theorem get?_headers (n : String) :
    (headers b e f).get? n = ((slotHeaders b e f).get? n).or ((e.attribute? n).map .text) :=
  get?_foldl_addExtension _ _ _

/-- Under the header of a slot stands the slot, and without it an attribute of that name. -/
theorem get?_headers_headerName (w : WellKnown) :
    (headers b e f).get? (b.headerName w.name) =
      (slotValue? b e f w).or ((e.attribute? (b.headerName w.name)).map .text) := by
  rw [get?_headers, get?_slotHeaders]

/-- Under every other name stands the attribute. -/
theorem get?_headers_of_ne {n : String} (h : ∀ w : WellKnown, n ≠ b.headerName w.name) :
    (headers b e f).get? n = (e.attribute? n).map .text := by
  rw [get?_headers, get?_slotHeaders_of_ne b e f h, Option.none_or]

/-- Another time changes the header of the time only. -/
theorem slotValue?_time (t : Instant) (w : WellKnown) :
    slotValue? b { e with time := some t } f w =
      if w = .time then some (timeValue b t) else slotValue? b e f w := by
  cases w <;> rfl

/-- Another time changes one header. -/
theorem headers_time (t : Instant) :
    headers b { e with time := some t } f =
      (headers b e f).insert (b.headerName WellKnown.time.name) (timeValue b t) := by
  refine NameMap.ext_get? fun n => ?_
  rw [NameMap.get?_insert]
  by_cases hn : ∃ w : WellKnown, n = b.headerName w.name
  · obtain ⟨w, rfl⟩ := hn
    rw [get?_headers_headerName, get?_headers_headerName, slotValue?_time]
    by_cases hw : w = .time
    · rw [if_pos hw, if_pos (by rw [hw])]
      rfl
    · rw [if_neg hw, if_neg fun heq => hw (Binding.headerName_name_inj.1 heq).symm]
      rfl
  · have hne : ∀ w : WellKnown, n ≠ b.headerName w.name := fun w hw => hn ⟨w, hw⟩
    rw [get?_headers_of_ne _ _ _ hne, get?_headers_of_ne _ _ _ hne, if_neg (hne .time).symm]
    rfl

/-! ## What is an extension attribute to the reader -/

/-- **A header is an extension attribute if it is no slot's header and its name is not reserved.** -/
theorem isExtension_iff {b : Binding} {n : String} :
    isExtension b n = true ↔ (∀ w : WellKnown, n ≠ b.headerName w.name) ∧ isReserved n = false := by
  unfold isExtension Binding.attributeName Binding.headerName
  simp only [Bool.and_eq_true, Bool.not_eq_true', Bool.and_eq_false_iff]
  cases hl : b.lead? with
  | none =>
    simp only [or_self]
    rw [Bool.eq_false_iff, ne_eq, isWellKnown_iff]
    exact and_congr_left fun _ => ⟨fun h w hw => h ⟨w, hw.symm⟩, fun h ⟨w, hw⟩ => h w hw.symm⟩
  | some lead =>
    refine and_congr_left fun _ => ?_
    cases hp : lead.toList.isPrefixOf? n.toList with
    | none =>
      simp only [hp, true_or, true_iff]
      rintro w rfl
      rw [String.toList_append, Binding.isPrefixOf?_append] at hp
      exact absurd hp (by simp)
    | some rest =>
      have hn : n = lead ++ String.ofList rest := by
        apply String.toList_inj.1
        rw [String.toList_append, String.toList_ofList]
        exact Text.eq_append_of_isPrefixOf? hp
      simp only [hp, reduceCtorEq, false_or]
      rw [Bool.eq_false_iff, ne_eq, isWellKnown_iff]
      constructor
      · rintro h w hw
        rw [hn] at hw
        exact h ⟨w, (String.append_right_inj lead).1 hw.symm⟩
      · rintro h ⟨w, hw⟩
        exact h w (by rw [hn, hw])

/-- A header that is no slot's is nothing to the slots. -/
theorem slotHeader?_insert {b : Binding} {n : String} (hn : ∀ w : WellKnown, n ≠ b.headerName w.name) (h : Headers)
    (v : HeaderValue) (w : WellKnown) : slotHeader? b (h.insert n v) w = slotHeader? b h w :=
  h.get?_insert_of_ne v (hn w)

end Wire.Binary

end CloudEvents
