/-
  Entries of slots.

  Headers and documents both list the slots that have a value, each under a name of its own.  Under the
  name of a slot such a list has the slot's value, and under any other name nothing.
-/
import CloudEvents.Attribute
import CloudEvents.NameMap

namespace CloudEvents

variable {α : Type} {name : WellKnown → String} (hname : ∀ {v w}, name v = name w → v = w)
  (value : WellKnown → Option α)

include hname

/-- Entries of slots have different names if the slots have. -/
theorem nodup_slotEntries :
    ((WellKnown.all.filterMap fun w => (value w).map (name w, ·)).map Prod.fst).Nodup := by
  have hall : WellKnown.all.Nodup := by decide
  rw [List.map_filterMap]
  refine List.Pairwise.filterMap _ ?_ hall
  intro v w hne n hv m hw heq
  simp only [Option.map_map, Option.map_eq_some_iff] at hv hw
  obtain ⟨_, _, rfl⟩ := hv
  obtain ⟨_, _, rfl⟩ := hw
  exact hne (hname heq)

/-- Under the name of a slot stands its value. -/
theorem lookup_slotEntries (w : WellKnown) :
    NameMap.lookup (name w) (WellKnown.all.filterMap fun w => (value w).map (name w, ·)) = value w := by
  ext v
  rw [NameMap.lookup_eq_some_iff (nodup_slotEntries hname value), List.mem_filterMap]
  constructor
  · rintro ⟨u, -, hu⟩
    obtain ⟨x, hx, heq⟩ := Option.map_eq_some_iff.1 hu
    obtain ⟨hn, rfl⟩ := Prod.mk.inj heq
    rw [← hname hn]
    exact hx
  · intro hv
    exact ⟨w, w.mem_all, by rw [hv]; rfl⟩

omit hname in
/-- Under other names stands nothing. -/
theorem lookup_slotEntries_of_ne {n : String} (h : ∀ w, n ≠ name w) :
    NameMap.lookup n (WellKnown.all.filterMap fun w => (value w).map (name w, ·)) = none := by
  rw [NameMap.lookup_eq_none_iff]
  intro hn
  obtain ⟨⟨k, v⟩, hk, rfl⟩ := List.mem_map.1 hn
  obtain ⟨w, -, hw⟩ := List.mem_filterMap.1 hk
  obtain ⟨x, -, heq⟩ := Option.map_eq_some_iff.1 hw
  exact h w (Prod.mk.inj heq).1.symm

end CloudEvents
