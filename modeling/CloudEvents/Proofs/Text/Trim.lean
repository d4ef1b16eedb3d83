/-
  What trimming takes away, and what it leaves.

  White space goes at the ends and nowhere else.  So a text is what is left of it with blanks around that
  (`exists_around_trim`), and further blanks around a text make no difference (`trim_around`).  Neither the
  capital nor the small letters are white space, so trimming and writing in small letters can change places
  (`lower_trim`).
-/
import CloudEvents.Text.Ascii
import CloudEvents.Text.Blank
import Mathlib.Data.List.TakeWhile

namespace CloudEvents.Text

/-! ## Blanks around a text -/

theorem trim_append_left {front s : List Char} (h : isAllBlank front = true) : trim (front ++ s) = trim s := by
  unfold trim strip
  rw [List.dropWhile_append_of_pos (List.all_eq_true.1 h)]

theorem trim_append_right {s back : List Char} (h : isAllBlank back = true) : trim (s ++ back) = trim s := by
  have hback : ∀ c ∈ back, isBlank c = true := List.all_eq_true.1 h
  unfold trim strip
  rw [List.dropWhile_append]
  split
  · -- Nothing but white space on either side.
    rename_i hempty
    rw [List.dropWhile_eq_nil_iff.2 hback, List.isEmpty_iff.1 hempty]
  · rw [List.reverse_append, List.dropWhile_append_of_pos fun c hc => hback c (List.mem_reverse.1 hc)]

/-- **Blanks around a text make no difference.** -/
theorem trim_around {front s back : List Char} (hf : isAllBlank front = true) (hb : isAllBlank back = true) :
    trim (front ++ s ++ back) = trim s := by
  rw [trim_append_right hb, trim_append_left hf]

theorem isAllBlank_takeWhile (s : List Char) : isAllBlank (s.takeWhile isBlank) = true :=
  List.all_takeWhile

/-- **A text is its trimmed form with blanks around it.** -/
theorem exists_around_trim (s : List Char) :
    ∃ front back, isAllBlank front = true ∧ isAllBlank back = true ∧ s = front ++ trim s ++ back := by
  refine ⟨s.takeWhile isBlank, ((s.dropWhile isBlank).reverse.takeWhile isBlank).reverse,
    isAllBlank_takeWhile s, ?_, ?_⟩
  · rw [isAllBlank, List.all_reverse]
    exact isAllBlank_takeWhile _
  · unfold trim strip
    rw [List.append_assoc, ← List.reverse_append, List.takeWhile_append_dropWhile, List.reverse_reverse,
      List.takeWhile_append_dropWhile]

/-- Trimming adds no characters. -/
theorem mem_of_mem_trim {s : List Char} {c : Char} (h : c ∈ trim s) : c ∈ s := by
  obtain ⟨front, back, -, -, hs⟩ := exists_around_trim s
  rw [hs]
  exact List.mem_append_left _ (List.mem_append_right _ h)

/-- A text without white space has nothing to trim. -/
theorem trim_eq_self_of_forall {s : List Char} (h : ∀ c ∈ s, isBlank c = false) : trim s = s := by
  have hdrop : ∀ t : List Char, (∀ c ∈ t, isBlank c = false) → t.dropWhile isBlank = t := by
    intro t ht
    cases t with
    | nil => rfl
    | cons c t => exact List.dropWhile_cons_of_neg (by simp [ht c List.mem_cons_self])
  unfold trim strip
  rw [hdrop s h, hdrop _ fun c hc => h c (List.mem_reverse.1 hc), List.reverse_reverse]

/-! ## Small letters -/

/-- A letter is no white space, be it capital or small. -/
theorem isBlank_toLower (c : Char) : isBlank c.toLower = isBlank c := by
  unfold isBlank
  rw [toNat_toLower]
  split
  · rw [Bool.eq_iff_iff]
    simp only [Bool.or_eq_true, Bool.and_eq_true, decide_eq_true_eq, beq_iff_eq]
    omega
  · rfl

/-- **Trimming and writing in small letters can change places.** -/
theorem lower_trim (s : List Char) : lower (trim s) = trim (lower s) := by
  have hblank : isBlank ∘ Char.toLower = isBlank := funext isBlank_toLower
  have hdrop : ∀ t : List Char, (lower t).dropWhile isBlank = lower (t.dropWhile isBlank) := by
    intro t
    rw [lower, List.dropWhile_map, hblank, lower]
  have hreverse : ∀ t : List Char, (lower t).reverse = lower t.reverse := fun t => List.map_reverse.symm
  unfold trim strip
  rw [hdrop, hreverse, hdrop, hreverse]

end CloudEvents.Text
