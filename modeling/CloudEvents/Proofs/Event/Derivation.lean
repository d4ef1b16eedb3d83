/-
  Chains of derived events.

  An event that is derived from another one takes over its attributes, and by the rules of a sequenced event its place
  in the order moves on by one.  In a chain the kinds may alternate, and what an event is derived from may have been
  derived itself, so the text of a place is written and read again at every link.  That loses nothing, since what
  is written is read back (`Text.int32?_integerString`), but it does away with other spellings of a number.

  The load-bearing notion is the number that a place stands for (`Event.sequenceNumber?`), if it stands for one: a
  link either keeps it or adds one to it (`sequenceNumber?_derive`), and without one there is none ever after.  So
  at the end of a chain it is the number at its beginning plus the count of the sequenced links, in the arithmetic of
  32 bits.

  Main statement: `deriveAll_advances`.
-/
import CloudEvents.Extension
import CloudEvents.Proofs.Text.Decimal
import Mathlib.Algebra.Group.Nat.Defs

namespace CloudEvents

/-! ## The number of a place -/

/-- The number that an event's place in an order stands for, if that is an order of numbers. -/
def Event.sequenceNumber? (e : Event) : Option Int32 :=
  if e.sequenceType? = some integerSequence then e.sequence?.bind fun s => Text.int32? s.toList else none

/-- A place stands for a number if it is said to be one and can be read as one. -/
theorem Event.sequenceNumber?_eq_some_iff {e : Event} {i : Int32} :
    e.sequenceNumber? = some i ↔
      e.sequenceType? = some integerSequence ∧ ∃ s, e.sequence? = some s ∧ Text.int32? s.toList = some i := by
  unfold sequenceNumber?
  split
  · rename_i ht
    rw [Option.bind_eq_some_iff]
    exact (and_iff_right ht).symm
  · rename_i ht
    exact iff_of_false (by simp) fun hand => ht hand.1

/-- The text of a number some places further on, after the greatest number from the least one on. -/
def placeText (i : Int32) (count : Nat) : String := Text.integerString (i + Int32.ofNat count).toInt

/-- The places after the next one are those one further on. -/
theorem placeText_succ (i : Int32) (count : Nat) : placeText (i + 1) count = placeText i (count + 1) := by
  have hsum : i + 1 + Int32.ofNat count = i + Int32.ofNat (count + 1) := by
    rw [Int32.ofNat_add, Int32.add_assoc, Int32.add_comm 1, show Int32.ofNat 1 = 1 by decide]
  rw [placeText, placeText, hsum]

/-- A place that is moved on is written as its number plus the count, wrapped into 32 bits. -/
theorem placeText_eq (i : Int32) (count : Nat) :
    placeText i count = Text.integerString ((i.toInt + count).bmod (2 ^ 32)) := by
  rw [placeText, Int32.toInt_add, Int32.toInt_ofNat']
  exact congrArg Text.integerString Int.add_bmod_bmod

namespace Extension

variable {e : Event} {n : String}

/-- The next place is written from the number that a place stands for, and is none without one. -/
theorem nextSequence?_eq (e : Event) :
    nextSequence? e.sequence? e.sequenceType? = e.sequenceNumber?.map fun i => placeText i 1 := by
  unfold nextSequence? Event.sequenceNumber?
  split <;> rfl

/-! ## One link -/

/-- But for its extension attributes, an event that is derived by the rules of a kind is one that is derived. -/
theorem derive_eq (k : Extension) (e : Event) :
    k.derive e = { e.deriveFrom with attributes := (k.derive e).attributes } := by
  unfold derive
  cases k with
  | plain => rfl
  | correlated => rfl
  | partitioned => rfl
  | sequenced =>
    simp only
    split <;> rfl

/-- **A sequenced link moves the place on**, and nothing else happens to extension attributes. -/
theorem attribute?_derive (k : Extension) (e : Event) (n : String) :
    (k.derive e).attribute? n =
      if k = .sequenced ∧ n = sequenceName then e.sequenceNumber?.map fun i => placeText i 1 else e.attribute? n := by
  by_cases hk : k = .sequenced
  · subst hk
    simp only [derive, nextSequence?_eq, true_and]
    cases e.sequenceNumber? with
    | none =>
      show (e.attributes.erase sequenceName).get? n = _
      rw [NameMap.get?_erase]
      simp only [eq_comm, Option.map_none]
      rfl
    | some i =>
      show (e.attributes.insert sequenceName _).get? n = _
      rw [NameMap.get?_insert]
      simp only [eq_comm, Option.map_some]
      rfl
  · rw [if_neg fun hand => hk hand.1]
    cases k <;> first | rfl | exact absurd rfl hk

/-- A sequenced link moves the place on, and the other kinds take it over. -/
theorem sequence?_derive (k : Extension) (e : Event) :
    (k.derive e).sequence? =
      if k = .sequenced then e.sequenceNumber?.map fun i => placeText i 1 else e.sequence? := by
  rw [Event.sequence?, attribute?_derive]
  simp only [and_true]
  rfl

/-- A place that was moved on stands for the next number, and one that stands for no number is given up. -/
theorem sequenceNumber?_derive (k : Extension) (e : Event) :
    (k.derive e).sequenceNumber? = if k = .sequenced then e.sequenceNumber?.map (· + 1) else e.sequenceNumber? := by
  have htype : (k.derive e).sequenceType? = e.sequenceType? := by
    rw [Event.sequenceType?, attribute?_derive, if_neg fun hand => absurd hand.2 (by decide)]
    rfl
  rw [Event.sequenceNumber?, htype, sequence?_derive]
  by_cases hk : k = .sequenced
  · rw [if_pos hk, if_pos hk]
    split
    · cases e.sequenceNumber? with
      | none => rfl
      | some i => exact Text.int32?_integerString (i + 1)
    · rename_i ht
      rw [Event.sequenceNumber?, if_neg ht]
      rfl
  · rw [if_neg hk, if_neg hk]
    rfl

/-! ## Chains -/

/-- An event that is derived from another one by the rules of kinds, one after the other. -/
def deriveAll (ks : List Extension) (e : Event) : Event := ks.foldl (fun e k => k.derive e) e

/-- But for its extension attributes, an event at the end of a chain is one that is derived. -/
theorem deriveAll_eq {ks : List Extension} (hks : ks ≠ []) (e : Event) :
    deriveAll ks e = { e.deriveFrom with attributes := (deriveAll ks e).attributes } := by
  induction ks generalizing e with
  | nil => exact absurd rfl hks
  | cons k ks ih =>
    show deriveAll ks (k.derive e) = { e.deriveFrom with attributes := (deriveAll ks (k.derive e)).attributes }
    by_cases htail : ks = []
    · subst htail
      exact derive_eq k e
    · -- The first link leaves nothing to change but the attributes, and these are those of the end.
      have hfirst : (k.derive e).deriveFrom = { e.deriveFrom with attributes := (k.derive e).attributes } := by
        rw [derive_eq k e]
        rfl
      rw [ih htail (k.derive e), hfirst]

/-- A chain takes over every attribute but the place. -/
theorem attribute?_deriveAll_of_ne (hn : n ≠ sequenceName) (ks : List Extension) (e : Event) :
    (deriveAll ks e).attribute? n = e.attribute? n := by
  induction ks generalizing e with
  | nil => rfl
  | cons k ks ih =>
    show (deriveAll ks (k.derive e)).attribute? n = e.attribute? n
    rw [ih, attribute?_derive, if_neg fun hand => hn hand.2]

/-- **The place at the end of a chain**: the one at its beginning while no link is sequenced, else the number there
and the count of sequenced links. -/
theorem sequence?_deriveAll (ks : List Extension) (e : Event) :
    (deriveAll ks e).sequence? =
      if ks.count .sequenced = 0 then e.sequence?
      else e.sequenceNumber?.map fun i => placeText i (ks.count .sequenced) := by
  induction ks generalizing e with
  | nil => rfl
  | cons k ks ih =>
    show (deriveAll ks (k.derive e)).sequence? = _
    rw [ih, sequenceNumber?_derive, sequence?_derive]
    by_cases hk : k = .sequenced
    · subst hk
      rw [if_pos rfl, if_pos rfl, List.count_cons_self, if_neg (Nat.succ_ne_zero _)]
      split
      · rename_i hzero
        rw [hzero]
      · cases e.sequenceNumber? with
        | none => simp only [Option.map_none]
        | some i => simp only [Option.map_some, placeText_succ]
    · rw [if_neg hk, if_neg hk, List.count_cons_of_ne hk]

/-! ## The verdict at the end -/

/-- A sequenced event must have a place. -/
theorem check_sequenced_of_none {e : Event} (hs : e.sequence? = none) (f : Fresh) :
    sequenced.check f e = .error (.invalid (.missingAttribute sequenceName)) := by
  show (checkSequence e.sequence? e.sequenceType?).map (fun _ => e) = _
  rw [hs]
  rfl

/-- The text of a number is a place that passes, whatever the sort of order. -/
theorem check_sequenced_of_placeText {e : Event} {i : Int32} {count : Nat} (hs : e.sequence? = some (placeText i count))
    (f : Fresh) : sequenced.check f e = .ok e := by
  have hread : Text.int32? (placeText i count).toList = some (i + Int32.ofNat count) := Text.int32?_integerString _
  have hne : placeText i count ≠ "" := by
    intro hempty
    rw [hempty, show Text.int32? "".toList = none by rfl] at hread
    cases hread
  have hcheck : checkSequence (some (placeText i count)) e.sequenceType? = .ok () := by
    unfold checkSequence
    split
    · rename_i h
      cases h
    · rename_i h
      exact absurd (Option.some.inj h) hne
    · rename_i h
      cases h
      rw [hread]
      exact if_neg fun hand => Bool.false_ne_true hand.2
  show (checkSequence e.sequence? e.sequenceType?).map (fun _ => e) = .ok e
  rw [hs, hcheck]
  rfl

/-- **What is at the end of a chain of derived events.**  All of the first event but id, time and data, and for its
place: the one it had, if no link is sequenced; the number it had and the count of sequenced links, wrapped into
32 bits, if it had a number; and none, which a sequenced event must not be without, if it had anything else. -/
theorem deriveAll_advances {ks : List Extension} (hks : ks ≠ []) (e : Event) (f : Fresh) :
    (deriveAll ks e = { e with id := none, time := none, data := none, attributes := (deriveAll ks e).attributes }) ∧
    (∀ n, n ≠ sequenceName → (deriveAll ks e).attribute? n = e.attribute? n) ∧
    (ks.count .sequenced = 0 → (deriveAll ks e).sequence? = e.sequence?) ∧
    (0 < ks.count .sequenced → ∀ s i, e.sequenceType? = some integerSequence → e.sequence? = some s →
      Text.int32? s.toList = some i →
      (deriveAll ks e).sequence? =
        some (Text.integerString ((i.toInt + ks.count .sequenced).bmod (2 ^ 32))) ∧
      sequenced.check f (deriveAll ks e) = .ok (deriveAll ks e)) ∧
    (0 < ks.count .sequenced →
      (¬∃ s i, e.sequenceType? = some integerSequence ∧ e.sequence? = some s ∧ Text.int32? s.toList = some i) →
      (deriveAll ks e).sequence? = none ∧
      sequenced.check f (deriveAll ks e) = .error (.invalid (.missingAttribute sequenceName))) := by
  have hplace := sequence?_deriveAll ks e
  refine ⟨deriveAll_eq hks e, fun n hn => attribute?_deriveAll_of_ne hn ks e, ?_, ?_, ?_⟩
  · intro hzero
    rw [hplace, if_pos hzero]
  · intro hpos s i htype hs hi
    have hnumber : e.sequenceNumber? = some i := Event.sequenceNumber?_eq_some_iff.2 ⟨htype, s, hs, hi⟩
    rw [if_neg (Nat.ne_of_gt hpos), hnumber, Option.map_some] at hplace
    exact ⟨hplace.trans (congrArg some (placeText_eq i _)), check_sequenced_of_placeText hplace f⟩
  · intro hpos hno
    have hnumber : e.sequenceNumber? = none := by
      refine Option.eq_none_iff_forall_ne_some.2 fun i hi => hno ?_
      obtain ⟨htype, s, hs, hi⟩ := Event.sequenceNumber?_eq_some_iff.1 hi
      exact ⟨s, i, htype, hs, hi⟩
    rw [if_neg (Nat.ne_of_gt hpos), hnumber, Option.map_none] at hplace
    exact ⟨hplace, check_sequenced_of_none hplace f⟩

/-- An event at a place in an order of numbers. -/
def orderedEvent (place : String) : Event where
  id := some "a-1"
  source := some ⟨"/orders", .refl true⟩
  type := some "order.placed"
  time := some .epoch
  attributes :=
    .ofList [(correlationIdName, "c-1"), (sequenceName, place), (sequenceTypeName, integerSequence)]
  data := some (.text "{}")
  binding := .kafka

/-- Three links move a place past the end of 32 bits, and a place that is no number is lost at the first. -/
theorem deriveAll_orderedEvent :
    [sequenced, correlated, sequenced, sequenced] ≠ [] ∧
      Text.int32? "+2147483646".toList = some 2147483646 ∧
      (deriveAll [sequenced, correlated, sequenced, sequenced] (orderedEvent "+2147483646")).sequence? =
        some (Text.integerString (-2147483647)) ∧
      (¬∃ s i, (orderedEvent "1.5").sequenceType? = some integerSequence ∧
        (orderedEvent "1.5").sequence? = some s ∧ Text.int32? s.toList = some i) ∧
      sequenced.check default (deriveAll [plain, sequenced] (orderedEvent "1.5")) =
        .error (.invalid (.missingAttribute sequenceName)) := by
  have hread : Text.int32? "+2147483646".toList = some 2147483646 := by decide +kernel
  have hno : ¬∃ s i, (orderedEvent "1.5").sequenceType? = some integerSequence ∧
      (orderedEvent "1.5").sequence? = some s ∧ Text.int32? s.toList = some i := by
    rintro ⟨s, i, -, hs, hi⟩
    have hs : s = "1.5" := Option.some.inj (hs.symm.trans (by decide +kernel))
    subst hs
    exact absurd hi (by rw [show Text.int32? "1.5".toList = none by decide +kernel]; simp)
  have hchain : [sequenced, correlated, sequenced, sequenced] ≠ [] := List.cons_ne_nil _ _
  have hwrap := (deriveAll_advances hchain (orderedEvent "+2147483646") default).2.2.2.1 (by decide)
    "+2147483646" 2147483646 (by decide +kernel) (by decide +kernel) hread
  have hnone := (deriveAll_advances (List.cons_ne_nil plain [sequenced]) (orderedEvent "1.5") default).2.2.2.2
    (by decide) hno
  exact ⟨hchain, hread, hwrap.1, hno, hnone.2⟩

end Extension
end CloudEvents
