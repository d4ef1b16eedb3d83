/-
  Maps from names to values, in the order of the names.

  Headers, extension attributes, the members of a document and the kinds of a registry are all maps
  of this sort.  A map is its list of entries, and that the names strictly increase is part of the
  type: no name occurs twice, the order of the entries is the order in which a map is written out,
  and two maps that answer every lookup alike are equal (`ext_get?`).  Names compare by code point,
  which is also the order of their UTF-8 octets.

  Each operation has one law through `get?`: `get?_insert`, `get?_erase`, `get?_empty`.
-/

namespace CloudEvents

/-- A list of entries whose names strictly increase. -/
structure NameMap (α : Type) where
  entries : List (String × α)
  increasing : entries.Pairwise (fun x y => x.1 < y.1)

namespace NameMap

variable {α β : Type}

/-! ## The operations on lists of entries -/

/-- The value under a name. -/
def lookup (name : String) : List (String × α) → Option α
  | [] => none
  | (n, v) :: r => if n = name then some v else lookup name r

/-- One pass: in front of the first greater name, or in place of the same name. -/
def put (name : String) (value : α) : List (String × α) → List (String × α)
  | [] => [(name, value)]
  | (n, v) :: r =>
    if name < n then (name, value) :: (n, v) :: r
    else if name = n then (name, value) :: r
    else (n, v) :: put name value r

theorem mem_put {name : String} {value : α} {e : String × α} {l : List (String × α)}
    (h : e ∈ put name value l) : e = (name, value) ∨ e ∈ l := by
  induction l with
  | nil => simpa [put] using h
  | cons x r ih =>
    obtain ⟨n, v⟩ := x
    simp only [put] at h
    split at h
    · simpa using h
    · split at h
      · rcases List.mem_cons.1 h with h | h
        · exact .inl h
        · exact .inr (List.mem_cons_of_mem _ h)
      · rcases List.mem_cons.1 h with h | h
        · exact .inr (h ▸ List.mem_cons_self)
        · rcases ih h with h | h
          · exact .inl h
          · exact .inr (List.mem_cons_of_mem _ h)

theorem lt_of_not_lt_of_ne {a b : String} (h : ¬a < b) (hne : a ≠ b) : b < a := by
  apply String.not_le.1
  intro hle
  exact hne (String.le_antisymm hle (String.not_lt.1 h))

/-- The names go on increasing when an entry is put in its place. -/
theorem increasing_put (name : String) (value : α) {l : List (String × α)}
    (h : l.Pairwise (fun x y => x.1 < y.1)) :
    (put name value l).Pairwise (fun x y => x.1 < y.1) := by
  induction l with
  | nil => simp [put]
  | cons x r ih =>
    obtain ⟨n, v⟩ := x
    obtain ⟨hx, hr⟩ := List.pairwise_cons.1 h
    simp only [put]
    split
    · rename_i hlt
      refine List.pairwise_cons.2 ⟨?_, h⟩
      intro y hy
      rcases List.mem_cons.1 hy with rfl | hy
      · exact hlt
      · exact String.lt_trans hlt (hx y hy)
    · split
      · rename_i heq
        refine List.pairwise_cons.2 ⟨?_, hr⟩
        intro y hy
        exact heq ▸ hx y hy
      · rename_i hnlt hne
        refine List.pairwise_cons.2 ⟨?_, ih hr⟩
        intro y hy
        rcases mem_put hy with rfl | hy
        · exact lt_of_not_lt_of_ne hnlt hne
        · exact hx y hy

/-- **Putting an entry in** changes the value of its name and of no other. -/
theorem lookup_put (name m : String) (value : α) (l : List (String × α)) :
    lookup m (put name value l) = if name = m then some value else lookup m l := by
  induction l with
  | nil => simp [put, lookup]
  | cons x r ih =>
    obtain ⟨n, v⟩ := x
    simp only [put]
    split
    · simp [lookup]
    · split
      · rename_i heq
        subst heq
        by_cases hm : name = m <;> simp [lookup, hm]
      · rename_i hne
        by_cases hm : n = m
        · subst hm
          simp [lookup, hne]
        · simp [lookup, hm, ih]

theorem lookup_eq_none_of_forall {name : String} {l : List (String × α)}
    (h : ∀ e ∈ l, e.1 ≠ name) : lookup name l = none := by
  induction l with
  | nil => rfl
  | cons x r ih =>
    obtain ⟨n, v⟩ := x
    have hn : n ≠ name := h (n, v) List.mem_cons_self
    simp [lookup, hn, ih fun e he => h e (List.mem_cons_of_mem _ he)]

/-- Of what is left without a name, only the value of that name is gone. -/
theorem lookup_filter (name m : String) (l : List (String × α)) :
    lookup m (l.filter (fun e => e.1 ≠ name)) = if name = m then none else lookup m l := by
  induction l with
  | nil => simp [lookup]
  | cons x r ih =>
    obtain ⟨n, v⟩ := x
    by_cases hn : n = name
    · subst hn
      by_cases hm : n = m <;> simp_all [lookup]
    · by_cases hm : n = m
      · subst hm
        simp [lookup, hn, Ne.symm hn]
      · simp_all [lookup]

/-- Where no name occurs twice, the value of a name is the one it stands with. -/
theorem lookup_eq_some_iff {l : List (String × α)} (h : (l.map Prod.fst).Nodup) {n : String} {v : α} :
    lookup n l = some v ↔ (n, v) ∈ l := by
  induction l with
  | nil => simp [lookup]
  | cons x r ih =>
    obtain ⟨k, w⟩ := x
    obtain ⟨hk, hr⟩ := List.nodup_cons.1 h
    by_cases hn : k = n
    · subst hn
      have hnot : (k, v) ∉ r := fun hv => hk (List.mem_map.2 ⟨(k, v), hv, rfl⟩)
      simp [lookup, hnot, eq_comm]
    · have hn' : ¬n = k := fun e => hn e.symm
      simp [lookup, hn, hn', ih hr]

/-- Of two lists in a row the first one answers, if it has the name. -/
theorem lookup_append (n : String) (l r : List (String × α)) :
    lookup n (l ++ r) = (lookup n l).or (lookup n r) := by
  induction l with
  | nil => rfl
  | cons x l ih =>
    obtain ⟨k, v⟩ := x
    rw [List.cons_append, lookup, lookup, ih]
    by_cases hk : k = n <;> simp [hk]

theorem lookup_map (g : α → β) (n : String) (l : List (String × α)) :
    lookup n (l.map fun x => (x.1, g x.2)) = (lookup n l).map g := by
  induction l with
  | nil => rfl
  | cons x l ih =>
    obtain ⟨k, v⟩ := x
    rw [List.map_cons, lookup, lookup, ih]
    by_cases hk : k = n <;> simp [hk]

/-- A name is missed exactly if it is the name of no entry. -/
theorem lookup_eq_none_iff {l : List (String × α)} {n : String} :
    lookup n l = none ↔ n ∉ l.map Prod.fst := by
  induction l with
  | nil => simp [lookup]
  | cons x r ih =>
    obtain ⟨k, w⟩ := x
    by_cases hn : k = n
    · simp [lookup, hn]
    · have hn' : ¬n = k := fun e => hn e.symm
      simp [lookup, hn, hn', ih]

/-! ## The operations on maps -/

/-- The map without entries. -/
def empty : NameMap α := ⟨[], List.Pairwise.nil⟩

instance : Inhabited (NameMap α) := ⟨empty⟩

/-- The value under a name. -/
def get? (m : NameMap α) (name : String) : Option α := lookup name m.entries

/-- Whether a name has a value. -/
def contains (m : NameMap α) (name : String) : Bool := (m.get? name).isSome

/-- Gives a name a value, in place of the one it had. -/
def insert (m : NameMap α) (name : String) (value : α) : NameMap α :=
  ⟨put name value m.entries, increasing_put name value m.increasing⟩

/-- Takes a name out. -/
def erase (m : NameMap α) (name : String) : NameMap α :=
  ⟨m.entries.filter (fun e => e.1 ≠ name), m.increasing.filter _⟩

/-- How many names have a value. -/
def size (m : NameMap α) : Nat := m.entries.length

/-- The names that have a value, in order. -/
def names (m : NameMap α) : List String := m.entries.map Prod.fst

/-- The entries put in from first to last, so that of two values for a name the last one stays. -/
def ofList (l : List (String × α)) : NameMap α :=
  l.foldl (fun m e => m.insert e.1 e.2) empty

/-- The first entry, in the order of the names, that satisfies a condition on its name. -/
def findName? (m : NameMap α) (p : String → Bool) : Option (String × α) :=
  m.entries.find? fun e => p e.1

instance [DecidableEq α] : DecidableEq (NameMap α) := fun a b =>
  match decEq a.entries b.entries with
  | isTrue h => isTrue (by cases a; cases b; cases h; rfl)
  | isFalse h => isFalse fun e => h (congrArg entries e)

/-! ## The view -/

@[simp] theorem get?_empty (n : String) : (empty : NameMap α).get? n = none := rfl

/-- **An insertion** is seen under its own name only. -/
theorem get?_insert (m : NameMap α) (name n : String) (value : α) :
    (m.insert name value).get? n = if name = n then some value else m.get? n :=
  lookup_put name n value m.entries

@[simp] theorem get?_insert_self (m : NameMap α) (name : String) (value : α) :
    (m.insert name value).get? name = some value := by
  simp [get?_insert]

theorem get?_insert_of_ne (m : NameMap α) {name n : String} (value : α) (h : name ≠ n) :
    (m.insert name value).get? n = m.get? n := by
  simp [get?_insert, h]

/-- **An erasure** is seen under its own name only. -/
theorem get?_erase (m : NameMap α) (name n : String) :
    (m.erase name).get? n = if name = n then none else m.get? n :=
  lookup_filter name n m.entries

/-- What entries that are put in one after the other leave behind. -/
theorem get?_foldl_insert (m : NameMap α) {l : List (String × α)} (h : (l.map Prod.fst).Nodup)
    (n : String) :
    (l.foldl (fun m e => m.insert e.1 e.2) m).get? n = (lookup n l).or (m.get? n) := by
  induction l generalizing m with
  | nil => rfl
  | cons x r ih =>
    obtain ⟨k, w⟩ := x
    obtain ⟨hk, hr⟩ := List.nodup_cons.1 h
    rw [List.foldl_cons, ih _ hr, get?_insert]
    by_cases hn : k = n
    · subst hn
      rw [lookup_eq_none_iff.2 hk]
      simp [lookup]
    · simp [lookup, hn]

/-- The map of a list in which no name occurs twice. -/
theorem get?_ofList {l : List (String × α)} (h : (l.map Prod.fst).Nodup) (n : String) :
    (ofList l).get? n = lookup n l := by
  unfold ofList
  rw [get?_foldl_insert _ h, get?_empty, Option.or_none]

/-- The last value for a name is the first one from behind. -/
theorem lookup_reverse_eq_some_iff {l : List (String × α)} {n : String} {v : α} :
    lookup n l.reverse = some v ↔ ∃ before after, l = before ++ (n, v) :: after ∧ n ∉ after.map Prod.fst := by
  induction l with
  | nil => simp [lookup]
  | cons x r ih =>
    obtain ⟨k, w⟩ := x
    have hnone : lookup n r.reverse = none ↔ n ∉ r.map Prod.fst := by
      rw [lookup_eq_none_iff, List.map_reverse, List.mem_reverse]
    rw [List.reverse_cons, lookup_append, Option.or_eq_some_iff, ih, hnone]
    constructor
    · rintro (⟨before, after, rfl, hn⟩ | ⟨hn, hlast⟩)
      · exact ⟨(k, w) :: before, after, rfl, hn⟩
      · -- The name is not found further on, so the head is the one that has it.
        by_cases hk : k = n
        · rw [lookup, if_pos hk] at hlast
          exact ⟨[], r, by rw [hk, Option.some.inj hlast]; rfl, hn⟩
        · rw [lookup, if_neg hk] at hlast
          exact absurd hlast (by simp [lookup])
    · rintro ⟨before, after, heq, hn⟩
      cases before with
      | nil =>
        obtain ⟨hx, rfl⟩ := List.cons.inj heq
        obtain ⟨rfl, rfl⟩ := Prod.mk.inj hx
        exact .inr ⟨hn, by simp [lookup]⟩
      | cons y before =>
        obtain ⟨-, rfl⟩ := List.cons.inj heq
        exact .inl ⟨before, after, rfl, hn⟩

/-- **Of several values for a name the last one stays.** -/
theorem get?_ofList_eq_some_iff {l : List (String × α)} {n : String} {v : α} :
    (ofList l).get? n = some v ↔ ∃ before after, l = before ++ (n, v) :: after ∧ n ∉ after.map Prod.fst := by
  have hfold : ∀ (m : NameMap α) (l : List (String × α)),
      (l.foldl (fun m e => m.insert e.1 e.2) m).get? n = (lookup n l.reverse).or (m.get? n) := by
    intro m l
    induction l generalizing m with
    | nil => rfl
    | cons x r ih =>
      obtain ⟨k, w⟩ := x
      rw [List.foldl_cons, ih, get?_insert, List.reverse_cons, lookup_append, Option.or_assoc]
      by_cases hk : k = n <;> simp [lookup, hk]
  rw [ofList, hfold, get?_empty, Option.or_none, lookup_reverse_eq_some_iff]

theorem contains_iff {m : NameMap α} {n : String} :
    m.contains n = true ↔ ∃ v, m.get? n = some v := by
  simp [contains, Option.isSome_iff_exists]

/-- Names that increase do not repeat. -/
theorem nodup_entries (m : NameMap α) : (m.entries.map Prod.fst).Nodup := by
  rw [List.Nodup, List.pairwise_map]
  refine m.increasing.imp ?_
  intro x y h heq
  rw [heq] at h
  exact String.lt_irrefl _ h

/-- An entry of the list is what the lookup finds, and there is no other. -/
theorem mem_entries_iff {m : NameMap α} {n : String} {v : α} :
    (n, v) ∈ m.entries ↔ m.get? n = some v :=
  (lookup_eq_some_iff m.nodup_entries).symm

/-- Maps that answer every lookup alike are equal. -/
theorem ext_get? {a b : NameMap α} (h : ∀ n, a.get? n = b.get? n) : a = b := by
  have key : ∀ (l₁ l₂ : List (String × α)), l₁.Pairwise (fun x y => x.1 < y.1) →
      l₂.Pairwise (fun x y => x.1 < y.1) → (∀ n, lookup n l₁ = lookup n l₂) → l₁ = l₂ := by
    intro l₁
    induction l₁ with
    | nil =>
      intro l₂ _ _ h
      cases l₂ with
      | nil => rfl
      | cons y s => simpa [lookup] using h y.1
    | cons x r ih =>
      intro l₂ h₁ h₂ h
      obtain ⟨n, v⟩ := x
      obtain ⟨hx, hr⟩ := List.pairwise_cons.1 h₁
      cases l₂ with
      | nil => simpa [lookup] using h n
      | cons y s =>
        obtain ⟨k, w⟩ := y
        obtain ⟨hy, hs⟩ := List.pairwise_cons.1 h₂
        have hnr : lookup n r = none :=
          lookup_eq_none_of_forall fun e he heq => String.lt_irrefl n (heq ▸ hx e he)
        have hks : lookup k s = none :=
          lookup_eq_none_of_forall fun e he heq => String.lt_irrefl k (heq ▸ hy e he)
        have hnk : n = k := by
          apply Classical.byContradiction
          intro hne
          have h1 := h n
          have h2 := h k
          simp only [lookup, if_true, Ne.symm hne, if_false, hne] at h1 h2
          have m1 : (n, v) ∈ s := by
            have := (mem_entries_iff (m := ⟨s, hs⟩) (n := n) (v := v)).2 h1.symm
            exact this
          have m2 : (k, w) ∈ r := by
            have := (mem_entries_iff (m := ⟨r, hr⟩) (n := k) (v := w)).2 h2
            exact this
          exact String.lt_asymm (hx _ m2) (hy _ m1)
        subst hnk
        have hvw : v = w := by simpa [lookup] using h n
        subst hvw
        refine congrArg _ (ih s hr hs fun m => ?_)
        by_cases hm : n = m
        · subst hm
          rw [hnr, hks]
        · simpa [lookup, hm] using h m
  obtain ⟨l₁, h₁⟩ := a
  obtain ⟨l₂, h₂⟩ := b
  cases key l₁ l₂ h₁ h₂ h
  rfl

/-- A map is rebuilt from its entries. -/
theorem ofList_entries (m : NameMap α) : ofList m.entries = m :=
  ext_get? fun n => get?_ofList m.nodup_entries n

/-! ## The first entry of a class -/

/-- **The first name with a property** has it, has a value, and comes before every other one of that sort. -/
theorem findName?_eq_some_iff {m : NameMap α} {p : String → Bool} {n : String} {v : α} :
    m.findName? p = some (n, v) ↔
      m.get? n = some v ∧ p n = true ∧ ∀ k w, m.get? k = some w → p k = true → ¬k < n := by
  obtain ⟨l, h⟩ := m
  simp only [findName?, ← mem_entries_iff]
  induction l with
  | nil => simp
  | cons x r ih =>
    obtain ⟨k, w⟩ := x
    obtain ⟨hx, hr⟩ := List.pairwise_cons.1 h
    rw [List.find?_cons]
    cases hp : p k with
    | true =>
      constructor
      · intro heq
        obtain ⟨rfl, rfl⟩ := Prod.mk.inj (Option.some.inj heq)
        refine ⟨List.mem_cons_self, hp, ?_⟩
        intro m u hm _ hlt
        rcases List.mem_cons.1 hm with hm | hm
        · obtain ⟨rfl, rfl⟩ := Prod.mk.inj hm
          exact String.lt_irrefl _ hlt
        · exact String.lt_asymm hlt (hx _ hm)
      · rintro ⟨hm, -, hmin⟩
        rcases List.mem_cons.1 hm with hm | hm
        · rw [hm]
        · exact absurd (hx _ hm) (hmin k w List.mem_cons_self hp)
    | false =>
      rw [ih hr]
      constructor
      · rintro ⟨hm, hn, hmin⟩
        refine ⟨List.mem_cons_of_mem _ hm, hn, ?_⟩
        intro m u hm' hpm
        rcases List.mem_cons.1 hm' with heq | hm'
        · obtain ⟨rfl, rfl⟩ := Prod.mk.inj heq
          rw [hp] at hpm
          exact absurd hpm (by decide)
        · exact hmin m u hm' hpm
      · rintro ⟨hm, hn, hmin⟩
        refine ⟨?_, hn, fun m u hm' => hmin m u (List.mem_cons_of_mem _ hm')⟩
        rcases List.mem_cons.1 hm with heq | hm
        · obtain ⟨rfl, rfl⟩ := Prod.mk.inj heq
          rw [hp] at hn
          exact absurd hn (by decide)
        · exact hm

/-- There is no such name exactly if no name of the map has the property. -/
theorem findName?_eq_none_iff {m : NameMap α} {p : String → Bool} :
    m.findName? p = none ↔ ∀ k w, m.get? k = some w → p k = false := by
  simp only [findName?, List.find?_eq_none, Bool.not_eq_true, ← mem_entries_iff]
  exact ⟨fun h k w hk => h (k, w) hk, fun h x hx => h x.1 x.2 hx⟩

/-- An entry that stands behind one of the class does not change which one is first. -/
theorem findName?_eq_of_agree {a b : NameMap α} {p : String → Bool} {n : String}
    (h : ∀ k, k ≠ n → b.get? k = a.get? k)
    (hn : p n = true → ∃ k w, a.get? k = some w ∧ p k = true ∧ k < n) :
    b.findName? p = a.findName? p := by
  cases ha : a.findName? p with
  | none =>
    rw [findName?_eq_none_iff] at ha ⊢
    intro k w hk
    by_cases hkn : k = n
    · subst hkn
      cases hp : p k with
      | false => rfl
      | true =>
        obtain ⟨i, u, hi, hpi, -⟩ := hn hp
        rw [ha i u hi] at hpi
        exact absurd hpi (by decide)
    · exact ha k w (h k hkn ▸ hk)
  | some x =>
    obtain ⟨m, v⟩ := x
    obtain ⟨hm, hpm, hmin⟩ := findName?_eq_some_iff.1 ha
    have hbefore : p n = true → ¬n < m ∧ m ≠ n := by
      intro hp
      obtain ⟨i, u, hi, hpi, hin⟩ := hn hp
      have hmi := hmin i u hi hpi
      refine ⟨fun hlt => hmi (String.lt_trans hin hlt), ?_⟩
      rintro rfl
      exact hmi hin
    have hne : m ≠ n := by
      rintro rfl
      exact (hbefore hpm).2 rfl
    refine findName?_eq_some_iff.2 ⟨by rw [h m hne, hm], hpm, ?_⟩
    intro k w hk hpk
    by_cases hkn : k = n
    · subst hkn
      exact (hbefore hpk).1
    · exact hmin k w (h k hkn ▸ hk) hpk

end NameMap

end CloudEvents
