/-
  Keyed records, name by name.

  The partition key and the data content type leave their headers on the way out and come back to them
  on the way in.  Each move is described by what it leaves under every name; put together, they give the
  headers that the reader sees (`get?_arrived`) and the content mode it sees (`arrivedMode_eq`) in terms
  of the headers that were written.

  The moves do not cancel out for every header map: whatever stood under the names they move to is
  taken for the thing moved.  They do if those names were free (`arrived_eq_self`).
-/
import CloudEvents.Proofs.Wire.Headers
import CloudEvents.Wire.Record

namespace CloudEvents.Wire.Record

/-! ## The names that are moved between -/

theorem contentTypeHeader_ne (b : Binding) : contentTypeHeader ≠ dataContentTypeHeader b := by
  cases b <;> decide

theorem recordKey_ne (b : Binding) : Binding.recordKey ≠ dataContentTypeHeader b := by
  cases b <;> decide

theorem partitionKeyName_ne (b : Binding) : partitionKeyName ≠ dataContentTypeHeader b := by
  cases b <;> decide

/-! ## One move at a time -/

/-- On the way out the partition key takes the place of the record's key. -/
theorem get?_keyOut (e : Event) (h : Headers) (n : String) :
    (keyOut e h).get? n =
      if n = Binding.recordKey then
        ((e.attribute? partitionKeyName).map .text).or (h.get? Binding.recordKey)
      else if n = partitionKeyName then none
      else h.get? n := by
  unfold keyOut
  have hne : partitionKeyName ≠ Binding.recordKey := by decide
  cases e.attribute? partitionKeyName with
  | none =>
    simp only [NameMap.get?_erase, Option.map_none, Option.none_or]
    by_cases hk : n = Binding.recordKey
    · rw [if_pos hk, if_neg (by rw [hk]; exact hne), hk]
    · rw [if_neg hk]
      simp only [eq_comm]
  | some key =>
    simp only [NameMap.get?_insert, NameMap.get?_erase, Option.map_some, Option.some_or, eq_comm]

/-- On the way out the content type of the data takes the place of the message's. -/
theorem get?_contentTypeOut (b : Binding) (h : Headers) (n : String) :
    (contentTypeOut b h).get? n =
      if n = contentTypeHeader then
        (h.get? (dataContentTypeHeader b)).or (h.get? contentTypeHeader)
      else if n = dataContentTypeHeader b then none
      else h.get? n := by
  unfold contentTypeOut
  cases hd : h.get? (dataContentTypeHeader b) with
  | none =>
    simp only [Option.none_or]
    split
    · rename_i hn
      rw [hn]
    · split
      · rename_i hn
        rw [hn, hd]
      · rfl
  | some v =>
    simp only [NameMap.get?_insert, NameMap.get?_erase, Option.some_or, eq_comm]

/-- On the way in the record's key takes the place of the partition key. -/
theorem get?_keyIn (h : Headers) (n : String) :
    (keyIn h).get? n =
      if n = partitionKeyName then
        ((h.get? Binding.recordKey).map fun v => .text v.display).or (h.get? partitionKeyName)
      else if n = Binding.recordKey then none
      else h.get? n := by
  unfold keyIn
  cases hk : h.get? Binding.recordKey with
  | none =>
    simp only [Option.map_none, Option.none_or]
    split
    · rename_i hn
      rw [hn]
    · split
      · rename_i hn
        rw [hn, hk]
      · rfl
  | some v =>
    simp only [NameMap.get?_insert, NameMap.get?_erase, Option.map_some, Option.some_or, eq_comm]

/-! ## Out and in -/

/-- What has the place of the data content type on the way: the header itself, or whatever stands under
the name it is moved to. -/
def carriedContentType (b : Binding) (h : Headers) : Option HeaderValue :=
  (h.get? (dataContentTypeHeader b)).or (h.get? contentTypeHeader)

/-- What has the place of the partition key on the way. -/
def carriedKey (e : Event) (h : Headers) : Option HeaderValue :=
  ((e.attribute? partitionKeyName).map .text).or (h.get? Binding.recordKey)

/-- **The headers of a record**: four names are moved between, every other one keeps its header. -/
theorem get?_outgoing (b : Binding) (e : Event) (h : Headers) (n : String) :
    (outgoing b e h).get? n =
      if n = contentTypeHeader then carriedContentType b h
      else if n = Binding.recordKey then carriedKey e h
      else if n = partitionKeyName ∨ n = dataContentTypeHeader b then none
      else h.get? n := by
  have h1 := recordKey_ne b
  have h2 := partitionKeyName_ne b
  have h3 : partitionKeyName ≠ contentTypeHeader := by decide
  have h4 : Binding.recordKey ≠ contentTypeHeader := by decide
  have h5 : Binding.recordKey ≠ partitionKeyName := by decide
  unfold outgoing carriedContentType carriedKey
  rw [get?_contentTypeOut]
  simp only [get?_keyOut]
  grind

/-- A name that no header of a record is moved from or to. -/
def IsFixed (b : Binding) (n : String) : Prop :=
  n ≠ contentTypeHeader ∧ n ≠ Binding.recordKey ∧ n ≠ partitionKeyName ∧ n ≠ dataContentTypeHeader b

/-- A header that is not moved is sent as it is. -/
theorem get?_outgoing_of_isFixed {b : Binding} {e : Event} {h : Headers} {n : String}
    (hn : IsFixed b n) : (outgoing b e h).get? n = h.get? n := by
  rw [get?_outgoing, if_neg hn.1, if_neg hn.2.1, if_neg (not_or.2 hn.2.2)]

/-- A header that is not moved may be set before the others are, or after. -/
theorem outgoing_insert {b : Binding} {e : Event} {h : Headers} {n : String} {v : HeaderValue}
    (hn : IsFixed b n) : outgoing b e (h.insert n v) = (outgoing b e h).insert n v := by
  obtain ⟨h1, h2, h3, h4⟩ := hn
  refine NameMap.ext_get? fun k => ?_
  rw [NameMap.get?_insert]
  simp only [get?_outgoing, carriedContentType, carriedKey, NameMap.get?_insert]
  grind

theorem isFixed_headerName (b : Binding) {w : WellKnown} (hw : w ≠ .datacontenttype) :
    IsFixed b (b.headerName w.name) := by
  unfold IsFixed
  cases b <;> cases w <;> first | exact absurd rfl hw | decide

theorem get?_outgoing_contentTypeHeader (b : Binding) (e : Event) (h : Headers) :
    (outgoing b e h).get? contentTypeHeader = carriedContentType b h := by
  rw [get?_outgoing, if_pos rfl]

/-- **The headers at the other end**, before the content type is looked at. -/
theorem get?_keyIn_outgoing (b : Binding) (e : Event) (h : Headers) (n : String) :
    (keyIn (outgoing b e h)).get? n =
      if n = contentTypeHeader then carriedContentType b h
      else if n = partitionKeyName then (carriedKey e h).map fun v => .text v.display
      else if n = Binding.recordKey ∨ n = dataContentTypeHeader b then none
      else h.get? n := by
  have hkey : (outgoing b e h).get? Binding.recordKey = carriedKey e h := by
    rw [get?_outgoing, if_neg (by decide), if_pos rfl]
  have hpk : (outgoing b e h).get? partitionKeyName = none := by
    rw [get?_outgoing, if_neg (by decide), if_neg (by decide), if_pos (Or.inl rfl)]
  rw [get?_keyIn, hkey, hpk, Option.or_none]
  by_cases hct : n = contentTypeHeader
  · subst hct
    rw [if_neg (by decide), if_neg (by decide), if_pos rfl, get?_outgoing_contentTypeHeader]
  · rw [if_neg hct]
    by_cases hp : n = partitionKeyName
    · rw [if_pos hp, if_pos hp]
    · rw [if_neg hp, if_neg hp]
      by_cases hk : n = Binding.recordKey
      · rw [if_pos hk, if_pos (Or.inl hk)]
      · rw [if_neg hk, get?_outgoing, if_neg hct, if_neg hk]
        simp only [hk, hp, false_or]

/-- The content type at the other end decides on the mode, and in binary mode goes back to the data. -/
theorem incoming_eq (b : Binding) (h : Headers) :
    incoming b h =
      match ((keyIn h).get? contentTypeHeader).map HeaderValue.display with
      | none => (keyIn h, .ok .binary)
      | some contentType =>
        match modeOf contentType with
        | .error err => (keyIn h, .error err)
        | .ok .structured => (keyIn h, .ok .structured)
        | .ok .binary =>
          (((keyIn h).erase contentTypeHeader).insert (dataContentTypeHeader b) (.text contentType),
            .ok .binary) :=
  rfl

/-- But for the content type, the headers of a record are those with its key moved. -/
theorem get?_incoming {b : Binding} {h : Headers} {n : String} (hm : (incoming b h).2 = .ok .binary)
    (hct : n ≠ contentTypeHeader) (hdata : n ≠ dataContentTypeHeader b) :
    (incoming b h).1.get? n = (keyIn h).get? n := by
  rw [incoming_eq] at hm ⊢
  cases hc : ((keyIn h).get? contentTypeHeader).map HeaderValue.display with
  | none => rfl
  | some contentType =>
    rw [hc] at hm
    cases hmode : modeOf contentType with
    | error err => simp [hmode] at hm
    | ok mode =>
      cases mode with
      | structured => simp [hmode] at hm
      | binary =>
        simp only [hmode]
        rw [NameMap.get?_insert_of_ne _ _ hdata.symm, NameMap.get?_erase, if_neg hct.symm]

/-- **The content mode at the other end** is that of the carried content type. -/
theorem arrivedMode_eq (b : Binding) (e : Event) (h : Headers) :
    (incoming b (outgoing b e h)).2 =
      match carriedContentType b h with
      | none => .ok .binary
      | some v => modeOf v.display := by
  rw [incoming_eq, get?_keyIn_outgoing, if_pos rfl]
  cases carriedContentType b h with
  | none => rfl
  | some v =>
    simp only [Option.map_some]
    cases modeOf v.display with
    | error err => rfl
    | ok mode => cases mode <;> rfl

/-- **The headers at the other end**, for a message in binary mode. -/
theorem get?_arrived {b : Binding} {e : Event} {h : Headers}
    (hm : (incoming b (outgoing b e h)).2 = .ok .binary) (n : String) :
    (incoming b (outgoing b e h)).1.get? n =
      if n = dataContentTypeHeader b then (carriedContentType b h).map fun v => .text v.display
      else if n = partitionKeyName then (carriedKey e h).map fun v => .text v.display
      else if n = Binding.recordKey ∨ n = contentTypeHeader then none
      else h.get? n := by
  have hin := get?_keyIn_outgoing b e h
  have hct : (keyIn (outgoing b e h)).get? contentTypeHeader = carriedContentType b h := by
    rw [hin, if_pos rfl]
  rw [arrivedMode_eq] at hm
  rw [incoming_eq, hct]
  cases hc : carriedContentType b h with
  | none =>
    -- No content type at all: only the key is moved.
    rw [hc] at hin
    simp only [Option.map_none, hin]
    have h1 := contentTypeHeader_ne b
    have h2 := partitionKeyName_ne b
    have h3 : partitionKeyName ≠ contentTypeHeader := by decide
    grind
  | some v =>
    -- The content type is moved back after the key; neither is under the name of the other.
    rw [hc] at hm hin
    simp only at hm
    simp only [Option.map_some, hm, NameMap.get?_insert, NameMap.get?_erase, hin]
    have h1 := contentTypeHeader_ne b
    have h2 := partitionKeyName_ne b
    have h3 : partitionKeyName ≠ contentTypeHeader := by decide
    grind

/-- **The moves cancel out** where nothing stands under the names that are moved to, and every header is
a text. -/
theorem arrived_eq_self {b : Binding} {e : Event} {h : Headers}
    (hm : (incoming b (outgoing b e h)).2 = .ok .binary)
    (htext : ∀ n v, h.get? n = some v → HeaderValue.text v.display = v)
    (hct : h.get? contentTypeHeader = none) (hk : h.get? Binding.recordKey = none)
    (hp : h.get? partitionKeyName = (e.attribute? partitionKeyName).map .text) :
    (incoming b (outgoing b e h)).1 = h := by
  have hsame : ∀ n, ((h.get? n).map fun v => HeaderValue.text v.display) = h.get? n := by
    intro n
    cases hg : h.get? n with
    | none => rfl
    | some v => exact congrArg some (htext n v hg)
  have hcarried : carriedContentType b h = h.get? (dataContentTypeHeader b) := by
    rw [carriedContentType, hct, Option.or_none]
  have hkey : carriedKey e h = h.get? partitionKeyName := by
    rw [carriedKey, hk, Option.or_none, hp]
  refine NameMap.ext_get? fun n => ?_
  rw [get?_arrived hm, hcarried, hkey, hsame, hsame]
  split
  · rename_i hn
    rw [hn]
  · split
    · rename_i hn
      rw [hn]
    · split
      · -- The names that are moved from are empty at the end, as they were at the start.
        rename_i hn
        rcases hn with rfl | rfl
        · exact hk.symm
        · exact hct.symm
      · rfl

end CloudEvents.Wire.Record
