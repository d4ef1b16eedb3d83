/-
  The grammar of JSON texts, and that the scanner reads exactly what it derives.

  `Spells` derives the texts of values, of the contents of arrays and of those of objects, each with the
  parts it has.  The scanner cuts a derivable text off the front of whatever it stands in front of
  (`reads_of_spells`), and it cuts off nothing else (`spells_of_valueParts`).  So what was recognised once
  is recognised again in any place, which is why data can be carried inside an envelope as it is written.

  The scanner returns cuts, whose types hold the text they are cuts of.  The first section forgets these
  types and says what each function does with the front and the rest of a text.
-/
import CloudEvents.Proofs.Json.Spelling

namespace CloudEvents.Json

/-! ## The scanner, step by step -/

/-- The text that is cut off the front of a text as a value, and the rest. -/
def valueParts (s : List Char) : Option (List Char × List Char) :=
  (value? s).map fun c => (c.front, c.rest)

/-- The items that are cut off the front of a text, their text, and the rest. -/
def itemsParts (s : List Char) : Option (List (List Char) × List Char × List Char) :=
  (items? s).map fun p => (p.2, p.1.front, p.1.rest)

/-- The members that are cut off the front of a text, their text, and the rest. -/
def membersParts (s : List Char) : Option (List Member × List Char × List Char) :=
  (members? s).map fun p => (p.2, p.1.front, p.1.rest)

/-- The name that is cut off the front of a text, its text up to the value, and the rest. -/
def nameParts (s : List Char) : Option (List Char × List Char × List Char) :=
  (memberName? s).map fun p => (p.1, p.2.front, p.2.rest)

/-- A value that opens with a bracket is an array, without items or with some. -/
theorem valueParts_array (t : List Char) :
    valueParts ('[' :: t) =
      match skipGap t with
      | ']' :: r => some ('[' :: (gap t ++ [']']), r)
      | u => (itemsParts u).map fun p => ('[' :: (gap t ++ p.2.1), p.2.2) := by
  rw [valueParts, value?]
  split
  · rename_i r hg
    simp only [hg]
    rfl
  · rename_i hu
    split
    · rename_i hg
      exact absurd hg (hu _)
    · rw [Option.map_map, itemsParts, Option.map_map]
      rfl

/-- A value that opens with a brace is an object, without members or with some. -/
theorem valueParts_object (t : List Char) :
    valueParts ('{' :: t) =
      match skipGap t with
      | '}' :: r => some ('{' :: (gap t ++ ['}']), r)
      | u => (membersParts u).map fun p => ('{' :: (gap t ++ p.2.1), p.2.2) := by
  rw [valueParts, value?]
  split
  · rename_i r hg
    simp only [hg]
    rfl
  · rename_i hu
    split
    · rename_i hg
      exact absurd hg (hu _)
    · rw [Option.map_map, membersParts, Option.map_map]
      rfl

/-- Items are a value, and then the end of the array or a comma and further items. -/
theorem itemsParts_eq (s : List Char) :
    itemsParts s =
      (valueParts s).bind fun v =>
        match skipGap v.2 with
        | ']' :: r => some ([v.1], v.1 ++ (gap v.2 ++ [']']), r)
        | ',' :: t =>
          (itemsParts (skipGap t)).map fun p =>
            (v.1 :: p.1, v.1 ++ (gap v.2 ++ [','] ++ (gap t ++ p.2.1)), p.2.2)
        | _ => none := by
  rw [itemsParts, items?, valueParts]
  cases hv : value? s with
  | none => rfl
  | some v =>
    simp only [Option.map_some, Option.bind_some]
    split
    · rename_i hg
      simp only [hg]
      rfl
    · rename_i hg
      simp only [hg, itemsParts, Option.map_map]
      rfl
    · rename_i h1 h2
      split
      · rename_i hg
        exact absurd hg (h1 _)
      · rename_i hg
        exact absurd hg (h2 _)
      · rfl

/-- A member starts with a literal and a colon. -/
theorem nameParts_eq (s : List Char) :
    nameParts ('"' :: s) =
      (closing? s).bind fun p =>
        match skipGap p.2 with
        | ':' :: r => some (p.1, '"' :: (p.1 ++ ['"']) ++ (gap p.2 ++ [':'] ++ gap r), skipGap r)
        | _ => none := by
  rw [nameParts, memberName?]
  split
  · rename_i hc
    rw [hc]
    rfl
  · rename_i name t hc
    simp only [hc, Option.bind_some]
    split
    · rename_i hg
      simp only [hg]
      rfl
    · rename_i h1
      split
      · rename_i hg
        exact absurd hg (h1 _)
      · rfl

/-- Members are a name and a value, and then the end of the object or a comma and further members. -/
theorem membersParts_eq (s : List Char) :
    membersParts s =
      (nameParts s).bind fun n =>
        (valueParts n.2.2).bind fun v =>
          match skipGap v.2 with
          | '}' :: r => some ([⟨n.1, v.1⟩], n.2.1 ++ (v.1 ++ (gap v.2 ++ ['}'])), r)
          | ',' :: t =>
            (membersParts (skipGap t)).map fun p =>
              (⟨n.1, v.1⟩ :: p.1, n.2.1 ++ (v.1 ++ (gap v.2 ++ [','] ++ (gap t ++ p.2.1))), p.2.2)
          | _ => none := by
  rw [membersParts, members?, nameParts]
  cases hn : memberName? s with
  | none => rfl
  | some n =>
    obtain ⟨name, c⟩ := n
    simp only [Option.map_some, Option.bind_some, valueParts]
    cases hv : value? c.rest with
    | none => rfl
    | some v =>
      simp only [Option.map_some, Option.bind_some]
      split
      · rename_i hg
        simp only [hg]
        rfl
      · rename_i hg
        simp only [hg, membersParts, Option.map_map]
        rfl
      · rename_i h1 h2
        split
        · rename_i hg
          exact absurd hg (h1 _)
        · rename_i hg
          exact absurd hg (h2 _)
        · rfl

/-- What starts with neither bracket nor brace is a literal, a number or a word. -/
theorem valueParts_of_scalar {s : List Char} (ha : ∀ t, s ≠ '[' :: t) (ho : ∀ t, s ≠ '{' :: t) :
    valueParts s = (scalar? s).map fun c => (c.front, c.rest) := by
  rw [valueParts, value?]
  · exact fun t ht => ha t ht
  · exact fun t ht => ho t ht

/-! ## The grammar -/

/-- A text of gap characters only. -/
def IsGap (g : List Char) : Prop := ∀ c ∈ g, isGap c = true

instance (g : List Char) : Decidable (IsGap g) := List.decidableBAll (fun c => isGap c = true) g

/-- The text of a member in front of its value. -/
def leadText (name k k' : List Char) : List Char := '"' :: (name ++ ['"']) ++ (k ++ [':'] ++ k')

/-- What a derivation derives. -/
inductive Part where
  | value
  /-- The contents of an array and its closing bracket. -/
  | items (xs : List (List Char))
  /-- The contents of an object and its closing brace. -/
  | members (ms : List Member)

/-- The texts of JSON values, and of the contents of containers that are open. -/
inductive Spells : Part → List Char → Prop where
  | literal {body : List Char} (h : IsBody body) : Spells .value ('"' :: (body ++ ['"']))
  | trueWord : Spells .value ['t', 'r', 'u', 'e']
  | falseWord : Spells .value ['f', 'a', 'l', 's', 'e']
  | nullWord : Spells .value ['n', 'u', 'l', 'l']
  | number {n : Numeral} (h : n.IsSpelled) : Spells .value n.text
  | emptyArray {g : List Char} (hg : IsGap g) : Spells .value ('[' :: (g ++ [']']))
  | array {g t : List Char} {xs : List (List Char)} (hg : IsGap g) (h : Spells (.items xs) t) :
    Spells .value ('[' :: (g ++ t))
  | emptyObject {g : List Char} (hg : IsGap g) : Spells .value ('{' :: (g ++ ['}']))
  | object {g t : List Char} {ms : List Member} (hg : IsGap g) (h : Spells (.members ms) t) :
    Spells .value ('{' :: (g ++ t))
  | lastItem {v g : List Char} (hv : Spells .value v) (hg : IsGap g) :
    Spells (.items [v]) (v ++ (g ++ [']']))
  | item {v g g' t : List Char} {xs : List (List Char)} (hv : Spells .value v) (hg : IsGap g)
    (hg' : IsGap g') (h : Spells (.items xs) t) :
    Spells (.items (v :: xs)) (v ++ (g ++ [','] ++ (g' ++ t)))
  | lastMember {name k k' v g : List Char} (hn : IsBody name) (hk : IsGap k) (hk' : IsGap k')
    (hv : Spells .value v) (hg : IsGap g) :
    Spells (.members [⟨name, v⟩]) (leadText name k k' ++ (v ++ (g ++ ['}'])))
  | member {name k k' v g g' t : List Char} {ms : List Member} (hn : IsBody name) (hk : IsGap k)
    (hk' : IsGap k') (hv : Spells .value v) (hg : IsGap g) (hg' : IsGap g') (h : Spells (.members ms) t) :
    Spells (.members (⟨name, v⟩ :: ms))
      (leadText name k k' ++ (v ++ (g ++ [','] ++ (g' ++ t))))

/-! ## Gaps -/

theorem isGap_gap (s : List Char) : IsGap (gap s) :=
  fun c hc => List.all_eq_true.1 List.all_takeWhile c hc

/-- Whitespace ends where something else starts. -/
theorem gap_append {g u : List Char} (hg : IsGap g) (hu : Stops isGap u) :
    gap (g ++ u) = g ∧ skipGap (g ++ u) = u :=
  takeWhile_append_stops hg hu

/-- A gap ends where something else stands. -/
theorem gap_append_cons {g r : List Char} {c : Char} (hg : IsGap g) (hc : isGap c = false) :
    gap (g ++ c :: r) = g ∧ skipGap (g ++ c :: r) = c :: r :=
  gap_append hg (stops_cons.2 hc)

theorem eq_of_isGap {c : Char} (h : isGap c = true) : c = ' ' ∨ c = '\t' ∨ c = '\n' ∨ c = '\r' := by
  simpa [isGap, or_assoc] using h

/-- What ends a part of a container does not go on with a number, and neither does a gap. -/
theorem stops_gap_append {g r : List Char} {c : Char} (hg : IsGap g) (hc : continues c = false) :
    Stops continues (g ++ [c] ++ r) := by
  cases g with
  | nil => exact stops_cons.2 hc
  | cons d g =>
    refine stops_cons.2 ?_
    rcases eq_of_isGap (hg d List.mem_cons_self) with rfl | rfl | rfl | rfl <;> decide

/-- The characters that a value can start with, among others. -/
def opens (c : Char) : Bool := !isGap c && c != ']' && c != '}'

theorem Numeral.IsSpelled.text_eq_cons {n : Numeral} (h : n.IsSpelled) :
    ∃ c t, n.text = c :: t ∧ (c = '-' ∨ c.isDigit = true) := by
  obtain ⟨neg, whole, fraction, exponent⟩ := n
  obtain ⟨⟨hne, hds⟩, -, -, -⟩ := h
  cases neg with
  | true => exact ⟨'-', _, rfl, .inl rfl⟩
  | false =>
    cases whole with
    | nil => exact absurd rfl hne
    | cons d ds => exact ⟨d, _, rfl, .inr (hds d List.mem_cons_self)⟩

/-- A number starts with a minus or a digit. -/
theorem Numeral.IsSpelled.text_ne_cons {n : Numeral} (h : n.IsSpelled) {c : Char} {t : List Char} (hminus : c ≠ '-')
    (hdigit : c.isDigit = false) : n.text ≠ c :: t := by
  obtain ⟨c', t', ht, hc⟩ := h.text_eq_cons
  intro heq
  obtain rfl := (List.cons.inj (ht.symm.trans heq)).1
  rcases hc with hc | hc
  · exact hminus hc
  · exact absurd (hdigit.symm.trans hc) (by decide)

theorem opens_of_isDigit {c : Char} (h : c.isDigit = true) : opens c = true := by
  unfold opens
  have hgap : isGap c = false := by
    cases hg : isGap c with
    | false => rfl
    | true => rcases eq_of_isGap hg with rfl | rfl | rfl | rfl <;> exact absurd h (by decide)
  have harray : c ≠ ']' := by
    rintro rfl
    exact absurd h (by decide)
  have hobject : c ≠ '}' := by
    rintro rfl
    exact absurd h (by decide)
  simp [hgap, harray, hobject]

/-- No part starts with a gap, or with the end of a container. -/
theorem Spells.opens_head {p : Part} {t : List Char} (h : Spells p t) :
    ∃ c r, t = c :: r ∧ opens c = true := by
  induction h with
  | number h =>
    obtain ⟨c, t, ht, hc⟩ := h.text_eq_cons
    refine ⟨c, t, ht, ?_⟩
    rcases hc with rfl | hc
    · decide
    · exact opens_of_isDigit hc
  | lastItem hv hg ih =>
    obtain ⟨c, r, rfl, hc⟩ := ih
    exact ⟨c, _, rfl, hc⟩
  | item hv hg hg' h ih _ =>
    obtain ⟨c, r, rfl, hc⟩ := ih
    exact ⟨c, _, rfl, hc⟩
  | _ => exact ⟨_, _, rfl, by decide⟩

theorem Spells.stops_isGap {p : Part} {t r : List Char} (h : Spells p t) : Stops isGap (t ++ r) := by
  obtain ⟨c, t', rfl, hc⟩ := h.opens_head
  refine stops_cons.2 ?_
  simp only [opens, Bool.and_eq_true, Bool.not_eq_true'] at hc
  exact hc.1.1

/-- What stands in a container is not taken for its end. -/
theorem Spells.ne_end {p : Part} {t r u : List Char} (h : Spells p t) :
    t ++ r ≠ ']' :: u ∧ t ++ r ≠ '}' :: u := by
  obtain ⟨c, t', rfl, hc⟩ := h.opens_head
  refine ⟨fun heq => ?_, fun heq => ?_⟩
  · rw [(List.cons.inj heq).1] at hc
    exact absurd hc (by decide)
  · rw [(List.cons.inj heq).1] at hc
    exact absurd hc (by decide)

/-! ## What is derived is read -/

/-- A text of a part is cut off the front of every text it stands in front of, with the parts it has.
Behind a value nothing may stand that goes on with a number. -/
def Reads (t : List Char) : Part → Prop
  | .value => ∀ r, Stops continues r → valueParts (t ++ r) = some (t, r)
  | .items xs => ∀ r, itemsParts (t ++ r) = some (xs, t, r)
  | .members ms => ∀ r, membersParts (t ++ r) = some (ms, t, r)

/-- A literal is read as it is spelled. -/
theorem reads_literal {body : List Char} (h : IsBody body) : Reads ('"' :: (body ++ ['"'])) .value := by
  intro r _
  have hc := h r
  show valueParts ('"' :: (body ++ ['"'] ++ r)) = _
  rw [List.append_assoc]
  show valueParts ('"' :: (body ++ '"' :: r)) = _
  rw [valueParts_of_scalar (fun t ht => absurd ht (by simp)) fun t ht => absurd ht (by simp), scalar?]
  split
  · rename_i body' rest hc'
    rw [hc] at hc'
    obtain ⟨rfl, rfl⟩ := Prod.mk.inj (Option.some.inj hc')
    rfl
  · rename_i hc'
    rw [hc] at hc'
    exact absurd hc' (by simp)

/-- A number is read as it is spelled, as far as nothing that would continue it follows. -/
theorem reads_number {n : Numeral} (h : n.IsSpelled) : Reads n.text .value := by
  intro r hr
  have hread := numeral?_text h hr
  obtain ⟨c, t, ht, -⟩ := h.text_eq_cons
  -- The first character is a minus sign or a digit, so no other form of value is tried.
  have hne : ∀ d u, d.isDigit = false → d ≠ '-' → n.text ++ r ≠ d :: u := by
    intro d u hd hminus heq
    rw [ht] at heq
    exact h.text_ne_cons hminus hd ((List.cons.inj heq).1 ▸ ht)
  rw [valueParts_of_scalar (fun u => hne _ u (by decide) (by decide))
    fun u => hne _ u (by decide) (by decide), scalar?]
  · split
    · rename_i n' rest hn'
      rw [hread] at hn'
      obtain ⟨rfl, rfl⟩ := Prod.mk.inj (Option.some.inj hn')
      rfl
    · rename_i hn'
      rw [hread] at hn'
      exact absurd hn' (by simp)
  · exact fun u => hne _ u (by decide) (by decide)
  · exact fun u => hne _ _ (by decide) (by decide)
  · exact fun u => hne _ _ (by decide) (by decide)
  · exact fun u => hne _ _ (by decide) (by decide)

/-- Each of the three words is read as it is spelled. -/
theorem reads_word {w : List Char} (h : w = ['t', 'r', 'u', 'e'] ∨ w = ['f', 'a', 'l', 's', 'e'] ∨
    w = ['n', 'u', 'l', 'l']) : Reads w .value := by
  intro r _
  rcases h with rfl | rfl | rfl
  · show valueParts ('t' :: 'r' :: 'u' :: 'e' :: r) = _
    rw [valueParts_of_scalar (fun t ht => absurd ht (by simp)) fun t ht => absurd ht (by simp), scalar?]
    rfl
  · show valueParts ('f' :: 'a' :: 'l' :: 's' :: 'e' :: r) = _
    rw [valueParts_of_scalar (fun t ht => absurd ht (by simp)) fun t ht => absurd ht (by simp), scalar?]
    rfl
  · show valueParts ('n' :: 'u' :: 'l' :: 'l' :: r) = _
    rw [valueParts_of_scalar (fun t ht => absurd ht (by simp)) fun t ht => absurd ht (by simp), scalar?]
    rfl

/-- A name is read back with the whitespace around its colon. -/
theorem nameParts_lead {name k k' u : List Char} (hn : IsBody name) (hk : IsGap k) (hk' : IsGap k')
    (hu : Stops isGap u) : nameParts (leadText name k k' ++ u) = some (name, leadText name k k', u) := by
  obtain ⟨hgap, hskip⟩ := gap_append_cons (r := k' ++ u) hk (c := ':') (by decide)
  obtain ⟨hgap', hskip'⟩ := gap_append hk' hu
  have hc := hn (k ++ ':' :: (k' ++ u))
  have heq : leadText name k k' ++ u = '"' :: (name ++ '"' :: (k ++ ':' :: (k' ++ u))) := by
    simp [leadText]
  rw [heq, nameParts_eq, hc]
  simp only [Option.bind_some, hskip, hgap, hskip', hgap']
  rfl

section Containers

variable {g g' t v name k k' : List Char} {xs : List (List Char)} {ms : List Member}

theorem reads_emptyArray (hg : IsGap g) : Reads ('[' :: (g ++ [']'])) .value := by
  intro r _
  obtain ⟨hgap, hskip⟩ := gap_append_cons (r := r) hg (c := ']') (by decide)
  rw [List.cons_append, List.append_assoc, List.singleton_append, valueParts_array]
  simp only [hskip, hgap]

/-- An array is read if its items are. -/
theorem reads_array (hg : IsGap g) (h : Spells (.items xs) t) (hr : Reads t (.items xs)) :
    Reads ('[' :: (g ++ t)) .value := by
  intro r _
  obtain ⟨hgap, hskip⟩ := gap_append hg (h.stops_isGap (r := r))
  rw [List.cons_append, List.append_assoc, valueParts_array, hskip, hgap]
  split
  · rename_i heq
    exact absurd heq h.ne_end.1
  · rw [hr r]
    rfl

theorem reads_emptyObject (hg : IsGap g) : Reads ('{' :: (g ++ ['}'])) .value := by
  intro r _
  obtain ⟨hgap, hskip⟩ := gap_append_cons (r := r) hg (c := '}') (by decide)
  rw [List.cons_append, List.append_assoc, List.singleton_append, valueParts_object]
  simp only [hskip, hgap]

/-- An object is read if its members are. -/
theorem reads_object (hg : IsGap g) (h : Spells (.members ms) t) (hr : Reads t (.members ms)) :
    Reads ('{' :: (g ++ t)) .value := by
  intro r _
  obtain ⟨hgap, hskip⟩ := gap_append hg (h.stops_isGap (r := r))
  rw [List.cons_append, List.append_assoc, valueParts_object, hskip, hgap]
  split
  · rename_i heq
    exact absurd heq h.ne_end.2
  · rw [hr r]
    rfl

theorem reads_lastItem (hv : Reads v .value) (hg : IsGap g) :
    Reads (v ++ (g ++ [']'])) (.items [v]) := by
  intro r
  obtain ⟨hgap, hskip⟩ := gap_append_cons (r := r) hg (c := ']') (by decide)
  have hread := hv (g ++ [']'] ++ r) (stops_gap_append hg (by decide))
  simp only [List.append_assoc, List.cons_append, List.nil_append] at hread ⊢
  rw [itemsParts_eq, hread]
  simp only [Option.bind_some, hskip, hgap]

theorem reads_item (hv : Reads v .value) (hg : IsGap g) (hg' : IsGap g') (h : Spells (.items xs) t)
    (hr : Reads t (.items xs)) : Reads (v ++ (g ++ [','] ++ (g' ++ t))) (.items (v :: xs)) := by
  intro r
  obtain ⟨hgap, hskip⟩ := gap_append_cons (r := g' ++ (t ++ r)) hg (c := ',') (by decide)
  obtain ⟨hgap', hskip'⟩ := gap_append hg' (h.stops_isGap (r := r))
  have hread := hv (g ++ [','] ++ (g' ++ (t ++ r))) (stops_gap_append hg (by decide))
  simp only [List.append_assoc, List.cons_append, List.nil_append] at hread ⊢
  rw [itemsParts_eq, hread]
  simp only [Option.bind_some, hskip, hgap, hskip', hgap', hr r, Option.map_some, List.append_assoc,
    List.cons_append, List.nil_append]

theorem reads_lastMember (hn : IsBody name) (hk : IsGap k) (hk' : IsGap k') (h : Spells .value v)
    (hv : Reads v .value) (hg : IsGap g) :
    Reads (leadText name k k' ++ (v ++ (g ++ ['}']))) (.members [⟨name, v⟩]) := by
  intro r
  obtain ⟨hgap, hskip⟩ := gap_append_cons (r := r) hg (c := '}') (by decide)
  have hread := hv (g ++ ['}'] ++ r) (stops_gap_append hg (by decide))
  have hname := nameParts_lead hn hk hk' (h.stops_isGap (r := g ++ ['}'] ++ r))
  simp only [List.append_assoc, List.cons_append, List.nil_append] at hread hname
  rw [List.append_assoc, List.append_assoc, List.append_assoc, List.singleton_append, membersParts_eq, hname]
  simp only [Option.bind_some, hread, hskip, hgap]

theorem reads_member (hn : IsBody name) (hk : IsGap k) (hk' : IsGap k') (hsv : Spells .value v)
    (hv : Reads v .value) (hg : IsGap g) (hg' : IsGap g') (h : Spells (.members ms) t)
    (hr : Reads t (.members ms)) :
    Reads (leadText name k k' ++ (v ++ (g ++ [','] ++ (g' ++ t)))) (.members (⟨name, v⟩ :: ms)) := by
  intro r
  obtain ⟨hgap, hskip⟩ := gap_append_cons (r := g' ++ (t ++ r)) hg (c := ',') (by decide)
  obtain ⟨hgap', hskip'⟩ := gap_append hg' (h.stops_isGap (r := r))
  have hread := hv (g ++ [','] ++ (g' ++ (t ++ r))) (stops_gap_append hg (by decide))
  have hname := nameParts_lead hn hk hk' (hsv.stops_isGap (r := g ++ [','] ++ (g' ++ (t ++ r))))
  simp only [List.append_assoc, List.cons_append, List.nil_append] at hread hname ⊢
  rw [membersParts_eq, hname]
  simp only [Option.bind_some, hread, hskip, hgap, hskip', hgap', hr r, Option.map_some,
    List.append_assoc, List.cons_append, List.nil_append]

end Containers

/-- **What the grammar derives, the scanner reads.** -/
theorem reads_of_spells {p : Part} {t : List Char} (h : Spells p t) : Reads t p := by
  induction h with
  | literal h => exact reads_literal h
  | trueWord => exact reads_word (.inl rfl)
  | falseWord => exact reads_word (.inr (.inl rfl))
  | nullWord => exact reads_word (.inr (.inr rfl))
  | number h => exact reads_number h
  | emptyArray hg => exact reads_emptyArray hg
  | array hg h ih => exact reads_array hg h ih
  | emptyObject hg => exact reads_emptyObject hg
  | object hg h ih => exact reads_object hg h ih
  | lastItem _ hg ih => exact reads_lastItem ih hg
  | item _ hg hg' h ihv ih => exact reads_item ihv hg hg' h ih
  | lastMember hn hk hk' hv hg ih => exact reads_lastMember hn hk hk' hv ih hg
  | member hn hk hk' hv hg hg' h ihv ih => exact reads_member hn hk hk' hv ihv hg hg' h ih

/-! ## What is read is derived -/

/-- A value is cut off the front of the text, and what is left is shorter. -/
theorem valueParts_eq_some {s v r : List Char} (h : valueParts s = some (v, r)) :
    s = v ++ r ∧ r.length < s.length := by
  obtain ⟨c, -, heq⟩ := Option.map_eq_some_iff.1 h
  obtain ⟨rfl, rfl⟩ := Prod.mk.inj heq
  exact ⟨c.eq, c.rest_length⟩

/-- A name is cut off the front of the text up to its value, and what is left is shorter. -/
theorem nameParts_eq_some {s name t r : List Char} (h : nameParts s = some (name, t, r)) :
    r.length < s.length ∧ ∃ k k', t = leadText name k k' ∧ IsBody name ∧ IsGap k ∧ IsGap k' := by
  have hlen : r.length < s.length := by
    obtain ⟨p, -, heq⟩ := Option.map_eq_some_iff.1 h
    obtain ⟨-, heq⟩ := Prod.mk.inj heq
    rw [← (Prod.mk.inj heq).2]
    exact p.2.rest_length
  refine ⟨hlen, ?_⟩
  cases s with
  | nil => exact absurd h (by simp [nameParts, memberName?])
  | cons c s =>
    by_cases hc : c = '"'
    · subst hc
      rw [nameParts_eq, Option.bind_eq_some_iff] at h
      obtain ⟨p, hp, h⟩ := h
      split at h
      · obtain ⟨rfl, heq⟩ := Prod.mk.inj (Option.some.inj h)
        obtain ⟨rfl, -⟩ := Prod.mk.inj heq
        exact ⟨_, _, rfl, isBody_of_closing? hp, isGap_gap _, isGap_gap _⟩
      · exact absurd h (by simp)
    · rw [nameParts, memberName?] at h
      · exact absurd h (by simp)
      · exact fun t ht => hc (List.cons.inj ht).1

/-- What is read as a value that holds no others is spelled like one. -/
theorem spells_of_scalar? {s : List Char} {c : Cut s} (h : scalar? s = some c) : Spells .value c.front := by
  unfold scalar? at h
  split at h
  · split at h
    · rename_i hc
      rw [← Option.some.inj h]
      exact .literal (isBody_of_closing? hc)
    · exact absurd h (by simp)
  · rw [← Option.some.inj h]
    exact .trueWord
  · rw [← Option.some.inj h]
    exact .falseWord
  · rw [← Option.some.inj h]
    exact .nullWord
  · split at h
    · rename_i hn
      rw [← Option.some.inj h]
      exact .number (isSpelled_of_numeral? hn)
    · exact absurd h (by simp)

/-- What is cut off a text that is shorter than a bound is derived by the grammar. -/
structure SpellsBelow (k : Nat) : Prop where
  value : ∀ {s v r : List Char}, s.length < k → valueParts s = some (v, r) → Spells .value v
  items : ∀ {s t r : List Char} {xs : List (List Char)}, s.length < k →
    itemsParts s = some (xs, t, r) → Spells (.items xs) t
  members : ∀ {s t r : List Char} {ms : List Member}, s.length < k →
    membersParts s = some (ms, t, r) → Spells (.members ms) t

section Below

variable {k : Nat} {s t v r : List Char} {xs : List (List Char)} {ms : List Member}

/-- What stands behind a bracket or a brace is shorter. -/
theorem SpellsBelow.value_succ (ih : SpellsBelow k) (hs : s.length < k + 1)
    (h : valueParts s = some (v, r)) : Spells .value v := by
  -- An array, an object or anything else: only the first two hold values that the bound is needed for.
  by_cases ha : ∃ t, s = '[' :: t
  · obtain ⟨t, rfl⟩ := ha
    have hlen := length_skipGap_le t
    rw [List.length_cons] at hs
    rw [valueParts_array] at h
    split at h
    · obtain ⟨rfl, -⟩ := Prod.mk.inj (Option.some.inj h)
      exact .emptyArray (isGap_gap t)
    · obtain ⟨⟨xs, t', r'⟩, hp, heq⟩ := Option.map_eq_some_iff.1 h
      obtain ⟨rfl, -⟩ := Prod.mk.inj heq
      exact .array (isGap_gap t) (ih.items (by omega) hp)
  by_cases ho : ∃ t, s = '{' :: t
  · obtain ⟨t, rfl⟩ := ho
    have hlen := length_skipGap_le t
    rw [List.length_cons] at hs
    rw [valueParts_object] at h
    split at h
    · obtain ⟨rfl, -⟩ := Prod.mk.inj (Option.some.inj h)
      exact .emptyObject (isGap_gap t)
    · obtain ⟨⟨ms, t', r'⟩, hp, heq⟩ := Option.map_eq_some_iff.1 h
      obtain ⟨rfl, -⟩ := Prod.mk.inj heq
      exact .object (isGap_gap t) (ih.members (by omega) hp)
  rw [valueParts_of_scalar (fun t ht => ha ⟨t, ht⟩) fun t ht => ho ⟨t, ht⟩] at h
  obtain ⟨c, hc, heq⟩ := Option.map_eq_some_iff.1 h
  obtain ⟨rfl, -⟩ := Prod.mk.inj heq
  exact spells_of_scalar? hc

/-- A first item is as long as what it is read from, and what stands behind it is shorter. -/
theorem SpellsBelow.items_succ (ih : SpellsBelow k) (hs : s.length < k + 1)
    (h : itemsParts s = some (xs, t, r)) : Spells (.items xs) t := by
  rw [itemsParts_eq, Option.bind_eq_some_iff] at h
  obtain ⟨⟨v, u⟩, hv, h⟩ := h
  obtain ⟨-, hu⟩ := valueParts_eq_some hv
  have hval := ih.value_succ hs hv
  have hgap := length_skipGap_le u
  split at h
  · -- A closing bracket: the item was the last one.
    obtain ⟨rfl, heq⟩ := Prod.mk.inj (Option.some.inj h)
    obtain ⟨rfl, -⟩ := Prod.mk.inj heq
    exact .lastItem hval (isGap_gap u)
  · -- A comma: further items are read from what is behind it, which is shorter.
    rename_i t' hsep
    have hsep' : skipGap u = ',' :: t' := hsep
    have hlen := length_skipGap_le t'
    rw [hsep', List.length_cons] at hgap
    obtain ⟨⟨xs', w, r'⟩, hp, heq⟩ := Option.map_eq_some_iff.1 h
    obtain ⟨rfl, htext⟩ := Prod.mk.inj heq
    obtain ⟨rfl, -⟩ := Prod.mk.inj htext
    exact .item hval (isGap_gap u) (isGap_gap t') (ih.items (by omega) hp)
  · exact absurd h (by simp)

/-- Members are spelled by the grammar if everything shorter than their text is. -/
theorem SpellsBelow.members_succ (ih : SpellsBelow k) (hs : s.length < k + 1)
    (h : membersParts s = some (ms, t, r)) : Spells (.members ms) t := by
  rw [membersParts_eq, Option.bind_eq_some_iff] at h
  obtain ⟨⟨name, l, s'⟩, hn, h⟩ := h
  obtain ⟨hs', k₁, k₂, rfl, hname, hk₁, hk₂⟩ := nameParts_eq_some hn
  obtain ⟨⟨v, u⟩, hv, h⟩ := Option.bind_eq_some_iff.1 h
  have hu : u.length < s'.length := (valueParts_eq_some hv).2
  have hval := ih.value_succ (s := s') (by omega) hv
  have hgap := length_skipGap_le u
  split at h
  · obtain ⟨rfl, heq⟩ := Prod.mk.inj (Option.some.inj h)
    obtain ⟨rfl, -⟩ := Prod.mk.inj heq
    exact .lastMember hname hk₁ hk₂ hval (isGap_gap u)
  · rename_i t' hsep
    have hsep' : skipGap u = ',' :: t' := hsep
    have hlen := length_skipGap_le t'
    rw [hsep', List.length_cons] at hgap
    obtain ⟨⟨ms', w, r'⟩, hp, heq⟩ := Option.map_eq_some_iff.1 h
    obtain ⟨rfl, htext⟩ := Prod.mk.inj heq
    obtain ⟨rfl, -⟩ := Prod.mk.inj htext
    exact .member hname hk₁ hk₂ hval (isGap_gap u) (isGap_gap t') (ih.members (by omega) hp)
  · exact absurd h (by simp)

end Below

/-- **Whatever is read is spelled by the grammar**, by induction on the length of the text. -/
theorem spellsBelow (k : Nat) : SpellsBelow k := by
  induction k with
  | zero =>
    constructor
    · exact fun hs => absurd hs (Nat.not_lt_zero _)
    · exact fun hs => absurd hs (Nat.not_lt_zero _)
    · exact fun hs => absurd hs (Nat.not_lt_zero _)
  | succ k ih => exact ⟨ih.value_succ, ih.items_succ, ih.members_succ⟩

/-- **What the scanner reads, the grammar derives.** -/
theorem spells_of_valueParts {s v r : List Char} (h : valueParts s = some (v, r)) : Spells .value v :=
  (spellsBelow _).value (Nat.lt_succ_self _) h

/-! ## Whole texts -/

/-- A document is a value with whitespace around it and nothing else. -/
theorem document?_eq (s : List Char) :
    document? s =
      (valueParts (skipGap s)).bind fun p => if (skipGap p.2).isEmpty then some p.1 else none := by
  rw [document?, valueParts, Option.bind_map]
  rfl

theorem skipGap_of_isGap {g : List Char} (hg : IsGap g) : skipGap g = [] := by
  have h := (gap_append hg (Stops.nil isGap)).2
  rwa [List.append_nil] at h

/-- A JSON text: a value with gaps around it. -/
structure IsDocument (s v : List Char) : Prop where
  spells : Spells .value v
  gaps : ∃ g g', IsGap g ∧ IsGap g' ∧ s = g ++ (v ++ g')

/-- **The value in a JSON text is what is read**, and nothing is read from other texts. -/
theorem document?_eq_some_iff {s v : List Char} : document? s = some v ↔ IsDocument s v := by
  rw [document?_eq]
  constructor
  · intro h
    obtain ⟨⟨v', r⟩, hv, h⟩ := Option.bind_eq_some_iff.1 h
    split at h
    · rename_i hend
      cases h
      obtain ⟨hs, -⟩ := valueParts_eq_some hv
      refine ⟨spells_of_valueParts hv, gap s, r, isGap_gap s, ?_, ?_⟩
      · have hr := gap_append_skipGap r
        rw [List.isEmpty_iff.1 hend, List.append_nil] at hr
        rw [← hr]
        exact isGap_gap r
      · rw [← hs, gap_append_skipGap]
    · exact absurd h (by simp)
  · rintro ⟨hv, g, g', hg, hg', rfl⟩
    -- What follows a number in a whole text is whitespace, which does not go on with it.
    have hstop : Stops continues g' := by
      cases g' with
      | nil => exact Stops.nil _
      | cons c g' =>
        refine stops_cons.2 ?_
        rcases eq_of_isGap (hg' c List.mem_cons_self) with rfl | rfl | rfl | rfl <;> decide
    have hread : valueParts (v ++ g') = some (v, g') := reads_of_spells hv g' hstop
    rw [(gap_append hg hv.stops_isGap).2, hread]
    show (if (skipGap g').isEmpty = true then some v else none) = some v
    rw [skipGap_of_isGap hg']
    rfl

/-- What no value is read from is no JSON text. -/
theorem document?_eq_none_iff {s : List Char} : document? s = none ↔ ∀ v, ¬IsDocument s v := by
  rw [Option.eq_none_iff_forall_ne_some]
  exact forall_congr' fun v => not_congr document?_eq_some_iff

/-- A value stands for itself. -/
theorem document?_of_spells {v : List Char} (h : Spells .value v) : document? v = some v := by
  exact document?_eq_some_iff.2 ⟨h, [], [], by decide, by decide, (List.append_nil v).symm⟩

/-- An object is read with whitespace after its brace. -/
theorem objectMembers?_of_spells {g t : List Char} {ms : List Member} (hg : IsGap g)
    (h : Spells (.members ms) t) : objectMembers? ('{' :: (g ++ t)) = some ms := by
  have hread : membersParts (t ++ []) = some (ms, t, []) := reads_of_spells h []
  rw [List.append_nil] at hread
  have hstop := h.stops_isGap (r := [])
  rw [List.append_nil] at hstop
  unfold objectMembers?
  rw [document?_of_spells (.object hg h)]
  simp only [(gap_append hg hstop).2]
  split
  · -- Members do not start with the brace that ends an object.
    rename_i r
    have hne := (h.ne_end (r := []) (u := r)).2
    rw [List.append_nil] at hne
    exact absurd rfl hne
  · obtain ⟨p, hp, heq⟩ := Option.map_eq_some_iff.1 hread
    rw [hp]
    exact congrArg some (Prod.mk.inj heq).1

theorem literalBody?_of_isBody {body : List Char} (h : IsBody body) :
    literalBody? ('"' :: (body ++ ['"'])) = some body := by
  unfold literalBody?
  rw [document?_of_spells (.literal h)]
  show (closing? (body ++ '"' :: [])).map Prod.fst = _
  rw [h []]
  rfl

end CloudEvents.Json
