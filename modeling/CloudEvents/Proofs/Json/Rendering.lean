/-
  What is written is read back: literals and objects.

  The rendering of an object is derived by the grammar member by member, in both styles, as long as each
  value is a JSON text (`spells_members`).  Hence it is one JSON text, and reading its members gives the
  names and the values that went in (`members?_renderAt`), in their order.  The values come back as they
  were rendered, so a piece that is carried through verbatim is not changed by a single character.
-/
import CloudEvents.Json.Layout
import CloudEvents.Json.Value
import CloudEvents.Proofs.Json.Grammar
import Mathlib.Data.List.Forall2

namespace CloudEvents.Json

/-! ## Literals -/

theorem spells_quote (s : List Char) : Spells .value (quote s) := .literal (isBody_escape s)

theorem literal?_of_isBody {body : List Char} (h : IsBody body) :
    Source.text.literal? ('"' :: (body ++ ['"'])) = (unescape? body).map String.ofList := by
  rw [Source.literal?, literalBody?_of_isBody h]
  rfl

/-- A literal is read as the text it was written for. -/
theorem literal?_quote (s : String) : Source.text.literal? (quote s.toList) = some s := by
  show Source.text.literal? ('"' :: (escape s.toList ++ ['"'])) = _
  rw [literal?_of_isBody (isBody_escape _), unescape?_escape, Option.map_some, String.ofList_toList]

/-- A value is read as a literal only if it starts with a quote. -/
theorem literal?_eq_none_of_spells {v : List Char} (hv : Spells .value v) (hq : ∀ r, v ≠ '"' :: r) :
    Source.text.literal? v = none := by
  have hbody : literalBody? v = none := by
    unfold literalBody?
    rw [document?_of_spells hv]
    split
    · rename_i r h
      exact absurd (Option.some.inj h) (hq r)
    · rfl
  rw [Source.literal?, hbody, Option.bind_none]

/-! ## Objects -/

theorem mapM_eq_some_iff {α β : Type} {f : α → Option β} {l : List α} {l' : List β} :
    l.mapM f = some l' ↔ List.Forall₂ (fun a b => f a = some b) l l' := by
  induction l generalizing l' with
  | nil => cases l' <;> simp
  | cons a l ih =>
    rw [List.mapM_cons]
    simp only [Option.bind_eq_bind, Option.bind_eq_some_iff, ih, List.forall₂_cons_left_iff, Option.pure_def,
      Option.some.injEq]
    constructor
    · rintro ⟨b, hb, l', hl, rfl⟩
      exact ⟨b, l', hb, hl, rfl⟩
    · rintro ⟨b, l', hb, hl, rfl⟩
      exact ⟨b, hb, l', hl, rfl⟩

namespace Tree

variable {style : Style}

theorem isGap_line (style : Style) (depth : Nat) : IsGap (style.line depth) := by
  intro c hc
  cases style with
  | compact => exact absurd hc (by simp [Style.line])
  | pretty =>
    rcases List.mem_cons.1 hc with rfl | hc
    · decide
    · rw [(List.mem_replicate.1 hc).2]
      decide

/-- A member as the scanner sees it: the name with its escapes, the value as it is rendered. -/
def asMember (style : Style) (depth : Nat) (m : String × Tree) : Member :=
  ⟨escape m.1.toList, renderAt style depth m.2⟩

/-- A member is written as its name, a colon with a blank or none, and its value. -/
theorem renderMember_eq (style : Style) (depth : Nat) (m : String × Tree) :
    ∃ k, IsGap k ∧
      renderMember style depth m = leadText (escape m.1.toList) [] k ++ renderAt style depth m.2 := by
  obtain ⟨name, t⟩ := m
  rw [renderMember]
  cases style with
  | compact => exact ⟨[], by decide, by simp [leadText, quote, Style.colon]⟩
  | pretty => exact ⟨[' '], by decide, by simp [leadText, quote, Style.colon]⟩

/-- The members of an object, up to its brace, spell what they are made of. -/
theorem spells_members {depth : Nat} (depth' : Nat) {m : String × Tree} {ms : List (String × Tree)}
    (h : ∀ x ∈ m :: ms, Spells .value (renderAt style depth x.2)) :
    Spells (.members ((m :: ms).map (asMember style depth)))
      (renderMember style depth m ++ renderMembers style depth ms ++ style.line depth' ++ ['}']) := by
  have hnil : IsGap [] := by decide
  obtain ⟨k, hk, heq⟩ := renderMember_eq style depth m
  have hv := h m List.mem_cons_self
  -- Induction on the members behind the first one, for any first one: each is followed by a comma or the end.
  induction ms generalizing m k with
  | nil =>
    rw [renderMembers, heq, List.append_nil, List.append_assoc, List.append_assoc]
    exact .lastMember (isBody_escape _) hnil hk hv (isGap_line style depth')
  | cons x ms ih =>
    obtain ⟨k', hk', heq'⟩ := renderMember_eq style depth x
    have hrest := ih (fun y hy => h y (List.mem_cons_of_mem _ hy)) k' hk' heq'
      (h x (List.mem_cons_of_mem _ List.mem_cons_self))
    have hmember := Spells.member (isBody_escape m.1.toList) hnil hk hv hnil (isGap_line style depth) hrest
    rw [renderMembers, heq]
    simp only [List.append_assoc, List.cons_append, List.nil_append] at hmember ⊢
    exact hmember

theorem renderAt_object_eq_cons (style : Style) (depth : Nat) (ms : List (String × Tree)) :
    ∃ t, renderAt style depth (.object ms) = '{' :: t := by
  cases ms with
  | nil => exact ⟨['}'], by rw [renderAt]⟩
  | cons m ms => exact ⟨_, by rw [renderAt]⟩

/-- An object of JSON texts is a JSON text. -/
theorem spells_object {depth : Nat} {ms : List (String × Tree)}
    (h : ∀ m ∈ ms, Spells .value (renderAt style (depth + 1) m.2)) :
    Spells .value (renderAt style depth (.object ms)) := by
  cases ms with
  | nil => exact .emptyObject (g := []) (by decide)
  | cons m ms =>
    have hobject := Spells.object (isGap_line style (depth + 1)) (spells_members depth h)
    rw [renderAt]
    simp only [List.append_assoc] at hobject ⊢
    exact hobject

/-- The members of an object are read back as they were written. -/
theorem objectMembers?_renderAt {depth : Nat} {ms : List (String × Tree)}
    (h : ∀ m ∈ ms, Spells .value (renderAt style (depth + 1) m.2)) :
    objectMembers? (renderAt style depth (.object ms)) = some (ms.map (asMember style (depth + 1))) := by
  cases ms with
  | nil =>
    unfold objectMembers?
    rw [document?_of_spells (spells_object h)]
    rfl
  | cons m ms =>
    have hread := objectMembers?_of_spells (isGap_line style (depth + 1)) (spells_members depth h)
    rw [renderAt]
    simp only [List.append_assoc] at hread ⊢
    exact hread

/-- **The members of a rendered object are read as they were put in.** -/
theorem members?_renderAt {depth : Nat} {ms : List (String × Tree)}
    (h : ∀ m ∈ ms, Spells .value (renderAt style (depth + 1) m.2)) :
    Source.text.members? (renderAt style depth (.object ms)) =
      some (ms.map fun m => (m.1, renderAt style (depth + 1) m.2)) := by
  have hname : ∀ m : String × Tree,
      (Source.text.string? (asMember style (depth + 1) m).name).map (·, (asMember style (depth + 1) m).value) =
        some (m.1, renderAt style (depth + 1) m.2) := by
    intro m
    show ((unescape? (escape m.1.toList)).map String.ofList).map _ = _
    rw [unescape?_escape, Option.map_some, Option.map_some, String.ofList_toList]
    rfl
  rw [Source.members?, objectMembers?_renderAt h, Option.bind_some, mapM_eq_some_iff, List.forall₂_map_left_iff,
    List.forall₂_map_right_iff, List.forall₂_same]
  exact fun m _ => hname m

/-- What the members behind the first one are rendered as hangs on their names and rendered values. -/
theorem renderMembers_congr {depth : Nat} {ms ms' : List (String × Tree)}
    (h : ms.map (fun m => (m.1, renderAt style depth m.2)) = ms'.map fun m => (m.1, renderAt style depth m.2)) :
    renderMembers style depth ms = renderMembers style depth ms' := by
  induction ms generalizing ms' with
  | nil => rw [List.map_eq_nil_iff.1 h.symm]
  | cons m ms ih =>
    cases ms' with
    | nil => exact absurd h (by simp)
    | cons m' ms' =>
      obtain ⟨hm, hms⟩ := List.cons.inj h
      obtain ⟨hname, hvalue⟩ := Prod.mk.inj hm
      rw [renderMembers, renderMembers, ih hms, renderMember, renderMember, hname, hvalue]

/-- **An object's text hangs on the names and rendered values of its members**, and they on it. -/
theorem renderAt_object_eq_iff {depth : Nat} {ms ms' : List (String × Tree)}
    (h : ∀ m ∈ ms, Spells .value (renderAt style (depth + 1) m.2))
    (h' : ∀ m ∈ ms', Spells .value (renderAt style (depth + 1) m.2)) :
    renderAt style depth (.object ms) = renderAt style depth (.object ms') ↔
      ms.map (fun m => (m.1, renderAt style (depth + 1) m.2)) =
        ms'.map fun m => (m.1, renderAt style (depth + 1) m.2) := by
  constructor
  · intro heq
    have hread := members?_renderAt h
    rw [heq, members?_renderAt h'] at hread
    exact (Option.some.inj hread).symm
  · intro heq
    cases ms with
    | nil => rw [List.map_eq_nil_iff.1 heq.symm]
    | cons m ms =>
      cases ms' with
      | nil => exact absurd heq (by simp)
      | cons m' ms' =>
        obtain ⟨hm, hms⟩ := List.cons.inj heq
        obtain ⟨hname, hvalue⟩ := Prod.mk.inj hm
        rw [renderAt, renderAt, renderMembers_congr hms, renderMember, renderMember, hname, hvalue]

end Tree

end CloudEvents.Json
