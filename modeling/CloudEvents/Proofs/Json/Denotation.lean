/-
  What literals and objects of JSON texts stand for.

  The scanner and the reader of escapes are programs; here are the rules they follow, without the programs.
  `IsLetters` says what may stand between quotes and `Denotes` which text it stands for: every character for
  itself, an escape for its character, and two halves of a surrogate pair for one character together.  Not all
  that may stand between quotes denotes a text, because half of a pair does not.

  An object is read by its names, which have to denote texts, and by the texts of its values, which only have
  to be values (`IsObject`).

  Main statements: `isBody_iff_isLetters`, `literal?_eq_some_iff` and `members?_eq_some_iff`.
-/
import CloudEvents.Proofs.Json.Rendering

namespace CloudEvents.Json

/-! ## Between quotes -/

/-- What may stand between the quotes of a literal. -/
inductive IsLetters : List Char → Prop where
  | nil : IsLetters []
  | plain {c : Char} {r : List Char} (hcontrol : ¬c.toNat < 0x20) (hslash : c ≠ '\\') (hquote : c ≠ '"')
    (h : IsLetters r) : IsLetters (c :: r)
  | short {e : Char} {r : List Char} (he : isShortEscape e = true) (h : IsLetters r) : IsLetters ('\\' :: e :: r)
  | unicode {a b c d : Char} {r : List Char} (hx : (hex4? a b c d).isSome = true) (h : IsLetters r) :
    IsLetters ('\\' :: 'u' :: a :: b :: c :: d :: r)

/-- The text that the letters between quotes stand for. -/
inductive Denotes : List Char → List Char → Prop where
  | nil : Denotes [] []
  | plain {c : Char} {r t : List Char} (hcontrol : ¬c.toNat < 0x20) (hslash : c ≠ '\\') (hquote : c ≠ '"')
    (h : Denotes r t) : Denotes (c :: r) (c :: t)
  | short {e c : Char} {r t : List Char} (he : shortEscape? e = some c) (h : Denotes r t) :
    Denotes ('\\' :: e :: r) (c :: t)
  | unicode {a b c d : Char} {n : Nat} {r t : List Char} (hn : hex4? a b c d = some n)
    (hhigh : isHighSurrogate n = false) (hlow : isLowSurrogate n = false) (h : Denotes r t) :
    Denotes ('\\' :: 'u' :: a :: b :: c :: d :: r) (Char.ofNat n :: t)
  | pair {a b c d a' b' c' d' : Char} {n m : Nat} {r t : List Char} (hn : hex4? a b c d = some n)
    (hhigh : isHighSurrogate n = true) (hm : hex4? a' b' c' d' = some m) (hlow : isLowSurrogate m = true)
    (h : Denotes r t) :
    Denotes ('\\' :: 'u' :: a :: b :: c :: d :: '\\' :: 'u' :: a' :: b' :: c' :: d' :: r) (pairChar n m :: t)

/-- What stands before the closing quote is a sequence of letters. -/
theorem isLetters_of_closing? {s body r : List Char} (h : closing? s = some (body, r)) : IsLetters body := by
  fun_induction closing? s generalizing body r with
  | case1 => exact absurd h (by simp)
  | case2 =>
    obtain ⟨rfl, -⟩ := Prod.mk.inj (Option.some.inj h)
    exact .nil
  | case3 a b c d t hx ih =>
    simp only [Option.map_eq_some_iff, Prod.mk.injEq] at h
    obtain ⟨p, hp, rfl, rfl⟩ := h
    exact .unicode hx (ih hp)
  | case4 => exact absurd h (by simp)
  | case5 e t _ he ih =>
    simp only [Option.map_eq_some_iff, Prod.mk.injEq] at h
    obtain ⟨p, hp, rfl, rfl⟩ := h
    exact .short he (ih hp)
  | case6 => exact absurd h (by simp)
  | case7 => exact absurd h (by simp)
  | case8 c t hquote _ _ hc ih =>
    simp only [Option.map_eq_some_iff, Prod.mk.injEq] at h
    obtain ⟨p, hp, rfl, rfl⟩ := h
    rw [not_or] at hc
    exact .plain hc.1 hc.2 hquote (ih hp)

/-- Letters followed by a quote are cut off at that quote, whatever comes after. -/
theorem IsLetters.isBody {body : List Char} (h : IsLetters body) : IsBody body := by
  intro r
  induction h with
  | nil => rfl
  | @plain c t hcontrol hslash hquote _ ih =>
    show closing? (c :: (t ++ '"' :: r)) = _
    rw [closing?, if_neg (not_or.2 ⟨hcontrol, hslash⟩), ih]
    · rfl
    -- What is left is that none of the patterns before this one fits.
    · exact hquote
    · exact fun _ _ _ _ _ heq _ => hslash heq
    · exact fun _ _ heq _ => hslash heq
  | @short e t he _ ih =>
    show closing? ('\\' :: e :: (t ++ '"' :: r)) = _
    rw [closing?, if_pos he, ih]
    · rfl
    · -- The letter behind the backslash is no u, which no short escape has.
      rintro a b c d t rfl _
      exact absurd he (by decide)
  | @unicode a b c d t hx _ ih =>
    show closing? ('\\' :: 'u' :: a :: b :: c :: d :: (t ++ '"' :: r)) = _
    rw [closing?, if_pos hx, ih]
    rfl

/-- **The scanner finds the end of a literal behind these letters**, and behind no others. -/
theorem isBody_iff_isLetters {body : List Char} : IsBody body ↔ IsLetters body := by
  constructor
  · intro h
    exact isLetters_of_closing? (h [])
  · exact IsLetters.isBody

/-! ## The text between quotes -/

/-- What the program takes letters for is what they denote. -/
theorem denotes_of_unescape? {s t : List Char} (h : unescape? s = some t) : Denotes s t := by
  fun_induction unescape? s generalizing t with
  | case1 =>
    cases h
    exact .nil
  | case2 => exact absurd h (by simp)
  | case3 => exact absurd h (by simp)
  | case4 a b c d n hn hhigh a' b' c' d' r m hm hlow ih =>
    obtain ⟨u, hu, rfl⟩ := Option.map_eq_some_iff.1 h
    exact .pair hn hhigh hm hlow (ih hu)
  | case5 => exact absurd h (by simp)
  | case6 => exact absurd h (by simp)
  | case7 => exact absurd h (by simp)
  | case8 a b c d r n hn hhigh hlow ih =>
    obtain ⟨u, hu, rfl⟩ := Option.map_eq_some_iff.1 h
    exact .unicode hn (by simpa using hhigh) (by simpa using hlow) (ih hu)
  | case9 => exact absurd h (by simp)
  | case10 e r _ c he ih =>
    obtain ⟨u, hu, rfl⟩ := Option.map_eq_some_iff.1 h
    exact .short he (ih hu)
  | case11 => exact absurd h (by simp)
  | case12 c r _ _ hc ih =>
    obtain ⟨u, hu, rfl⟩ := Option.map_eq_some_iff.1 h
    rw [not_or, not_or] at hc
    exact .plain hc.1 hc.2.1 hc.2.2 (ih hu)

/-- What letters denote is what the program takes them for. -/
theorem unescape?_of_denotes {s t : List Char} (h : Denotes s t) : unescape? s = some t := by
  induction h with
  | nil => rfl
  | plain hcontrol hslash hquote _ ih =>
    rw [unescape?, if_neg (not_or.2 ⟨hcontrol, not_or.2 ⟨hslash, hquote⟩⟩), ih]
    · rfl
    · exact fun _ _ _ _ _ heq _ => hslash heq
    · exact fun _ _ heq _ => hslash heq
  | short he _ ih =>
    rw [unescape?]
    · simp only [he, ih]
      rfl
    · rintro a b c d t rfl _
      exact absurd he (by simp [shortEscape?])
  | unicode hn hhigh hlow _ ih =>
    rw [unescape?.eq_def]
    simp only [hn, hhigh, hlow, ih]
    rfl
  | pair hn hhigh hm hlow _ ih =>
    rw [unescape?.eq_def]
    simp only [hn, hhigh, hm, hlow, ih]
    rfl

/-- **The reader of escapes finds the text that is denoted**, and fails if there is none. -/
theorem unescape?_eq_some_iff {s t : List Char} : unescape? s = some t ↔ Denotes s t :=
  ⟨denotes_of_unescape?, unescape?_of_denotes⟩

theorem isShortEscape_of_shortEscape? {e c : Char} (h : shortEscape? e = some c) : isShortEscape e = true := by
  unfold shortEscape? at h
  iterate 8
    split at h
    · rename_i he
      rw [he]
      decide
  exact absurd h (by simp)

/-- What denotes a text may stand between quotes. -/
theorem Denotes.isLetters {s t : List Char} (h : Denotes s t) : IsLetters s := by
  induction h with
  | nil => exact .nil
  | plain hcontrol hslash hquote _ ih => exact .plain hcontrol hslash hquote ih
  | short he _ ih => exact .short (isShortEscape_of_shortEscape? he) ih
  | unicode hn _ _ _ ih => exact .unicode (by rw [hn]; rfl) ih
  | pair hn _ hm _ _ ih => exact .unicode (by rw [hn]; rfl) (.unicode (by rw [hm]; rfl) ih)

/-- Escapes only make a text longer. -/
theorem Denotes.length_le {s t : List Char} (h : Denotes s t) : t.length ≤ s.length := by
  induction h with
  | nil => exact Nat.le_refl 0
  | plain _ _ _ _ ih =>
    simp only [List.length_cons]
    omega
  | short _ _ ih =>
    simp only [List.length_cons]
    omega
  | unicode _ _ _ _ ih =>
    simp only [List.length_cons]
    omega
  | pair _ _ _ _ _ ih =>
    simp only [List.length_cons]
    omega

/-! ## Literals -/

/-- A value that is the literal of a text. -/
def IsTextOf (raw : List Char) (v : String) : Prop := ∃ body, raw = '"' :: (body ++ ['"']) ∧ Denotes body v.toList

/-- A value that starts with a quote is a literal. -/
theorem Spells.eq_literal {r : List Char} (h : Spells .value ('"' :: r)) :
    ∃ body, r = body ++ ['"'] ∧ IsBody body := by
  -- Every sort of value starts with characters of its own.
  generalize hv : '"' :: r = v at h
  cases h with
  | literal hbody => exact ⟨_, (List.cons.inj hv).2, hbody⟩
  | number hn => exact absurd hv.symm (hn.text_ne_cons (by decide) (by decide))
  | _ => exact absurd (List.cons.inj hv).1 (by decide)

/-- **A value is read as the text that it is the literal of**, and other values are not read as texts. -/
theorem literal?_eq_some_iff {raw : List Char} (h : Spells .value raw) {v : String} :
    Source.text.literal? raw = some v ↔ IsTextOf raw v := by
  constructor
  · intro hv
    -- Only a literal starts with a quote, and nothing else is read.
    by_cases hq : ∃ r, raw = '"' :: r
    · obtain ⟨r, rfl⟩ := hq
      obtain ⟨body, rfl, hbody⟩ := h.eq_literal
      rw [literal?_of_isBody hbody] at hv
      obtain ⟨t, ht, rfl⟩ := Option.map_eq_some_iff.1 hv
      refine ⟨body, rfl, ?_⟩
      rw [String.toList_ofList]
      exact denotes_of_unescape? ht
    · rw [literal?_eq_none_of_spells h fun r hr => hq ⟨r, hr⟩] at hv
      exact absurd hv (by simp)
  · rintro ⟨body, rfl, hbody⟩
    rw [literal?_of_isBody hbody.isLetters.isBody, unescape?_of_denotes hbody, Option.map_some,
      String.ofList_toList]

/-- A value that is not read is the literal of no text. -/
theorem literal?_eq_none_iff {raw : List Char} (h : Spells .value raw) :
    Source.text.literal? raw = none ↔ ∀ v, ¬IsTextOf raw v := by
  rw [Option.eq_none_iff_forall_ne_some]
  exact forall_congr' fun v => not_congr (literal?_eq_some_iff h)

/-- What is written for a text is a literal of it. -/
theorem isTextOf_quote (v : String) : IsTextOf (quote v.toList) v :=
  (literal?_eq_some_iff (spells_quote _)).1 (literal?_quote v)

/-- The text of a literal is shorter than the literal, by its quotes at least. -/
theorem length_lt_of_literal? {v : List Char} {x : String} (hv : Spells .value v)
    (h : Source.text.literal? v = some x) : x.toList.length < v.length := by
  obtain ⟨body, rfl, hbody⟩ := (literal?_eq_some_iff hv).1 h
  have hle := hbody.length_le
  simp only [List.length_cons, List.length_append]
  omega

/-! ## Objects -/

/-- The text of an object with its members, without gaps around it. -/
inductive SpellsObject : List Member → List Char → Prop where
  | empty {g : List Char} (hg : IsGap g) : SpellsObject [] ('{' :: (g ++ ['}']))
  | members {g t : List Char} {ms : List Member} (hg : IsGap g) (h : Spells (.members ms) t) :
    SpellsObject ms ('{' :: (g ++ t))

theorem SpellsObject.spells {ms : List Member} {t : List Char} (h : SpellsObject ms t) : Spells .value t := by
  cases h with
  | empty hg => exact .emptyObject hg
  | members hg h => exact .object hg h

/-- The members of an object are found in its text. -/
theorem SpellsObject.objectMembers? {ms : List Member} {t : List Char} (h : SpellsObject ms t) :
    objectMembers? t = some ms := by
  cases h with
  | @empty g hg =>
    unfold Json.objectMembers?
    rw [document?_of_spells (.emptyObject hg)]
    simp only [(gap_append_cons (r := []) hg (c := '}') (by decide)).2]
  | members hg h => exact objectMembers?_of_spells hg h

/-- A value that starts with a brace is an object. -/
theorem Spells.exists_members {r : List Char} (h : Spells .value ('{' :: r)) :
    ∃ ms, SpellsObject ms ('{' :: r) := by
  generalize hv : '{' :: r = v at h
  cases h with
  | emptyObject hg => exact ⟨[], .empty hg⟩
  | object hg h => exact ⟨_, .members hg h⟩
  | number hn => exact absurd hv.symm (hn.text_ne_cons (by decide) (by decide))
  | _ => exact absurd (List.cons.inj hv).1 (by decide)

/-- The members of a text are those of the value in it. -/
theorem objectMembers?_of_document? {s v : List Char} (h : document? s = some v) :
    objectMembers? s = objectMembers? v := by
  unfold objectMembers?
  rw [h, document?_of_spells (document?_eq_some_iff.1 h).1]

/-- **Members are found in the text of an object and in no other text**, with whitespace around it or
without. -/
theorem objectMembers?_eq_some_iff {s : List Char} {ms : List Member} :
    objectMembers? s = some ms ↔
      ∃ g t g', s = g ++ (t ++ g') ∧ IsGap g ∧ IsGap g' ∧ SpellsObject ms t := by
  constructor
  · intro h
    have hdoc : ∃ r, document? s = some ('{' :: r) := by
      unfold objectMembers? at h
      split at h
      · rename_i r hr
        exact ⟨r, hr⟩
      · exact absurd h (by simp)
    -- The value starts with a brace, so it is an object with some members; those that are read are its own.
    obtain ⟨r, hr⟩ := hdoc
    obtain ⟨hv, g, g', hg, hg', rfl⟩ := document?_eq_some_iff.1 hr
    obtain ⟨ms', hms'⟩ := hv.exists_members
    rw [objectMembers?_of_document? hr, hms'.objectMembers?] at h
    exact ⟨g, _, g', rfl, hg, hg', Option.some.inj h ▸ hms'⟩
  · rintro ⟨g, t, g', rfl, hg, hg', h⟩
    rw [objectMembers?_of_document? (document?_eq_some_iff.2 ⟨h.spells, g, g', hg, hg', rfl⟩), h.objectMembers?]

/-- A text that is an object, gaps aside, with the names that its members denote and the texts of their
values. -/
def IsObject (s : List Char) (l : List (String × List Char)) : Prop :=
  ∃ g t g' ms, s = g ++ (t ++ g') ∧ IsGap g ∧ IsGap g' ∧ SpellsObject ms t ∧
    List.Forall₂ (fun (m : Member) x => Denotes m.name x.1.toList ∧ m.value = x.2) ms l

/-- **The members of a text are read exactly if it is an object whose names denote texts.** -/
theorem members?_eq_some_iff {s : List Char} {l : List (String × List Char)} :
    Source.text.members? s = some l ↔ IsObject s l := by
  have hmember : ∀ (m : Member) (x : String × List Char),
      (Source.text.string? m.name).map (·, m.value) = some x ↔ Denotes m.name x.1.toList ∧ m.value = x.2 := by
    rintro m ⟨n, raw⟩
    show ((unescape? m.name).map String.ofList).map _ = _ ↔ _
    rw [← unescape?_eq_some_iff]
    simp only [Option.map_map, Option.map_eq_some_iff, Function.comp_apply, Prod.mk.injEq]
    constructor
    · rintro ⟨t, ht, rfl, hvalue⟩
      rw [String.toList_ofList]
      exact ⟨ht, hvalue⟩
    · rintro ⟨ht, hvalue⟩
      exact ⟨_, ht, String.ofList_toList, hvalue⟩
  unfold Source.members? IsObject
  simp only [Option.bind_eq_some_iff, objectMembers?_eq_some_iff, mapM_eq_some_iff, hmember]
  constructor
  · rintro ⟨ms, ⟨g, t, g', hs, hg, hg', h⟩, hl⟩
    exact ⟨g, t, g', ms, hs, hg, hg', h, hl⟩
  · rintro ⟨g, t, g', ms, hs, hg, hg', h, hl⟩
    exact ⟨ms, ⟨g, t, g', hs, hg, hg', h⟩, hl⟩

theorem exists_mem_of_forall₂ {α β : Type} {R : α → β → Prop} {l : List α} {l' : List β}
    (h : List.Forall₂ R l l') {b : β} (hb : b ∈ l') : ∃ a ∈ l, R a b := by
  induction h with
  | nil => exact absurd hb (by simp)
  | @cons x y l l' hxy _ ih =>
    rcases List.mem_cons.1 hb with rfl | hb
    · exact ⟨x, List.mem_cons_self, hxy⟩
    · obtain ⟨a, ha, hab⟩ := ih hb
      exact ⟨a, List.mem_cons_of_mem _ ha, hab⟩

theorem Spells.value_of_mem {ms : List Member} {t : List Char} (h : Spells (.members ms) t) {m : Member}
    (hm : m ∈ ms) : Spells .value m.value := by
  -- Induction on the derivation: only its cases for members concern this part.
  generalize hp : Part.members ms = p at h
  induction h generalizing ms with
  | lastMember _ _ _ hv _ _ =>
    obtain rfl := Part.members.inj hp
    rw [List.mem_singleton.1 hm]
    exact hv
  | member _ _ _ hv _ _ _ _ ih =>
    obtain rfl := Part.members.inj hp
    rcases List.mem_cons.1 hm with rfl | hm
    · exact hv
    · exact ih hm rfl
  | _ => exact absurd hp (by simp)

/-- The values of an object are values. -/
theorem IsObject.spells {s raw : List Char} {n : String} {l : List (String × List Char)} (h : IsObject s l)
    (hx : (n, raw) ∈ l) : Spells .value raw := by
  obtain ⟨g, t, g', ms, -, -, -, hobject, hl⟩ := h
  obtain ⟨m, hm, -, hvalue⟩ := exists_mem_of_forall₂ hl hx
  cases hobject with
  | empty _ => exact absurd hm (by simp)
  | members _ h =>
    rw [← show m.value = raw from hvalue]
    exact h.value_of_mem hm

end CloudEvents.Json
