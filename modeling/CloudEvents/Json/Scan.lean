/-
  The lexical grammar of JSON texts.

  An envelope carries most of a document through without looking into it, so a value is recognised
  and kept as the very text it is written with.  `value?` cuts a value off the front of a text; `items?`
  and `members?` do so for the contents of an array and an object, and hand over the texts of the parts.
  Strings only have to be lexically in order here: whether their escapes make characters is asked by
  whoever reads them.

  A `Cut` carries its law with it: the text is the part that was cut off and the rest, and that part is
  not empty.  So nothing is lost, and the rest is shorter, which is all the recursion needs.
-/
import CloudEvents.Json.Quoted
import CloudEvents.Json.Numeral

namespace CloudEvents.Json

/-! ## Gaps -/

/-- The four characters that may stand between tokens. -/
def isGap (c : Char) : Bool := c == ' ' || c == '\t' || c == '\n' || c == '\r'

/-- The gap at the start of a text. -/
def gap (s : List Char) : List Char := s.takeWhile isGap

/-- What stands behind the gap at the start of a text. -/
def skipGap (s : List Char) : List Char := s.dropWhile isGap

/-- Gap and rest make up the text. -/
theorem gap_append_skipGap (s : List Char) : gap s ++ skipGap s = s :=
  List.takeWhile_append_dropWhile

theorem length_skipGap_le (s : List Char) : (skipGap s).length ≤ s.length :=
  (List.dropWhile_sublist _).length_le

/-! ## Cuts -/

/-- A part cut off the front of a text. -/
structure Cut (s : List Char) where
  front : List Char
  rest : List Char
  eq : s = front ++ rest
  front_ne_nil : front ≠ []

namespace Cut

/-- A cut always takes something away.  By this and the last lemma every recursion of the scanner ends. -/
theorem rest_length {s : List Char} (c : Cut s) : c.rest.length < s.length := by
  have h := congrArg List.length c.eq
  have := List.length_pos_iff.2 c.front_ne_nil
  rw [List.length_append] at h
  omega

/-- A cut of what stands behind a lead, which is cut off with it. -/
def behind {s u : List Char} (c : Cut u) (lead : List Char) (h : s = lead ++ u) : Cut s :=
  ⟨lead ++ c.front, c.rest, by rw [List.append_assoc, ← c.eq, h], by simp [c.front_ne_nil]⟩

/-- Two cuts, one after the other. -/
def andThen {s : List Char} (c : Cut s) (d : Cut c.rest) : Cut s := d.behind c.front c.eq

/-- A cut of what stands behind a gap, which is cut off with it. -/
def behindGap {s u : List Char} (h : skipGap s = u) (c : Cut u) : Cut s :=
  c.behind (gap s) (by rw [← h, gap_append_skipGap])

/-- A gap, and the character behind it. -/
def through {s r : List Char} {c : Char} (h : skipGap s = c :: r) : Cut s :=
  behindGap h ⟨[c], r, rfl, by simp⟩

/-- A cut, with the gap behind it. -/
def withGap {s : List Char} (c : Cut s) : Cut s :=
  ⟨c.front ++ gap c.rest, skipGap c.rest, by rw [List.append_assoc, gap_append_skipGap, ← c.eq],
    by simp [c.front_ne_nil]⟩

end Cut

/-! ## Values without parts, and names -/

theorem literal_append {r body rest : List Char} (h : closing? r = some (body, rest)) :
    '"' :: r = '"' :: (body ++ ['"']) ++ rest := by
  rw [closing?_eq_some h]
  simp

/-- A value that holds no other value. -/
def scalar? (s : List Char) : Option (Cut s) :=
  match s with
  | '"' :: r =>
    match h : closing? r with
    | some (body, rest) => some ⟨'"' :: (body ++ ['"']), rest, literal_append h, by simp⟩
    | none => none
  | 't' :: 'r' :: 'u' :: 'e' :: r => some ⟨['t', 'r', 'u', 'e'], r, rfl, by simp⟩
  | 'f' :: 'a' :: 'l' :: 's' :: 'e' :: r => some ⟨['f', 'a', 'l', 's', 'e'], r, rfl, by simp⟩
  | 'n' :: 'u' :: 'l' :: 'l' :: r => some ⟨['n', 'u', 'l', 'l'], r, rfl, by simp⟩
  | s =>
    match h : numeral? s with
    | some (n, rest) => some ⟨n.text, rest, (numeral?_eq_some h).1, (numeral?_eq_some h).2⟩
    | none => none

/-- A member of an object: its name as it stands between the quotes, and its value as written. -/
structure Member where
  name : List Char
  value : List Char
  deriving DecidableEq, Repr

/-- The name at the start of a member, cut off together with its colon and the gaps around that. -/
def memberName? (s : List Char) : Option (List Char × Cut s) :=
  match s with
  | '"' :: r =>
    match h : closing? r with
    | none => none
    | some (name, t) =>
      match hg : skipGap t with
      | ':' :: _ =>
        some (name, (Cut.through hg).withGap.behind ('"' :: (name ++ ['"'])) (literal_append h))
      | _ => none
  | _ => none

/-! ## Values -/

mutual

/-- The value at the start of a text. -/
def value? (s : List Char) : Option (Cut s) :=
  match s with
  | '[' :: t =>
    match hg : skipGap t with
    | ']' :: _ => some ((Cut.through hg).behind ['['] rfl)
    | u => (items? u).map fun p => (Cut.behindGap hg p.1).behind ['['] rfl
  | '{' :: t =>
    match hg : skipGap t with
    | '}' :: _ => some ((Cut.through hg).behind ['{'] rfl)
    | u => (members? u).map fun p => (Cut.behindGap hg p.1).behind ['{'] rfl
  | s => scalar? s
termination_by (s.length, 0)
decreasing_by
  all_goals
    have := length_skipGap_le t
    rw [hg] at this
    apply Prod.Lex.left
    simp only [List.length_cons]
    omega

/-- The items of an array whose bracket is open, cut off with its end, and their texts. -/
def items? (s : List Char) : Option (Cut s × List (List Char)) :=
  match value? s with
  | none => none
  | some v =>
    match hg : skipGap v.rest with
    | ']' :: _ => some (v.andThen (.through hg), [v.front])
    | ',' :: t =>
      (items? (skipGap t)).map fun p =>
        (v.andThen ((Cut.through hg).andThen (.behindGap rfl p.1)), v.front :: p.2)
    | _ => none
termination_by (s.length, 1)
decreasing_by
  · apply Prod.Lex.right
    omega
  · have h0 := v.rest_length
    have h1 := length_skipGap_le v.rest
    have h2 := length_skipGap_le t
    rw [hg] at h1
    apply Prod.Lex.left
    simp only [List.length_cons] at h1
    omega

/-- The members of an object whose brace is open, cut off with its end, and their parts. -/
def members? (s : List Char) : Option (Cut s × List Member) :=
  match memberName? s with
  | none => none
  | some (name, c) =>
    match value? c.rest with
    | none => none
    | some v =>
      match hg : skipGap v.rest with
      | '}' :: _ => some (c.andThen (v.andThen (.through hg)), [⟨name, v.front⟩])
      | ',' :: t =>
        (members? (skipGap t)).map fun p =>
          (c.andThen (v.andThen ((Cut.through hg).andThen (.behindGap rfl p.1))),
            ⟨name, v.front⟩ :: p.2)
      | _ => none
termination_by (s.length, 1)
decreasing_by
  · have h0 := c.rest_length
    apply Prod.Lex.left
    omega
  · have h0 := c.rest_length
    have h1 := v.rest_length
    have h2 := length_skipGap_le v.rest
    have h3 := length_skipGap_le t
    rw [hg] at h2
    apply Prod.Lex.left
    simp only [List.length_cons] at h2
    omega

end

/-! ## Whole texts -/

/-- The value a text consists of, without the gaps around it. -/
def document? (s : List Char) : Option (List Char) :=
  (value? (skipGap s)).bind fun c => if (skipGap c.rest).isEmpty then some c.front else none

/-- The members of a text that consists of an object, in the order in which they stand. -/
def objectMembers? (s : List Char) : Option (List Member) :=
  match document? s with
  | some ('{' :: t) =>
    match skipGap t with
    | '}' :: _ => some []
    | u => (members? u).map Prod.snd
  | _ => none

/-- The texts of the items of a text that consists of an array. -/
def arrayItems? (s : List Char) : Option (List (List Char)) :=
  match document? s with
  | some ('[' :: t) =>
    match skipGap t with
    | ']' :: _ => some []
    | u => (items? u).map Prod.snd
  | _ => none

/-- What stands between the quotes of a text that consists of a string literal. -/
def literalBody? (s : List Char) : Option (List Char) :=
  match document? s with
  | some ('"' :: r) => (closing? r).map Prod.fst
  | _ => none

/-- The number a text consists of. -/
def numeralOf? (s : List Char) : Option Numeral :=
  (document? s).bind fun u => (numeral? u).map Prod.fst

end CloudEvents.Json
