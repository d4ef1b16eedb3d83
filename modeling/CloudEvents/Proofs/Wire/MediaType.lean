/-
  What a content type announces hangs on its media type alone.

  One media type can be written in many ways: in capital and small letters, with blanks around it, with
  parameters behind it.  `SpellsMediaType` says which texts these are by the parts they are made of, without
  cutting or trimming anything.  Reading takes all of them to one normal form (`SpellsMediaType.mediaTypeOf_eq`),
  and everything else is decided by that form: what the content type announces, and whether the data is JSON or
  XML.  The normal form is a spelling of the media type itself (`spellsMediaType_mediaType`), so nothing is lost
  when a content type is replaced by its media type.

  The header that holds the content type has a name with a spelling of its own, which does not count either
  (`detectMode_rename`).

  Main statement: `announcement_by_mediaType`.
-/
import CloudEvents.Proofs.Text.Trim
import CloudEvents.Wire.Framing

namespace CloudEvents

open Text (isAllBlank)

/-! ## Spellings of a media type -/

/-- A text is a content type of a media type: that media type in letters of either case, with blanks around it
and, if anything more, parameters behind a semicolon. -/
inductive SpellsMediaType (mediaType : List Char) (s : String) : Prop where
  | of (front written back parameters : List Char)
      (parts : s.toList = front ++ written ++ back ++ parameters)
      (front_blank : isAllBlank front = true)
      (back_blank : isAllBlank back = true)
      (same : Text.sameIgnoringCase written mediaType = true)
      (no_separator : ';' ∉ written)
      (separated : parameters = [] ∨ parameters.head? = some ';')

/-- No semicolon is white space. -/
theorem not_mem_of_isAllBlank {s : List Char} (h : isAllBlank s = true) : ';' ∉ s :=
  fun hmem => absurd (List.all_eq_true.1 h ';' hmem) (by decide)

theorem before_append {s parameters : List Char} (hs : ';' ∉ s)
    (hp : parameters = [] ∨ parameters.head? = some ';') : Text.before ';' (s ++ parameters) = s := by
  have hall : ∀ c ∈ s, decide (c ≠ ';') = true := by
    intro c hc
    apply decide_eq_true
    rintro rfl
    exact hs hc
  unfold Text.before
  rw [List.takeWhile_append_of_pos hall]
  cases parameters with
  | nil => exact List.append_nil s
  | cons c r =>
    obtain rfl : c = ';' := by simpa using hp
    rw [List.takeWhile_cons_of_neg (by simp), List.append_nil]

/-- **All spellings of a media type are read as the same one.** -/
theorem SpellsMediaType.mediaTypeOf_eq {t : List Char} {s : String} (h : SpellsMediaType t s) :
    mediaTypeOf s = Text.trim (Text.lower t) := by
  obtain ⟨front, written, back, parameters, hs, hfront, hback, hsame, hsep, hparams⟩ := h
  have hnone : ';' ∉ front ++ written ++ back := by
    simp only [List.mem_append, not_or]
    exact ⟨⟨not_mem_of_isAllBlank hfront, hsep⟩, not_mem_of_isAllBlank hback⟩
  rw [mediaTypeOf, writtenMediaType, hs, before_append hnone hparams, Text.trim_around hfront hback,
    Text.lower_trim, Text.sameIgnoringCase_iff.1 hsame]

/-- No small letter is a semicolon. -/
theorem not_mem_lower {s : List Char} (h : ';' ∉ s) : ';' ∉ Text.lower s := by
  intro hmem
  obtain ⟨c, hc, hlower⟩ := List.mem_map.1 hmem
  have hn := Text.toNat_toLower c
  have hsemicolon : ';'.toNat = 59 := rfl
  rw [hlower, hsemicolon] at hn
  have hcode : c.toNat = ';'.toNat := by
    split at hn <;> omega
  exact h (Char.toNat_inj.1 hcode ▸ hc)

theorem not_mem_writtenMediaType (s : List Char) : ';' ∉ writtenMediaType s := by
  intro hmem
  have hbefore : ';' ∈ s.takeWhile (· ≠ ';') := Text.mem_of_mem_trim hmem
  exact absurd (List.all_eq_true.1 List.all_takeWhile _ hbefore) (by decide)

/-- Every content type spells the media type that is written in it. -/
theorem spellsMediaType_self (s : String) : SpellsMediaType (writtenMediaType s.toList) s := by
  obtain ⟨front, back, hfront, hback, hparts⟩ := Text.exists_around_trim (Text.before ';' s.toList)
  refine .of front (writtenMediaType s.toList) back (s.toList.dropWhile (· ≠ ';')) ?_ hfront hback
    (Text.sameIgnoringCase_iff.2 rfl) (not_mem_writtenMediaType _) ?_
  · rw [writtenMediaType, ← hparts]
    exact List.takeWhile_append_dropWhile.symm
  · have hhead := List.head?_dropWhile_not (· ≠ ';') s.toList
    cases hdrop : s.toList.dropWhile (· ≠ ';') with
    | nil => exact .inl rfl
    | cons c r =>
      rw [hdrop] at hhead
      exact .inr (by simpa using hhead)

/-- **And so does the media type itself**, which is a content type without blanks and parameters. -/
theorem spellsMediaType_mediaType (s : String) :
    SpellsMediaType (writtenMediaType s.toList) (String.ofList (mediaTypeOf s)) :=
  .of [] (mediaTypeOf s) [] [] (by simp) rfl rfl
    (Text.sameIgnoringCase_iff.2 (Text.lower_lower _)) (not_mem_lower (not_mem_writtenMediaType _)) (.inl rfl)

/-- Two texts are content types of one media type. -/
def SameMediaType (s s' : String) : Prop := ∃ t, SpellsMediaType t s ∧ SpellsMediaType t s'

/-- **Texts of one media type are those that are read as the same one.** -/
theorem sameMediaType_iff {s s' : String} : SameMediaType s s' ↔ mediaTypeOf s = mediaTypeOf s' := by
  constructor
  · rintro ⟨t, hs, hs'⟩
    rw [hs.mediaTypeOf_eq, hs'.mediaTypeOf_eq]
  · intro h
    obtain ⟨front, written, back, parameters, hparts, hfront, hback, hsame, hsep, hparams⟩ := spellsMediaType_self s'
    refine ⟨_, spellsMediaType_self s, .of front written back parameters hparts hfront hback ?_ hsep hparams⟩
    rw [Text.sameIgnoringCase_iff] at hsame ⊢
    exact hsame.trans h.symm

theorem sameMediaType_mediaType (s : String) : SameMediaType s (String.ofList (mediaTypeOf s)) :=
  ⟨_, spellsMediaType_self s, spellsMediaType_mediaType s⟩

namespace Wire

/-! ## What is announced -/

/-- The media type decides; where it is refused, the error has the text that was given. -/
theorem announcesStructured_congr {s s' : String} (h : SameMediaType s s') :
    announcesStructured s' = (announcesStructured s).mapError fun _ => .unsupportedMediaType s' := by
  unfold announcesStructured
  rw [← sameMediaType_iff.1 h]
  cases announcement (mediaTypeOf s) <;> rfl

/-- A structured message is announced by the start of the media type and its end, and no batch is. -/
theorem announcesStructured_eq_true_iff {s : String} :
    announcesStructured s = .ok true ↔
      envelopeMediaType.isPrefixOf (mediaTypeOf s) = true ∧
        ContentType.jsonEnding.isSuffixOf (mediaTypeOf s) = true ∧
        batchMediaType.isPrefixOf (mediaTypeOf s) = false := by
  unfold announcesStructured announcement
  cases envelopeMediaType.isPrefixOf (mediaTypeOf s) <;>
    cases ContentType.jsonEnding.isSuffixOf (mediaTypeOf s) <;>
    cases batchMediaType.isPrefixOf (mediaTypeOf s) <;> simp

/-- The endings of JSON and XML types have different last letters. -/
theorem isSuffixOf_xmlEnding {t : List Char} (h : ContentType.jsonEnding.isSuffixOf t = true) :
    ContentType.xmlEnding.isSuffixOf t = false := by
  rw [Bool.eq_false_iff]
  intro hxml
  obtain ⟨front, rfl⟩ := List.isSuffixOf_iff_suffix.1 h
  obtain ⟨front', heq⟩ := List.isSuffixOf_iff_suffix.1 hxml
  -- One text cannot end in an `l` and in an `n`.
  have hlast := congrArg List.getLast? heq
  have hxmlLast : ContentType.xmlEnding.getLast? = some 'l' := by decide
  have hjsonLast : ContentType.jsonEnding.getLast? = some 'n' := by decide
  rw [List.getLast?_append, List.getLast?_append, hxmlLast, hjsonLast, Option.some_or, Option.some_or] at hlast
  exact absurd hlast (by decide)

/-- **A document is JSON and is not XML.** -/
theorem isJson_and_not_isXml {c : ContentType} (h : announcesStructured c.text = .ok true) :
    c.isJson = true ∧ c.isXml = false := by
  obtain ⟨hlead, hjson, -⟩ := announcesStructured_eq_true_iff.1 h
  have hne : ∀ t : List Char, envelopeMediaType.isPrefixOf t = false → (mediaTypeOf c.text == t) = false := by
    intro t ht
    rw [Bool.eq_false_iff]
    intro heq
    rw [← beq_iff_eq.1 heq, hlead] at ht
    exact absurd ht (by decide)
  refine ⟨?_, ?_⟩
  · rw [ContentType.isJson, hjson, Bool.or_true]
  · rw [ContentType.isXml, isSuffixOf_xmlEnding hjson, hne _ (by decide), hne _ (by decide)]
    rfl

/-! ## The header -/

/-- One header, and no other, has the name of the content type in some case of its letters. -/
structure HoldsContentType (h : Headers) (n : String) (v : HeaderValue) : Prop where
  get? : h.get? n = some v
  name : Text.sameIgnoringCase n.toList contentTypeHeader.toList = true
  only : ∀ k w, h.get? k = some w → Text.sameIgnoringCase k.toList contentTypeHeader.toList = true → k = n

variable {h : Headers} {n n' : String} {v : HeaderValue}

/-- The mode is that of the content type, in whatever case its header is written. -/
theorem HoldsContentType.detectMode_eq (hh : HoldsContentType h n v) : detectMode h = modeOf v.display := by
  have hfind : h.findIgnoringCase? contentTypeHeader = some (n, v) := by
    refine NameMap.findName?_eq_some_iff.2 ⟨hh.get?, hh.name, ?_⟩
    intro k w hk hname
    rw [hh.only k w hk hname]
    exact String.lt_irrefl n
  rw [detectMode, hfind]

/-- Under another spelling of its name the header is the only one again. -/
theorem HoldsContentType.rename (hh : HoldsContentType h n v)
    (hn : Text.sameIgnoringCase n'.toList n.toList = true) :
    HoldsContentType ((h.erase n).insert n' v) n' v := by
  have hname : Text.sameIgnoringCase n'.toList contentTypeHeader.toList = true := by
    rw [Text.sameIgnoringCase_iff] at hn ⊢
    rw [hn, Text.sameIgnoringCase_iff.1 hh.name]
  refine ⟨NameMap.get?_insert_self _ _ _, hname, ?_⟩
  intro k w hk hkname
  by_contra hne
  rw [NameMap.get?_insert_of_ne _ _ (Ne.symm hne), NameMap.get?_erase] at hk
  split at hk
  · exact absurd hk (by simp)
  · -- A second header of that name would have been there before.
    rename_i hkn
    exact hkn (hh.only k w hk hkname).symm

/-- **The spelling of the header's name does not count.** -/
theorem detectMode_rename (hh : HoldsContentType h n v)
    (hn : Text.sameIgnoringCase n'.toList n.toList = true) :
    detectMode ((h.erase n).insert n' v) = detectMode h := by
  rw [(hh.rename hn).detectMode_eq, hh.detectMode_eq]

/-- **The media type alone announces a document.**  Texts of one media type announce the same, whatever their case,
blanks and parameters, and are refused alike, each under its own text.  A content type announces what its media
type does, and if that is a document, then the content type is one of JSON and not of XML.  And where one header
only has the name of the content type, it does not matter in which case of its letters. -/
theorem announcement_by_mediaType :
    (∀ s s', SameMediaType s s' →
      announcesStructured s' = (announcesStructured s).mapError fun _ => .unsupportedMediaType s') ∧
    (∀ s c, ContentType.parse s = .ok c →
      announcesStructured c.mediaType =
        ((announcesStructured s).mapError fun _ => .unsupportedMediaType c.mediaType) ∧
      (announcesStructured s = .ok true → c.isJson = true ∧ c.isXml = false)) ∧
    (∀ h n n' v, HoldsContentType h n v → Text.sameIgnoringCase n'.toList n.toList = true →
      detectMode ((h.erase n).insert n' v) = detectMode h) := by
  refine ⟨fun s s' hsame => announcesStructured_congr hsame, ?_, fun h n n' v hh hn => detectMode_rename hh hn⟩
  intro s c hc
  obtain rfl := ContentType.parse_eq_ok_iff.1 hc
  exact ⟨announcesStructured_congr (sameMediaType_mediaType c.text), isJson_and_not_isXml⟩

/-- A content type that is not written the plain way. -/
def paddedContentType : String := "\u00a0Application/CloudEvents+JSON\t; charset=utf-8; v=\"a;b\""

/-- Blanks, capitals and parameters are no part of a media type, nor is the case of the header. -/
theorem announcement_paddedContentType :
    SameMediaType "application/cloudevents+json" paddedContentType ∧
      announcesStructured paddedContentType = .ok true ∧
      HoldsContentType (NameMap.empty.insert contentTypeHeader (.text paddedContentType)) contentTypeHeader
        (.text paddedContentType) ∧
      detectMode (NameMap.empty.insert "CONTENT-Type" (.text paddedContentType)) = .ok .structured := by
  obtain ⟨hannounced, -, hdetected⟩ := announcement_by_mediaType
  have hsame : SameMediaType "application/cloudevents+json" paddedContentType :=
    sameMediaType_iff.2 (by decide +kernel)
  have hstructured : announcesStructured paddedContentType = .ok true := by
    rw [hannounced _ _ hsame]
    rfl
  have hholds : HoldsContentType (NameMap.empty.insert contentTypeHeader (.text paddedContentType))
      contentTypeHeader (.text paddedContentType) := by
    refine ⟨NameMap.get?_insert_self _ _ _, by decide, ?_⟩
    intro k w hk _
    by_contra hne
    rw [NameMap.get?_insert_of_ne _ _ (Ne.symm hne), NameMap.get?_empty] at hk
    exact absurd hk (by simp)
  refine ⟨hsame, hstructured, hholds, ?_⟩
  have hrenamed := hdetected _ _ "CONTENT-Type" _ hholds (by decide)
  have hmode : modeOf paddedContentType = .ok .structured := by rw [modeOf, hstructured]; rfl
  exact hrenamed.trans (hholds.detectMode_eq.trans hmode)

end Wire

end CloudEvents
