/-
  The rules of kinds, for headers and for events.

  A kind has its rule twice, and the two forms find the attributes in different ways.  The form for headers
  looks for an attribute under its own name first and under its other name after that
  (`Extension.headerText?_eq`).  The form for events has what was read, and on the way in the header of the
  other name replaces the one of the own name (`Wire.attribute?_eq`).  Everything else is the same on both
  sides, so they can differ only where a message has both: on the partition key of a record, if one of the two
  is empty and the other is not (`KeyContradicts`).

  Main statement: `validate_agrees_decode_iff`.
-/
import CloudEvents.Proofs.Validation.Decoding
import CloudEvents.Registry

namespace CloudEvents

open Wire.Binary (slotHeader?)

/-! ## What the reader sees -/

namespace Wire

variable {b : Binding} {m m' : Message} {e : Event} {n : String}

/-- **Behind the transport** a header is what came under its other name, or else what came under its own. -/
theorem get?_receive (hr : receive b m = (m', .ok .binary)) (hct : n ≠ contentTypeHeader)
    (hkey : n ≠ Binding.recordKey) (hdata : n ≠ Record.dataContentTypeHeader b) :
    m'.headers.get? n =
      (((b.headerAlias? n).bind m.headers.get?).map fun v => .text v.display).or (m.headers.get? n) := by
  unfold receive at hr
  unfold Binding.headerAlias?
  cases hb : b.rewrites with
  | false =>
    rw [hb] at hr
    have hsame : m = m' := congrArg Prod.fst hr
    rw [if_neg fun hand => absurd hand.1 (by decide), hsame]
    rfl
  | true =>
    rw [hb] at hr
    have hmode : (Record.incoming b m.headers).2 = .ok .binary := congrArg Prod.snd hr
    have hheaders : (Record.incoming b m.headers).1 = m'.headers := congrArg (fun x => x.1.headers) hr
    rw [← hheaders, Record.get?_incoming hmode hct hdata, Record.get?_keyIn]
    by_cases hn : n = partitionKeyName
    · rw [if_pos hn, if_pos ⟨rfl, hn⟩, Option.bind_some, hn]
    · rw [if_neg hn, if_neg hkey, if_neg fun hand => hn hand.2]
      rfl

/-- Receiving a binary message touches no slot but the content type of the data. -/
theorem slotHeader?_receive (hr : receive b m = (m', .ok .binary)) {w : WellKnown} (hw : w ≠ .datacontenttype) :
    slotHeader? b m'.headers w = slotHeader? b m.headers w := by
  obtain ⟨hct, hkey, hpk, hdata⟩ := Record.isFixed_headerName b hw
  have halias : b.headerAlias? (b.headerName w.name) = none := if_neg fun hand => hpk hand.2
  unfold slotHeader?
  rw [get?_receive hr hct hkey hdata, halias]
  rfl

/-- Nothing that validation looks at is moved. -/
theorem isComplete_receive (hr : receive b m = (m', .ok .binary)) :
    Validation.IsComplete b m'.headers ↔ Validation.IsComplete b m.headers := by
  have hversion := slotHeader?_receive hr (w := .specversion) (by decide)
  have hsource := slotHeader?_receive hr (w := .source) (by decide)
  have htype := slotHeader?_receive hr (w := .type) (by decide)
  constructor
  · rintro ⟨hv, hs, ht⟩
    exact ⟨hversion ▸ hv, hsource ▸ hs, htype ▸ ht⟩
  · rintro ⟨hv, hs, ht⟩
    exact ⟨hversion ▸ hv, hsource ▸ hs, htype ▸ ht⟩

/-- The decoded event describes the headers that were received. -/
theorem describes_of_decode (hr : receive b m = (m', .ok .binary)) (hd : decode b m = .ok e) :
    Binary.Describes b m' e := by
  unfold decode at hd
  rw [hr] at hd
  exact Binary.decode_eq_ok_iff.1 hd

/-- A name that under every binding only an extension attribute has. -/
def IsFreeName (n : String) : Prop :=
  n ≠ contentTypeHeader ∧ n ≠ Binding.recordKey ∧ ∀ b ∈ Binding.all, Binary.isExtension b n = true

instance (n : String) : Decidable (IsFreeName n) := inferInstanceAs (Decidable (_ ∧ _ ∧ _))

theorem IsFreeName.isExtension (hn : IsFreeName n) (b : Binding) : Binary.isExtension b n = true :=
  hn.2.2 b b.mem_all

/-- **An attribute that was read** is what came under its other name, or else what came under its own. -/
theorem attribute?_eq (hr : receive b m = (m', .ok .binary)) (hd : decode b m = .ok e) (hn : IsFreeName n) :
    e.attribute? n =
      (((b.headerAlias? n).bind m.headers.get?).or (m.headers.get? n)).map HeaderValue.display := by
  have hx := hn.isExtension b
  rw [(describes_of_decode hr hd).attributes, if_pos hx,
    get?_receive hr hn.1 hn.2.1 ((Binary.isExtension_iff.1 hx).1 .datacontenttype)]
  cases (b.headerAlias? n).bind m.headers.get? <;> rfl

end Wire

/-! ## What the rules for headers see -/

namespace Extension

variable {b : Binding} {f : Fresh} {h : Headers} {n : String}

/-- The rules for headers take what stands under the own name, or else what stands under the other one. -/
theorem headerText?_eq (b : Binding) (h : Headers) (n : String) :
    headerText? b h n = ((h.get? n).or ((b.headerAlias? n).bind h.get?)).map HeaderValue.display := by
  unfold headerText? header?
  cases h.get? n <;> rfl

/-- What validation fills in is nothing that a kind asks for. -/
theorem headerText?_filled (hn : Wire.IsFreeName n) :
    headerText? b (Validation.filled b f h) n = headerText? b h n := by
  have hother : ∀ k, Wire.Binary.isExtension b k = true → (Validation.filled b f h).get? k = h.get? k :=
    fun k hk =>
      Validation.get?_filled_of_ne ((Wire.Binary.isExtension_iff.1 hk).1 .id)
        ((Wire.Binary.isExtension_iff.1 hk).1 .time)
  have halias : (b.headerAlias? n).bind (Validation.filled b f h).get? = (b.headerAlias? n).bind h.get? := by
    unfold Binding.headerAlias?
    split
    · exact hother _ (by cases b <;> decide)
    · rfl
  rw [headerText?_eq, headerText?_eq, hother n (hn.isExtension b), halias]

theorem isFreeName_partitionKeyName : Wire.IsFreeName partitionKeyName := by decide

theorem isFreeName_sequenceName : Wire.IsFreeName sequenceName := by decide

theorem isFreeName_sequenceTypeName : Wire.IsFreeName sequenceTypeName := by decide

/-- The verdict of a kind does not hang on what validation fills in. -/
theorem verdict_filled (k : Extension) (f g : Fresh) :
    (k.validate b f (Validation.filled b g h)).2 = (k.validate b f h).2 := by
  cases k with
  | plain => rfl
  | correlated => rfl
  | partitioned => simp only [validate, headerText?_filled isFreeName_partitionKeyName]
  | sequenced =>
    simp only [validate, headerText?_filled isFreeName_sequenceName,
      headerText?_filled isFreeName_sequenceTypeName]

/-! ## The two forms of a rule -/

/-- A text that is there and not empty. -/
def IsPresent (s : Option String) : Prop := ∃ t, s = some t ∧ t ≠ ""

/-- A required text passes if it stands there and is not empty. -/
theorem checkPresent_eq_ok_iff {name : String} {s : Option String} :
    checkPresent name s = .ok () ↔ IsPresent s := by
  unfold checkPresent
  split
  · exact iff_of_false (by simp) fun ⟨_, heq, _⟩ => by simp at heq
  · exact iff_of_false (by simp) fun ⟨_, heq, hne⟩ => hne (Option.some.inj heq).symm
  · rename_i t hne
    exact iff_of_true rfl ⟨t, rfl, hne⟩

/-- Of two headers it matters which one goes first if both are there, and one is empty and the other is not. -/
theorem isPresent_or_comm_iff (x y : Option HeaderValue) :
    (IsPresent ((x.or y).map HeaderValue.display) ↔ IsPresent ((y.or x).map HeaderValue.display)) ↔
      ¬∃ v w, x = some v ∧ y = some w ∧ (v.display = "" ↔ w.display ≠ "") := by
  cases x with
  | none => simp
  | some v =>
    cases y with
    | none => simp
    | some w =>
      by_cases hv : v.display = "" <;> by_cases hw : w.display = "" <;> simp [IsPresent, hv, hw]

/-- A record whose key says one thing and whose partition key header another: one of them is empty and the
other is not. -/
def KeyContradicts (b : Binding) (h : Headers) : Prop :=
  b = .kafka ∧ ∃ own key, h.get? partitionKeyName = some own ∧ h.get? Binding.recordKey = some key ∧
    (own.display = "" ↔ key.display ≠ "")

/-- Only a record's partition key has another name. -/
theorem bind_headerAlias?_partitionKeyName :
    (b.headerAlias? partitionKeyName).bind h.get? = if b = .kafka then h.get? Binding.recordKey else none := by
  cases b <;> rfl

theorem exists_map_eq_ok_iff {r : Except Error Unit} {e : Event} :
    (∃ e', r.map (fun _ => e) = .ok e') ↔ r = .ok () := by
  cases r <;> simp [Except.map]

variable {m m' : Message} {e : Event}

/-- An attribute with no other name is the same on both sides. -/
theorem headerText?_eq_attribute? (hr : Wire.receive b m = (m', .ok .binary)) (hd : Wire.decode b m = .ok e)
    (hn : Wire.IsFreeName n) (hne : n ≠ partitionKeyName) : headerText? b m.headers n = e.attribute? n := by
  have halias : b.headerAlias? n = none := if_neg fun hand => hne hand.2
  rw [headerText?_eq, Wire.attribute?_eq hr hd hn, halias, Option.bind_none, Option.or_none, Option.none_or]

/-- **The two forms of a rule agree**, but on a partition key that contradicts itself. -/
theorem validate_agrees_check_iff (k : Extension) (f g : Fresh) (hr : Wire.receive b m = (m', .ok .binary))
    (hd : Wire.decode b m = .ok e) :
    ((k.validate b f m.headers).2 = .ok () ↔ ∃ e', k.check g e = .ok e') ↔
      ¬(k = .partitioned ∧ KeyContradicts b m.headers) := by
  cases k with
  | plain => exact iff_of_true (iff_of_true rfl ⟨e, rfl⟩) fun hand => absurd hand.1 (by decide)
  | correlated => exact iff_of_true (iff_of_true rfl ⟨_, rfl⟩) fun hand => absurd hand.1 (by decide)
  | partitioned =>
    -- One rule for the key on both sides, but the two headers it may stand in are tried in opposite orders.
    have hheaders : (partitioned.validate b f m.headers).2 = .ok () ↔
        IsPresent (((m.headers.get? partitionKeyName).or
          (if b = .kafka then m.headers.get? Binding.recordKey else none)).map HeaderValue.display) := by
      rw [← bind_headerAlias?_partitionKeyName, ← headerText?_eq]
      exact checkPresent_eq_ok_iff
    have hevent : (∃ e', partitioned.check g e = .ok e') ↔
        IsPresent (((if b = .kafka then m.headers.get? Binding.recordKey else none).or
          (m.headers.get? partitionKeyName)).map HeaderValue.display) := by
      rw [← bind_headerAlias?_partitionKeyName, ← Wire.attribute?_eq hr hd isFreeName_partitionKeyName]
      exact exists_map_eq_ok_iff.trans checkPresent_eq_ok_iff
    rw [hheaders, hevent, isPresent_or_comm_iff, KeyContradicts]
    by_cases hb : b = .kafka
    · rw [if_pos hb]
      simp only [hb, true_and]
    · rw [if_neg hb]
      simp [hb]
  | sequenced =>
    refine iff_of_true ?_ fun hand => absurd hand.1 (by decide)
    have hsequence := headerText?_eq_attribute? hr hd isFreeName_sequenceName (by decide)
    have htype := headerText?_eq_attribute? hr hd isFreeName_sequenceTypeName (by decide)
    simp only [validate, check, Event.sequence?, Event.sequenceType?, hsequence, htype, exists_map_eq_ok_iff]

end Extension

/-! ## The registry -/

namespace Registry

variable {b : Binding} {m m' : Message} {e : Event}

theorem find_tag (k : Extension) : standard.find k.tag = .ok k.kind := by
  cases k <;> rfl

/-- Of headers that keep to the rules for every envelope, the registry asks what the kind asks. -/
theorem validate_tag (k : Extension) (f : Fresh) {h : Headers} (hc : Validation.IsComplete b h) :
    (standard.validate k.tag b f h).2 = (k.validate b f h).2 := by
  rw [validate, find_tag]
  show (k.validateAll b f h).2 = _
  rw [Extension.validateAll, Validation.validateHeaders_of_isComplete hc]
  exact k.verdict_filled f f

/-- Of an event that keeps to the rules for every envelope, the registry asks what the kind asks. -/
theorem decode_tag (k : Extension) (g : Fresh) (hd : Wire.decode b m = .ok e)
    (hc : Validation.checkEvent e = .ok ()) : standard.decode k.tag b g m = k.check g e := by
  rw [decode, find_tag]
  show k.decode b g m = _
  rw [Extension.decode, hd]
  show (Validation.checkEvent e >>= fun _ => k.check g e) = _
  rw [hc]
  rfl

/-- **Validating and decoding as a kind agree** on every message in binary mode that is an envelope at all, but
for a record whose key is empty while its partition key header is not, or the other way around. -/
theorem validate_agrees_decode_iff (k : Extension) (f g : Fresh) (hr : (Wire.receive b m).2 = .ok .binary)
    (hd : Wire.decode b m = .ok e) (hc : Validation.checkEvent e = .ok ()) :
    (((k.validate b f m.headers).2 = .ok () ↔ ∃ e', k.check g e = .ok e') ↔
      ¬(k = .partitioned ∧ Extension.KeyContradicts b m.headers)) ∧
    (((standard.validate k.tag b f m.headers).2 = .ok () ↔ ∃ e', standard.decode k.tag b g m = .ok e') ↔
      ¬(k = .partitioned ∧ Extension.KeyContradicts b m.headers)) := by
  have hr : Wire.receive b m = ((Wire.receive b m).1, .ok .binary) := Prod.ext rfl hr
  have hcomplete : Validation.IsComplete b m.headers :=
    (Wire.isComplete_receive hr).1 ((Wire.describes_of_decode hr hd).isComplete_iff.2 hc)
  have hkind := Extension.validate_agrees_check_iff k f g hr hd
  refine ⟨hkind, ?_⟩
  rw [validate_tag k f hcomplete, decode_tag k g hd hc]
  exact hkind

/-- A record with a key and with a partition key header of its own. -/
def recordOf (key own : String) : Message where
  payload := .text "x"
  headers :=
    .ofList [("ce_id", .text "1"), ("ce_source", .text "/orders"), ("ce_type", .text "t"),
      ("ce_time", .text "2024-01-01T00:00:00Z"), (Binding.recordKey, .text key), (partitionKeyName, .text own)]

/-- What it is read as. -/
def recordEvent (key : String) : Event where
  id := some "1"
  source := some ⟨"/orders", by decide⟩
  type := some "t"
  time := Instant.of? 1704067200 0
  attributes := .ofList [(partitionKeyName, key)]
  data := some (.text "x")
  binding := .kafka

/-- A record whose key is not its partition key passes both ways. -/
theorem validate_agrees_decode_recordOf :
    Wire.decode .kafka (recordOf "k" "other") = .ok (recordEvent "k") ∧
      (standard.validate "partitioned" .kafka default (recordOf "k" "other").headers).2 = .ok () ∧
      ∃ e, standard.decode "partitioned" .kafka default (recordOf "k" "other") = .ok e := by
  have hdecode : Wire.decode .kafka (recordOf "k" "other") = .ok (recordEvent "k") := by decide +kernel
  have hcontradicts : ¬Extension.KeyContradicts .kafka (recordOf "k" "other").headers := by
    rintro ⟨-, own, key, hown, hkey, hand⟩
    have hown : own = .text "other" := Option.some.inj (hown.symm.trans (by decide +kernel))
    have hkey : key = .text "k" := Option.some.inj (hkey.symm.trans (by decide +kernel))
    subst hown hkey
    exact absurd (hand.2 (by decide)) (by decide)
  have hagree := (validate_agrees_decode_iff .partitioned default default (by decide +kernel) hdecode
    (by decide +kernel)).2.2 fun hand => hcontradicts hand.2
  have hdecoded : ∃ e, standard.decode "partitioned" .kafka default (recordOf "k" "other") = .ok e :=
    ⟨recordEvent "k", by decide +kernel⟩
  exact ⟨hdecode, hagree.2 hdecoded, hdecoded⟩

/-- A record whose key is there and whose partition key header is empty is read as an event with a key, but its
headers are not taken to have one. -/
theorem validate_contradicts_decode_recordOf :
    (Wire.receive .kafka (recordOf "k" "")).2 = .ok .binary ∧
      Wire.decode .kafka (recordOf "k" "") = .ok (recordEvent "k") ∧
      Validation.checkEvent (recordEvent "k") = .ok () ∧
      Extension.partitioned.check default (recordEvent "k") = .ok (recordEvent "k") ∧
      (Extension.partitioned.validate .kafka default (recordOf "k" "").headers).2 =
        .error (.invalid (.missingAttribute partitionKeyName)) ∧
      standard.decode "partitioned" .kafka default (recordOf "k" "") = .ok (recordEvent "k") ∧
      (standard.validate "partitioned" .kafka default (recordOf "k" "").headers).2 =
        .error (.invalid (.missingAttribute partitionKeyName)) := by
  refine ⟨?_, ?_, ?_, ?_, ?_, ?_, ?_⟩ <;> decide +kernel

end Registry

end CloudEvents
