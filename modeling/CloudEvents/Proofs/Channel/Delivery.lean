/-
  Delivery: what the subscriptions of a channel get to see.

  The happenings of a run are a log.  The sends take the lock one after the other, so their messages stand in
  the log in one order for everybody.  A subscription is made at some point of the log, and what it is given
  is read off from there on: the messages whose send was completed since (`stream`), and in the middle of
  a send that message as well if its turn has come.

  The invariant (`Sound`) says for every subscription of the log that the messages it has taken and those that
  wait for it are together its stream; when it has been dropped it has taken a part of the stream from the
  front (`Delivers`).  That one send serves every mailbox once is known already (`Reaching`).  Every change
  keeps the invariant, and so does every run.

  Main statement: `run_delivers`, for any sequence of steps of any number of parties.
-/
import CloudEvents.Proofs.Channel.Mailboxes
import Mathlib.Data.List.Forall2

namespace CloudEvents

namespace Exchange

/-! ## What can be read off from a log -/

/-- The message of a send that takes the lock. -/
def Happening.began? : Happening → Option Message
  | .began x => some x
  | _ => none

/-- The message of a send that is complete. -/
def Happening.sent? : Happening → Option Message
  | .sent x => some x
  | _ => none

/-- What an answer says about a message: the event, or why there is none.  Others are about no message. -/
def told? : Except ReceiveError (Option Event) → Option (Except Error Event)
  | .ok (some e) => some (.ok e)
  | .error (.envelope err) => some (.error err)
  | _ => none

/-- What a subscription is told about a message. -/
def Happening.found? (i : Nat) : Happening → Option (Fresh × Except Error Event)
  | .answered j f r => if j = i then (told? r).map (f, ·) else none
  | _ => none

/-- The messages whose send took the lock. -/
def begun (h : List Happening) : List Message := h.filterMap Happening.began?

/-- The messages whose send is complete. -/
def sent (h : List Happening) : List Message := h.filterMap Happening.sent?

/-- What a subscription was told about messages. -/
def found (i : Nat) (h : List Happening) : List (Fresh × Except Error Event) :=
  h.filterMap (Happening.found? i)

@[simp]
theorem begun_append (h new : List Happening) : begun (h ++ new) = begun h ++ begun new :=
  List.filterMap_append

@[simp]
theorem sent_append (h new : List Happening) : sent (h ++ new) = sent h ++ sent new :=
  List.filterMap_append

@[simp]
theorem found_append (i : Nat) (h new : List Happening) : found i (h ++ new) = found i h ++ found i new :=
  List.filterMap_append

/-- From an answer about a message one can tell what the message was read as. -/
theorem told?_answer (r : Except Error Event) : told? (answer r) = some r := by
  cases r <;> rfl

theorem found_answered_self (i : Nat) (f : Fresh) (r : Except ReceiveError (Option Event)) :
    found i [.answered i f r] = ((told? r).map (f, ·)).toList := by
  simp only [found, Happening.found?, if_true, List.filterMap_cons, List.filterMap_nil]
  cases told? r <;> rfl

theorem found_answered_of_ne {i j : Nat} (h : j ≠ i) (f : Fresh) (r : Except ReceiveError (Option Event)) :
    found i [.answered j f r] = [] := by
  simp only [found, Happening.found?, if_neg h, List.filterMap_cons, List.filterMap_nil]

/-- When a log grows, a subscription in it was in it before or is what is new. -/
theorem split_append {h before since : List Happening} {new : Option Happening} {i : Nat} {k : Option Kind}
    (hsplit : h ++ new.toList = before ++ .subscribed i k :: since) :
    (∃ since', since = since' ++ new.toList ∧ h = before ++ .subscribed i k :: since') ∨
      (new = some (.subscribed i k) ∧ since = []) := by
  cases new with
  | none => exact Or.inl ⟨since, by simp, by simpa using hsplit⟩
  | some e =>
    rcases List.eq_nil_or_concat since with rfl | ⟨since', e', rfl⟩
    · obtain ⟨-, he⟩ := List.append_inj' hsplit rfl
      exact Or.inr ⟨congrArg some (List.singleton_inj.1 he), rfl⟩
    · rw [List.concat_eq_append, ← List.cons_append, ← List.append_assoc] at hsplit
      obtain ⟨hh, he⟩ := List.append_inj' hsplit rfl
      exact Or.inl ⟨since', by rw [List.concat_eq_append, ← he], hh⟩

/-! ## Subscriptions -/

/-- The message of the send that is under way. -/
def inFlight (s : Exchange) : List Message := (s.sending.map Sending.message).toList

/-- The message of the send that is under way, if it is in a mailbox already. -/
def handed (s : Exchange) (i : Nat) : List Message :=
  match s.sending with
  | some d => if i ∈ d.served then [d.message] else []
  | none => []

/-- What a subscription is given after what happened since it was made. -/
def stream (s : Exchange) (i : Nat) (since : List Happening) : List Message := sent since ++ s.handed i

/-- A subscription of a channel, made for a kind or for none, has taken some messages of its stream. -/
structure Delivers (c : Config) (s : Exchange) (i : Nat) (k : Option Kind) (since : List Happening)
    (taken : List Message) : Prop where
  /-- It was told of each of them, in order, what it is read as under the binding of the channel, by the kind
  if there is one. -/
  decoded : List.Forall₂ (fun a x => a.2 = reading c.binding a.1 x k) (found i since) taken
  /-- The others wait for it, unless it was dropped. -/
  place : (s.subscription? i = some ⟨i, c.binding, k⟩ ∧
      ∃ q, s.medium.waiting? i = some q ∧ taken ++ q = s.stream i since) ∨
    (.dropped i ∈ since ∧ s.subscription? i = none ∧ s.medium.waiting? i = none ∧ taken <+: s.stream i since)

variable {c : Config} {s t : Exchange} {h : List Happening}

/-- Nothing changes for a subscription when what is about it does not change. -/
theorem Delivers.congr {i : Nat} {k : Option Kind} {since later : List Happening} {taken : List Message}
    (hd : Delivers c s i k since taken) (hsub : t.subscription? i = s.subscription? i)
    (hq : t.medium.waiting? i = s.medium.waiting? i) (hstream : t.stream i later = s.stream i since)
    (hlater : ∃ new, later = since ++ new ∧ found i new = []) : Delivers c t i k later taken := by
  obtain ⟨hdecoded, hplace⟩ := hd
  obtain ⟨new, rfl, hnew⟩ := hlater
  refine ⟨?_, ?_⟩
  · rw [found_append, hnew, List.append_nil]
    exact hdecoded
  · rw [hsub, hq, hstream]
    exact hplace.imp_right fun ⟨hdropped, h⟩ => ⟨List.mem_append_left _ hdropped, h⟩

/-! ## Steps -/

/-- Between two sends nobody has more than what was sent. -/
theorem handed_of_sending_eq_none (hnone : s.sending = none) (i : Nat) : s.handed i = [] := by
  simp only [handed, hnone]

/-- In the middle of a send those that were served have its message already. -/
theorem handed_of_sending {d : Sending} (hd : s.sending = some d) (i : Nat) :
    s.handed i = if i ∈ d.served then [d.message] else [] := by
  simp only [handed, hd]

/-- What is given to a subscription depends on the send that is under way and on those that are complete. -/
theorem stream_append {i : Nat} {since new : List Happening} (hsending : t.sending = s.sending)
    (hnew : sent new = []) : t.stream i (since ++ new) = s.stream i since := by
  simp only [stream, handed, hsending, sent_append, hnew, List.append_nil]

variable {i : Nat} {k : Option Kind} {since : List Happening}

/-- The message comes to the end of a mailbox that is there; the send did not serve it before. -/
theorem Delivers.hand {taken : List Message} (hd : Delivers c s i k since taken)
    (hs : Reaching s.medium s.sending) {d : Sending} {box : Nat} {left : List Nat} {q : List Message}
    (hsending : s.sending = some d) (hleft : d.left = box :: left) (hq : s.medium.waiting? box = some q) :
    Delivers c { s with
      medium := s.medium.put box (some (q ++ [d.message]))
      sending := some { d with served := d.served ++ [box], left } } i k since taken := by
  by_cases hbox : i = box
  · subst hbox
    -- No mailbox is served twice, so the message was not part of the stream before.
    have hnot : i ∉ d.served := by
      have hnodup := hs.nodup.sublist (hs.sublist d hsending)
      rw [hleft] at hnodup
      intro hmem
      exact (List.nodup_append.1 hnodup).2.2 i hmem i List.mem_cons_self rfl
    obtain ⟨hdecoded, ⟨hsub, q', hq', hstream⟩ | ⟨-, -, hgone, -⟩⟩ := hd
    · obtain rfl : q = q' := Option.some.inj (hq.symm.trans hq')
      refine ⟨hdecoded, Or.inl ⟨hsub, q ++ [d.message], ?_, ?_⟩⟩
      · exact s.medium.waiting?_put_self (Medium.lt_of_waiting? hq) _
      · rw [stream, handed_of_sending hsending, if_neg hnot, List.append_nil] at hstream
        rw [← List.append_assoc, hstream, stream, handed_of_sending rfl,
          if_pos (List.mem_append_right _ (List.mem_singleton.2 rfl))]
    · rw [hq] at hgone
      cases hgone
  · refine hd.congr rfl (s.medium.waiting?_put_of_ne hbox _) ?_ ⟨[], (List.append_nil _).symm, rfl⟩
    rw [stream, stream, handed_of_sending hsending, handed_of_sending rfl]
    simp [hbox]

/-- When a send is complete, its message is in every mailbox that is there. -/
theorem Delivers.complete {taken : List Message} (hd : Delivers c s i k since taken)
    (hs : Reaching s.medium s.sending) {d : Sending} (hsending : s.sending = some d) (hleft : d.left = []) :
    Delivers c { s with medium := { s.medium with senders := d.served }, sending := none } i k
      (since ++ [.sent d.message]) taken := by
  obtain ⟨hdecoded, hplace⟩ := hd
  refine ⟨?_, ?_⟩
  · rw [found_append, show found i [.sent d.message] = [] from rfl, List.append_nil]
    exact hdecoded
  · rw [stream, handed_of_sending hsending] at hplace
    rw [stream, handed_of_sending_eq_none rfl, List.append_nil, sent_append]
    -- Who is there has got the message; who is gone may or may not have got it, and has a prefix either way.
    rcases hplace with ⟨hsub, q, hq, hstream⟩ | ⟨hdropped, hsub, hgone, htaken⟩
    · have hmem := hs.mem_sending d hsending i q hq
      rw [hleft, List.append_nil] at hmem
      rw [if_pos hmem] at hstream
      exact Or.inl ⟨hsub, q, hq, hstream⟩
    · refine Or.inr ⟨List.mem_append_left _ hdropped, hsub, hgone, htaken.trans ?_⟩
      rw [List.prefix_append_right_inj]
      split
      · exact List.prefix_refl _
      · exact List.nil_prefix

/-- A message that is taken is told of, and the others go on waiting. -/
theorem Delivers.took {taken : List Message} (hd : Delivers c s i k since taken)
    {sub : Channel.Subscription} {x : Message} {rest : List Message} (hsub : s.subscription? i = some sub)
    (hq : s.medium.waiting? i = some (x :: rest)) (f : Fresh) :
    Delivers c { s with medium := s.medium.put i (some rest) } i k
      (since ++ [.answered i f (answer (reading sub.binding f x sub.kind))]) (taken ++ [x]) := by
  obtain ⟨hdecoded, ⟨hsub', q, hq', hstream⟩ | ⟨-, hnone, -⟩⟩ := hd
  · obtain rfl := Option.some.inj (hsub.symm.trans hsub')
    obtain rfl := Option.some.inj (hq'.symm.trans hq)
    refine ⟨?_, Or.inl ⟨hsub, rest, ?_, ?_⟩⟩
    · rw [found_append, found_answered_self, told?_answer]
      exact List.rel_append hdecoded (.cons rfl .nil)
    · exact s.medium.waiting?_put_self (Medium.lt_of_waiting? hq) _
    · rw [List.append_assoc, List.singleton_append, hstream]
      exact (stream_append rfl rfl).symm
  · rw [hsub] at hnone
    cases hnone

/-- Who goes away has taken the first of the messages. -/
theorem Delivers.dropped {taken : List Message} (hd : Delivers c s i k since taken)
    {sub : Channel.Subscription} (hsub : s.subscription? i = some sub) :
    Delivers c { s with medium := s.medium.drop i, subscriptions := s.subscriptions.set i none } i k
      (since ++ [.dropped i]) taken := by
  obtain ⟨hdecoded, ⟨-, q, -, htaken⟩ | ⟨-, hnone, -⟩⟩ := hd
  · refine ⟨?_, Or.inr ⟨List.mem_append_right _ (List.mem_singleton.2 rfl), ?_, ?_, q, ?_⟩⟩
    · rw [found_append, show found i [.dropped i] = [] from rfl, List.append_nil]
      exact hdecoded
    · simp [subscription?, Medium.join_getElem?_set_none]
    · simp [Medium.waiting?_drop]
    · exact htaken.trans (stream_append rfl rfl).symm
  · rw [hsub] at hnone
    cases hnone

/-- A subscription that there is already goes on with what it is given. -/
theorem Delivers.change {taken : List Message} (hd : Delivers c s i k since taken) (hn : Numbered c s h)
    (hs : Reaching s.medium s.sending) (hi : i < s.subscriptions.length) {r : Exchange × Option Happening}
    (hr : Change s r) : ∃ later, Delivers c r.1 i k (since ++ r.2.toList) later := by
  cases hr with
  | nothing => exact ⟨taken, hd.congr rfl rfl (stream_append rfl rfl) ⟨_, rfl, rfl⟩⟩
  | failed => exact ⟨taken, hd.congr rfl rfl (stream_append rfl rfl) ⟨_, rfl, rfl⟩⟩
  | joined k' hfree =>
    have hbox : i ≠ s.medium.mailboxes.length := by
      rw [hn.length_eq]
      exact Nat.ne_of_lt hi
    exact ⟨taken, hd.congr (subscription?_join_of_ne (Nat.ne_of_lt hi) _)
      (s.medium.waiting?_openMailbox_of_ne hbox) (stream_append rfl rfl) ⟨_, rfl, rfl⟩⟩
  | began x hfree =>
    refine ⟨taken, hd.congr rfl rfl ?_ ⟨_, rfl, rfl⟩⟩
    rw [stream, stream, handed_of_sending_eq_none hfree.sending_eq_none, handed_of_sending rfl, sent_append]
    simp [begin, sent, Happening.sent?]
  | handed d box left q hsending hleft hq =>
    rw [Option.toList_none, List.append_nil]
    exact ⟨taken, hd.hand hs hsending hleft hq⟩
  | skipped d box left hsending hleft hq =>
    refine ⟨taken, hd.congr rfl rfl ?_ ⟨_, rfl, rfl⟩⟩
    rw [stream, stream, handed_of_sending hsending, handed_of_sending rfl, sent_append]
    simp [sent]
  | sent d hsending hleft => exact ⟨taken, hd.complete hs hsending hleft⟩
  | closed hfree => exact ⟨taken, hd.congr rfl rfl (stream_append rfl rfl) ⟨_, rfl, rfl⟩⟩
  | released hnone hmode =>
    exact ⟨taken, hd.congr rfl rfl (stream_append rfl rfl) ⟨_, rfl, rfl⟩⟩
  | took j f sub x rest hsub hq =>
    rw [hn.mailbox j sub hsub] at hq ⊢
    by_cases hj : i = j
    · subst hj
      exact ⟨taken ++ [x], hd.took hsub hq f⟩
    · exact ⟨taken, hd.congr rfl (s.medium.waiting?_put_of_ne hj _) (stream_append rfl rfl)
        ⟨_, rfl, found_answered_of_ne (Ne.symm hj) _ _⟩⟩
  | missed j f sub hsub hq =>
    refine ⟨taken, hd.congr rfl rfl (stream_append rfl rfl) ⟨_, rfl, ?_⟩⟩
    by_cases hj : j = i
    · rw [hj, Option.toList_some, found_answered_self]
      split <;> rfl
    · exact found_answered_of_ne hj _ _
  | dropped j sub hsub =>
    rw [hn.mailbox j sub hsub]
    by_cases hj : i = j
    · subst hj
      exact ⟨taken, hd.dropped hsub⟩
    · refine ⟨taken, hd.congr ?_ ?_ (stream_append rfl rfl) ⟨_, rfl, rfl⟩⟩
      · simp [subscription?, Medium.join_getElem?_set_none, hj]
      · simp [Medium.waiting?_drop, hj]

/-! ## Runs -/

/-- What holds of an exchange and of the log of its happenings. -/
structure Sound (c : Config) (s : Exchange) (h : List Happening) : Prop where
  numbered : Numbered c s h
  reaching : Reaching s.medium s.sending
  mode : (.closed ∉ h ∧ s.medium.mode = .carrying) ∨
    (.closed ∈ h ∧ s.medium.mode = .closed ∧ s.sending = none)
  begun_eq : begun h = sent h ++ s.inFlight
  delivers : ∀ before i k since, h = before ++ .subscribed i k :: since →
    ∃ taken, Delivers c s i k since taken

/-- An exchange that nobody uses yet. -/
def empty (c : Config) : Exchange := { config := c }

/-- Before the first step there is nothing to say. -/
theorem Sound.empty (c : Config) : Sound c (empty c) [] where
  numbered := ⟨rfl, rfl, by simp [Exchange.empty, subscription?], by simp⟩
  reaching := ⟨List.Pairwise.nil, by simp [Exchange.empty], by simp [Exchange.empty, Medium.waiting?],
    by simp [Exchange.empty], by simp [Exchange.empty]⟩
  mode := Or.inl ⟨by simp, rfl⟩
  begun_eq := rfl
  delivers := by simp

/-- A new subscription has an empty mailbox of its own, and nobody is in the middle of a send. -/
theorem delivers_joined (hn : Numbered c s h) (hfree : s.IsFree) (k : Option Kind) :
    Delivers c (s.join (s.medium.openMailbox.1,
      { mailbox := s.medium.openMailbox.2, binding := s.config.binding, kind := k })).1
      s.subscriptions.length k [] [] := by
  refine ⟨List.Forall₂.nil, Or.inl ⟨?_, [], ?_, ?_⟩⟩
  · rw [subscription?_join_self, hn.config, ← hn.length_eq]
    rfl
  · rw [← hn.length_eq]
    exact s.medium.waiting?_openMailbox_self
  · simp [stream, handed, join, hfree.sending_eq_none, sent]

/-- A send is under way from when it takes the lock until it is complete. -/
theorem inFlight_change {r : Exchange × Option Happening} (hr : Change s r) :
    s.inFlight ++ begun r.2.toList = sent r.2.toList ++ r.1.inFlight := by
  cases hr with
  | began x hfree =>
    simp [begin, inFlight, hfree.sending_eq_none, begun, sent, Happening.began?, Happening.sent?]
  | handed d box left q hsending =>
    simp [inFlight, hsending, begun, sent]
  | skipped d box left hsending =>
    simp [inFlight, hsending, begun, sent]
  | sent d hsending =>
    simp [inFlight, hsending, begun, sent, Happening.began?, Happening.sent?]
  | _ => exact List.append_nil _

/-- The mode is the one that the log tells of. -/
theorem Sound.mode_change {r : Exchange × Option Happening} (hr : Change s r) (hs : Sound c s h) :
    (.closed ∉ h ++ r.2.toList ∧ r.1.medium.mode = .carrying) ∨
      (.closed ∈ h ++ r.2.toList ∧ r.1.medium.mode = .closed ∧ r.1.sending = none) := by
  have hmode := hs.mode
  cases hr with
  | joined k hfree => simpa [join, Medium.openMailbox] using hmode
  | began x hfree =>
    rcases hmode with ⟨hopen, hcarrying⟩ | ⟨-, hclosed, -⟩
    · exact Or.inl ⟨by simpa [begin] using hopen, hcarrying⟩
    · rw [hfree.1] at hclosed
      cases hclosed
  | handed d box left q hsending =>
    rw [hsending] at hmode
    simpa [Medium.put] using hmode
  | skipped d box left hsending =>
    rw [hsending] at hmode
    simpa using hmode
  | sent d hsending =>
    rw [hsending] at hmode
    exact Or.inl (by simpa using hmode)
  | closed hfree => exact Or.inr ⟨by simp, rfl, hfree.sending_eq_none⟩
  | took => simpa [Medium.put] using hmode
  | dropped => simpa [Medium.drop, Medium.put] using hmode
  | _ => simpa using hmode

/-- **What every change keeps.** -/
theorem Sound.change {r : Exchange × Option Happening} (hr : Change s r) (hs : Sound c s h) :
    Sound c r.1 (h ++ r.2.toList) := by
  refine ⟨hs.numbered.change hr, hs.reaching.change hr, hs.mode_change hr, ?_, ?_⟩
  · rw [begun_append, sent_append, hs.begun_eq, List.append_assoc, List.append_assoc, inFlight_change hr]
  · intro before i k since hsplit
    -- A subscription of the longer log goes on with what it was given, or has just been made.
    rcases split_append hsplit with ⟨since', rfl, hsplit'⟩ | ⟨hnew, rfl⟩
    · obtain ⟨taken, hd⟩ := hs.delivers before i k since' hsplit'
      have hi : i < s.subscriptions.length := hs.numbered.lt i k (by rw [hsplit']; simp)
      exact hd.change hs.numbered hs.reaching hi hr
    · cases hr with
      | joined k' hfree =>
        obtain ⟨rfl, rfl⟩ := Happening.subscribed.inj (Option.some.inj hnew)
        exact ⟨[], delivers_joined hs.numbered hfree k'⟩
      | _ => cases hnew

/-- **What every run keeps.** -/
theorem Sound.run (hs : Sound c s h) (cs : List Command) : Sound c (s.run cs).1 (h ++ (s.run cs).2) := by
  -- Induction on the steps, from any exchange and behind any log.
  induction cs generalizing s h with
  | nil => simpa [Exchange.run] using hs
  | cons cmd cs ih =>
    rw [run_cons, ← List.append_assoc]
    exact ih (hs.change (change_step s cmd))

/-! ## The log and what was asked for -/

/-- What takes the lock for something that others see. -/
inductive Request where
  | join (k : Option Kind)
  | send (x : Message)

/-- What a step asks for, if it gets as far as the lock. -/
def Command.request? (c : Config) : Command → Option Request
  | .subscribe => some (.join none)
  | .subscribeKind r tag => (r.find tag).toOption.map fun k => .join (some k)
  | .send x => some (.send x.received)
  | .publish e f => (Channel.outgoing c e f).toOption.map fun x => .send x.received
  | _ => none

/-- What was asked for and got the lock. -/
def Happening.granted? : Happening → Option Request
  | .subscribed _ k => some (.join k)
  | .began x => some (.send x)
  | _ => none

/-- What got the lock in the course of a log. -/
def granted (h : List Happening) : List Request := h.filterMap Happening.granted?

theorem config_change {r : Exchange × Option Happening} (hr : Change s r) : r.1.config = s.config := by
  cases hr <;> rfl

/-- Waiting for the lock adds nothing to what is granted. -/
theorem granted_whenFree (r : Exchange × Option Happening) :
    (granted (s.whenFree r).2.toList).Sublist (granted r.2.toList) := by
  unfold whenFree
  split
  · exact List.Sublist.refl _
  · exact List.nil_sublist _

/-- A step is granted what it asks for or nothing. -/
theorem granted_step (s : Exchange) (cmd : Command) :
    (granted (s.step cmd).2.toList).Sublist (cmd.request? s.config).toList := by
  cases cmd with
  | subscribe => exact granted_whenFree _
  | subscribeKind r tag =>
    simp only [step, Channel.subscribeKind, Command.request?]
    cases r.find tag with
    | error err => exact List.nil_sublist _
    | ok k => exact granted_whenFree _
  | send x => exact granted_whenFree _
  | publish e f =>
    simp only [step, Command.request?]
    cases Channel.outgoing s.config e f with
    | error err => exact List.nil_sublist _
    | ok x => exact granted_whenFree _
  | proceed =>
    simp only [step, proceed]
    split
    · split <;> exact List.nil_sublist _
    · split <;> exact List.nil_sublist _
  | next i f =>
    simp only [step]
    split <;> exact List.nil_sublist _
  | drop i =>
    simp only [step]
    split <;> exact List.nil_sublist _
  | close => exact granted_whenFree _

/-- What is asked for when the lock is free is granted. -/
theorem granted_step_of_isFree (hs : s.IsFree) {cmd : Command} {q : Request}
    (hq : cmd.request? s.config = some q) : granted (s.step cmd).2.toList = [q] := by
  have hfree : ∀ r, granted (s.whenFree r).2.toList = granted r.2.toList := by
    intro r
    rw [whenFree, if_pos hs]
  cases cmd with
  | subscribe =>
    obtain rfl := Option.some.inj hq
    exact hfree _
  | subscribeKind r tag =>
    simp only [Command.request?] at hq
    simp only [step, Channel.subscribeKind]
    cases hk : r.find tag with
    | error err => simp [hk, Except.toOption] at hq
    | ok k =>
      rw [hk] at hq
      obtain rfl := Option.some.inj hq
      exact hfree _
  | send x =>
    obtain rfl := Option.some.inj hq
    exact hfree _
  | publish e f =>
    simp only [Command.request?] at hq
    simp only [step]
    cases hx : Channel.outgoing s.config e f with
    | error err => simp [hx, Except.toOption] at hq
    | ok x =>
      rw [hx] at hq
      obtain rfl := Option.some.inj hq
      exact hfree _
  | proceed => cases hq
  | next i f => cases hq
  | drop i => cases hq
  | close => cases hq

/-- **Nothing gets into a log that nobody asked for**: what is sent and who subscribes is what the steps of
the run ask for, each at most once and in the same order. -/
theorem granted_run (s : Exchange) (cs : List Command) :
    (granted (s.run cs).2).Sublist (cs.filterMap (Command.request? s.config)) := by
  induction cs generalizing s with
  | nil => exact List.nil_sublist _
  | cons cmd cs ih =>
    -- The configuration stays, so what the other steps ask for is the same after this one.
    have hrest := ih (s.step cmd).1
    rw [config_change (change_step s cmd)] at hrest
    have hstep := granted_step s cmd
    rw [run_cons, granted, List.filterMap_append, List.filterMap_cons]
    cases hm : cmd.request? s.config with
    | none =>
      rw [hm] at hstep
      exact hstep.append hrest
    | some x =>
      rw [hm] at hstep
      exact hstep.append hrest

/-! ## Delivery -/

/-- Where something waits the subscription is still there, with the rules that it was made with. -/
theorem Delivers.subscription?_eq {taken q : List Message} (hd : Delivers c s i k since taken)
    (hq : s.medium.waiting? i = some q) : s.subscription? i = some ⟨i, c.binding, k⟩ := by
  rcases hd.place with ⟨hsub, -⟩ | ⟨-, -, hgone, -⟩
  · exact hsub
  · rw [hq] at hgone
    cases hgone

/-- The lock is free unless a send holds it or the channel was dropped. -/
theorem Sound.isFree (hs : Sound c s h) (hopen : .closed ∉ h) (hnone : s.sending = none) : s.IsFree := by
  rcases hs.mode with ⟨-, hcarrying⟩ | ⟨hclosed, -⟩
  · exact ⟨hcarrying, by rw [hnone]; rfl⟩
  · exact absurd hclosed hopen

/-- Whose turn it is in the stream of a subscription is the same for everybody. -/
theorem Sound.stream_prefix (hs : Sound c s h) {before : List Happening}
    (hsplit : h = before ++ .subscribed i k :: since) :
    sent before ++ s.stream i since <+: begun h := by
  rw [hs.begun_eq, hsplit, sent_append]
  show sent before ++ (sent since ++ s.handed i) <+:
    sent before ++ sent since ++ s.inFlight
  rw [← List.append_assoc, List.prefix_append_right_inj]
  unfold handed inFlight
  split
  · rename_i d hd
    rw [hd]
    split
    · exact List.prefix_refl _
    · exact List.nil_prefix
  · exact List.nil_prefix

/-- A subscription is told that the channel was dropped when it has taken all of its stream. -/
theorem Sound.delivers_sent (hs : Sound c s h) {before : List Happening}
    (hsplit : h = before ++ .subscribed i k :: since) {f : Fresh}
    (hclosed : (s.step (.next i f)).2 = some (.answered i f (.error .closed))) :
    .closed ∈ h ∧ Delivers c s i k since (sent since) := by
  obtain ⟨taken, hd⟩ := hs.delivers before i k since hsplit
  rcases hd.place with ⟨hsub, q, hq, hstream⟩ | ⟨-, hnone, -⟩
  · cases q with
    | cons x rest =>
      rw [step_next_of_cons hsub hq] at hclosed
      have hanswer := (Happening.answered.inj (Option.some.inj hclosed)).2.2
      -- An answer about a message is not the news that the channel was dropped.
      have htold := told?_answer (reading c.binding f x k)
      rw [hanswer] at htold
      cases htold
    | nil =>
      have hne : ∀ x rest, s.medium.waiting? i ≠ some (x :: rest) := by simp [hq]
      rw [step_next_of_forall_ne hsub hne] at hclosed
      have hmem : i ∉ s.medium.senders := by
        intro hmem
        simp [hmem] at hclosed
      rcases hs.mode with ⟨-, hcarrying⟩ | ⟨hlog, -, hnone⟩
      · exact absurd (hs.reaching.mem hcarrying i [] hq) hmem
      · refine ⟨hlog, ?_⟩
        rw [stream, handed_of_sending_eq_none hnone, List.append_nil, List.append_nil] at hstream
        rw [← hstream]
        exact hd
  · simp [step, hnone] at hclosed

/-- **Every subscription is given what was sent since it was made**, each message once, in the order of the
log and decoded by its own rules, in every run of any number of parties.  Only what somebody asked for is
sent; what is asked for when the lock is free is granted, and a send that began can be completed and is
complete before the next one begins.  Who reads takes the first message that waits and touches nothing else.
When the channel was dropped, what waits is still there to be taken, and a subscription is told of it only
when it has been told of all that was sent.  An event that cannot be published leaves everything as it is. -/
theorem run_delivers {cs : List Command} (hrun : (empty c).run cs = (s, h)) :
    (granted h).Sublist (cs.filterMap (Command.request? c)) ∧ begun h = sent h ++ s.inFlight ∧
    (.closed ∉ h → s.sending = none →
      (∀ cmd q, Command.request? c cmd = some q → granted (s.step cmd).2.toList = [q]) ∧
      s.run (.close :: List.replicate s.medium.senders.length .proceed) =
        ({ s with medium := s.medium.close }, [.closed])) ∧
    (∀ d, s.sending = some d →
      (s.run (List.replicate (d.left.length + 1) .proceed)).2 = [.sent d.message]) ∧
    (∀ before i k since, h = before ++ .subscribed i k :: since →
      (∃ taken, Delivers c s i k since taken) ∧
      sent before ++ s.stream i since <+: begun h ∧
      (∀ x rest f, s.medium.waiting? i = some (x :: rest) →
        s.step (.next i f) = ({ s with medium := s.medium.put i (some rest) },
          some (.answered i f (answer (reading c.binding f x k))))) ∧
      (s.medium.waiting? i = some [] → ∀ f, s.step (.next i f) =
        (s, some (.answered i f (if i ∈ s.medium.senders then .ok none else .error .closed)))) ∧
      (∀ f, (s.step (.next i f)).2 = some (.answered i f (.error .closed)) →
        .closed ∈ h ∧ Delivers c s i k since (sent since))) ∧
    (∀ e f err, Channel.outgoing c e f = .error err →
      s.step (.publish e f) = (s, some (.failed err))) := by
  have hs : Sound c s h := by
    have hs := (Sound.empty c).run cs
    rwa [hrun, List.nil_append] at hs
  have hgranted := granted_run (empty c) cs
  rw [hrun] at hgranted
  refine ⟨hgranted, hs.begun_eq, ?_, ?_, ?_, ?_⟩
  · intro hopen hnone
    have hfree := hs.isFree hopen hnone
    refine ⟨?_, run_close hfree⟩
    intro cmd q hq
    rw [← hs.numbered.config] at hq
    exact granted_step_of_isFree hfree hq
  · intro d hd
    rw [run_proceed_of_sending s d hd]
  · intro before i k since hsplit
    obtain ⟨taken, hd⟩ := hs.delivers before i k since hsplit
    refine ⟨⟨taken, hd⟩, hs.stream_prefix hsplit, ?_, ?_, fun f => hs.delivers_sent hsplit⟩
    · intro x rest f hq
      exact step_next_of_cons (hd.subscription?_eq hq) hq f
    · intro hq f
      exact step_next_of_forall_ne (hd.subscription?_eq hq) (by simp [hq]) f
  · intro e f err herr
    simp only [step, hs.numbered.config, herr]

/-- A message with the headers of an event, but no partition key. -/
def news : Outgoing where
  payload := .text "news"
  headers := .ofList [("ce_id", .text "1"), ("ce_source", .text "/desk"), ("ce_type", .text "news")]

/-- What it is read as. -/
def newsEvent : Event where
  id := some "1"
  source := some ⟨"/desk", by decide⟩
  type := some "news"
  data := some (.text "news")
  binding := .http

/-- Three subscribe, one of them to a kind whose events have a key; the first goes away in the middle of a send,
and then the channel is dropped. -/
def departingSteps : List Command :=
  [.subscribe, .subscribe, .subscribeKind .standard Extension.partitioned.tag, .send news, .drop 0, .proceed,
    .proceed, .proceed, .proceed, .close]

/-- Whoever leaves in the middle has nothing left to wait for.  Of the two that stay one is told of the event,
and the other, whose kind asks for a key, of the error. -/
theorem run_departingSteps : ∃ s, (empty { binding := .http }).run departingSteps =
      (s, [.subscribed 0 none, .subscribed 1 none, .subscribed 2 (some Extension.partitioned.kind),
        .began news.received, .dropped 0, .sent news.received, .closed]) ∧
    (∃ taken, Delivers { binding := .http } s 0 none [.subscribed 1 none,
      .subscribed 2 (some Extension.partitioned.kind), .began news.received, .dropped 0, .sent news.received,
      .closed] taken) ∧
    (s.step (.next 1 default)).2 = some (.answered 1 default (.ok (some newsEvent))) ∧
    (s.step (.next 2 default)).2 =
      some (.answered 2 default (.error (.envelope (.invalid (.missingAttribute partitionKeyName))))) := by
  obtain ⟨s, hrun, hplain, hkind⟩ : ∃ s, (empty { binding := .http }).run departingSteps =
      (s, [.subscribed 0 none, .subscribed 1 none, .subscribed 2 (some Extension.partitioned.kind),
        .began news.received, .dropped 0, .sent news.received, .closed]) ∧
      s.medium.waiting? 1 = some [news.received] ∧ s.medium.waiting? 2 = some [news.received] :=
    ⟨_, rfl, rfl, rfl⟩
  have hread : reading .http default news.received none = .ok newsEvent := by decide +kernel
  have hrefused : reading .http default news.received (some Extension.partitioned.kind) =
      .error (.invalid (.missingAttribute partitionKeyName)) := by decide +kernel
  obtain ⟨-, -, -, -, hsubs, -⟩ := run_delivers hrun
  obtain ⟨hfirst, -⟩ := hsubs [] 0 none _ rfl
  obtain ⟨-, -, hnext, -⟩ := hsubs [.subscribed 0 none] 1 none _ rfl
  obtain ⟨-, -, hnext', -⟩ := hsubs [.subscribed 0 none, .subscribed 1 none] 2 _ _ rfl
  have h1 := hnext _ _ default hplain
  have h2 := hnext' _ _ default hkind
  rw [hread] at h1
  rw [hrefused] at h2
  exact ⟨s, hrun, hfirst, congrArg Prod.snd h1, congrArg Prod.snd h2⟩

end Exchange

end CloudEvents
