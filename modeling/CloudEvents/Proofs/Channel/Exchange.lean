/-
  What a step of an exchange can do, and what it comes to if nobody is in between.

  `Change` lists the twelve things that can come of a step, each with the condition under which it does.
  What is proved of every step is proved of these, one case after the other, and the steps are not opened
  again.

  An exchange cuts sending and closing into small steps.  If nothing comes between the steps of a send, they
  come to what the medium does when it sends (`run_send`, `run_publish`), and in the same way the steps of
  closing come to what the medium does when it closes (`run_close`).  So the small steps only add what can
  happen in between.

  What a subscription answers is told without asking the subscription: a message is read under the binding
  alone, or by the rules of a kind (`reading`), and either the event comes back or the error (`answer`).
-/
import CloudEvents.Exchange

namespace CloudEvents

namespace Exchange

/-! ## Answers -/

/-- What a message is read as where no kind was asked for, and by a kind where one was. -/
def reading (b : Binding) (f : Fresh) (x : Message) : Option Kind → Except Error Event
  | none => Wire.decode b x
  | some k => k.decode b f x

/-- What whoever asks is told of a message: the event, or why it is none. -/
def answer : Except Error Event → Except ReceiveError (Option Event)
  | .ok e => .ok (some e)
  | .error err => .error (.envelope err)

/-- A subscription reads a message under its binding and by its kind. -/
theorem decode_eq_reading (sub : Channel.Subscription) (f : Fresh) (x : Message) :
    sub.decode f x = reading sub.binding f x sub.kind := by
  unfold Channel.Subscription.decode
  cases sub.kind <;> rfl

/-- What was read is handed on as it is, an event or an error. -/
theorem answer_eq (r : Except Error Event) : (r.map some).mapError .envelope = answer r := by
  cases r <;> rfl

/-! ## Steps -/

/-- Whose lock is free has no send under way. -/
theorem IsFree.sending_eq_none {s : Exchange} (hs : s.IsFree) : s.sending = none :=
  Option.isNone_iff_eq_none.1 hs.2

/-- What can come of a step. -/
inductive Change (s : Exchange) : Exchange × Option Happening → Prop where
  | nothing : Change s (s, none)
  | failed (err : Error) : Change s (s, some (.failed err))
  | joined (k : Option Kind) : s.IsFree →
      Change s (s.join (s.medium.openMailbox.1,
        { mailbox := s.medium.openMailbox.2, binding := s.config.binding, kind := k }))
  | began (x : Message) : s.IsFree → Change s (s.begin x)
  /-- The next mailbox is there. -/
  | handed (d : Sending) (box : Nat) (left : List Nat) (q : List Message) :
      s.sending = some d → d.left = box :: left → s.medium.waiting? box = some q →
      Change s ({ s with
        medium := s.medium.put box (some (q ++ [d.message]))
        sending := some { d with served := d.served ++ [box], left } }, none)
  /-- The next mailbox is gone. -/
  | skipped (d : Sending) (box : Nat) (left : List Nat) :
      s.sending = some d → d.left = box :: left → s.medium.waiting? box = none →
      Change s ({ s with sending := some { d with left } }, none)
  | sent (d : Sending) : s.sending = some d → d.left = [] →
      Change s ({ s with medium := { s.medium with senders := d.served }, sending := none },
        some (.sent d.message))
  | closed : s.IsFree → Change s ({ s with medium := { s.medium with mode := .closed } }, some .closed)
  /-- One more mailbox is told that the channel was dropped. -/
  | released : s.sending = none → s.medium.mode = .closed →
      Change s ({ s with medium := { s.medium with senders := s.medium.senders.tail } }, none)
  | took (i : Nat) (f : Fresh) (sub : Channel.Subscription) (x : Message) (rest : List Message) :
      s.subscription? i = some sub → s.medium.waiting? sub.mailbox = some (x :: rest) →
      Change s ({ s with medium := s.medium.put sub.mailbox (some rest) },
        some (.answered i f (answer (reading sub.binding f x sub.kind))))
  /-- Nothing waits for a subscription. -/
  | missed (i : Nat) (f : Fresh) (sub : Channel.Subscription) : s.subscription? i = some sub →
      (∀ x rest, s.medium.waiting? sub.mailbox ≠ some (x :: rest)) →
      Change s (s, some (.answered i f (if sub.mailbox ∈ s.medium.senders then .ok none else .error .closed)))
  | dropped (i : Nat) (sub : Channel.Subscription) : s.subscription? i = some sub →
      Change s ({ s with
        medium := s.medium.drop sub.mailbox
        subscriptions := s.subscriptions.set i none }, some (.dropped i))

/-- A step that needs the lock does what it would do with it, or nothing. -/
theorem Change.whenFree {s : Exchange} {r : Exchange × Option Happening} (h : s.IsFree → Change s r) :
    Change s (s.whenFree r) := by
  unfold Exchange.whenFree
  split
  · exact h ‹_›
  · exact .nothing

/-- Where a message waits, it is taken, and whoever asked is told what it is read as. -/
theorem step_next_of_cons {s : Exchange} {i : Nat} {sub : Channel.Subscription} {x : Message}
    {rest : List Message} (hsub : s.subscription? i = some sub)
    (hq : s.medium.waiting? sub.mailbox = some (x :: rest)) (f : Fresh) :
    s.step (.next i f) = ({ s with medium := s.medium.put sub.mailbox (some rest) },
      some (.answered i f (answer (reading sub.binding f x sub.kind)))) := by
  simp only [step, hsub, Channel.Subscription.next, Medium.take, hq, decode_eq_reading, answer_eq]

/-- Where nothing waits, nothing changes: more may come, or the channel was dropped. -/
theorem step_next_of_forall_ne {s : Exchange} {i : Nat} {sub : Channel.Subscription}
    (hsub : s.subscription? i = some sub)
    (hq : ∀ x rest, s.medium.waiting? sub.mailbox ≠ some (x :: rest)) (f : Fresh) :
    s.step (.next i f) =
      (s, some (.answered i f (if sub.mailbox ∈ s.medium.senders then .ok none else .error .closed))) := by
  have htake : s.medium.take sub.mailbox =
      (s.medium, if sub.mailbox ∈ s.medium.senders then .nothing else .closed) := by
    unfold Medium.take
    split
    · exact absurd ‹_› (hq _ _)
    · rfl
  simp only [step, hsub, Channel.Subscription.next, htake]
  by_cases hmem : sub.mailbox ∈ s.medium.senders
  · simp only [if_pos hmem]
  · simp only [if_neg hmem]

/-- Going on with what is under way is one of five things. -/
theorem change_proceed (s : Exchange) : Change s s.proceed := by
  unfold proceed
  split
  · rename_i d hd
    split
    · rename_i box left hleft
      cases hq : s.medium.waiting? box with
      | none =>
        simp only [Medium.hand, hq, List.append_nil]
        exact .skipped d box left hd hleft hq
      | some q =>
        simp only [Medium.hand, hq]
        exact .handed d box left q hd hleft hq
    · exact .sent d hd ‹_›
  · split
    · exact .released ‹_› ‹_›
    · exact .nothing

/-- **What can come of a step.** -/
theorem change_step (s : Exchange) (c : Command) : Change s (s.step c) := by
  cases c with
  | subscribe => exact .whenFree (.joined none)
  | subscribeKind r tag =>
    simp only [step, Channel.subscribeKind]
    cases r.find tag with
    | error err => exact .failed err
    | ok k => exact .whenFree (.joined (some k))
  | send x => exact .whenFree (.began x.received)
  | publish e f =>
    simp only [step]
    cases Channel.outgoing s.config e f with
    | error err => exact .failed err
    | ok x => exact .whenFree (.began x.received)
  | proceed => exact change_proceed s
  | next i f =>
    cases hsub : s.subscription? i with
    | none =>
      simp only [step, hsub]
      exact .nothing
    | some sub =>
      by_cases hq : ∃ x rest, s.medium.waiting? sub.mailbox = some (x :: rest)
      · obtain ⟨x, rest, hq⟩ := hq
        rw [step_next_of_cons hsub hq]
        exact .took i f sub x rest hsub hq
      · have hne : ∀ x rest, s.medium.waiting? sub.mailbox ≠ some (x :: rest) :=
          fun x rest h => hq ⟨x, rest, h⟩
        rw [step_next_of_forall_ne hsub hne]
        exact .missed i f sub hsub hne
  | drop i =>
    cases hsub : s.subscription? i with
    | none =>
      simp only [step, hsub]
      exact .nothing
    | some sub =>
      simp only [step, hsub]
      exact .dropped i sub hsub
  | close => exact .whenFree .closed

/-! ## Without anything in between -/

theorem run_cons (s : Exchange) (c : Command) (cs : List Command) :
    s.run (c :: cs) = (((s.step c).1.run cs).1, (s.step c).2.toList ++ ((s.step c).1.run cs).2) :=
  rfl

/-- The steps that hand a message out come to handing it out at once. -/
theorem run_proceed_of_sending (s : Exchange) (d : Sending) (hd : s.sending = some d) :
    s.run (List.replicate (d.left.length + 1) .proceed) =
      ({ s with
        medium := { (s.medium.handOut d.message d.left).1 with
          senders := d.served ++ (s.medium.handOut d.message d.left).2 }
        sending := none }, [.sent d.message]) := by
  obtain ⟨x, served, left⟩ := d
  -- Induction on the mailboxes that are left; each step moves one of them to those that were served.
  induction left generalizing s served with
  | nil =>
    simp only [List.length_nil, List.replicate_succ, List.replicate_zero, run_cons, step, proceed, hd,
      Medium.handOut, List.append_nil]
    rfl
  | cons box left ih =>
    rw [List.length_cons, List.replicate_succ, run_cons]
    simp only [step, proceed, hd]
    rw [ih _ _ rfl]
    simp only [Medium.handOut, List.append_assoc]
    rfl

/-- Whatever it is that begins to send a message: if nothing comes between, the medium sends it. -/
theorem run_of_begin {s : Exchange} (hs : s.IsFree) {cmd : Command} {x : Message}
    (hstep : s.step cmd = s.begin x) {m : Medium} (hm : s.medium.send x = .ok m) :
    s.run (cmd :: List.replicate (s.medium.senders.length + 1) .proceed) =
      ({ s with medium := m }, [.began x, .sent x]) := by
  have hrun := run_proceed_of_sending (s.begin x).1 _ rfl
  simp only [Medium.send, hs.1, Except.ok.injEq] at hm
  rw [run_cons, hstep]
  simp only [begin] at hrun ⊢
  rw [hrun, ← hm, ← hs.sending_eq_none]
  rfl

/-- **A send that nothing comes between** is what the medium does when it sends. -/
theorem run_send {s : Exchange} (hs : s.IsFree) (x : Outgoing) {m : Medium}
    (hm : s.medium.send x.received = .ok m) :
    s.run (.send x :: List.replicate (s.medium.senders.length + 1) .proceed) =
      ({ s with medium := m }, [.began x.received, .sent x.received]) := by
  have hstep : s.step (.send x) = s.begin x.received := if_pos hs
  exact run_of_begin hs hstep hm

/-- **Publishing that nothing comes between** is what the channel does when it publishes. -/
theorem run_publish {s : Exchange} (hs : s.IsFree) (e : Event) (f : Fresh) {m : Medium}
    (hm : Channel.publish s.config e f s.medium = .ok m) :
    ∃ x, Channel.outgoing s.config e f = .ok x ∧
      s.run (.publish e f :: List.replicate (s.medium.senders.length + 1) .proceed) =
        ({ s with medium := m }, [.began x.received, .sent x.received]) := by
  unfold Channel.publish at hm
  split at hm
  · cases hm
  · rename_i x hx
    have hsend : s.medium.send x.received = .ok m := by
      cases hsend : s.medium.send x.received with
      | error reason =>
        rw [hsend] at hm
        cases hm
      | ok m' =>
        rw [hsend] at hm
        exact congrArg Except.ok (Except.ok.inj hm)
    have hstep : s.step (.publish e f) = s.begin x.received := by
      simp only [step, hx]
      exact if_pos hs
    exact ⟨x, hx, run_of_begin hs hstep hsend⟩

/-- When the channel has been dropped, its ends of the mailboxes go one by one until there is none. -/
theorem run_proceed_of_closed (s : Exchange) (hnone : s.sending = none) (hmode : s.medium.mode = .closed) :
    s.run (List.replicate s.medium.senders.length .proceed) =
      ({ s with medium := { s.medium with senders := [] } }, []) := by
  obtain ⟨config, ⟨mode, senders, mailboxes⟩, sending, subscriptions⟩ := s
  cases hnone
  cases hmode
  induction senders with
  | nil => rfl
  | cons box senders ih =>
    rw [List.length_cons, List.replicate_succ, run_cons]
    exact congrArg (fun r : Exchange × List Happening => (r.1, [] ++ r.2)) ih

/-- **Closing that nothing comes between** is what the medium does when it closes. -/
theorem run_close {s : Exchange} (hs : s.IsFree) :
    s.run (.close :: List.replicate s.medium.senders.length .proceed) =
      ({ s with medium := s.medium.close }, [.closed]) := by
  have hstep : s.step .close = ({ s with medium := { s.medium with mode := .closed } }, some .closed) :=
    if_pos hs
  have hrun := run_proceed_of_closed (s.step .close).1 (by rw [hstep]; exact hs.sending_eq_none)
    (by rw [hstep])
  rw [hstep] at hrun
  rw [run_cons, hstep, hrun]
  rfl

end Exchange

end CloudEvents
