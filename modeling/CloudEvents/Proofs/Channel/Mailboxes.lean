/-
  Mailboxes: what keeps the numbers and the list of mailboxes of an exchange in order.

  A subscription has the mailbox of its own number, and a number that was given is never given again
  (`Numbered`).  The list of mailboxes has every mailbox that is there, and none twice; a send that is under
  way works on a part of that list, and every mailbox that is there is either before it or behind it
  (`Reaching`).  So one send serves no mailbox twice and leaves none out, whoever goes away meanwhile.

  Neither says anything about the messages.
-/
import CloudEvents.Proofs.Channel.Exchange

namespace CloudEvents

namespace Exchange

variable {c : Config} {s : Exchange} {h : List Happening}

/-! ## Numbers -/

/-- The subscriptions have the mailboxes of their numbers, and the log has no number that was not given. -/
structure Numbered (c : Config) (s : Exchange) (h : List Happening) : Prop where
  config : s.config = c
  length_eq : s.medium.mailboxes.length = s.subscriptions.length
  mailbox : ∀ i sub, s.subscription? i = some sub → sub.mailbox = i
  lt : ∀ i k, .subscribed i k ∈ h → i < s.subscriptions.length

theorem subscription?_join_of_ne {i : Nat} (hi : i ≠ s.subscriptions.length)
    (made : Medium × Channel.Subscription) : (s.join made).1.subscription? i = s.subscription? i :=
  congrArg Option.join (Medium.getElem?_concat_of_ne s.subscriptions (some made.2) hi)

theorem subscription?_join_self (made : Medium × Channel.Subscription) :
    (s.join made).1.subscription? s.subscriptions.length = some made.2 := by
  simp [subscription?, join]

/-- When nothing new is made, it is enough that the numbers of what there was stay as they are. -/
theorem Numbered.append (hn : Numbered c s h) {new : Option Happening}
    (hnew : ∀ i k, new ≠ some (.subscribed i k)) : Numbered c s (h ++ new.toList) := by
  refine { hn with lt := fun i k hmem => ?_ }
  rcases List.mem_append.1 hmem with hmem | hmem
  · exact hn.lt i k hmem
  · exact absurd (Option.mem_toList.1 hmem) (hnew i k)

/-- **Every change keeps the numbers in order.** -/
theorem Numbered.change {r : Exchange × Option Happening} (hr : Change s r) (hn : Numbered c s h) :
    Numbered c r.1 (h ++ r.2.toList) := by
  cases hr with
  | nothing => exact hn.append (by simp)
  | failed => exact hn.append (by simp)
  | joined k hfree =>
    refine ⟨hn.config, ?_, ?_, ?_⟩
    · simp [join, Medium.openMailbox, hn.length_eq]
    · intro i sub hsub
      by_cases hi : i = s.subscriptions.length
      · subst hi
        rw [subscription?_join_self] at hsub
        rw [← Option.some.inj hsub]
        exact hn.length_eq
      · rw [subscription?_join_of_ne hi] at hsub
        exact hn.mailbox i sub hsub
    · intro i k' hmem
      show i < (s.subscriptions ++ [some _]).length
      rw [List.length_append]
      rcases List.mem_append.1 hmem with hmem | hmem
      · exact Nat.lt_add_right _ (hn.lt i k' hmem)
      · simp only [join, Option.toList_some, List.mem_singleton, Happening.subscribed.injEq] at hmem
        simp [hmem.1]
  | began x hfree => exact { hn.append (by simp [begin]) with }
  | handed d box left q hd hleft hq =>
    exact { hn.append (by simp) with length_eq := by simp [hn.length_eq] }
  | skipped d box left hd hleft hq => exact { hn.append (by simp) with }
  | sent d hd hleft => exact { hn.append (by simp) with }
  | closed hfree => exact { hn.append (by simp) with }
  | released hnone hmode => exact { hn.append (by simp) with }
  | took i f sub x rest hsub hq =>
    exact { hn.append (by simp) with length_eq := by simp [hn.length_eq] }
  | missed i f sub hsub hq => exact hn.append (by simp)
  | dropped i sub hsub =>
    have happ : Numbered c s (h ++ (some (Happening.dropped i)).toList) := hn.append (by simp)
    refine ⟨hn.config, ?_, ?_, ?_⟩
    · simp [Medium.drop, hn.length_eq]
    · intro j other hother
      refine hn.mailbox j other ?_
      simp only [subscription?, Medium.join_getElem?_set_none, Option.ite_none_left_eq_some] at hother
      exact hother.2
    · intro j k hmem
      simpa using happ.lt j k hmem

/-! ## The list of mailboxes -/

/-- The list of mailboxes: none is in it twice, all are that are there, and a send under way has each of those
before it or behind it. -/
structure Reaching (m : Medium) (sending : Option Sending) : Prop where
  nodup : m.senders.Nodup
  lt : ∀ box ∈ m.senders, box < m.mailboxes.length
  mem : m.mode = .carrying → ∀ box q, m.waiting? box = some q → box ∈ m.senders
  sublist : ∀ d, sending = some d → (d.served ++ d.left).Sublist m.senders
  mem_sending : ∀ d, sending = some d → ∀ box q, m.waiting? box = some q → box ∈ d.served ++ d.left

/-- What waits in a mailbox has no part in it, as long as no mailbox comes back that was gone. -/
theorem Reaching.put {m : Medium} {sending : Option Sending} (hm : Reaching m sending) {box : Nat}
    {q : Option (List Message)} (hq : q.isSome → (m.waiting? box).isSome) :
    Reaching (m.put box q) sending := by
  -- A mailbox that is there now was there before.
  have hback : ∀ other r, (m.put box q).waiting? other = some r → ∃ old, m.waiting? other = some old := by
    intro other r hr
    by_cases hother : other = box
    · subst hother
      have hlt := Medium.lt_of_waiting? hr
      rw [Medium.length_put] at hlt
      rw [Medium.waiting?_put_self m hlt] at hr
      exact Option.isSome_iff_exists.1 (hq (by rw [hr]; rfl))
    · rw [Medium.waiting?_put_of_ne m hother] at hr
      exact ⟨r, hr⟩
  refine { hm with lt := ?_, mem := ?_, mem_sending := ?_ }
  · intro other hother
    rw [Medium.length_put]
    exact hm.lt other hother
  · intro hmode other r hr
    obtain ⟨old, hold⟩ := hback other r hr
    exact hm.mem hmode other old hold
  · intro d hd other r hr
    obtain ⟨old, hold⟩ := hback other r hr
    exact hm.mem_sending d hd other old hold

/-- **Every change keeps the list of mailboxes in order**, in the middle of a send as well. -/
theorem Reaching.change {r : Exchange × Option Happening} (hr : Change s r)
    (hs : Reaching s.medium s.sending) : Reaching r.1.medium r.1.sending := by
  cases hr with
  | nothing => exact hs
  | failed => exact hs
  | joined k hfree =>
    have hmode := hfree.1
    simp only [join, Medium.openMailbox, hmode, if_true, hfree.sending_eq_none]
    refine ⟨?_, ?_, ?_, by simp, by simp⟩
    · refine List.nodup_append.2 ⟨hs.nodup, List.pairwise_singleton _ _, ?_⟩
      intro box hbox other hother heq
      have hlt := hs.lt box hbox
      rw [heq, List.mem_singleton.1 hother] at hlt
      exact absurd hlt (Nat.lt_irrefl _)
    · intro box hbox
      rw [List.length_append]
      rcases List.mem_append.1 hbox with hbox | hbox
      · exact Nat.lt_add_right _ (hs.lt box hbox)
      · rw [List.mem_singleton.1 hbox]
        exact Nat.lt_succ_self _
    · intro _ box q hq
      by_cases hbox : box = s.medium.mailboxes.length
      · exact List.mem_append_right _ (List.mem_singleton.2 hbox)
      · have hold := (s.medium.waiting?_openMailbox_of_ne hbox).symm.trans hq
        exact List.mem_append_left _ (hs.mem hmode box q hold)
  | began x hfree =>
    refine { hs with sublist := ?_, mem_sending := ?_ }
    · rintro d ⟨⟩
      exact List.Sublist.refl _
    · rintro d ⟨⟩ box q hq
      exact hs.mem hfree.1 box q hq
  | handed d box left q hd hleft hq =>
    have hput : Reaching (s.medium.put box (some (q ++ [d.message]))) s.sending :=
      hs.put fun _ => by rw [hq]; rfl
    have hsame : (d.served ++ [box]) ++ left = d.served ++ d.left := by rw [hleft, List.append_assoc]; rfl
    refine { hput with sublist := ?_, mem_sending := ?_ }
    · rintro _ ⟨⟩
      rw [hsame]
      exact hput.sublist d hd
    · rintro _ ⟨⟩ other r hr
      rw [hsame]
      exact hput.mem_sending d hd other r hr
  | skipped d box left hd hleft hq =>
    refine { hs with sublist := ?_, mem_sending := ?_ }
    · rintro _ ⟨⟩
      have hsub := hs.sublist d hd
      rw [hleft] at hsub
      exact ((List.sublist_cons_self box left).append_left d.served).trans hsub
    · rintro _ ⟨⟩ other r hr
      have hmem := hs.mem_sending d hd other r hr
      rw [hleft] at hmem
      -- The mailbox that is passed over is gone, so it is none of those that have to be reached.
      have hne : other ≠ box := fun h => by rw [h, hq] at hr; cases hr
      simpa [hne] using hmem
  | sent d hd hleft =>
    have hsub := hs.sublist d hd
    rw [hleft, List.append_nil] at hsub
    refine ⟨hs.nodup.sublist hsub, fun box hbox => hs.lt box (hsub.subset hbox), ?_, by simp, by simp⟩
    intro _ box q hq
    have hmem := hs.mem_sending d hd box q hq
    rwa [hleft, List.append_nil] at hmem
  | closed hfree =>
    refine { hs with mem := ?_ }
    rintro ⟨⟩
  | released hnone hmode =>
    refine ⟨hs.nodup.tail, fun box hbox => hs.lt box (List.mem_of_mem_tail hbox), ?_, ?_, ?_⟩
    · intro hcarrying
      rw [show s.medium.mode = .carrying from hcarrying] at hmode
      cases hmode
    · simp [hnone]
    · simp [hnone]
  | took i f sub x rest hsub hq => exact hs.put fun _ => by rw [hq]; rfl
  | missed => exact hs
  | dropped i sub hsub => exact hs.put (by simp)

end Exchange

end CloudEvents
