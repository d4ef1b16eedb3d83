/-
  The medium: what carries messages from senders to receivers in memory.

  Each receiver has a mailbox, a queue of its own, from whose front it takes.  The mailboxes are numbered in
  the order in which they are made, and a number is not given again when a receiver goes away.  The medium has
  a list of the mailboxes that sending goes to.  A receiver that goes away does not touch that list: its
  mailbox is only found missing by the next message, which goes to one mailbox after the other (`hand`) and
  strikes from the list those that are gone (`handOut`).  When the medium is closed, what waits in a mailbox
  can still be taken.

  A medium can also refuse whatever is sent, which is how a sender meets a transport that fails.
-/
import CloudEvents.Message

namespace CloudEvents

/-- Whether a medium carries messages. -/
inductive Medium.Mode where
  | carrying
  /-- It was closed: nothing more will come. -/
  | closed
  /-- Every message is refused, with a text that says why. -/
  | refusing (reason : String)
  deriving DecidableEq, Repr

/-- A medium. -/
structure Medium where
  mode : Medium.Mode := .carrying
  /-- The numbers of the mailboxes that messages are sent to. -/
  senders : List Nat := []
  /-- The mailboxes by number; those that are gone are still counted. -/
  mailboxes : List (Option (List Message)) := []

namespace Medium

/-- What a receiver finds. -/
inductive Reception where
  | message (m : Message)
  /-- Nothing yet. -/
  | nothing
  /-- Nothing, and nothing will come. -/
  | closed

/-- What waits in a mailbox, if there is one of that number. -/
def waiting? (m : Medium) (box : Nat) : Option (List Message) := m.mailboxes[box]?.join

/-- Replaces what waits in a mailbox. -/
def put (m : Medium) (box : Nat) (q : Option (List Message)) : Medium :=
  { m with mailboxes := m.mailboxes.set box q }

/-! ## Receivers -/

/-- A medium with one mailbox more, and its number.  Only a medium that carries messages will send to it. -/
def openMailbox (m : Medium) : Medium × Nat :=
  let box := m.mailboxes.length
  ({ m with
      senders := if m.mode = .carrying then m.senders ++ [box] else m.senders
      mailboxes := m.mailboxes ++ [some []] }, box)

/-- Takes the first message of a mailbox. -/
def take (m : Medium) (box : Nat) : Medium × Reception :=
  match m.waiting? box with
  | some (x :: rest) => (m.put box (some rest), .message x)
  | _ => (m, if box ∈ m.senders then .nothing else .closed)

/-- Takes a mailbox away. -/
def drop (m : Medium) (box : Nat) : Medium := m.put box none

/-! ## Senders -/

/-- Puts a message into a mailbox; the number comes back if the mailbox is still there. -/
def hand (m : Medium) (x : Message) (box : Nat) : Medium × List Nat :=
  match m.waiting? box with
  | some q => (m.put box (some (q ++ [x])), [box])
  | none => (m, [])

/-- Puts a message into one mailbox after the other; the numbers of those that are still there come back. -/
def handOut (m : Medium) (x : Message) : List Nat → Medium × List Nat
  | [] => (m, [])
  | box :: left =>
    let (m, there) := m.hand x box
    let (m, rest) := m.handOut x left
    (m, there ++ rest)

/-- Sends a message, or says why it was refused. -/
def send (m : Medium) (x : Message) : Except String Medium :=
  match m.mode with
  | .carrying =>
    let (m, there) := m.handOut x m.senders
    .ok { m with senders := there }
  | .closed => .error "closed"
  | .refusing reason => .error reason

/-- Ends the medium; the mailboxes stay. -/
def close (m : Medium) : Medium := { m with mode := .closed, senders := [] }

/-! ## Laws -/

theorem lt_of_waiting? {m : Medium} {box : Nat} {q : List Message} (h : m.waiting? box = some q) :
    box < m.mailboxes.length := by
  obtain ⟨b, hb, -⟩ := Option.bind_eq_some_iff.1 h
  exact (List.getElem?_eq_some_iff.1 hb).1

@[simp]
theorem length_put (m : Medium) (box : Nat) (q : Option (List Message)) :
    (m.put box q).mailboxes.length = m.mailboxes.length :=
  List.length_set

theorem waiting?_put_self (m : Medium) {box : Nat} (h : box < m.mailboxes.length)
    (q : Option (List Message)) : (m.put box q).waiting? box = q := by
  simp [waiting?, put, h]

theorem waiting?_put_of_ne (m : Medium) {box other : Nat} (h : other ≠ box) (q : Option (List Message)) :
    (m.put box q).waiting? other = m.waiting? other := by
  simp [waiting?, put, List.getElem?_set_ne h.symm]

/-- What is taken away from a list with gaps leaves a gap, and nothing else changes. -/
theorem join_getElem?_set_none {α : Type} (l : List (Option α)) (i j : Nat) :
    (l.set i none)[j]?.join = if j = i then none else l[j]?.join := by
  by_cases h : j = i
  · subst h
    rw [if_pos rfl, List.getElem?_set]
    split
    · split <;> rfl
    · contradiction
  · rw [if_neg h, List.getElem?_set_ne (Ne.symm h)]

/-- A list that grows at its end keeps what it has. -/
theorem getElem?_concat_of_ne {α : Type} (l : List α) (a : α) {i : Nat} (h : i ≠ l.length) :
    (l ++ [a])[i]? = l[i]? := by
  rcases Nat.lt_or_ge i l.length with hlt | hge
  · exact List.getElem?_append_left hlt
  · rw [List.getElem?_eq_none hge, List.getElem?_eq_none]
    rw [List.length_append, List.length_singleton]
    omega

theorem waiting?_drop (m : Medium) (box other : Nat) :
    (m.drop box).waiting? other = if other = box then none else m.waiting? other :=
  join_getElem?_set_none m.mailboxes box other

/-- A new mailbox is empty. -/
theorem waiting?_openMailbox_self (m : Medium) :
    m.openMailbox.1.waiting? m.openMailbox.2 = some [] := by
  simp [waiting?, openMailbox]

/-- A new mailbox has a new number. -/
theorem waiting?_openMailbox_of_ne (m : Medium) {box : Nat} (h : box ≠ m.mailboxes.length) :
    m.openMailbox.1.waiting? box = m.waiting? box :=
  congrArg Option.join (getElem?_concat_of_ne m.mailboxes (some []) h)

end Medium

end CloudEvents
