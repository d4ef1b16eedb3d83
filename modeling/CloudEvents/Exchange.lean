/-
  An exchange: everybody who uses one channel, at the same time.

  Any number of parties publish, send messages of their own, subscribe, read from their subscriptions and
  drop them, and in the end the channel itself is dropped.  What they do is cut into steps that nothing comes
  between, and a run is any sequence of such steps.

  The list of mailboxes is behind a lock.  Who sends takes the lock, hands the message to one mailbox after
  the other, a step for each, and lets go of the lock with a step of its own.  Who subscribes or drops the
  channel has to find the lock free.  Receivers do not need it: they read and go away in the middle of
  somebody else's send.  What comes before the lock, to check, encode and validate an event or to look up
  a kind, touches nothing that others see.  When the channel is dropped its ends of the mailboxes go one by
  one as well.  The lock and the queues are taken to work: nobody who holds the lock breaks down, and a queue
  has no bound.

  Subscriptions are numbered in the order in which they are made.
-/
import CloudEvents.Channel

namespace CloudEvents

/-- A send that holds the lock. -/
structure Sending where
  message : Message
  /-- The mailboxes that have the message. -/
  served : List Nat := []
  /-- The mailboxes that it has still to be handed to. -/
  left : List Nat

/-- A channel with those who use it. -/
structure Exchange where
  config : Config
  medium : Medium := {}
  /-- Who holds the lock, if somebody does. -/
  sending : Option Sending := none
  /-- The subscriptions by number; those that were dropped are still counted. -/
  subscriptions : List (Option Channel.Subscription) := []

namespace Exchange

/-- One step of one party. -/
inductive Command where
  | subscribe
  /-- Subscribes to a kind, by the registry as it is then. -/
  | subscribeKind (r : Registry) (tag : String)
  /-- Begins to send a message. -/
  | send (x : Outgoing)
  /-- Begins to send an event, if it can be published. -/
  | publish (e : Event) (f : Fresh)
  /-- The next step of the send that is under way, or of dropping the channel. -/
  | proceed
  | next (i : Nat) (f : Fresh)
  | drop (i : Nat)
  /-- Begins to drop the channel. -/
  | close

/-- What can be told about a step from outside. -/
inductive Happening where
  /-- A subscription was made. -/
  | subscribed (i : Nat) (k : Option Kind)
  /-- A send took the lock. -/
  | began (x : Message)
  /-- A send is complete. -/
  | sent (x : Message)
  /-- There was no such kind, or an event could not be published. -/
  | failed (err : Error)
  /-- A subscription was asked for its next event. -/
  | answered (i : Nat) (f : Fresh) (r : Except ReceiveError (Option Event))
  | dropped (i : Nat)
  | closed

/-- The subscription of a number, unless it was dropped. -/
def subscription? (s : Exchange) (i : Nat) : Option Channel.Subscription := s.subscriptions[i]?.join

/-- Whether the channel is there and nobody holds its lock. -/
def IsFree (s : Exchange) : Prop := s.medium.mode = .carrying ∧ s.sending.isNone

instance (s : Exchange) : Decidable s.IsFree := inferInstanceAs (Decidable (_ ∧ _))

/-- A step that needs the lock; without it nothing happens. -/
def whenFree (s : Exchange) (r : Exchange × Option Happening) : Exchange × Option Happening :=
  if s.IsFree then r else (s, none)

/-- Adds a subscription that was made. -/
def join (s : Exchange) (made : Medium × Channel.Subscription) : Exchange × Option Happening :=
  ({ s with medium := made.1, subscriptions := s.subscriptions ++ [some made.2] },
    some (.subscribed s.subscriptions.length made.2.kind))

/-- Takes the lock to send a message. -/
def begin (s : Exchange) (x : Message) : Exchange × Option Happening :=
  ({ s with sending := some { message := x, left := s.medium.senders } }, some (.began x))

/-- Goes on with what is under way. -/
def proceed (s : Exchange) : Exchange × Option Happening :=
  match s.sending with
  | some d =>
    match d.left with
    | box :: left =>
      let (m, there) := s.medium.hand d.message box
      ({ s with medium := m, sending := some { d with served := d.served ++ there, left } }, none)
    | [] =>
      ({ s with medium := { s.medium with senders := d.served }, sending := none }, some (.sent d.message))
  | none =>
    if s.medium.mode = .closed then
      ({ s with medium := { s.medium with senders := s.medium.senders.tail } }, none)
    else (s, none)

/-- One step, and what can be told about it. -/
def step (s : Exchange) : Command → Exchange × Option Happening
  | .subscribe => s.whenFree (s.join (Channel.subscribe s.config s.medium))
  | .subscribeKind r tag =>
    match Channel.subscribeKind s.config r tag s.medium with
    | .ok made => s.whenFree (s.join made)
    | .error err => (s, some (.failed err))
  | .send x => s.whenFree (s.begin x.received)
  | .publish e f =>
    match Channel.outgoing s.config e f with
    | .ok x => s.whenFree (s.begin x.received)
    | .error err => (s, some (.failed err))
  | .proceed => s.proceed
  | .next i f =>
    match s.subscription? i with
    | some sub =>
      let (m, r) := sub.next f s.medium
      ({ s with medium := m }, some (.answered i f r))
    | none => (s, none)
  | .drop i =>
    match s.subscription? i with
    | some sub =>
      ({ s with medium := s.medium.drop sub.mailbox, subscriptions := s.subscriptions.set i none },
        some (.dropped i))
    | none => (s, none)
  | .close => s.whenFree ({ s with medium := { s.medium with mode := .closed } }, some .closed)

/-- One step after the other, and what happened, the first thing first. -/
def run (s : Exchange) : List Command → Exchange × List Happening
  | [] => (s, [])
  | c :: cs =>
    let (t, new) := s.step c
    let (u, rest) := t.run cs
    (u, new.toList ++ rest)

end Exchange

end CloudEvents
