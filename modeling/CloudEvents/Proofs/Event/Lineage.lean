/-
  Where the events of a session come from.

  A session works on many events, and one of them may be the clone of another.  Yet each has come about on a way of its
  own: from an event that was made of something else, or that was there before, and by what was done to it one thing
  after the other, before it was cloned and after that.  This is its `Lineage`, and `lineages` keeps account of them
  in the course of a run.

  So what is to be proved of every event of a run need only be carried along a lineage, which knows nothing of other
  events.

  Main statement: `map_event_lineages`.
-/
import CloudEvents.Session

namespace CloudEvents

/-! ## Lineages -/

/-- An event after this and that was done to it, one thing after the other. -/
def TypedEvent.after {τ ν : Type} [DecidableEq τ] (forms : Forms τ ν) (s : TypedEvent τ ν)
    (past : List (Action τ ν × Fresh)) : TypedEvent τ ν :=
  past.foldl (fun s a => ((a.1.edit forms a.2).run s).2) s

/-- How an event has come about: from another one that was there before, by what was done since then to that one or to
a clone of it. -/
structure Lineage (τ ν : Type) where
  origin : TypedEvent τ ν
  past : List (Action τ ν × Fresh) := []

namespace Lineage

variable {τ ν : Type}

/-- One more thing is done. -/
def extend (l : Lineage τ ν) (a : Action τ ν) (f : Fresh) : Lineage τ ν := { l with past := l.past ++ [(a, f)] }

variable [DecidableEq τ] (forms : Forms τ ν)

/-- The event that a lineage leads to. -/
def event (l : Lineage τ ν) : TypedEvent τ ν := l.origin.after forms l.past

theorem event_extend (l : Lineage τ ν) (a : Action τ ν) (f : Fresh) :
    (l.extend a f).event forms = ((a.edit forms f).run (l.event forms)).2 := by
  show List.foldl _ _ (l.past ++ [(a, f)]) = _
  rw [List.foldl_append]
  rfl

end Lineage

namespace Origin

variable {τ ν : Type} {ls : List (Lineage τ ν)} {f : Fresh} {o : Origin} {e : TypedEvent τ ν}

/-- The lineage of an event that is made: a clone has that of the event it is cloned from. -/
def lineage (ls : List (Lineage τ ν)) (e : TypedEvent τ ν) : Origin → Lineage τ ν
  | clone i => ls[i]?.getD { origin := e }
  | _ => { origin := e }

variable [DecidableEq τ] {forms : Forms τ ν}

/-- The event of a new lineage is the one that its origin made. -/
theorem event_lineage (h : o.event? f (ls.map (Lineage.event forms)) = some (.ok e)) :
    (o.lineage ls e).event forms = e := by
  cases o with
  | clone i =>
    obtain ⟨d, hd, h⟩ := Option.map_eq_some_iff.1 h
    cases h
    rw [List.getElem?_map] at hd
    obtain ⟨l, hl, rfl⟩ := Option.map_eq_some_iff.1 hd
    show (ls[i]?.getD _).event forms = _
    rw [hl]
    rfl
  | _ => rfl

end Origin

/-! ## In the course of a run -/

namespace Session

variable {τ ν : Type} [DecidableEq τ] (forms : Forms τ ν)

/-- The lineages of the events after a step. -/
def traceStep (ls : List (Lineage τ ν)) (c : Command τ ν) (f : Fresh) : List (Lineage τ ν) :=
  match c with
  | .act i a =>
    match ls[i]? with
    | none => ls
    | some l => ls.set i (l.extend a f)
  | .make o =>
    match o.event? f (ls.map (Lineage.event forms)) with
    | some (.ok e) => ls ++ [o.lineage ls e]
    | _ => ls

/-- The lineages of the events after some steps. -/
def trace (ls : List (Lineage τ ν)) (cs : List (Command τ ν × Fresh)) : List (Lineage τ ν) :=
  cs.foldl (fun ls c => traceStep forms ls c.1 c.2) ls

/-- The lineages of the events of a run, which begin with the run. -/
def lineages (s : Session τ ν) (cs : List (Command τ ν × Fresh)) : List (Lineage τ ν) :=
  trace forms (s.map fun e => { origin := e }) cs

/-- **A step on the lineages** is the step on their events. -/
theorem map_event_traceStep (ls : List (Lineage τ ν)) (c : Command τ ν) (f : Fresh) :
    (traceStep forms ls c f).map (Lineage.event forms) = (step forms (ls.map (Lineage.event forms)) c f).1 := by
  cases c with
  | act i a =>
    unfold traceStep step
    simp only [List.getElem?_map]
    cases ls[i]? with
    | none => rfl
    | some l =>
      show (ls.set i (l.extend a f)).map _ = (ls.map _).set i _
      rw [List.map_set, Lineage.event_extend]
      rfl
  | make o =>
    unfold traceStep step
    simp only
    cases ho : o.event? f (ls.map (Lineage.event forms)) with
    | none => rfl
    | some r =>
      cases r with
      | error err => rfl
      | ok e =>
        show (ls ++ [o.lineage ls e]).map _ = ls.map _ ++ [e]
        rw [List.map_append, List.map_singleton, Origin.event_lineage ho]

/-- **And so is a run.** -/
theorem map_event_trace (ls : List (Lineage τ ν)) (cs : List (Command τ ν × Fresh)) :
    (trace forms ls cs).map (Lineage.event forms) = run forms (ls.map (Lineage.event forms)) cs := by
  induction cs generalizing ls with
  | nil => rfl
  | cons c cs ih =>
    refine (ih (traceStep forms ls c.1 c.2)).trans ?_
    rw [map_event_traceStep]
    rfl

/-- **The events of a run are those that their lineages lead to.** -/
theorem map_event_lineages (s : Session τ ν) (cs : List (Command τ ν × Fresh)) :
    (lineages forms s cs).map (Lineage.event forms) = run forms s cs := by
  refine (map_event_trace forms _ cs).trans ?_
  rw [List.map_map]
  exact congrArg (run forms · cs) (List.map_id s)

end Session
end CloudEvents
