/-
  The default binding of a process.

  It is fixed once: by the first that sets it, or by the first that reads it while it is not set.
  After that it never changes, and setting it fails.  Operations that are given a binding neither read
  nor fix the default, and neither do those that fail before they need one.
-/
import CloudEvents.Registry

namespace CloudEvents

/-- What a process remembers. -/
structure DefaultBinding where
  /-- The default binding, once it is fixed. -/
  fixed : Option Binding := none
  deriving DecidableEq, Repr

namespace DefaultBinding

/-- The default binding as it reads now. -/
def binding (p : DefaultBinding) : Binding := p.fixed.getD .default

/-- The process after its default binding was read. -/
def read (p : DefaultBinding) : DefaultBinding := ⟨some p.binding⟩

/-- Fixes the default binding, unless it is fixed. -/
def set (p : DefaultBinding) (b : Binding) : DefaultBinding × Except Error Unit :=
  match p.fixed with
  | none => (⟨some b⟩, .ok ())
  | some _ => (p, .error .defaultBindingAlreadySet)

/-- A binding that may be left open, and the process after it was looked up. -/
def resolve (p : DefaultBinding) (b : Option Binding) : DefaultBinding × Binding :=
  match b with
  | some b => (p, b)
  | none => (p.read, p.binding)

/-! ## Operations that may need the default -/

/-- An operation on a process. -/
inductive Request where
  | set (b : Binding)
  | get
  | resolve (b : Option Binding)
  /-- A new event, in a binding or in the default one. -/
  | newEvent (b : Option Binding)
  /-- A configuration without variables. -/
  | config
  /-- The configuration for an event. -/
  | configFor (e : Event)
  | configOf (lookup : Lookup)
  /-- A codec in a binding or in the default one. -/
  | codec (b : Option Binding)
  | validate (b : Option Binding) (h : Headers)
  | decodeKind (tag : String) (b : Option Binding) (m : Message)
  | validateKind (tag : String) (b : Option Binding) (h : Headers)

/-- What an operation gives. -/
inductive Answer where
  | done
  | failed (err : Error)
  | binding (b : Binding)
  | event (e : Event)
  | config (c : Config)
  /-- Headers as they are after a validation, and the verdict. -/
  | validated (h : Headers) (verdict : Except Error Unit)

/-- A result as an answer. -/
def Answer.ofExcept {α : Type} (answer : α → Answer) : Except Error α → Answer
  | .ok a => answer a
  | .error err => failed err

/-- Carries out an operation, with a registry of kinds. -/
def run (r : Registry) (f : Fresh) (p : DefaultBinding) : Request → DefaultBinding × Answer
  | .set b =>
    let (p, result) := p.set b
    (p, .ofExcept (fun _ => .done) result)
  | .get => (p.read, .binding p.binding)
  | .resolve b =>
    let (p, b) := p.resolve b
    (p, .binding b)
  | .newEvent b =>
    let (p, b) := p.resolve b
    (p, .event (.blank b))
  | .config => (p.read, .config { binding := p.binding })
  | .configFor e => (p.read, .config { binding := e.binding })
  | .configOf lookup => (p.read, .ofExcept .config (Config.ofLookup lookup p.binding))
  | .codec b =>
    let (p, b) := p.resolve b
    (p, .binding b)
  | .validate b h =>
    let (p, b) := p.resolve b
    let (h, verdict) := Validation.validateHeaders b f h
    (p, .validated h verdict)
  | .decodeKind tag b m =>
    match r.find tag with
    | .error err => (p, .failed err)
    | .ok k =>
      let (p, b) := p.resolve b
      (p, .ofExcept .event (k.decode b f m))
  | .validateKind tag b h =>
    match r.find tag with
    | .error err => (p, .validated h (.error err))
    | .ok k =>
      let (p, b) := p.resolve b
      let (h, verdict) := k.validate b f h
      (p, .validated h verdict)

end DefaultBinding

end CloudEvents
