/-
  The commands.

  Each of them reads one document and gives the text to print.  A failure says what was being done, and
  the error behind it.
-/
import CloudEvents.Cli.Arguments
import CloudEvents.Registry

namespace CloudEvents.Cli

/-- A command that failed. -/
structure Failure where
  /-- What was being done. -/
  context : String
  cause : Error
  deriving DecidableEq, Repr

/-- The configuration of a command line on top of another one. -/
def Invocation.configure (i : Invocation) (c : Config) : Config :=
  { c with binding := i.binding.getD c.binding, pretty := i.pretty || c.pretty }

/-- Reads the document that a command works on. -/
def readEvent (c : Config) (input : String) : Except Failure Event :=
  (Wire.Structured.decode c.binding input).mapError fun err =>
    ⟨"stdin is not a structured-mode CloudEvent", err⟩

/-- The message by which a document reaches the rules of a kind. -/
def inputMessage (input : String) : Message :=
  { payload := .text input
    headers := NameMap.empty.insert contentTypeHeader (.text Wire.Structured.contentType) }

/-- Carries out a command on a document. -/
def run (command : Command) (input : String) (c : Config) (f : Fresh) : Except Failure String :=
  match command with
  | .validate kind =>
    match Registry.standard.decode kind c.binding f (inputMessage input) with
    | .ok e => .ok (Wire.Structured.encode c.style e f)
    | .error err => .error ⟨s!"event is not a valid '{kind}' envelope", err⟩
  | .binary => do
    let e ← readEvent c input
    return (Wire.encode { c with mode := .binary } e f).tree.render c.style
  | .structured => do
    let e ← readEvent c input
    return Wire.Structured.encode c.style e f

end CloudEvents.Cli
