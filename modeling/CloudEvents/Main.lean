/-
  The program: a command line, the environment and standard input in; a text out.

  Everything that is decided is decided by `Cli.parse`, `Config.ofLookup` and `Cli.run`; here is only
  what they cannot do, which is to read, to print, and to ask for the time and for random numbers.
-/
import CloudEvents.Cli.Run
import Std.Time.DateTime.Timestamp

namespace CloudEvents.Cli

/-- The text for a line that is not in order, and for a request for help. -/
def usageText : String :=
  "Validate and convert CloudEvents envelopes read from stdin\n\n" ++
  "Usage: courier [OPTIONS] <COMMAND>\n\n" ++
  "Commands:\n" ++
  "  validate    Decode and validate the event, then print it normalized\n" ++
  "  binary      Print the binary-mode projection\n" ++
  "  structured  Re-encode as structured-mode JSON\n" ++
  "  help        Print this message\n\n" ++
  "Options:\n" ++
  "  -b, --binding <BINDING>  Protocol binding (overrides COURIER_BINDING)\n" ++
  "      --pretty             Pretty-print JSON output (overrides COURIER_JSON_PRETTY)\n" ++
  "  -k, --kind <KIND>        With validate: envelope kind whose rules apply\n" ++
  "  -h, --help               Print help"

/-- The current time. -/
def currentTime : IO Instant := do
  let t ← Std.Time.Timestamp.now
  let nanos := t.toNanosecondsSinceUnixEpoch.val
  return (Instant.of? (nanos / 1000000000) (nanos % 1000000000).toNat).getD .epoch

/-- A version 7 identifier of a time. -/
def newIdentifier (t : Instant) : IO Uuid := do
  let bytes ← IO.getRandomBytes 16
  let random := bytes.toList.foldl (fun n b => 256 * n + b.toNat) 0
  return .version7 (t.seconds * 1000 + t.nanos / 1000000).toNat random

/-- What one run may fill in. -/
def supply : IO Fresh := do
  let now ← currentTime
  return { eventId := ← newIdentifier now, correlationId := ← newIdentifier now, now }

/-- The variables that a configuration is read from. -/
def environment : IO Lookup := do
  let names := [Config.bindingVariable, Config.modeVariable, Config.prettyVariable]
  let values ← names.mapM fun name => do return (name, ← IO.getEnv name)
  return fun name => (values.lookup name).join

/-- All of standard input. -/
partial def readAll (input : IO.FS.Stream) (sofar : ByteArray) : IO ByteArray := do
  let chunk ← input.read 65536
  if chunk.isEmpty then return sofar else readAll input (sofar ++ chunk)

/-- Reports a failure and what is behind it. -/
def report (context cause : String) : IO UInt32 := do
  IO.eprintln s!"Error: {context}\n\nCaused by:\n    {cause}"
  return 1

/-- Carries out a command line. -/
def carryOut (words : List String) : IO UInt32 := do
  match parse words with
  | .error .usage =>
    IO.eprintln usageText
    return 2
  | .error .help =>
    IO.println usageText
    return 0
  | .ok invocation =>
    match Config.ofLookup (← environment) .default with
    | .error err => report "invalid courier configuration" err.message
    | .ok config =>
      let bytes ← readAll (← IO.getStdin) .empty
      match Text.Utf8.decode? bytes.toList with
      | none => report "failed to read event from stdin" "stream did not contain valid UTF-8"
      | some input =>
        let result :=
          run invocation.command (String.ofList input) (invocation.configure config) (← supply)
        match result with
        | .error failure => report failure.context failure.cause.message
        | .ok text =>
          IO.println text
          return 0

end CloudEvents.Cli

def main (words : List String) : IO UInt32 := CloudEvents.Cli.carryOut words
