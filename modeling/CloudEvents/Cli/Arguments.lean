/-
  Command lines.

  A line has options, a command, and options of the command.  The binding and the layout can be asked
  for on either side of the command: of two bindings the one behind it counts, and the layout is asked
  for if it is on one side.  On one side an option stands at most once.

  An option's value is attached to it or is the next word.  In the second case the value is looked at
  when the option is settled: by the next option on its side, or at the end.  This shows only where a
  request for help comes first: `-b nonsense validate --help` is a request for help, and
  `-b=nonsense validate --help` is not.
-/
import CloudEvents.Binding
import CloudEvents.Text.Split

namespace CloudEvents.Cli

/-- What to do with the document that is read. -/
inductive Command where
  /-- Check it by the rules of a kind, and print it in order. -/
  | validate (kind : String)
  /-- Print it as a message in binary mode. -/
  | binary
  /-- Print it as a document. -/
  | structured
  deriving DecidableEq, Repr

/-- A command line. -/
structure Invocation where
  command : Command
  binding : Option Binding := none
  pretty : Bool := false
  deriving DecidableEq, Repr

/-- Why a command line is not carried out. -/
inductive Refusal where
  /-- It is not in order. -/
  | usage
  /-- It asks for help. -/
  | help
  deriving DecidableEq, Repr

/-! ## The options on one side of the command -/

/-- An option that has a value. -/
inductive Flag where
  | binding
  | kind
  deriving DecidableEq, Repr

/-- The options on one side of the command. -/
structure Side where
  /-- Whether a kind can be named here. -/
  takesKind : Bool := false
  binding : Option Binding := none
  kind : Option String := none
  pretty : Bool := false
  /-- The option whose value is the next word, and that word once it has been read. -/
  pending : Option (Flag × Option String) := none
  deriving DecidableEq, Repr

namespace Side

/-- Gives an option its value. -/
def set (s : Side) (flag : Flag) (value : String) : Except Refusal Side :=
  match flag with
  | .binding =>
    match s.binding, Binding.parse value with
    | none, .ok b => .ok { s with binding := some b }
    | _, _ => .error .usage
  | .kind => if s.kind.isSome then .error .usage else .ok { s with kind := some value }

/-- Gives the option that is pending its value. -/
def settle (s : Side) : Except Refusal Side :=
  match s.pending with
  | none => .ok s
  | some (_, none) => .error .usage
  | some (flag, some value) => { s with pending := none }.set flag value

/-- Whether the next word is a value, unless it looks like an option. -/
def isAwaiting (s : Side) : Bool := (s.pending.map fun p => p.2.isNone).getD false

/-- Takes an option with a value, which is attached or comes next. -/
def option (s : Side) (flag : Flag) (attached : Option String) : Except Refusal Side := do
  let s ← s.settle
  match attached with
  | some value => s.set flag value
  | none => return { s with pending := some (flag, none) }

/-- Takes the option for the layout. -/
def askPretty (s : Side) : Except Refusal Side := do
  let s ← s.settle
  if s.pretty then throw .usage else return { s with pretty := true }

/-- Takes a request for help. -/
def askHelp (s : Side) : Except Refusal Side := do
  let _ ← s.settle
  throw .help

/-- Takes an option by its long name. -/
def long (s : Side) (name : String) (attached : Option String) : Except Refusal Side :=
  if name = "binding" then s.option .binding attached
  else if name = "kind" ∧ s.takesKind then s.option .kind attached
  else if name = "pretty" ∧ attached.isNone then s.askPretty
  else if name = "help" ∧ attached.isNone then s.askHelp
  else .error .usage

/-- The value attached to an option of one letter, with or without an equals sign. -/
def attachedValue (rest : List Char) : Option String :=
  match rest with
  | [] => none
  | '=' :: r => some (String.ofList r)
  | r => some (String.ofList r)

/-- Takes an option of one letter. -/
def short (s : Side) (letter : Char) (rest : List Char) : Except Refusal Side :=
  if letter = 'b' then s.option .binding (attachedValue rest)
  else if letter = 'k' ∧ s.takesKind then s.option .kind (attachedValue rest)
  else if letter = 'h' then s.askHelp
  else .error .usage

/-- Takes a word that is no command. -/
def word (s : Side) (w : String) : Except Refusal Side :=
  match w.toList with
  | '-' :: '-' :: r =>
    match Text.cutFirst? '=' r with
    | some (name, value) => s.long (String.ofList name) (some (String.ofList value))
    | none => s.long (String.ofList r) none
  | '-' :: letter :: rest => s.short letter rest
  | _ =>
    match s.pending with
    | some (flag, none) => .ok { s with pending := some (flag, some w) }
    | _ => .error .usage

end Side

/-! ## Whole lines -/

/-- The word behind which no options stand. -/
def endOfOptions : String := "--"

/-- The word that asks for help on a command. -/
def helpName : String := "help"

/-- The words for commands. -/
def commandNames : List String := ["validate", "binary", "structured"]

/-- The command of a word, with the kind that was named for it. -/
def command? (name : String) (kind : Option String) : Option Command :=
  if name = "validate" then some (.validate (kind.getD "cloudevent"))
  else if name = "binary" then some .binary
  else if name = "structured" then some .structured
  else none

/-- The options in front of the command, the command, and the words behind it. -/
def leading (s : Side) : List String → Except Refusal (Side × String × List String)
  | [] => .error .usage
  | w :: r =>
    if !s.isAwaiting && (w ∈ commandNames || w == helpName) then .ok (s, w, r)
    else if w = endOfOptions then .error .usage
    else
      match s.word w with
      | .ok s => leading s r
      | .error e => .error e

/-- The options behind the command. -/
def trailing (s : Side) : List String → Except Refusal Side
  | [] => s.settle
  | w :: r =>
    if w = endOfOptions then if r.isEmpty then s.settle else .error .usage
    else
      match s.word w with
      | .ok s => trailing s r
      | .error e => .error e

/-- Whether words ask for help on something there is: on everything, or on one command. -/
def isHelpTopic : List String → Bool
  | [] => true
  | [w] => w ∈ commandNames || w == helpName
  | _ => false

/-- Reads a command line, without the name of the program. -/
def parse (words : List String) : Except Refusal Invocation := do
  let (outer, name, rest) ← leading {} words
  if name = helpName then
    throw (if isHelpTopic rest then .help else .usage)
  let inner ← trailing { takesKind := name = "validate" } rest
  -- The words behind the command have been read by now, and a request for help among them answered.
  let outer ← outer.settle
  match command? name inner.kind with
  | none => throw .usage
  | some command =>
    return { command, binding := inner.binding.or outer.binding, pretty := inner.pretty || outer.pretty }

/-! ## Examples -/

/-- Why a command line is refused, if it is. -/
def refusal? (words : List String) : Option Refusal :=
  match parse words with
  | .ok _ => none
  | .error e => some e

example : (parse ["-b", "http", "binary", "-b", "amqp"]).toOption =
    some { command := .binary, binding := some .amqp } := by decide +kernel

example : refusal? ["-b", "nonsense", "validate", "--help"] = some .help := by decide +kernel

example : refusal? ["-b=nonsense", "validate", "--help"] = some .usage := by decide +kernel

end CloudEvents.Cli
