/-!
# Invocations

A command line names one of three actions, gives it one text, and may set options: long ones as
`--name`, `--name value` or `--name=value`, short ones alone or in a row, and behind `--` nothing
is an option.  An option is set once.  The arguments are read from left to right, and the first one
that cannot be understood, or that asks for an explanation, ends the reading.
-/

namespace Latent

/-- Where the variables come from. -/
inductive ContextSource where
  | nowhere
  | file (path : String)
  | inline (text : String)
  deriving DecidableEq, Repr

/-- What a command does with its text. -/
inductive Action where
  | encode
  | decode (rebuild : Bool)
  | eval
  deriving DecidableEq, Repr

/-- A command, understood. -/
structure Invocation where
  action : Action
  text : String
  context : ContextSource
  deriving DecidableEq, Repr

namespace Invocation

/-- Why a command line is not run: it cannot be understood, or it asks for an explanation. -/
inductive Interruption where
  | misuse
  | help
  | version
  deriving DecidableEq, Repr

/-- An option. -/
inductive Flag where
  | debug
  | noeval
  | context
  | contextJson
  | help
  | version
  deriving DecidableEq, Repr

namespace Flag

/-- The options that come with a value. -/
def takesValue : Flag → Bool
  | context | contextJson => true
  | debug | noeval | help | version => false

/-- The values that an option can have: a file has a name. -/
def allows : Flag → String → Bool
  | context, path => path ≠ ""
  | _, _ => true

/-- The name of an option after two dashes. -/
def longName : Flag → String
  | debug => "debug"
  | noeval => "noeval"
  | context => "context"
  | contextJson => "context-json"
  | help => "help"
  | version => "version"

/-- The letter of an option after one dash, if it has one. -/
def shortName? : Flag → Option Char
  | debug => some 'd'
  | context => some 'c'
  | help => some 'h'
  | version => some 'V'
  | noeval | contextJson => none

/-- The option of a kind among the known ones. -/
def find (known : List Flag) (p : Flag → Bool) : Except Interruption Flag :=
  match known.find? p with
  | some flag => .ok flag
  | none => .error .misuse

end Flag

/-- The options that are set, with their values, and the argument that is no option. -/
structure Settings where
  flags : List (Flag × String)
  text? : Option String

namespace Settings

/-- Nothing is set. -/
def empty : Settings := ⟨[], none⟩

/-- The option was given. -/
def isSet (s : Settings) (flag : Flag) : Bool := s.flags.any fun set => set.1 = flag

/-- The value that an option was given. -/
def value? (s : Settings) (flag : Flag) : Option String :=
  (s.flags.find? fun set => set.1 = flag).map Prod.snd

/-- Sets an option that is not set yet.  One that asks for an explanation ends the reading. -/
def set (s : Settings) (flag : Flag) (value : String) : Except Interruption Settings :=
  match flag with
  | .help => .error .help
  | .version => .error .version
  | flag =>
    if s.isSet flag || !flag.allows value then .error .misuse
    else .ok { s with flags := s.flags ++ [(flag, value)] }

/-- Adds an argument that is no option.  There is room for one. -/
def addText (s : Settings) (text : String) : Except Interruption Settings :=
  match s.text? with
  | none => .ok { s with text? := some text }
  | some _ => .error .misuse

end Settings

/-- An argument that is an option: it begins with a dash and has more than that. -/
def looksLikeOption (arg : String) : Bool :=
  match arg.toList with
  | '-' :: _ :: _ => true
  | _ => false

/-- The settings after one argument, and the option that waits for its value. -/
abbrev Step := Except Interruption (Settings × Option Flag)

/-- A long option, without its dashes: with a value behind an equals sign if it takes one. -/
def longOption (known : List Flag) (arg : List Char) (s : Settings) : Step := do
  let name := String.ofList (arg.takeWhile (· ≠ '='))
  let flag ← Flag.find known fun flag => flag.longName = name
  match arg.dropWhile (· ≠ '='), flag.takesValue with
  | [], true => return (s, some flag)
  | [], false => return (← s.set flag "", none)
  | _ :: value, true => return (← s.set flag (String.ofList value), none)
  | _ :: _, false => throw .misuse

/-- Short options in a row, without their dash; one that takes a value takes the rest. -/
def shortOptions (known : List Flag) : List Char → Settings → Step
  | [], s => .ok (s, none)
  | c :: rest, s => do
    let flag ← Flag.find known fun flag => flag.shortName? = some c
    if flag.takesValue then
      match rest with
      | [] => return (s, some flag)
      | '=' :: value => return (← s.set flag (String.ofList value), none)
      | value => return (← s.set flag (String.ofList value), none)
    else shortOptions known rest (← s.set flag "")

/-- One argument, while no option waits for a value. -/
def argument (known : List Flag) (arg : String) (s : Settings) : Step :=
  match arg.toList with
  | '-' :: '-' :: name => longOption known name s
  | '-' :: c :: rest => shortOptions known (c :: rest) s
  | _ => do return (← s.addText arg, none)

/-- All arguments, in their order. -/
def settings (known : List Flag) :
    Option Flag → List String → Settings → Except Interruption Settings
  | none, [], s => .ok s
  | some _, [], _ => .error .misuse
  | some flag, arg :: rest, s =>
    if looksLikeOption arg then .error .misuse
    else do settings known none rest (← s.set flag arg)
  | none, arg :: rest, s =>
    if arg = "--" then rest.foldlM Settings.addText s
    else do
      let (s, waiting) ← argument known arg s
      settings known waiting rest s

/-- The options in front of the action. -/
def leadingFlags : List Flag := [.debug, .help, .version]

/-- The options of every action. -/
def commonFlags : List Flag := [.debug, .help]

/-- The options that give a context. -/
def contextFlags : List Flag := [.context, .contextJson]

/-- An action by name: its options, and the action once they are set. -/
def action? (name : String) : Option (List Flag × (Settings → Action)) :=
  if name = "encode" then some (commonFlags, fun _ => .encode)
  else if name = "decode" then
    some (.noeval :: contextFlags ++ commonFlags, fun s => .decode (s.isSet .noeval))
  else if name = "eval" then some (contextFlags ++ commonFlags, fun _ => .eval)
  else none

/-- The source of the variables.  Only one may be given. -/
def context? (s : Settings) : Option ContextSource :=
  match s.value? .context, s.value? .contextJson with
  | none, none => some .nowhere
  | some path, none => some (.file path)
  | none, some text => some (.inline text)
  | some _, some _ => none

/-- What the arguments of a named action ask for. -/
def ofAction (name : String) (args : List String) : Except Interruption Invocation := do
  let some (known, action) := action? name | throw .misuse
  let s ← settings known none args .empty
  match s.text?, context? s with
  | some text, some context => return ⟨action s, text, context⟩
  | _, _ => throw .misuse

/-- What `help` explains: the whole, itself, or one action. -/
def explanation : List String → Interruption
  | [] => .help
  | [name] => if name = "help" ∨ (action? name).isSome then .help else .misuse
  | _ => .misuse

/-- What a command line asks for.  Some options, but no `--`, may stand in front of the action. -/
def ofArgs (args : List String) : Except Interruption Invocation := do
  let leading := args.takeWhile looksLikeOption
  let _ ← settings leadingFlags none leading .empty
  match leading.contains "--", args.dropWhile looksLikeOption with
  | false, "help" :: topics => throw (explanation topics)
  | false, name :: rest => ofAction name rest
  | _, _ => throw .misuse

end Invocation

end Latent
