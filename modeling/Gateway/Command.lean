/-!
# Commands

What the program can be asked to do, and how it is asked: `Command.parse` reads the arguments. An
option is given as `--name value` or `--name=value`, a flag as `--name`; behind `--` everything is a
plain argument. The first argument that makes no sense decides, unless help is asked for before it.
-/

namespace Gateway

/-- The files that planning starts from. -/
structure InputPaths where
  /-- Documents with declarations, merged in this order. -/
  desired : List String
  /-- What the gateway holds; nothing when there is no file. -/
  current : Option String := none
  /-- Layers of configuration, later ones over earlier ones. -/
  config : List String := []
  /-- Keys of the configuration that nothing reads are an error. -/
  strict : Bool := false
  deriving DecidableEq, Repr

/-- What the program is asked to do. -/
inductive Command
  /-- Show what would be done; the status may tell whether that is anything. -/
  | diff (inputs : InputPaths) (statusTells : Bool)
  /-- Check that what is declared can be resolved. -/
  | validate (inputs : InputPaths)
  /-- Show the hash of a configuration, and the configuration. -/
  | configHash (paths : List String)
  deriving DecidableEq, Repr

/-- Why arguments make no command. -/
inductive UsageError
  /-- Help is asked for. -/
  | help
  | noCommand
  | unknownCommand (name : String)
  | unexpected (argument : String)
  | missingValue (option : String)
  /-- An option that can be given once only is given again. -/
  | repeated (option : String)
  /-- Something necessary is not given. -/
  | missing (what : String)
  deriving DecidableEq, Repr

namespace UsageError

/-- How the program is used. -/
def usage : String :=
  "usage: diff --desired FILE... [--current FILE] [--config FILE]... [--strict-config] " ++
    "[--exit-code] | validate --desired FILE... [--current FILE] [--config FILE]... " ++
    "[--strict-config] | config-hash FILE..."

/-- The text of the error. -/
def message : UsageError → String
  | help => usage
  | noCommand => usage
  | unknownCommand name => "unknown command " ++ name
  | unexpected argument => "unexpected argument " ++ argument
  | missingValue option => "option --" ++ option ++ " needs a value"
  | repeated option => "option --" ++ option ++ " is given more than once"
  | missing what => what ++ " is missing"

/-- The exit status: asking for help is no failure. -/
def status : UsageError → Nat
  | help => 0
  | _ => 2

end UsageError

/-! ### Arguments -/

/-- What an option of a command is like. -/
inductive OptionKind
  /-- It has a value and may be given any number of times. -/
  | list
  /-- It has a value and may be given once. -/
  | single
  /-- It has no value and may be given once. -/
  | flag
  deriving DecidableEq, Repr

/-- What a command takes. -/
structure CommandRules where
  options : List (String × OptionKind)
  /-- Whether it takes plain arguments. -/
  takesPlain : Bool

/-- Arguments taken apart. -/
structure Arguments where
  /-- Options in the order given; a flag has no value. -/
  options : List (String × Option String) := []
  /-- Plain arguments in the order given. -/
  plain : List String := []

namespace Arguments

/-- The values of an option. -/
def values (a : Arguments) (name : String) : List String :=
  (a.options.filter (·.1 == name)).filterMap (·.2)

/-- Whether an option is given. -/
def has (a : Arguments) (name : String) : Bool := a.options.any (·.1 == name)

/-- Add an option, which may be there already only if it is a list. -/
def addOption (a : Arguments) (kind : OptionKind) (name : String) (value : Option String) :
    Except UsageError Arguments :=
  if kind != .list && a.has name then .error (.repeated name)
  else .ok { a with options := a.options ++ [(name, value)] }

/-- Add a plain argument. -/
def addPlain (a : Arguments) (rules : CommandRules) (argument : String) :
    Except UsageError Arguments :=
  if rules.takesPlain then .ok { a with plain := a.plain ++ [argument] }
  else .error (.unexpected argument)

/-- The name of a long option and the value behind its equals sign. -/
def longOption? (argument : String) : Option (String × Option String) :=
  match argument.toList with
  | '-' :: '-' :: cs =>
    let name := String.ofList (cs.takeWhile (· != '='))
    match cs.dropWhile (· != '=') with
    | _ :: value => some (name, some (String.ofList value))
    | [] => some (name, none)
  | _ => none

/-- Whether an argument looks like an option; a lone hyphen does not. -/
def looksLikeOption (argument : String) : Bool :=
  match argument.toList with
  | '-' :: _ :: _ => true
  | _ => false

/-- What an argument that begins with two hyphens adds. An option without its value awaits it. -/
def addLong (a : Arguments) (rules : CommandRules) (argument name : String)
    (value : Option String) : Except UsageError (Arguments × Option (String × OptionKind)) :=
  match rules.options.lookup name, value with
  | none, _ => .error (if name == "help" && value.isNone then .help else .unexpected argument)
  | some .flag, some _ => .error (.unexpected argument)
  | some .flag, none => (a.addOption .flag name none).map (·, none)
  | some kind, some _ => (a.addOption kind name value).map (·, none)
  | some kind, none => .ok (a, some (name, kind))

/-- What an argument with one hyphen before a letter does: help can be asked for in this way. -/
def refuseShort (argument : String) : UsageError :=
  if argument.toList[1]? == some 'h' then .help else .unexpected argument

/-- Take the arguments of a command apart. `awaiting` is the option whose value comes next. -/
def read (rules : CommandRules) : Option (String × OptionKind) → Arguments → List String →
    Except UsageError Arguments
  | none, a, [] => .ok a
  | some (name, _), _, [] => .error (.missingValue name)
  | some (name, kind), a, value :: rest =>
    if looksLikeOption value then .error (.missingValue name)
    else match a.addOption kind name (some value) with
      | .ok a => read rules none a rest
      | .error e => .error e
  | none, a, argument :: rest =>
    if argument == "--" then rest.foldlM (fun a p => a.addPlain rules p) a
    else match longOption? argument with
      | some (name, value) =>
        match a.addLong rules argument name value with
        | .ok (a, awaiting) => read rules awaiting a rest
        | .error e => .error e
      | none =>
        if looksLikeOption argument then .error (refuseShort argument)
        else match a.addPlain rules argument with
          | .ok a => read rules none a rest
          | .error e => .error e

/-- The files that planning starts from. -/
def inputPaths (a : Arguments) : Except UsageError InputPaths :=
  let desired := a.values "desired"
  if desired.isEmpty then .error (.missing "--desired")
  else .ok ⟨desired, (a.values "current").head?, a.values "config", a.has "strict-config"⟩

end Arguments

/-! ### Commands -/

namespace Command

/-- What every command takes that plans. -/
def planningRules : CommandRules :=
  ⟨[("desired", .list), ("current", .single), ("config", .list), ("strict-config", .flag)], false⟩

/-- What `diff` takes. -/
def diffRules : CommandRules :=
  { planningRules with options := planningRules.options ++ [("exit-code", .flag)] }

/-- What `config-hash` takes. -/
def configHashRules : CommandRules := ⟨[], true⟩

/-- The names of the commands. -/
def names : List String := ["diff", "validate", "config-hash", "help"]

/-- The command that arguments make. -/
def parse : List String → Except UsageError Command
  | [] => .error .noCommand
  | "diff" :: rest => do
    let a ← Arguments.read diffRules none {} rest
    return .diff (← a.inputPaths) (a.has "exit-code")
  | "validate" :: rest => do
    let a ← Arguments.read planningRules none {} rest
    return .validate (← a.inputPaths)
  | "config-hash" :: rest => do
    let a ← Arguments.read configHashRules none {} rest
    if a.plain.isEmpty then throw (.missing "a file")
    return .configHash a.plain
  | ["help"] => .error .help
  | ["help", name] => .error (if names.contains name then .help else .unknownCommand name)
  | argument :: _ =>
    .error (if argument == "--help" || argument.startsWith "-h" then .help
      else .unknownCommand argument)

end Command

end Gateway
