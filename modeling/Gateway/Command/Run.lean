import Gateway.Command
import Gateway.Config.Layered
import Gateway.Config.Pointer
import Gateway.Plan

/-!
# Running commands

`Command.run` says what a command prints and with which status it ends, given what the files hold.
A command that fails has printed what it printed before, and its error on the second stream.
-/

namespace Gateway

/-- The texts of the files; none for a file that cannot be read. -/
abbrev Files := String → Option String

/-- Why a command fails. -/
inductive CommandError
  | config (e : ConfigError)
  | plan (e : PlanError)
  /-- A document that cannot be read. -/
  | unreadable (path : String)
  /-- A document with another content than it should have. -/
  | invalid (path : String)
  deriving DecidableEq, Repr

/-- The text of the error. -/
def CommandError.message : CommandError → String
  | config e => e.message
  | plan e => e.message
  | unreadable path => "read " ++ path ++ " failed"
  | invalid path => path ++ " must contain valid JSON"

/-- What a command has printed. -/
structure Transcript where
  output : List String := []
  /-- What went to the second stream. -/
  remarks : List String := []
  deriving DecidableEq, Repr, Inhabited

/-- A computation that prints and can fail. -/
abbrev Session := ExceptT CommandError (StateM Transcript)

namespace Session

/-- Print lines. -/
def print (lines : List String) : Session Unit :=
  modify fun t => { t with output := t.output ++ lines }

/-- Print lines on the second stream. -/
def remark (lines : List String) : Session Unit :=
  modify fun t => { t with remarks := t.remarks ++ lines }

/-- Go on with the outcome of something that prints nothing. -/
def check (wrap : ε → CommandError) : Except ε α → Session α
  | .ok a => pure a
  | .error e => throw (wrap e)

end Session

/-! ### Inputs -/

namespace Files

/-- The text of a layer of configuration. -/
def layer (files : Files) (path : String) : Except ConfigError String :=
  match files path with
  | some text => .ok text
  | none => .error (.unreadable path)

/-- The configuration in some layers, not yet checked. -/
def layered (files : Files) (paths : List String) : Except ConfigError Value := do
  Config.load (← paths.mapM files.layer)

/-- A text without a byte order mark before it. -/
def withoutMark (text : String) : String :=
  match text.toList with
  | c :: rest => if c == Yaml.byteOrderMark then String.ofList rest else text
  | [] => text

/-- The document in a file. -/
def document (files : Files) (path : String) (decode : Json → Option α) :
    Except CommandError α :=
  match files path with
  | none => .error (.unreadable path)
  | some text =>
    match (Json.read? (withoutMark text)).bind decode with
    | some a => .ok a
    | none => .error (.invalid path)

/-- The declarations in some files. -/
def content (files : Files) (paths : List String) : Except CommandError Content := do
  return .merge (← paths.mapM fun p => files.document p Content.ofJson?)

/-- The state in a file, or an empty one. -/
def state (files : Files) : Option String → Except CommandError State
  | none => .ok .empty
  | some path => files.document path fun j => (State.ofJson? j).bind (·.toOption)

end Files

/-- How many unused keys are shown as a remark. -/
def UnusedKeys.shown : Nat := 50

/-- The configuration of a command. Unused keys are shown, or refused. -/
def InputPaths.readConfig (p : InputPaths) (mode : Mode) (files : Files) : Session Config := do
  if p.config.isEmpty then return {}
  let document ← Session.check .config (files.layered p.config)
  let keys := UnusedKeys.ofValue mode document
  if p.strict then
    let _ ← Session.check .config keys.refuse
  Session.remark ((keys.unused.take UnusedKeys.shown).map fun key => "  unused=" ++ key)
  Session.check .config (Config.ofDocument document)

/-- What planning starts from. -/
structure PlanningInputs where
  content : Content
  current : State
  options : Options

/-- Read what planning starts from. -/
def InputPaths.read (p : InputPaths) (mode : Mode) (files : Files) : Session PlanningInputs := do
  let config ← p.readConfig mode files
  let capabilities ← Session.check (fun e => .config (.version e)) config.gateway.capabilities
  let content ← Session.check id (files.content p.desired)
  let current ← Session.check id (files.state p.current)
  return ⟨content, current, .ofConfig config capabilities⟩

/-! ### Commands -/

/-- What an action does, said while it is being done. -/
def Action.progress : Action → String
  | create => "creating"
  | update => "updating"
  | delete => "deleting"
  | keep => "unchanged"

/-- The lines that show a planned operation: what is done to which entity, and the changes. -/
def PlannedOp.lines (op : PlannedOp) : List String :=
  (op.action.progress ++ " " ++ op.entity.describe) :: op.changes.map fun c => "  " ++ c.text

namespace Command

/-- The outcome of planning with fresh ids. -/
def planned (ids : IdSupply) (p : Planning α) : Session α := Session.check .plan (p.run ids).1

/-- Do what is asked; the result is the status. -/
def execute (files : Files) (ids : IdSupply) : Command → Session Nat
  | diff inputs statusTells => do
    let i ← inputs.read .diff files
    let plan ← planned ids (i.content.plan i.current i.options)
    Session.print (plan.mutations.flatMap PlannedOp.lines ++ [plan.summary])
    return if statusTells && plan.hasChanges then 2 else 0
  | validate inputs => do
    let i ← inputs.read .validate files
    let desired ← planned ids (i.content.resolve i.current i.options)
    Session.print ["valid=true entities=" ++ toString desired.size]
    return 0
  | configHash paths => do
    let document ← Session.check .config (files.layered paths)
    Session.print ["config_hash=" ++ Config.hash document, document.text]
    return 0

/-- The status of a command and what it prints. -/
def run (files : Files) (ids : IdSupply) (c : Command) : Nat × Transcript :=
  match (c.execute files ids).run {} with
  | (.ok status, t) => (status, t)
  | (.error e, t) => (1, { t with remarks := t.remarks ++ ["Error: " ++ e.message] })

/-- The files that a command may read. -/
def paths : Command → List String
  | diff i _ => i.config ++ i.desired ++ i.current.toList
  | validate i => i.config ++ i.desired ++ i.current.toList
  | configHash ps => ps

end Command

end Gateway
