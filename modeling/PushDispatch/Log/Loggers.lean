import PushDispatch.Log.Folder
import PushDispatch.Log.Format

/-!
Loggers by name. `obtain` configures a logger the first time its name comes up, and afterwards only
sets its level, so no record is written twice. A logger that was never configured hands its records
up to its parent, at last to the root. Its parent is the nearest logger that its dotted name leads
to; one that comes later takes its place between the two.
-/

namespace PushDispatch

inductive Sink where
  | stream
  | file (place : Place)
  deriving DecidableEq, Repr

/-- The level that a logger has been given: a number, or a flag that counts as 0 or 1. -/
inductive Grade where
  | number (n : Level)
  | flag (b : Bool)
  deriving DecidableEq, Repr

def Grade.level : Grade → Level
  | .number n => n
  | .flag b => b.toNat

def rootName : String := "root"

structure Logger where
  parent : String := rootName
  sinks : List (Sink × LogFormat) := []
  grade : Grade := .number 0
  propagates : Bool := true

structure Loggers where
  named : Named Logger := []
  folder : Folder := {}

inductive LoggerError where
  | settings (cause : Settings.Error)
  | file (cause : OpenError)
  | notLevel (v : Value)
  | unknownLevel (name : String)
  | levelNotWhole
  | label (cause : Level.LabelError)
  deriving Repr

def LoggerError.message : LoggerError → String
  | .settings cause => cause.message
  | .file cause => cause.message
  | .notLevel v => "Level not an integer or a valid string: " ++ String.ofList v.display
  | .unknownLevel name => "Unknown level: " ++ Quoted.quote name
  | .levelNotWhole => "level must be an integer"
  | .label cause => cause.message

structure Loggers.Step (ε : Type) where
  loggers : Loggers
  outcome : Except ε Unit := .ok ()
  stream : String := ""

/-- The level that settings name; a name that is none means `INFO`. -/
def Settings.level (s : Settings) : Level := (Level.ofName? s.logLevel).getD Level.info

def Grade.ofValue : Value → Except LoggerError Grade
  | .int n => .ok (.number n)
  | .bool b => .ok (.flag b)
  | .str s =>
    match Level.ofName? s with
    | some n => .ok (.number n)
    | none => .error (.unknownLevel s)
  | v => .error (.notLevel v)

namespace Loggers

/-- The root has two names. -/
def canonical (name : String) : String := if name = "" then rootName else name

/-- A logger before anyone touched it: the root asks for warnings, others for nothing special. -/
def untouched (name : String) : Logger :=
  if name = rootName then { grade := .number Level.warning } else {}

def get (ls : Loggers) (name : String) : Logger :=
  (ls.named.lookup (canonical name)).getD (untouched (canonical name))

def put (ls : Loggers) (name : String) (logger : Logger) : Loggers :=
  { ls with named := ls.named.set (canonical name) logger }

/--
The names that a name leads up to, the nearest first, all in reverse: what stands before a point.
Nothing stands before a point at the beginning, and a point right before another is passed over.
-/
def headsReversed : List Char → List (List Char)
  | [] => []
  | c :: rest =>
    if c ≠ '.' then headsReversed rest
    else
      match rest with
      | [] => []
      | d :: before => (d :: before) :: headsReversed before

def heads (name : String) : List String :=
  (headsReversed name.toList.reverse).map fun cs => String.ofList cs.reverse

/--
The logger `other` with a new logger as its parent, if its name leads up to that one and the name of
its parent does not begin with it: then the parent is at or below the new one, or it is the root and
goes by a name that begins so.
-/
def placeBelow (name : String) (other : String × Logger) : String × Logger :=
  if (heads other.1).contains name && !name.toList.isPrefixOf other.2.parent.toList then
    (other.1, { other.2 with parent := name })
  else other

def touch (ls : Loggers) (name : String) : Loggers :=
  if canonical name = rootName ∨ name ∈ ls.named.names then ls
  else
    let parent := ((heads name).find? fun n => n ∈ ls.named.names).getD rootName
    { ls with named := Named.set (ls.named.map (placeBelow name)) name { parent } }

def lineage (ls : Loggers) : Nat → String → List String
  | 0, _ => [rootName]
  | steps + 1, name =>
    if canonical name = rootName then [rootName]
    else name :: lineage ls steps (ls.get name).parent

/-- No way up is longer than there are loggers. -/
def ancestry (ls : Loggers) (name : String) : List String := ls.lineage (ls.named.length + 1) name

/-- The level from which on records under a name count: the first in its ancestry that is not 0. -/
def effectiveLevel (ls : Loggers) (name : String) : Level :=
  (((ls.ancestry name).map fun n => (ls.get n).grade.level).find? (· ≠ 0)).getD 0

/-- The sinks of loggers, up to the first that hands nothing on. -/
def sinksAlong : List Logger → List (Sink × LogFormat)
  | [] => []
  | logger :: rest => logger.sinks ++ if logger.propagates then sinksAlong rest else []

def sinksOf (ls : Loggers) (name : String) : List (Sink × LogFormat) :=
  sinksAlong ((ls.ancestry name).map ls.get)

/-- Levels of zero and below are never logged. -/
def isEnabled (ls : Loggers) (name : String) (level : Level) : Bool :=
  decide (0 < level) && decide (ls.effectiveLevel name ≤ level)

def write (e : LogEntry) (step : Step LoggerError) (sink : Sink × LogFormat) : Step LoggerError :=
  match sink.2.format e with
  | .error _ => step
  | .ok text =>
    match sink.1 with
    | .stream => { step with stream := step.stream ++ text ++ "\n" }
    | .file place =>
      let folder := step.loggers.folder.append place (text ++ "\n")
      { step with loggers := { step.loggers with folder } }

/-- The bare message and failure, for entries that no sink takes. -/
def bareText (e : LogEntry) : String :=
  match Template.render e.template e.args with
  | .error _ => ""
  | .ok message =>
    match e.failure with
    | none => message ++ "\n"
    | some failure =>
      (if message.toList.getLast? = some '\n' then message else message ++ "\n")
        ++ failure.report ++ "\n"

/--
Logs an entry under a name. Where there is no sink at all, warnings still show. A level that no
record can show is noticed only when there is a record to make.
-/
def emit (ls : Loggers) (name : String) (e : LogEntry) : Step LoggerError :=
  let ls := ls.touch name
  match Level.ofValue? e.level with
  | none => { loggers := ls, outcome := .error .levelNotWhole }
  | some level =>
    if ls.isEnabled name level then
      match Level.label e.level, ls.sinksOf name with
      | .error cause, _ => { loggers := ls, outcome := .error (.label cause) }
      | .ok _, [] =>
        { loggers := ls, stream := if Level.warning ≤ level then bareText e else "" }
      | .ok _, sinks => sinks.foldl (write e) { loggers := ls }
    else { loggers := ls }

/--
Opens the file of a new logger, if the settings ask for one. One that cannot be opened is done
without, unless its path is none at all.
-/
def openFile (folder : Folder) (name : String) (s : Settings) :
    Folder × Except OpenError (Option Place) :=
  match s.logDirectory with
  | none => (folder, .ok none)
  | some directory =>
    match folder.openIn directory (name ++ ".log") with
    | (folder, .ok place) => (folder, .ok (some place))
    | (folder, .error .barred) => (folder, .ok none)
    | (folder, .error .nullCharacter) => (folder, .error .nullCharacter)

def announcement (name : String) (label : Value) (now : ClockReading) : LogEntry :=
  { level := .int Level.debug
    logger := canonical name
    template := "'%s' initialized with level %s"
    args := [.str name, label]
    created := now }

def setLevel (ls : Loggers) (name : String) (asked : Value) (isNew : Bool) (now : ClockReading) :
    Step LoggerError :=
  match Grade.ofValue asked with
  | .error cause => { loggers := ls, outcome := .error cause }
  | .ok grade =>
    let logger := { ls.get name with grade }
    if isNew then
      let ls := ls.put name { logger with propagates := false }
      match Level.label asked with
      | .error cause => { loggers := ls, outcome := .error (.label cause) }
      | .ok label => ls.emit name (announcement name label now)
    else { loggers := ls.put name logger }

/--
The logger of a name under settings, at the level asked for or that of the settings. The sinks of a
new logger are in place before its level is looked at, and stay when that is none.
-/
def obtain (ls : Loggers) (name : String) (s : Settings) (level : Option Value)
    (now : ClockReading) : Step LoggerError :=
  let ls := ls.touch name
  let asked := level.getD (.int s.level)
  let logger := ls.get name
  if logger.sinks.isEmpty then
    let format := LogFormat.ofEnvironment s.environment
    let stream : Sink × LogFormat := (.stream, format)
    let (folder, file) := openFile ls.folder name s
    let withSinks (sinks : List (Sink × LogFormat)) : Loggers :=
      { ls with folder }.put name { logger with sinks }
    match file with
    | .error cause => { loggers := withSinks [stream], outcome := .error (.file cause) }
    | .ok place =>
      let sinks := stream :: place.toList.map fun p => (.file p, format)
      (withSinks sinks).setLevel name asked true now
  else ls.setLevel name asked false now

def emitAll (ls : Loggers) (entries : List LogEntry) : Step LoggerError :=
  entries.foldl (fun step e =>
    let next := step.loggers.emit e.logger e
    { next with stream := step.stream ++ next.stream }) { loggers := ls }

def fileWarnings (file : Option String) (now : ClockReading) : List LogEntry :=
  ((file.map EnvFile.unreadableLines).getD []).map fun (line : Nat) =>
    { level := .int Level.warning
      logger := "dotenv.main"
      template := "python-dotenv could not parse statement starting at line %s"
      args := [.int line]
      created := now }

/--
The logger of a name under the settings that an environment and a file make. Warnings on the file
come first, even if there are no settings in the end.
-/
def load (ls : Loggers) (name : String) (env : EnvFile.Variables) (file : Option String)
    (level : Option Value) (now : ClockReading) : Step LoggerError :=
  let warned := ls.emitAll (fileWarnings file now)
  let step : Step LoggerError := match Settings.load env file with
    | .error cause => { loggers := warned.loggers, outcome := .error (.settings cause) }
    | .ok s => warned.loggers.obtain name s level now
  { step with stream := warned.stream ++ step.stream }

end Loggers
end PushDispatch
