import PushDispatch.DateTime.Instant
import PushDispatch.Failure
import PushDispatch.Json.Writer
import PushDispatch.Log.Record
import PushDispatch.Log.Template
import PushDispatch.Settings.Basic

/-!
Log records as text: one JSON object on one line in production, two lines for people elsewhere.
-/

namespace PushDispatch

/-- What is logged: the message is still a template with its arguments. -/
structure LogEntry where
  level : Value
  logger : String
  template : String
  args : List Value := []
  failure : Option Failure := none
  created : ClockReading

inductive LogFormat where
  | json
  | text
  deriving DecidableEq, Repr

namespace LogFormat

inductive Error where
  | level (cause : Level.LabelError)
  | created (cause : ClockError)
  | template (cause : Template.Error)
  deriving DecidableEq, Repr

def Error.message : Error → String
  | .level cause => cause.message
  | .created cause => cause.message
  | .template cause => cause.message

def ofEnvironment (environment : String) : LogFormat :=
  if environment = Settings.production then .json else .text

def jsonLine (timestamp : String) (severity : Value) (logger message : String)
    (exception : Option String) : String :=
  Json.writeText Json.Style.spacedAscii (.ofFields
    ([("timestamp", .str timestamp), ("severity", severity), ("logger", .str logger),
      ("message", .str message)] ++ exception.toList.map fun e => ("exception", .str e)))

def textLines (time severity logger message : String) (exception : Option String) : String :=
  time ++ "     || " ++ logger ++ " \n" ++ severity ++ "   || " ++ message ++ " \n"
    ++ exception.getD ""

/-- The text of an entry. Two lines have their message before their time, one object the reverse. -/
def format (f : LogFormat) (e : LogEntry) : Except Error String := do
  let severity ← (Level.label e.level).mapError .level
  let message := (Template.render e.template e.args).mapError .template
  let exception := e.failure.map Failure.report
  match f with
  | .json =>
    let time ← (e.created.bind Instant.dateTime).mapError .created
    return jsonLine time.isoText severity e.logger (← message) exception
  | .text =>
    let message ← message
    let time ← (e.created.bind Instant.clockText).mapError .created
    return textLines (String.ofList time) (String.ofList severity.plain) e.logger message exception

end LogFormat
end PushDispatch
