import PushDispatch.Log.Template
import PushDispatch.Value.Equality
import PushDispatch.Value.Mapping

/-!
Levels of log records. A level is a number; the common ones have names. A record shows the name of
its level, or the number where the level is given by its name.
-/

namespace PushDispatch

abbrev Level := Int

namespace Level

def debug : Level := 10
def info : Level := 20
def warning : Level := 30
def error : Level := 40
def critical : Level := 50

/-- The levels by name; where a level has two names, the one records show comes first. -/
def names : List (String × Level) :=
  [("CRITICAL", critical), ("FATAL", critical), ("ERROR", error), ("WARNING", warning),
    ("WARN", warning), ("INFO", info), ("DEBUG", debug), ("NOTSET", 0)]

def ofName? (name : String) : Option Level := names.lookup name

def name (level : Level) : String :=
  match names.find? (·.2 == level) with
  | some (n, _) => n
  | none => s!"Level {level}"

def ofValue? : Value → Option Level
  | .int n => some n
  | .bool b => some b.toNat
  | _ => none

inductive LabelError where
  /-- It can change, so nothing is looked up by it. -/
  | changeable (cause : MappingError)
  | template (cause : Template.Error)
  deriving DecidableEq, Repr

def LabelError.message : LabelError → String
  | .changeable cause => cause.message
  | .template cause => cause.message

/-- A level that has no name, by what it is. A tuple is there for its items. -/
def unnamed (level : Value) : Except LabelError Value :=
  let args := match level with
    | .tuple items => items
    | v => [v]
  match Template.fill false "Level %s".toList 0 args with
  | .ok text => .ok (.str (String.ofList text))
  | .error cause => .error (.template cause)

def label (level : Value) : Except LabelError Value :=
  match Key.ofValue level with
  | .error cause => .error (.changeable cause)
  | .ok _ =>
    match names.find? fun e => level.same (.int e.2), level.str?.bind ofName? with
    | some (n, _), _ => .ok (.str n)
    | none, some n => .ok (.int n)
    | none, none => unnamed level

end Level
end PushDispatch
