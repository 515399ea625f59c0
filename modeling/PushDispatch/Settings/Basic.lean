import PushDispatch.Settings.EnvFile
import PushDispatch.Settings.Port
import PushDispatch.Text.LetterCase

/-!
Settings of the server, from the environment and a file of variables. A variable of the environment
hides the file's, even when it is empty.
-/

namespace PushDispatch

structure Settings where
  environment : String
  logLevel : String
  host : String
  port : Port
  path : String
  tokenSecret : Option String
  logDirectory : Option String
  deriving DecidableEq, Repr

namespace Settings

open EnvFile (Variables)

inductive Error where
  | port (cause : Numeral.Error)
  | faults (found : List Fault)
  deriving Repr

def Error.message : Error → String
  | .port cause => cause.message
  | .faults found => Fault.headline found "Settings"

/-- The one environment that is not for development. -/
def production : String := "production"

def isProduction (s : Settings) : Bool := s.environment == production

def lookup? (env file : Variables) (name : String) : Option String :=
  (env.lookup name).orElse fun _ => file.lookup name

def nonEmpty? : Option String → Option String
  | some "" => none
  | value => value

def readPort (text : String) : Except Error Port :=
  match Numeral.read text with
  | .error cause => .error (.port cause)
  | .ok n => (Port.ofInt n).mapError fun cause => .faults [.ofField cause "port" (.int n)]

def ofVariables (env file : Variables) : Except Error Settings := do
  let get := lookup? env file
  let environment := ((nonEmpty? (get "SUBPAR_ENVIRONMENT")).orElse fun _ =>
    nonEmpty? (get "ENVIRONMENT")).getD "development"
  let port ← readPort ((get "PORT").getD "8080")
  return {
    environment
    logLevel := LetterCase.upper ((get "SUBPAR_LOG_LEVEL").getD "INFO")
    host := (get "SUBPAR_HOST").getD "0.0.0.0"
    port
    path := (get "SUBPAR_PATH").getD "/"
    tokenSecret := nonEmpty? (get "SUBPAR_PUSH_TOKEN_SECRET")
    logDirectory := nonEmpty? (get "SUBPAR_LOG_DIR") }

def load (env : Variables) (file : Option String) : Except Error Settings :=
  ofVariables env ((file.map (EnvFile.read env)).getD [])

end Settings
end PushDispatch
