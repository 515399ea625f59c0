import PushDispatch.Settings.Basic

/-!
Options of a server. What is not given explicitly comes from the settings; the whole is checked,
and every fault is reported.
-/

namespace PushDispatch

structure ServerOptions where
  path : String
  host : String
  port : Port
  environment : String
  tokenSecret : Option String
  deriving DecidableEq, Repr

namespace ServerOptions

inductive Error where
  | settings (cause : Settings.Error)
  | faults (found : List Fault)
  | repeated (name : String)
  deriving Repr

def Error.message : Error → String
  | .settings cause => cause.message
  | .faults found => "Invalid options: " ++ Fault.headline found "ServerOptions"
  | .repeated name => s!"Subpar.__init__() got multiple values for argument '{name}'"

def names : List String := ["path", "host", "port", "environment", "push_token_secret"]

def checkText (name : String) : Value → Checked String
  | .str s => .ok s
  | v => .error [.ofField .notText name v]

def checkPath (v : Value) : Checked String := do
  let path ← checkText "path" v
  if path.toList.head? = some '/' then return path
  throw [.ofField .relativePath "path" v]

def checkPort (v : Value) : Checked Port :=
  (Port.ofValue v).mapError fun cause => [.ofField cause "port" v]

def checkSecret : Value → Checked (Option String)
  | .null => .ok none
  | v => (checkText "push_token_secret" v).map some

def unknownFaults (given : Named Value) : List Fault :=
  (given.filter fun o => !names.contains o.1).map fun o => .ofField .unknownField o.1 o.2

def check (settings : Settings) (given : Named Value) : Checked ServerOptions :=
  let get (name : String) (setting : Value) : Value := (given.lookup name).getD setting
  let path := checkPath (get "path" (.str settings.path))
  let host := checkText "host" (get "host" (.str settings.host))
  let port := checkPort (get "port" (.int settings.port.val))
  let environment := checkText "environment" (get "environment" (.str settings.environment))
  let secret := checkSecret (get "push_token_secret" (Value.ofText? settings.tokenSecret))
  match path, host, port, environment, secret, unknownFaults given with
  | .ok path, .ok host, .ok port, .ok environment, .ok secret, [] =>
    .ok ⟨path, host, port, environment, secret⟩
  | path, host, port, environment, secret, unknown =>
    .error (path.faults ++ host.faults ++ port.faults ++ environment.faults ++ secret.faults
      ++ unknown)

/-- What the server itself is given beside its options. -/
def takenNames : List String := ["self", "name"]

/--
The options under an environment and the variables of a file. The settings are read in full before
any option is looked at, so an option does not hide a setting that cannot be read.
-/
def ofVariables (env file : EnvFile.Variables) (given : Named Value) :
    Except Error ServerOptions := do
  if let some name := given.names.find? takenNames.contains then throw (.repeated name)
  let settings ← (Settings.ofVariables env file).mapError .settings
  (check settings given).mapError .faults

def load (env : EnvFile.Variables) (file : Option String) (given : Named Value) :
    Except Error ServerOptions :=
  ofVariables env ((file.map (EnvFile.read env)).getD []) given

def healthcheckPath (o : ServerOptions) : String :=
  if o.path.toList.getLast? = some '/' then o.path ++ "healthcheck" else o.path ++ "/healthcheck"

end ServerOptions
end PushDispatch
