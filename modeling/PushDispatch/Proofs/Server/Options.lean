import PushDispatch.Proofs.Settings.Layers
import PushDispatch.Server.Options

/-! The setup of a server by layers: each option is what is given explicitly, or else what the
variables of the environment and of a file make it. The settings are read before the options are
looked at, so one thing shows through an explicit option: a port that cannot be read. -/
namespace PushDispatch.ServerOptions

open EnvFile (Variables Assigned)
open Settings (lookup? layered firstFilled PortFrom HasPort FromVariables)

variable {get get' : String → Option String} {given : Named Value} {o : ServerOptions}

/-- An option is settled by the value given for it, or else by the variables. -/
def Settled (given : Named Value) (name : String) (chosen : Value → Prop) (otherwise : Prop) :
    Prop :=
  (given.lookup name).elim otherwise chosen

/-- The options are what is given explicitly and, apart from that, what the variables ask for. -/
structure FromLayers (get : String → Option String) (given : Named Value) (o : ServerOptions) :
    Prop where
  path : Settled given "path" (· = .str o.path) (o.path = (get "SUBPAR_PATH").getD "/")
  host : Settled given "host" (· = .str o.host) (o.host = (get "SUBPAR_HOST").getD "0.0.0.0")
  port : Settled given "port" (Port.integer · = .ok (o.port.val : Int)) (PortFrom get o.port)
  environment : Settled given "environment" (· = .str o.environment)
    (o.environment = (firstFilled get ["SUBPAR_ENVIRONMENT", "ENVIRONMENT"]).getD "development")
  tokenSecret : Settled given "push_token_secret" (· = Value.ofText? o.tokenSecret)
    (o.tokenSecret = firstFilled get ["SUBPAR_PUSH_TOKEN_SECRET"])
  absolute : o.path.toList.head? = some '/'
  inRange : o.port.val ≤ 65535

theorem checkText_eq_ok_iff {name s : String} {v : Value} :
    checkText name v = .ok s ↔ v = .str s := by
  cases v with
  | str t => rw [checkText, Except.ok.injEq, Value.str.injEq]
  | _ => exact iff_of_false nofun nofun

theorem checkPath_eq_ok_iff {s : String} {v : Value} :
    checkPath v = .ok s ↔ v = .str s ∧ s.toList.head? = some '/' := by
  rw [checkPath]
  constructor
  · intro checked
    obtain ⟨path, isText, rest⟩ := exists_of_bind_eq_ok checked
    split at rest
    · next absolute =>
      cases rest
      exact ⟨checkText_eq_ok_iff.1 isText, absolute⟩
    · cases rest
  · rintro ⟨isText, absolute⟩
    rw [checkText_eq_ok_iff.2 isText, ok_bind, if_pos absolute]
    rfl

theorem checkPort_eq_ok_iff {port : Port} {v : Value} :
    checkPort v = .ok port ↔ Port.integer v = .ok (port.val : Int) := by
  rw [checkPort, mapError_eq_ok_iff, Port.ofValue]
  cases Port.integer v with
  | error => exact iff_of_false nofun nofun
  | ok n =>
    show Port.ofInt n = .ok port ↔ _
    rw [Port.ofInt_eq_ok_iff, Except.ok.injEq]

theorem checkSecret_eq_ok_iff {secret : Option String} {v : Value} :
    checkSecret v = .ok secret ↔ v = Value.ofText? secret := by
  cases v with
  | null => cases secret <;> simp [checkSecret, Value.ofText?]
  | str s => cases secret <;> simp [checkSecret, checkText, Value.ofText?, Except.map]
  | _ => cases secret <;> exact iff_of_false nofun nofun

theorem unknownFaults_eq_nil_iff :
    unknownFaults given = [] ↔ ∀ name ∈ given.names, name ∈ names := by
  simp [unknownFaults, Named.names]

theorem check_eq_ok_iff {s : Settings} :
    check s given = .ok o ↔
      (checkPath ((given.lookup "path").getD (.str s.path)) = .ok o.path ∧
        checkText "host" ((given.lookup "host").getD (.str s.host)) = .ok o.host ∧
        checkPort ((given.lookup "port").getD (.int s.port.val)) = .ok o.port ∧
        checkText "environment" ((given.lookup "environment").getD (.str s.environment)) =
          .ok o.environment ∧
        checkSecret ((given.lookup "push_token_secret").getD (Value.ofText? s.tokenSecret)) =
          .ok o.tokenSecret) ∧
      unknownFaults given = [] := by
  obtain ⟨path, host, port, environment, secret⟩ := o
  unfold check
  dsimp only
  constructor
  · intro checked
    split at checked
    · next hp hh ho he hs hu =>
      cases checked
      exact ⟨⟨hp, hh, ho, he, hs⟩, hu⟩
    · cases checked
  · rintro ⟨⟨hp, hh, ho, he, hs⟩, hu⟩
    rw [hp, hh, ho, he, hs, hu]

def PointsAt {α : Type} (name : String) (checked : Checked α) : Prop :=
  ∀ found, checked = .error found → ∃ cause v, found = [.ofField cause name v]

namespace PointsAt

variable {α : Type} {name : String} {checked : Checked α}

theorem ok (name : String) (a : α) : PointsAt name (.ok a : Checked α) := nofun

theorem error (name : String) (cause : Fault.Cause) (v : Value) :
    PointsAt name (.error [.ofField cause name v] : Checked α) := by
  rintro found ⟨⟩
  exact ⟨cause, v, rfl⟩

private theorem exists_ok (h : PointsAt name checked) (none : checked.faults = []) :
    ∃ a, checked = .ok a := by
  cases checked with
  | ok a => exact ⟨a, rfl⟩
  | error found =>
    obtain ⟨cause, v, rfl⟩ := h found rfl
    cases none

private theorem loc_of_mem (h : PointsAt name checked) {fault : Fault}
    (mem : fault ∈ checked.faults) :
    fault.loc = [.str name] := by
  cases checked with
  | ok => cases mem
  | error found =>
    obtain ⟨cause, v, rfl⟩ := h found rfl
    rw [List.mem_singleton.1 mem]
    rfl

end PointsAt

theorem pointsAt_checkText (name : String) (v : Value) : PointsAt name (checkText name v) := by
  cases v with
  | str s => exact .ok name s
  | _ => exact .error name _ _

theorem pointsAt_checkPath (v : Value) : PointsAt "path" (checkPath v) := by
  intro found refused
  cases isText : checkText "path" v with
  | error =>
    rw [checkPath, isText, error_bind] at refused
    cases refused
    exact pointsAt_checkText "path" v _ isText
  | ok path =>
    rw [checkPath, isText, ok_bind] at refused
    split at refused
    · cases refused
    · cases refused
      exact ⟨_, v, rfl⟩

theorem pointsAt_checkPort (v : Value) : PointsAt "port" (checkPort v) := by
  intro found refused
  obtain ⟨cause, -, rfl⟩ := exists_of_mapError_eq_error refused
  exact ⟨cause, v, rfl⟩

theorem pointsAt_checkSecret (v : Value) : PointsAt "push_token_secret" (checkSecret v) := by
  cases v with
  | null => exact .ok _ _
  | str s => exact .ok _ _
  | _ => exact .error _ _ _

theorem faults_of_check {s : Settings} {found : List Fault}
    (refused : check s given = .error found) :
    found ≠ [] ∧ ∀ fault ∈ found, ∃ name ∈ names ++ given.names, fault.loc = [.str name] := by
  have path := pointsAt_checkPath ((given.lookup "path").getD (.str s.path))
  have host := pointsAt_checkText "host" ((given.lookup "host").getD (.str s.host))
  have port := pointsAt_checkPort ((given.lookup "port").getD (.int s.port.val))
  have environment :=
    pointsAt_checkText "environment" ((given.lookup "environment").getD (.str s.environment))
  have secret := pointsAt_checkSecret
    ((given.lookup "push_token_secret").getD (Value.ofText? s.tokenSecret))
  have unknown : ∀ fault ∈ unknownFaults given, ∃ name ∈ given.names, fault.loc = [.str name] := by
    intro fault mem
    obtain ⟨option, there, rfl⟩ := List.mem_map.1 mem
    exact ⟨option.1, List.mem_map_of_mem (List.mem_filter.1 there).1, rfl⟩
  unfold check at refused
  dsimp only at refused
  split at refused
  · cases refused
  · next accepted =>
    cases refused
    constructor
    · intro empty
      -- without a fault in any option every check has succeeded, and then so has the whole
      simp only [List.append_eq_nil_iff] at empty
      obtain ⟨⟨⟨⟨⟨noPath, noHost⟩, noPort⟩, noEnvironment⟩, noSecret⟩, noUnknown⟩ := empty
      obtain ⟨_, hp⟩ := path.exists_ok noPath
      obtain ⟨_, hh⟩ := host.exists_ok noHost
      obtain ⟨_, ho⟩ := port.exists_ok noPort
      obtain ⟨_, he⟩ := environment.exists_ok noEnvironment
      obtain ⟨_, hs⟩ := secret.exists_ok noSecret
      exact accepted _ _ _ _ _ hp hh ho he hs noUnknown
    · intro fault mem
      simp only [List.mem_append, or_assoc] at mem
      obtain hp | hh | ho | he | hs | hu := mem
      · exact ⟨"path", by simp [names], path.loc_of_mem hp⟩
      · exact ⟨"host", by simp [names], host.loc_of_mem hh⟩
      · exact ⟨"port", by simp [names], port.loc_of_mem ho⟩
      · exact ⟨"environment", by simp [names], environment.loc_of_mem he⟩
      · exact ⟨"push_token_secret", by simp [names], secret.loc_of_mem hs⟩
      · obtain ⟨name, there, located⟩ := unknown fault hu
        exact ⟨name, List.mem_append_right _ there, located⟩

theorem settled_iff {name : String} {setting : Value} (chosen : Value → Prop) :
    chosen ((given.lookup name).getD setting) ↔ Settled given name chosen (chosen setting) := by
  rw [Settled]
  cases given.lookup name <;> rfl

theorem Settled.congr {name : String} {chosen : Value → Prop} {a b : Prop}
    (same : given.lookup name = none → (a ↔ b)) :
    Settled given name chosen a ↔ Settled given name chosen b := by
  rw [Settled, Settled]
  cases found : given.lookup name with
  | none => exact same found
  | some => exact Iff.rfl

theorem settled_text_iff {name text setting : String} :
    (given.lookup name).getD (.str setting) = .str text ↔
      Settled given name (· = .str text) (text = setting) := by
  refine (settled_iff (· = .str text)).trans (Settled.congr fun _ => ?_)
  rw [Value.str.injEq, eq_comm]

theorem settled_secret_iff {name : String} {secret setting : Option String} :
    (given.lookup name).getD (Value.ofText? setting) = Value.ofText? secret ↔
      Settled given name (· = Value.ofText? secret) (secret = setting) := by
  refine (settled_iff (· = Value.ofText? secret)).trans (Settled.congr fun _ => ?_)
  cases setting <;> cases secret <;> simp [Value.ofText?, eq_comm]

theorem settled_port_iff {name : String} {port setting : Port} :
    Port.integer ((given.lookup name).getD (.int setting.val)) = .ok (port.val : Int) ↔
      Settled given name (Port.integer · = .ok (port.val : Int)) (port = setting) := by
  refine (settled_iff (Port.integer · = .ok (port.val : Int))).trans (Settled.congr fun _ => ?_)
  rw [Port.integer, Except.ok.injEq, Int.natCast_inj, ← Fin.ext_iff, eq_comm]

theorem check_eq_ok_iff_fromLayers {s : Settings} (asked : FromVariables get s) :
    check s given = .ok o ↔ FromLayers get given o ∧ ∀ name ∈ given.names, name ∈ names := by
  rw [check_eq_ok_iff, checkPath_eq_ok_iff, checkText_eq_ok_iff, checkText_eq_ok_iff,
    checkPort_eq_ok_iff, checkSecret_eq_ok_iff, settled_text_iff, settled_text_iff,
    settled_text_iff, settled_port_iff, settled_secret_iff, unknownFaults_eq_nil_iff,
    ← asked.port.iff_eq, asked.path, asked.host, asked.environment, asked.tokenSecret]
  constructor
  · rintro ⟨⟨⟨path, absolute⟩, host, port, environment, secret⟩, known⟩
    exact ⟨⟨path, host, port, environment, secret, absolute, by omega⟩, known⟩
  · rintro ⟨⟨path, host, port, environment, secret, absolute, -⟩, known⟩
    exact ⟨⟨⟨path, absolute⟩, host, port, environment, secret⟩, known⟩

variable {env file : Variables}

theorem find?_taken_eq_none_iff :
    given.names.find? takenNames.contains = none ↔ ∀ name ∈ given.names, name ∉ takenNames := by
  simp [List.find?_eq_none]

theorem ofVariables_of_taken {name : String}
    (found : given.names.find? takenNames.contains = some name) :
    ofVariables env file given = .error (.repeated name) := by
  rw [ofVariables, found]
  rfl

theorem ofVariables_of_free (free : ∀ name ∈ given.names, name ∉ takenNames) :
    ofVariables env file given =
      (Settings.ofVariables env file).mapError .settings >>= fun settings =>
        (check settings given).mapError .faults := by
  rw [ofVariables, find?_taken_eq_none_iff.2 free]

private theorem not_taken_of_known {name : String} (known : name ∈ names) : name ∉ takenNames := by
  have apart : ∀ name ∈ names, name ∉ takenNames := by decide
  exact apart name known

/-- The ways a setup can come out, each with its reason. Only faults of the options are reported as
faults of the configuration. -/
inductive Outcome (get : String → Option String) (given : Named Value) :
    Except Error ServerOptions → Prop where
  /-- An option bears a name that the call takes for itself. -/
  | repeated {name : String} (there : name ∈ given.names) (taken : name ∈ takenNames) :
    Outcome get given (.error (.repeated name))
  /-- There is no port to be read, whatever the options are. -/
  | unreadable {cause : Settings.Error} (free : ∀ name ∈ given.names, name ∉ takenNames)
    (noPort : ¬ HasPort get) :
    Outcome get given (.error (.settings cause))
  | refused {found : List Fault} (free : ∀ name ∈ given.names, name ∉ takenNames)
      (port : HasPort get)
    (filled : found ≠ [])
    (located : ∀ fault ∈ found, ∃ name ∈ names ++ given.names, fault.loc = [.str name]) :
    Outcome get given (.error (.faults found))
  | done {o : ServerOptions} (known : ∀ name ∈ given.names, name ∈ names) (port : HasPort get)
    (layers : FromLayers get given o) : Outcome get given (.ok o)

theorem outcome_ofVariables (env file : Variables) (given : Named Value) :
    Outcome (lookup? env file) given (ofVariables env file given) := by
  cases taken : given.names.find? takenNames.contains with
  | some name =>
    rw [ofVariables_of_taken taken]
    exact .repeated (List.mem_of_find?_eq_some taken) (by simpa using List.find?_some taken)
  | none =>
    have free := find?_taken_eq_none_iff.1 taken
    rw [ofVariables_of_free free]
    cases read : Settings.ofVariables env file with
    | error cause =>
      refine .unreadable free fun port => ?_
      obtain ⟨s, readable⟩ := Settings.exists_ofVariables_iff.2 port
      rw [read] at readable
      cases readable
    | ok s =>
      have asked := Settings.ofVariables_eq_ok_iff.1 read
      have port : HasPort (lookup? env file) := ⟨s.port, asked.port⟩
      rw [mapError_ok, ok_bind]
      cases checked : check s given with
      | error found =>
        obtain ⟨filled, located⟩ := faults_of_check checked
        exact .refused free port filled located
      | ok o =>
        obtain ⟨layers, known⟩ := (check_eq_ok_iff_fromLayers asked).1 checked
        exact .done known port layers

/-- A setup comes to the options that the layers make, if there is a port to be read even where the
layers do not ask for it. -/
theorem ofVariables_eq_ok_iff :
    ofVariables env file given = .ok o ↔
      FromLayers (lookup? env file) given o ∧ HasPort (lookup? env file) ∧
        ∀ name ∈ given.names, name ∈ names := by
  constructor
  · intro made
    have reason := outcome_ofVariables env file given
    rw [made] at reason
    cases reason with
    | done known port layers => exact ⟨layers, port, known⟩
  · rintro ⟨layers, port, known⟩
    obtain ⟨s, read⟩ := Settings.exists_ofVariables_iff.2 port
    have asked := Settings.ofVariables_eq_ok_iff.1 read
    rw [ofVariables_of_free fun name mem => not_taken_of_known (known name mem), read, mapError_ok,
      ok_bind, mapError_eq_ok_iff]
    exact (check_eq_ok_iff_fromLayers asked).2 ⟨layers, known⟩

theorem layered_congr {env : Variables} {file other : Assigned}
    (agree : ∀ name, env.lookup name = none → (other.lookup name).join = (file.lookup name).join) :
    layered env other = layered env file := by
  funext name
  rw [layered, layered]
  cases set : env.lookup name with
  | none => rw [agree name set]
  | some => rfl

theorem ofVariables_congr {env' file' : Variables} (same : lookup? env' file' = lookup? env file) :
    ofVariables env' file' given = ofVariables env file given := by
  have settings : Settings.ofVariables env' file' = Settings.ofVariables env file := by
    rw [Settings.ofVariables, same, Settings.ofVariables]
  rw [ofVariables, settings, ofVariables]

theorem load_eq (env : Variables) (text : Option String) (given : Named Value) :
    load env text given = ofVariables env (EnvFile.contents env text).variables given := by
  cases text <;> rfl

/-- A server is set up with exactly the options that the layers make: what is given explicitly, then
what a variable of the environment is, then what the file says, then what is usual. What the file
says of a variable that the environment has is of no account. With a file to be read, the file is
what its text assigns. -/
theorem options_by_layer (env : Variables) (file : Assigned) (once : file.names.Nodup)
    (given : Named Value) :
    (∀ o, ofVariables env file.variables given = .ok o ↔
      FromLayers (layered env file) given o ∧ HasPort (layered env file) ∧
        ∀ name ∈ given.names, name ∈ names) ∧
    (∀ other : Assigned, other.names.Nodup →
      (∀ name, env.lookup name = none → (other.lookup name).join = (file.lookup name).join) →
      ofVariables env other.variables given = ofVariables env file.variables given) ∧
    ∀ text : Option String, (EnvFile.contents env text).names.Nodup ∧
      load env text given = ofVariables env (EnvFile.contents env text).variables given := by
  refine ⟨fun o => ?_, fun other otherOnce agree => ?_,
    fun text => ⟨EnvFile.nodup_names_contents env text, load_eq env text given⟩⟩
  · rw [← Settings.lookup?_variables env once]
    exact ofVariables_eq_ok_iff
  · apply ofVariables_congr
    rw [Settings.lookup?_variables env once, Settings.lookup?_variables env otherOnce]
    exact layered_congr agree

theorem options_by_layer_mixed_sources :
    let env : Variables := [("SUBPAR_HOST", ""), ("SUBPAR_ENVIRONMENT", ""), ("PORT", " 8_0 ")]
    let file : Assigned := [("SUBPAR_PATH", none), ("SUBPAR_HOST", some "h"),
      ("ENVIRONMENT", some "stage"), ("SUBPAR_PUSH_TOKEN_SECRET", some "")]
    let other : Assigned := ("PORT", some "no") :: file.set "SUBPAR_HOST" none
    let given : Named Value := [("path", .str "/in")]
    let o : ServerOptions := ⟨"/in", "", 80, "stage", none⟩
    file.names.Nodup ∧ FromLayers (layered env file) given o ∧
      ofVariables env file.variables given = .ok o ∧
        ofVariables env other.variables given = .ok o := by
  intro env file other given o
  have once : file.names.Nodup := by decide
  obtain ⟨resolved, unmoved, -⟩ := options_by_layer env file once given
  have layers : FromLayers (layered env file) given o :=
    ⟨rfl, rfl, rfl, rfl, rfl, by decide, by decide⟩
  have made : ofVariables env file.variables given = .ok o :=
    (resolved o).2 ⟨layers, ⟨80, rfl⟩, by decide⟩
  have kept : ofVariables env other.variables given = ofVariables env file.variables given := by
    refine unmoved other (by decide) fun name unset => ?_
    have notPort : name ≠ "PORT" := by
      rintro rfl
      cases unset
    have notHost : name ≠ "SUBPAR_HOST" := by
      rintro rfl
      cases unset
    rw [List.lookup_cons, beq_eq_false_iff_ne.2 notPort]
    exact congrArg Option.join ((Named.lookup_set file _ _ none).trans (if_neg notHost))
  exact ⟨once, layers, made, kept.trans made⟩

def hiddenBy : Named (List String) :=
  [("path", ["SUBPAR_PATH"]), ("host", ["SUBPAR_HOST"]), ("port", ["PORT"]),
    ("environment", ["SUBPAR_ENVIRONMENT", "ENVIRONMENT"]),
    ("push_token_secret", ["SUBPAR_PUSH_TOKEN_SECRET"])]

/-- Both have the same variables, apart from those that an option hides. -/
def SameUnhidden (given : Named Value) (get get' : String → Option String) : Prop :=
  ∀ {option hidden}, hiddenBy.lookup option = some hidden → given.lookup option = none →
    ∀ name ∈ hidden, get name = get' name

theorem SameUnhidden.symm (same : SameUnhidden given get get') : SameUnhidden given get' get :=
  fun hides unhidden name mem => (same hides unhidden name mem).symm

theorem FromLayers.of_same (same : SameUnhidden given get get') (h : FromLayers get given o) :
    FromLayers get' given o where
  path := (Settled.congr fun unhidden => by
    rw [same rfl unhidden "SUBPAR_PATH" List.mem_cons_self]).1 h.path
  host := (Settled.congr fun unhidden => by
    rw [same rfl unhidden "SUBPAR_HOST" List.mem_cons_self]).1 h.host
  port := (Settled.congr fun unhidden =>
    Settings.portFrom_congr (same rfl unhidden "PORT" List.mem_cons_self)).1 h.port
  environment := (Settled.congr fun unhidden => by
    rw [Settings.firstFilled_congr (same rfl unhidden)]).1 h.environment
  tokenSecret := (Settled.congr fun unhidden => by
    rw [Settings.firstFilled_congr (same rfl unhidden)]).1 h.tokenSecret
  absolute := h.absolute
  inRange := h.inRange

theorem fromLayers_congr (same : SameUnhidden given get get') :
    FromLayers get given o ↔ FromLayers get' given o :=
  ⟨.of_same same, .of_same same.symm⟩

theorem hasPort_congr (same : SameUnhidden given get get') (unhidden : given.lookup "port" = none) :
    HasPort get ↔ HasPort get' :=
  exists_congr fun _ => Settings.portFrom_congr (same rfl unhidden "PORT" List.mem_cons_self)

/-- A setup fails with a fault of the configuration, or because an option bears a name that is
taken, or because there is no port to be read. What an option hides has no part in whether it
succeeds, nor in what it comes to, except that a port must be there to be read even where an option
hides it. -/
theorem setup_by_reason (env file : Variables) (given : Named Value) :
    Outcome (lookup? env file) given (ofVariables env file given) ∧
    ∀ env' file', SameUnhidden given (lookup? env file) (lookup? env' file') →
      (given.lookup "port" ≠ none → (HasPort (lookup? env file) ↔ HasPort (lookup? env' file'))) →
      ∀ o, ofVariables env file given = .ok o ↔ ofVariables env' file' given = .ok o := by
  refine ⟨outcome_ofVariables env file given, fun env' file' same shown o => ?_⟩
  have port : HasPort (lookup? env file) ↔ HasPort (lookup? env' file') := by
    by_cases unhidden : given.lookup "port" = none
    · exact hasPort_congr same unhidden
    · exact shown unhidden
  rw [ofVariables_eq_ok_iff, ofVariables_eq_ok_iff, fromLayers_congr same, port]

theorem setup_by_reason_hidden_path :
    let env : Variables := [("SUBPAR_PATH", "relative"), ("PORT", "1")]
    let env' : Variables := [("PORT", "65535")]
    let given : Named Value := [("path", .str "/in"), ("port", .int 80)]
    let o : ServerOptions := ⟨"/in", "0.0.0.0", 80, "development", none⟩
    SameUnhidden given (lookup? env []) (lookup? env' []) ∧
      HasPort (lookup? env []) ∧ HasPort (lookup? env' []) ∧
      ofVariables env [] given = .ok o ∧ ofVariables env' [] given = .ok o := by
  intro env env' given o
  have same : SameUnhidden given (lookup? env []) (lookup? env' []) := by
    intro option hidden hides unhidden name mem
    obtain ⟨before, after, split, -⟩ := List.lookup_eq_some_iff.1 hides
    have entry : (option, hidden) ∈ hiddenBy := split ▸ by simp
    simp only [hiddenBy, List.mem_cons, Prod.mk.injEq, List.not_mem_nil, or_false] at entry
    obtain ⟨rfl, rfl⟩ | ⟨rfl, rfl⟩ | ⟨rfl, rfl⟩ | ⟨rfl, rfl⟩ | ⟨rfl, rfl⟩ := entry
    · cases unhidden
    · rw [List.mem_singleton.1 mem]
      rfl
    · cases unhidden
    · obtain rfl | mem := List.mem_cons.1 mem
      · rfl
      · rw [List.mem_singleton.1 mem]
        rfl
    · rw [List.mem_singleton.1 mem]
      rfl
  have port : HasPort (lookup? env []) := ⟨1, by rfl⟩
  have port' : HasPort (lookup? env' []) := ⟨65535, by rfl⟩
  have layers : FromLayers (lookup? env []) given o :=
    ⟨rfl, rfl, rfl, rfl, rfl, by decide, by decide⟩
  have made : ofVariables env [] given = .ok o :=
    ofVariables_eq_ok_iff.2 ⟨layers, port, by decide⟩
  obtain ⟨-, alike⟩ := setup_by_reason env [] given
  exact ⟨same, port, port', made,
    (alike env' [] same (fun _ => iff_of_true port port') o).1 made⟩

/-- A port is given, and still the setup fails where the environment has no number for it, not with
a fault of the configuration either. -/
theorem given_port_shows_unreadable :
    let given : Named Value := [("port", .int 80)]
    ofVariables [("PORT", "abc")] [] given = .error (.settings (.port (.malformed "abc"))) ∧
      ofVariables [] [] given = .ok ⟨"/", "0.0.0.0", 80, "development", none⟩ := by
  intro given
  have layers : FromLayers (lookup? [] []) given ⟨"/", "0.0.0.0", 80, "development", none⟩ :=
    ⟨rfl, rfl, rfl, rfl, rfl, by decide, by decide⟩
  refine ⟨?_, ofVariables_eq_ok_iff.2 ⟨layers, ⟨8080, rfl⟩, by decide⟩⟩
  have read : Settings.ofVariables [("PORT", "abc")] [] = .error (.port (.malformed "abc")) := by
    rfl
  rw [ofVariables_of_free (by decide), read]
  rfl

end PushDispatch.ServerOptions
