import Mathlib.Data.List.Basic
import PushDispatch.Proofs.Except
import PushDispatch.Settings.Basic

/-! Settings told from what each variable comes to: the environment's value, an empty one too, or
else the file's. -/
namespace PushDispatch

namespace Named

variable {α : Type} {xs : Named α}

@[simp] theorem names_cons (x : String × α) (xs : Named α) : names (x :: xs) = x.1 :: names xs :=
  rfl

private theorem names_set (xs : Named α) (name : String) (a : α) :
    (xs.set name a).names = if name ∈ xs.names then xs.names else xs.names ++ [name] := by
  induction xs with
  | nil => rfl
  | cons x rest ih =>
    by_cases same : x.1 = name
    · rw [set, if_pos same, names_cons, names_cons, if_pos (same ▸ List.mem_cons_self)]
    · rw [set, if_neg same, names_cons, names_cons, ih]
      by_cases there : name ∈ names rest
      · rw [if_pos there, if_pos (List.mem_cons_of_mem _ there)]
      · have absent : name ∉ x.1 :: names rest := by simp [Ne.symm same, there]
        rw [if_neg there, if_neg absent, List.cons_append]

private theorem nodup_names_set (once : xs.names.Nodup) (name : String) (a : α) :
    (xs.set name a).names.Nodup := by
  rw [names_set]
  split
  · exact once
  · next absent =>
    refine List.nodup_append.2 ⟨once, List.pairwise_singleton .., fun other mem new here => ?_⟩
    rw [List.mem_singleton.1 here]
    rintro rfl
    exact absent mem

private theorem lookup_eq_none_of_notMem {name : String} (absent : name ∉ xs.names) :
    xs.lookup name = none := by
  rw [List.lookup_eq_none_iff]
  intro x mem
  rw [bne_iff_ne]
  rintro rfl
  exact absent (List.mem_map_of_mem mem)

end Named

namespace EnvFile

theorem nodup_names_assigned (env : Variables) (text : String) :
    (assigned env text).names.Nodup := by
  rw [assigned]
  apply List.foldlRecOn (motive := fun file : Assigned => file.names.Nodup)
  · exact List.nodup_nil
  · exact fun file once a _ => Named.nodup_names_set once _ _

def contents (env : Variables) (text : Option String) : Assigned := text.elim [] (assigned env)

theorem nodup_names_contents (env : Variables) (text : Option String) :
    (contents env text).names.Nodup := by
  cases text with
  | none => exact List.nodup_nil
  | some text => exact nodup_names_assigned env text

theorem lookup_variables {file : Assigned} (once : file.names.Nodup) (name : String) :
    file.variables.lookup name = (file.lookup name).join := by
  induction file with
  | nil => rfl
  | cons a rest ih =>
    obtain ⟨n, value⟩ := a
    obtain ⟨absent, later⟩ := List.nodup_cons.1 once
    cases value with
    | none =>
      have skipped : Assigned.variables ((n, none) :: rest) = Assigned.variables rest := rfl
      rw [skipped, ih later, List.lookup_cons]
      by_cases here : name = n
      · -- the name is not further on, where it might have a value
        have nowhere : rest.lookup name = none := Named.lookup_eq_none_of_notMem (here ▸ absent)
        rw [nowhere, beq_iff_eq.2 here]
        rfl
      · rw [beq_eq_false_iff_ne.2 here]
    | some v =>
      have kept : Assigned.variables ((n, some v) :: rest) = (n, v) :: Assigned.variables rest :=
        rfl
      rw [kept, List.lookup_cons, List.lookup_cons, ih later]
      cases name == n <;> rfl

end EnvFile

@[simp] theorem Port.ofInt_val (port : Port) : ofInt (port.val : Int) = .ok port := by
  rw [ofInt, dif_pos (by omega)]
  rfl

theorem Port.ofInt_eq_ok_iff {n : Int} {port : Port} : ofInt n = .ok port ↔ n = port.val := by
  constructor
  · exact fun h => (ofInt_eq_ok h).symm
  · rintro rfl
    exact ofInt_val port

namespace Settings

open EnvFile (Variables Assigned)

/-- What a variable comes to. In a file it may be without a value. -/
def layered (env : Variables) (file : Assigned) (name : String) : Option String :=
  (env.lookup name).or (file.lookup name).join

theorem lookup?_variables (env : Variables) {file : Assigned} (once : file.names.Nodup) :
    lookup? env file.variables = layered env file := by
  funext name
  rw [lookup?, Option.orElse_eq_or, EnvFile.lookup_variables once, layered]

def firstFilled (get : String → Option String) (names : List String) : Option String :=
  (names.filterMap get).find? (· ≠ "")

def PortFrom (get : String → Option String) (port : Port) : Prop :=
  (get "PORT").elim (port = 8080) fun text => Numeral.read text = .ok (port.val : Int)

theorem PortFrom.iff_eq {get : String → Option String} {port other : Port}
    (asked : PortFrom get port) : PortFrom get other ↔ other = port := by
  rw [PortFrom] at asked ⊢
  cases value : get "PORT" with
  | none =>
    rw [value] at asked
    rw [show port = 8080 from asked]
    rfl
  | some text =>
    rw [value] at asked
    show Numeral.read text = _ ↔ _
    rw [show Numeral.read text = .ok (port.val : Int) from asked, Except.ok.injEq,
      Int.natCast_inj, ← Fin.ext_iff]
    exact eq_comm

def HasPort (get : String → Option String) : Prop := ∃ port, PortFrom get port

/-- The settings are those that the variables ask for. -/
structure FromVariables (get : String → Option String) (s : Settings) : Prop where
  environment : s.environment =
    (firstFilled get ["SUBPAR_ENVIRONMENT", "ENVIRONMENT"]).getD "development"
  logLevel : s.logLevel = LetterCase.upper ((get "SUBPAR_LOG_LEVEL").getD "INFO")
  host : s.host = (get "SUBPAR_HOST").getD "0.0.0.0"
  port : PortFrom get s.port
  path : s.path = (get "SUBPAR_PATH").getD "/"
  tokenSecret : s.tokenSecret = firstFilled get ["SUBPAR_PUSH_TOKEN_SECRET"]
  logDirectory : s.logDirectory = firstFilled get ["SUBPAR_LOG_DIR"]

theorem readPort_eq_ok_iff {text : String} {port : Port} :
    readPort text = .ok port ↔ Numeral.read text = .ok (port.val : Int) := by
  rw [readPort]
  cases Numeral.read text with
  | error => exact iff_of_false nofun nofun
  | ok n =>
    dsimp only
    rw [mapError_eq_ok_iff, Port.ofInt_eq_ok_iff, Except.ok.injEq]

theorem readPort_getD_eq_ok_iff {get : String → Option String} {port : Port} :
    readPort ((get "PORT").getD "8080") = .ok port ↔ PortFrom get port := by
  have usual : readPort "8080" = .ok 8080 := by rfl
  rw [PortFrom]
  cases get "PORT" with
  | none =>
    rw [Option.getD_none, usual, Except.ok.injEq]
    exact eq_comm
  | some text => exact readPort_eq_ok_iff

theorem portFrom_congr {get get' : String → Option String} {port : Port}
    (same : get "PORT" = get' "PORT") : PortFrom get port ↔ PortFrom get' port := by
  rw [PortFrom, PortFrom, same]

theorem nonEmpty?_eq (value : Option String) : nonEmpty? value = value.filter (· ≠ "") := by
  unfold nonEmpty?
  split
  · rfl
  · next h =>
    cases value with
    | none => rfl
    | some s =>
      have filled : s ≠ "" := fun empty => h (congrArg some empty)
      rw [Option.filter_some, if_pos (decide_eq_true filled)]

theorem firstFilled_cons (get : String → Option String) (name : String) (names : List String) :
    firstFilled get (name :: names) = (nonEmpty? (get name)).or (firstFilled get names) := by
  rw [nonEmpty?_eq, firstFilled, firstFilled]
  cases value : get name with
  | none =>
    rw [List.filterMap_cons_none value]
    rfl
  | some s =>
    rw [List.filterMap_cons_some value, List.find?_cons, Option.filter_some]
    cases decide (s ≠ "") <;> rfl

@[simp] theorem firstFilled_nil (get : String → Option String) : firstFilled get [] = none := rfl

theorem firstFilled_congr {get get' : String → Option String} {names : List String}
    (same : ∀ name ∈ names, get name = get' name) :
    firstFilled get names = firstFilled get' names := by
  rw [firstFilled, firstFilled, List.filterMap_congr same]

theorem ofVariables_eq_ok_iff {env file : Variables} {s : Settings} :
    ofVariables env file = .ok s ↔ FromVariables (lookup? env file) s := by
  constructor
  · intro read
    obtain ⟨port, asked, made⟩ := exists_of_bind_eq_ok read
    cases made
    exact {
      environment := by
        simp only [firstFilled_cons, firstFilled_nil, Option.or_none, Option.orElse_eq_or]
      logLevel := rfl
      host := rfl
      port := readPort_getD_eq_ok_iff.1 asked
      path := rfl
      tokenSecret := by rw [firstFilled_cons, firstFilled_nil, Option.or_none]
      logDirectory := by rw [firstFilled_cons, firstFilled_nil, Option.or_none] }
  · intro h
    obtain ⟨environment, logLevel, host, port, path, tokenSecret, logDirectory⟩ := s
    obtain ⟨rfl, rfl, rfl, asked, rfl, rfl, rfl⟩ := h
    rw [ofVariables, readPort_getD_eq_ok_iff.2 asked, ok_bind]
    simp only [firstFilled_cons, firstFilled_nil, Option.or_none, Option.orElse_eq_or]
    rfl

theorem exists_ofVariables_iff {env file : Variables} :
    (∃ s, ofVariables env file = .ok s) ↔ HasPort (lookup? env file) := by
  constructor
  · rintro ⟨s, read⟩
    exact ⟨s.port, (ofVariables_eq_ok_iff.1 read).port⟩
  · rintro ⟨port, asked⟩
    cases read : ofVariables env file with
    | ok s => exact ⟨s, rfl⟩
    | error =>
      rw [ofVariables, readPort_getD_eq_ok_iff.2 asked, ok_bind] at read
      cases read

end Settings
end PushDispatch
