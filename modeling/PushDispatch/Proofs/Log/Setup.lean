import PushDispatch.Log.Loggers

/-! How loggers come to be set up. The first call for a logger gives it its sinks for good and stops
it from handing records on, every call gives it its level, and no call touches another logger. What
is written to the log in between changes nothing of this. -/
namespace PushDispatch

private theorem lookup_map_of_fst {κ α : Type} [BEq κ] [LawfulBEq κ] (f : κ × α → κ × α)
    (keeps : ∀ x, (f x).1 = x.1) (xs : List (κ × α)) (key : κ) :
    (xs.map f).lookup key = (xs.lookup key).map fun a => (f (key, a)).2 := by
  induction xs with
  | nil => rfl
  | cons x rest ih =>
    rw [List.map_cons, List.lookup_cons, List.lookup_cons, keeps]
    split
    · next same =>
      rw [eq_of_beq same]
      rfl
    · exact ih

namespace Folder

variable {f g : Folder}

/-- The folders are the same, and so are the places of the files; their texts may differ. -/
structure SamePlaces (f g : Folder) : Prop where
  folders : f.folders = g.folders
  files : ∀ p, f.isFile p = g.isFile p

namespace SamePlaces

theorem refl (f : Folder) : f.SamePlaces f := ⟨rfl, fun _ => rfl⟩

theorem trans {h : Folder} (fg : f.SamePlaces g) (gh : g.SamePlaces h) : f.SamePlaces h :=
  ⟨fg.folders.trans gh.folders, fun p => (fg.files p).trans (gh.files p)⟩

theorem isFolder (h : f.SamePlaces g) (p : Place) : f.isFolder p = g.isFolder p := by
  rw [Folder.isFolder, Folder.isFolder, h.folders]

theorem enter (h : f.SamePlaces g) (here : Place) (names : List String) :
    (f.enter here names).1.SamePlaces (g.enter here names).1 ∧
      (f.enter here names).2 = (g.enter here names).2 := by
  induction names generalizing f g here with
  | nil => exact ⟨h, rfl⟩
  | cons name names ih =>
    simp only [Folder.enter, h.files, h.isFolder, h.folders]
    split
    · exact ih h _
    · split
      · exact ⟨h, rfl⟩
      · apply ih (f := ⟨_, f.files⟩) (g := ⟨_, g.files⟩)
        exact ⟨rfl, h.files⟩

theorem make (h : f.SamePlaces g) (path : String) :
    (f.make path).1.SamePlaces (g.make path).1 ∧ (f.make path).2 = (g.make path).2 := by
  unfold Folder.make
  split
  · exact ⟨h, rfl⟩
  · split
    · exact h.enter _ _
    · exact ⟨h, rfl⟩

theorem openFile (h : f.SamePlaces g) (p : Place) : (f.openFile p).2 = (g.openFile p).2 := by
  simp only [Folder.openFile, h.isFolder]
  split
  · rfl
  · split <;> rfl

theorem openIn (h : f.SamePlaces g) (directory file : String) :
    (f.openIn directory file).2 = (g.openIn directory file).2 := by
  obtain ⟨places, outcome⟩ := h.make directory
  unfold Folder.openIn
  generalize f.make directory = x, g.make directory = y at places outcome
  obtain ⟨f', x⟩ := x
  obtain ⟨g', y⟩ := y
  cases outcome
  cases x with
  | ok => exact places.openFile _
  | error => rfl

end SamePlaces

theorem samePlaces_append (f : Folder) (p : Place) (text : String) :
    (f.append p text).SamePlaces f := by
  refine ⟨rfl, fun q => ?_⟩
  rw [isFile, append, lookup_map_of_fst _ (by intro file; split <;> rfl), Option.isSome_map]
  rfl

end Folder

/-- All that is set up about a logger; its parent follows from the names of the others. -/
structure Logger.Setup where
  sinks : List (Sink × LogFormat)
  grade : Grade
  propagates : Bool

def Logger.setup (l : Logger) : Logger.Setup := ⟨l.sinks, l.grade, l.propagates⟩

namespace Loggers

variable {ls ls' : Loggers}

theorem get_of_canonical {name other : String} (same : canonical other = canonical name) :
    ls.get other = ls.get name := by
  rw [get, get, same]

theorem get_put (ls : Loggers) (name : String) (logger : Logger) (other : String) :
    (ls.put name logger).get other
      = if canonical other = canonical name then logger else ls.get other := by
  rw [put, get, Named.lookup_set]
  split
  · rfl
  · rw [get]

@[simp] theorem placeBelow_fst (name : String) (other : String × Logger) :
    (placeBelow name other).1 = other.1 := by
  unfold placeBelow
  split <;> rfl

@[simp] theorem setup_placeBelow (name : String) (other : String × Logger) :
    (placeBelow name other).2.setup = other.2.setup := by
  unfold placeBelow
  split <;> rfl

theorem setup_touch (ls : Loggers) (name other : String) :
    ((ls.touch name).get other).setup = (ls.get other).setup := by
  unfold touch
  split
  · rfl
  · rename_i new
    obtain ⟨notRoot, new⟩ := not_or.1 new
    rw [get, get]
    dsimp only
    rw [Named.lookup_set]
    by_cases same : canonical other = name
    · -- the new logger itself: there was none of its name
      have absent : ls.named.lookup name = none := by
        rw [List.lookup_eq_none_iff]
        intro entry mem
        rw [bne_iff_ne]
        rintro rfl
        exact new (List.mem_map_of_mem mem)
      have notRoot : name ≠ rootName := by
        rintro rfl
        exact notRoot rfl
      rw [if_pos same, same, absent, untouched, if_neg notRoot]
      rfl
    · rw [if_neg same, lookup_map_of_fst _ (placeBelow_fst name)]
      cases ls.named.lookup (canonical other) with
      | none => rfl
      | some logger => exact setup_placeBelow name (canonical other, logger)

/-- What writing to the log leaves alone: how loggers are set up, and the places in the folder. -/
structure Keeps (ls ls' : Loggers) : Prop where
  setup : ∀ name, (ls'.get name).setup = (ls.get name).setup
  places : ls'.folder.SamePlaces ls.folder

theorem Keeps.refl (ls : Loggers) : ls.Keeps ls := ⟨fun _ => rfl, .refl _⟩

theorem Keeps.trans {ls'' : Loggers} (h : ls.Keeps ls') (h' : ls'.Keeps ls'') : ls.Keeps ls'' :=
  ⟨fun name => (h'.setup name).trans (h.setup name), h'.places.trans h.places⟩

@[simp] theorem folder_touch (ls : Loggers) (name : String) :
    (ls.touch name).folder = ls.folder := by
  unfold touch
  split <;> rfl

theorem touch_keeps (ls : Loggers) (name : String) : ls.Keeps (ls.touch name) :=
  ⟨setup_touch ls name, folder_touch ls name ▸ .refl _⟩

theorem write_keeps (e : LogEntry) (step : Step LoggerError) (sink : Sink × LogFormat) :
    step.loggers.Keeps (write e step sink).loggers := by
  unfold write
  split
  · exact .refl _
  · split
    · exact .refl _
    · exact ⟨fun _ => rfl, Folder.samePlaces_append _ _ _⟩

theorem writes_keep (e : LogEntry) (sinks : List (Sink × LogFormat)) (step : Step LoggerError) :
    step.loggers.Keeps (sinks.foldl (write e) step).loggers := by
  induction sinks generalizing step with
  | nil => exact .refl _
  | cons sink sinks ih => exact (write_keeps e step sink).trans (ih _)

theorem emit_keeps (ls : Loggers) (name : String) (e : LogEntry) :
    ls.Keeps (ls.emit name e).loggers := by
  refine (touch_keeps ls name).trans ?_
  unfold emit
  dsimp only
  split
  · exact .refl _
  · split
    · split
      · exact .refl _
      · exact .refl _
      · exact writes_keep e _ { loggers := ls.touch name }
    · exact .refl _

theorem emitAll_keeps (ls : Loggers) (entries : List LogEntry) :
    ls.Keeps (ls.emitAll entries).loggers := by
  have grow : ∀ step : Step LoggerError, step.loggers.Keeps
      (entries.foldl (fun step e =>
        let next := step.loggers.emit e.logger e
        { next with stream := step.stream ++ next.stream }) step).loggers := by
    induction entries with
    | nil => exact fun step => .refl _
    | cons e entries ih =>
      intro step
      rw [List.foldl_cons]
      exact (emit_keeps step.loggers e.logger e).trans (ih { step.loggers.emit e.logger e with
        stream := step.stream ++ (step.loggers.emit e.logger e).stream })
  exact grow { loggers := ls }

def opening? (folder : Folder) (name : String) (s : Settings) : Option (Except OpenError Place) :=
  s.logDirectory.map fun directory => (folder.openIn directory (name ++ ".log")).2

def opened? (folder : Folder) (name : String) (s : Settings) : Option Place :=
  (opening? folder name s).bind Except.toOption

theorem opening?_congr {f g : Folder} (h : f.SamePlaces g) (name : String) (s : Settings) :
    opening? f name s = opening? g name s := by
  unfold opening?
  congr 1
  funext directory
  exact h.openIn directory _

theorem openFile_eq_ok {folder : Folder} {name : String} {s : Settings}
    (opens : opening? folder name s ≠ some (.error .nullCharacter)) :
    (openFile folder name s).2 = .ok (opened? folder name s) := by
  unfold openFile opened?
  unfold opening? at opens ⊢
  generalize s.logDirectory = asked at opens ⊢
  cases asked with
  | none => rfl
  | some directory =>
    rw [Option.map_some] at opens ⊢
    dsimp only
    generalize folder.openIn directory (name ++ ".log") = x at opens ⊢
    obtain ⟨folder', outcome⟩ := x
    cases outcome with
    | ok => rfl
    | error cause =>
      cases cause with
      | barred => rfl
      | nullCharacter => exact absurd rfl opens

/-- How settings set up a logger that has no sinks yet. -/
def freshSetup (folder : Folder) (name : String) (s : Settings) (grade : Grade) : Logger.Setup where
  sinks := (.stream, .ofEnvironment s.environment) ::
    (opened? folder name s).toList.map fun place => (.file place, .ofEnvironment s.environment)
  grade
  propagates := false

theorem setup_setLevel {asked : Value} {grade : Grade} (graded : Grade.ofValue asked = .ok grade)
    (ls : Loggers) (name : String) (isNew : Bool) (now : ClockReading) (other : String) :
    ((ls.setLevel name asked isNew now).loggers.get other).setup
      = if canonical other = canonical name then
          { (ls.get name).setup with grade, propagates := !isNew && (ls.get name).propagates }
        else (ls.get other).setup := by
  unfold setLevel
  rw [graded]
  dsimp only
  cases isNew with
  | false =>
    rw [if_neg Bool.false_ne_true, get_put]
    split <;> rfl
  | true =>
    rw [if_pos rfl]
    split
    · rw [get_put]
      split <;> rfl
    · rw [(emit_keeps _ name _).setup, get_put]
      split <;> rfl

/-- The setup of a logger after one call for it: a logger without sinks gets them, one that has some
keeps all but its level. -/
def nextSetup (fresh old : Logger.Setup) : Logger.Setup :=
  if old.sinks.isEmpty then fresh else { old with grade := fresh.grade }

theorem setup_obtain {level : Option Value} {s : Settings} {grade : Grade}
    (graded : Grade.ofValue (level.getD (.int s.level)) = .ok grade) (ls : Loggers) (name : String)
    (opens : opening? ls.folder name s ≠ some (.error .nullCharacter)) (now : ClockReading)
    (other : String) :
    ((ls.obtain name s level now).loggers.get other).setup
      = if canonical other = canonical name then
          nextSetup (freshSetup ls.folder name s grade) (ls.get name).setup
        else (ls.get other).setup := by
  have opened := openFile_eq_ok opens
  have touched := setup_touch ls name
  have sinks : ((ls.touch name).get name).sinks = (ls.get name).sinks :=
    congrArg Logger.Setup.sinks (touched name)
  rw [← folder_touch ls name] at opened ⊢
  unfold obtain nextSetup
  dsimp only
  rw [sinks, ← touched other]
  by_cases bare : (ls.get name).sinks.isEmpty
  · rw [if_pos bare, if_pos (show (ls.get name).setup.sinks.isEmpty from bare)]
    generalize openFile (ls.touch name).folder name s = x at opened
    obtain ⟨folder, file⟩ := x
    cases opened
    dsimp only
    rw [setup_setLevel graded, get_put, get_put, if_pos rfl]
    by_cases same : canonical other = canonical name
    · rw [if_pos same, if_pos same]
      rfl
    · rw [if_neg same, if_neg same, if_neg same]
      rfl
  · rw [if_neg bare, if_neg (show ¬ (ls.get name).setup.sinks.isEmpty from bare),
      setup_setLevel graded, ← touched name]
    rfl

end Loggers

def Grade.value : Grade → Value
  | .number n => .int n
  | .flag b => .bool b

theorem Grade.ofValue_value (g : Grade) : ofValue g.value = .ok g := by
  cases g <;> rfl

/-- A call for a logger: the variables and the file that settings are read from, the level asked
for, and the clock and the folder of log files as the call finds them. -/
structure LoggerCall where
  name : String
  env : EnvFile.Variables
  file : Option String
  level : Option Grade
  now : ClockReading
  folder : Folder

namespace LoggerCall

def settings (c : LoggerCall) : Except Settings.Error Settings := Settings.load c.env c.file

def grade (c : LoggerCall) (s : Settings) : Grade := c.level.getD (.number s.level)

def HasPath (c : LoggerCall) : Prop :=
  ∀ s, c.settings = .ok s → Loggers.opening? c.folder c.name s ≠ some (.error .nullCharacter)

def isFor (c : LoggerCall) (name : String) : Bool :=
  c.settings.isOk && Loggers.canonical c.name == Loggers.canonical name

def next (c : LoggerCall) (name : String) (old : Logger.Setup) : Logger.Setup :=
  match c.settings with
  | .error _ => old
  | .ok s =>
    if Loggers.canonical name = Loggers.canonical c.name then
      Loggers.nextSetup (Loggers.freshSetup c.folder c.name s (c.grade s)) old
    else old

end LoggerCall

namespace Loggers

def afterCall (ls : Loggers) (c : LoggerCall) : Loggers :=
  ({ ls with folder := c.folder }.load c.name c.env c.file (c.level.map Grade.value) c.now).loggers

def afterCalls (ls : Loggers) (calls : List LoggerCall) : Loggers := calls.foldl afterCall ls

theorem setup_afterCall (ls : Loggers) {c : LoggerCall} (path : c.HasPath) (name : String) :
    ((ls.afterCall c).get name).setup = c.next name (ls.get name).setup := by
  have kept := emitAll_keeps { ls with folder := c.folder } (fileWarnings c.file c.now)
  unfold afterCall load LoggerCall.next
  dsimp only
  rw [← LoggerCall.settings]
  cases read : c.settings with
  | error => exact kept.setup name
  | ok s =>
    have graded :
        Grade.ofValue ((c.level.map Grade.value).getD (.int s.level)) = .ok (c.grade s) := by
      unfold LoggerCall.grade
      cases c.level with
      | none => rfl
      | some g => exact g.ofValue_value
    -- warnings about the file of variables come first, and may be written to files of the folder
    have same := opening?_congr kept.places c.name s
    have opens := path s read
    rw [← same] at opens
    dsimp only
    rw [setup_obtain graded _ c.name opens, freshSetup, freshSetup, opened?, opened?, same,
      kept.setup, kept.setup]
    by_cases here : canonical name = canonical c.name
    · rw [if_pos here, if_pos here, ← get_of_canonical here]
      rfl
    · rw [if_neg here, if_neg here]
      rfl

theorem setup_afterCalls (calls : List LoggerCall) (paths : ∀ c ∈ calls, c.HasPath) (ls : Loggers)
    (name : String) : ((ls.afterCalls calls).get name).setup
      = calls.foldl (fun old c => c.next name old) (ls.get name).setup := by
  induction calls generalizing ls with
  | nil => rfl
  | cons c calls ih =>
    obtain ⟨path, paths⟩ := List.forall_mem_cons.1 paths
    rw [List.foldl_cons, ← setup_afterCall ls path]
    exact ih paths (ls.afterCall c)

end Loggers

namespace LoggerCall

variable {c : LoggerCall} {name : String} {old : Logger.Setup}

theorem isFor_iff : c.isFor name ↔
    (∃ s, c.settings = .ok s) ∧ Loggers.canonical c.name = Loggers.canonical name := by
  rw [isFor, Bool.and_eq_true, beq_iff_eq]
  cases c.settings <;> simp [Except.isOk, Except.toBool]

theorem next_of_not_isFor (other : c.isFor name = false) : c.next name old = old := by
  unfold next
  split
  · rfl
  · rename_i s read
    rw [if_neg]
    intro same
    rw [Bool.eq_false_iff] at other
    exact other (isFor_iff.2 ⟨⟨s, read⟩, same.symm⟩)

theorem next_of_isFor {s : Settings} (read : c.settings = .ok s) (mine : c.isFor name) :
    c.next name old = Loggers.nextSetup (Loggers.freshSetup c.folder c.name s (c.grade s)) old := by
  unfold next
  rw [read]
  exact if_pos (isFor_iff.1 mine).2.symm

theorem next_of_sinks (held : old.sinks ≠ []) :
    (c.next name old).sinks = old.sinks ∧ (c.next name old).propagates = old.propagates := by
  unfold next Loggers.nextSetup
  split
  · exact ⟨rfl, rfl⟩
  · split
    · rw [if_neg (by rwa [List.isEmpty_iff])]
      exact ⟨rfl, rfl⟩
    · exact ⟨rfl, rfl⟩

theorem foldl_next_of_sinks (calls : List LoggerCall) (held : old.sinks ≠ []) :
    (calls.foldl (fun old c => c.next name old) old).sinks = old.sinks ∧
      (calls.foldl (fun old c => c.next name old) old).propagates = old.propagates := by
  induction calls generalizing old with
  | nil => exact ⟨rfl, rfl⟩
  | cons c calls ih =>
    obtain ⟨sinks, propagates⟩ : (c.next name old).sinks = old.sinks ∧ _ := next_of_sinks held
    obtain ⟨sinks', propagates'⟩ := ih (sinks ▸ held)
    exact ⟨sinks'.trans sinks, propagates'.trans propagates⟩

/-- The first call for a logger decides on its sinks. -/
theorem foldl_next_of_bare (calls : List LoggerCall) {old : Logger.Setup} (bare : old.sinks = [])
    {first : LoggerCall}
    (found : calls.find? (·.isFor name) = some first) {s : Settings}
    (read : first.settings = .ok s) :
    let setup := calls.foldl (fun old c => c.next name old) old
    setup.sinks = (Loggers.freshSetup first.folder first.name s (first.grade s)).sinks ∧
      setup.propagates = false := by
  induction calls with
  | nil => cases found
  | cons c calls ih =>
    rw [List.find?_cons] at found
    rw [List.foldl_cons]
    cases mine : c.isFor name with
    | false =>
      rw [mine] at found
      rw [next_of_not_isFor mine]
      exact ih found
    | true =>
      rw [mine] at found
      cases found
      rw [next_of_isFor read mine, Loggers.nextSetup, if_pos (List.isEmpty_iff.2 bare)]
      exact foldl_next_of_sinks calls (List.cons_ne_nil _ _)

end LoggerCall

namespace Loggers

/-- After each call that finds settings, its logger has one sink that is the stream and at most one
that is a file, all in the format that the first such call for it found, which also decides whether
there is a file: one was asked for and could be opened. It hands nothing on, its level is what this
call asked for or found, and all other loggers are set up as before. The root's names are one. -/
theorem set_up_by_first_and_last_call (ls : Loggers) (bare : ∀ name, (ls.get name).sinks = [])
    (earlier : List LoggerCall) (c : LoggerCall) (paths : ∀ call ∈ earlier ++ [c], call.HasPath)
    (s : Settings) (read : c.settings = .ok s) :
    let before := ls.afterCalls earlier
    let after := ls.afterCalls (earlier ++ [c])
    (∃ first s₁ format, (earlier ++ [c]).find? (·.isFor c.name) = some first ∧
      first.settings = .ok s₁ ∧ (format = .json ↔ s₁.environment = Settings.production) ∧
      (after.get c.name).sinks = (.stream, format) ::
        (opened? first.folder first.name s₁).toList.map fun place => (.file place, format)) ∧
    (after.get c.name).propagates = false ∧
    (after.get c.name).grade
      = c.level.getD (.number ((Level.ofName? s.logLevel).getD Level.info)) ∧
    ∀ other, canonical other ≠ canonical c.name →
      (after.get other).setup = (before.get other).setup := by
  intro before after
  have setups (name : String) : (after.get name).setup = c.next name (before.get name).setup := by
    have path := paths c (List.mem_append_right earlier List.mem_cons_self)
    rw [← setup_afterCall before path name]
    show ((ls.afterCalls (earlier ++ [c])).get name).setup = _
    rw [afterCalls, List.foldl_append]
    rfl
  have mine : c.isFor c.name := LoggerCall.isFor_iff.2 ⟨⟨s, read⟩, rfl⟩
  have called : ((earlier ++ [c]).find? (·.isFor c.name)).isSome :=
    List.find?_isSome.2 ⟨c, List.mem_append_right earlier List.mem_cons_self, mine⟩
  obtain ⟨first, found⟩ := Option.isSome_iff_exists.1 called
  -- the call that is found first has settings, and they decide on the sinks
  have its := List.find?_some found
  obtain ⟨⟨s₁, read₁⟩, -⟩ := LoggerCall.isFor_iff.1 its
  have run := setup_afterCalls (earlier ++ [c]) paths ls c.name
  have empty : (ls.get c.name).setup.sinks = [] := bare c.name
  obtain ⟨sinks, propagates⟩ := LoggerCall.foldl_next_of_bare (earlier ++ [c]) empty found read₁
  rw [← run] at sinks propagates
  refine ⟨⟨first, s₁, .ofEnvironment s₁.environment, found, read₁, ?_, sinks⟩, propagates, ?_, ?_⟩
  · unfold LogFormat.ofEnvironment
    split <;> simp [*]
  · have grade := congrArg Logger.Setup.grade (setups c.name)
    rw [LoggerCall.next_of_isFor read mine, nextSetup] at grade
    refine Eq.trans grade ?_
    split <;> rfl
  · intro other apart
    refine (setups other).trans (LoggerCall.next_of_not_isFor ?_)
    rw [Bool.eq_false_iff]
    exact fun yours => apart (LoggerCall.isFor_iff.1 yours).2.symm

@[simp] theorem sinks_get_empty (name : String) : (({} : Loggers).get name).sinks = [] := by
  show (untouched (canonical name)).sinks = []
  unfold untouched
  split <;> rfl

theorem set_up_by_first_and_last_call_unknown_level :
    let first : LoggerCall :=
      ⟨"a.b", [("SUBPAR_ENVIRONMENT", "production"), ("SUBPAR_LOG_DIR", "log")], none,
        some (.number 40), .ok ⟨0, 0⟩, {}⟩
    let last : LoggerCall := ⟨"a.b", [("SUBPAR_LOG_LEVEL", "loud")], none, none, .ok ⟨0, 0⟩, {}⟩
    let before := ({} : Loggers).afterCalls [first]
    let after := ({} : Loggers).afterCalls [first, last]
    (∀ name, (({} : Loggers).get name).sinks = []) ∧ (∀ call ∈ [first, last], call.HasPath) ∧
      (∃ s, last.settings = .ok s ∧ s.logLevel = "LOUD") ∧
      (after.get "a.b").sinks = [(.stream, .json), (.file ["log", "a.b.log"], .json)] ∧
      (after.get "a.b").propagates = false ∧ (after.get "a.b").grade = .number Level.info ∧
      ∀ other, canonical other ≠ "a.b" → (after.get other).setup = (before.get other).setup := by
  intro first last before after
  let s₁ : Settings := ⟨"production", "INFO", "0.0.0.0", 8080, "/", none, some "log"⟩
  let s : Settings := ⟨"development", "LOUD", "0.0.0.0", 8080, "/", none, none⟩
  have read₁ : first.settings = .ok s₁ := by
    unfold first s₁
    rfl
  have read : last.settings = .ok s := by
    unfold last s
    rfl
  have opening : opening? first.folder first.name s₁ = some (.ok ["log", "a.b.log"]) := by
    unfold first s₁
    rfl
  have paths : ∀ call ∈ [first, last], call.HasPath := by
    rw [List.forall_mem_cons, List.forall_mem_singleton]
    constructor
    · intro s' read'
      cases read₁.symm.trans read'
      rw [opening]
      exact nofun
    · intro s' read'
      cases read.symm.trans read'
      exact nofun
  obtain ⟨⟨first', s₁', format, found, read₁', json, sinks⟩, propagates, grade, others⟩ :=
    set_up_by_first_and_last_call {} sinks_get_empty [first] last paths s read
  have mine : first.isFor last.name := LoggerCall.isFor_iff.2 ⟨⟨s₁, read₁⟩, rfl⟩
  rw [List.singleton_append, List.find?_cons, mine] at found
  cases found
  cases read₁.symm.trans read₁'
  obtain rfl := json.2 rfl
  rw [opened?, opening] at sinks
  exact ⟨sinks_get_empty, paths, ⟨s, read, rfl⟩, sinks, propagates, grade, others⟩

/-- The root is set up under either of its names: a call for one changes the level under the other
and finds the format that the other's first call brought. -/
theorem unnamed_call_changes_root :
    let root : LoggerCall := ⟨"root", [], none, none, .ok ⟨0, 0⟩, {}⟩
    let unnamed : LoggerCall :=
      ⟨"", [("SUBPAR_ENVIRONMENT", "production")], none, some (.number 40), .ok ⟨0, 0⟩, {}⟩
    let before := ({} : Loggers).afterCalls [root]
    let after := ({} : Loggers).afterCalls [root, unnamed]
    (∀ name, (({} : Loggers).get name).sinks = []) ∧
      (∃ s, unnamed.settings = .ok s ∧ s.environment = Settings.production) ∧
      (after.get "").sinks = [(.stream, .text)] ∧
      (before.get "root").grade = .number 20 ∧ (after.get "root").grade = .number 40 := by
  intro root unnamed before after
  have producing :
      unnamed.settings = .ok ⟨"production", "INFO", "0.0.0.0", 8080, "/", none, none⟩ := by
    unfold unnamed
    rfl
  refine ⟨sinks_get_empty, ⟨_, producing, rfl⟩, ?_, ?_, ?_⟩
  · decide +kernel
  · decide +kernel
  · decide +kernel

/-- A name with the character that ends every path stops the call half way, and records are handed
on from then on. -/
theorem nul_in_name_stops_call :
    let cut : LoggerCall :=
      ⟨"a\x00b", [("SUBPAR_LOG_DIR", "log")], none, none, .ok ⟨0, 0⟩, {}⟩
    let stopped := ({} : Loggers).afterCalls [cut]
    (∃ s, cut.settings = .ok s ∧ (stopped.get "a\x00b").grade ≠ .number s.level) ∧
      (stopped.get "a\x00b").propagates := by
  intro cut stopped
  have asking :
      cut.settings = .ok ⟨"development", "INFO", "0.0.0.0", 8080, "/", none, some "log"⟩ := by
    unfold cut
    rfl
  have grade : (stopped.get "a\x00b").grade = .number 0 := by decide +kernel
  refine ⟨⟨_, asking, ?_⟩, ?_⟩
  · rw [grade]
    decide
  · decide +kernel

end Loggers
end PushDispatch
