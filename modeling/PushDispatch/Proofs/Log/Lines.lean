import Mathlib.Data.List.Forall2
import PushDispatch.Log.Loggers
import PushDispatch.Proofs.Except
import PushDispatch.Proofs.Json.Writing

/-! Records of the log as lines of JSON. Whatever its texts hold, a record is one line of printable
ASCII and is read back as itself, with nothing added or lost. So a stream has one line for every
record, and no text can pass for a record of its own. -/
namespace PushDispatch

structure LogLine where
  timestamp : String
  severity : Value
  logger : String
  message : String
  exception : Option String

namespace LogLine

/-- The members of the object that a line is. It tells of a failure only where there was one. -/
def members (l : LogLine) : List (String × Value) :=
  [("timestamp", .str l.timestamp), ("severity", l.severity), ("logger", .str l.logger),
    ("message", .str l.message)] ++ l.exception.toList.map fun e => ("exception", .str e)

def text (l : LogLine) : String :=
  LogFormat.jsonLine l.timestamp l.severity l.logger l.message l.exception

variable {l : LogLine}

theorem isPlain_members (plain : l.severity.isPlain) : (Value.ofFields l.members).isPlain := by
  obtain ⟨timestamp, severity, logger, message, exception⟩ := l
  cases exception with
  | none =>
    apply Value.isPlain_ofFields
    · simp [members]
    · simpa [members, Value.isPlain] using plain
  | some e =>
    apply Value.isPlain_ofFields
    · simp [members]
    · simpa [members, Value.isPlain] using plain

theorem isPrintable_text (plain : l.severity.isPlain) : Json.IsPrintable l.text.toList := by
  rw [text, LogFormat.jsonLine, Json.writeText, String.toList_ofList]
  exact Json.isPrintable_write Json.isAscii_spacedAscii _ (isPlain_members plain)

theorem depth_members (l : LogLine) : (Value.ofFields l.members).depth = l.severity.depth + 1 := by
  obtain ⟨timestamp, severity, logger, message, exception⟩ := l
  cases exception <;>
    simp [members, Value.ofFields, Entries.ofFields, Value.depth, Value.depthOfEntries]

theorem readText_text (plain : l.severity.isPlain) {depth : Nat}
    (level : l.severity.depth < depth) :
    Json.readText Json.boundedNumber depth l.text = .ok (.ofFields l.members) := by
  rw [Json.readText, text, LogFormat.jsonLine, Json.writeText, String.toList_ofList]
  exact Json.readChars_write Json.isStandard_spacedAscii (isPlain_members plain)
    (l.depth_members ▸ level)

end LogLine

theorem Double.unitsPerOne_ne_zero : (unitsPerOne : Int) ≠ 0 := by
  rw [Int.natCast_ne_zero]
  unfold unitsPerOne
  -- the exponent stays a name: the power is never computed
  generalize 1074 = n
  exact Nat.ne_of_gt (Nat.pow_pos (by decide))

theorem Double.Extent.same_ofInt (a b : Int) : (ofInt a).same (ofInt b) = (a == b) := by
  rw [Bool.eq_iff_iff, ofInt, ofInt, same, beq_iff_eq, beq_iff_eq, finite.injEq,
    Int.mul_eq_mul_right_iff unitsPerOne_ne_zero]
  exact nofun

theorem Level.label_of_named {n : Level} {entry : String × Level}
    (named : names.find? (n == ·.2) = some entry) : label (.int n) = .ok (.str entry.1) := by
  have same : ∀ m : Level, (Value.int n).same (.int m) = (n == m) := Double.Extent.same_ofInt n
  rw [label]
  simp only [same, named]
  rfl

/-- The severity of a record is a text, or a number where the level was given by its name. -/
theorem Level.plain_label {level severity : Value} (h : label level = .ok severity) :
    severity.isPlain ∧ severity.depth = 0 := by
  have small : ∀ p ∈ names, p.2.natAbs < 1000000000000 := by decide
  unfold label at h
  split at h
  · cases h
  · split at h
    · cases h
      exact ⟨rfl, rfl⟩
    · next named =>
      cases h
      obtain ⟨name, -, known⟩ := Option.bind_eq_some_iff.1 named
      obtain ⟨before, after, split, -⟩ := List.lookup_eq_some_iff.1 known
      exact ⟨Numeral.isWritable_of_natAbs_lt (small (name, _) (split ▸ by simp)), rfl⟩
    · unfold unnamed at h
      dsimp only at h
      split at h
      · cases h
        exact ⟨rfl, rfl⟩
      · cases h

/-- What the line of an entry says: the name of its level, its message with the places filled, and
its moment on the calendar. -/
structure LogEntry.Makes (e : LogEntry) (l : LogLine) : Prop where
  severity : Level.label e.level = .ok l.severity
  logger : e.logger = l.logger
  message : Template.render e.template e.args = .ok l.message
  exception : e.failure.map Failure.report = l.exception
  time : ∃ t : DateTime, e.created.bind Instant.dateTime = .ok t ∧ t.isoText = l.timestamp

namespace LogEntry.Makes

variable {e : LogEntry} {l : LogLine}

theorem format_json (h : e.Makes l) : LogFormat.json.format e = .ok l.text := by
  obtain ⟨t, dated, written⟩ := h.time
  rw [LogFormat.format, h.severity, h.message, dated, h.exception, h.logger, mapError_ok, ok_bind,
    LogLine.text, ← written]
  rfl

theorem isPlain (h : e.Makes l) : l.severity.isPlain := (Level.plain_label h.severity).1

theorem stream_write (h : e.Makes l) (step : Loggers.Step LoggerError) :
    (Loggers.write e step (.stream, .json)).stream = step.stream ++ l.text ++ "\n" := by
  rw [Loggers.write, h.format_json]

end LogEntry.Makes

theorem LogEntry.isPrintable_of_makes {entries : List LogEntry} {lines : List LogLine}
    (made : List.Forall₂ LogEntry.Makes entries lines) :
    ∀ l ∈ lines, Json.IsPrintable l.text.toList := by
  induction made with
  | nil => exact nofun
  | cons first _ ih => exact List.forall_mem_cons.2 ⟨LogLine.isPrintable_text first.isPlain, ih⟩

def Loggers.streamOf (ls : Loggers) (entries : List LogEntry) : String :=
  (entries.foldl (fun step e => Loggers.write e step (.stream, .json))
    ({ loggers := ls } : Loggers.Step LoggerError)).stream

theorem Loggers.toList_streamOf {entries : List LogEntry} {lines : List LogLine}
    (made : List.Forall₂ LogEntry.Makes entries lines) (ls : Loggers) :
    (ls.streamOf entries).toList = lines.flatMap fun l => l.text.toList ++ ['\n'] := by
  have grow : ∀ step : Loggers.Step LoggerError,
      (entries.foldl (fun step e => Loggers.write e step (.stream, .json)) step).stream.toList
        = step.stream.toList ++ lines.flatMap fun l => l.text.toList ++ ['\n'] := by
    induction made with
    | nil => exact fun step => (List.append_nil _).symm
    | cons first _ ih =>
      intro step
      rw [List.foldl_cons, ih, first.stream_write]
      simp
  exact grow _

theorem splitOnP_lines {isBreak : Char → Bool} (feed : isBreak '\n') (lines : List (List Char))
    (unbroken : ∀ l ∈ lines, ∀ c ∈ l, isBreak c = false) :
    (lines.flatMap (· ++ ['\n'])).splitOnP isBreak = lines ++ [[]] := by
  induction lines with
  | nil => rfl
  | cons l lines ih =>
    obtain ⟨here, later⟩ := List.forall_mem_cons.1 unbroken
    rw [List.flatMap_cons, List.append_assoc, List.singleton_append,
      List.splitOnP_append_cons_of_forall_mem here _ feed, ih later, List.cons_append]

/-- A line of the log is printable ASCII and is read as the one object of exactly the texts it was
made of, whatever these are; every entry that says something has such a line. So wherever a reader
breaks a stream, at line feeds or at any characters that do not print, there are as many lines as
entries, each the line of its entry. -/
theorem log_lines_read_back :
    (∀ l : LogLine, l.severity.isPlain → Json.IsPrintable l.text.toList ∧
      ∀ depth, l.severity.depth < depth →
        Json.readText Json.boundedNumber depth l.text = .ok (.ofFields l.members)) ∧
    (∀ (e : LogEntry) (l : LogLine), e.Makes l →
      LogFormat.json.format e = .ok l.text ∧ l.severity.isPlain ∧ l.severity.depth = 0) ∧
    ∀ isBreak : Char → Bool, isBreak '\n' → (∀ c, Json.IsPrintable [c] → isBreak c = false) →
      ∀ entries lines, List.Forall₂ LogEntry.Makes entries lines → ∀ ls : Loggers,
        (ls.streamOf entries).toList.splitOnP isBreak = lines.map (·.text.toList) ++ [[]] := by
  refine ⟨fun l plain => ⟨LogLine.isPrintable_text plain, fun _ => LogLine.readText_text plain⟩,
    fun e l makes => ⟨makes.format_json, Level.plain_label makes.severity⟩, ?_⟩
  intro isBreak feed printing entries lines made ls
  have unbroken : ∀ text ∈ lines.map (·.text.toList), ∀ c ∈ text, isBreak c = false := by
    intro text listed c hc
    obtain ⟨l, mem, rfl⟩ := List.mem_map.1 listed
    have printable := LogEntry.isPrintable_of_makes made l mem c hc
    exact printing c (List.forall_mem_singleton.2 printable)
  rw [Loggers.toList_streamOf made, ← splitOnP_lines feed _ unbroken, List.flatMap_map]

theorem log_lines_read_back_forged_record :
    let forged := "up\n\x7b\"severity\": \"ERROR\", \"message\": \"down\"\x7d"
    let e : LogEntry :=
      { level := .int Level.info, logger := "a\u2028b", template := forged,
        failure := some ⟨"E", "\"\r\x7f\\"⟩, created := .ok ⟨0, 0⟩ }
    let l : LogLine :=
      ⟨"1970-01-01T00:00:00+00:00", .str "INFO", "a\u2028b", forged, some "E: \"\r\x7f\\"⟩
    let isBreak (c : Char) : Bool := !decide (Json.IsPrintable [c])
    e.Makes l ∧ l.severity.isPlain ∧ isBreak '\n' ∧
      (∀ c, Json.IsPrintable [c] → isBreak c = false) ∧
      LogFormat.json.format e = .ok l.text ∧
      Json.readText Json.boundedNumber 1 l.text = .ok (.ofFields
        [("timestamp", .str "1970-01-01T00:00:00+00:00"), ("severity", .str "INFO"),
          ("logger", .str "a\u2028b"), ("message", .str forged),
          ("exception", .str "E: \"\r\x7f\\")]) ∧
      (({} : Loggers).streamOf [e, e]).toList.splitOnP isBreak
        = [l.text.toList, l.text.toList, []] := by
  intro forged e l isBreak
  have found : Level.names.find? (Level.info == ·.2) = some ("INFO", Level.info) := rfl
  have named : Level.label (.int Level.info) = .ok (.str "INFO") := Level.label_of_named found
  have makes : e.Makes l := ⟨named, rfl, rfl, rfl, _, rfl, by cbv⟩
  have feed : isBreak '\n' := by decide
  have printing : ∀ c, Json.IsPrintable [c] → isBreak c = false := by
    intro c h
    simpa [isBreak] using h
  obtain ⟨read, written, split⟩ := log_lines_read_back
  obtain ⟨formatted, plain, flat⟩ := written e l makes
  exact ⟨makes, plain, feed, printing, formatted, (read l plain).2 1 (flat ▸ Nat.one_pos),
    split isBreak feed printing [e, e] [l, l] (.cons makes (.cons makes .nil)) {}⟩

end PushDispatch
