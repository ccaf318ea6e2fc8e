import Sitewright.Journal.Line
import Sitewright.Proofs.Dictionary
import Sitewright.Proofs.Json.OneLine
import Sitewright.Proofs.Json.RoundTrip

/-!
# What a journal line tells

A record whose time can be written and whose arguments fit its message is written as one line, which
reads as the object of its entries. The message and the file are always those of the record, because
their names are reserved. The other names of the line are not: a further field that bears one of
them is what the line shows. So the line tells the truth about its record if and only if no such
field says anything else.
-/

namespace Sitewright.Record

open Dict

variable {record : Record} {time : Timestamp} {message : String} {limit : Option Nat}

def shownTrace (record : Record) : Option String :=
  record.trace.filter (· ≠ "")

def lineNames : List String :=
  ["timestamp", "severity", "message", "logger", "module", "function", "line",
   "logging.googleapis.com/trace"]

/-- The entries tell the truth about the record, written at `time` with `message`. -/
structure Tells (record : Record) (time : Timestamp) (message : String) (fields : Fields) :
    Prop where
  timestamp : get? fields "timestamp" = some (.string (time.iso ++ "Z"))
  severity : get? fields "severity" = some (.string (severity record.level))
  message : get? fields "message" = some (.string message)
  logger : get? fields "logger" = some (.string record.logger)
  module : get? fields "module" = some (.string record.module)
  function : get? fields "function" = some (.ofOption record.function)
  line : get? fields "line" = some (.int record.line)
  trace : get? fields "logging.googleapis.com/trace" = record.shownTrace.map .string

/-! ## The entries of the record itself -/

theorem tells_standardFields (record : Record) (time : Timestamp) (message : String) :
    record.Tells time message (record.standardFields time message) where
  timestamp := rfl
  severity := rfl
  message := rfl
  logger := rfl
  module := rfl
  function := rfl
  line := rfl
  trace := by
    change get? record.traceFields _ = _
    unfold traceFields shownTrace
    cases record.trace with
    | none => rfl
    | some trace =>
        by_cases ht : trace = ""
        · simp [ht, get?]
        · simp [ht, get?]

/-- Each name of a line has one true entry. -/
theorem tells_iff {fields : Fields} : record.Tells time message fields ↔
    ∀ name ∈ lineNames, get? fields name = get? (record.standardFields time message) name := by
  have hs := record.tells_standardFields time message
  constructor
  · intro h
    simp [lineNames, h.timestamp, h.severity, h.message, h.logger, h.module, h.function, h.line,
      h.trace, hs.timestamp, hs.severity, hs.message, hs.logger, hs.module, hs.function, hs.line,
      hs.trace]
  · intro h
    simp only [lineNames, List.forall_mem_cons] at h
    obtain ⟨h1, h2, h3, h4, h5, h6, h7, h8, -⟩ := h
    exact ⟨h1.trans hs.timestamp, h2.trans hs.severity, h3.trans hs.message, h4.trans hs.logger,
      h5.trans hs.module, h6.trans hs.function, h7.trans hs.line, h8.trans hs.trace⟩

theorem nodup_keys_standardFields (record : Record) (time : Timestamp) (message : String) :
    (keys (record.standardFields time message)).Nodup := by
  have htrace : keys record.traceFields = [] ∨
      keys record.traceFields = ["logging.googleapis.com/trace"] := by
    unfold traceFields
    split
    · exact Or.inl rfl
    · split
      · exact Or.inl rfl
      · exact Or.inr rfl
  rw [standardFields, keys_append]
  rcases htrace with ht | ht
  · rw [ht]
    exact (by decide : (lineNames.take 7).Nodup)
  · rw [ht]
    exact (by decide : lineNames.Nodup)

theorem readableWithin_standardFields (hline : (Json.int record.line).ReadableWithin limit) :
    ∀ entry ∈ record.standardFields time message, entry.2.ReadableWithin limit := by
  have htrace : ∀ entry ∈ record.traceFields, entry.2.ReadableWithin limit := by
    unfold traceFields
    split
    · simp
    · split <;> simp [Json.ReadableWithin]
  have hfunction : (Json.ofOption record.function).ReadableWithin limit := by
    cases record.function <;> trivial
  rw [standardFields, List.forall_mem_append]
  refine ⟨?_, htrace⟩
  simp only [List.forall_mem_cons]
  exact ⟨trivial, trivial, trivial, trivial, trivial, hfunction, hline, by simp⟩

/-! ## The entries of the line -/

def shown (record : Record) : Fields :=
  record.extra.filter fun entry => isShown entry.1

theorem nodup_keys_shown (hn : (keys record.extra).Nodup) : (keys record.shown).Nodup :=
  hn.sublist (List.filter_sublist.map _)

theorem nodup_keys_fields (record : Record) (time : Timestamp) (message : String) :
    (keys (record.fields time message)).Nodup := by
  have hover : (keys (overlay (record.standardFields time message) record.shown)).Nodup :=
    nodup_keys_overlay (nodup_keys_standardFields record time message) _
  unfold fields
  split
  · exact nodup_keys_set hover _
  · exact hover

theorem mem_fields {entry : String × Json} (h : entry ∈ record.fields time message) :
    entry ∈ record.standardFields time message ∨ entry ∈ record.extra ∨
      ∃ raised : Raised, entry = ("exception", .string raised.text) := by
  have hover (hm : entry ∈ overlay (record.standardFields time message) record.shown) :
      entry ∈ record.standardFields time message ∨ entry ∈ record.extra :=
    (mem_overlay hm).imp_right fun hs => (List.mem_filter.mp hs).1
  unfold fields at h
  split at h
  · rcases mem_set h with he | hm
    · exact Or.inr (Or.inr ⟨_, he⟩)
    · exact (hover hm).imp_right Or.inl
  · exact (hover h).imp_right Or.inl

/-- A further field with a name of the line stands in place of what the record says. -/
theorem get?_fields (hn : (keys record.extra).Nodup) {name : String} (hm : name ∈ lineNames) :
    get? (record.fields time message) name =
      (get? record.extra name).or (get? (record.standardFields time message) name) := by
  have hname : name ≠ "exception" ∧ isShown name = true := by
    revert name
    decide
  have hover : get? (overlay (record.standardFields time message) record.shown) name =
      (get? record.extra name).or (get? (record.standardFields time message) name) := by
    rw [get?_overlay (nodup_keys_shown hn), shown, get?_filter_of_pos hname.2]
  unfold fields
  split
  · rw [get?_set_of_ne hname.1]
    exact hover
  · exact hover

theorem tells_fields_iff (hn : (keys record.extra).Nodup) :
    record.Tells time message (record.fields time message) ↔
      ∀ entry ∈ record.extra, entry.1 ∈ lineNames →
        get? (record.standardFields time message) entry.1 = some entry.2 := by
  rw [tells_iff]
  constructor
  · intro h entry he hm
    have hg : get? record.extra entry.1 = some entry.2 := get?_of_mem hn he
    rw [← h entry.1 hm, get?_fields hn hm, hg, Option.some_or]
  · intro h name hm
    rw [get?_fields hn hm]
    cases hg : get? record.extra name with
    | none => rfl
    | some value => exact (h (name, value) (mem_of_get? hg) hm).symm

theorem get?_extra_eq_none (hr : reservedField? record.extra = none) {name : String}
    (hm : name ∈ reservedFields) : get? record.extra name = none := by
  rw [get?_eq_none_iff]
  intro hk
  have hfree := List.find?_eq_none.mp hr name hk
  simp [hm] at hfree

/-! ## Lines -/

/-- A line is written if the time and the message can be. -/
theorem format_eq_ok_iff (hr : reservedField? record.extra = none) {line : String} :
    record.format = .ok line ↔ ∃ time message, record.created.timestamp = .ok time ∧
      Message.fill record.message.display record.args = .ok message ∧
      (Json.object (record.fields time message)).print .line = line := by
  unfold format
  rw [hr]
  cases record.created.timestamp with
  | error fault => simp
  | ok time =>
      cases Message.fill record.message.display record.args with
      | error fault => simp
      | ok message => simp

/-- The line is one line indeed, and what it shows is the entries. -/
theorem line_of_fields (time : Timestamp) (message : String)
    (hextra : (Json.object record.extra).ReadableWithin limit)
    (hline : (Json.int record.line).ReadableWithin limit) :
    '\n' ∉ ((Json.object (record.fields time message)).print .line).toList ∧
      Json.readWithin limit ((Json.object (record.fields time message)).print .line) =
        .ok (.object (record.fields time message)) := by
  have hreadable : (Json.object (record.fields time message)).ReadableWithin limit := by
    refine ⟨record.nodup_keys_fields time message, Json.readableFields_iff.mpr fun entry he => ?_⟩
    rcases mem_fields he with hs | hx | ⟨raised, rfl⟩
    · exact readableWithin_standardFields hline entry hs
    · exact Json.readableFields_iff.mp hextra.2 entry hx
    · trivial
  exact ⟨(Json.uncontrolled_print rfl _).lineFeed_not_mem, Json.readWithin_print rfl hreadable⟩

/-- A record whose further fields keep off the reserved names gives a line if its time and its
message can be written. The line has no line feed, reads as one object in which every key stands
once, and tells the message and the file of the record. A further field with a name of the line is
what the line shows under it, so the line tells the truth if and only if those fields do. -/
theorem format_tells (hn : (keys record.extra).Nodup) (hr : reservedField? record.extra = none)
    (hextra : (Json.object record.extra).ReadableWithin limit)
    (hline : (Json.int record.line).ReadableWithin limit) :
    ((∃ line, record.format = .ok line) ↔ (∃ time, record.created.timestamp = .ok time) ∧
      ∃ message, Message.fill record.message.display record.args = .ok message) ∧
    ∀ time message, record.created.timestamp = .ok time →
      Message.fill record.message.display record.args = .ok message →
      ∃ line fields, record.format = .ok line ∧ '\n' ∉ line.toList ∧
        Json.readWithin limit line = .ok (.object fields) ∧ (keys fields).Nodup ∧
        get? fields "message" = some (.string message) ∧
        get? fields "module" = some (.string record.module) ∧
        (∀ entry ∈ record.extra, entry.1 ∈ lineNames → get? fields entry.1 = some entry.2) ∧
        (record.Tells time message fields ↔ ∀ entry ∈ record.extra, entry.1 ∈ lineNames →
          get? (record.standardFields time message) entry.1 = some entry.2) := by
  constructor
  · constructor
    · rintro ⟨line, hl⟩
      obtain ⟨time, message, ht, hm, -⟩ := (format_eq_ok_iff hr).mp hl
      exact ⟨⟨time, ht⟩, message, hm⟩
    · rintro ⟨⟨time, ht⟩, message, hm⟩
      exact ⟨_, (format_eq_ok_iff hr).mpr ⟨time, message, ht, hm, rfl⟩⟩
  · intro time message ht hm
    have hformat := (format_eq_ok_iff hr).mpr ⟨time, message, ht, hm, rfl⟩
    have hstandard := record.tells_standardFields time message
    obtain ⟨hfeed, hread⟩ := line_of_fields time message hextra hline
    refine ⟨_, record.fields time message, hformat, hfeed, hread,
      record.nodup_keys_fields time message, ?_, ?_, ?_, tells_fields_iff hn⟩
    · rw [get?_fields hn (by decide), get?_extra_eq_none hr (by decide), Option.none_or]
      exact hstandard.message
    · rw [get?_fields hn (by decide), get?_extra_eq_none hr (by decide), Option.none_or]
      exact hstandard.module
    · intro entry he hname
      rw [get?_fields hn hname, get?_of_mem hn he, Option.some_or]

theorem readableWithin_digit {d : Nat} (h : d < 10) :
    (Json.int d).ReadableWithin (some Decimal.maxDigits) := by
  change Json.admits _ (Decimal.natDigits d).length = true
  rw [Decimal.natDigits_of_lt h]
  rfl

/-- A record with an argument and a further field, within a request. -/
def announced : Record where
  created := .whole 0
  level := 20
  logger := "site_builder.api"
  path := "api.py"
  line := 3
  function := some "create_project"
  message := .string "Created %s"
  args := [.string "Vitrine"]
  extra := [("project_id", .string "prj_1")]
  trace := some "t-1"

theorem format_tells_announced : ∃ line fields, announced.format = .ok line ∧
    '\n' ∉ line.toList ∧ Json.readWithin (some Decimal.maxDigits) line = .ok (.object fields) ∧
    announced.Tells ⟨0, none⟩ "Created Vitrine" fields := by
  have hreadable : (Json.object announced.extra).Readable := by simp [announced, keys]
  have hadmits := readableWithin_digit (d := 3) (by decide)
  have hfilled : Message.fill announced.message.display announced.args =
      .ok "Created Vitrine" := by
    decide
  obtain ⟨line, fields, hl, hfeed, hread, -, -, -, -, htells⟩ :=
    (format_tells (by decide) (by decide) hreadable hadmits).2 ⟨0, none⟩ _ rfl hfilled
  refine ⟨line, fields, hl, hfeed, hread, htells.mpr fun entry he hm => ?_⟩
  rw [List.mem_singleton.mp he] at hm
  exact absurd hm (by decide)

def understated : Record where
  created := .whole 0
  level := 40
  logger := "site_builder.api"
  path := "api.py"
  line := 1
  function := some "f"
  message := .string "Failed"
  extra := [("severity", .string "DEBUG")]

/-- The line of an error may say that it is for debugging. -/
theorem format_misleads : reservedField? understated.extra = none ∧
    severity understated.level = "ERROR" ∧
    ∃ line fields, understated.format = .ok line ∧
      Json.readWithin (some Decimal.maxDigits) line = .ok (.object fields) ∧
      get? fields "severity" = some (.string "DEBUG") ∧
      ¬ understated.Tells ⟨0, none⟩ "Failed" fields := by
  have hreadable : (Json.object understated.extra).Readable := by simp [understated, keys]
  have hadmits := readableWithin_digit (d := 1) (by decide)
  have hshown : get? (understated.fields ⟨0, none⟩ "Failed") "severity" =
      some (.string "DEBUG") := by
    rw [get?_fields (by decide) (by decide)]
    rfl
  refine ⟨by decide, rfl, _, understated.fields ⟨0, none⟩ "Failed",
    (format_eq_ok_iff (by decide)).mpr ⟨_, _, rfl, rfl, rfl⟩,
    (line_of_fields _ _ hreadable hadmits).2, hshown, fun htells => ?_⟩
  have hsame := hshown.symm.trans htells.severity
  injection hsame with hvalue
  injection hvalue with htext
  exact absurd htext (by decide)

end Sitewright.Record
