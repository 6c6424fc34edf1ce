import EventReporter.Limiter
import EventReporter.Text
import EventReporter.Writer
namespace EventReporter

/-!
# Settings

What can be set about a writer and its diagnostics, with the values that hold for what is not
set. Settings are refused if a writer could not run with them. The first thing that is wrong
counts: throttling, then sending, then the masked domains.

* `maskEntries_append` : a list of masks is read entry by entry.
* `checkMasks_eq_ok_iff` : masks are accepted exactly when all of them are names.
-/

/-! ### What can be set -/

/-- How writes are throttled. -/
structure RateSettings where
  /-- Whether they are throttled at all. -/
  enabled : Bool := true
  /-- The length of a window in seconds. -/
  period : UInt32 := Limiter.defaultQuota.period
  /-- The writes admitted in a window. -/
  threshold : UInt32 := Limiter.defaultQuota.threshold
  /-- The most call sites with a window. -/
  capacity : Nat := Limiter.defaultCapacity
deriving DecidableEq, Repr

/-- Where records go. -/
structure TransportSettings where
  /-- The path of the normal socket. -/
  normalPath : String := "/dev/unix/socket/hisysevent"
  /-- The path of the socket that is served first. -/
  urgentPath : String := "/dev/unix/socket/hisysevent_fast"
  /-- How often a datagram is tried. -/
  attempts : UInt32 := 3
  /-- The most records that wait to be sent again. -/
  queueSize : Nat := 10
  /-- The most bytes of a record. -/
  maxSize : Nat := Limits.recordBytes
deriving DecidableEq, Repr

/-- How diagnostics are written. -/
inductive LogFormat where
  /-- One line of text for an entry. -/
  | console
  /-- One JSON object for an entry. -/
  | json
deriving DecidableEq, Repr

/-- Where diagnostics are written. -/
inductive LogOutput where
  | stdout
  | stderr
deriving DecidableEq, Repr

/-- Which diagnostics are written, how and where. -/
structure LogSettings where
  /-- The least serious level, where there is no filter. -/
  level : Level := .warn
  /-- How they are written. -/
  format : LogFormat := .console
  /-- Where they are written. -/
  output : LogOutput := .stderr
  /-- A filter, which counts more than the level. -/
  filter : Option String := none
deriving DecidableEq, Repr

/-- All settings. -/
structure Settings where
  /-- Domains whose events are dropped. -/
  maskedDomains : List String := []
  /-- Throttling. -/
  rate : RateSettings := {}
  /-- Sending. -/
  transport : TransportSettings := {}
  /-- Diagnostics. -/
  log : LogSettings := {}
deriving DecidableEq, Repr

/-! ### Names of choices -/

namespace Level

/-- The name of a level in settings. -/
def key : Level → String
  | trace => "trace"
  | debug => "debug"
  | info => "info"
  | warn => "warn"
  | error => "error"

/-- All levels. -/
def all : List Level := [trace, debug, info, warn, error]

end Level

namespace LogFormat

/-- The name of a format. -/
def key : LogFormat → String
  | console => "console"
  | json => "json"

/-- All formats. -/
def all : List LogFormat := [console, json]

end LogFormat

namespace LogOutput

/-- The name of an output. -/
def key : LogOutput → String
  | stdout => "stdout"
  | stderr => "stderr"

/-- All outputs. -/
def all : List LogOutput := [stdout, stderr]

end LogOutput

/-- The directives of the filter for diagnostics. -/
def LogSettings.directives (s : LogSettings) : String :=
  s.filter.getD s.level.key

/-! ### What settings set up -/

/-- A limiter with some settings. -/
def RateSettings.limiter (s : RateSettings) : Limiter :=
  .new ⟨s.period, s.threshold⟩ s.capacity s.enabled

/-- A sender with some settings. -/
def TransportSettings.transport {α : Type} (s : TransportSettings) : Transport α :=
  .new s.normalPath s.urgentPath s.attempts.toNat s.queueSize s.maxSize

/-- A writer with some settings. -/
def Settings.writer (s : Settings) : Writer :=
  ⟨s.rate.limiter, s.transport.transport, s.maskedDomains⟩

/-! ### Lists of masked domains -/

/-- The entries between the bars of a list, without the blanks around them and without empty
    ones. -/
def maskEntries (parts : List (List Char)) : List String :=
  (parts.map Text.trim).filterMap fun cs => if cs = [] then none else some (String.ofList cs)

/-- The domains in a list with bars between its entries. -/
def domainMasks (list : String) : List String :=
  maskEntries (list.toList.splitOn '|')

/-- Parts of a list are read one by one: `maskEntries` goes over each on its own. -/
theorem maskEntries_append (xs ys : List (List Char)) :
    maskEntries (xs ++ ys) = maskEntries xs ++ maskEntries ys := by
  simp [maskEntries]

/-! ### Settings that can work -/

/-- Why settings were not taken. -/
inductive SettingsError where
  /-- The text is no document, or a value has the wrong type. -/
  | unparsable
  /-- A value is out of its range. -/
  | invalid (part field reason : String)
  /-- A masked domain is no name. -/
  | badMask (domain : String)
  /-- The file could not be read. -/
  | unreadable (path reason : String)
deriving DecidableEq, Repr

namespace SettingsError

/-- The wording of an error. For a text that is no document there is none. -/
def message? : SettingsError → Option String
  | unparsable => none
  | invalid part field reason => some s!"[{part}] has invalid {field}: {reason}"
  | badMask domain => some s!"masked domain '{domain}' is not a valid domain name"
  | unreadable path reason => some s!"failed to read config file '{path}': {reason}"

end SettingsError

/-- Fails with an error unless something holds. -/
def requireThat (ok : Bool) (e : SettingsError) : Except SettingsError Unit :=
  if ok then .ok () else .error e

/-- Checks how writes are throttled. -/
def RateSettings.check (s : RateSettings) : Except SettingsError Unit := do
  requireThat (s.period != 0) (.invalid "rate_limit" "period" "must be at least 1 second")
  requireThat (s.threshold != 0) (.invalid "rate_limit" "threshold" "must be at least 1")
  requireThat (s.capacity != 0) (.invalid "rate_limit" "cache_capacity" "must be at least 1")

/-- Checks where records go. -/
def TransportSettings.check (s : TransportSettings) : Except SettingsError Unit := do
  requireThat (s.attempts != 0) (.invalid "transport" "retry_times" "must be at least 1")
  requireThat (decide (Record.minSize ≤ s.maxSize) && decide (s.maxSize ≤ Limits.recordBytes))
    (.invalid "transport" "max_data_size"
      s!"must be between {Record.minSize} and {Limits.recordBytes}")
  requireThat (s.normalPath != "") (.invalid "transport" "socket_path" "must not be empty")
  requireThat (s.urgentPath != "") (.invalid "transport" "priority_socket_path" "must not be empty")

/-- Checks the masked domains. -/
def checkMasks (domains : List String) : Except SettingsError Unit :=
  match domains.find? fun d => ¬ Text.isName Limits.domainBytes d with
  | some d => .error (.badMask d)
  | none => .ok ()

/-- Checks all settings. -/
def Settings.check (s : Settings) : Except SettingsError Settings := do
  s.rate.check
  s.transport.check
  checkMasks s.maskedDomains
  pure s

/-- `checkMasks` accepts a list exactly if all of its domains are names. The first one that is
    none is reported. -/
theorem checkMasks_eq_ok_iff {domains : List String} :
    checkMasks domains = .ok () ↔ ∀ d ∈ domains, Text.isName Limits.domainBytes d = true := by
  unfold checkMasks
  split
  · -- a domain that `find?` reports is in the list and is no name
    next d hd =>
    have hmem := List.mem_of_find?_eq_some hd
    have hbad := List.find?_some hd
    simp only [reduceCtorEq, false_iff]
    intro hall
    simp [hall d hmem] at hbad
  · next hnone => simpa using hnone

end EventReporter
