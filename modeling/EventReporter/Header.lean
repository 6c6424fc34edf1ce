import EventReporter.Buffer
import EventReporter.EventType
import EventReporter.LittleEndian
import EventReporter.Text.Cut
import EventReporter.Wire
namespace EventReporter

/-!
# Record headers

A header takes 80 bytes: the domain in a field of 17 bytes and the event name in one of 33, both
filled up with zeros; the time in milliseconds, the index of the time zone, user, process and
thread, the identifier of the event, and the flag byte. Numbers are little-endian. The time zone
is the writer's offset from UTC, by its place in a fixed table.

* `TimeZone.ofIndex_index` : every offset of the table is found at its index.
* `Header.length_bytes` : a header always takes 80 bytes.
-/

/-! ### Time zones -/

namespace TimeZone

/-- The offsets that a record can name, `+HHMM` or `-HHMM`. -/
def offsets : List String :=
  ["-0100", "-0200", "-0300", "-0330", "-0400", "-0500", "-0600", "-0700", "-0800", "-0900",
    "-0930", "-1000", "-1100", "-1200", "+0000", "+0100", "+0200", "+0300", "+0330", "+0400",
    "+0430", "+0500", "+0530", "+0545", "+0600", "+0630", "+0700", "+0800", "+0845", "+0900",
    "+0930", "+1000", "+1030", "+1100", "+1200", "+1245", "+1300", "+1400"]

/-- The index of `+0000`, which stands for every offset that is not in the table. -/
def utcIndex : Nat := 14

/-- The index of an offset. -/
def index (offset : String) : Nat :=
  (offsets.idxOf? offset).getD utcIndex

/-- The offset at an index. -/
def ofIndex (i : Nat) : String :=
  offsets[i]?.getD "+0000"

/-- An offset of the table is read back by `ofIndex` from its `index`; by looking at all of
    them. -/
theorem ofIndex_index {offset : String} (h : offset ∈ offsets) :
    ofIndex (index offset) = offset := by
  have hall : ∀ o ∈ offsets, ofIndex (index o) = o := by decide
  exact hall offset h

end TimeZone

/-! ### Headers -/

/-- The fixed part of a record. -/
structure Header where
  /-- The domain of the event. -/
  domain : String
  /-- The name of the event. -/
  name : String
  /-- Milliseconds since the epoch. -/
  timestamp : UInt64
  /-- Index into the table of time zones. -/
  timeZone : UInt8
  /-- The user. -/
  uid : UInt32
  /-- The process. -/
  pid : UInt32
  /-- The thread. -/
  tid : UInt32
  /-- The identifier of the event. -/
  id : UInt64
  /-- The category of the event. -/
  type : EventType
  /-- Whether a trace block follows. -/
  traced : Bool
deriving DecidableEq, Repr

namespace Header

/-- The size of a header. -/
def blockSize : Nat := 80

/-- The size of the domain's field: the longest domain and a zero. -/
def domainField : Nat := Limits.domainBytes + 1

/-- The size of the event name's field: the longest name and a zero. -/
def nameField : Nat := Limits.eventNameBytes + 1

/-- A header with its names cut to their limits and all else zero or UTC. -/
def new (domain name : String) (type : EventType) : Header where
  domain := Text.cut Limits.domainBytes domain
  name := Text.cut Limits.eventNameBytes name
  timestamp := 0
  timeZone := UInt8.ofNat TimeZone.utcIndex
  uid := 0
  pid := 0
  tid := 0
  id := 0
  type := type
  traced := false

/-- The flag byte. -/
def flags (h : Header) : UInt8 :=
  packFlags h.type h.traced

/-! ### Writing -/

/-- A name in a field of `size` bytes: at most `size - 1` bytes of it, filled up with zeros. -/
def padName (size : Nat) (name : String) : List UInt8 :=
  -- there is a zero behind the longest name
  let bytes := (Text.utf8 name).take (size - 1)
  bytes ++ List.replicate (size - bytes.length) 0

/-- The bytes of a header. -/
def bytes (h : Header) : List UInt8 :=
  padName domainField h.domain ++ padName nameField h.name ++
    LittleEndian.bytes 8 h.timestamp.toNat ++ LittleEndian.bytes 1 h.timeZone.toNat ++
    LittleEndian.bytes 4 h.uid.toNat ++ LittleEndian.bytes 4 h.pid.toNat ++
    LittleEndian.bytes 4 h.tid.toNat ++ LittleEndian.bytes 8 h.id.toNat ++
    LittleEndian.bytes 1 h.flags.toNat

/-- `padName` fills its field, whether the name is shorter or longer. -/
theorem length_padName {size : Nat} (h : 0 < size) (name : String) :
    (padName size name).length = size := by
  have htake := List.length_take_le (size - 1) (Text.utf8 name)
  simp only [padName, List.length_append, List.length_replicate]
  omega

/-- A header takes as many bytes as `blockSize` says: the names by `length_padName`, the numbers
    by `LittleEndian.length_bytes`. -/
@[simp]
theorem length_bytes (h : Header) : h.bytes.length = blockSize := by
  simp [bytes, length_padName, domainField, nameField, Limits.domainBytes,
    Limits.eventNameBytes, blockSize]

/-- Writes a header into a buffer. -/
def writeInto (h : Header) (b : Buffer) : Buffer × Except WireError Unit :=
  b.appendAll [h.bytes]

/-! ### Reading -/

/-- The name in a field: everything before its first zero. -/
def readName (field : List UInt8) (what : String) : Except WireError String :=
  match Text.ofUtf8? (field.takeWhile (· != 0)) with
  | some s => .ok s
  | none => .error (.badUtf8 what)

/-- Reads the header at the front of some bytes. -/
def read (data : List UInt8) : Except WireError Header := do
  if data.length < blockSize then throw (.tooShort blockSize data.length)
  let domain ← readName (data.take domainField) "domain"
  let data := data.drop domainField
  let name ← readName (data.take nameField) "event name"
  let data := data.drop nameField
  let (timestamp, data) := LittleEndian.take 8 data
  let (timeZone, data) := LittleEndian.take 1 data
  let (uid, data) := LittleEndian.take 4 data
  let (pid, data) := LittleEndian.take 4 data
  let (tid, data) := LittleEndian.take 4 data
  let (id, data) := LittleEndian.take 8 data
  let (flags, _) := LittleEndian.take 1 data
  let (type, traced) := unpackFlags (UInt8.ofNat flags)
  pure
    { domain, name, timestamp := UInt64.ofNat timestamp, timeZone := UInt8.ofNat timeZone,
      uid := UInt32.ofNat uid, pid := UInt32.ofNat pid, tid := UInt32.ofNat tid,
      id := UInt64.ofNat id, type, traced }

end Header

end EventReporter
