import EventReporter.Record
namespace EventReporter

/-!
# Building records

A builder collects the header, the trace and the parameters of one record and lays them out on
demand. A parameter is encoded when it is added, and refused if the record would pass its limit;
a key that is already there is replaced, and moves to the end.
-/

namespace Record

/-- A parameter with its bytes. -/
structure Entry where
  /-- The parameter. -/
  param : Param
  /-- Its encoding. -/
  bytes : List UInt8
deriving DecidableEq

/-- A record under construction. -/
structure Builder where
  /-- The header. -/
  header : Header
  /-- The trace, in force once the header says so. -/
  trace : Trace
  /-- The parameters, in record order. -/
  entries : List Entry
  /-- The most bytes of the record. -/
  limit : Nat
deriving DecidableEq

namespace Builder

/-- A builder without parameters. -/
def new (domain name : String) (type : EventType) (limit : Nat) : Builder :=
  ⟨.new domain name type, .none, [], limit⟩

/-- Attaches a trace. -/
def setTrace (b : Builder) (trace : Trace) : Builder :=
  { b with trace, header := { b.header with traced := true } }

/-- The attached trace. -/
def trace? (b : Builder) : Option Trace :=
  if b.header.traced then some b.trace else none

/-- The parameters, in record order. -/
def params (b : Builder) : List Param :=
  b.entries.map (·.param)

/-- The parameter with a key. -/
def get? (b : Builder) (key : String) : Option Param :=
  (b.entries.find? (·.param.key == key)).map (·.param)

/-- The size of everything but the parameters. -/
def baseSize (b : Builder) : Nat :=
  lengthSize + Header.blockSize + (if b.header.traced then Trace.blockSize else 0) + countSize

/-- The bytes of some parameters together. -/
def entriesSize (entries : List Entry) : Nat :=
  entries.foldr (fun e n => e.bytes.length + n) 0

/-- The size that the record has when it is built. -/
def size (b : Builder) : Nat :=
  b.baseSize + entriesSize b.entries

/-! ### Parameters -/

/-- The parameters other than the one with a key. -/
def without (b : Builder) (key : String) : List Entry :=
  b.entries.eraseP (·.param.key == key)

/-- The bytes of the parameter with a key, 0 if there is none. -/
def sizeOf (b : Builder) (key : String) : Nat :=
  ((b.entries.find? (·.param.key == key)).map (·.bytes.length)).getD 0

/-- Adds a parameter at the end, in place of an earlier one with its key. -/
def add (b : Builder) (p : Param) : Except WireError Builder := do
  let bytes ← p.encode
  let others := b.size - b.sizeOf p.key
  if b.limit < others + bytes.length then
    throw (.overflow bytes.length (b.limit - others))
  pure { b with entries := b.without p.key ++ [⟨p, bytes⟩] }

/-! ### Layout -/

/-- The greatest length, and the greatest number of parameters, that a record can state. -/
def maxStated : Nat := UInt32.size / 2 - 1

/-- A count as the record states it. -/
def stated (n : Nat) : Except WireError (List UInt8) :=
  if n ≤ maxStated then .ok (LittleEndian.intBytes lengthSize n)
  else .error (.overflow n maxStated)

/-- Everything in front of the number of parameters, with zeros for the length. -/
def leadingPieces (b : Builder) : List (List UInt8) :=
  [LittleEndian.intBytes lengthSize 0, b.header.bytes] ++ (b.trace?.map Trace.bytes).toList

/-- Appends pieces to a buffer, or fails with the first that does not fit. -/
def lay (buffer : Buffer) (pieces : List (List UInt8)) : Except WireError Buffer :=
  match buffer.appendAll pieces with
  | (buffer, .ok ()) => .ok buffer
  | (_, .error e) => .error e

/-- Lays out the record, then writes its length at the front. -/
def build (b : Builder) : Except WireError (List UInt8) := do
  let buffer ← lay (.empty b.limit) b.leadingPieces
  let count ← stated b.entries.length
  let buffer ← lay buffer (count :: b.entries.map (·.bytes))
  let length ← stated buffer.size
  let buffer ← buffer.update 0 length
  pure buffer.toList

end Builder

end Record

end EventReporter
