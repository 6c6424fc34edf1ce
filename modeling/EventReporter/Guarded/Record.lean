import EventReporter.Guarded
import EventReporter.Record
namespace EventReporter.Guarded

/-!
# Guarded readers of records

The readers of records and of their parts, position by position: where each of them starts and
stops, and which bytes it cuts out in between.
-/

/-! ### Numbers of variable length -/

/-- Reads on at `pos` in a number that starts at `start`, after bytes that say `n`. The next group
    counts from bit `bits` on, and there may be `room` more of them. -/
def groups (start : Nat) : (room n bits pos : Nat) → Guarded (Nat × Nat)
  | 0, _, _, _ => refuse (.badVarint start)
  | room + 1, n, bits, pos => do
    let data := (← get).data
    let behind ← sum .w64 pos 1
    let b ← orRefuse data[pos]? (.tooShort behind data.length)
    let low ← shift (b.toNat % 128) bits
    let bits ← sum .w32 bits 7
    if 128 ≤ b.toNat then groups start room (n + low) bits behind
    else pure (n + low, behind)

/-- Reads a number with its purpose. -/
def number : Guarded (Varint.Purpose × Nat) := do
  let desk ← get
  let start := desk.offset
  let behind ← sum .w64 start 1
  let tag ← orRefuse desk.data[start]? (.tooShort behind desk.data.length)
  let (n, stop) ←
    if tag.toNat / 32 % 2 = 1 then groups start (Varint.maxBytes - 1) (tag.toNat % 32) 5 behind
    else pure (tag.toNat % 32, behind)
  moveTo stop
  pure (.ofTag tag, n)

/-- Reads a number of 64 bits. -/
def unsigned : Guarded (Varint.Purpose × Nat) := do
  let start := (← get).offset
  let (purpose, n) ← number
  if n < Width.w64.count then pure (purpose, n) else refuse (.badVarint start)

/-- Reads an integer of 64 bits. -/
def signed : Guarded (Varint.Purpose × Int) := do
  let start := (← get).offset
  let (purpose, n) ← number
  let i := Varint.ofSignMagnitude n
  if -(Width.w64.half : Int) ≤ i ∧ i < Width.w64.half then pure (purpose, i)
  else refuse (.badVarint start)

/-! ### Bytes and texts -/

/-- Reads the next byte. -/
def byte : Guarded UInt8 := do
  let desk ← get
  let behind ← sum .w64 desk.offset 1
  let b ← orRefuse desk.data[desk.offset]? (.tooShort behind desk.data.length)
  moveTo behind
  pure b

/-- Reads the next `n` bytes. -/
def bytes (n : Nat) : Guarded (List UInt8) := do
  let desk ← get
  let stop ← sum .w64 desk.offset n
  let bs ← orRefuse (part? desk.data desk.offset stop) (.tooShort stop desk.data.length)
  moveTo stop
  pure bs

/-- Reads the bytes up to `stop` as a text. -/
def textTo (what : String) (stop : Nat) : Guarded String := do
  let desk ← get
  let bs ← orRefuse (part? desk.data desk.offset stop) (.tooShort stop desk.data.length)
  let s ← orRefuse (Text.ofUtf8? bs) (.badUtf8 what)
  moveTo stop
  pure s

/-- Reads a text that is preceded by its length. Here the sum is not trusted to have a machine
    number. -/
def text (what : String) : Guarded String := do
  let start := (← get).offset
  let (_, n) ← unsigned
  let stop ← orRefuse (sum? .w64 (← get).offset n) (.badVarint start)
  textTo what stop

/-! ### Values -/

/-- Reads an element. -/
def element : (t : ElementType) → Guarded t.Carrier
  | .bool => do
    let (_, i) ← signed
    pure (i != 0)
  | .signed w => do
    let (_, i) ← signed
    if h : -(w.half : Int) ≤ i ∧ i < w.half then pure ⟨i, h⟩
    else refuse (.outOfRange i (ElementType.signed w).name)
  | .unsigned w => do
    let (_, n) ← unsigned
    if h : n < w.count then pure ⟨n, h⟩
    else refuse (.outOfRange n (ElementType.unsigned w).name)
  | .float => do
    let bs ← bytes 4
    pure (BitVec.ofNat 32 (LittleEndian.value bs))
  | .double => do
    let bs ← bytes 8
    pure (BitVec.ofNat 64 (LittleEndian.value bs))
  | .string => text "string value"

/-- Reads `n` elements, after those in `done`, last one first. -/
def elementsFrom (t : ElementType) (done : List t.Carrier) : Nat → Guarded (List t.Carrier)
  | 0 => pure done.reverse
  | n + 1 => do
    let x ← element t
    elementsFrom t (x :: done) n

/-- Reads one element of a type that the type byte named. -/
def scalar : Option ElementType → Guarded Value
  | some t => do
    let x ← element t
    pure (.scalar t x)
  | none => refuse (.unknownValueType 0)

/-- Reads an array of a type that the type byte named. -/
def array (type : Option ElementType) : Guarded Value := do
  let (_, count) ← unsigned
  if Limits.elements < count then refuse (.tooManyElements count Limits.elements)
  match type with
  | some t =>
    let xs ← elementsFrom t [] count
    pure (.array t xs)
  | none => refuse (.unknownValueType 0)

/-- Reads a parameter. -/
def param : Guarded Param := do
  let key ← text "param key"
  let kind ← ofExcept (TypeByte.unpack (← byte))
  let value ← if kind.isArray then array kind.type else scalar kind.type
  pure ⟨key, value⟩

/-- Reads `n` parameters, after those in `done`, last one first. -/
def paramsFrom (done : List Param) : Nat → Guarded (List Param)
  | 0 => pure done.reverse
  | n + 1 => do
    begin
    let p ← param
    paramsFrom (p :: done) n

/-! ### Blocks of fixed size -/

/-- Reads the name in a field: everything before its first zero. -/
def name (field : List UInt8) (what : String) : Guarded String := do
  -- the whole field, if there is no zero in it
  let bs ← part field 0 (field.findIdx (· == 0))
  orRefuse (Text.ofUtf8? bs) (.badUtf8 what)

/-- The number in the `width` bytes of a block from `pos` on, and the position behind them. -/
def field (block : List UInt8) (pos width : Nat) : Guarded (Nat × Nat) := do
  let behind ← sum .w64 pos width
  let bs ← part block pos behind
  pure (LittleEndian.value bs, behind)

/-- Reads the header at the front of some bytes. -/
def header (bs : List UInt8) : Guarded Header := do
  let block ← orRefuse (part? bs 0 Header.blockSize) (.tooShort Header.blockSize bs.length)
  let domain ← name (← part block 0 Header.domainField) "domain"
  let behind ← sum .w64 Header.domainField Header.nameField
  let name ← name (← part block Header.domainField behind) "event name"
  let (timestamp, pos) ← field block behind 8
  let (timeZone, pos) ← field block pos 1
  let (uid, pos) ← field block pos 4
  let (pid, pos) ← field block pos 4
  let (tid, pos) ← field block pos 4
  let (id, pos) ← field block pos 8
  let (flags, _) ← field block pos 1
  let (type, traced) := unpackFlags (UInt8.ofNat flags)
  pure
    { domain, name, timestamp := UInt64.ofNat timestamp, timeZone := UInt8.ofNat timeZone,
      uid := UInt32.ofNat uid, pid := UInt32.ofNat pid, tid := UInt32.ofNat tid,
      id := UInt64.ofNat id, type, traced }

/-- Reads the trace block at the front of some bytes. -/
def trace (bs : List UInt8) : Guarded Trace := do
  let block ← orRefuse (part? bs 0 Trace.blockSize) (.tooShort Trace.blockSize bs.length)
  let (flag, pos) ← field block 0 1
  let (id, pos) ← field block pos 8
  let (span, pos) ← field block pos 4
  let (parent, _) ← field block pos 4
  pure ⟨UInt8.ofNat flag, UInt64.ofNat id, UInt32.ofNat span, UInt32.ofNat parent⟩

/-! ### Records -/

/-- Reads the trace block, if there is one. -/
def trace? (traced : Bool) : Guarded (Option Trace) :=
  if traced then do
    let desk ← get
    let trace ← trace (← part desk.data desk.offset desk.data.length)
    moveTo (← sum .w64 desk.offset Trace.blockSize)
    pure (some trace)
  else pure none

/-- Reads the number of parameters. -/
def count : Guarded Nat := do
  let field ← bytes Record.countSize
  orRefuse (LittleEndian.intValue field).toNat? (.lengthMismatch (LittleEndian.intValue field) 0)

/-- Reads the parameters and their number. They have to end with the last byte. -/
def params (declared : Int) : Guarded (List Param) := do
  let count ← count
  let params ← paramsFrom [] count
  let desk ← get
  if desk.offset ≠ desk.data.length then refuse (.lengthMismatch declared desk.offset)
  pure params

/-- Reads what follows the length of a record. -/
def body (declared : Int) : Guarded Record := do
  let data := (← get).data
  let header ← header (← part data Record.lengthSize data.length)
  moveTo (Record.lengthSize + Header.blockSize)
  let trace ← trace? header.traced
  let params ← params declared
  pure ⟨header, trace, params⟩

/-- Reads a record. -/
def record : Guarded Record := do
  let data := (← get).data
  if data.length < Record.minSize then refuse (.tooShort Record.minSize data.length)
  let declared := LittleEndian.intValue (← part data 0 Record.lengthSize)
  if declared ≠ data.length then refuse (.lengthMismatch declared data.length)
  body declared

end EventReporter.Guarded
