import EventReporter.Writer
namespace EventReporter

/-!
# Events from C callers

A C caller hands over its texts as bytes up to the first zero, or as no pointer at all, and each
parameter as a name in a field of fixed size, a type code, and what that type keeps in memory.
Parameters that make no sense are left out of the event. Memory is taken to be as the caller
promises: a text has its zero, and an array as many elements as are said.

* `kindOf?_codeOf`, `codeOf_of_kindOf?` : type codes and kinds of values correspond.
-/

namespace Foreign

/-- Bytes in memory, or no pointer. -/
abbrev Pointer := Option (List UInt8)

/-- The text at a pointer: the bytes before the first zero. -/
def text? (p : Pointer) : Option String :=
  p.bind fun bytes => Text.ofUtf8? (bytes.takeWhile (· != 0))

/-- The size of the field that holds the name of a parameter. -/
def nameField : Nat := Limits.eventNameBytes + 1

/-- A name in its field: filled up with zeros, or cut off. -/
def nameBytes (name : List UInt8) : List UInt8 :=
  let bytes := name.take nameField
  bytes ++ List.replicate (nameField - bytes.length) 0

/-- The name in a field, which has to end within the field. -/
def name? (field : List UInt8) : Option String :=
  if field.contains 0 then text? (some field) else none

/-- What the memory holds for an element. -/
def Cell : ElementType → Type
  | .bool => UInt8
  | .string => Pointer
  | .signed w => w.Signed
  | .unsigned w => w.Unsigned
  | .float => BitVec 32
  | .double => BitVec 64

/-- The element in a cell. -/
def Cell.read? : (t : ElementType) → Cell t → Option t.Carrier
  | .bool, b => some (UInt8.toNat b != 0)
  | .string, p => text? p
  | .signed _, i => some i
  | .unsigned _, n => some n
  | .float, x => some x
  | .double, x => some x

/-- The kind of value with a type code: its element type, and whether it is an array. -/
def kindOf? (code : Int) : Option (ElementType × Bool) :=
  if code ≤ 12 then (code.toNat?.bind ElementType.ofCode?).map (·, false)
  else ((code - 12).toNat?.bind ElementType.ofCode?).map (·, true)

/-- The type code of a kind of value. -/
def codeOf (t : ElementType) (isArray : Bool) : Int :=
  t.code + if isArray then 12 else 0

/-- `kindOf?` tells the type and the kind by the code that `codeOf` gives them. -/
theorem kindOf?_codeOf (t : ElementType) (isArray : Bool) :
    kindOf? (codeOf t isArray) = some (t, isArray) := by
  cases t with
  | signed w => cases w <;> cases isArray <;> rfl
  | unsigned w => cases w <;> cases isArray <;> rfl
  | _ => cases isArray <;> rfl

/-- The converse of `kindOf?_codeOf`: no other code stands for them. The codes of arrays follow
    those of single values. -/
theorem codeOf_of_kindOf? {code : Int} {t : ElementType} {isArray : Bool}
    (h : kindOf? code = some (t, isArray)) : codeOf t isArray = code := by
  unfold kindOf? at h
  split at h
  · -- a code up to 12 is that of a single value
    obtain ⟨t', ht, hkind⟩ := Option.map_eq_some_iff.mp h
    obtain ⟨n, hn, ht⟩ := Option.bind_eq_some_iff.mp ht
    cases hkind
    rw [codeOf, ElementType.code_of_ofCode? ht, Int.mem_toNat?.mp hn]
    exact Int.add_zero _
  · obtain ⟨t', ht, hkind⟩ := Option.map_eq_some_iff.mp h
    obtain ⟨n, hn, ht⟩ := Option.bind_eq_some_iff.mp ht
    cases hkind
    rw [codeOf, ElementType.code_of_ofCode? ht, ← Int.mem_toNat?.mp hn]
    exact Int.sub_add_cancel code 12

/-- What a parameter holds. -/
inductive Content where
  /-- One element. -/
  | scalar (t : ElementType) (cell : Cell t)
  /-- `size` elements, or no pointer. -/
  | array (t : ElementType) (cells : Option (List (Cell t))) (size : Nat)
  /-- Something with a type code that means nothing. -/
  | unknown (code : Int) (h : kindOf? code = none)

namespace Content

/-- The type code. -/
def code : Content → Int
  | scalar t _ => codeOf t false
  | array t _ _ => codeOf t true
  | unknown code _ => code

/-- The value, if there is one. No pointer is needed for no elements. -/
def value? : Content → Option Value
  | scalar t cell => (Cell.read? t cell).map (.scalar t)
  | array t _ 0 => some (.array t [])
  | array _ none _ => none
  | array t (some cells) size => ((cells.take size).mapM (Cell.read? t)).map (.array t)
  | unknown .. => none

end Content

/-- A parameter as it is handed over. -/
structure ForeignParam where
  /-- The field with the name. -/
  name : List UInt8
  /-- What it holds. -/
  content : Content

/-- The parameter that was meant, or the code of what is wrong with it. The name is looked at
    first. -/
def ForeignParam.convert (p : ForeignParam) : Except Int Param :=
  match name? p.name with
  | none => .error Status.keyInvalid
  | some key =>
    match p.content.value? with
    | none => .error Status.valueInvalid
    | some value => .ok ⟨key, value⟩

/-- What is said about a parameter that is left out. -/
def rejectedEntry (type code : Int) : Journal.Entry where
  level := .debug
  target := Journal.source "ffi"
  message := "C parameter rejected"
  fields := [("param_type", .number type), ("code", .number code)]

/-- What is said about an event type that means nothing. -/
def typeEntry (domain name : String) (type : Int) : Journal.Entry where
  level := .error
  target := Journal.source "ffi"
  message := "invalid event type"
  fields := [("domain", .text domain), ("event", .text name), ("event_type", .number type)]

/-- The call site of all C callers. -/
def callSite : CallSite := ⟨"SysEvent_Write", 0⟩

/-- The parameters that make sense, in order, and the outcome so far. -/
def convertAll {σ : Type} (params : List Param) (code : Int) :
    List ForeignParam → Action σ (List Param × Int)
  | [] => pure (params.reverse, code)
  | p :: rest => do
    match p.convert with
    | .ok q => convertAll (q :: params) code rest
    | .error c =>
      note (rejectedEntry p.content.code c)
      convertAll params (Status.fold code c) rest

/-- The outcome of taking over the list of parameters itself: no pointer is needed for none. -/
def listCode (params : Option (List ForeignParam)) (size : Nat) : Int :=
  if params.isNone ∧ 0 < size then Status.valueInvalid else Status.success

/-- Writes an event of a C caller: its status code. -/
def write {σ : Type} (net : Network σ) (w : Writer) (s : Surroundings) (domain name : Pointer)
    (type : Int) (params : Option (List ForeignParam)) (size : Nat) :
    Action σ (Writer × Int) :=
  match text? domain, text? name with
  | none, _ => pure (w, Status.domainInvalid)
  | _, none => pure (w, Status.nameInvalid)
  | some domain, some name =>
    match EventType.ofCode type with
    | .error _ => do
      note (typeEntry domain name type)
      pure (w, Status.typeInvalid)
    | .ok eventType => do
      -- the caller says how many there are
      let given := (params.getD []).take size
      let (params, code) ← convertAll [] (listCode params size) given
      let (w, result) ← w.write net s none callSite ⟨domain, name, eventType, params⟩
      pure (w, Status.fold code result)

end Foreign

end EventReporter
