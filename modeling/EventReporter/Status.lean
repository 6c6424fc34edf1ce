namespace EventReporter.Status

/-!
# Status codes

Every write answers with a number: zero for success, a positive number for an event that was
sent with some of its parameters dropped or shortened, a negative one for an event that was not
sent.

* `fold_assoc` : the outcome of several steps does not depend on how they are grouped.
* `fold_neg_iff` : several steps fail exactly when one of them does.
-/

/-- All went well. -/
def success : Int := 0

/-! ### Warnings -/

/-- A parameter's key is no name. -/
def keyInvalid : Int := 1

/-- A string was shortened. -/
def stringTooLong : Int := 2

/-- There were too many parameters. -/
def tooManyParams : Int := 3

/-- An array was shortened. -/
def arrayTooLong : Int := 4

/-- A value could not be taken over from the caller. -/
def valueInvalid : Int := 5

/-- A parameter did not fit into the record. -/
def paramUnencodable : Int := 6

/-! ### Failures -/

/-- The domain is no name. -/
def domainInvalid : Int := -1

/-- The event name is no name. -/
def nameInvalid : Int := -2

/-- There was no socket. -/
def noSocket : Int := -3

/-- The record is too large. -/
def overSize : Int := -4

/-- The record could not be sent. -/
def sendFailed : Int := -5

/-- The call site writes too often. -/
def tooFrequent : Int := -6

/-- The domain is masked. -/
def domainMasked : Int := -7

/-- The record is empty. -/
def emptyRecord : Int := -8

/-- The record could not be laid out. -/
def unencodable : Int := -9

/-- The number of the event type has no meaning. -/
def typeInvalid : Int := -10

/-! ### Classes -/

/-- Whether a code reports success. -/
def isSuccess (code : Int) : Bool := code == success

/-- Whether a code reports an event that was sent in part. -/
def isWarning (code : Int) : Bool := decide (success < code)

/-- Whether a code reports an event that was not sent. -/
def isFatal (code : Int) : Bool := decide (code < success)

/-- The outcome of two steps: a failure counts more than a warning, a warning more than success,
    and of two codes of one class the first stays. -/
def fold (current next : Int) : Int :=
  if isFatal current then current
  else if isFatal next then next
  else if isWarning current then current
  else next

/-- `fold` in terms of signs: an error counts first, then an error of the second step, then the
    first warning. -/
theorem fold_eq (a b : Int) :
    fold a b = if a < 0 then a else if b < 0 then b else if 0 < a then a else b := by
  simp only [fold, isFatal, isWarning, decide_eq_true_eq]
  rfl

/-- The outcome of several steps does not depend on how they are grouped. -/
theorem fold_assoc (a b c : Int) : fold (fold a b) c = fold a (fold b c) := by
  grind [fold_eq]

/-- Two steps fail together exactly if one of them does, since `fold` lets no warning hide an
    error. -/
theorem fold_neg_iff (a b : Int) : fold a b < 0 ↔ a < 0 ∨ b < 0 := by
  grind [fold_eq]

/-- The wording of a code. -/
def explain (code : Int) : String :=
  match code with
  | 0 => "success"
  | 1 => "parameter key is invalid, parameter dropped"
  | 2 => "string value too long, truncated"
  | 3 => "too many parameters, extra ones dropped"
  | 4 => "array too long, truncated"
  | 5 => "parameter value is invalid, parameter dropped"
  | 6 => "parameter could not be encoded, parameter dropped"
  | -1 => "domain is invalid"
  | -2 => "event name is invalid"
  | -3 => "socket could not be created"
  | -4 => "event exceeds the maximum record size"
  | -5 => "event could not be sent"
  | -6 => "write frequency too high, event suppressed"
  | -7 => "domain is masked, event dropped"
  | -8 => "event record is empty"
  | -9 => "event header could not be encoded"
  | -10 => "event type is invalid"
  | _ => "unknown status code"

end EventReporter.Status
