namespace EventReporter.Text

/-!
# Texts

What the whole library says about texts: their UTF-8 bytes, the words that may serve as names, and
the blanks that are trimmed off.

* `ofUtf8?_utf8` : reading the bytes of a text gives the text back.
* `utf8_of_ofUtf8?` : bytes that read as a text are the bytes of that text, so each text has
  one byte form.
* `isName` : the domains, event names and parameter keys that are accepted.
* `trim` : a text without the blanks at its two ends.
-/

/-! ### UTF-8 bytes -/

/-- The UTF-8 bytes of a text. -/
def utf8 (s : String) : List UInt8 :=
  s.toByteArray.data.toList

/-- The text with these UTF-8 bytes; `none` when they are not well-formed UTF-8. -/
def ofUtf8? (bytes : List UInt8) : Option String :=
  String.fromUTF8? ⟨bytes.toArray⟩

/-- The bytes of a text are as many as `String.utf8ByteSize` says, by which all limits count. -/
theorem length_utf8 (s : String) : (utf8 s).length = s.utf8ByteSize := by
  rw [utf8, Array.length_toList]; rfl

/-- Reading the bytes of `utf8` gives the text back. -/
@[simp]
theorem ofUtf8?_utf8 (s : String) : ofUtf8? (utf8 s) = some s := by
  simp [ofUtf8?, utf8, String.fromUTF8?, s.isValidUTF8, String.fromUTF8]

/-- The converse of `ofUtf8?_utf8`: bytes that are read as a text by `ofUtf8?` are its bytes, so
    no text has two forms. -/
theorem utf8_of_ofUtf8? {bytes : List UInt8} {s : String} (h : ofUtf8? bytes = some s) :
    utf8 s = bytes := by
  simp only [ofUtf8?, String.fromUTF8?, Option.dite_none_right_eq_some, Option.some.injEq] at h
  obtain ⟨_, rfl⟩ := h
  simp [utf8, String.fromUTF8]

/-! ### Names -/

/-- A character that may stand in a name after its first letter. -/
def isNameChar (c : Char) : Bool :=
  c.isAlphanum || c == '_'

/-- A name of at most `max` bytes: an ASCII letter, then ASCII letters, digits and underscores. -/
def isName (max : Nat) (s : String) : Bool :=
  match s.toList with
  | [] => false
  | c :: rest => c.isAlpha && decide (s.utf8ByteSize ≤ max) && rest.all isNameChar

/-! ### Blanks -/

/-- The Unicode property White_Space. -/
def isBlank (c : Char) : Bool :=
  let n := c.toNat
  (0x9 ≤ n && n ≤ 0xD) || n == 0x20 || n == 0x85 || n == 0xA0 || n == 0x1680 ||
    (0x2000 ≤ n && n ≤ 0x200A) || n == 0x2028 || n == 0x2029 || n == 0x202F || n == 0x205F ||
    n == 0x3000

/-- The text without the blanks at its two ends. -/
def trim (cs : List Char) : List Char :=
  ((cs.dropWhile isBlank).reverse.dropWhile isBlank).reverse

end EventReporter.Text
