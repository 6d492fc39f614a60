/-! # Texts as bytes

The bytes that write a text in UTF-8, and the reading of such bytes with the reason why some are no
text. Reading takes one byte order mark off the start. -/

namespace Bulletin.Text

/-- Why bytes are no text. -/
inductive Utf8Error where
  | invalidStart
  | invalidContinuation
  | unexpectedEnd
  deriving DecidableEq, Repr

/-- The words for a reason. -/
def Utf8Error.message : Utf8Error → String
  | .invalidStart => "invalid start byte"
  | .invalidContinuation => "invalid continuation byte"
  | .unexpectedEnd => "unexpected end of data"

/-- The bytes of one character. -/
def encodeChar (c : Char) : List UInt8 :=
  let n := c.toNat
  if n < 0x80 then [n.toUInt8]
  else if n < 0x800 then [(0xC0 + n / 0x40).toUInt8, (0x80 + n % 0x40).toUInt8]
  else if n < 0x10000 then
    [(0xE0 + n / 0x1000).toUInt8, (0x80 + n / 0x40 % 0x40).toUInt8, (0x80 + n % 0x40).toUInt8]
  else
    [(0xF0 + n / 0x40000).toUInt8, (0x80 + n / 0x1000 % 0x40).toUInt8,
      (0x80 + n / 0x40 % 0x40).toUInt8, (0x80 + n % 0x40).toUInt8]

/-- The bytes of a text. -/
def encode (s : List Char) : List UInt8 := s.flatMap encodeChar

/-- What the first byte of a character says: the number of bytes that follow, the bounds of the
first of them, and the bits it gives; none if no character starts so. -/
def leadByte (b : Nat) : Option (Nat × Nat × Nat × Nat) :=
  if b < 0x80 then some (0, 0x80, 0xBF, b)
  else if b < 0xC2 then none
  else if b < 0xE0 then some (1, 0x80, 0xBF, b - 0xC0)
  else if b == 0xE0 then some (2, 0xA0, 0xBF, 0)
  else if b == 0xED then some (2, 0x80, 0x9F, 13)
  else if b < 0xF0 then some (2, 0x80, 0xBF, b - 0xE0)
  else if b == 0xF0 then some (3, 0x90, 0xBF, 0)
  else if b == 0xF4 then some (3, 0x80, 0x8F, 4)
  else if b < 0xF5 then some (3, 0x80, 0xBF, b - 0xF0)
  else none

/-- Where the reading of bytes stops: the number of bytes that are left from there on, and of those
before that belong to the character begun. -/
structure Utf8Stop where
  why : Utf8Error
  begun : Nat
  left : Nat
  deriving DecidableEq, Repr

/-- The characters of bytes, after `begun` bytes of a character that still owes `k` bytes, the next
one between `lo` and `hi`, and has given the bits `acc`. -/
def decodeFrom (begun k lo hi acc : Nat) : List UInt8 → Except Utf8Stop (List Char)
  | [] => if k = 0 then .ok [] else .error ⟨.unexpectedEnd, begun, 0⟩
  | b :: r =>
    if k = 0 then
      match leadByte b.toNat with
      | none => .error ⟨.invalidStart, 0, r.length + 1⟩
      | some (0, _, _, n) => (decodeFrom 0 0 0 0 0 r).map (Char.ofNat n :: ·)
      | some (k + 1, lo, hi, n) => decodeFrom 1 (k + 1) lo hi n r
    else if lo ≤ b.toNat && b.toNat ≤ hi then
      if k = 1 then (decodeFrom 0 0 0 0 0 r).map (Char.ofNat (acc * 0x40 + b.toNat % 0x40) :: ·)
      else decodeFrom (begun + 1) (k - 1) 0x80 0xBF (acc * 0x40 + b.toNat % 0x40) r
    else .error ⟨.invalidContinuation, begun, r.length + 1⟩

/-- The text that bytes write. -/
def decodeAll (bytes : List UInt8) : Except Utf8Stop (List Char) := decodeFrom 0 0 0 0 0 bytes

/-- The text without a byte order mark at its start. -/
def dropMark : List Char → List Char
  | '\uFEFF' :: r => r
  | s => s

/-- The text that bytes write, without its byte order mark. -/
def decode (bytes : List UInt8) : Except Utf8Error (List Char) :=
  ((decodeAll bytes).mapError (·.why)).map dropMark

end Bulletin.Text
