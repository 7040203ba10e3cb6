/-!
# UTF-8

Text travels as bytes on both sides of the bridge: in the character buffers of
records and in the string fields of messages. Messages must hold well-formed
UTF-8 (`decode?`); character buffers may be cut anywhere, so they are read with
one replacement character for each broken part (`decodeLossy`).

Both readers are views of one scan, `scalars`, which splits any byte string
into characters and *maximal subparts*: the longest beginnings of a character
that the bytes after them do not continue.

| here | operation |
| --- | --- |
| `Utf8.decode?` | `from_utf8` |
| `Utf8.decodeLossy` | `from_utf8_lossy` |
-/
namespace RecordBridge.Utf8

/-- The bytes of a text. -/
def encode (text : String) : List UInt8 :=
  text.toList.flatMap String.utf8EncodeChar

/-- A character whose first bytes have been read: how many continuation bytes
are due, the code point so far, and the range the next byte must lie in. -/
structure Pending where
  due : Nat
  bits : Nat
  low : UInt8
  high : UInt8
deriving DecidableEq, Repr

/-- The character a multi-byte first byte begins. The range for the second byte
rules out overlong forms, surrogates and code points past the last one. -/
def pending? (b : UInt8) : Option Pending :=
  if b < 0xC2 then none
  else if b < 0xE0 then some ⟨1, b.toNat - 0xC0, 0x80, 0xBF⟩
  else if b < 0xF0 then
    some ⟨2, b.toNat - 0xE0, if b = 0xE0 then 0xA0 else 0x80, if b = 0xED then 0x9F else 0xBF⟩
  else if b < 0xF5 then
    some ⟨3, b.toNat - 0xF0, if b = 0xF0 then 0x90 else 0x80, if b = 0xF4 then 0x8F else 0xBF⟩
  else none

/-- A byte at a character boundary: what it completes, and what it begins. -/
def start (b : UInt8) : List (Option Char) × Option Pending :=
  if b < 0x80 then ([some (Char.ofNat b.toNat)], none)
  else match pending? b with
    | some p => ([], some p)
    | none => ([none], none)

/-- A byte after the bytes of `begun`. One that does not continue the character
breaks it and starts anew. -/
def step : Option Pending → UInt8 → List (Option Char) × Option Pending
  | none, b => start b
  | some p, b =>
    if p.low ≤ b ∧ b ≤ p.high then
      let bits := p.bits * 64 + b.toNat % 64
      if p.due ≤ 1 then ([some (Char.ofNat bits)], none)
      else ([], some ⟨p.due - 1, bits, 0x80, 0xBF⟩)
    else
      let (out, next) := start b
      (none :: out, next)

/-- The characters of a byte string, with `none` for each part that is none. -/
def scalars (begun : Option Pending) : List UInt8 → List (Option Char)
  | [] => if begun.isSome then [none] else []
  | b :: rest =>
    let (out, next) := step begun b
    out ++ scalars next rest

/-- The text of well-formed bytes. -/
def decode? (bytes : List UInt8) : Option String :=
  ((scalars none bytes).mapM id).map String.ofList

/-- The text of any bytes, each broken part replaced by U+FFFD. -/
def decodeLossy (bytes : List UInt8) : String :=
  String.ofList ((scalars none bytes).map (·.getD '\uFFFD'))

end RecordBridge.Utf8
