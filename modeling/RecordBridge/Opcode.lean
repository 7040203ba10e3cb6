import RecordBridge.Text.Numeral
/-!
# Opcodes in text

Messages show an opcode as four hexadecimal digits. Users write one in decimal,
or in hexadecimal after `0x`.

| here | operation |
| --- | --- |
| `showOpcode` | the `Display` of an opcode |
| `readOpcode` | `parse_opcode` |
-/
namespace RecordBridge

/-- An opcode as messages show it. -/
def showOpcode (opcode : UInt16) : String :=
  let digits := Nat.toDigits 16 opcode.toNat
  "0x" ++ String.ofList (digits.leftpad 4 '0')

/-- A text that is no opcode, and why. -/
structure OpcodeError where
  text : String
  cause : NumeralError
deriving DecidableEq, Repr

/-- The wording of an error. -/
def OpcodeError.message (error : OpcodeError) : String := "invalid opcode " ++ error.text

/-- The opcode that a text stands for. -/
def readOpcode (text : String) : Except OpcodeError UInt16 :=
  let number := match text.toList with
    | '0' :: 'x' :: digits | '0' :: 'X' :: digits =>
      Numeral.read 16 UInt16.size (String.ofList digits)
    | _ => Numeral.read 10 UInt16.size text
  match number with
  | .ok n => .ok (UInt16.ofNat n)
  | .error cause => .error ⟨text, cause⟩

end RecordBridge
