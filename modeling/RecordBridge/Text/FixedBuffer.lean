import RecordBridge.Text.Utf8
/-!
# Fixed character buffers

A record stores text inline in a buffer of fixed length: the text ends at the
first NUL, or at the end of the buffer when it fills it. No terminator is
reserved, so packing may cut a text inside a character.

| here | operation |
| --- | --- |
| `untilNul` | `truncate_at_nul` |
| `readText` | `read_c_str` |
| `packText` | `write_fixed` |
-/
namespace RecordBridge

/-- The part of a text before its first NUL. -/
def untilNul (text : String) : String :=
  String.ofList (text.toList.takeWhile (· ≠ '\x00'))

/-- The text in a buffer. Bytes that are no UTF-8 are replaced, not refused. -/
def readText (buffer : List UInt8) : String :=
  Utf8.decodeLossy (buffer.takeWhile (· ≠ 0))

/-- A buffer of exactly `length` bytes holding a text, cut or filled with zeros. -/
def packText (text : String) (length : Nat) : List UInt8 :=
  ((Utf8.encode (untilNul text)).take length).rightpad length 0

theorem length_packText (text : String) (length : Nat) :
    (packText text length).length = length := by
  simp only [packText, List.rightpad, List.length_append, List.length_take,
    List.length_replicate]
  omega

end RecordBridge
