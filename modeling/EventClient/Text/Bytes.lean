/-!
Texts as their UTF-8 bytes. A text is determined by its bytes, every text can be read back from
them, and names are ordered by them.
-/
namespace EventClient

/-- What travels over a connection. -/
abbrev Bytes := List UInt8

namespace Text

/-- The UTF-8 encoding of a text. -/
def bytes (text : String) : Bytes := text.toByteArray.data.toList

/-- The text with the given UTF-8 encoding, if the bytes are one. -/
def ofBytes? (encoded : Bytes) : Option String := String.fromUTF8? ⟨encoded.toArray⟩

def encodeChar (c : Char) : Bytes := String.utf8EncodeChar c

theorem ofBytes?_bytes (text : String) : ofBytes? (bytes text) = some text := by
  have h : (⟨(bytes text).toArray⟩ : ByteArray) = text.toByteArray := by
    simp [bytes]
  simp only [ofBytes?, String.fromUTF8?, h]
  rw [dif_pos text.isValidUTF8]
  rfl

theorem bytes_injective {a b : String} (h : bytes a = bytes b) : a = b := by
  have := congrArg ofBytes? h
  simpa [ofBytes?_bytes] using this

/-- Byte order, the order in which names are listed and written. -/
def precedes (a b : String) : Bool := decide (bytes a < bytes b)

end Text

end EventClient
