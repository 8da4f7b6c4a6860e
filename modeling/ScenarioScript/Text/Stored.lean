/-!
# Stored text

Most token texts are short, so they are kept as a few bytes inside the token. A longer text is kept
as a string of its own. Readers see the same text either way.
-/

namespace ScenarioScript

/-- How many bytes fit inside a token. -/
def StoredText.capacity : Nat := 22

inductive StoredText where
  /-- A text of `size` bytes at the front of the buffer. -/
  | short (size : UInt8) (buffer : Vector UInt8 StoredText.capacity)
  | long (text : String)

namespace StoredText

def ofString (text : String) : StoredText :=
  if text.utf8ByteSize ≤ capacity then
    short (UInt8.ofNat text.utf8ByteSize) (Vector.ofFn fun i => text.toUTF8.data.getD i 0)
  else long text

/-- The stored text. Bytes that spell no text read as the empty text. -/
def toString : StoredText → String
  | short size buffer =>
    (String.fromUTF8? ⟨(buffer.take size.toNat).toArray⟩).getD ""
  | long text => text

instance : ToString StoredText := ⟨toString⟩

instance : BEq StoredText := ⟨fun a b => a.toString == b.toString⟩

/-- Whether the text is kept outside the token. -/
def isLong : StoredText → Bool
  | short .. => false
  | long _ => true

/-- The length in bytes. -/
def size (text : StoredText) : Nat := text.toString.utf8ByteSize

def isEmpty (text : StoredText) : Bool := text.size = 0

end StoredText

end ScenarioScript
