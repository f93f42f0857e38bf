import DeviceSettings.Text.Blank

/-!
# Lines of bytes

A file holds bytes; what a reader of its first line sees is the text of the bytes before the first
line feed, if they are UTF-8.
-/

namespace DeviceSettings.Text

/-- the byte that ends a line -/
def lineFeed : UInt8 := 10

/-- The bytes before the first line feed. -/
def firstLine (b : ByteArray) : ByteArray :=
  (b.toList.takeWhile (· != lineFeed)).toByteArray

/-- The trimmed first line, if its bytes are UTF-8. -/
def firstLine? (b : ByteArray) : Option String :=
  (String.fromUTF8? (firstLine b)).map trim

/-- The pieces of a byte stream at its line feeds; a last one without a line feed counts if it
holds anything. -/
def byteLines (b : ByteArray) : List ByteArray :=
  go [] b.toList
where
  go (line : List UInt8) : List UInt8 → List ByteArray
    | [] => if line.isEmpty then [] else [line.reverse.toByteArray]
    | x :: xs =>
      if x = lineFeed then line.reverse.toByteArray :: go [] xs else go (x :: line) xs

end DeviceSettings.Text
