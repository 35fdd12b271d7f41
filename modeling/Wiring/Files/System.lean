import Wiring.Failure
/-! What the program asks of the file system it runs in. -/
namespace Wiring

class FileSystem (m : Type → Type) where
  /-- Whether there is anything at a path. -/
  isPresent : String → m Bool
  /-- The bytes of the file at a path. -/
  read : String → m (Except FileError ByteArray)
  /-- Makes the file at a path hold a text; the file is created if its directory is there. -/
  write : String → String → m (Except FileError Unit)
  /-- Writes a text over the start of the file at a path; what lies behind it stays. -/
  overwrite : String → String → m (Except FileError Unit)
  /-- Adds a text to the end of the file at a path, which is created if its directory is there. -/
  append : String → String → m (Except FileError Unit)
  /-- Makes the directories on the way of a path and at its end, as far as they are missing. -/
  createDirectories : String → m (Except FileError Unit)

namespace FileSystem

variable {m : Type → Type} [Monad m] [FileSystem m]

/-- The text of bytes in UTF-8. -/
def decodeText (bytes : ByteArray) : Except FileError String :=
  match String.fromUTF8? bytes with
  | some text => .ok text
  | none => .error .invalidText

/-- The text of the file at a path. -/
def readText (path : String) : m (Except FileError String) := do
  return (← read path).bind decodeText

end FileSystem
end Wiring
