import DialectBridge.Error
import DialectBridge.File.Path
/-!
# Files

What the program asks of a file system, whatever this is made of, and how queries are read and
written with it.
-/
namespace DialectBridge

/-- The operations of a file system, as computations of a kind `m`. -/
structure FileSystem (m : Type → Type) where
  /-- Whether there is a file or a directory. -/
  present : (path : Text) → m Bool
  /-- The text of a file; none if there is no file or no text in it. -/
  read? : (path : Text) → m (Option Text)
  /-- Makes a file with the given text, in a directory that is made if it is missing. Says
  whether this was done. -/
  write : (path text : Text) → m Bool

namespace FileSystem
variable {m : Type → Type} [Monad m]

def readQuery (fs : FileSystem m) (path : Text) : m (Except Error Text) := do
  match ← fs.read? path with
  | some t => return .ok t
  | none => return .error (.fileUnreadable path)

def writeQuery (fs : FileSystem m) (path sql : Text) : m (Except Error Unit) := do
  if ← fs.write path sql then return .ok () else return .error (.fileUnwritable path)

end FileSystem
end DialectBridge
