import Federation.Text.Utf8

/-!
# Files

A `FileSystem m` lets programs in `m` read and write files by path.  Reading or writing
fails where nothing is found, or where something stands in the way, as a directory does
in the place of a file or a file in the place of a directory.
-/

namespace Federation

/-- Why a file cannot be used. -/
inductive FileError where
  /-- There is nothing at the path. -/
  | notFound
  /-- What is there cannot be used. -/
  | refused
deriving DecidableEq, Repr

/-- Files by path. -/
class FileSystem (m : Type → Type) where
  /-- The content of a file. -/
  read : String → m (Except FileError Bytes)
  /-- Makes a content the one of a file, which is created if it is not there. -/
  write : String → Bytes → m (Except FileError Unit)
  /-- Creates a directory and those above it, as far as they are not there. -/
  makeDirectories : String → m (Except FileError Unit)

namespace Path

/-- The path of a file in a directory. -/
def join (dir file : String) : String :=
  if dir.isEmpty || dir.toList.getLast? = some '/' then dir ++ file else dir ++ "/" ++ file

/-- The directory that a path names before the last slash, if there is one. -/
def directory? (path : String) : Option String :=
  let above := (path.toList.reverse.dropWhile (· = '/')).dropWhile (· ≠ '/')
  let dir := above.dropWhile (· = '/')
  if above.isEmpty then none
  else some (if dir.isEmpty then "/" else String.ofList dir.reverse)

end Path
end Federation
