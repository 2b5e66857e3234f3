import Federation.FileSystem
import Federation.Text.Split

/-!
# Files in memory

A `Disk` is a tree of directories with files as its leaves.  Programs that keep a disk
as their state have it as their file system.
-/

namespace Federation

/-- A file or a directory. -/
inductive Disk where
  | file (content : Bytes)
  /-- A directory with what it holds by name. -/
  | directory (entries : List (String × Disk))

namespace Disk

/-- A disk with nothing on it. -/
def empty : Disk := directory []

/-- The names on the way to what a path stands for. -/
def names (path : String) : List String :=
  ((Text.splitOn '/' path.toList).map String.ofList).filter fun n => !(n.isEmpty || n = ".")

/-- The entries of a directory with one of them put in place. -/
def put (name : String) (d : Disk) (entries : List (String × Disk)) : List (String × Disk) :=
  (name, d) :: entries.filter fun e => e.1 ≠ name

/-- The content of a file. -/
def read : List String → Disk → Except FileError Bytes
  | [], file content => .ok content
  | [], directory _ => .error .refused
  | _ :: _, file _ => .error .refused
  | name :: names, directory entries =>
    match entries.lookup name with
    | none => .error .notFound
    | some d => read names d

/-- The disk with the content of a file written. -/
def write (content : Bytes) : List String → Disk → Except FileError Disk
  | [], file _ => .ok (file content)
  | [], directory _ => .error .refused
  | _ :: _, file _ => .error .refused
  | name :: names, directory entries =>
    match entries.lookup name with
    | some d => do return directory (put name (← write content names d) entries)
    | none =>
      if names.isEmpty then .ok (directory (put name (file content) entries))
      else .error .notFound

/-- The disk with a directory created. -/
def makeDirectories : List String → Disk → Except FileError Disk
  | _, file _ => .error .refused
  | [], directory entries => .ok (directory entries)
  | name :: names, directory entries => do
    let d ← makeDirectories names ((entries.lookup name).getD empty)
    return directory (put name d entries)

/-- Changes the disk, unless that fails. -/
def change (f : Disk → Except FileError Disk) : StateM Disk (Except FileError Unit) := fun d =>
  match f d with
  | .error e => (.error e, d)
  | .ok next => (.ok (), next)

/-- The disk with a file written, the directories above it created as far as they are
not there; unchanged where that fails. -/
def add (path : String) (content : Bytes) (d : Disk) : Disk :=
  let above := (names path).dropLast
  match makeDirectories above d >>= write content (names path) with
  | .error _ => d
  | .ok next => next

instance : FileSystem (StateM Disk) where
  read path := fun d => (d.read (names path), d)
  write path content := change (write content (names path))
  makeDirectories path := change (makeDirectories (names path))

end Disk
end Federation
