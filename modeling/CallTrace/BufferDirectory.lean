import CallTrace.Buffer
import CallTrace.SortedMap

/-!
Memory dumps as files of one directory, each named by its digest. Writing a file again replaces it;
once the directory is gone, nothing can be written.
-/

namespace CallTrace

/-- What stands at the root under which a directory for dumps is wanted. -/
inductive BufferRoot where
  | directory
  | file
  deriving DecidableEq, Repr

/-- A directory for dumps: whether it is still there, and its files. -/
structure BufferDirectory where
  present : Bool
  files : SortedMap String Bytes

namespace BufferDirectory

/-- The name of the directory under its root. -/
def name : String := "buffer"

/-- An empty directory under a root, which must not be a file. -/
def create? : BufferRoot → Option BufferDirectory
  | .directory => some ⟨true, .empty⟩
  | .file => none

/-- The directory after somebody deleted it. -/
def deleted : BufferDirectory := ⟨false, .empty⟩

/-- The path of a dump from the root. -/
def path (digest : String) : String := name ++ "/" ++ digest

/-- Write a dump into its file. -/
def keep (d : BufferDirectory) (digest : String) (payload : Bytes) : Bool × BufferDirectory :=
  if d.present then (true, { d with files := d.files.insert digest payload }) else (false, d)

/-- The directory as a place where dumps are kept. -/
def store : BufferStore BufferDirectory := ⟨keep⟩

end BufferDirectory

end CallTrace
