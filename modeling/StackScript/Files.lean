import StackScript.Table
set_option autoImplicit false

/-!
# Files

Programs read and write whole files by path.  What holds the files is a type of
its own, with the operations of `FileSystem` on it, so that the evaluator is the
same over files in memory, a disk, or anything else.

An access succeeds, fails with an error, or crashes.  Besides that it can have an
effect on the run that makes it: a read can cancel the run, and what is written to
a file can turn out to go to the place where the run's own output goes.
-/

namespace StackScript

/-- An error of an access to a file. -/
structure FileError where
  message : Bytes
  /-- whether the error is that there is no such file -/
  missing : Bool
  deriving DecidableEq, Repr, Inhabited

/-- What came of one access to a file. -/
inductive Access (α : Type) where
  | ok (a : α)
  | failed (error : FileError)
  | crashed (message : Bytes)
  deriving Inhabited

/-- A stream that a command writes. -/
inductive Channel where
  | output
  | error
  deriving DecidableEq, Repr, Inhabited

/-- What an access does to the run that made it. -/
inductive Effect where
  | none
  /-- the run is cancelled -/
  | cancels
  /-- a text is added to one of the streams that the run writes too -/
  | echoes (channel : Channel) (text : Bytes)
  deriving DecidableEq, Repr, Inhabited

/-- The answer to one access, and the files after it. -/
structure Reply (W α : Type) where
  world : W
  access : Access α
  effect : Effect

/-- Whole-file access by path. -/
class FileSystem (W : Type) where
  /-- whether a path can be opened for reading -/
  probe : W → Bytes → Reply W Unit
  /-- the text of a file -/
  read : W → Bytes → Reply W Bytes
  /-- makes a text the content of a file -/
  write : W → Bytes → Bytes → Reply W Unit
  /-- the text of standard input, which is closed after it -/
  drain : W → Reply W Bytes

/-- The name of standard input, which is also its path. -/
def stdinPath : Bytes := ascii "/dev/stdin"

/-! ## Files in memory -/

/-- Files held in memory, with ways to make accesses go wrong. -/
structure MemoryFiles where
  files : Table Bytes
  /-- paths that cannot be written -/
  readonly : List Bytes
  /-- paths whose reading cancels the run -/
  cancelOn : List Bytes
  /-- a message with which every access crashes -/
  crash : Option Bytes
  deriving Inhabited

namespace MemoryFiles

/-- The text of a file, or that there is none. -/
def content (w : MemoryFiles) (path : Bytes) : Access Bytes :=
  match w.files.find? path with
  | some text => .ok text
  | none => .failed ⟨ascii "open " ++ path ++ ascii ": file does not exist", true⟩

/-- Reads a file. -/
def read (w : MemoryFiles) (path : Bytes) : Reply MemoryFiles Bytes :=
  match w.crash with
  | some message => ⟨w, .crashed message, .none⟩
  | none => ⟨w, w.content path, if w.cancelOn.contains path then .cancels else .none⟩

/-- Writes a file, unless it is read-only. -/
def write (w : MemoryFiles) (path text : Bytes) : Reply MemoryFiles Unit :=
  match w.crash with
  | some message => ⟨w, .crashed message, .none⟩
  | none =>
    if w.readonly.contains path then ⟨w, .failed ⟨ascii "write denied", false⟩, .none⟩
    else ⟨{ w with files := w.files.bind path text }, .ok (), .none⟩

/-- Looks whether a file is there. -/
def probe (w : MemoryFiles) (path : Bytes) : Reply MemoryFiles Unit :=
  match w.crash with
  | some message => ⟨w, .crashed message, .none⟩
  | none =>
    match w.content path with
    | .ok _ => ⟨w, .ok (), .none⟩
    | .failed error => ⟨w, .failed error, .none⟩
    | .crashed message => ⟨w, .crashed message, .none⟩

/-- Files in memory come without a text on standard input. -/
instance : FileSystem MemoryFiles := ⟨probe, read, write, fun w => ⟨w, .ok [], .none⟩⟩

end MemoryFiles

end StackScript
