import StackScript.Files
set_option autoImplicit false

/-!
# A disk

A working directory with files and directories in it, somewhere in a larger tree.
Paths are resolved part by part, as an operating system does: every part but the
last must be a directory, `.` and empty parts stay where they are, `..` goes up,
and a path that ends in a slash stands for a directory.

Of the tree around the working directory only this much is known: it lies a few
levels below the root, the root is above itself, and below the root stand the
directories that every system has, with a file that is always empty, one that is
always full, and the three standard streams, each under several names.  Standard
input is a pipe: what is read from it is gone, what is written to it can be read,
and once it is closed it is not there.  The other two are pipes or terminals, not files
that are kept: what is written to one of them is passed on, after what has got there before,
of which nothing is erased.
-/

namespace StackScript

/-- Why an access to a disk fails. -/
inductive DiskError where
  | missing
  | notDirectory
  | isDirectory
  | invalidPath
  | nameTooLong
  | denied
  | noDevice
  | noSpace
  /-- anything else -/
  | broken
  deriving DecidableEq, Repr, Inhabited

/-- The error in words. -/
def DiskError.message : DiskError → Bytes
  | .missing => ascii "no such file or directory"
  | .notDirectory => ascii "not a directory"
  | .isDirectory => ascii "is a directory"
  | .invalidPath => ascii "invalid argument"
  | .nameTooLong => ascii "file name too long"
  | .denied => ascii "permission denied"
  | .noDevice => ascii "no such device or address"
  | .noSpace => ascii "no space left on device"
  | .broken => ascii "input/output error"

/-- The error of an operation on a path. -/
def DiskError.toFileError (operation path : Bytes) (e : DiskError) : FileError :=
  ⟨operation ++ ascii " " ++ path ++ ascii ": " ++ e.message, e = .missing⟩

/-- A working directory: its files by their path from it, and the directories
that were made in it. -/
structure Disk where
  files : Table Bytes
  directories : List Bytes
  /-- what can still be read from standard input, unless it is closed -/
  stdin : Option Bytes
  deriving Inhabited

namespace Disk

/-! ## Places in the tree -/

/-- Where the parts of a path are counted from. -/
inductive Base where
  /-- the directory so many levels above the working directory -/
  | above (levels : Nat)
  /-- the root of the tree -/
  | root
  deriving DecidableEq, Repr, Inhabited

/-- A directory on the way along a path. -/
structure Directory where
  base : Base
  /-- the parts from the base on, last first -/
  parts : List Bytes
  deriving DecidableEq, Repr, Inhabited

/-- The parts of a path joined by slashes. -/
def joinParts (parts : List Bytes) : Bytes := Bytes.join [47] parts

/-- How the paths from a base begin. -/
def Base.start : Base → Bytes
  | .above levels => (List.replicate levels (ascii "../")).flatten
  | .root => ascii "/"

namespace Directory

/-- The path to a directory. -/
def path (dir : Directory) : Bytes := dir.base.start ++ joinParts dir.parts.reverse

/-- What stands in a directory under a name, as if it were a directory. -/
def child (dir : Directory) (name : Bytes) : Directory := { dir with parts := name :: dir.parts }

/-- How many levels below the root the working directory lies. -/
def workingDepth : Nat := 2

/-- The directory above. -/
def parent (dir : Directory) : Directory :=
  match dir.parts, dir.base with
  | _ :: up, base => ⟨base, up⟩
  | [], .above levels =>
    if levels + 1 < workingDepth then ⟨.above (levels + 1), []⟩ else ⟨.root, []⟩
  | [], .root => ⟨.root, []⟩

end Directory

/-- The directories below the root that every system has. -/
def systemDirectories : List Bytes :=
  ["/bin", "/boot", "/dev", "/etc", "/home", "/lib", "/media", "/mnt", "/opt", "/proc",
    "/proc/self", "/proc/self/fd", "/root", "/run", "/sbin", "/srv", "/sys", "/tmp", "/usr",
    "/var"].map ascii

/-- The directory of the standard streams, or a place in it. -/
def streamPlace (inside : List Bytes) : Directory :=
  ⟨.root, inside ++ [ascii "fd", ascii "self", ascii "proc"]⟩

/-- The paths that stand for other places. -/
def links : Entries Directory :=
  [(ascii "/dev/fd", streamPlace []), (stdinPath, streamPlace [ascii "0"]),
    (ascii "/dev/stdout", streamPlace [ascii "1"]), (ascii "/dev/stderr", streamPlace [ascii "2"])]

/-- The place that a place stands for: itself, unless its path is a link. -/
def Directory.target (dir : Directory) : Directory :=
  ((links.find? fun link => link.1 = dir.path).map (·.2)).getD dir

/-- Whether a directory is one in which nothing can be made. -/
def Directory.isSealed (dir : Directory) : Bool :=
  dir.base = .root && dir.parts.getLast? = some (ascii "proc")

/-- What a path leads to. -/
inductive Place where
  | file (path : Bytes)
  | directory (dir : Directory)
  /-- the file that is always empty -/
  | void
  /-- the file to which nothing can be written -/
  | full
  /-- standard input -/
  | pipe
  /-- one of the other standard streams -/
  | channel (channel : Channel)
  /-- nothing, in a directory that is there -/
  | vacant (path : Bytes)
  deriving DecidableEq, Repr, Inhabited

/-! ## Disks -/

/-- The parts of a path, with those left out that lead nowhere. -/
def cleanParts (path : Bytes) : List Bytes :=
  ((Bytes.splitOn 47 path).foldl
    (fun parts part =>
      if part = [] ∨ part = ascii "." then parts
      else if part = ascii ".." then parts.tail
      else part :: parts) []).reverse

/-- The paths to the directories that a file with the given parts needs. -/
def parents (parts : List Bytes) : List Bytes :=
  (List.range parts.length).map fun n => joinParts (parts.take n)

/-- A disk that holds the given files, and the directories that they need, with a
text on standard input. -/
def ofFiles (files : Entries Bytes) (stdin : Bytes) : Disk :=
  ⟨.ofEntries (files.map fun file => (joinParts (cleanParts file.1), file.2)),
    files.flatMap fun file => parents (cleanParts file.1), some stdin⟩

/-- Whether a path stays in the working directory. -/
def isInside (path : Bytes) : Bool :=
  (Bytes.dropStart? (ascii "../") path).isNone && path.head? != some 47

/-- The files in the working directory, in the order of their paths. -/
def listing (d : Disk) : Entries Bytes := d.files.entries.filter fun file => isInside file.1

/-- Whether there is such a directory. -/
def hasDirectory (d : Disk) (dir : Directory) : Bool :=
  dir.parts.isEmpty || d.directories.contains dir.path || systemDirectories.contains dir.path

/-! ## Resolving paths -/

/-- What stands at a path that every system has, if it is such a path. -/
def systemPlace? (d : Disk) (path : Bytes) : Option (Except DiskError Place) :=
  if path = ascii "/dev/null" then some (.ok .void)
  else if path = ascii "/dev/full" then some (.ok .full)
  else if path = ascii "/dev/tty" then some (.error .noDevice)
  else if path = (streamPlace [ascii "0"]).path ∧ d.stdin.isSome then some (.ok .pipe)
  else if path = (streamPlace [ascii "1"]).path then some (.ok (.channel .output))
  else if path = (streamPlace [ascii "2"]).path then some (.ok (.channel .error))
  else none

/-- What one part of a path leads to from a directory. -/
def enter (d : Disk) (dir : Directory) (part : Bytes) : Except DiskError Place :=
  if part = ascii "." then .ok (.directory dir)
  else if part = ascii ".." then .ok (.directory dir.parent)
  else if 255 < part.length then .error .nameTooLong
  else
    let inner := (dir.child part).target
    if d.hasDirectory inner then .ok (.directory inner)
    else
      match d.systemPlace? inner.path, d.files.find? inner.path with
      | some place, _ => place
      | none, some _ => .ok (.file inner.path)
      | none, none => if inner.isSealed then .error .missing else .ok (.vacant inner.path)

/-- What the parts of a path lead to from a directory. -/
def follow (d : Disk) (dir : Directory) : List Bytes → Except DiskError Place
  | [] => .ok (.directory dir)
  | part :: rest =>
    match d.enter dir part with
    | .error e => .error e
    | .ok (.directory inner) => d.follow inner rest
    | .ok place =>
      match rest, place with
      | [], _ => .ok place
      | _ :: _, .vacant _ => .error .missing
      | _ :: _, _ => .error .notDirectory

/-- The directory that a path starts from. -/
def origin (path : Bytes) : Directory :=
  if path.head? = some 47 then ⟨.root, []⟩ else ⟨.above 0, []⟩

/-- The parts of a path that are not empty. -/
def partsOf (path : Bytes) : List Bytes := (Bytes.splitOn 47 path).filter fun part => part ≠ []

/-- Whether a path ends in a slash. -/
def endsInSlash (path : Bytes) : Bool := path.getLast? == some 47

/-- What a path leads to by the given parts, if the path as such can be used. -/
def resolve (d : Disk) (path : Bytes) (parts : List Bytes) : Except DiskError Place :=
  if path.contains 0 then .error .invalidPath
  else if 4095 < path.length then .error .nameTooLong
  else if path.isEmpty then .error .missing
  else d.follow (origin path) parts

/-- What a path to read from leads to.  After a slash it must be a directory. -/
def resolveRead (d : Disk) (path : Bytes) : Except DiskError Place :=
  match d.resolve path (partsOf path) with
  | .error e => .error e
  | .ok (.vacant _) => .error .missing
  | .ok (.directory dir) => .ok (.directory dir)
  | .ok place => if endsInSlash path then .error .notDirectory else .ok place

/-- What a path to write to leads to.  After a slash its last part counts for a
directory, whatever stands there. -/
def resolveWrite (d : Disk) (path : Bytes) : Except DiskError Place :=
  let parts := partsOf path
  d.resolve path (if endsInSlash path then parts.dropLast ++ [ascii "."] else parts)

/-! ## Access -/

/-- Whether a path can be opened for reading.  A directory can. -/
def probe (d : Disk) (path : Bytes) : Except FileError Place :=
  match d.resolveRead path with
  | .ok place => .ok place
  | .error e => .error (e.toFileError (ascii "open") path)

/-- The text of the file at a path. -/
def read (d : Disk) (path : Bytes) : Except FileError Bytes :=
  match d.probe path with
  | .ok (.file place) => .ok ((d.files.find? place).getD [])
  | .ok (.directory _) => .error (DiskError.isDirectory.toFileError (ascii "read") path)
  | .ok .pipe => .ok (d.stdin.getD [])
  | .ok _ => .ok []
  | .error e => .error e

/-- The disk after the file at a path was read, which empties standard input. -/
def afterRead (d : Disk) (path : Bytes) : Disk :=
  match d.probe path with
  | .ok .pipe => { d with stdin := some [] }
  | _ => d

/-- The disk with a text as the content of the file at a path, and where the text
goes besides.  What a file held is replaced; a pipe, and with it standard output, only has
the text added. -/
def write (d : Disk) (path text : Bytes) : Except FileError (Disk × Effect) :=
  match d.resolveWrite path with
  | .ok (.file place) => .ok ({ d with files := d.files.bind place text }, .none)
  | .ok (.vacant place) => .ok ({ d with files := d.files.bind place text }, .none)
  | .ok .void => .ok (d, .none)
  | .ok .full => .error (DiskError.noSpace.toFileError (ascii "write") path)
  | .ok .pipe => .ok ({ d with stdin := d.stdin.map (· ++ text) }, .none)
  | .ok (.channel channel) => .ok (d, .echoes channel text)
  | .ok (.directory _) => .error (DiskError.isDirectory.toFileError (ascii "open") path)
  | .error e => .error (e.toFileError (ascii "open") path)

/-- The reply to an access that leaves the disk as it is. -/
def reply {α : Type} (d : Disk) : Except FileError α → Reply Disk α
  | .ok a => ⟨d, .ok a, .none⟩
  | .error e => ⟨d, .failed e, .none⟩

instance : FileSystem Disk where
  probe d path := d.reply ((d.probe path).map fun _ => ())
  read d path := (d.afterRead path).reply (d.read path)
  write d path text :=
    match d.write path text with
    | .ok (d, effect) => ⟨d, .ok (), effect⟩
    | .error e => ⟨d, .failed e, .none⟩
  drain d := ⟨{ d with stdin := none }, .ok (d.stdin.getD []), .none⟩

end Disk

end StackScript
