import StackScript.Files.Disk
set_option autoImplicit false

/-!
# Recorded accesses

The files of a world that answers slowly are known only by the answers it has
given.  A run over a record takes them in order, and at the first access without
an answer it stops and says what it asked for.  Once that access has been made and
its answer recorded, the run can be repeated and goes one access further.  No
access is made twice, since a repeated run takes the recorded answer instead.

The standard streams need no answers where their paths tell what they are: what is
written to the output or to the error stream is passed on, as to a pipe or a terminal,
and once standard input was drained it is not there.
-/

namespace StackScript

/-- An access that has to be made. -/
inductive Request where
  | probe (path : Bytes)
  | read (path : Bytes)
  | write (path text : Bytes)
  /-- standard input to its end -/
  | drain
  deriving DecidableEq, Repr, Inhabited

/-- The answers to accesses, as far as they are known. -/
structure Record where
  /-- the answers not yet taken, in order; only a read is answered by a text -/
  answers : List (Except FileError Bytes)
  /-- the access that has no answer yet -/
  pending : Option Request
  /-- whether standard input was drained -/
  drained : Bool
  deriving Inhabited

namespace Record

/-- A record of answers of which none has been taken. -/
def ofAnswers (answers : List (Except FileError Bytes)) : Record :=
  ⟨answers, none, false⟩

/-- The reply to an access: the next answer, or a stop that leaves the access
pending. -/
def reply (r : Record) (request : Request) : Reply Record Bytes :=
  match r.pending, r.answers with
  | none, .ok text :: rest => ⟨{ r with answers := rest }, .ok text, .none⟩
  | none, .error error :: rest => ⟨{ r with answers := rest }, .failed error, .none⟩
  | none, [] => ⟨{ r with pending := some request }, .crashed (ascii "access pending"), .none⟩
  | some _, _ => ⟨r, .crashed (ascii "access pending"), .none⟩

/-- A reply without its text. -/
def withoutText (reply : Reply Record Bytes) : Reply Record Unit :=
  match reply.access with
  | .ok _ => ⟨reply.world, .ok (), reply.effect⟩
  | .failed error => ⟨reply.world, .failed error, reply.effect⟩
  | .crashed message => ⟨reply.world, .crashed message, reply.effect⟩

/-- What stands at a path, if it starts at the root and leads to a standard
stream. -/
def streamAt? (path : Bytes) : Option Disk.Place :=
  if path.head? = some 47 then
    match (Disk.ofFiles [] []).resolveWrite path with
    | .ok .pipe => some .pipe
    | .ok (.channel channel) => some (.channel channel)
    | _ => none
  else none

/-- The reply to opening a path: a failure if it leads to standard input after
that was drained, or else as given. -/
def opening {α : Type} (r : Record) (path : Bytes) (reply : Reply Record α) : Reply Record α :=
  if r.drained ∧ streamAt? path = some .pipe then
    ⟨r, .failed (DiskError.missing.toFileError (ascii "open") path), .none⟩
  else reply

instance : FileSystem Record where
  probe r path := r.opening path (withoutText (r.reply (.probe path)))
  read r path := r.opening path (r.reply (.read path))
  write r path text :=
    match streamAt? path with
    | some (.channel channel) => ⟨r, .ok (), .echoes channel text⟩
    | _ => r.opening path (withoutText (r.reply (.write path text)))
  drain r := { r with drained := true }.reply .drain

end Record

end StackScript
