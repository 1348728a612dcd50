import DisksGraph.Runtime.Checkpoint
import DisksGraph.Support.Program

/-!
# Runtime — Store

Descriptor-relative publication and removal of the one active checkpoint (`checkpoint/store.rs`).

An operation is a program over the system calls it makes, in their order; `poisoned` is the only
state of a handle.  A read returns the record of the file it opened, decoded.
-/

namespace DisksGraph

open Support (Effectful)

/-- Identity of a file: its device and inode. -/
structure FileId where
  get : Nat
deriving DecidableEq, Repr

/-- The metadata that the store reads. -/
structure Stat where
  file : FileId
  regular : Bool
  owned : Bool
  mode : Nat
  links : Nat
  size : Nat
deriving DecidableEq, Repr

/-- `renameat2` without replacement tells an occupied name from other errors. -/
inductive RenameError where
  | exist
  | other (message : String)
deriving DecidableEq, Repr

/-- The system calls that answer `io::Result<()>`. -/
inductive IoOperation where
  | fchmod (file : FileId)
  | write (file : FileId) (attempt : ActiveAttempt)
  | syncFile (file : FileId)
  | syncDirectory
  | unlinkTemporary (file : FileId)
  | unlinkActive
deriving DecidableEq

/-- The system calls of a store, relative to the directory of the held lock.  `openActive`,
`statActive`, `rename` and `unlinkActive` are about the name `active-attempt.json`. -/
inductive StoreCall where
  | validate
  | openActive
  | fstat (file : FileId)
  | read (file : FileId)
  | createTemporary
  | rename (file : FileId)
  | statActive
  | io (operation : IoOperation)

/-- What the system answers; an I/O error is its text. -/
def StoreCall.Answer : StoreCall → Type
  | .validate => Except LeaseError Unit
  | .openActive => Except String (Option FileId)
  | .fstat _ | .statActive => Except String Stat
  | .read _ => Except CheckpointError ActiveAttempt
  | .createTemporary => Except String FileId
  | .rename _ => Except RenameError Unit
  | .io _ => Except String Unit

/-- One active checkpoint, usable only while its borrowed host lock remains held. -/
structure CheckpointStore where
  poisoned : Bool := false
deriving DecidableEq

/-- A store operation. -/
abbrev StoreM : Type → Type :=
  Effectful StoreCall StoreCall.Answer CheckpointError CheckpointStore

/-- Makes one call. -/
def StoreCall.ask (call : StoreCall) : StoreM call.Answer := Effectful.ask call

/-- `operation.map_err(io::Error::from)?`. -/
def IoOperation.perform (operation : IoOperation) : StoreM Unit := do
  let answer : Except String Unit ← (StoreCall.io operation).ask
  Effectful.lift .io answer

/-- Rejects objects whose metadata would permit ambiguity or access by another user. -/
def validateFile (info : Stat) : Except CheckpointError Unit :=
  if !info.regular || !info.owned || info.mode &&& 0o7177 != 0 || info.links != 1 then
    .error .invalidFile
  else .ok ()

namespace CheckpointStore

/-- Binds all file operations to the directory of the already-held shared OS lock. -/
def new : CheckpointStore where

/-- `self.lock.validate()?`. -/
def validateLock : StoreM Unit := do
  let answer : Except LeaseError Unit ← StoreCall.validate.ask
  Effectful.lift .lease answer

/-- Retains the opened file identity for the final no-follow check before removal. -/
def readCurrent : StoreM (Option (ActiveAttempt × Stat)) := do
  validateLock
  let opened : Except String (Option FileId) ← StoreCall.openActive.ask
  match ← Effectful.lift .io opened with
  | none => return none
  | some file =>
      let answer : Except String Stat ← (StoreCall.fstat file).ask
      let info ← Effectful.lift .io answer
      Effectful.lift id (validateFile info)
      Effectful.reject (info.size > MAX_CHECKPOINT_BYTES) .tooLarge
      let content : Except CheckpointError ActiveAttempt ← (StoreCall.read file).ask
      let attempt ← Effectful.lift id content
      return some (attempt, info)

/-- Reads a bounded, private regular file; only a missing name counts as no incident. -/
def inspect : StoreM (Option ActiveAttempt) := do
  let current ← readCurrent
  return current.map (·.1)

/-- An uncertain mutation must never be followed by another action on the same store handle. -/
def requireHealthy : StoreM Unit := do
  let store ← get
  Effectful.reject (store.poisoned = true) .poisoned

/-- `self.poisoned.set(true)`. -/
def poison : StoreM Unit := modify fun store => { store with poisoned := true }

/-- Opens a unique staging file. -/
def createTemporary : StoreM FileId := do
  let answer : Except String FileId ← StoreCall.createTemporary.ask
  match answer with
  | .error message => do
      poison
      Effectful.fail (.io message)
  | .ok file => return file

/-- Publishes a staging file under the active name, without replacing one. -/
def rename (file : FileId) : StoreM Unit := do
  let answer : Except RenameError Unit ← (StoreCall.rename file).ask
  match answer with
  | .error .exist => Effectful.fail .alreadyActive
  | .error (.other message) => Effectful.fail (.io message)
  | .ok () => return ()

/-- The closure of `arm`: fills, synchronizes and publishes the staging file. -/
def stage (file : FileId) (attempt : ActiveAttempt) : StoreM Unit := do
  IoOperation.perform (.fchmod file)
  IoOperation.perform (.write file attempt)
  IoOperation.perform (.syncFile file)
  validateLock
  rename file
  IoOperation.perform .syncDirectory

/-- Publishes one fully synchronized checkpoint without ever replacing an active attempt. -/
def arm (encoding : CheckpointEncoding) (attempt : ActiveAttempt) : StoreM Unit := do
  requireHealthy
  let current ← inspect
  Effectful.reject (current.isSome = true) .alreadyActive
  Effectful.lift id (attempt.toBytes encoding)
  let file ← createTemporary
  tryCatch (stage file attempt) fun failure => do
    -- The result of the cleanup is ignored.
    let _ ← (StoreCall.io (.unlinkTemporary file)).ask
    poison
    throw failure

/-- The closure of `clear`: removes the active name and confirms it. -/
def remove : StoreM Unit := do
  validateLock
  IoOperation.perform .unlinkActive
  IoOperation.perform .syncDirectory

/-- Removes only the complete expected attempt and confirms removal with directory fsync. -/
def clear (expected : ActiveAttempt) : StoreM Unit := do
  requireHealthy
  match ← readCurrent with
  | none => Effectful.fail .attemptMismatch
  | some (attempt, original) =>
      Effectful.reject (attempt ≠ expected) .attemptMismatch
      let answer : Except String Stat ← StoreCall.statActive.ask
      let current ← Effectful.lift .io answer
      Effectful.lift id (validateFile current)
      Effectful.reject (original.file ≠ current.file) .invalidFile
      tryCatch remove fun failure => do
        poison
        throw failure

end CheckpointStore

end DisksGraph
