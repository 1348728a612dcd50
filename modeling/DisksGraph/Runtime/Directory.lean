import DisksGraph.Runtime.Store
import Mathlib.Logic.Function.Basic

/-!
# Runtime — Directory

The private directory that the checkpoint store works on, and what the store does to it.

The directory has one active name.  A rename without replacement publishes a staging file under it,
an unlink removes it, and both are atomic; a call that fails may still have taken effect.  Until the
directory has been synchronized, a power failure may bring back an earlier entry: `recoverable` has
the entries that it may leave.

* `Directory.Serves`: what the system does on a call, and what it may answer.
* `Directory.Holds`: the active file has an attempt, and a power failure leaves it there.
* `inspect_ends`, `arm_ends`, `clear_ends`: the specification of each operation, at every call.
-/

namespace DisksGraph

open Support (Effectful Failure Program)

/-- A file under the active name: its identity and its record, if it is a complete one. -/
abbrev ActiveEntry : Type := FileId × Option ActiveAttempt

/-- The directory of the host lock. -/
structure Directory where
  active : Option ActiveEntry
  staged : FileId → Option ActiveAttempt
  recoverable : List (Option ActiveEntry)

namespace Directory

/-- The attempt in the active file. -/
def content (directory : Directory) : Option ActiveAttempt := directory.active.bind (·.2)

/-- A staging file becomes the active one. -/
def publish (directory : Directory) (file : FileId) : Directory :=
  { directory with
    active := some (file, directory.staged file)
    recoverable := some (file, directory.staged file) :: directory.recoverable }

/-- The active name is removed. -/
def remove (directory : Directory) : Directory :=
  { directory with active := none, recoverable := none :: directory.recoverable }

/-- The current entry is the only one that a power failure leaves. -/
def sync (directory : Directory) : Directory :=
  { directory with recoverable := [directory.active] }

/-- The record of a staging file. -/
def stage (directory : Directory) (file : FileId) (record : Option ActiveAttempt) : Directory :=
  { directory with staged := Function.update directory.staged file record }

/-- `directory'` is `directory` after a call that may have failed before or after its effect. -/
def Attempts (directory effect directory' : Directory) : Except String Unit → Prop
  | .ok () => directory' = effect
  | .error _ => directory' = directory ∨ directory' = effect

/-- What the system does on a call.  It may fail at any time; an answer without an error is true of
the directory. -/
def Serves (directory : Directory) : (call : StoreCall) → call.Answer → Directory → Prop
  | .validate, _, directory' => directory' = directory
  | .openActive, answer, directory' => directory' = directory ∧
      ∀ found, (answer : Except String (Option FileId)) = .ok found →
        found = directory.active.map (·.1)
  | .fstat file, answer, directory' => directory' = directory ∧
      ∀ info, (answer : Except String Stat) = .ok info → info.file = file
  | .read file, answer, directory' => directory' = directory ∧
      ∀ attempt, (answer : Except CheckpointError ActiveAttempt) = .ok attempt →
        ∀ record, directory.active = some (file, record) → record = some attempt
  | .createTemporary, answer, directory' =>
      match (answer : Except String FileId) with
      | .ok file => directory' = directory.stage file none ∧
          directory.active.map (·.1) ≠ some file
      | .error _ => directory' = directory
  | .rename file, answer, directory' =>
      match (answer : Except RenameError Unit) with
      | .ok () => directory.active = none ∧ directory' = directory.publish file
      | .error .exist => directory.active ≠ none ∧ directory' = directory
      | .error (.other _) => directory' = directory ∨
          directory.active = none ∧ directory' = directory.publish file
  | .statActive, answer, directory' => directory' = directory ∧
      ∀ info, (answer : Except String Stat) = .ok info →
        directory.active.map (·.1) = some info.file
  | .io (.fchmod _), _, directory' | .io (.syncFile _), _, directory' => directory' = directory
  | .io (.write file attempt), answer, directory' =>
      match (answer : Except String Unit) with
      | .ok () => directory' = directory.stage file (some attempt)
      | .error _ => ∃ record, directory' = directory.stage file record
  | .io .syncDirectory, answer, directory' => directory.Attempts directory.sync directory' answer
  | .io (.unlinkTemporary file), answer, directory' =>
      directory.Attempts (directory.stage file none) directory' answer
  | .io .unlinkActive, answer, directory' =>
      directory.Attempts directory.remove directory' answer

/-- A power failure leaves one of the recoverable entries. -/
def Recovers (directory directory' : Directory) : Prop :=
  ∃ entry ∈ directory.active :: directory.recoverable,
    directory'.active = entry ∧ directory'.recoverable = [entry]

/-- The active file has the attempt, and a power failure leaves it there. -/
structure Holds (directory : Directory) (attempt : ActiveAttempt) : Prop where
  active : directory.content = some attempt
  durable : ∀ entry ∈ directory.recoverable, entry = directory.active

section Holds

variable {directory directory' : Directory} {attempt : ActiveAttempt}

theorem content_eq_some : directory.content = some attempt ↔
    ∃ file, directory.active = some (file, some attempt) := by
  rw [content, Option.bind_eq_some_iff]
  constructor
  · rintro ⟨⟨file, record⟩, hactive, rfl⟩
    exact ⟨file, hactive⟩
  · rintro ⟨file, hactive⟩
    exact ⟨_, hactive, rfl⟩

theorem active_ne_none (h : directory.content = some attempt) : directory.active ≠ none := by
  obtain ⟨file, hactive⟩ := content_eq_some.mp h
  rw [hactive]
  exact nofun

/-- A frame: the entries are what a step of the store leaves alone. -/
theorem Holds.of_eq (h : directory.Holds attempt) (hactive : directory'.active = directory.active)
    (hrecoverable : ∀ entry ∈ directory'.recoverable,
      entry ∈ directory.recoverable ∨ entry = directory'.active) :
    directory'.Holds attempt where
  active := by rw [content, hactive]; exact h.active
  durable entry hentry := by
    rcases hrecoverable entry hentry with hold | hold
    · rw [hactive, h.durable entry hold]
    · exact hold

theorem Holds.recovers (h : directory.Holds attempt) (hrecovers : directory.Recovers directory') :
    directory'.Holds attempt := by
  obtain ⟨entry, hentry, hactive, hrecoverable⟩ := hrecovers
  have hsame : entry = directory.active := by
    rcases List.mem_cons.mp hentry with rfl | hentry
    · rfl
    · exact h.durable entry hentry
  refine ⟨by rw [content, hactive, hsame]; exact h.active, ?_⟩
  intro other hother
  rw [hrecoverable] at hother
  rw [hactive, List.mem_singleton.mp hother]

/-- **Only an unlink of the active name takes the active file away**: nothing replaces it. -/
theorem Serves.active {call : StoreCall} {answer : call.Answer}
    (h : directory.Serves call answer directory') (hactive : directory.active ≠ none)
    (hcall : call ≠ .io .unlinkActive) :
    directory'.active = directory.active ∧ ∀ entry ∈ directory'.recoverable,
      entry ∈ directory.recoverable ∨ entry = directory'.active := by
  -- A call leaves the directory, stages a temporary file, or makes the names durable.
  have hsame : directory' = directory → directory'.active = directory.active ∧
      ∀ entry ∈ directory'.recoverable, entry ∈ directory.recoverable ∨
        entry = directory'.active := by
    rintro rfl
    exact ⟨rfl, fun _ => .inl⟩
  have hstage : ∀ file record, directory' = directory.stage file record →
      directory'.active = directory.active ∧ ∀ entry ∈ directory'.recoverable,
        entry ∈ directory.recoverable ∨ entry = directory'.active := by
    rintro file record rfl
    exact ⟨rfl, fun _ => .inl⟩
  have hsync : directory' = directory.sync → directory'.active = directory.active ∧
      ∀ entry ∈ directory'.recoverable, entry ∈ directory.recoverable ∨
        entry = directory'.active := by
    rintro rfl
    exact ⟨rfl, fun entry hentry => .inr (List.mem_singleton.mp hentry)⟩
  cases call with
  | validate => exact hsame h
  | openActive => exact hsame h.1
  | fstat file => exact hsame h.1
  | read file => exact hsame h.1
  | statActive => exact hsame h.1
  | createTemporary =>
      match answer, h with
      | .ok file, h => exact hstage _ _ h.1
      | .error _, h => exact hsame h
  | rename file =>
      match answer, h with
      | .ok (), h => exact absurd h.1 hactive
      | .error .exist, h => exact hsame h.2
      -- A rename that reports an error may still have happened.
      | .error (.other _), .inl h => exact hsame h
      | .error (.other _), .inr h => exact absurd h.1 hactive
  | io operation =>
      cases operation with
      | fchmod file => exact hsame h
      | syncFile file => exact hsame h
      | write file record =>
          match answer, h with
          | .ok (), h => exact hstage _ _ h
          | .error _, ⟨_, h⟩ => exact hstage _ _ h
      | syncDirectory =>
          match answer, h with
          | .ok (), h => exact hsync h
          | .error _, .inl h => exact hsame h
          | .error _, .inr h => exact hsync h
      | unlinkTemporary file =>
          match answer, h with
          | .ok (), h => exact hstage _ _ h
          | .error _, .inl h => exact hsame h
          | .error _, .inr h => exact hstage _ _ h
      | unlinkActive => exact absurd rfl hcall

/-- Only unlinking the file gives the attempt up. -/
theorem Holds.serves (h : directory.Holds attempt) {call : StoreCall} {answer : call.Answer}
    (hserves : directory.Serves call answer directory') (hcall : call ≠ .io .unlinkActive) :
    directory'.Holds attempt := by
  obtain ⟨hactive, hrecoverable⟩ := hserves.active (active_ne_none h.active) hcall
  exact h.of_eq hactive hrecoverable

/-- A file that is still there is as safe as before. -/
theorem Holds.kept (h : directory.Holds attempt) {call : StoreCall} {answer : call.Answer}
    (hserves : directory.Serves call answer directory')
    (hcontent : directory'.content = some attempt) : directory'.Holds attempt := by
  by_cases hcall : call = .io .unlinkActive
  · subst hcall
    have hremoved : directory' ≠ directory.remove := by
      rintro rfl
      cases hcontent
    match answer, hserves with
    | .ok (), hserves => exact absurd hserves hremoved
    | .error _, .inl hserves => exact hserves ▸ h
    | .error _, .inr hserves => exact absurd hserves hremoved
  · exact h.serves hserves hcall

end Holds

/-! ### A system without faults -/

/-- The metadata of a private file. -/
def privateFile (file : FileId) : Stat where
  file
  regular := true
  owned := true
  mode := 0o600
  links := 1
  size := 1

/-- A system where every call succeeds that can. -/
def serve (directory : Directory) : (call : StoreCall) → call.Answer × Directory
  | .validate => (.ok (), directory)
  | .openActive => (.ok (directory.active.map (·.1)), directory)
  | .fstat file => (.ok (privateFile file), directory)
  | .read _ =>
      match directory.active with
      | some (_, some attempt) => (.ok attempt, directory)
      | _ => (.error .invalidFile, directory)
  | .createTemporary =>
      let file : FileId := ⟨directory.active.elim 0 fun entry => entry.1.get + 1⟩
      (.ok file, directory.stage file none)
  | .rename file =>
      match directory.active with
      | none => (.ok (), directory.publish file)
      | some _ => (.error .exist, directory)
  | .statActive =>
      match directory.active with
      | some (file, _) => (.ok (privateFile file), directory)
      | none => (.error "No such file or directory", directory)
  | .io (.fchmod _) | .io (.syncFile _) => (.ok (), directory)
  | .io (.write file attempt) => (.ok (), directory.stage file (some attempt))
  | .io .syncDirectory => (.ok (), directory.sync)
  | .io (.unlinkTemporary file) => (.ok (), directory.stage file none)
  | .io .unlinkActive => (.ok (), directory.remove)

/-- It does what is asked of a system. -/
theorem serve_serves (directory : Directory) (call : StoreCall) :
    directory.Serves call (directory.serve call).1 (directory.serve call).2 := by
  obtain ⟨active, staged, recoverable⟩ := directory
  cases call with
  | validate => exact rfl
  | openActive => exact ⟨rfl, fun _ h => (Except.ok.inj h).symm⟩
  | fstat file => exact ⟨rfl, fun _ h => congrArg Stat.file (Except.ok.inj h).symm⟩
  | read file =>
      match active with
      | none =>
          refine ⟨rfl, fun _ h => ?_⟩
          cases h
      | some (_, none) =>
          refine ⟨rfl, fun _ h => ?_⟩
          cases h
      | some (_, some attempt) =>
          refine ⟨rfl, fun found h record hactive => ?_⟩
          obtain rfl := Except.ok.inj h
          exact (Prod.mk.inj (Option.some.inj hactive)).2.symm
  | createTemporary =>
      refine ⟨rfl, ?_⟩
      match active with
      | none => exact Option.some_ne_none _ ∘ Eq.symm
      | some (file, _) =>
          intro h
          have hget : file.get = file.get + 1 := congrArg FileId.get (Option.some.inj h)
          omega
  | rename file =>
      match active with
      | none => exact ⟨rfl, rfl⟩
      | some entry => exact ⟨Option.some_ne_none entry, rfl⟩
  | statActive =>
      match active with
      | none =>
          refine ⟨rfl, fun _ h => ?_⟩
          cases h
      | some (file, _) =>
          refine ⟨rfl, fun info h => ?_⟩
          obtain rfl : privateFile file = info := Except.ok.inj h
          rfl
  | io operation => cases operation <;> exact rfl

end Directory

/-! ### The operations of the store -/

/-- The active name is unlinked only while it has the attempt that is to be cleared. -/
def StoreAllows (expected : Option ActiveAttempt) (directory : Directory) : StoreCall → Prop
  | .io .unlinkActive => ∃ attempt, expected = some attempt ∧ directory.content = some attempt
  | _ => True

/-- Every call is allowed; the operation returns in `Q` or fails in `E`. -/
abbrev StoreM.Ends {α : Type} (expected : Option ActiveAttempt) (Q : α → Directory → Prop)
    (E : Directory → Prop) (x : StoreM α) (store : CheckpointStore) (directory : Directory) : Prop :=
  Effectful.Ends (StoreAllows expected) Directory.Serves (fun a _ => Q a) (fun _ => E) x store
    directory

namespace CheckpointStore

open StoreM (Ends)

section Operations

variable {expected : Option ActiveAttempt} {store : CheckpointStore} {directory : Directory}

theorem validateLock_ends :
    Ends expected (fun _ directory' => directory' = directory)
      (fun directory' => directory' = directory) validateLock store directory := by
  refine .bind_ask StoreCall.validate trivial ?_
  rintro answer _ rfl
  exact .lift rfl fun _ _ => rfl

/-- A read changes nothing, and returns what the directory has under the active name. -/
theorem readCurrent_ends :
    Ends expected (fun found directory' => directory' = directory ∧
        found.map (·.1) = directory.content)
      (fun directory' => directory' = directory) readCurrent store directory := by
  refine .bind validateLock_ends ?_
  rintro _ store directory rfl
  refine .bind_ask StoreCall.openActive trivial ?_
  rintro answer directory ⟨rfl, hopened⟩
  refine .bind_lift rfl fun found hok => ?_
  have hactive := hopened found hok
  cases found with
  | none =>
      have hnone : directory.active = none := Option.map_eq_none_iff.mp hactive.symm
      exact ⟨rfl, by rw [Directory.content, hnone]; rfl⟩
  | some file =>
      obtain ⟨⟨_, record⟩, hentry, rfl⟩ := Option.map_eq_some_iff.mp hactive.symm
      refine .bind_ask (StoreCall.fstat _) trivial ?_
      rintro answer _ ⟨rfl, -⟩
      refine .bind_lift rfl fun info _ => .bind_lift rfl fun _ _ => .bind_reject (fun _ => rfl) ?_
      intro _
      refine .bind_ask (StoreCall.read _) trivial ?_
      rintro content _ ⟨rfl, hread⟩
      refine .bind_lift rfl fun attempt hattempt => ⟨rfl, ?_⟩
      rw [Directory.content, hentry, Option.bind_some, hread attempt hattempt record hentry]
      rfl

/-- Inspection finds what the directory holds and changes nothing. -/
theorem inspect_ends :
    Ends expected (fun found directory' => directory' = directory ∧ found = directory.content)
      (fun directory' => directory' = directory) inspect store directory :=
  .bind readCurrent_ends fun _ _ _ h => h

theorem requireHealthy_ends :
    Ends expected (fun _ directory' => directory' = directory)
      (fun directory' => directory' = directory) requireHealthy store directory :=
  .bind_get (.reject (fun _ => rfl) fun _ => rfl)

/-- A call whose result is known by what it does when it succeeds. -/
theorem perform_ends {operation : IoOperation} {P : Directory → Prop}
    (hallowed : StoreAllows expected directory (.io operation))
    (h : ∀ directory', directory.Serves (.io operation) (.ok ()) directory' → P directory') :
    Ends expected (fun _ => P) (fun _ => True) operation.perform store directory := by
  refine .bind_ask (StoreCall.io operation) hallowed fun answer directory' hserves => ?_
  refine .lift trivial fun _ hok => ?_
  obtain rfl : answer = .ok () := hok
  exact h directory' hserves

/-- A published staging file is the active one, and stays it over a power failure. -/
theorem stage_ends {file : FileId} {attempt : ActiveAttempt} :
    Ends expected (fun _ directory => directory.Holds attempt) (fun _ => True)
      (stage file attempt) store directory := by
  have hstaged : ∀ {record : Option ActiveAttempt} {directory : Directory},
      (directory.stage file record).staged file = record := Function.update_self _ _ _
  refine .bind (perform_ends (P := fun _ => True) trivial fun _ _ => trivial) fun _ store _ _ => ?_
  refine .bind (perform_ends (P := fun directory => directory.staged file = some attempt) trivial
    fun _ h => h ▸ hstaged) fun _ store directory hfile => ?_
  refine .bind (perform_ends (P := fun directory => directory.staged file = some attempt) trivial
    fun _ h => h ▸ hfile) fun _ store directory hfile => ?_
  refine .bind (.mono validateLock_ends (fun _ _ _ h => h) fun _ _ _ => trivial) ?_
  rintro _ store directory rfl
  refine .bind (Q := fun _ _ directory => directory.content = some attempt) ?_ ?_
  · refine .bind_ask (StoreCall.rename file) trivial fun answer directory' hserves => ?_
    match answer, hserves with
    | .ok (), ⟨_, hpublish⟩ =>
        rw [hpublish]
        exact hfile
    | .error .exist, _ => trivial
    | .error (.other _), _ => trivial
  · intro _ store directory hcontent
    refine perform_ends trivial ?_
    rintro _ rfl
    exact ⟨hcontent, fun entry hentry => List.mem_singleton.mp hentry⟩

/-- An acknowledged `arm` leaves its attempt in the active file. -/
theorem arm_ends {encoding : CheckpointEncoding} {attempt : ActiveAttempt} :
    Ends expected (fun _ directory => directory.Holds attempt) (fun _ => True)
      (arm encoding attempt) store directory := by
  refine .bind (.mono requireHealthy_ends (fun _ _ _ h => h) fun _ _ _ => trivial) ?_
  rintro _ store _ rfl
  refine .bind (.mono inspect_ends (fun _ _ _ h => h) fun _ _ _ => trivial) ?_
  rintro current store _ ⟨rfl, -⟩
  refine .bind_reject (fun _ => trivial) fun _ => .bind_lift trivial fun _ _ => ?_
  refine .bind (Q := fun _ _ _ => True) ?_ fun file store directory _ => ?_
  · refine .bind_ask StoreCall.createTemporary trivial fun answer directory' _ => ?_
    match answer with
    | .ok file => trivial
    | .error message => trivial
  · refine .tryCatch stage_ends fun failure store directory _ => ?_
    exact .bind_ask (StoreCall.io (.unlinkTemporary file)) trivial fun _ _ _ => trivial

/-- The attempt that is there may be removed. -/
theorem remove_ends {attempt : ActiveAttempt} (h : directory.content = some attempt) :
    Ends (some attempt) (fun _ _ => True) (fun _ => True) remove store directory := by
  refine .bind (.mono validateLock_ends (fun _ _ _ h => h) fun _ _ _ => trivial) ?_
  rintro _ store _ rfl
  refine .bind (perform_ends (P := fun _ => True) ⟨attempt, rfl, h⟩ fun _ _ => trivial) ?_
  exact fun _ _ _ _ => perform_ends trivial fun _ _ => trivial

/-- A `clear` unlinks the active file only while it has the expected attempt. -/
theorem clear_ends {attempt : ActiveAttempt} :
    Ends (some attempt) (fun _ _ => True) (fun _ => True) (clear attempt) store directory := by
  refine .bind (.mono requireHealthy_ends (fun _ _ _ h => h) fun _ _ _ => trivial) ?_
  rintro _ store _ rfl
  refine .bind (.mono readCurrent_ends (fun _ _ _ h => h) fun _ _ _ => trivial) ?_
  rintro (_ | ⟨found, original⟩) store directory ⟨rfl, hcontent⟩
  · exact .fail trivial
  refine .bind_reject (fun _ => trivial) fun hfound => ?_
  obtain rfl : found = attempt := not_not.mp hfound
  refine .bind_ask StoreCall.statActive trivial ?_
  rintro answer directory ⟨rfl, -⟩
  refine .bind_lift trivial fun _ _ => .bind_lift trivial fun _ _ => ?_
  refine .bind_reject (fun _ => trivial) fun _ => ?_
  exact .tryCatch (remove_ends hcontent.symm) fun _ _ _ _ => trivial

end Operations

end CheckpointStore

end DisksGraph
