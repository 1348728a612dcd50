import DisksGraph.Support.Machine
import DisksGraph.Transport.Context
import Mathlib.Data.Finset.Insert

/-!
# Transport — Registry

The process-wide registry of contexts (`disksgraph-ffi/src/registry.rs`): `open`, `call` and `close`
from any number of threads, in any interleaving with the workers.

* `Caller`: how far one call of an exported function has come.
* `Registry`: the slot counter, the two identity counters, the lookup and the entries.
* `RegistryStep`: one access to shared state at a time.
* `transport`: the machine.
-/

namespace DisksGraph

open Support (Machine)

/-- Bound on contexts, including those that are still opening or closing. -/
def MAX_CONTEXTS : Nat := 32

/-- The exported functions with their arguments. -/
inductive Invocation where
  | opens (config : String)
  | calls (context : Nat) (input : String)
  | closes (context : Nat)

/-- How far a call has come.  `found`, `removed`, `inside` and `dropping` hold a reference to the
entry; `inside` holds its guard, or owns it alone. -/
inductive Caller (Value : Type) where
  | idle
  | opening (config : String)
  | reserved (live : Bool)
  | numbered (context : Nat) (live : Bool)
  | looking (context : Nat) (input : String)
  | found (context : Nat) (input : String)
  | closing (context : Nat)
  | removed (context : Nat)
  | inside (context : Nat)
  | dropping (context : Nat) (outcome : Outcome Value)
  | returning (outcome : Outcome Value)
  | returned (outcome : Outcome Value)

namespace Caller

variable {Value : Type}

/-- Where an exported function begins. -/
def enter : Invocation → Caller Value
  | .opens config => .opening config
  | .calls context input => .looking context input
  | .closes context => .closing context

/-- The entry that a call refers to. -/
def refers : Caller Value → Option Nat
  | .found context _ | .removed context | .inside context | .dropping context _ => some context
  | _ => none

/-- A call that holds a slot which belongs to no context yet. -/
def reserves : Caller Value → Bool
  | .reserved _ | .numbered .. => true
  | _ => false

end Caller

/-- The shared state of the transport, and the calls.  An entry that was dropped is gone. -/
structure Registry (Value : Type) where
  slots : Nat := 0
  nextContext : Nat := 1
  nextJob : Nat := 1
  contexts : Finset Nat := ∅
  entries : Nat → Option (Context Value) := fun _ => none
  calls : Nat → Caller Value := fun _ => .idle

/-- What the transport shows. -/
inductive RegistryEvent (Value : Type) where
  | internal
  | began (call : Nat) (invocation : Invocation)
  | context (id : Nat) (event : ContextEvent Value)
  | returned (call : Nat) (outcome : Outcome Value)

namespace Registry

variable {Value : Type}

/-- A call moves on. -/
def move (registry : Registry Value) (call : Nat) (caller : Caller Value) : Registry Value :=
  { registry with calls := Function.update registry.calls call caller }

/-- An entry changes. -/
def store (registry : Registry Value) (id : Nat) (context : Option (Context Value)) :
    Registry Value :=
  { registry with entries := Function.update registry.entries id context }

/-- No other call and not the lookup refer to the entry. -/
def Last (registry : Registry Value) (call id : Nat) : Prop :=
  id ∉ registry.contexts ∧ ∀ other, other ≠ call → (registry.calls other).refers ≠ some id

end Registry

/-! ### Moves and stores -/

namespace Registry

section Fields

variable {Value : Type} (registry : Registry Value) (call id : Nat)

/-- The callers after one moves. -/
@[simp] theorem move_calls (caller : Caller Value) (other : Nat) :
    (registry.move call caller).calls other =
      if other = call then caller else registry.calls other :=
  Function.update_apply ..

@[simp] theorem move_entries (caller : Caller Value) :
    (registry.move call caller).entries = registry.entries := rfl

@[simp] theorem move_contexts (caller : Caller Value) :
    (registry.move call caller).contexts = registry.contexts := rfl

@[simp] theorem move_slots (caller : Caller Value) :
    (registry.move call caller).slots = registry.slots := rfl

@[simp] theorem move_nextContext (caller : Caller Value) :
    (registry.move call caller).nextContext = registry.nextContext := rfl

/-- The contexts after one is stored. -/
@[simp] theorem store_entries (context : Option (Context Value)) (other : Nat) :
    (registry.store id context).entries other =
      if other = id then context else registry.entries other :=
  Function.update_apply ..

@[simp] theorem store_calls (context : Option (Context Value)) :
    (registry.store id context).calls = registry.calls := rfl

@[simp] theorem store_contexts (context : Option (Context Value)) :
    (registry.store id context).contexts = registry.contexts := rfl

@[simp] theorem store_slots (context : Option (Context Value)) :
    (registry.store id context).slots = registry.slots := rfl

@[simp] theorem store_nextContext (context : Option (Context Value)) :
    (registry.store id context).nextContext = registry.nextContext := rfl

@[simp] theorem store_nextJob (context : Option (Context Value)) :
    (registry.store id context).nextJob = registry.nextJob := rfl

@[simp] theorem move_nextJob (caller : Caller Value) :
    (registry.move call caller).nextJob = registry.nextJob := rfl

/-- Where a call that moves on has come to. -/
theorem move_self (caller : Caller Value) : (registry.move call caller).calls call = caller :=
  Function.update_self ..

/-- The entry that has changed. -/
theorem store_self (context : Option (Context Value)) :
    (registry.store id context).entries id = context :=
  Function.update_self ..

end Fields

end Registry

/-! ### Steps -/

/-- One step of the transport. -/
inductive RegistryStep {Value : Type} (text : TransportJson Value) :
    Registry Value → RegistryEvent Value → Registry Value → Prop where
  | begin {registry : Registry Value} {call : Nat} (invocation : Invocation)
      (hcall : registry.calls call = .idle) :
      RegistryStep text registry (.began call invocation)
        (registry.move call (.enter invocation))
  | misconfigured {registry : Registry Value} {call : Nat} {input : String}
      {error : TransportError} (hcall : registry.calls call = .opening input)
      (hconfig : Config.read text.library input = .error error) :
      RegistryStep text registry .internal (registry.move call (.returning (.error error)))
  | reserve {registry : Registry Value} {call : Nat} {input : String} {config : Config}
      (hcall : registry.calls call = .opening input)
      (hconfig : Config.read text.library input = .ok config)
      (hslots : registry.slots < MAX_CONTEXTS) :
      RegistryStep text registry .internal
        ({ registry with slots := registry.slots + 1 }.move call (.reserved config.live))
  | full {registry : Registry Value} {call : Nat} {input : String} {config : Config}
      (hcall : registry.calls call = .opening input)
      (hconfig : Config.read text.library input = .ok config)
      (hslots : ¬registry.slots < MAX_CONTEXTS) :
      RegistryStep text registry .internal (registry.move call (.returning (.error .resourceLimit)))
  | number {registry : Registry Value} {call next : Nat} {live : Bool}
      (hcall : registry.calls call = .reserved live)
      (hnext : checkedAdd registry.nextContext 1 = some next) :
      RegistryStep text registry .internal
        ({ registry with nextContext := next }.move call
          (.numbered registry.nextContext live))
  | exhausted {registry : Registry Value} {call : Nat} {live : Bool}
      (hcall : registry.calls call = .reserved live)
      (hnext : checkedAdd registry.nextContext 1 = none) :
      RegistryStep text registry .internal
        ({ registry with slots := registry.slots - 1 }.move call
          (.returning (.error .resourceLimit)))
  | spawn {registry : Registry Value} {call id : Nat} {live : Bool}
      (hcall : registry.calls call = .numbered id live) :
      RegistryStep text registry .internal
        ((registry.store id (some { live, guard := some (call, .awaiting) })).move call
          (.inside id))
  | spawnFails {registry : Registry Value} {call id : Nat} {live : Bool} (message : String)
      (hcall : registry.calls call = .numbered id live) :
      RegistryStep text registry .internal
        ({ registry with slots := registry.slots - 1 }.move call
          (.returning (.error (.openFailed message))))
  | tooLarge {registry : Registry Value} {call id : Nat} {input : String}
      (hcall : registry.calls call = .looking id input)
      (hlarge : MAX_REQUEST_BYTES < input.utf8ByteSize) :
      RegistryStep text registry .internal (registry.move call (.returning (.error .resourceLimit)))
  | find {registry : Registry Value} {call id : Nat} {input : String}
      (hcall : registry.calls call = .looking id input)
      (hsmall : ¬MAX_REQUEST_BYTES < input.utf8ByteSize) (hmem : id ∈ registry.contexts) :
      RegistryStep text registry .internal (registry.move call (.found id input))
  | unknown {registry : Registry Value} {call id : Nat} {input : String}
      (hcall : registry.calls call = .looking id input)
      (hsmall : ¬MAX_REQUEST_BYTES < input.utf8ByteSize) (hmem : id ∉ registry.contexts) :
      RegistryStep text registry .internal
        (registry.move call (.returning (.error .unknownContext)))
  | tryLock {registry : Registry Value} {call id : Nat} {input : String}
      {context : Context Value} (hcall : registry.calls call = .found id input)
      (hentry : registry.entries id = some context) (hguard : context.guard = none)
      (hpoisoned : context.poisoned = false) :
      RegistryStep text registry .internal
        ((registry.store id (some (context.reach call (.entered input)))).move call (.inside id))
  | busy {registry : Registry Value} {call id : Nat} {input : String} {context : Context Value}
      (hcall : registry.calls call = .found id input)
      (hentry : registry.entries id = some context) (hguard : context.guard ≠ none) :
      RegistryStep text registry .internal (registry.move call (.dropping id (.error .busy)))
  | poisoned {registry : Registry Value} {call id : Nat} {input : String}
      {context : Context Value} (hcall : registry.calls call = .found id input)
      (hentry : registry.entries id = some context) (hguard : context.guard = none)
      (hpoisoned : context.poisoned = true) :
      RegistryStep text registry .internal (registry.move call (.dropping id (.error .stopped)))
  | remove {registry : Registry Value} {call id : Nat} (hcall : registry.calls call = .closing id)
      (hmem : id ∈ registry.contexts) :
      RegistryStep text registry .internal
        ({ registry with contexts := registry.contexts.erase id }.move call (.removed id))
  | absent {registry : Registry Value} {call id : Nat} (hcall : registry.calls call = .closing id)
      (hmem : id ∉ registry.contexts) :
      RegistryStep text registry .internal
        (registry.move call (.returning (.error .unknownContext)))
  -- A poisoned lock still has to be taken, to join the worker.
  | lock {registry : Registry Value} {call id : Nat} {context : Context Value}
      (hcall : registry.calls call = .removed id) (hentry : registry.entries id = some context)
      (hguard : context.guard = none) :
      RegistryStep text registry .internal
        ((registry.store id (some ({ context with joined := true }.reach call
          (if context.joined then .leaving (.ok (.closed id))
            else .stopping (.ok (.closed id)))))).move call (.inside id))
  | guard {registry : Registry Value} {call id : Nat} {context context' : Context Value}
      {event : ContextEvent Value} (hcall : registry.calls call = .inside id)
      (hentry : registry.entries id = some context)
      (hstep : GuardStep text call context event context') :
      RegistryStep text registry (.context id event) (registry.store id (some context'))
  | allocate {registry : Registry Value} {call id next : Nat} {context : Context Value}
      {plan : PlanId} {job : Job Value} (hcall : registry.calls call = .inside id)
      (hentry : registry.entries id = some context)
      (hguard : context.guard = some (call, .allocating plan))
      (hjob : Job.new registry.nextJob = .ok (job, next)) :
      RegistryStep text registry .internal
        ({ registry with nextJob := next }.store id
          (some (context.reach call (.starting plan job))))
  | allocateFails {registry : Registry Value} {call id : Nat} {context : Context Value}
      {plan : PlanId} {error : JobError} (hcall : registry.calls call = .inside id)
      (hentry : registry.entries id = some context)
      (hguard : context.guard = some (call, .allocating plan))
      (hjob : (Job.new registry.nextJob : Except JobError (Job Value × Nat)) = .error error) :
      RegistryStep text registry .internal
        (registry.store id (some (context.reach call (.leaving (.error error.transport)))))
  | register {registry : Registry Value} {call id : Nat} {context : Context Value}
      (hcall : registry.calls call = .inside id) (hentry : registry.entries id = some context)
      (hguard : context.guard = some (call, .registering)) :
      RegistryStep text registry .internal
        (({ registry with contexts := insert id registry.contexts }.store id
          (some { context with guard := none })).move call
            (.returning (.ok (.context id context.live))))
  | release {registry : Registry Value} {call id : Nat} {context : Context Value}
      {outcome : Outcome Value} (hcall : registry.calls call = .inside id)
      (hentry : registry.entries id = some context)
      (hguard : context.guard = some (call, .leaving outcome)) :
      RegistryStep text registry .internal
        ((registry.store id (some { context with guard := none })).move call
          (.dropping id outcome))
  -- The panic of a poll unwinds through the guard and is contained at the boundary.
  | unwind {registry : Registry Value} {call id : Nat} {context : Context Value}
      (hcall : registry.calls call = .inside id) (hentry : registry.entries id = some context)
      (hguard : context.guard = some (call, .unwinding)) :
      RegistryStep text registry .internal
        ((registry.store id (some { context with guard := none, poisoned := true })).move call
          (.dropping id (.error .panicked)))
  | drop {registry : Registry Value} {call id : Nat} {outcome : Outcome Value}
      (hcall : registry.calls call = .dropping id outcome) (hlast : ¬registry.Last call id) :
      RegistryStep text registry .internal (registry.move call (.returning outcome))
  | free {registry : Registry Value} {call id : Nat} {outcome : Outcome Value}
      {context : Context Value} (hcall : registry.calls call = .dropping id outcome)
      (hlast : registry.Last call id) (hentry : registry.entries id = some context)
      (hjoined : context.joined = true) :
      RegistryStep text registry .internal
        (({ registry with slots := registry.slots - 1 }.store id none).move call
          (.returning outcome))
  -- The last reference shuts down a worker that nobody has joined.
  | shutdown {registry : Registry Value} {call id : Nat} {outcome : Outcome Value}
      {context : Context Value} (hcall : registry.calls call = .dropping id outcome)
      (hlast : registry.Last call id) (hentry : registry.entries id = some context)
      (hjoined : context.joined = false) :
      RegistryStep text registry .internal
        ((registry.store id (some ({ context with joined := true }.reach call
          (.stopping outcome)))).move call (.inside id))
  | work {registry : Registry Value} {id : Nat} {context context' : Context Value}
      {event : ContextEvent Value} (hentry : registry.entries id = some context)
      (hstep : WorkerStep text context event context') :
      RegistryStep text registry (.context id event) (registry.store id (some context'))
  | deliver {registry : Registry Value} {call : Nat} {outcome : Outcome Value}
      (hcall : registry.calls call = .returning outcome) :
      RegistryStep text registry (.returned call outcome)
        (registry.move call (.returned outcome))

/-- The transport, before its first use. -/
def transport {Value : Type} (text : TransportJson Value) :
    Machine (Registry Value) (RegistryEvent Value) where
  start registry := registry = {}
  step := RegistryStep text

end DisksGraph
