import DisksGraph.Facade.Requests
import DisksGraph.Wire.Attempt

/-!
# Transport — Envelope

The two texts that the transport reads (`disksgraph-ffi/src/registry.rs`, `disksgraph/src/wire.rs`):
the configuration of a context and the envelope of a request.  Both bound the text before it is
parsed and negotiate versions before anything else is interpreted.
-/

namespace DisksGraph

open Support (Codec Fields JsonValue)

/-- Application protocol version. -/
def PROTOCOL_VERSION : Nat := 1

/-- Version of the exported signatures, independent of the JSON. -/
def ABI_VERSION : Nat := 1

/-- Bound checked before parsing an entire application request. -/
def MAX_REQUEST_BYTES : Nat := 16 * 1024 * 1024

/-- Native configuration has its own pre-parse bound. -/
def MAX_CONFIG_BYTES : Nat := 64 * 1024

/-- Stable transport errors, separate from the application's own diagnostic codes. -/
inductive TransportError where
  | invalidConfig (message : String)
  | unsupportedAbiVersion (version : Nat)
  | unsupportedVersion (version : Nat)
  | resourceLimit
  | unknownContext
  | unknownJob
  | invalidEventCursor
  | busy
  | openFailed (message : String)
  | stopped
  | panicked
deriving DecidableEq, Repr

/-- The protocol errors of parsing a request. -/
inductive RequestError where
  | invalidRequest (message : String)
  | unsupportedVersion (version : Nat)
  | resourceLimit
deriving DecidableEq, Repr

/-- `serde_json::from_str`: the value that a text denotes. -/
def JsonLibrary.fromStr (library : JsonLibrary) (input : String) : Except String JsonValue :=
  match JsonValue.parse input with
  | none => .error (library.malformed input.toUTF8)
  | some value =>
      if library.readsValue value then .ok value.canonical
      else .error (library.malformed input.toUTF8)

/-- A text that was written is read as the value it was written of. -/
theorem JsonLibrary.fromStr_print {library : JsonLibrary} {limit : Nat} {value : JsonValue}
    (hplain : value.Plain limit) (hreads : library.readsValue value = true) :
    library.fromStr value.print = .ok value.canonical := by
  simp [fromStr, JsonValue.parse_print hplain, hreads]

/-- An unsigned member of an object. -/
def versionField (field : String) (value : JsonValue) : Except String Nat :=
  match (value.get field).bind JsonValue.asU64 with
  | some version => .ok version
  | none => .error (field ++ " must be an unsigned integer")

/-! ### The configuration of a context -/

/-- Open inputs select trusted reads and an existing root.  The two versions are 1. -/
structure Config where
  abiVersion : Nat
  protocolVersion : Nat
  root : PathBuf
  manifest : Option PathBuf
deriving DecidableEq

namespace Config

/-- The fields of the configuration. -/
def fields : Fields Config :=
  Fields.of Config.mk
    |>.field "abi_version" u32
    |>.field "protocol_version" u32
    |>.field "root" PathBuf.codec
    |>.field "manifest" PathBuf.codec.option

/-- The configuration, with `deny_unknown_fields`. -/
def codec : Codec Config := .record true fields (by decide)

/-- A manifest selects the live host. -/
def live (config : Config) : Bool := config.manifest.isSome

/-- One of the two negotiated versions. -/
def negotiate (field : String) (expected : Nat) (unsupported : Nat → TransportError)
    (value : JsonValue) : Except TransportError Unit := do
  let version ← (versionField field value).mapError .invalidConfig
  if version ≠ expected then throw (unsupported version)

/-- Validates both versions before native configuration, thread creation or private-root access. -/
def read (library : JsonLibrary) (input : String) : Except TransportError Config := do
  if input.utf8ByteSize > MAX_CONFIG_BYTES then throw .resourceLimit
  let value ← (library.fromStr input).mapError .invalidConfig
  negotiate "abi_version" ABI_VERSION .unsupportedAbiVersion value
  negotiate "protocol_version" PROTOCOL_VERSION .unsupportedVersion value
  match codec.decode value with
  | some config => return codec.value config
  | none => throw (.invalidConfig (library.malformed input.toUTF8))

end Config

/-! ### The envelope of a request -/

/-- Validates size and protocol version before interpreting potentially unsupported method
fields. -/
def parseRequest (library : JsonLibrary) (decode : JsonValue → Option Request) (input : String) :
    Except RequestError Request := do
  if input.utf8ByteSize > MAX_REQUEST_BYTES then throw .resourceLimit
  let value ← (library.fromStr input).mapError .invalidRequest
  let version ← (versionField "protocol_version" value).mapError .invalidRequest
  if version ≠ PROTOCOL_VERSION then throw (.unsupportedVersion version)
  match decode value with
  | some request => return request
  | none => throw (.invalidRequest (library.malformed input.toUTF8))

end DisksGraph
