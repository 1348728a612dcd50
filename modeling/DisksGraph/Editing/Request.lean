import DisksGraph.Engine.Compose

/-!
# Editing — Request

The requests a user edits and the recipes that lower them (`draft.rs`, `request.rs`, `lower.rs`).

A request is lowered on its own, to one fragment of one or two actions; what the actions need and
change is left to their contracts.
-/

namespace DisksGraph

/-! ### Drafts -/

/-- Persistent user-operation identity, independent of per-build action and fragment indices. -/
structure OperationId where
  asUuid : Uuid
deriving DecidableEq, Repr

/-- User-level parameters retained for editing instead of mutating a frozen action DAG. -/
inductive PlanRequest where
  | createPartition (table : NodeId) (number : NonZero 32) (offset size : Bytes)
      (role : Option UsageRole) (attributes : PartitionAttributes)
  | formatLuks (backing : NodeId) (version : LuksVersion) (credential : CredentialRef)
  | openLuks (container : NodeId) (mappingName : String) (credential : CredentialRef)
      (readOnly : Bool)
  | createLv (vg : NodeId) (name : String) (size : Bytes) (layout : LvmLvKind) (activate : Bool)
  | resizeLv (lv : NodeId) (newSize : Bytes)
  | resizeFilesystem (filesystem : NodeId) (newSize : Bytes)
  | deletePartition (partition : NodeId)
  | removeLv (lv : NodeId)
  | closeLuks (mapping : NodeId)
  | createFilesystem (backing : NodeId) (filesystem : FilesystemKind) (label : Option String)
  | mount (entry : MountEntry)
  | persistMount (entry : MountEntry)
  | unmount (target : PathBuf) (context : MountContext)
  | removePersistentMount (target : PathBuf) (context : MountContext)
  | setFilesystemLabel (filesystem : NodeId) (label : Option String)
  | maintenance (intent : OperationIntent)
deriving DecidableEq

/-- One editable request with identities retained across rebuilds and parameter changes. -/
structure PlanOperation where
  id : OperationId
  request : PlanRequest
  createdNode : Option NodeId
deriving DecidableEq

/-- Editable requests and preservation policy; predicted storage state lives in the engine. -/
structure PlanDraft where
  operations : List PlanOperation := []
  protectedScope : ProtectedScope := {}
deriving DecidableEq

/-- The nodes an intent works on. -/
def OperationIntent.nodes : OperationIntent → List NodeId
  | .reformat target _ | .check target _ | .repair target _ | .setActivation target _ => [target]
  | .replaceMember group old new => [group, old, new]
  | .convertBtrfsProfiles filesystem _ => [filesystem]

namespace PlanRequest

/-- Whether this request reserves exactly one new storage node. -/
def createsNode : PlanRequest → Bool
  | .createPartition .. | .formatLuks .. | .openLuks .. | .createLv .. | .createFilesystem .. => true
  | _ => false

/-- Storage identities used as inputs; ordering and shared resources are not ownership. -/
def referencedNodes : PlanRequest → List NodeId
  | .createPartition table .. => [table]
  | .createLv vg .. => [vg]
  | .resizeLv lv _ | .removeLv lv => [lv]
  | .deletePartition partition => [partition]
  | .closeLuks mapping => [mapping]
  | .createFilesystem backing .. | .formatLuks backing .. => [backing]
  | .openLuks container .. => [container]
  | .setFilesystemLabel filesystem _ | .resizeFilesystem filesystem _ => [filesystem]
  | .mount entry | .persistMount entry => entry.source.node.toList
  | .unmount .. | .removePersistentMount .. => []
  | .maintenance intent => intent.nodes

end PlanRequest

/-- Allocates operation and output identities once, before any preview calculation.  `id` and `node`
are what `Uuid::now_v7` draws. -/
def PlanOperation.new (id : OperationId) (node : NodeId) (request : PlanRequest) : PlanOperation :=
  ⟨id, request, if request.createsNode then some node else none⟩

/-! ### Lowering -/

/-- A planning diagnostic without a parallel storage error catalogue. -/
def draftDiagnostic (code message : String) : Diagnostic where
  code
  severity := .error
  subjects := []
  message

/-- What the recipe of a request produces: its actions, what they require and their origin. -/
structure Recipe where
  operations : List ProviderAction
  requirements : List ExternalRequirement := []
  origin : FragmentOrigin

/-- The recipe of a request, with the node reserved for what it creates. -/
def PlanRequest.recipe (createdNode : Option NodeId) (intentIndex : Option Nat) :
    PlanRequest → Except (List Diagnostic) Recipe
  | .createPartition table number offset size role attributes => do
      let node ← output "missing partition output ID"
      return {
        operations := [.partition (.create table node number offset size role attributes)]
        origin := .change node "create partition at exact byte extent" }
  | .formatLuks backing version credential => do
      let node ← output "missing LUKS container output ID"
      return {
        operations := [.luks (.format backing node version credential)]
        requirements := [⟨⟨0⟩, .writable backing⟩]
        origin := .change node "format LUKS container" }
  | .openLuks container mappingName credential readOnly => do
      let node ← output "missing dm-crypt mapping output ID"
      return {
        operations := [.luks (.open container node mappingName credential readOnly)]
        origin := .change node "open LUKS mapping" }
  | .createLv vg name size layout activate =>
      if layout ≠ .linear then
        .error [draftDiagnostic "draft.unsupported_layout" "only linear LV creation is supported"]
      else do
        let node ← output "missing LV output ID"
        return {
          operations := .lvm (.createLv vg node name size layout) ::
            if activate then [.lvm (.setActivation node true)] else []
          origin := .change node "create logical volume" }
  | .resizeLv lv newSize => .ok {
      operations := [.lvm (.resizeLv lv newSize)]
      origin := .change lv "resize logical volume" }
  | .resizeFilesystem filesystem newSize => .ok {
      operations := [.filesystem (.resize filesystem newSize)]
      origin := .change filesystem "resize ext filesystem" }
  | .deletePartition partition => .ok {
      operations := [.partition (.delete partition)]
      origin := .change partition "delete selected partition" }
  | .removeLv lv => .ok {
      operations := [.lvm (.removeLv lv)]
      origin := .change lv "remove selected logical volume" }
  | .closeLuks mapping => .ok {
      operations := [.luks (.close mapping)]
      origin := .change mapping "close selected LUKS mapping" }
  | .createFilesystem backing filesystem label =>
      if filesystem ≠ .ext4 then
        .error [draftDiagnostic "draft.unsupported_filesystem" "only ext4 creation is supported"]
      else do
        let node ← output "missing filesystem output ID"
        return {
          operations := [.filesystem (.create backing node filesystem label)]
          requirements := [⟨⟨0⟩, .writable backing⟩]
          origin := .change node "create filesystem" }
  | .mount entry => .ok {
      operations := [.mount (.mount entry.source entry.target entry.options entry.context)]
      origin := .mount entry.target entry.context }
  | .persistMount entry => .ok {
      operations := [.mount (.persist entry)]
      origin := .mount entry.target entry.context }
  | .unmount target context => .ok {
      operations := [.mount (.unmount target context)]
      origin := .mount target context }
  | .removePersistentMount target context => .ok {
      operations := [.mount (.removePersistent target context)]
      origin := .mount target context }
  | .setFilesystemLabel filesystem label => .ok {
      operations := [.filesystem (.setLabel filesystem label)]
      origin := .change filesystem "set filesystem label" }
  | .maintenance (.check target force) =>
      match intentIndex with
      | none =>
          .error [draftDiagnostic "draft.intent_index" "maintenance request needs an intent index"]
      | some index => .ok {
          operations := [.filesystem (.check target force)]
          origin := .intent index }
  | .maintenance _ =>
      .error [draftDiagnostic "draft.unsupported_intent"
        "only read-only filesystem Check is supported"]
where
  /-- `created_node.ok_or_else(…)?`. -/
  output (message : String) : Except (List Diagnostic) NodeId :=
    match createdNode with
    | none => .error [draftDiagnostic "draft.created_node" message]
    | some node => .ok node

/-- The fragment of a recipe: its actions numbered from zero, two of them in order. -/
def Recipe.fragment (recipe : Recipe) : PlanFragment where
  actions := recipe.operations.zipIdx.map fun entry => ⟨⟨entry.2⟩, entry.1⟩
  dependencies :=
    if recipe.operations.length = 2 then [⟨⟨0⟩, ⟨1⟩, .requestedOrder⟩] else []
  externalRequirements := recipe.requirements
  origin := recipe.origin
  diagnostics := []

/-- Lowers the initial recipes into a single fragment, retaining preallocated output IDs. -/
def lowerOperation (operation : PlanOperation) (intentIndex : Option Nat) :
    Except (List Diagnostic) PlanFragment :=
  if operation.request.createsNode ≠ operation.createdNode.isSome then
    .error [draftDiagnostic "draft.created_node"
      "creating requests require an output ID; other requests must not have one"]
  else do
    let recipe ← operation.request.recipe operation.createdNode intentIndex
    return recipe.fragment

end DisksGraph
