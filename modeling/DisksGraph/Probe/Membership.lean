import DisksGraph.Probe.Volumes

/-!
# Probe — Membership

Whether the LVM pass follows the UUIDs of its records (`enrich_lvm`).

Groups are keyed by UUID, physical volumes by device, logical volumes by the path of their mapping
or by UUID; but the group of a physical volume is looked up by its name.

* `FollowsUuids`: what the pass should leave, told by UUIDs alone.
* `LvmEntry.Keyed`: the records and the earlier graph on which the keys agree with the UUIDs.
* `enrichLvm_follows_uuids`: the first holds exactly when the second does.
-/

namespace DisksGraph

open NativeRecords (Separated)

/-! ### Identities of one kind -/

/-- The identities of a node that are of the kind of the given one. -/
def Node.alike (node : Node) (identity : ExternalId) : List ExternalId :=
  node.size.identities.filter fun other => other.discriminant == identity.discriminant

/-- An added identity is the only one of its kind when there was none, or just this one. -/
theorem filter_withIdentity {identities : List ExternalId} {identity : ExternalId}
    {p : ExternalId → Bool} (hp : p identity = true) :
    (withIdentity identities identity).filter p = [identity] ↔
      identities.filter p = [] ∨ identities.filter p = [identity] := by
  by_cases hmem : identity ∈ identities
  · rw [withIdentity, if_pos hmem]
    have hne : identities.filter p ≠ [] :=
      List.ne_nil_of_mem (List.mem_filter.mpr ⟨hmem, hp⟩)
    simp [hne]
  · rw [withIdentity, if_neg hmem, List.filter_append, List.filter_cons_of_pos hp, List.filter_nil]
    have hne : identities.filter p ≠ [identity] := by
      intro h
      exact hmem (List.mem_of_mem_filter (h ▸ List.mem_singleton_self identity))
    simp [hne]

/-! ### Keys -/

section Keys

variable (endpoints : List UdevBlockEntry) (mappings : List DevmapperEntry) (topology : LvmEntry)

/-- The keys the pass gives to `stable_node_id`. -/
def LvmEntry.keys : List (String × String) :=
  topology.vgs.map (fun vg => ("lvm-vg", vg.uuid)) ++
    topology.pvs.map (fun pv => ("content-path", pv.device)) ++
    topology.lvs.map (·.key endpoints mappings)

/-- The nodes of the groups, the physical volumes and the logical volumes. -/
def LvmEntry.nodeIds : List NodeId :=
  topology.vgs.map (·.nodeId) ++ topology.pvs.map (fun pv => contentNodeId pv.device) ++
    topology.lvs.map (·.nodeId endpoints mappings)

end Keys

/-- The node carries this identity, and no other of its kind. -/
def NodeGraph.Identifies (graph : NodeGraph) (id : NodeId) (identity : ExternalId) : Prop :=
  ∃ node, graph.node id = some node ∧ node.alike identity = [identity]

/-- The node, if it is there, carries no identity of this kind but this one, and not twice. -/
def NodeGraph.Leaves (graph : NodeGraph) (id : NodeId) (identity : ExternalId) : Prop :=
  ∀ node, graph.node id = some node → node.alike identity = [] ∨ node.alike identity = [identity]

/-- An edge between a physical volume and a group. -/
def NodeGraph.HasMember (graph : NodeGraph) (pv : LvmPvEntry) (vg : LvmVgEntry) : Prop :=
  ∃ role, ⟨contentNodeId pv.device, vg.nodeId, .memberOf role⟩ ∈ graph.dependencies

/-- The LVM topology of the state is that of the UUIDs: every record has a node of its own, which is
identified by its UUID, a physical volume is a member of the group of its UUID, and the published
measurements of a group are bound to its node. -/
structure FollowsUuids (endpoints : List UdevBlockEntry) (mappings : List DevmapperEntry)
    (topology : LvmEntry) (graph : NodeGraph) (published : List LvmVgObservation) : Prop where
  distinct : (topology.nodeIds endpoints mappings).Nodup
  vgs : ∀ vg ∈ topology.vgs, graph.Identifies vg.nodeId (.lvmVgUuid vg.uuid)
  pvs : ∀ pv ∈ topology.pvs, graph.Identifies (contentNodeId pv.device) (.lvmPvUuid pv.uuid)
  lvs : ∀ lv ∈ topology.lvs,
    graph.Identifies (lv.nodeId endpoints mappings) (.lvmLvUuid lv.uuid)
  members : ∀ pv ∈ topology.pvs, ∀ vg ∈ topology.vgs,
    graph.HasMember pv vg ↔ pv.vgUuid = some vg.uuid
  published : ∀ observation ∈ published, observation.vg ∈ topology.vgs ∧
    graph.Identifies observation.node (.lvmVgUuid observation.vg.uuid)

/-- The keys agree with the UUIDs: no two physical volumes report one device, no two logical volumes
are mapped on one path, the nodes that were there before carry no foreign UUID, and the group of a
physical volume's name, with what the graph held before, is the group of its UUID. -/
structure LvmEntry.Keyed (endpoints : List UdevBlockEntry) (mappings : List DevmapperEntry)
    (topology : LvmEntry) (graph : NodeGraph) : Prop where
  devices : (topology.pvs.map (·.device)).Nodup
  paths : (topology.lvs.map (·.key endpoints mappings)).Nodup
  pvs : ∀ pv ∈ topology.pvs, graph.Leaves (contentNodeId pv.device) (.lvmPvUuid pv.uuid)
  lvs : ∀ lv ∈ topology.lvs, graph.Leaves (lv.nodeId endpoints mappings) (.lvmLvUuid lv.uuid)
  named : ∀ pv ∈ topology.pvs, ∀ vg ∈ topology.vgs,
    (pv.vgName.bind topology.vgNamed = some vg ∨ graph.HasMember pv vg) ↔ pv.vgUuid = some vg.uuid

/-! ### Distinct nodes -/

section Pass

variable {endpoints : List UdevBlockEntry} {mappings : List DevmapperEntry} {topology : LvmEntry}
  {graph : NodeGraph}

theorem LvmEntry.nodeIds_eq : topology.nodeIds endpoints mappings =
    (topology.keys endpoints mappings).map fun key => stableNodeId key.1 key.2 := by
  rw [nodeIds, keys, List.map_append, List.map_append, List.map_map, List.map_map, List.map_map]
  congr 1
  exact List.map_congr_left fun lv _ => lv.nodeId_eq

theorem LvmLvEntry.key_kind (lv : LvmLvEntry) : (lv.key endpoints mappings).1 ≠ "lvm-vg" ∧
    (lv.key endpoints mappings).1 ≠ "content-path" := by
  rw [LvmLvEntry.key]
  cases lv.activePath endpoints mappings <;> simp

theorem nodup_map_tag {α : Type} {items : List α} {text : α → String} (tag : String) :
    (items.map fun item => (tag, text item)).Nodup ↔ (items.map text).Nodup := by
  have hmap : items.map (fun item => (tag, text item)) = (items.map text).map (Prod.mk tag) := by
    rw [List.map_map]
    rfl
  rw [hmap, List.nodup_map_iff (Prod.mk_right_injective tag)]

/-- The three kinds of records never share a key. -/
theorem LvmEntry.nodup_keys : (topology.keys endpoints mappings).Nodup ↔
    (topology.vgs.map (·.uuid)).Nodup ∧ (topology.pvs.map (·.device)).Nodup ∧
      (topology.lvs.map (·.key endpoints mappings)).Nodup := by
  rw [keys, List.nodup_append', List.nodup_append', nodup_map_tag, nodup_map_tag]
  constructor
  · rintro ⟨⟨hvgs, hpvs, -⟩, hlvs, -⟩
    exact ⟨hvgs, hpvs, hlvs⟩
  · rintro ⟨hvgs, hpvs, hlvs⟩
    refine ⟨⟨hvgs, hpvs, ?_⟩, hlvs, ?_⟩
    · intro key hvg hpv
      obtain ⟨vg, -, rfl⟩ := List.mem_map.mp hvg
      obtain ⟨pv, -, hkey⟩ := List.mem_map.mp hpv
      exact absurd (congrArg Prod.fst hkey) (by simp)
    · intro key hkey hlv
      obtain ⟨lv, -, rfl⟩ := List.mem_map.mp hlv
      rcases List.mem_append.mp hkey with hvg | hpv
      · obtain ⟨vg, -, hsame⟩ := List.mem_map.mp hvg
        exact lv.key_kind.1 (congrArg Prod.fst hsame).symm
      · obtain ⟨pv, -, hsame⟩ := List.mem_map.mp hpv
        exact lv.key_kind.2 (congrArg Prod.fst hsame).symm

/-- Where keys do not collide, nodes are distinct as soon as keys are. -/
theorem LvmEntry.nodup_nodeIds (hseparated : Separated (topology.keys endpoints mappings)) :
    (topology.nodeIds endpoints mappings).Nodup ↔ (topology.keys endpoints mappings).Nodup := by
  rw [nodeIds_eq]
  exact ⟨List.Nodup.of_map _, fun h => h.map_on fun a ha b hb heq => hseparated a ha b hb heq⟩

/-! ### What the pass writes -/

/-- A loop that writes one node for each item leaves the others. -/
theorem node_foldl_ne {α : Type} {step : NodeGraph → α → NodeGraph} {at_ : α → NodeId}
    {value : NodeGraph → α → Node}
    (hstep : ∀ g a id, (step g a).node id = if id = at_ a then some (value g a) else g.node id)
    {items : List α} {id : NodeId} (hid : id ∉ items.map at_) (graph : NodeGraph) :
    (items.foldl step graph).node id = graph.node id := by
  refine List.foldlRecOn (motive := fun g : NodeGraph => g.node id = graph.node id) items _ rfl
    fun g hg a ha => ?_
  have hne : id ≠ at_ a := fun h => hid (h ▸ List.mem_map_of_mem ha)
  rw [hstep, if_neg hne, hg]

/-- Where the items write to different nodes, each finds what was there before the loop. -/
theorem node_foldl_self {α : Type} {step : NodeGraph → α → NodeGraph} {at_ : α → NodeId}
    {value : NodeGraph → α → Node}
    (hstep : ∀ g a id, (step g a).node id = if id = at_ a then some (value g a) else g.node id)
    (hvalue : ∀ g g' a, g.node (at_ a) = g'.node (at_ a) → value g a = value g' a)
    {items : List α} (hnodup : (items.map at_).Nodup) {a : α} (ha : a ∈ items)
    (graph : NodeGraph) : (items.foldl step graph).node (at_ a) = some (value graph a) := by
  induction items generalizing graph with
  | nil => cases ha
  | cons first rest ih =>
      obtain ⟨hfirst, hrest⟩ := List.nodup_cons.mp hnodup
      rw [List.foldl_cons]
      rcases List.mem_cons.mp ha with rfl | ha
      · rw [node_foldl_ne hstep hfirst, hstep, if_pos rfl]
      · have hne : at_ a ≠ at_ first := fun h => hfirst (h ▸ List.mem_map_of_mem ha)
        rw [ih hrest ha, hvalue (step graph first) graph a (by rw [hstep, if_neg hne])]

theorem node_insertVg (g : NodeGraph) (vg : LvmVgEntry) (id : NodeId) :
    (insertVg g vg).node id = if id = vg.nodeId then some (vgNode vg) else g.node id := by
  rw [insertVg, NodeGraph.upsertObservation_eq, NodeGraph.node_setNode]

/-- The nodes after a physical volume is recorded. -/
theorem node_insertPv (g : NodeGraph) (pv : LvmPvEntry) (id : NodeId) :
    (insertPv topology g pv).node id =
      if id = contentNodeId pv.device then some (pvNode g pv) else g.node id := by
  rw [insertPv, NodeGraph.upsertObservation_eq]
  cases pv.vgName.bind topology.vgNamed with
  | none => exact NodeGraph.node_setNode
  | some vg => exact NodeGraph.node_setNode

/-- The nodes of the pass, when each record has its own. -/
theorem LvmEntry.nodes_lvmGraph (h : (topology.nodeIds endpoints mappings).Nodup) :
    (∀ vg ∈ topology.vgs,
      (lvmGraph graph endpoints mappings topology).node vg.nodeId = some (vgNode vg)) ∧
    (∀ pv ∈ topology.pvs, (lvmGraph graph endpoints mappings topology).node
      (contentNodeId pv.device) = some (pvNode graph pv)) ∧
    (∀ lv ∈ topology.lvs, (lvmGraph graph endpoints mappings topology).node
      (lv.nodeId endpoints mappings) = some (lvNode endpoints mappings graph lv)) := by
  rw [nodeIds, List.nodup_append', List.nodup_append'] at h
  obtain ⟨⟨hvgs, hpvs, hvp⟩, hlvs, hl⟩ := h
  have hlv : ∀ {id}, id ∈ topology.lvs.map (·.nodeId endpoints mappings) →
      id ∉ topology.vgs.map (·.nodeId) ∧
        id ∉ topology.pvs.map fun pv => contentNodeId pv.device := by
    intro id hmem
    exact ⟨fun h => hl (List.mem_append_left _ h) hmem,
      fun h => hl (List.mem_append_right _ h) hmem⟩
  refine ⟨fun vg hvg => ?_, fun pv hpv => ?_, fun lv hmem => ?_⟩
  · have hid : vg.nodeId ∈ topology.vgs.map (·.nodeId) := List.mem_map_of_mem hvg
    rw [lvmGraph, node_foldl_linkLv, node_foldl_ne node_insertLv fun h => (hlv h).1 hid,
      node_foldl_ne node_insertPv (hvp hid)]
    exact node_foldl_self node_insertVg (fun _ _ _ _ => rfl) hvgs hvg graph
  · have hid : contentNodeId pv.device ∈ topology.pvs.map fun pv => contentNodeId pv.device :=
      List.mem_map_of_mem hpv
    rw [lvmGraph, node_foldl_linkLv, node_foldl_ne node_insertLv fun h => (hlv h).2 hid,
      node_foldl_self node_insertPv (fun g g' a h => by rw [pvNode, pvNode, h]) hpvs hpv]
    have hprior := node_foldl_ne node_insertVg (fun h => hvp h hid) graph
    rw [pvNode, hprior, ← pvNode]
  · have hid : lv.nodeId endpoints mappings ∈ topology.lvs.map (·.nodeId endpoints mappings) :=
      List.mem_map_of_mem hmem
    rw [lvmGraph, node_foldl_linkLv,
      node_foldl_self node_insertLv (fun g g' a h => by rw [lvNode, lvNode, h]) hlvs hmem]
    have hprior : ((topology.pvs.foldl (insertPv topology) (topology.vgs.foldl insertVg graph)).node
        (lv.nodeId endpoints mappings)) = graph.node (lv.nodeId endpoints mappings) := by
      rw [node_foldl_ne node_insertPv (hlv hid).2, node_foldl_ne node_insertVg (hlv hid).1]
    rw [lvNode, hprior, ← lvNode]

/-! ### The nodes carry the UUIDs -/

/-- An added identity is alone when the node carried none of the kind, or just this one. -/
theorem identifies_iff {id : NodeId} {identity : ExternalId} {node : Node}
    {identities : List ExternalId} (hnode : graph.node id = some node)
    (hidentities : node.size.identities = withIdentity identities identity) :
    graph.Identifies id identity ↔
      identities.filter (fun other => other.discriminant == identity.discriminant) = [] ∨
        identities.filter (fun other => other.discriminant == identity.discriminant) =
          [identity] := by
  rw [← filter_withIdentity (p := fun other => other.discriminant == identity.discriminant)
    (beq_self_eq_true _), ← hidentities]
  constructor
  · rintro ⟨found, hfound, halike⟩
    cases hnode.symm.trans hfound
    exact halike
  · exact fun halike => ⟨node, hnode, halike⟩

/-- Who identifies a physical volume in the end. -/
theorem identifies_pv (h : (topology.nodeIds endpoints mappings).Nodup) {pv : LvmPvEntry}
    (hpv : pv ∈ topology.pvs) :
    (lvmGraph graph endpoints mappings topology).Identifies (contentNodeId pv.device)
        (.lvmPvUuid pv.uuid) ↔
      graph.Leaves (contentNodeId pv.device) (.lvmPvUuid pv.uuid) := by
  rw [identifies_iff (LvmEntry.nodes_lvmGraph h |>.2.1 pv hpv) rfl, NodeGraph.Leaves]
  cases hprior : graph.node (contentNodeId pv.device) with
  | none => simp
  | some node => simp [Node.alike]

/-- Who identifies a logical volume in the end. -/
theorem identifies_lv (h : (topology.nodeIds endpoints mappings).Nodup) {lv : LvmLvEntry}
    (hlv : lv ∈ topology.lvs) :
    (lvmGraph graph endpoints mappings topology).Identifies (lv.nodeId endpoints mappings)
        (.lvmLvUuid lv.uuid) ↔
      graph.Leaves (lv.nodeId endpoints mappings) (.lvmLvUuid lv.uuid) := by
  rw [identifies_iff (LvmEntry.nodes_lvmGraph h |>.2.2 lv hlv) rfl, NodeGraph.Leaves]
  cases hprior : graph.node (lv.nodeId endpoints mappings) with
  | none => simp
  | some node => simp [Node.alike]

/-- A group is identified in the end. -/
theorem identifies_vg (h : (topology.nodeIds endpoints mappings).Nodup) {vg : LvmVgEntry}
    (hvg : vg ∈ topology.vgs) :
    (lvmGraph graph endpoints mappings topology).Identifies vg.nodeId (.lvmVgUuid vg.uuid) :=
  ⟨vgNode vg, LvmEntry.nodes_lvmGraph h |>.1 vg hvg, by simp [Node.alike, vgNode]⟩

/-! ### The edges of the members -/

theorem LvmEntry.mem_of_vgNamed {name : String} {vg : LvmVgEntry}
    (h : topology.vgNamed name = some vg) : vg ∈ topology.vgs :=
  List.mem_reverse.mp (List.mem_of_find?_eq_some h)

/-- A member edge was there before, or the name of the physical volume leads to the group. -/
theorem hasMember_lvmGraph (h : (topology.nodeIds endpoints mappings).Nodup) {pv : LvmPvEntry}
    {vg : LvmVgEntry} (hpv : pv ∈ topology.pvs) (hvg : vg ∈ topology.vgs) :
    (lvmGraph graph endpoints mappings topology).HasMember pv vg ↔
      pv.vgName.bind topology.vgNamed = some vg ∨ graph.HasMember pv vg := by
  rw [LvmEntry.nodeIds, List.nodup_append', List.nodup_append'] at h
  obtain ⟨⟨hvgs, hpvs, -⟩, -, -⟩ := h
  constructor
  · rintro ⟨role, hedge⟩
    rcases mem_lvmGraph.mp hedge with hprior | hdeclared
    · exact .inr ⟨role, hprior⟩
    · left
      generalize hsource : contentNodeId pv.device = source at hdeclared
      generalize htarget : vg.nodeId = target at hdeclared
      cases hdeclared with
      | @member other group hother hnamed =>
          obtain ⟨name, -, hfound⟩ := Option.bind_eq_some_iff.mp hnamed
          have hgroup := LvmEntry.mem_of_vgNamed hfound
          rw [List.inj_on_of_nodup_map hpvs hpv hother hsource,
            List.inj_on_of_nodup_map hvgs hvg hgroup htarget]
          exact hnamed
  · rintro (hnamed | ⟨role, hprior⟩)
    · exact ⟨.lvmPv, mem_lvmGraph.mpr (.inr (.member hpv hnamed))⟩
    · exact ⟨role, mem_lvmGraph.mpr (.inl hprior)⟩

end Pass

/-- **LVM topology follows UUIDs** exactly where the keys agree with them.  For records with
distinct group UUIDs, every earlier state, and keys on which `stable_node_id` does not collide;
where two physical or two logical volumes share a UUID, each record still has its own node. -/
theorem enrichLvm_follows_uuids {endpoints : List UdevBlockEntry} {mappings : List DevmapperEntry}
    {topology : LvmEntry} (state : ProviderState) (hvgs : (topology.vgs.map (·.uuid)).Nodup)
    (hseparated : Separated (topology.keys endpoints mappings)) :
    (∃ published,
      (enrichLvm state endpoints mappings topology).1.lvmVgs = state.lvmVgs ++ published ∧
      FollowsUuids endpoints mappings topology (enrichLvm state endpoints mappings topology).1.graph
        published) ↔
      topology.Keyed endpoints mappings state.graph := by
  have hnodup : (topology.nodeIds endpoints mappings).Nodup ↔
      (topology.pvs.map (·.device)).Nodup ∧
        (topology.lvs.map (·.key endpoints mappings)).Nodup := by
    rw [LvmEntry.nodup_nodeIds hseparated, LvmEntry.nodup_keys, and_iff_right hvgs]
  constructor
  · rintro ⟨published, -, hfollows⟩
    have hdistinct := hfollows.distinct
    exact {
      devices := (hnodup.mp hdistinct).1
      paths := (hnodup.mp hdistinct).2
      pvs := fun pv hpv => (identifies_pv hdistinct hpv).mp (hfollows.pvs pv hpv)
      lvs := fun lv hlv => (identifies_lv hdistinct hlv).mp (hfollows.lvs lv hlv)
      named := fun pv hpv vg hvg =>
        (hasMember_lvmGraph hdistinct hpv hvg).symm.trans (hfollows.members pv hpv vg hvg) }
  · intro hkeyed
    have hdistinct := hnodup.mpr ⟨hkeyed.devices, hkeyed.paths⟩
    refine ⟨topology.vgs.map fun vg => ⟨vg.nodeId, vg⟩, rfl, ?_⟩
    exact {
      distinct := hdistinct
      vgs := fun vg hvg => identifies_vg hdistinct hvg
      pvs := fun pv hpv => (identifies_pv hdistinct hpv).mpr (hkeyed.pvs pv hpv)
      lvs := fun lv hlv => (identifies_lv hdistinct hlv).mpr (hkeyed.lvs lv hlv)
      members := fun pv hpv vg hvg =>
        (hasMember_lvmGraph hdistinct hpv hvg).trans (hkeyed.named pv hpv vg hvg)
      published := fun observation hmem => by
        obtain ⟨vg, hvg, rfl⟩ := List.mem_map.mp hmem
        exact ⟨hvg, identifies_vg hdistinct hvg⟩ }

/-! ### Two groups of one name -/

/-- A foreign disk brings a second group called `vg`. -/
def homonyms : LvmEntry where
  vgs := [{ name := "vg", uuid := "vg-a" }, { name := "vg", uuid := "vg-b" }]
  pvs := [
    { device := "/dev/sda", uuid := "pv-a", vgName := some "vg", vgUuid := some "vg-a" },
    { device := "/dev/sdb", uuid := "pv-b", vgName := some "vg", vgUuid := some "vg-b" }]

theorem homonyms_separated : Separated (homonyms.keys [] []) := by
  unfold NativeRecords.Separated
  decide +kernel

/-- Both physical volumes become members of the group that is reported last. -/
theorem membership_follows_name :
    ¬ ∀ (state : ProviderState) (endpoints : List UdevBlockEntry) (mappings : List DevmapperEntry)
      (topology : LvmEntry), (topology.vgs.map (·.uuid)).Nodup → (topology.pvs.map (·.uuid)).Nodup →
      (topology.lvs.map (·.uuid)).Nodup → Separated (topology.keys endpoints mappings) →
      ∃ published,
        (enrichLvm state endpoints mappings topology).1.lvmVgs = state.lvmVgs ++ published ∧
        FollowsUuids endpoints mappings topology
          (enrichLvm state endpoints mappings topology).1.graph published := by
  intro h
  obtain ⟨published, -, hfollows⟩ :=
    h {} [] [] homonyms (by decide) (by decide) (by decide) homonyms_separated
  have hmember := (hfollows.members _ List.mem_cons_self _ List.mem_cons_self).mpr rfl
  rcases (hasMember_lvmGraph hfollows.distinct List.mem_cons_self List.mem_cons_self).mp hmember
    with hnamed | ⟨role, hprior⟩
  · exact absurd hnamed (by decide)
  · cases hprior

/-- The same disk without the foreign one. -/
def unambiguous : LvmEntry where
  vgs := [{ name := "vg", uuid := "vg-a" }]
  pvs := [{ device := "/dev/sda", uuid := "pv-a", vgName := some "vg", vgUuid := some "vg-a" }]

theorem unambiguous_keyed : unambiguous.Keyed [] [] .empty where
  devices := by decide
  paths := by decide
  pvs _ _ node hnode := by simp [NodeGraph.node, NodeGraph.empty] at hnode
  lvs _ _ node hnode := by simp [NodeGraph.node, NodeGraph.empty] at hnode
  named pv hpv vg hvg := by
    cases List.mem_singleton.mp hpv
    cases List.mem_singleton.mp hvg
    exact iff_of_true (.inl (by decide)) rfl

/-- With one group of the name, the physical volume is where its UUID says. -/
theorem enrichLvm_follows_uuids_unambiguous :
    ∃ published, (enrichLvm {} [] [] unambiguous).1.lvmVgs = [] ++ published ∧
      FollowsUuids [] [] unambiguous (enrichLvm {} [] [] unambiguous).1.graph published :=
  (enrichLvm_follows_uuids {} (by decide) (by unfold NativeRecords.Separated; decide +kernel)).mpr
    unambiguous_keyed

end DisksGraph
