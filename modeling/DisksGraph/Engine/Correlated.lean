import DisksGraph.Engine.Correlate
import DisksGraph.Engine.Fragments
import DisksGraph.Model.Rename

/-!
# Engine — Correlated

What a correlation says about the two graphs (`editing/correlate.rs`).

* `Correlates`: one binding, by an identity that one node of each graph carries, or by the only
  tables of two disks that are bound so.
* `correlateNodes_eq_ok`: a correlation is a list of such bindings, in the order of the selection.
* `correlation_sound`: it reads nothing but what outlives a publication.
-/

namespace DisksGraph

/-- One node of the graph carries the identity. -/
structure NodeGraph.SoleCarrier (graph : NodeGraph) (identity : ExternalId) (id : NodeId)
    (node : Node) : Prop where
  found : graph.node id = some node
  carries : identity ∈ node.size.identities
  sole : ∀ other value, graph.node other = some value → identity ∈ value.size.identities →
    other = id

/-- A present object with an identity of its own. -/
structure PresentNode (id : NodeId) (node : Node) : Prop where
  nonNil : id.asUuid.isNil = false
  present : node.size.presence = .present

/-- The two nodes carry one supported identity, which no other node of their graphs carries. -/
structure IdentityMatch (current next : CurrentState) (binding : NodeCorrelation)
    (node candidate : Node) : Prop where
  source : current.graph.SoleCarrier binding.identity binding.source node
  target : next.graph.SoleCarrier binding.identity binding.target candidate
  sourcePresent : PresentNode binding.source node
  targetPresent : PresentNode binding.target candidate
  supported : node.size.identities.filter (supportedIdentity node.kind.kind) = [binding.identity]
  sourceAlone : node.countLike binding.identity = 1
  targetAlone : candidate.countLike binding.identity = 1
  compatible : compatibleKind node.kind.kind candidate.kind.kind = true

/-- The edge is the only dependency of the table, and the table the only one that the disk backs. -/
structure NodeGraph.OnlyTable (graph : NodeGraph) (disk table : NodeId) : Prop where
  backs : ⟨disk, table, .backs⟩ ∈ graph.dependencies
  onlyParent : ∀ edge ∈ graph.dependencies, edge.target = table → edge = ⟨disk, table, .backs⟩
  onlyTable : ∀ edge ∈ graph.dependencies, edge.source = disk → edge.kind = .backs →
    (graph.kindOf edge.target).any NodeKind.isPartitionTable = true → edge.target = table

/-- The two nodes are the only tables of disks that are matched by an identity. -/
structure TableMatch (current next : CurrentState) (binding : NodeCorrelation)
    (disk diskTarget : NodeId) (node candidate : Node) : Prop where
  source : current.graph.node binding.source = some node
  target : next.graph.node binding.target = some candidate
  sourcePresent : PresentNode binding.source node
  targetPresent : PresentNode binding.target candidate
  table : node.kind.kind.isPartitionTable = true
  sameKind : node.kind.kind = candidate.kind.kind
  sourceTable : current.graph.OnlyTable disk binding.source
  targetTable : next.graph.OnlyTable diskTarget binding.target
  physical : (current.graph.kindOf disk).any NodeKind.isPhysicalDisk = true
  disks : ∃ diskNode diskCandidate,
    IdentityMatch current next ⟨disk, diskTarget, binding.identity⟩ diskNode diskCandidate

/-- The binding connects what is one object in both states. -/
inductive Correlates (current next : CurrentState) (binding : NodeCorrelation) : Prop where
  | identity (node candidate : Node) (h : IdentityMatch current next binding node candidate)
  | table (disk diskTarget : NodeId) (node candidate : Node)
      (h : TableMatch current next binding disk diskTarget node candidate)

section Steps

variable {current next : CurrentState} {binding : NodeCorrelation} {graph : NodeGraph}
  {identity : ExternalId} {id source target : NodeId} {node candidate : Node}
  {found found' : List NodeCorrelation}

theorem checkPresent_eq_ok : checkPresent id node = .ok () ↔ PresentNode id node := by
  rw [checkPresent]
  by_cases hnil : id.asUuid.isNil = true
  · rw [if_pos (by simp [hnil])]
    exact ⟨nofun, fun h => absurd (h.nonNil.symm.trans hnil) nofun⟩
  · rw [Bool.not_eq_true] at hnil
    by_cases hpresent : node.size.presence = .present
    · rw [if_neg (by simp [hnil, hpresent])]
      exact ⟨fun _ => ⟨hnil, hpresent⟩, fun _ => rfl⟩
    · rw [if_pos (by simp [hpresent])]
      exact ⟨nofun, fun h => absurd h.present hpresent⟩

theorem mem_carriers : (id, node) ∈ graph.carriers identity ↔
    graph.node id = some node ∧ identity ∈ node.size.identities := by
  rw [NodeGraph.carriers, List.mem_filter, NodeGraph.mem_nodeList, decide_eq_true_eq]

/-- One carrier is found exactly when it is the sole one. -/
theorem carriers_eq_singleton : graph.carriers identity = [(id, node)] ↔
    graph.SoleCarrier identity id node := by
  rw [NodeGraph.carriers_eq_singleton]
  exact ⟨fun ⟨hnode, hcarries, hsole⟩ => ⟨hnode, hcarries, hsole⟩,
    fun ⟨hnode, hcarries, hsole⟩ => ⟨hnode, hcarries, hsole⟩⟩

/-- A node that is known to carry the identity is its only carrier. -/
theorem length_carriers (hnode : graph.node id = some node)
    (hcarries : identity ∈ node.size.identities) :
    (graph.carriers identity).length = 1 ↔ graph.SoleCarrier identity id node := by
  rw [← carriers_eq_singleton, List.length_eq_one_iff]
  constructor
  · rintro ⟨entry, hentry⟩
    have hmem := mem_carriers.mpr ⟨hnode, hcarries⟩
    rw [hentry, List.mem_singleton] at hmem
    rw [hentry, hmem]
  · exact fun h => ⟨_, h⟩

/-- `sole_identity` wants exactly one supported identity. -/
theorem soleIdentity_eq_ok : soleIdentity source node = .ok identity ↔
    node.size.identities.filter (supportedIdentity node.kind.kind) = [identity] := by
  unfold soleIdentity
  split
  · next h => rw [h]; exact ⟨nofun, nofun⟩
  · next found h =>
    rw [h]
    exact ⟨fun heq => by rw [Except.ok.inj heq], fun heq => by rw [(List.cons.inj heq).1]⟩
  · next hempty hone => exact ⟨nofun, fun heq => absurd heq (hone identity)⟩

/-- Matching by identity, for a node of the graph that is present. -/
theorem correlateIdentity_eq_ok {targets : List NodeId}
    (hnode : current.graph.node source = some node)
    (hpresent : PresentNode source node) :
    correlateIdentity current next targets source node = .ok binding ↔
      binding.source = source ∧ binding.target ∉ targets ∧
        ∃ candidate, IdentityMatch current next binding node candidate := by
  rw [correlateIdentity, Support.except_bind_eq_ok]
  constructor
  · rintro ⟨identity, hidentity, h⟩
    -- The checks in the order of the source; a failed one contradicts `h`.
    have hsupported := soleIdentity_eq_ok.mp hidentity
    have hcarries : identity ∈ node.size.identities :=
      List.mem_of_mem_filter (hsupported ▸ List.mem_singleton_self identity)
    split at h
    · cases h
    next halone =>
    split at h
    · cases h
    next hsole =>
    rw [not_not] at halone hsole
    split at h
    · cases h
    · next target candidate others hcarriers =>
      split at h
      · cases h
      next hfresh =>
      rw [Bool.or_eq_true, decide_eq_true_eq, not_or, Bool.not_eq_true, Bool.not_eq_false',
        List.isEmpty_iff] at hfresh
      obtain ⟨rfl, hfresh⟩ := hfresh
      obtain ⟨⟨⟩, hcandidate, h⟩ := Support.except_bind_eq_ok.mp h
      split at h
      · cases h
      next hcompatible =>
      split at h
      · cases h
      next htargetAlone =>
      obtain rfl := Except.ok.inj h
      exact ⟨rfl, hfresh, candidate, (length_carriers hnode hcarries).mp hsole,
        carriers_eq_singleton.mp hcarriers, hpresent, checkPresent_eq_ok.mp hcandidate, hsupported,
        halone, not_not.mp htargetAlone, by simpa using hcompatible⟩
  · rintro ⟨rfl, hfresh, candidate, hmatch⟩
    refine ⟨binding.identity, soleIdentity_eq_ok.mpr hmatch.supported, ?_⟩
    rw [if_neg (not_not_intro hmatch.sourceAlone),
      if_neg (not_not_intro ((length_carriers hnode hmatch.source.carries).mpr hmatch.source)),
      carriers_eq_singleton.mpr hmatch.target]
    dsimp only
    rw [if_neg (by simpa using hfresh), checkPresent_eq_ok.mpr hmatch.targetPresent,
      Support.except_ok_bind, if_neg (by simp [hmatch.compatible]),
      if_neg (not_not_intro hmatch.targetAlone)]

/-! ### Tables -/

/-- The parent of a table, when the table is the only one that a physical disk backs. -/
theorem tableParent_eq_ok {disk table : NodeId}
    (htable : (graph.kindOf table).any NodeKind.isPartitionTable = true) :
    tableParent graph table = .ok disk ↔
      graph.OnlyTable disk table ∧ (graph.kindOf disk).any NodeKind.isPhysicalDisk = true := by
  unfold tableParent
  constructor
  · intro h
    split at h
    · cases h
    · next parent others hparents =>
      dsimp only at h
      split at h
      · cases h
      next hchecks =>
      obtain rfl := Except.ok.inj h
      simp only [Bool.or_eq_true, decide_eq_true_eq, not_or, Bool.not_eq_true, Bool.not_eq_false',
        List.isEmpty_iff, not_not] at hchecks
      obtain ⟨⟨⟨rfl, hkind⟩, hphysical⟩, hcount⟩ := hchecks
      obtain ⟨hparent, htarget, hsole⟩ :=
        (Support.filter_eq_singleton graph.nodup_dependencies).mp hparents
      rw [beq_iff_eq] at htarget
      have hedge : parent = ⟨parent.source, table, .backs⟩ := by
        rw [← htarget, ← hkind]
      refine ⟨⟨hedge ▸ hparent, fun edge hedge' hsame => ?_,
        fun edge hedge' hsource hbacks hother => ?_⟩,
        hphysical⟩
      · exact (hsole edge hedge' (beq_iff_eq.mpr hsame)).trans hedge
      · have hone := (Support.countP_eq_one graph.nodup_dependencies hparent (by
          simp [hkind, htarget, htable])).mp hcount edge hedge' (by simp [hsource, hbacks, hother])
        rw [hone, htarget]
  · rintro ⟨⟨hbacks, honlyParent, honlyTable⟩, hphysical⟩
    -- The two counts of the source are one because the table's only edge is this one.
    have hparents : (graph.dependencies.filter fun edge => edge.target == table) =
        [⟨disk, table, .backs⟩] := by
      refine (Support.filter_eq_singleton graph.nodup_dependencies).mpr
        ⟨hbacks, beq_self_eq_true _, fun edge hedge htarget => ?_⟩
      exact honlyParent edge hedge (beq_iff_eq.mp htarget)
    have hcount :
      (graph.dependencies.countP fun edge => edge.source == disk && edge.kind == .backs &&
        (graph.kindOf edge.target).any NodeKind.isPartitionTable) = 1 := by
      refine (Support.countP_eq_one graph.nodup_dependencies hbacks (by simp [htable])).mpr ?_
      intro edge hedge hchecks
      simp only [Bool.and_eq_true, beq_iff_eq] at hchecks
      exact honlyParent edge hedge (honlyTable edge hedge hchecks.1.1 hchecks.1.2 hchecks.2)
    rw [hparents]
    dsimp only
    rw [hcount, if_neg (by simp [hphysical])]

/-- A physical disk is matched by its identity. -/
theorem correlateDisk_eq_ok {disk : NodeId}
    (hphysical : (current.graph.kindOf disk).any NodeKind.isPhysicalDisk = true) :
    correlateDisk current next source disk = .ok binding ↔
      binding.source = disk ∧ ∃ diskNode candidate,
        IdentityMatch current next binding diskNode candidate := by
  unfold correlateDisk
  cases hdisk : current.graph.node disk with
  | none =>
      rw [NodeGraph.kindOf, hdisk] at hphysical
      cases hphysical
  | some diskNode =>
      have hidentity : (checkPresent disk diskNode *>
          correlateIdentity current next [] disk diskNode) = .ok binding ↔
          binding.source = disk ∧ ∃ diskNode candidate,
            IdentityMatch current next binding diskNode candidate := by
        constructor
        · intro h
          cases hcheck : checkPresent disk diskNode with
          | error error =>
              rw [hcheck] at h
              cases h
          | ok _ =>
              rw [hcheck] at h
              obtain ⟨rfl, -, candidate, hmatch⟩ :=
                (correlateIdentity_eq_ok hdisk (checkPresent_eq_ok.mp hcheck)).mp h
              exact ⟨rfl, diskNode, candidate, hmatch⟩
        · rintro ⟨rfl, diskNode', candidate, hmatch⟩
          obtain rfl := Option.some.inj (hdisk.symm.trans hmatch.source.found)
          rw [checkPresent_eq_ok.mpr hmatch.sourcePresent]
          exact (correlateIdentity_eq_ok hdisk hmatch.sourcePresent).mpr
            ⟨rfl, List.not_mem_nil, candidate, hmatch⟩
      dsimp only
      rw [← hidentity]
      generalize (checkPresent disk diskNode *>
        correlateIdentity current next [] disk diskNode) = result
      -- Only the node that an error names is changed.
      split
      · simp
      · exact Iff.rfl

/-- The tables that a node backs, with their nodes. -/
def NodeGraph.backedTables (graph : NodeGraph) (disk : NodeId) : List (NodeId × Node) :=
  ((graph.dependencies.filter fun edge => edge.source == disk && edge.kind == .backs).filterMap
    fun edge => (graph.node edge.target).map fun node => (edge.target, node)).filter
      fun entry => entry.2.kind.kind.isPartitionTable

/-- The partition tables that a disk backs. -/
theorem mem_backedTables {disk : NodeId} : (id, node) ∈ graph.backedTables disk ↔
    ⟨disk, id, .backs⟩ ∈ graph.dependencies ∧ graph.node id = some node ∧
      node.kind.kind.isPartitionTable = true := by
  rw [NodeGraph.backedTables, List.mem_filter, List.mem_filterMap, and_assoc.symm]
  refine and_congr_left' ?_
  constructor
  · rintro ⟨⟨source, target, kind⟩, hedge, hnode⟩
    obtain ⟨hmem, hchecks⟩ := List.mem_filter.mp hedge
    obtain ⟨value, hvalue, hentry⟩ := Option.map_eq_some_iff.mp hnode
    obtain ⟨rfl, rfl⟩ := Prod.mk.inj hentry
    simp only [Bool.and_eq_true, beq_iff_eq] at hchecks
    obtain ⟨rfl, rfl⟩ := hchecks
    exact ⟨hmem, hvalue⟩
  · rintro ⟨hedge, hnode⟩
    exact ⟨_, List.mem_filter.mpr ⟨hedge, by simp⟩, by rw [hnode]; rfl⟩

theorem nodup_backedTables {disk : NodeId} : (graph.backedTables disk).Nodup := by
  refine List.Nodup.filter _ ?_
  rw [List.filterMap_filter]
  refine graph.nodup_dependencies.filterMap fun edge other entry hedge hother => ?_
  obtain ⟨source, target, kind⟩ := edge
  obtain ⟨source', target', kind'⟩ := other
  simp only [Option.mem_def, Option.ite_none_right_eq_some, Bool.and_eq_true, beq_iff_eq,
    Option.map_eq_some_iff] at hedge hother
  obtain ⟨⟨rfl, rfl⟩, node, -, rfl⟩ := hedge
  obtain ⟨⟨rfl, rfl⟩, node', -, heq⟩ := hother
  rw [(Prod.mk.inj heq).1]

/-- The only table of a disk, which nothing else depends into. -/
theorem backedTables_eq_singleton {disk table : NodeId} (hnode : graph.node table = some node)
    (htable : node.kind.kind.isPartitionTable = true) :
    graph.backedTables disk = [(table, node)] ∧
        graph.dependencies.countP (·.target == table) = 1 ↔ graph.OnlyTable disk table := by
  have hkindOf : (graph.kindOf table).any NodeKind.isPartitionTable = true := by
    rw [NodeGraph.kindOf, hnode]
    exact htable
  -- The count of edges into the table, for the edge from the disk.
  have hcounted : ∀ {edge}, edge = (⟨disk, table, .backs⟩ : Dependency) →
      edge ∈ graph.dependencies → (graph.dependencies.countP (·.target == table) = 1 ↔
        ∀ other ∈ graph.dependencies, other.target = table → other = edge) := by
    rintro _ rfl hedge
    rw [Support.countP_eq_one graph.nodup_dependencies hedge (beq_self_eq_true table)]
    simp only [beq_iff_eq]
  constructor
  · rintro ⟨htables, hcount⟩
    have hall := (Support.eq_singleton_iff nodup_backedTables).mp htables
    have hbacks := (mem_backedTables.mp ((hall _).mpr rfl)).1
    have honlyParent := (hcounted rfl hbacks).mp hcount
    refine ⟨hbacks, honlyParent, fun edge hedge hsource hkind hother => ?_⟩
    obtain ⟨source, target, kind⟩ := edge
    obtain ⟨rfl, rfl⟩ : source = disk ∧ kind = .backs := ⟨hsource, hkind⟩
    rw [NodeGraph.kindOf] at hother
    cases htarget : graph.node target with
    | none =>
        rw [htarget] at hother
        cases hother
    | some value =>
        rw [htarget] at hother
        exact congrArg Prod.fst
          ((hall (target, value)).mp (mem_backedTables.mpr ⟨hedge, htarget, hother⟩))
  · rintro ⟨hbacks, honlyParent, honlyTable⟩
    refine ⟨(Support.eq_singleton_iff nodup_backedTables).mpr ?_,
      (hcounted rfl hbacks).mpr honlyParent⟩
    rintro ⟨other, value⟩
    constructor
    · intro hmem
      obtain ⟨hedge, hvalue, hother⟩ := mem_backedTables.mp hmem
      have hsame : other = table := honlyTable _ hedge rfl rfl (by
        rw [NodeGraph.kindOf, hvalue]
        exact hother)
      subst hsame
      rw [Option.some.inj (hvalue.symm.trans hnode)]
    · intro heq
      obtain ⟨rfl, rfl⟩ := Prod.mk.inj heq
      exact mem_backedTables.mpr ⟨hbacks, hnode, htable⟩

/-- Matching a table, for a table of the graph that is present. -/
theorem correlatePartitionTable_eq_ok (hnode : current.graph.node source = some node)
    (hpresent : PresentNode source node) (htable : node.kind.kind.isPartitionTable = true) :
    correlatePartitionTable current next source = .ok binding ↔
      binding.source = source ∧ ∃ disk diskTarget candidate,
        TableMatch current next binding disk diskTarget node candidate := by
  have hkindOf : current.graph.kindOf source = some node.kind.kind := by
    rw [NodeGraph.kindOf, hnode, Option.map_some]
  have hsourceTable : (current.graph.kindOf source).any NodeKind.isPartitionTable = true := by
    rw [hkindOf]
    exact htable
  rw [correlatePartitionTable, Support.except_bind_eq_ok]
  constructor
  · rintro ⟨disk, hdisk, hrest⟩
    obtain ⟨matched, hmatched, h⟩ := Support.except_bind_eq_ok.mp hrest
    obtain ⟨honly, hphysical⟩ := (tableParent_eq_ok hsourceTable).mp hdisk
    obtain ⟨rfl, hdisks⟩ := (correlateDisk_eq_ok hphysical).mp hmatched
    dsimp only at h
    split at h
    · cases h
    · next target candidate others htables =>
      have htables : next.graph.backedTables matched.target = (target, candidate) :: others := htables
      split at h
      · cases h
      next hchecks =>
      simp only [Bool.or_eq_true, decide_eq_true_eq, not_or, Bool.not_eq_true, Bool.not_eq_false',
        List.isEmpty_iff, not_not] at hchecks
      obtain ⟨rfl, hcount⟩ := hchecks
      obtain ⟨⟨⟩, hcandidate, h⟩ := Support.except_bind_eq_ok.mp h
      split at h
      · cases h
      next hsameKind =>
      obtain rfl := Except.ok.inj h
      obtain ⟨-, htarget, htargetTable⟩ :=
        mem_backedTables.mp (htables ▸ List.mem_singleton_self (target, candidate))
      rw [not_not, hkindOf, Option.some.injEq] at hsameKind
      exact ⟨rfl, matched.source, matched.target, candidate, hnode, htarget, hpresent,
        checkPresent_eq_ok.mp hcandidate, htable, hsameKind, honly,
        (backedTables_eq_singleton htarget htargetTable).mp ⟨htables, hcount⟩, hphysical, hdisks⟩
  · rintro ⟨rfl, disk, diskTarget, candidate, hmatch⟩
    refine ⟨disk, (tableParent_eq_ok hsourceTable).mpr ⟨hmatch.sourceTable, hmatch.physical⟩, ?_⟩
    rw [(correlateDisk_eq_ok hmatch.physical).mpr ⟨rfl, hmatch.disks⟩, Support.except_ok_bind]
    obtain ⟨htables, hcount⟩ := (backedTables_eq_singleton hmatch.target
      (hmatch.sameKind ▸ htable)).mpr hmatch.targetTable
    rw [NodeGraph.backedTables] at htables
    dsimp only
    rw [htables]
    dsimp only
    rw [hcount, if_neg (by simp), checkPresent_eq_ok.mpr hmatch.targetPresent,
      Support.except_ok_bind,
      if_neg (by rw [hkindOf, hmatch.sameKind]; exact not_not_intro rfl)]

/-! ### The loop -/

/-- No identity of a partition table is supported. -/
theorem supportedIdentity_table (h : node.kind.kind.isPartitionTable = true) :
    supportedIdentity node.kind.kind identity = false := by
  cases hkind : node.kind.kind with
  | partitionTable table => rfl
  | _ =>
      rw [hkind] at h
      cases h

/-- A node matched by identity is no partition table. -/
theorem IdentityMatch.notTable (h : IdentityMatch current next binding node candidate) :
    node.kind.kind.isPartitionTable = false := by
  by_contra htable
  rw [Bool.not_eq_false] at htable
  have hmem : binding.identity ∈ node.size.identities.filter (supportedIdentity node.kind.kind) :=
    h.supported ▸ List.mem_singleton_self _
  exact absurd ((List.mem_filter.mp hmem).2.symm.trans (supportedIdentity_table htable)) nofun

theorem Correlates.exists_node (h : Correlates current next binding) :
    ∃ node, current.graph.node binding.source = some node ∧ PresentNode binding.source node := by
  cases h with
  | identity node candidate h => exact ⟨node, h.source.found, h.sourcePresent⟩
  | table disk diskTarget node candidate h => exact ⟨node, h.source, h.sourcePresent⟩

/-- **One selected node** is skipped, or bound to a node that nothing else is bound to. -/
theorem correlateNode_eq_ok : correlateNode current next found source = .ok found' ↔
    (source ∈ found.map (·.source) ∧ found' = found) ∨
    (source ∉ found.map (·.source) ∧ ∃ binding, binding.source = source ∧
      Correlates current next binding ∧ binding.target ∉ found.map (·.target) ∧
      found' = found ++ [binding]) := by
  unfold correlateNode
  by_cases hseen : source ∈ found.map (·.source)
  · rw [if_pos hseen]
    simp only [hseen, not_true_eq_false, true_and, false_and, or_false, Except.ok.injEq, eq_comm]
  rw [if_neg hseen]
  simp only [hseen, not_false_eq_true, true_and, false_and, false_or]
  cases hnode : current.graph.node source with
  | none =>
      refine ⟨nofun, ?_⟩
      rintro ⟨binding, rfl, hcorrelates, -⟩
      obtain ⟨node, hfound, -⟩ := hcorrelates.exists_node
      exact absurd (hnode.symm.trans hfound) nofun
  | some node =>
      dsimp only
      rw [Support.except_bind_eq_ok]
      -- A partition table carries no identity: it is found through its disk.
      by_cases htable : node.kind.kind.isPartitionTable = true
      · simp only [htable, if_true]
        constructor
        · rintro ⟨⟨⟩, hpresent, h⟩
          obtain ⟨binding, hbinding, hrest⟩ := Support.except_bind_eq_ok.mp h
          obtain ⟨rfl, disk, diskTarget, candidate, hmatch⟩ :=
            (correlatePartitionTable_eq_ok hnode
              (checkPresent_eq_ok.mp hpresent) htable).mp hbinding
          split at hrest
          · cases hrest
          · next hfresh =>
            exact ⟨binding, rfl, .table disk diskTarget node candidate hmatch, hfresh,
              (Except.ok.inj hrest).symm⟩
        · rintro ⟨binding, rfl, hcorrelates, hfresh, rfl⟩
          cases hcorrelates with
          | identity node' candidate hmatch =>
              obtain rfl := Option.some.inj (hnode.symm.trans hmatch.source.found)
              exact absurd (htable.symm.trans hmatch.notTable) nofun
          | table disk diskTarget node' candidate hmatch =>
              obtain rfl := Option.some.inj (hnode.symm.trans hmatch.source)
              refine ⟨⟨⟩, checkPresent_eq_ok.mpr hmatch.sourcePresent, ?_⟩
              rw [(correlatePartitionTable_eq_ok hnode hmatch.sourcePresent htable).mpr
                ⟨rfl, disk, diskTarget, candidate, hmatch⟩, Support.except_ok_bind, if_neg hfresh]
      · rw [Bool.not_eq_true] at htable
        simp only [htable, Bool.false_eq_true, if_false]
        constructor
        · rintro ⟨⟨⟩, hpresent, h⟩
          obtain ⟨binding, hbinding, hrest⟩ := Support.except_bind_eq_ok.mp h
          obtain ⟨rfl, hfresh, candidate, hmatch⟩ :=
            (correlateIdentity_eq_ok hnode (checkPresent_eq_ok.mp hpresent)).mp hbinding
          exact ⟨binding, rfl, .identity node candidate hmatch, hfresh, (Except.ok.inj hrest).symm⟩
        · rintro ⟨binding, rfl, hcorrelates, hfresh, rfl⟩
          cases hcorrelates with
          | table disk diskTarget node' candidate hmatch =>
              obtain rfl := Option.some.inj (hnode.symm.trans hmatch.source)
              exact absurd (htable.symm.trans hmatch.table) nofun
          | identity node' candidate hmatch =>
              obtain rfl := Option.some.inj (hnode.symm.trans hmatch.source.found)
              refine ⟨⟨⟩, checkPresent_eq_ok.mpr hmatch.sourcePresent, ?_⟩
              rw [(correlateIdentity_eq_ok hnode hmatch.sourcePresent).mpr
                ⟨rfl, hfresh, candidate, hmatch⟩]
              rfl

/-- The bindings that the loop adds. -/
theorem foldlM_correlateNode {selected : List NodeId} :
    selected.foldlM (correlateNode current next) found = .ok found' ↔
      ∃ added, found' = found ++ added ∧
        added.map (·.source) = keepFirst selected (found.map (·.source)) ∧
        (∀ binding ∈ added, Correlates current next binding) ∧
        (added.map (·.target)).Nodup ∧
          ∀ binding ∈ added, binding.target ∉ found.map (·.target) := by
  induction selected generalizing found with
  | nil =>
      rw [List.foldlM_nil, keepFirst]
      constructor
      · intro h
        exact ⟨[], by rw [List.append_nil]; exact (Except.ok.inj h).symm, rfl,
          List.forall_mem_nil _, List.nodup_nil, List.forall_mem_nil _⟩
      · rintro ⟨added, rfl, hsources, -⟩
        rw [List.map_eq_nil_iff.mp hsources, List.append_nil]
        rfl
  | cons source rest ih =>
      rw [List.foldlM_cons, Support.except_bind_eq_ok, keepFirst]
      simp only [correlateNode_eq_ok, ih]
      by_cases hseen : source ∈ found.map (·.source)
      · simp only [hseen, not_true_eq_false, true_and, false_and, or_false, exists_eq_left, if_true]
      simp only [hseen, not_false_eq_true, true_and, false_and, false_or, if_false]
      -- Binding the source has the effect of having seen it.
      have hseen' : ∀ binding : NodeCorrelation, binding.source = source →
          keepFirst rest ((found ++ [binding]).map (·.source)) =
            keepFirst rest (source :: found.map (·.source)) := by
        rintro binding rfl
        refine keepFirst_congr fun node => ?_
        rw [List.map_append, List.mem_append, List.mem_cons, or_comm]
        exact or_congr_left List.mem_singleton
      constructor
      · rintro ⟨_, ⟨binding, hsource, hcorrelates, hfresh, rfl⟩, added, rfl, hsources, hall, hnodup,
          hapart⟩
        rw [hseen' binding hsource] at hsources
        refine ⟨binding :: added, by simp, by rw [List.map_cons, hsources, hsource],
          List.forall_mem_cons.mpr ⟨hcorrelates, hall⟩, ?_, ?_⟩
        · rw [List.map_cons, List.nodup_cons, List.mem_map]
          refine ⟨?_, hnodup⟩
          rintro ⟨other, hother, hsame⟩
          refine hapart other hother ?_
          rw [hsame, List.map_append]
          exact List.mem_append_right _ List.mem_cons_self
        · refine List.forall_mem_cons.mpr ⟨hfresh, fun other hother hmem => hapart other hother ?_⟩
          rw [List.map_append]
          exact List.mem_append_left _ hmem
      · rintro ⟨added, rfl, hsources, hall, hnodup, hapart⟩
        obtain ⟨binding, added, rfl, hsource, hsources⟩ := List.map_eq_cons_iff.mp hsources
        obtain ⟨hcorrelates, hall⟩ := List.forall_mem_cons.mp hall
        obtain ⟨hfresh, hapart⟩ := List.forall_mem_cons.mp hapart
        rw [List.map_cons, List.nodup_cons, List.mem_map] at hnodup
        refine ⟨_, ⟨binding, hsource, hcorrelates, hfresh, rfl⟩, added, by simp, ?_, hall,
          hnodup.2, ?_⟩
        · rw [hseen' binding hsource, hsources]
        · intro other hother hmem
          rw [List.map_append, List.mem_append] at hmem
          rcases hmem with hmem | hmem
          · exact hapart other hother hmem
          · exact hnodup.1 ⟨other, hother, List.mem_singleton.mp hmem⟩

theorem correlationStructure_eq_ok :
    correlationStructure graph = .ok () ↔ graph.validateStructure = .ok () := by
  unfold correlationStructure
  split
  · next error h => exact ⟨nofun, fun hok => absurd (h.symm.trans hok) nofun⟩
  · next h => exact ⟨fun _ => h, fun _ => rfl⟩

/-- **`correlateNodes_eq_ok`** — a correlation binds every selected node once, in the order in which
they are first selected, to nodes that are apart. -/
theorem correlateNodes_eq_ok {selected : List NodeId} :
    correlateNodes current next selected = .ok found ↔
      current.graph.validateStructure = .ok () ∧ next.graph.validateStructure = .ok () ∧
        found.map (·.source) = keepFirst selected [] ∧
        (∀ binding ∈ found, Correlates current next binding) ∧ (found.map (·.target)).Nodup := by
  simp only [correlateNodes, Support.except_bind_eq_ok, ← correlationStructure_eq_ok,
    foldlM_correlateNode, List.nil_append, List.map_nil, List.not_mem_nil, not_false_eq_true,
    implies_true, and_true, exists_eq_left']
  constructor
  · rintro ⟨⟨⟩, hcurrent, ⟨⟩, hnext, h⟩
    exact ⟨hcurrent, hnext, h⟩
  · rintro ⟨hcurrent, hnext, h⟩
    exact ⟨⟨⟩, hcurrent, ⟨⟩, hnext, h⟩

end Steps

/-! ### Other publications -/

/-- The binding between the renamed nodes. -/
def NodeCorrelation.rename (f g : NodeId → NodeId) (binding : NodeCorrelation) : NodeCorrelation :=
  { binding with source := f binding.source, target := g binding.target }

section Kinds

variable {kind other : NodeKind} {identity : ExternalId} {node : Node}

/-- Names do not matter to the supported identities. -/
theorem supportedIdentity_nameless :
    supportedIdentity kind.nameless identity = supportedIdentity kind identity := by
  cases kind <;> first | rfl | (cases identity <;> rfl)

theorem compatibleKind_nameless :
    compatibleKind kind.nameless other.nameless = compatibleKind kind other := by
  cases kind <;> first | rfl | (cases other <;> rfl)

theorem isPartitionTable_nameless : kind.nameless.isPartitionTable = kind.isPartitionTable := by
  cases kind <;> rfl

theorem isPhysicalDisk_nameless : kind.nameless.isPhysicalDisk = kind.isPhysicalDisk := by
  cases kind <;> rfl

theorem nameless_table (h : kind.isPartitionTable = true) : kind.nameless = kind := by
  cases kind with
  | partitionTable table => rfl
  | _ => cases h

/-- A serial number identifies nothing. -/
theorem not_serial_of_supported (h : supportedIdentity kind identity = true) :
    identity.isSerial = false := by
  cases identity with
  | serial vendor value => cases kind <;> cases h
  | _ => rfl

theorem mem_stable (hserial : identity.isSerial = false) :
    identity ∈ node.stable.identities ↔ identity ∈ node.size.identities := by
  rw [Node.stable, List.mem_filter, hserial, Bool.not_false, and_iff_left rfl]

/-- The supported identities are among the stable ones. -/
theorem supported_stable : node.size.identities.filter (supportedIdentity node.kind.kind) =
    node.stable.identities.filter (supportedIdentity node.stable.kind) := by
  rw [Node.stable, List.filter_filter]
  refine List.filter_congr fun identity _ => ?_
  rw [supportedIdentity_nameless]
  cases hsupported : supportedIdentity node.kind.kind identity with
  | false => rfl
  | true => rw [not_serial_of_supported hsupported]; rfl

theorem countLike_stable (hserial : identity.isSerial = false) : node.countLike identity =
    node.stable.identities.countP fun item => item.discriminant == identity.discriminant := by
  rw [Node.countLike, Node.stable, List.countP_filter]
  refine List.countP_congr fun item _ => ?_
  cases item with
  | serial vendor value =>
      cases identity <;> simp_all [ExternalId.discriminant, ExternalId.isSerial]
  | _ => simp [ExternalId.isSerial]

end Kinds

section Publications

variable {σ τ : NodeId ≃ NodeId} {graph other : NodeGraph}
  {current next current' next' : CurrentState}
  {binding : NodeCorrelation} {identity : ExternalId} {id : NodeId} {node node' candidate : Node}

/-- A renamed graph keeps the presence of a node. -/
theorem PresentNode.same (h : graph.SameStorage σ other) (hpresent : PresentNode id node)
    (hstable : node'.stable = node.stable) : PresentNode (σ id) node' where
  nonNil := (h.nil id).trans hpresent.nonNil
  present := (congrArg StableFacts.presence hstable).trans hpresent.present

/-- A renamed graph keeps the carrier of an identity. -/
theorem NodeGraph.SoleCarrier.same (h : graph.SameStorage σ other)
    (hserial : identity.isSerial = false)
    (hcarrier : graph.SoleCarrier identity id node) :
    ∃ node', other.SoleCarrier identity (σ id) node' ∧ node'.stable = node.stable := by
  obtain ⟨node', hnode', hstable⟩ := h.exists_node hcarrier.found
  refine ⟨node', ⟨hnode', ?_, fun id' value hvalue hcarries => ?_⟩, hstable⟩
  · rw [← mem_stable hserial, hstable, mem_stable hserial]
    exact hcarrier.carries
  · obtain ⟨value', hvalue', hstable'⟩ := h.symm.exists_node hvalue
    have hid := hcarrier.sole (σ.symm id') value' hvalue' (by
      rwa [← mem_stable hserial, hstable', mem_stable hserial])
    rw [← hid, Equiv.apply_symm_apply]

/-- A match by identity survives renaming both graphs. -/
theorem IdentityMatch.same (hcurrent : current.graph.SameStorage σ current'.graph)
    (hnext : next.graph.SameStorage τ next'.graph)
    (h : IdentityMatch current next binding node candidate) :
    ∃ node' candidate', IdentityMatch current' next' (binding.rename σ τ) node' candidate' := by
  have hsupported : binding.identity ∈
      node.size.identities.filter (supportedIdentity node.kind.kind) :=
    h.supported ▸ List.mem_singleton_self _
  have hserial := not_serial_of_supported (List.mem_filter.mp hsupported).2
  obtain ⟨node', hsource, hstable⟩ := h.source.same hcurrent hserial
  obtain ⟨candidate', htarget, hstable'⟩ := h.target.same hnext hserial
  refine ⟨node', candidate', hsource, htarget, h.sourcePresent.same hcurrent hstable,
    h.targetPresent.same hnext hstable', ?_, ?_, ?_, ?_⟩
  · rw [supported_stable, hstable, ← supported_stable]
    exact h.supported
  · rw [countLike_stable (by exact hserial), hstable]
    exact (countLike_stable hserial).symm.trans h.sourceAlone
  · rw [countLike_stable (by exact hserial), hstable']
    exact (countLike_stable hserial).symm.trans h.targetAlone
  · rw [← compatibleKind_nameless]
    change compatibleKind node'.stable.kind candidate'.stable.kind = true
    rw [hstable, hstable']
    exact compatibleKind_nameless.trans h.compatible

theorem NodeGraph.SameStorage.any_kindOf (h : graph.SameStorage σ other) {p : NodeKind → Bool}
    (hp : ∀ kind : NodeKind, p kind.nameless = p kind) (id : NodeId) :
    (other.kindOf (σ id)).any p = (graph.kindOf id).any p := by
  have hstable : ∀ {found : Option Node}, (found.map fun node => node.kind.kind).any p =
      (found.map Node.stable).any fun facts => p facts.kind := by
    intro found
    cases found with
    | none => rfl
    | some node => exact (hp node.kind.kind).symm
  rw [NodeGraph.kindOf, NodeGraph.kindOf, hstable, hstable, h.node]

/-- A renamed graph keeps the only table of a disk. -/
theorem NodeGraph.OnlyTable.same {disk table : NodeId} (h : graph.SameStorage σ other)
    (honly : graph.OnlyTable disk table) : other.OnlyTable (σ disk) (σ table) := by
  have hback : ∀ {edge}, edge ∈ other.dependencies → edge.rename σ.symm ∈ graph.dependencies :=
    fun hedge => (h.symm.dependencies _).mpr hedge
  refine ⟨(h.dependencies _).mpr honly.backs, fun edge hedge htarget => ?_,
    fun edge hedge hsource hkind htable => ?_⟩
  · have hone := honly.onlyParent _ (hback hedge) (σ.symm_apply_eq.mpr htarget)
    rw [← @Dependency.symm_rename σ edge, hone]
    rfl
  · rw [← σ.apply_symm_apply edge.target, h.any_kindOf fun _ => isPartitionTable_nameless] at htable
    exact σ.symm_apply_eq.mp
      (honly.onlyTable _ (hback hedge) (σ.symm_apply_eq.mpr hsource) hkind htable)

/-- A correlation is one in every other publication of the two states. -/
theorem Correlates.same (hcurrent : current.graph.SameStorage σ current'.graph)
    (hnext : next.graph.SameStorage τ next'.graph) (h : Correlates current next binding) :
    Correlates current' next' (binding.rename σ τ) := by
  cases h with
  | identity node candidate h =>
      obtain ⟨node', candidate', hmatch⟩ := h.same hcurrent hnext
      exact .identity node' candidate' hmatch
  | table disk diskTarget node candidate h =>
      obtain ⟨node', hnode', hstable⟩ := hcurrent.exists_node h.source
      obtain ⟨candidate', hcandidate', hstable'⟩ := hnext.exists_node h.target
      have hkind := congrArg StableFacts.kind hstable
      have hkind' := congrArg StableFacts.kind hstable'
      have htable : node'.kind.kind.isPartitionTable = true := by
        rw [← isPartitionTable_nameless]
        exact (congrArg NodeKind.isPartitionTable hkind).trans
          (isPartitionTable_nameless.trans h.table)
      have htable' : candidate'.kind.kind.isPartitionTable = true := by
        rw [← isPartitionTable_nameless]
        exact (congrArg NodeKind.isPartitionTable hkind').trans
          (isPartitionTable_nameless.trans (h.sameKind ▸ h.table))
      have hsameKind : node'.kind.kind = candidate'.kind.kind := by
        rw [← nameless_table htable, ← nameless_table htable']
        exact hkind.trans ((congrArg NodeKind.nameless h.sameKind).trans hkind'.symm)
      obtain ⟨diskNode, diskCandidate, hdisks⟩ := h.disks
      obtain ⟨diskNode', diskCandidate', hdisks'⟩ := hdisks.same hcurrent hnext
      exact .table (σ disk) (τ diskTarget) node' candidate' {
        source := hnode'
        target := hcandidate'
        sourcePresent := h.sourcePresent.same hcurrent hstable
        targetPresent := h.targetPresent.same hnext hstable'
        table := htable
        sameKind := hsameKind
        sourceTable := h.sourceTable.same hcurrent
        targetTable := h.targetTable.same hnext
        physical := (hcurrent.any_kindOf (fun _ => isPhysicalDisk_nameless) disk).trans h.physical
        disks := ⟨diskNode', diskCandidate', hdisks'⟩ }

/-- Renaming commutes with dropping repetitions. -/
theorem keepFirst_map {f : NodeId → NodeId} (hf : Function.Injective f) {nodes seen : List NodeId} :
    keepFirst (nodes.map f) (seen.map f) = (keepFirst nodes seen).map f := by
  induction nodes generalizing seen with
  | nil => rfl
  | cons first rest ih =>
      rw [List.map_cons, keepFirst, keepFirst, ← List.map_cons, ih, ih]
      by_cases hseen : first ∈ seen
      · rw [if_pos hseen, if_pos (List.mem_map_of_mem hseen)]
      · rw [if_neg hseen, if_neg (mt (List.mem_map_of_injective hf).mp hseen), List.map_cons]

/-- **A correlation reads nothing but what outlives a publication.** -/
theorem correlateNodes_same (hcurrent : current.graph.SameStorage σ current'.graph)
    (hnext : next.graph.SameStorage τ next'.graph) {selected : List NodeId}
    {found : List NodeCorrelation} (h : correlateNodes current next selected = .ok found) :
    correlateNodes current' next' (selected.map σ) =
      .ok (found.map (NodeCorrelation.rename σ τ)) := by
  obtain ⟨hvalid, hvalid', hsources, hall, hnodup⟩ := correlateNodes_eq_ok.mp h
  refine correlateNodes_eq_ok.mpr ⟨hcurrent.validateStructure.mpr hvalid,
    hnext.validateStructure.mpr hvalid', ?_, ?_, ?_⟩
  · have hmap := @keepFirst_map σ σ.injective selected []
    rw [List.map_nil, ← hsources, List.map_map] at hmap
    rw [hmap, List.map_map]
    rfl
  · rw [List.forall_mem_map]
    exact fun binding hbinding => (hall binding hbinding).same hcurrent hnext
  · have htargets := hnodup.map τ.injective
    rw [List.map_map] at htargets ⊢
    exact htargets

theorem NodeCorrelation.rename_symm :
    (binding.rename σ τ).rename σ.symm τ.symm = binding := by
  obtain ⟨source, target, identity⟩ := binding
  simp [NodeCorrelation.rename]

/-- In one state every object is bound to itself. -/
theorem Correlates.self (h : Correlates current current binding) :
    binding.target = binding.source := by
  cases h with
  | identity node candidate h =>
      exact h.source.sole _ candidate h.target.found h.target.carries
  | table disk diskTarget node candidate h =>
      obtain ⟨diskNode, diskCandidate, hdisks⟩ := h.disks
      have hdisk : diskTarget = disk :=
        hdisks.source.sole _ diskCandidate hdisks.target.found hdisks.target.carries
      refine h.sourceTable.onlyTable _ h.targetTable.backs hdisk rfl ?_
      rw [NodeGraph.kindOf, h.target, Option.map_some, Option.any_some, ← h.sameKind]
      exact h.table

/-- **`correlation_sound`** — a correlation binds every selected node once, in first-occurrence
order, to nodes that are apart, each by an identity that one node of each graph carries or as the
only tables of two disks bound so.  It is the same for every renaming of the nodes of either graph
and whatever their names, paths, serials, sizes and mounts, and the identity from a state to
itself. -/
theorem correlation_sound (current next : CurrentState) (selected : List NodeId) :
    (∀ found, correlateNodes current next selected = .ok found →
      found.map (·.source) = keepFirst selected [] ∧ (found.map (·.target)).Nodup ∧
        ∀ binding ∈ found, Correlates current next binding) ∧
    (∀ (σ τ : NodeId ≃ NodeId) (current' next' : CurrentState),
      current.graph.SameStorage σ current'.graph → next.graph.SameStorage τ next'.graph →
      ∀ found, correlateNodes current next selected = .ok found ↔
        correlateNodes current' next' (selected.map σ) =
          .ok (found.map (NodeCorrelation.rename σ τ))) ∧
    ∀ found, correlateNodes current current selected = .ok found →
      ∀ binding ∈ found, binding.target = binding.source := by
  refine ⟨fun found h => ?_,
    fun σ τ current' next' hcurrent hnext found => ⟨fun h => ?_, fun h => ?_⟩,
    fun found h binding hbinding => ?_⟩
  · obtain ⟨-, -, hsources, hall, hnodup⟩ := correlateNodes_eq_ok.mp h
    exact ⟨hsources, hnodup, hall⟩
  · exact correlateNodes_same hcurrent hnext h
  · have hback := correlateNodes_same hcurrent.symm hnext.symm h
    rw [List.map_map, List.map_map] at hback
    simpa only [Function.comp_def, Equiv.symm_apply_apply, NodeCorrelation.rename_symm,
      List.map_id'] using hback
  · exact ((correlateNodes_eq_ok.mp h).2.2.2.1 binding hbinding).self

end Publications

/-! ### A disk with a partition table and a volume -/

/-- One publication of them; the serial of the disk, its size and the name of the volume are its
own. -/
def labelledDisk (disk table lv : NodeId) (serial name : String) (size : Bytes) : CurrentState where
  graph :=
    (((NodeGraph.empty.setNode disk ⟨⟨.disk, some size⟩,
      { presence := .present,
        identities := [.serial none serial, .wwn "0x5000c500a1b2c3d4"] }⟩).setNode table
      ⟨⟨.partitionTable .gpt, none⟩, { presence := .present }⟩).setNode lv
      ⟨⟨.lvmLv ⟨name, .linear⟩, some size⟩,
        { presence := .present, identities := [.lvmLvUuid "lv-uuid"] }⟩).insertDependency
      ⟨disk, table, .backs⟩
  mounts := []
  diagnostics := []

/-- The volume, the table through its disk, and the disk are found again under other names, and in
their own publication they are themselves. -/
theorem correlation_sound_table :
    ∃ found same : List NodeCorrelation,
      correlateNodes (labelledDisk ⟨1#128⟩ ⟨2#128⟩ ⟨3#128⟩ "A1" "root" 4096)
          (labelledDisk ⟨11#128⟩ ⟨12#128⟩ ⟨13#128⟩ "B2" "home" 8192)
          [⟨3#128⟩, ⟨2#128⟩, ⟨1#128⟩, ⟨2#128⟩] = .ok found ∧
        found.map (·.source) = [⟨3#128⟩, ⟨2#128⟩, ⟨1#128⟩] ∧
        found.map (·.target) = [⟨13#128⟩, ⟨12#128⟩, ⟨11#128⟩] ∧
        (∀ binding ∈ found,
          Correlates (labelledDisk ⟨1#128⟩ ⟨2#128⟩ ⟨3#128⟩ "A1" "root" 4096)
            (labelledDisk ⟨11#128⟩ ⟨12#128⟩ ⟨13#128⟩ "B2" "home" 8192) binding) ∧
      correlateNodes (labelledDisk ⟨1#128⟩ ⟨2#128⟩ ⟨3#128⟩ "A1" "root" 4096)
          (labelledDisk ⟨1#128⟩ ⟨2#128⟩ ⟨3#128⟩ "A1" "root" 4096) [⟨2#128⟩, ⟨3#128⟩] = .ok same ∧
        ∀ binding ∈ same, binding.target = binding.source := by
  obtain ⟨found, hfound, htargets⟩ : ∃ found : List NodeCorrelation,
      correlateNodes (labelledDisk ⟨1#128⟩ ⟨2#128⟩ ⟨3#128⟩ "A1" "root" 4096)
          (labelledDisk ⟨11#128⟩ ⟨12#128⟩ ⟨13#128⟩ "B2" "home" 8192)
          [⟨3#128⟩, ⟨2#128⟩, ⟨1#128⟩, ⟨2#128⟩] = .ok found ∧
        found.map (·.target) = [⟨13#128⟩, ⟨12#128⟩, ⟨11#128⟩] := ⟨_, rfl, by decide +kernel⟩
  obtain ⟨same, hsame⟩ : ∃ same : List NodeCorrelation,
      correlateNodes (labelledDisk ⟨1#128⟩ ⟨2#128⟩ ⟨3#128⟩ "A1" "root" 4096)
          (labelledDisk ⟨1#128⟩ ⟨2#128⟩ ⟨3#128⟩ "A1" "root" 4096) [⟨2#128⟩, ⟨3#128⟩] = .ok same :=
    ⟨_, rfl⟩
  obtain ⟨hsources, -, hall⟩ := (correlation_sound _ _ _).1 found hfound
  exact ⟨found, same, hfound, hsources, htargets, hall, hsame,
    (correlation_sound _ (labelledDisk ⟨1#128⟩ ⟨2#128⟩ ⟨3#128⟩ "A1" "root" 4096) _).2.2 same hsame⟩

end DisksGraph
