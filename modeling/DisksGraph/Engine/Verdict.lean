import DisksGraph.Engine.Goal
import DisksGraph.Model.Reorder

/-!
# Engine — Verdict

What the graph aspect of a goal depends on.

The comparison of the goal nodes stops at its first finding, whatever that is.  The variant of the
verdict is therefore the same in every order of the nodes only when no missing evidence can hide a
contradiction.

* `graphVerdict_order`: when that is so.
* `activation_superseded`: when an earlier activation request counts no more than the last one.
-/

namespace DisksGraph

open Support (Returns)

/-- The variant of a status. -/
inductive Verdict where
  | satisfied
  | violated
  | unknown
deriving DecidableEq, Repr

/-- The status without its text. -/
def LiveCheckStatus.verdict : LiveCheckStatus → Verdict
  | .satisfied => .satisfied
  | .violated _ => .violated
  | .unknown _ => .unknown

/-- The same context, whose goal iterates its nodes and edges in another order. -/
def ExecutionContext.withGoal (context : ExecutionContext) (graph : NodeGraph) : ExecutionContext :=
  { context with requestedGoal := { context.requestedGoal with graph } }

/-- The checks are made, and the graph aspect has the given variant. -/
def GraphVerdict (context : ExecutionContext) (observed : LiveObservation)
    (bindings : List NodeCorrelation) (verdict : Verdict) : Prop :=
  ∃ checks status, checkObservedGoal context observed bindings = pure checks ∧
    ⟨.graph, status⟩ ∈ checks ∧ status.verdict = verdict

/-- The variant of the graph aspect is the same in every order of the goal. -/
def OrderFree (context : ExecutionContext) (observed : LiveObservation)
    (bindings : List NodeCorrelation) : Prop :=
  ∀ graph, context.requestedGoal.graph.Reorders graph → ∀ verdict,
    GraphVerdict (context.withGoal graph) observed bindings verdict ↔
      GraphVerdict context observed bindings verdict

/-- Some goal node is contradicted by its observed node. -/
def Contradicted (context : ExecutionContext) (observed : LiveObservation)
    (bindings : List NodeCorrelation) : Prop :=
  ∃ entry ∈ context.requestedGoal.graph.nodeList,
    Contradicts context.historicalBaseline observed bindings entry

/-- A goal node conforms to an observed node that another goal node is correlated with too. -/
def Shares (context : ExecutionContext) (observed : LiveObservation)
    (bindings : List NodeCorrelation) : Prop :=
  ∃ entry ∈ context.requestedGoal.graph.nodeList, ∃ other ∈ context.requestedGoal.graph.nodeList,
    Conforms context.historicalBaseline observed bindings entry ∧ other ≠ entry ∧
      ∃ actual, resultNode context.historicalBaseline observed other.1 bindings =
        .ok (goalTarget context.historicalBaseline observed bindings entry.1, actual)

/-- Every goal node is correlated with a node of a size known where one is requested, and no node
that conforms shares its observed node. -/
def Decided (context : ExecutionContext) (observed : LiveObservation)
    (bindings : List NodeCorrelation) : Prop :=
  (∀ entry ∈ context.requestedGoal.graph.nodeList,
    ¬Undecided context.historicalBaseline observed bindings entry) ∧
  ¬Shares context observed bindings

/-- Every goal node conforms to an observed node of its own. -/
def Matched (context : ExecutionContext) (observed : LiveObservation)
    (bindings : List NodeCorrelation) : Prop :=
  (∀ entry ∈ context.requestedGoal.graph.nodeList,
    Conforms context.historicalBaseline observed bindings entry) ∧
  (context.requestedGoal.graph.nodeList.map fun entry =>
    goalTarget context.historicalBaseline observed bindings entry.1).Nodup

section Order

variable {context : ExecutionContext} {observed : LiveObservation} {bindings : List NodeCorrelation}
  {graph : NodeGraph} {verdict : Verdict}

/-! ### One order -/

/-- The aspect is the first check. -/
theorem exists_checks {status : LiveCheckStatus}
    (hobservable : checkGoalObservable context observed = .ok ())
    (hstatus : graphStatus context observed bindings = some status) :
    ∃ rest, checkObservedGoal context observed bindings =
      pure (⟨.graph, qualifyObservedStatus observed status⟩ :: rest) := by
  exact ⟨_, Returns.bind_eq_pure.mpr ⟨(), Returns.lift_eq_pure.mpr hobservable,
    Returns.bind_eq_pure.mpr ⟨status, Returns.unwrap_eq_pure.mpr hstatus, rfl⟩⟩⟩

/-- A verdict on the graph is the status of the sound snapshots, qualified. -/
theorem graphVerdict_iff : GraphVerdict context observed bindings verdict ↔
    checkGoalObservable context observed = .ok () ∧ ∃ status,
      graphStatus context observed bindings = some status ∧
        (qualifyObservedStatus observed status).verdict = verdict := by
  constructor
  · rintro ⟨checks, status, hchecks, hmem, hverdict⟩
    obtain ⟨hobservable, status', rest, hstatus, rfl, hrest⟩ := checkObservedGoal_eq_pure hchecks
    rcases List.mem_cons.mp hmem with hhead | hmem
    · obtain rfl := (LiveCheck.mk.inj hhead).2
      exact ⟨hobservable, status', hstatus, hverdict⟩
    · exact absurd rfl (hrest _ hmem)
  · rintro ⟨hobservable, status, hstatus, hverdict⟩
    obtain ⟨rest, hchecks⟩ := exists_checks hobservable hstatus
    exact ⟨_, _, hchecks, List.mem_cons_self, hverdict⟩

/-- The qualification of a partial observation depends on the variant alone. -/
theorem verdict_qualify {status other : LiveCheckStatus} (h : status.verdict = other.verdict) :
    (qualifyObservedStatus observed status).verdict =
      (qualifyObservedStatus observed other).verdict := by
  cases status <;> cases other <;> try cases h
  · rfl
  · rw [qualifyObservedStatus, qualifyObservedStatus, if_neg (by simp), if_neg (by simp)]
    rfl
  · rw [qualifyObservedStatus, qualifyObservedStatus, if_neg (by simp), if_neg (by simp)]
    rfl

theorem qualify_of_ne_satisfied {status : LiveCheckStatus} (h : status ≠ .satisfied) :
    qualifyObservedStatus observed status = status := by
  rw [qualifyObservedStatus, if_neg fun hboth => h hboth.1]

/-- Where the nodes are not matched, the aspect is what the first finding says. -/
theorem graphStatus_unmatched (h : ¬Matched context observed bindings) :
    ∃ status, graphStatus context observed bindings = some status ∧
      (status.verdict = .violated ∧ Contradicted context observed bindings ∨
        status.verdict = .unknown ∧ ¬Decided context observed bindings) := by
  cases hloop : context.requestedGoal.graph.nodeList.foldlM
      (matchGoalNode context.historicalBaseline observed bindings) [] with
  | ok mapping =>
      obtain ⟨hall, hnodup, -, -⟩ := foldlM_matchGoalNode.mp hloop
      exact absurd ⟨hall, hnodup⟩ h
  | error status =>
      refine ⟨status, by rw [graphStatus, hloop], ?_⟩
      obtain ⟨before, entry, after, mapping, hsplit, hbefore, hround⟩ :=
        Support.foldlM_eq_error.mp hloop
      have hentry : entry ∈ context.requestedGoal.graph.nodeList := by
        rw [hsplit]
        exact List.mem_append_right _ List.mem_cons_self
      rcases matchGoalNode_eq_error hround with ⟨_, rfl, hcontra⟩ | ⟨_, rfl, hmissing⟩
      · exact .inl ⟨rfl, entry, hentry, hcontra⟩
      · refine .inr ⟨rfl, fun hdecided => ?_⟩
        rcases hmissing with hundecided | htaken
        · exact hdecided.1 entry hentry hundecided
        -- An earlier node conforms to the observed node of this one.
        · obtain ⟨hall, -, -, rfl⟩ := foldlM_matchGoalNode.mp hbefore
          rw [List.nil_append, List.map_map, List.mem_map] at htaken
          obtain ⟨earlier, hearlier, hsame⟩ := htaken
          cases hresult : resultNode context.historicalBaseline observed entry.1 bindings with
          | error status => exact hdecided.1 entry hentry (.inl ⟨status, hresult⟩)
          | ok result =>
              refine hdecided.2
                ⟨earlier, ?_, entry, hentry, hall earlier hearlier, ?_, result.2, ?_⟩
              · rw [hsplit]
                exact List.mem_append_left _ hearlier
              · rintro rfl
                have hnodup := (@NodeGraph.nodup_ids context.requestedGoal.graph).of_map
                rw [hsplit] at hnodup
                exact List.disjoint_of_nodup_append hnodup hearlier List.mem_cons_self
              · rw [hresult, show goalTarget _ _ _ earlier.1 = goalTarget _ _ _ entry.1 from hsame,
                  goalTarget_eq hresult]

/-- A first node without evidence ends the comparison. -/
theorem graphStatus_undecided_first {entry : NodeId × Node} {rest : List (NodeId × Node)}
    (horder : context.requestedGoal.graph.nodeList = entry :: rest)
    (h : Undecided context.historicalBaseline observed bindings entry) :
    ∃ reason, graphStatus context observed bindings = some (.unknown reason) := by
  have hround : ∃ reason, matchGoalNode context.historicalBaseline observed bindings [] entry =
      .error (.unknown reason) := by
    rcases h with ⟨status, hresult⟩ | ⟨target, actual, hresult, hunknown⟩
    · obtain ⟨reason, rfl⟩ := resultNode_unknown hresult
      exact ⟨reason, by rw [matchGoalNode, hresult]; rfl⟩
    · have hspec := @compareGoalNode_spec entry.2 actual
      cases hcompare : compareGoalNode entry.2 actual with
      | ok _ =>
          rw [hcompare] at hspec
          cases hspec with
          | same hsame =>
              obtain ⟨size, hsize⟩ := Option.ne_none_iff_exists'.mp hunknown.2.1
              have hsized := hsame.2 size hsize
              rw [hunknown.2.2] at hsized
              cases hsized
      | error status =>
          rw [hcompare] at hspec
          cases hspec with
          | differs _ hdiffers => exact absurd hdiffers hunknown.not_differs
          | sizeUnknown reason _ =>
              refine ⟨reason, ?_⟩
              rw [matchGoalNode, hresult, Support.except_ok_bind]
              dsimp only
              rw [if_neg (by exact List.not_mem_nil), hcompare]
              rfl
  obtain ⟨reason, hround⟩ := hround
  exact ⟨reason, by rw [graphStatus, horder, List.foldlM_cons, hround]; rfl⟩

/-- So does a second node with the observed node of the first. -/
theorem graphStatus_shared_first {entry other : NodeId × Node} {rest : List (NodeId × Node)}
    {actual : Node} (horder : context.requestedGoal.graph.nodeList = entry :: other :: rest)
    (hentry : Conforms context.historicalBaseline observed bindings entry)
    (hother : resultNode context.historicalBaseline observed other.1 bindings =
      .ok (goalTarget context.historicalBaseline observed bindings entry.1, actual)) :
    ∃ reason, graphStatus context observed bindings = some (.unknown reason) := by
  have hfirst : matchGoalNode context.historicalBaseline observed bindings [] entry =
      .ok [(entry.1, goalTarget context.historicalBaseline observed bindings entry.1)] :=
    matchGoalNode_eq_ok.mpr ⟨hentry, List.not_mem_nil, rfl⟩
  refine ⟨"final graph correlation is not one-to-one", ?_⟩
  rw [graphStatus, horder, List.foldlM_cons, hfirst, Support.except_ok_bind, List.foldlM_cons,
    matchGoalNode, hother, Support.except_ok_bind]
  dsimp only
  rw [if_pos (by exact List.mem_cons_self)]
  rfl

/-! ### Every order -/

section Reorders

variable (h : context.requestedGoal.graph.Reorders graph)
include h

theorem contradicted_reorders : Contradicted (context.withGoal graph) observed bindings ↔
    Contradicted context observed bindings := by
  change (∃ entry ∈ graph.nodeList, _) ↔ ∃ entry ∈ context.requestedGoal.graph.nodeList, _
  simp only [h.nodeList.mem_iff]
  rfl

theorem decided_reorders : Decided (context.withGoal graph) observed bindings ↔
    Decided context observed bindings := by
  change ((∀ entry ∈ graph.nodeList, _) ∧ ¬∃ entry ∈ graph.nodeList, ∃ other ∈ graph.nodeList, _) ↔
    (∀ entry ∈ context.requestedGoal.graph.nodeList, _) ∧
      ¬∃ entry ∈ context.requestedGoal.graph.nodeList,
        ∃ other ∈ context.requestedGoal.graph.nodeList, _
  simp only [h.nodeList.mem_iff]
  rfl

theorem matched_reorders : Matched (context.withGoal graph) observed bindings ↔
    Matched context observed bindings := by
  refine and_congr ?_ (h.nodeList.map _).nodup_iff.symm
  change (∀ entry ∈ graph.nodeList, _) ↔ ∀ entry ∈ context.requestedGoal.graph.nodeList, _
  simp only [h.nodeList.mem_iff]
  rfl

theorem sameTopology_reorders {f : NodeId → NodeId} :
    SameTopology f graph observed.snapshot.graph ↔
      SameTopology f context.requestedGoal.graph observed.snapshot.graph := by
  have hnodes := h.nodeList.length_eq
  have hdependencies := h.dependencies.length_eq
  have hrelations := h.relations.length_eq
  constructor
  · intro hsame
    exact ⟨hnodes.trans hsame.nodes, hdependencies.trans hsame.dependencyCount,
      hrelations.trans hsame.relationCount,
      fun edge hedge => hsame.dependencies edge (h.mem_dependencies.mpr hedge),
      fun edge hedge => hsame.relations edge (h.mem_relations.mpr hedge)⟩
  · intro hsame
    exact ⟨hnodes.symm.trans hsame.nodes, hdependencies.symm.trans hsame.dependencyCount,
      hrelations.symm.trans hsame.relationCount,
      fun edge hedge => hsame.dependencies edge (h.mem_dependencies.mp hedge),
      fun edge hedge => hsame.relations edge (h.mem_relations.mp hedge)⟩

theorem checkGoalObservable_reorders :
    checkGoalObservable (context.withGoal graph) observed = .ok () ↔
      checkGoalObservable context observed = .ok () := by
  have hstep : ∀ goal : ExecutionContext, goal.historicalBaseline = context.historicalBaseline →
      (checkGoalObservable goal observed = .ok () ↔
        checkObservable context.historicalBaseline observed = .ok () ∧
          goal.requestedGoal.graph.validateStructure = .ok ()) := by
    intro goal hbaseline
    constructor
    · intro hok
      exact hbaseline ▸ checkGoalObservable_eq_ok hok
    · rintro ⟨hobservable, hvalid⟩
      rw [checkGoalObservable, hbaseline, hobservable, hvalid]
      rfl
  exact (hstep (context.withGoal graph) rfl).trans
    ((and_congr_right' h.validateStructure).trans (hstep context rfl).symm)

/-- A matched goal is judged the same in every order. -/
theorem graphStatus_matched_reorders
    (hvalid : context.requestedGoal.graph.validateStructure = .ok ())
    (hmatched : Matched context observed bindings) :
    graphStatus (context.withGoal graph) observed bindings =
      graphStatus context observed bindings := by
  have hmatched' := (matched_reorders h).mpr hmatched
  obtain ⟨hsame, hother⟩ := graphStatus_matched hvalid hmatched.1 hmatched.2
  obtain ⟨hsame', hother'⟩ := @graphStatus_matched (context.withGoal graph) observed bindings
    (h.validateStructure.mpr hvalid) hmatched'.1 hmatched'.2
  by_cases htopology : SameTopology (goalTarget context.historicalBaseline observed bindings)
      context.requestedGoal.graph observed.snapshot.graph
  · rw [hsame htopology, hsame' ((sameTopology_reorders h).mpr htopology)]
    rfl
  · rw [hother htopology, hother' fun hsame => htopology ((sameTopology_reorders h).mp hsame)]

/-- Where no evidence can hide a contradiction, the variant is the same in both orders. -/
theorem graphVerdict_reorders (hvalid : context.requestedGoal.graph.validateStructure = .ok ())
    (hdecided : Contradicted context observed bindings → Decided context observed bindings) :
    GraphVerdict (context.withGoal graph) observed bindings verdict ↔
      GraphVerdict context observed bindings verdict := by
  rw [graphVerdict_iff, graphVerdict_iff, checkGoalObservable_reorders h]
  refine and_congr_right' ?_
  by_cases hmatched : Matched context observed bindings
  · rw [graphStatus_matched_reorders h hvalid hmatched]
  · obtain ⟨status, hstatus, hfinding⟩ := graphStatus_unmatched hmatched
    obtain ⟨status', hstatus', hfinding'⟩ :=
      graphStatus_unmatched (mt (matched_reorders h).mp hmatched)
    rw [contradicted_reorders h, decided_reorders h] at hfinding'
    have hverdict : status'.verdict = status.verdict := by
      rcases hfinding with ⟨hviolated, hcontra⟩ | ⟨hunknown, hundecided⟩ <;>
        rcases hfinding' with ⟨hviolated', hcontra'⟩ | ⟨hunknown', hundecided'⟩
      · rw [hviolated, hviolated']
      · exact absurd (hdecided hcontra) hundecided'
      · exact absurd (hdecided hcontra') hundecided
      · rw [hunknown, hunknown']
    rw [hstatus, hstatus']
    simp only [Option.some.injEq, exists_eq_left', verdict_qualify hverdict]

end Reorders

/-- There is one verdict. -/
theorem GraphVerdict.unique {other : Verdict} (h : GraphVerdict context observed bindings verdict)
    (h' : GraphVerdict context observed bindings other) : verdict = other := by
  obtain ⟨-, status, hstatus, hverdict⟩ := graphVerdict_iff.mp h
  obtain ⟨-, status', hstatus', hverdict'⟩ := graphVerdict_iff.mp h'
  obtain rfl := Option.some.inj (hstatus.symm.trans hstatus')
  exact hverdict.symm.trans hverdict'

/-- Where evidence is missing, some order stops at it. -/
theorem exists_unknown_order (hobservable : checkGoalObservable context observed = .ok ())
    (h : ¬Decided context observed bindings) :
    ∃ graph, context.requestedGoal.graph.Reorders graph ∧
      GraphVerdict (context.withGoal graph) observed bindings .unknown := by
  have hfirst : ∀ {order : List (NodeId × Node)}, context.requestedGoal.graph.nodeList.Perm order →
      (∀ graph : NodeGraph, graph.nodeList = order →
        ∃ reason, graphStatus (context.withGoal graph) observed bindings = some (.unknown reason)) →
      ∃ graph, context.requestedGoal.graph.Reorders graph ∧
        GraphVerdict (context.withGoal graph) observed bindings .unknown := by
    intro order hperm hunknown
    obtain ⟨graph, hgraph, horder⟩ := NodeGraph.exists_reorders hperm
    obtain ⟨reason, hstatus⟩ := hunknown graph horder
    refine ⟨graph, hgraph, graphVerdict_iff.mpr
      ⟨(checkGoalObservable_reorders hgraph).mpr hobservable, _, hstatus, ?_⟩⟩
    have hne : LiveCheckStatus.unknown reason ≠ .satisfied := nofun
    exact congrArg LiveCheckStatus.verdict (qualify_of_ne_satisfied hne)
  rw [Decided, not_and_or, not_not] at h
  rcases h with h | ⟨entry, hentry, other, hother, hconforms, hne, actual, hresult⟩
  · push Not at h
    obtain ⟨entry, hentry, hundecided⟩ := h
    exact hfirst (List.perm_cons_erase hentry) fun graph horder =>
      graphStatus_undecided_first horder hundecided
  · have hother' := (List.mem_erase_of_ne hne).mpr hother
    exact hfirst ((List.perm_cons_erase hentry).trans ((List.perm_cons_erase hother').cons entry))
      fun graph horder => graphStatus_shared_first horder hconforms hresult

/-- **`graphVerdict_order`** — the variant of the graph aspect does not depend on the order of the
goal, and is a violation whenever some goal node is contradicted, exactly when no contradiction can
be hidden by missing evidence. -/
theorem graphVerdict_order {checks : List (LiveCheck GoalAspect)}
    (h : checkObservedGoal context observed bindings = pure checks) :
    (OrderFree context observed bindings ∧
        (Contradicted context observed bindings →
          GraphVerdict context observed bindings .violated)) ↔
      (Contradicted context observed bindings → Decided context observed bindings) := by
  obtain ⟨hobservable, status, rest, hstatus, -, -⟩ := checkObservedGoal_eq_pure h
  obtain ⟨-, hvalid⟩ := checkGoalObservable_eq_ok hobservable
  constructor
  · rintro ⟨horder, hdominates⟩ hcontra
    by_contra hundecided
    obtain ⟨graph, hgraph, hunknown⟩ := exists_unknown_order hobservable hundecided
    have hsame := (hdominates hcontra).unique ((horder graph hgraph .unknown).mp hunknown)
    cases hsame
  · intro hdecided
    refine ⟨fun graph hgraph verdict => graphVerdict_reorders hgraph hvalid hdecided,
      fun hcontra => ?_⟩
    have hunmatched : ¬Matched context observed bindings := by
      obtain ⟨entry, hentry, hcontra⟩ := hcontra
      exact fun hmatched => hcontra.not_conforms (hmatched.1 entry hentry)
    obtain ⟨status, hstatus, ⟨hviolated, -⟩ | ⟨-, hundecided⟩⟩ := graphStatus_unmatched hunmatched
    · refine graphVerdict_iff.mpr ⟨hobservable, status, hstatus, ?_⟩
      rw [qualify_of_ne_satisfied, hviolated]
      rintro rfl
      cases hviolated
    · exact absurd (hdecided hcontra) hundecided

end Order

/-- The volume has another size, but the comparison starts at the group, which is another one. -/
theorem graph_aspect_stops_at_missing_evidence :
    Contradicted (liveContext []) (liveLater "other-uuid" 8192 false) [] ∧
      GraphVerdict (liveContext []) (liveLater "other-uuid" 8192 false) [] .unknown ∧
      ¬(OrderFree (liveContext []) (liveLater "other-uuid" 8192 false) [] ∧
        (Contradicted (liveContext []) (liveLater "other-uuid" 8192 false) [] →
          GraphVerdict (liveContext []) (liveLater "other-uuid" 8192 false) [] .violated)) := by
  have hcontra : Contradicted (liveContext []) (liveLater "other-uuid" 8192 false) [] :=
    ⟨(⟨2#128⟩, _), List.mem_cons_of_mem _ List.mem_cons_self, ⟨12#128⟩, _, rfl,
      .inr ⟨4096, 8192, rfl, rfl, by decide⟩⟩
  have hunknown : GraphVerdict (liveContext []) (liveLater "other-uuid" 8192 false) [] .unknown :=
    ⟨_, _, rfl, List.mem_cons_self, rfl⟩
  refine ⟨hcontra, hunknown, ?_⟩
  rintro ⟨-, hdominates⟩
  have hsame := (hdominates hcontra).unique hunknown
  cases hsame

/-- Where the group is the same, the other size is reported in every order. -/
theorem graphVerdict_order_resized :
    OrderFree (liveContext []) (liveLater "vg-uuid" 8192 false) [] ∧
      GraphVerdict (liveContext []) (liveLater "vg-uuid" 8192 false) [] .violated := by
  have hviolated : GraphVerdict (liveContext []) (liveLater "vg-uuid" 8192 false) [] .violated :=
    ⟨_, _, rfl, List.mem_cons_self, rfl⟩
  have hgroup : resultNode (liveContext []).historicalBaseline (liveLater "vg-uuid" 8192 false)
      ⟨1#128⟩ [] = .ok (⟨11#128⟩, _) := rfl
  have hvolume : resultNode (liveContext []).historicalBaseline (liveLater "vg-uuid" 8192 false)
      ⟨2#128⟩ [] = .ok (⟨12#128⟩, _) := rfl
  obtain ⟨checks, -, hchecks, -, -⟩ := id hviolated
  refine ⟨((graphVerdict_order hchecks).mpr fun _ => ⟨fun entry hentry => ?_, ?_⟩).1, hviolated⟩
  · rcases List.mem_cons.mp hentry with rfl | hentry
    · rintro (⟨status, hmissing⟩ | ⟨_, _, hresult, hunknown⟩)
      · cases hgroup.symm.trans hmissing
      · obtain ⟨rfl, rfl⟩ := Prod.mk.inj (Except.ok.inj (hgroup.symm.trans hresult))
        cases hunknown.2.2
    · obtain rfl := List.mem_singleton.mp hentry
      rintro (⟨status, hmissing⟩ | ⟨_, _, hresult, hunknown⟩)
      · cases hvolume.symm.trans hmissing
      · obtain ⟨rfl, rfl⟩ := Prod.mk.inj (Except.ok.inj (hvolume.symm.trans hresult))
        cases hunknown.2.2
  · rintro ⟨entry, hentry, other, hother, -, hne, actual, hresult⟩
    rcases List.mem_cons.mp hentry with rfl | hentry <;>
      rcases List.mem_cons.mp hother with rfl | hother
    · exact hne rfl
    · obtain rfl := List.mem_singleton.mp hother
      cases hvolume.symm.trans hresult
    · obtain rfl := List.mem_singleton.mp hentry
      cases hgroup.symm.trans hresult
    · obtain rfl := List.mem_singleton.mp hentry
      exact hne (List.mem_singleton.mp hother)

/-! ### Activation -/

/-- Everything but the activation of the volumes is as requested. -/
structure OtherwiseMatches (context : ExecutionContext) (observed : LiveObservation)
    (bindings : List NodeCorrelation) : Prop where
  matched : Matched context observed bindings
  topology : SameTopology (goalTarget context.historicalBaseline observed bindings)
    context.requestedGoal.graph observed.snapshot.graph
  complete : observed.isBlocked = false

theorem mem_lookup_reverse {requests : List (NodeId × Bool)} {target : NodeId}
    (h : target ∈ requests.map (·.1)) : ∃ active, lastRequest requests target = some active := by
  cases hlast : lastRequest requests target with
  | some active => exact ⟨active, rfl⟩
  | none =>
      obtain ⟨request, hrequest, rfl⟩ := List.mem_map.mp h
      have hall := List.lookup_eq_none_iff.mp hlast request (List.mem_reverse.mpr hrequest)
      simp at hall

/-- **`activation_superseded`** — where every volume is as its last request in the plan asks and
everything else matches, the graph aspect is satisfied exactly when no intent asks for another state
than that last request.  Every volume that an intent names has a request in the plan; nothing else
is assumed of the two lists. -/
theorem activation_superseded {context : ExecutionContext} {observed : LiveObservation}
    {bindings : List NodeCorrelation} {checks : List (LiveCheck GoalAspect)}
    {ordered : List PlannedAction} {requests : List (NodeId × Bool)}
    (h : checkObservedGoal context observed bindings = pure checks)
    (hordered : context.plan.orderedActions = some ordered)
    (hintents : context.requestedGoal.intents = requests.map fun request =>
      .setActivation request.1 request.2)
    (hsame : requests.map (·.1) ⊆ (activationRequests ordered).map (·.1))
    (hmatches : OtherwiseMatches context observed bindings)
    (hactivated : ∀ target active, lastRequest (activationRequests ordered) target = some active →
      Activated context observed bindings (target, active)) :
    ⟨.graph, .satisfied⟩ ∈ checks ↔
      ∀ request ∈ requests, lastRequest
        (activationRequests ordered) request.1 = some request.2 := by
  obtain ⟨hobservable, status, rest, hstatus, rfl, hrest⟩ := checkObservedGoal_eq_pure h
  obtain ⟨-, hvalid⟩ := checkGoalObservable_eq_ok hobservable
  have hqualify : qualifyObservedStatus observed status = status := by
    rw [qualifyObservedStatus, if_neg (by simp [hmatches.complete])]
  have hgraph : status = .satisfied ↔
      requestsStatus context observed bindings ordered = .satisfied := by
    rw [(graphStatus_matched hvalid hmatches.matched.1 hmatches.matched.2).1 hmatches.topology,
      hordered, Option.map_some] at hstatus
    rw [Option.some.inj hstatus]
  have hmem : (⟨.graph, .satisfied⟩ : LiveCheck GoalAspect) ∈ ⟨.graph, status⟩ :: rest ↔
      status = .satisfied := by
    constructor
    · intro hmem
      rcases List.mem_cons.mp hmem with hhead | hmem
      · exact (LiveCheck.mk.inj hhead).2.symm
      · exact absurd rfl (hrest _ hmem)
    · rintro rfl
      exact List.mem_cons_self
  rw [hqualify, hmem, hgraph, requestsStatus_eq_satisfied, and_iff_right hactivated, hintents,
    List.forall_mem_map]
  refine forall₂_congr fun request hrequest => ?_
  obtain ⟨active, hlast⟩ := mem_lookup_reverse (hsame (List.mem_map_of_mem hrequest))
  constructor
  · rintro ⟨_, _, heq, htarget, node, hresult, -, hstate, -⟩
    obtain ⟨rfl, rfl⟩ := OperationIntent.setActivation.inj heq
    -- The intent and the last request are checked against one observed volume.
    obtain ⟨_, node', hresult', -, hstate', -⟩ := hactivated request.1 active hlast
    obtain ⟨-, rfl⟩ := Prod.mk.inj (Except.ok.inj (hresult.symm.trans hresult'))
    rw [hlast, ← hstate', hstate]
  · intro hrequested
    exact ⟨request.1, request.2, rfl, hactivated _ _ hrequested⟩

/-- The active volume under its later identities is all that the goal asks for. -/
theorem otherwiseMatches_live {requests : List Bool} :
    OtherwiseMatches (liveContext requests) (liveLater "vg-uuid" 4096 true) [] where
  matched := by
    refine ⟨fun entry hentry => ?_,
      show ([⟨11#128⟩, ⟨12#128⟩] : List NodeId).Nodup from by decide⟩
    rcases List.mem_cons.mp hentry with rfl | hentry
    · exact ⟨_, rfl, rfl⟩
    · obtain rfl := List.mem_singleton.mp hentry
      exact ⟨_, rfl, rfl⟩
  topology := by
    refine ⟨rfl, rfl, rfl, fun edge hedge => ?_, nofun⟩
    obtain rfl := List.mem_singleton.mp hedge
    exact List.mem_cons_self
  complete := rfl

theorem activated_live {requests : List Bool} :
    Activated (liveContext requests) (liveLater "vg-uuid" 4096 true) [] (⟨2#128⟩, true) :=
  ⟨_, _, rfl, rfl, rfl, fun _ => rfl⟩

/-- The volume is deactivated and then activated, as the plan and the intents ask in this order.  It
is observed active, and the first intent is still held against it. -/
theorem superseded_intent_violates :
    OtherwiseMatches (liveContext [false, true]) (liveLater "vg-uuid" 4096 true) [] ∧
      (∃ ordered, (liveContext [false, true]).plan.orderedActions = some ordered ∧
        activationRequests ordered = [(⟨2#128⟩, false), (⟨2#128⟩, true)] ∧
        (liveContext [false, true]).requestedGoal.intents =
          [.setActivation ⟨2#128⟩ false, .setActivation ⟨2#128⟩ true] ∧
        lastRequest (activationRequests ordered) ⟨2#128⟩ = some true) ∧
      Activated (liveContext [false, true]) (liveLater "vg-uuid" 4096 true) [] (⟨2#128⟩, true) ∧
      GraphVerdict (liveContext [false, true]) (liveLater "vg-uuid" 4096 true) [] .violated :=
  ⟨otherwiseMatches_live, ⟨_, rfl, rfl, rfl, rfl⟩, activated_live,
    ⟨_, _, rfl, List.mem_cons_self, rfl⟩⟩

/-- Two requests for one volume: where both ask for it active the goal is met, where the first asked
for it inactive it is not. -/
theorem activation_superseded_twice :
    (∃ checks, checkObservedGoal (liveContext [true, true]) (liveLater "vg-uuid" 4096 true) [] =
      pure checks ∧ ⟨.graph, .satisfied⟩ ∈ checks) ∧
    ∃ checks, checkObservedGoal (liveContext [false, true]) (liveLater "vg-uuid" 4096 true) [] =
      pure checks ∧ ⟨.graph, .satisfied⟩ ∉ checks := by
  have hlast : ∀ (first : Bool) (target : NodeId) (active : Bool),
      lastRequest [(⟨2#128⟩, first), (⟨2#128⟩, true)] target = some active →
        target = ⟨2#128⟩ ∧ active = true := by
    intro first target active hlast
    by_cases htarget : target = ⟨2#128⟩
    · subst htarget
      exact ⟨rfl, (Option.some.inj hlast).symm⟩
    · have hbeq : (target == ⟨2#128⟩) = false := beq_false_of_ne htarget
      simp [lastRequest, List.lookup_cons, hbeq] at hlast
  have hiff : ∀ (first : Bool) (checks : List (LiveCheck GoalAspect))
    (ordered : List PlannedAction),
      checkObservedGoal (liveContext [first, true]) (liveLater "vg-uuid" 4096 true) [] =
        pure checks →
      (liveContext [first, true]).plan.orderedActions = some ordered →
      activationRequests ordered = [(⟨2#128⟩, first), (⟨2#128⟩, true)] →
      (⟨.graph, .satisfied⟩ ∈ checks ↔ first = true) := by
    intro first checks ordered hchecks hordered hrequests
    rw [@activation_superseded _ _ _ _ _ [(⟨2#128⟩, first), (⟨2#128⟩, true)] hchecks hordered rfl
      (by simp [hrequests]) otherwiseMatches_live ?_, hrequests]
    · simp [lastRequest, eq_comm]
    · intro target active hrequest
      rw [hrequests] at hrequest
      obtain ⟨rfl, rfl⟩ := hlast first target active hrequest
      exact activated_live
  obtain ⟨checks, ordered, hchecks, hordered, hrequests⟩ : ∃ checks ordered,
      checkObservedGoal (liveContext [true, true]) (liveLater "vg-uuid" 4096 true) [] =
        pure checks ∧
        (liveContext [true, true]).plan.orderedActions = some ordered ∧
        activationRequests ordered = [(⟨2#128⟩, true), (⟨2#128⟩, true)] :=
    ⟨_, _, rfl, rfl, rfl⟩
  obtain ⟨refused, reordered, hrefused, hreordered, hfirst⟩ : ∃ checks ordered,
      checkObservedGoal (liveContext [false, true]) (liveLater "vg-uuid" 4096 true) [] =
        pure checks ∧
        (liveContext [false, true]).plan.orderedActions = some ordered ∧
        activationRequests ordered = [(⟨2#128⟩, false), (⟨2#128⟩, true)] :=
    ⟨_, _, rfl, rfl, rfl⟩
  refine ⟨⟨checks, hchecks, (hiff true checks ordered hchecks hordered hrequests).mpr rfl⟩,
    refused, hrefused, fun hsatisfied => ?_⟩
  cases (hiff false refused reordered hrefused hreordered hfirst).mp hsatisfied

end DisksGraph
