import DisksGraph.Editing.Session
import DisksGraph.Support.History

/-!
# Editing — History

Undo and redo of an editing session (`session.rs`) walk one timeline of drafts.

* `PlanSession.history`: the two stacks and the draft between them, as a bounded history.
* `PlanSession.Walk`: a session with the drafts it published since its last baseline change.
* `history_follows_timeline`: the stacks are the drafts next to the current one, and with room for
  one draft undo takes back an edit and redo takes back an undo.
-/

namespace DisksGraph

open Support (History Returns Stateful Timeline)
open Support.Stateful (Atomic Completes)

/-- Building a draft against a baseline does not fail inside the engine. -/
def HistoricalBaseline.Builds (keys : ContractKeys) (baseline : HistoricalBaseline)
    (draft : PlanDraft) : Prop :=
  ∃ result, buildPreview keys baseline draft = some result ∧
    ∀ error, result = .error error → error.isInternal = false

/-- These are the drafts whose forecast a session retains. -/
theorem builds_iff {keys : ContractKeys} {baseline : HistoricalBaseline} {draft : PlanDraft}
    {ε : Type} (abort : DraftBuildError → ε) : baseline.Builds keys draft ↔
      ∃ preview, PreviewState.retain abort (buildPreview keys baseline draft) = pure preview := by
  constructor
  · rintro ⟨result, hbuild, hinternal⟩
    rw [hbuild]
    cases result with
    | ok plan => exact ⟨_, rfl⟩
    | error error =>
        refine ⟨.from (.error error), ?_⟩
        change (if error.isInternal = true then _ else _) = _
        rw [hinternal error rfl, if_neg Bool.false_ne_true]
  · rintro ⟨preview, hretain⟩
    obtain ⟨result, hbuild, -⟩ := PreviewState.retain_eq_pure hretain
    refine ⟨result, hbuild, ?_⟩
    rintro error rfl
    rw [hbuild] at hretain
    change (if error.isInternal = true then _ else _) = _ at hretain
    by_contra hinternal
    rw [if_pos (by simpa using hinternal)] at hretain
    cases hretain

namespace PlanSession

variable {keys : ContractKeys} {session : PlanSession} {timeline : Timeline PlanDraft}

/-- The stacks of a session with the draft between them. -/
def history (session : PlanSession) : History PlanDraft :=
  ⟨session.historyLimit, session.undo, session.draft, session.redo⟩

/-! ### What one call does to the history -/

/-- An edit that succeeds records its candidate and keeps the baseline. -/
theorem edit_history (expected : DraftRevision) (command : PlanEdit) (id : OperationId)
    (node : NodeId) (session : PlanSession) :
    Atomic (edit keys expected command id node) session fun _ next =>
      next.baseline = session.baseline ∧ next.history = session.history.record next.draft ∧
        session.baseline.Builds keys next.draft := by
  refine (edit_spec expected command id node session).mono ?_
  rintro _ next ⟨revision, candidate, preview, -, hpreview, rfl⟩
  exact ⟨rfl, rfl, (builds_iff EditError.internalBuild).mpr ⟨preview, hpreview⟩⟩

theorem undo_history (expected : DraftRevision) (session : PlanSession) :
    Atomic (undo_ keys expected) session fun _ next =>
      next.baseline = session.baseline ∧ session.history.back = some next.history := by
  refine (undo_spec expected session).mono ?_
  rintro _ next ⟨revision, candidate, preview, -, hlast, -, rfl⟩
  exact ⟨rfl, Option.map_eq_some_iff.mpr ⟨candidate, hlast, rfl⟩⟩

theorem redo_history (expected : DraftRevision) (session : PlanSession) :
    Atomic (redo_ keys expected) session fun _ next =>
      next.baseline = session.baseline ∧ session.history.forward = some next.history := by
  refine (redo_spec expected session).mono ?_
  rintro _ next ⟨revision, candidate, preview, -, hlast, -, rfl⟩
  exact ⟨rfl, Option.map_eq_some_iff.mpr ⟨candidate, hlast, rfl⟩⟩

/-- An accepted rebase starts the history afresh on the new baseline. -/
theorem acceptRebase_history (expected : DraftRevision) (review : RebasePreview)
    (session : PlanSession) :
    Atomic (acceptRebase expected review) session fun _ next =>
      next.baseline = review.baseline ∧
        next.history = ⟨session.historyLimit, [], review.draft, []⟩ := by
  refine Atomic.bind_get ?_
  refine Atomic.bind_guard Stateful.Guards.of_reject fun _ _ => ?_
  refine Atomic.bind_guard Stateful.Guards.of_reject fun _ _ => ?_
  refine Atomic.bind_guard Stateful.Guards.of_reject fun _ _ => ?_
  cases session.revision.next with
  | none => exact Atomic.of_throw _
  | some revision =>
      refine (Completes.bind (Completes.of_set (Q := fun _ next => next = _) rfl)
        fun _ next hset => .of_pure ?_).atomic
      subst hset
      exact ⟨rfl, rfl⟩

theorem checkRevision_completes {revision : DraftRevision}
    (h : session.revision.next = some revision) :
    Completes (checkRevision session.revision) session fun answer next =>
      answer = revision ∧ next = session := by
  refine Completes.bind_get ?_
  rw [Stateful.reject, if_neg (by simp), h]
  exact ⟨revision, session, rfl, rfl, rfl⟩

theorem buildCandidate_completes {candidate : PlanDraft}
    (h : session.baseline.Builds keys candidate) :
    Completes (buildCandidate keys candidate) session fun _ next => next = session := by
  obtain ⟨preview, hpreview⟩ := (builds_iff EditError.internalBuild).mp h
  refine Completes.bind_get ?_
  rw [hpreview]
  exact ⟨preview, session, rfl, rfl⟩

/-- At the current revision a draft on the stack is restored, when it builds. -/
theorem restore_completes {stack : PlanSession → List PlanDraft} {missing : EditError}
    {publish : PlanDraft → PreviewState → DraftRevision → PlanSession → PlanSession}
    {revision : DraftRevision} (hnext : session.revision.next = some revision)
    {candidate : PlanDraft} (hlast : (stack session).getLast? = some candidate)
    (hbuilds : session.baseline.Builds keys candidate) :
    Completes (restore keys session.revision stack missing publish) session fun answer _ =>
      answer = revision := by
  refine (checkRevision_completes hnext).bind ?_
  rintro answer _ ⟨rfl, rfl⟩
  refine Completes.bind_get ?_
  rw [hlast]
  refine (buildCandidate_completes hbuilds).bind ?_
  rintro preview _ rfl
  exact Completes.bind Completes.of_modify fun _ _ _ => .of_pure rfl

/-- An undo at the current revision succeeds when there is a draft to go back to. -/
theorem undo_completes {revision : DraftRevision} (hnext : session.revision.next = some revision)
    {before : History PlanDraft} (hback : session.history.back = some before)
    (hbuilds : session.baseline.Builds keys before.current) :
    Completes (undo_ keys session.revision) session fun answer _ => answer = revision := by
  obtain ⟨candidate, hlast, rfl⟩ := Option.map_eq_some_iff.mp hback
  rw [undo_eq]
  exact restore_completes hnext hlast hbuilds

/-- A redo at the current revision succeeds when there is a draft to go forward to. -/
theorem redo_completes {revision : DraftRevision} (hnext : session.revision.next = some revision)
    {after : History PlanDraft} (hforward : session.history.forward = some after)
    (hbuilds : session.baseline.Builds keys after.current) :
    Completes (redo_ keys session.revision) session fun answer _ => answer = revision := by
  obtain ⟨candidate, hlast, rfl⟩ := Option.map_eq_some_iff.mp hforward
  rw [redo_eq]
  exact restore_completes hnext hlast hbuilds

end PlanSession

/-! ### Runs -/

/-- What a successful call does to the timeline: an edit truncates it and appends the published
draft, undo and redo move the position, and a new baseline starts it again. -/
def SessionCall.mark (published : PlanDraft) : SessionCall → Timeline PlanDraft → Timeline PlanDraft
  | .edit .., timeline => timeline.record published
  | .undo _, timeline => timeline.back
  | .redo _, timeline => timeline.forward
  | .acceptRebase .., _ => .start published

/-- A session that a program can hold, with its drafts since the last baseline change. -/
inductive PlanSession.Walk (text : EditingText) : PlanSession → Timeline PlanDraft → Prop
  | new {id : Uuid} {baseline : HistoricalBaseline} {session : PlanSession}
      (h : PlanSession.new text.keys id baseline = pure session) :
      Walk text session (.start session.draft)
  | fromDocument {document : DraftDocument} {session : PlanSession}
      (h : PlanSession.fromDocument text document = pure session) :
      Walk text session (.start session.draft)
  | call {session next : PlanSession} {timeline : Timeline PlanDraft}
      (hwalk : Walk text session timeline) {call : SessionCall} (hcall : call.Prepared text.keys)
      (h : Stateful.call (call.run text.keys) session = some (.ok ⟨⟩, next)) :
      Walk text next (call.mark next.draft timeline)
  | rejected {session next : PlanSession} {timeline : Timeline PlanDraft}
      (hwalk : Walk text session timeline) {call : SessionCall} (hcall : call.Prepared text.keys)
      {error : EditError ⊕ RebaseError}
      (h : Stateful.call (call.run text.keys) session = some (.error error, next)) :
      Walk text next timeline
  | setHistoryLimit {session : PlanSession} {timeline : Timeline PlanDraft}
      (hwalk : Walk text session timeline) (limit : Nat) :
      Walk text (session.setHistoryLimit limit) timeline

/-- Every session that a program can hold has such a timeline. -/
theorem PlanSession.Reachable.walk {text : EditingText} {session : PlanSession}
    (h : session.Reachable text) : ∃ timeline, session.Walk text timeline := by
  induction h with
  | new h => exact ⟨_, .new h⟩
  | fromDocument h => exact ⟨_, .fromDocument h⟩
  | @call session next _ call hcall result h ih =>
      obtain ⟨timeline, hwalk⟩ := ih
      cases result with
      | ok _ => exact ⟨_, .call hwalk hcall h⟩
      | error error => exact ⟨_, .rejected hwalk hcall h⟩
  | setHistoryLimit _ limit ih =>
      obtain ⟨timeline, hwalk⟩ := ih
      exact ⟨_, .setHistoryLimit hwalk limit⟩

namespace PlanSession

variable {text : EditingText} {session next : PlanSession} {timeline : Timeline PlanDraft}

/-- What a walk keeps: the stacks follow the timeline, and no draft on it fails inside the
engine. -/
structure Remembers (keys : ContractKeys) (session : PlanSession) (timeline : Timeline PlanDraft) :
    Prop where
  follows : session.history.Follows timeline
  builds : ∀ draft ∈ timeline.entries, session.baseline.Builds keys draft

/-- A session with empty stacks remembers the timeline of its draft. -/
theorem Remembers.start {keys : ContractKeys} (hundo : session.undo = [])
    (hredo : session.redo = [])
    (hbuilds : session.baseline.Builds keys session.draft) :
    session.Remembers keys (.start session.draft) := by
  refine ⟨?_, fun draft hdraft => ?_⟩
  · rw [history, hundo, hredo]
    exact .start session.draft
  · rw [List.mem_singleton.mp hdraft]
    exact hbuilds

/-- A successful call moves along the timeline. -/
theorem Remembers.call {keys : ContractKeys} (h : session.Remembers keys timeline)
    {call : SessionCall} (hcall : call.Prepared keys)
    (hrun : Stateful.call (call.run keys) session = some (.ok ⟨⟩, next)) :
    next.Remembers keys (call.mark next.draft timeline) := by
  cases call with
  | edit expected command id node =>
      obtain ⟨_, hbaseline, hhistory, hbuilds⟩ :=
        (edit_history expected command id node session).adapt.discard.ok hrun
      refine ⟨hhistory ▸ h.follows.record _, fun draft hdraft => ?_⟩
      rw [hbaseline]
      rcases List.mem_append.mp hdraft with hkept | hnew
      · exact h.builds draft (List.mem_of_mem_take hkept)
      · exact List.mem_singleton.mp hnew ▸ hbuilds
  | undo expected =>
      obtain ⟨_, hbaseline, hback⟩ := (undo_history expected session).adapt.discard.ok hrun
      exact ⟨h.follows.back hback, hbaseline ▸ h.builds⟩
  | redo expected =>
      obtain ⟨_, hbaseline, hforward⟩ := (redo_history expected session).adapt.discard.ok hrun
      exact ⟨h.follows.forward hforward, hbaseline ▸ h.builds⟩
  | acceptRebase expected review =>
      obtain ⟨_, hbaseline, hhistory⟩ :=
        (acceptRebase_history expected review session).adapt.discard.ok hrun
      have hdraft : next.draft = review.draft := congrArg History.current hhistory
      refine .start (congrArg History.undo hhistory) (congrArg History.redo hhistory) ?_
      rw [hbaseline, hdraft]
      obtain ⟨source, expected', baseline, hprepare⟩ := hcall
      exact (builds_iff RebaseError.inputs).mpr ⟨_, prepareRebase_retains hprepare⟩

theorem Walk.remembers (h : session.Walk text timeline) : session.Remembers text.keys timeline := by
  induction h with
  | @new id baseline session h =>
      obtain ⟨preview, hbuild, h⟩ := Returns.bind_eq_pure.mp h
      cases Returns.pure_inj.mp h
      exact .start rfl rfl ⟨_, hbuild, nofun⟩
  | fromDocument h =>
      obtain ⟨_, -, h⟩ := Returns.bind_eq_pure.mp h
      obtain ⟨preview, hpreview, h⟩ := Returns.bind_eq_pure.mp h
      cases Returns.pure_inj.mp h
      exact .start rfl rfl ((builds_iff DraftDocumentError.inputs).mpr ⟨preview, hpreview⟩)
  | call _ hcall h ih => exact ih.call hcall h
  | rejected _ hcall h ih => exact (SessionCall.run_atomic hcall _).error h ▸ ih
  | setHistoryLimit _ limit ih => exact ⟨ih.follows.restrict limit, ih.builds⟩

/-- An undo or a redo that brings a draft back: called at the current revision it succeeds unless
no revision is left, and whenever it succeeds the draft is published as it was. -/
def Restores (method : DraftRevision → SessionM EditError DraftRevision) (session : PlanSession)
    (draft : PlanDraft) : Prop :=
  (∀ revision, session.revision.next = some revision → ∃ next,
    Stateful.call (method session.revision) session = some (.ok revision, next)) ∧
  ∀ expected revision next, Stateful.call (method expected) session = some (.ok revision, next) →
    next.draft = draft

/-- Undo restores the draft before the current one. -/
theorem undo_restores {keys : ContractKeys} {before : History PlanDraft}
    (hback : session.history.back = some before)
    (hbuilds : session.baseline.Builds keys before.current) :
    session.Restores (undo_ keys) before.current := by
  refine ⟨fun revision hnext => ?_, fun expected revision next hcall => ?_⟩
  · obtain ⟨answer, next, hcall, rfl⟩ := undo_completes hnext hback hbuilds
    exact ⟨next, hcall⟩
  · obtain ⟨-, hback'⟩ := (undo_history expected session).ok hcall
    exact congrArg History.current (Option.some.inj (hback'.symm.trans hback))

/-- Redo restores the draft that was undone last. -/
theorem redo_restores {keys : ContractKeys} {after : History PlanDraft}
    (hforward : session.history.forward = some after)
    (hbuilds : session.baseline.Builds keys after.current) :
    session.Restores (redo_ keys) after.current := by
  refine ⟨fun revision hnext => ?_, fun expected revision next hcall => ?_⟩
  · obtain ⟨answer, next, hcall, rfl⟩ := redo_completes hnext hforward hbuilds
    exact ⟨next, hcall⟩
  · obtain ⟨-, hforward'⟩ := (redo_history expected session).ok hcall
    exact congrArg History.current (Option.some.inj (hforward'.symm.trans hforward))

end PlanSession

/-- **Undo and redo walk one timeline.**  After every run of calls and changes of the limit the
current draft is the one at the position, and the two stacks are the drafts directly before and
directly after it, each within the limit.  With room for one draft, undo after an edit restores the
draft before it and redo after undo restores the draft that was undone. -/
theorem history_follows_timeline {text : EditingText} {session : PlanSession}
    {timeline : Timeline PlanDraft} (h : session.Walk text timeline) :
    timeline.entries[timeline.position]? = some session.draft ∧
    session.undo <:+ timeline.entries.take timeline.position ∧
    session.redo.reverse <+: timeline.entries.drop (timeline.position + 1) ∧
    session.undo.length ≤ session.historyLimit ∧ session.redo.length ≤ session.historyLimit ∧
    (1 ≤ session.historyLimit →
      (∀ expected command id node receipt next,
        Stateful.call (PlanSession.edit text.keys expected command id node) session =
          some (.ok receipt, next) →
        next.Restores (PlanSession.undo_ text.keys) session.draft) ∧
      ∀ expected revision next,
        Stateful.call (PlanSession.undo_ text.keys expected) session = some (.ok revision, next) →
        next.Restores (PlanSession.redo_ text.keys) session.draft) := by
  have hremembers := h.remembers
  have hfollows := hremembers.follows
  have hbuilds : session.baseline.Builds text.keys session.draft :=
    hremembers.builds _ (List.mem_of_getElem? hfollows.current)
  refine ⟨hfollows.current, hfollows.undo, hfollows.redo, hfollows.undo_le, hfollows.redo_le,
    fun hlimit => ⟨fun expected command id node receipt next hcall => ?_,
      fun expected revision next hcall => ?_⟩⟩
  all_goals have hroom : 1 ≤ session.history.limit := hlimit
  · obtain ⟨hbaseline, hhistory, -⟩ :=
      (PlanSession.edit_history expected command id node session).ok hcall
    obtain ⟨before, hback, hcurrent⟩ := Support.History.back_record hroom next.draft
    rw [← hhistory] at hback
    have hcurrent' : before.current = session.draft := hcurrent
    rw [← hcurrent']
    exact PlanSession.undo_restores hback (by rwa [hbaseline, hcurrent'])
  · obtain ⟨hbaseline, hback⟩ := (PlanSession.undo_history expected session).ok hcall
    obtain ⟨after, hforward, hcurrent⟩ := Support.History.forward_back hroom hback
    have hcurrent' : after.current = session.draft := hcurrent
    rw [← hcurrent']
    exact PlanSession.redo_restores hforward (by rwa [hbaseline, hcurrent'])

/-- The edit that adds a tmpfs mount. -/
def sampleCommand : PlanEdit := .add (.mount ⟨.tmpfs, sampleTarget, [], .host⟩)

/-- The first edit of a fresh session retains one draft, and undo restores it. -/
theorem history_follows_timeline_edited : ∃ session receipt next, sampleOpened = pure session ∧
    Stateful.call (PlanSession.edit sampleKeys {} sampleCommand ⟨1#128⟩ ⟨2#128⟩) session =
      some (.ok receipt, next) ∧
    next.undo.length = 1 ∧ next.Restores (PlanSession.undo_ sampleKeys) session.draft := by
  have hrun : (sampleOpened.toOption.bind fun session =>
      (Stateful.call (PlanSession.edit sampleKeys {} sampleCommand ⟨1#128⟩ ⟨2#128⟩) session).map
        fun result => (result.1.isOk, result.2.undo.length, session.historyLimit)) =
      some (true, 1, 64) := by decide +kernel
  obtain ⟨session, hopened, hrun⟩ := Option.bind_eq_some_iff.mp hrun
  have hopened := Returns.toOption_eq_some.mp hopened
  obtain ⟨⟨result, next⟩, hcall, hresult⟩ := Option.map_eq_some_iff.mp hrun
  simp only [Prod.mk.injEq] at hresult
  cases result with
  | error error => cases hresult.1
  | ok receipt =>
      have hwalk : session.Walk sampleEditing (.start session.draft) := .new hopened
      obtain ⟨hundo, -⟩ := (history_follows_timeline hwalk).2.2.2.2.2
        (by rw [hresult.2.2]; decide)
      exact ⟨session, receipt, next, hopened, hcall, hresult.2.1, hundo _ _ _ _ _ _ hcall⟩

end DisksGraph
