import DisksGraph.Facade.ReadOnly
import DisksGraph.Runtime.Session
import DisksGraph.Support.Quiet
import DisksGraph.Support.Tables

/-!
# Facade — Objects

What a protocol owns after any number of requests.

* `Protocol.Kept`: every session is reachable, every plan passes its analysis, every run is what the
  coordinator made of a new one, every rebase under review was prepared from the session that its
  owner had then, the owner is still open, and nothing grows beyond its bound.
* `Accounts`: every acknowledgement of an incident uses up one review that the host gave out, with
  the confirmation of that review.
* `Protocol.Kept.insertSession` and the others: one lemma for each change of a protocol.
-/

namespace DisksGraph

open Support (Effectful Failure Program Stateful)
open Support.Effectful (Ends Quiet)
open Support.Tables (Bounded)

/-! ### Incident reviews -/

/-- The reviews that the host gave out, and the acknowledgements that were sent to it. -/
structure ReviewLedger where
  found : List IncidentReview := []
  acknowledged : List (IncidentReview × Uuid) := []

/-- One call with its answer. -/
def ReviewLedger.observe (ledger : ReviewLedger) :
    Program.Event FacadeCall FacadeCall.Answer → ReviewLedger
  | ⟨.reviewIncident, answer⟩ =>
      match (answer : Except (Failure IncidentError) (Option IncidentReview)) with
      | .ok (some candidate) => { ledger with found := candidate :: ledger.found }
      | _ => ledger
  | ⟨.acknowledgeIncident review confirmation, _⟩ =>
      { ledger with acknowledged := (review, confirmation) :: ledger.acknowledged }
  | _ => ledger

/-- A review with the confirmation that it asks for. -/
def IncidentReview.challenge (review : IncidentReview) : IncidentReview × Uuid :=
  (review, review.token)

/-- An acknowledgement confirms a review that the host gave out and that was not used before. -/
def ReviewLedger.Allows (ledger : ReviewLedger) : FacadeCall → Prop
  | .acknowledgeIncident review confirmation =>
      ((review, confirmation) :: ledger.acknowledged).Subperm
        (ledger.found.map IncidentReview.challenge)
  | _ => True

/-- The challenge of a retained review. -/
def RetainedReview.challenge : RetainedReview → Option (IncidentReview × Uuid)
  | .rebase .. => none
  | .incident candidate => some candidate.challenge

/-- The challenges of the incident reviews that are retained. -/
def challenges (reviews : AList fun _ : Uuid => RetainedReview) : List (IncidentReview × Uuid) :=
  reviews.entries.filterMap fun entry => entry.2.challenge

/-- Acknowledged and retained reviews are reviews of the host, each used once. -/
def Accounts (reviews : AList fun _ : Uuid => RetainedReview) (ledger : ReviewLedger) : Prop :=
  (ledger.acknowledged ++ challenges reviews).Subperm (ledger.found.map IncidentReview.challenge)

section Accounts

variable {reviews : AList fun _ : Uuid => RetainedReview} {ledger : ReviewLedger} {id : Uuid}

/-- Fewer reviews. -/
theorem Accounts.sublist {fewer : AList fun _ : Uuid => RetainedReview}
    (h : Accounts reviews ledger) (hentries : fewer.entries.Sublist reviews.entries) :
    Accounts fewer ledger :=
  ((hentries.filterMap _).append_left _).subperm.trans h

theorem Accounts.erase (h : Accounts reviews ledger) : Accounts (reviews.erase id) ledger :=
  h.sublist (List.kerase_sublist id reviews.entries)

theorem Accounts.insertRebase (h : Accounts reviews ledger) (owner : SessionId)
    (candidate : RebasePreview) : Accounts (reviews.insert id (.rebase owner candidate)) ledger :=
  @Accounts.sublist reviews _ (reviews.erase id) h (List.kerase_sublist id reviews.entries)

/-- A review that the host has just given out. -/
theorem Accounts.insertIncident (h : Accounts reviews ledger) (candidate : IncidentReview) :
    Accounts (reviews.insert id (.incident candidate))
      { ledger with found := candidate :: ledger.found } := by
  have hentries : challenges (reviews.insert id (.incident candidate)) =
      candidate.challenge :: challenges (reviews.erase id) := rfl
  rw [Accounts, hentries]
  -- The new review is one more on both sides, wherever it stands.
  refine List.perm_middle.subperm.trans ?_
  have herased : Accounts (reviews.erase id) ledger := h.erase
  exact (List.subperm_cons _).mpr herased

theorem Accounts.found (h : Accounts reviews ledger) (candidate : IncidentReview) :
    Accounts reviews { ledger with found := candidate :: ledger.found } :=
  h.trans (List.sublist_cons_self _ _).subperm

/-- A retained review that is acknowledged with its own confirmation. -/
theorem Accounts.acknowledge (h : Accounts reviews ledger) {candidate : IncidentReview}
    (hreview : reviews.lookup id = some (.incident candidate)) :
    Accounts (reviews.erase id)
      { ledger with acknowledged := candidate.challenge :: ledger.acknowledged } := by
  have hperm : (challenges reviews).Perm
      (candidate.challenge :: challenges (reviews.erase id)) :=
    (Support.Tables.perm_erase hreview).filterMap _
  refine List.Subperm.trans ?_ h
  exact (List.perm_middle.symm.trans (hperm.symm.append_left _)).subperm

/-- A retained review may be acknowledged. -/
theorem Accounts.allows (h : Accounts reviews ledger) {candidate : IncidentReview}
    (hreview : reviews.lookup id = some (.incident candidate)) :
    ledger.Allows (.acknowledgeIncident candidate candidate.token) := by
  have hused : Accounts (reviews.erase id)
      { ledger with acknowledged := candidate.challenge :: ledger.acknowledged } :=
    h.acknowledge hreview
  exact (List.sublist_append_left _ _).subperm.trans hused

end Accounts

/-! ### What is kept -/

/-- A rebase that was prepared from a session. -/
def RebasePreview.Prepared (text : EditingText) (source : PlanSession) (candidate : RebasePreview) :
    Prop :=
  ∃ (expected : DraftRevision) (baseline : HistoricalBaseline),
    source.prepareRebase text.keys expected baseline = pure candidate

/-- What holds of the objects of a protocol, where `past` are the sessions that it had under each
handle.  Of its runs only as far as the coordinator is trusted to leave runs. -/
structure Protocol.Kept (text : EditingText) (past : SessionId → PlanSession → Prop)
    (trusted : Prop) (protocol : Protocol) : Prop where
  sessions : ∀ id session, protocol.app.sessions.lookup id = some session → session.Reachable text
  plans : ∀ id document, protocol.app.plans.lookup id = some document →
    ∃ analysis, document.analyseHistorical text.keys = pure analysis
  runs : trusted → ∀ id record, protocol.app.runs.lookup id = some record →
    Reachable text.keys record.run ∧ record.run.runId = id.get
  rebases : ∀ id owner candidate, protocol.reviews.lookup id = some (.rebase owner candidate) →
    owner ∈ protocol.app.sessions ∧
      ∃ source, past owner source ∧ source.Reachable text ∧ candidate.Prepared text source
  fewSessions : Bounded MAX_APPLICATION_OBJECTS protocol.app.sessions
  fewPlans : Bounded MAX_APPLICATION_OBJECTS protocol.app.plans
  fewRuns : Bounded MAX_APPLICATION_OBJECTS protocol.app.runs
  fewReviews : Bounded MAX_APPLICATION_OBJECTS protocol.reviews

namespace Protocol.Kept

variable {text : EditingText} {past : SessionId → PlanSession → Prop} {trusted : Prop}
  {protocol : Protocol}

/-- A protocol that owns nothing. -/
theorem empty (liveHost : Bool) : Kept text past trusted { liveHost } where
  sessions _ _ h := by cases h
  plans _ _ h := by cases h
  runs _ _ _ h := by cases h
  rebases _ _ _ h := by cases h
  fewSessions := Nat.zero_le _
  fewPlans := Nat.zero_le _
  fewRuns := Nat.zero_le _
  fewReviews := Nat.zero_le _

/-- The past grows. -/
theorem mono {more : SessionId → PlanSession → Prop} (h : protocol.Kept text past trusted)
    (hmore : ∀ id session, past id session → more id session) : protocol.Kept text more trusted :=
  { h with
    rebases := by
      intro review owner candidate hreview
      obtain ⟨howner, source, hpast, hprepared⟩ := h.rebases review owner candidate hreview
      exact ⟨howner, source, hmore owner source hpast, hprepared⟩ }

/-- A session that is opened is one of the reachable. -/
theorem insertSession (h : protocol.Kept text past trusted) {session : PlanSession}
    (hnew : session.Reachable text)
    (hroom : protocol.app.sessions.keys.length < MAX_APPLICATION_OBJECTS) (id : SessionId) :
    Kept text past trusted { protocol with
      app := { protocol.app with sessions := protocol.app.sessions.insert id session } } :=
  { h with
    sessions := by
      intro other found hfound
      rcases Support.Tables.lookup_insert hfound with ⟨-, rfl⟩ | hold
      · exact hnew
      · exact h.sessions other found hold
    rebases := by
      intro review owner candidate hreview
      obtain ⟨howner, hprepared⟩ := h.rebases review owner candidate hreview
      exact ⟨(AList.mem_insert _).mpr (.inr howner), hprepared⟩
    fewSessions := .insert hroom }

/-- A session that is edited is one of the reachable. -/
theorem replaceSession (h : protocol.Kept text past trusted) {session : PlanSession}
    (hnew : session.Reachable text) (id : SessionId) :
    Kept text past trusted { protocol with
      app := { protocol.app with sessions := protocol.app.sessions.replace id session } } :=
  { h with
    sessions := by
      intro other found hfound
      rcases Support.Tables.lookup_replace hfound with rfl | hold
      · exact hnew
      · exact h.sessions other found hold
    rebases := by
      intro review owner candidate hreview
      obtain ⟨howner, hprepared⟩ := h.rebases review owner candidate hreview
      exact ⟨AList.mem_replace.mpr howner, hprepared⟩
    fewSessions := h.fewSessions.replace }

/-- The rebases of a session leave with it. -/
theorem closeSession (h : protocol.Kept text past trusted) (id : SessionId)
    {reviews : AList fun _ : Uuid => RetainedReview}
    (hentries : reviews.entries =
      protocol.reviews.entries.filter fun entry => !entry.2.isRebaseOf id) :
    Kept text past trusted { protocol with
      app := { protocol.app with sessions := protocol.app.sessions.erase id }, reviews } :=
  { h with
    sessions := fun other found hfound =>
      h.sessions other found (Support.Tables.lookup_erase hfound)
    rebases := by
      intro review owner candidate hreview
      -- A review that is left was there before, and is none of the session.
      have hmem := AList.mem_lookup_iff.mp hreview
      rw [hentries, List.mem_filter] at hmem
      obtain ⟨howner, hprepared⟩ :=
        h.rebases review owner candidate (AList.mem_lookup_iff.mpr hmem.1)
      have hother : owner ≠ id := by simpa [RetainedReview.isRebaseOf] using hmem.2
      exact ⟨AList.mem_erase.mpr ⟨hother, howner⟩, hprepared⟩
    fewSessions := h.fewSessions.erase
    fewReviews := by
      rw [Bounded, AList.keys, hentries]
      exact (List.filter_sublist.map _).length_le.trans h.fewReviews }

/-- A plan that is kept was analysed. -/
theorem insertPlan (h : protocol.Kept text past trusted) {document : PlanDocument}
    (hnew : ∃ analysis, document.analyseHistorical text.keys = pure analysis)
    (hroom : protocol.app.plans.keys.length < MAX_APPLICATION_OBJECTS) (id : PlanId) :
    Kept text past trusted { protocol with
      app := { protocol.app with plans := protocol.app.plans.insert id document } } :=
  { h with
    plans := by
      intro other found hfound
      rcases Support.Tables.lookup_insert hfound with ⟨-, rfl⟩ | hold
      · exact hnew
      · exact h.plans other found hold
    fewPlans := .insert hroom }

/-- Closing a plan keeps the rest. -/
theorem closePlan (h : protocol.Kept text past trusted) (id : PlanId) :
    Kept text past trusted { protocol with
      app := { protocol.app with plans := protocol.app.plans.erase id } } :=
  { h with
    plans := fun other found hfound => h.plans other found (Support.Tables.lookup_erase hfound)
    fewPlans := h.fewPlans.erase }

/-- A run that is kept is reachable where its calls are trusted. -/
theorem insertRun (h : protocol.Kept text past trusted) {record : RunRecord} {id : RunId}
    (hnew : trusted → Reachable text.keys record.run ∧ record.run.runId = id.get)
    (hroom : protocol.app.runs.keys.length < MAX_APPLICATION_OBJECTS) :
    Kept text past trusted { protocol with
      app := { protocol.app with runs := protocol.app.runs.insert id record } } :=
  { h with
    runs := by
      intro htrusted other found hfound
      rcases Support.Tables.lookup_insert hfound with ⟨rfl, rfl⟩ | hold
      · exact hnew htrusted
      · exact h.runs htrusted other found hold
    fewRuns := .insert hroom }

theorem closeRun (h : protocol.Kept text past trusted) (id : RunId) :
    Kept text past trusted { protocol with
      app := { protocol.app with runs := protocol.app.runs.erase id } } :=
  { h with
    runs := fun htrusted other found hfound =>
      h.runs htrusted other found (Support.Tables.lookup_erase hfound)
    fewRuns := h.fewRuns.erase }

/-- A review that is kept was found or prepared. -/
theorem insertReview (h : protocol.Kept text past trusted) {review : RetainedReview}
    (hnew : ∀ owner candidate, review = .rebase owner candidate →
      owner ∈ protocol.app.sessions ∧
        ∃ source, past owner source ∧ source.Reachable text ∧ candidate.Prepared text source)
    (hroom : protocol.reviews.keys.length < MAX_APPLICATION_OBJECTS) (id : Uuid) :
    Kept text past trusted { protocol with reviews := protocol.reviews.insert id review } :=
  { h with
    rebases := by
      intro other owner candidate hfound
      rcases Support.Tables.lookup_insert hfound with ⟨-, heq⟩ | hold
      · exact hnew owner candidate heq.symm
      · exact h.rebases other owner candidate hold
    fewReviews := .insert hroom }

theorem eraseReview (h : protocol.Kept text past trusted) (id : Uuid) :
    Kept text past trusted { protocol with reviews := protocol.reviews.erase id } :=
  { h with
    rebases := fun other owner candidate hfound =>
      h.rebases other owner candidate (Support.Tables.lookup_erase hfound)
    fewReviews := h.fewReviews.erase }

end Protocol.Kept

end DisksGraph
