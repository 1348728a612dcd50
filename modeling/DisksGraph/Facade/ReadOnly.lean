import DisksGraph.Facade.Requests

/-!
# Facade — ReadOnly

What the requests of a reader leave behind.

* `reads_callWithPolicy`: a read-only request leaves the protocol as it was, whatever the host
  answers, unless it is an incident review.
* `reviewIncident_keeps`: an incident review retains at most the review of an incident that the host
  found, and only below the bound.
* `commutes_callWithPolicy`: a request that is not about reviews does not see them.
* `retained_callWithPolicy`: one that retains none is answered alike, unless it names one of them.
* `read_only_requests`: all of this over any number of requests.
-/

namespace DisksGraph

open Support (Effectful Failure Program)
open Support.Effectful (Commutes Raises Reads)

/-- The host found an incident. -/
def FacadeTrace.Finds (t : FacadeTrace) (candidate : IncidentReview) : Prop :=
  (⟨FacadeCall.reviewIncident, (.ok (some candidate) :
    Except (Failure IncidentError) (Option IncidentReview))⟩ :
      Program.Event FacadeCall FacadeCall.Answer) ∈ t

/-- Requests that look at the retained reviews or change them. -/
def Request.isAboutReviews : Request → Bool
  | .sessionPrepareRebase .. | .sessionAcceptRebase .. | .reviewClose _ | .sessionClose _
  | .incidentReview | .incidentAcknowledge .. => true
  | _ => false

/-- Requests that retain a review. -/
def Request.retainsReview : Request → Bool
  | .sessionPrepareRebase .. | .incidentReview => true
  | _ => false

/-- The retained review that a request names. -/
def Request.namedReview : Request → Option Uuid
  | .sessionAcceptRebase _ _ review | .reviewClose review | .incidentAcknowledge review _ _ =>
      some review
  | _ => none

/-- The registry after retaining incident reviews. -/
def withIncidents (reviews : AList fun _ : Uuid => RetainedReview)
    (added : List (Uuid × IncidentReview)) : AList fun _ : Uuid => RetainedReview :=
  added.foldl (fun reviews entry => reviews.insert entry.1 (.incident entry.2)) reviews

/-- The protocol after retaining incident reviews. -/
def Protocol.retaining (added : List (Uuid × IncidentReview)) (protocol : Protocol) : Protocol :=
  { protocol with reviews := withIncidents protocol.reviews added }

/-- Requests served one after another, with their calls. -/
inductive Serves {Value : Type} (json : Json Value) :
    List Request → Protocol → FacadeTrace → Protocol → Prop where
  | nil (protocol : Protocol) : Serves json [] protocol [] protocol
  | cons {request : Request} {requests : List Request} {protocol next last : Protocol}
      {t rest : FacadeTrace} {result : Except (Failure ProtocolError) Value}
      (h : Program.Runs ((ProtocolM.callWithPolicy json request).start protocol) t (result, next))
      (hrest : Serves json requests next rest last) :
      Serves json (request :: requests) protocol (t ++ rest) last

/-- An incident that was returned is one the host answered. -/
theorem FacadeM.reviewIncident_found {application last : Application} {t : FacadeTrace}
    {candidate : IncidentReview}
    (h : Program.Runs (FacadeM.reviewIncident.start application) t (.ok (some candidate), last)) :
    t.Finds candidate := by
  obtain ⟨answer, hanswer, rfl⟩ := Effectful.runs_returned (A := FacadeCall.Answer)
    .reviewIncident (fun answer => answer) h
  exact hanswer

namespace ProtocolM

variable {Value : Type} (json : Json Value)

/-! ### One read-only request -/

theorem onApp_reads {α : Type} {method : FacadeM α} (h : Reads method) : Reads (onApp method) :=
  h.zoom (fun _ => rfl) _

theorem toValue_reads (payload : Payload) : Reads (toValue json payload) := .lift _ _

theorem encode_reads (payload : Payload) : Reads (encode json payload) := .unwrap _

theorem reserveReview_reads : Reads reserveReview :=
  .bind .get fun _ => .bind (.reject _ _) fun _ => .bind (.ask _) fun _ => .lift _ _

/-- A method that reads, and its reply. -/
theorem reply_reads {α : Type} {method : FacadeM α} (h : Reads method) (payload : α → Payload) :
    Reads (onApp method >>= fun a => toValue json (payload a)) :=
  .bind (onApp_reads h) fun a => toValue_reads json (payload a)

/-- **A read-only request other than an incident review leaves everything as it was.** -/
theorem reads_dispatch {request : Request} (h : request.isReadOnly = true)
    (hreview : request ≠ .incidentReview) : Reads (dispatch json request) := by
  cases request with
  | probe => exact reply_reads json FacadeM.probe_reads _
  | sessionPreview session => exact reply_reads json (FacadeM.session_reads session) _
  | sessionExport session => exact reply_reads json (FacadeM.exportDraft_reads session) _
  | planExport plan => exact reply_reads json (FacadeM.exportPlan_reads plan) _
  | capabilities operations => exact reply_reads json (FacadeM.capabilities_reads operations) _
  | jobPoll job since => exact .throw _
  | runSnapshot run => exact reply_reads json (FacadeM.runSnapshot_reads run) _
  | runEvents run since => exact reply_reads json (FacadeM.events_reads run since) _
  | incidentInspect => exact reply_reads json FacadeM.incident_reads _
  | incidentReview => exact absurd rfl hreview
  | _ => cases h

/-- A read-only request other than a review changes no state. -/
theorem reads_callWithPolicy {request : Request} (h : request.isReadOnly = true)
    (hreview : request ≠ .incidentReview) : Reads (callWithPolicy json request) :=
  .bind .get fun _ => .bind (.reject _ _) fun _ => reads_dispatch json h hreview

/-! ### An incident review -/

/-- A reservation leaves room for one review. -/
theorem reserveReview_room {protocol after : Protocol} {t : FacadeTrace}
    (h : Program.Runs (reserveReview.start protocol) t (.ok ⟨⟩, after)) :
    protocol.reviews.keys.length < MAX_APPLICATION_OBJECTS := by
  have hguard : Program.Runs ((Effectful.reject
      (protocol.reviews.keys.length ≥ MAX_APPLICATION_OBJECTS) ProtocolError.resourceLimit >>=
        fun _ => Effectful.ask FacadeCall.tryReserve >>= fun reserved =>
          Effectful.lift (fun _ => .resourceLimit) (reserved : Except String Unit)).start protocol)
      t (.ok ⟨⟩, after) := h
  by_contra hfull
  rw [Effectful.reject, if_pos (not_lt.mp hfull)] at hguard
  cases (Program.runs_ret.mp hguard).2

/-- What an incident review leaves behind: the protocol as it was, or one review more. -/
theorem reviewIncident_keeps {protocol after : Protocol} {t : FacadeTrace}
    {result : Except (Failure ProtocolError) Value}
    (h : Program.Runs ((callWithPolicy json .incidentReview).start protocol) t (result, after)) :
    after = protocol ∨ ∃ id candidate, t.Finds candidate ∧
      protocol.reviews.keys.length < MAX_APPLICATION_OBJECTS ∧
      after = { protocol with reviews := protocol.reviews.insert id (.incident candidate) } := by
  rcases Reads.get.inv h with heq | ⟨-, t, current, rfl, hget, h⟩
  · exact .inl heq
  rcases (Reads.reject _ _).inv h with heq | ⟨-, t, -, rfl, -, h⟩
  · exact .inl heq
  rcases reserveReview_reads.inv h with heq | ⟨_, t, _, rfl, hreserved, h⟩
  · exact .inl heq
  rcases (onApp_reads FacadeM.reviewIncident_reads).inv h with
    heq | ⟨_, t, found, rfl, hfound, h⟩
  · exact .inl heq
  cases found with
  | none => exact .inl (encode_reads json _ _ _ _ h)
  | some candidate =>
      rcases (onApp_reads FacadeM.newId_reads).inv h with heq | ⟨-, t, id, rfl, -, h⟩
      · exact .inl heq
      rcases (encode_reads json _).inv h with heq | ⟨-, t, value, rfl, -, h⟩
      · exact .inl heq
      obtain ⟨part, hcall⟩ := Effectful.runs_zoom hfound
      obtain ⟨-, heq⟩ := Program.runs_ret.mp h
      refine .inr ⟨id, candidate, ?_, reserveReview_room hreserved, (Prod.mk.inj heq).2.symm⟩
      have hfinds := FacadeM.reviewIncident_found hcall
      simp only [FacadeTrace.Finds, List.mem_append] at hfinds ⊢
      exact .inr (.inr (.inr (.inl hfinds)))

/-! ### Requests that are not about reviews -/

/-- The same protocol with other reviews. -/
def withReviews (reviews : AList fun _ : Uuid => RetainedReview) (protocol : Protocol) : Protocol :=
  { protocol with reviews }

/-- The change is of the reviews only. -/
structure OfReviews (change : Protocol → Protocol) : Prop where
  app : ∀ protocol, (change protocol).app = protocol.app
  liveHost : ∀ protocol, (change protocol).liveHost = protocol.liveHost
  setApp : ∀ protocol app, { change protocol with app } = change { protocol with app }

/-- Replacing the reviews changes the reviews alone. -/
theorem ofReviews_withReviews (reviews : AList fun _ : Uuid => RetainedReview) :
    OfReviews (withReviews reviews) where
  app _ := rfl
  liveHost _ := rfl
  setApp _ _ := rfl

theorem ofReviews_retaining (added : List (Uuid × IncidentReview)) :
    OfReviews (Protocol.retaining added) where
  app _ := rfl
  liveHost _ := rfl
  setApp _ _ := rfl

section Commute

variable {change : Protocol → Protocol}

theorem OfReviews.onApp {α : Type} (hchange : OfReviews change) (method : FacadeM α) :
    Commutes change (onApp method) :=
  Commutes.zoom hchange.app (fun app protocol => hchange.setApp protocol app)
    ProtocolError.application method

theorem toValue_commutes (payload : Payload) : Commutes change (toValue json payload) :=
  .lift _ _

theorem encode_commutes (payload : Payload) : Commutes change (encode json payload) :=
  .unwrap _

/-- A reply made of its result does not see the reviews. -/
theorem OfReviews.reply {α : Type} (hchange : OfReviews change) (method : FacadeM α)
    (payload : α → Payload) :
    Commutes change (ProtocolM.onApp method >>= fun a => toValue json (payload a)) :=
  .bind (hchange.onApp method) fun a => toValue_commutes json (payload a)

/-- An encoded result does not see the reviews. -/
theorem OfReviews.answer {α : Type} (hchange : OfReviews change) (method : FacadeM α)
    (payload : α → Payload) :
    Commutes change (ProtocolM.onApp method >>= fun a => encode json (payload a)) :=
  .bind (hchange.onApp method) fun a => encode_commutes json (payload a)

/-- A method that closes an object does not see the reviews. -/
theorem OfReviews.close (hchange : OfReviews change) (method : FacadeM Unit) :
    Commutes change (ProtocolM.onApp method >>= fun _ => pure json.null) :=
  .bind (hchange.onApp method) fun _ => .pure json.null

theorem OfReviews.applyBlocking (hchange : OfReviews change) (plan : PlanId) :
    Commutes change (applyBlocking json plan) := by
  refine .bind (.tryCatch (hchange.onApp _) fun failure => ?_) fun run => hchange.reply json _ _
  split
  · split
    · exact .pure _
    · exact .throw _
  · exact .throw _

/-- **A request that is not about reviews does not see them.** -/
theorem OfReviews.dispatch (hchange : OfReviews change) {request : Request}
    (h : request.isAboutReviews = false) : Commutes change (dispatch json request) := by
  cases request with
  | probe => exact hchange.reply json _ _
  | sessionCreate => exact hchange.answer json _ _
  | sessionImport draft => exact hchange.answer json _ _
  | sessionEdit session revision edit => exact hchange.reply json _ _
  | sessionUndo session revision => exact hchange.answer json _ _
  | sessionRedo session revision => exact hchange.answer json _ _
  | sessionPreview session => exact hchange.reply json _ _
  | sessionExport session => exact hchange.reply json _ _
  | sessionFreeze session revision => exact hchange.reply json _ _
  | planImport document => exact hchange.answer json _ _
  | planExport plan => exact hchange.reply json _ _
  | planClose plan => exact hchange.close json _
  | capabilities operations => exact hchange.reply json _ _
  | applyBlocking plan => exact hchange.applyBlocking json plan
  | applyStart _ | jobPoll _ _ | jobClose _ | jobCancel _ => exact .throw _
  | runSnapshot run => exact hchange.reply json _ _
  | runEvents run since => exact hchange.reply json _ _
  | runClose run => exact hchange.close json _
  | incidentInspect => exact hchange.reply json _ _
  | _ => cases h

/-- The guard of `call_with_policy` reads `live_host` only. -/
theorem OfReviews.callWithPolicy (hchange : OfReviews change) {request : Request}
    (h : Commutes change (ProtocolM.dispatch json request)) :
    Commutes change (callWithPolicy json request) := by
  refine .get_bind (fun protocol => ?_) fun protocol => .bind (.reject _ _) fun _ => h
  rw [hchange.liveHost]

/-- A request that is not about reviews does not see them. -/
theorem commutes_callWithPolicy (reviews : AList fun _ : Uuid => RetainedReview)
    {request : Request} (h : request.isAboutReviews = false) :
    Commutes (withReviews reviews) (callWithPolicy json request) :=
  (ofReviews_withReviews reviews).callWithPolicy json
    ((ofReviews_withReviews reviews).dispatch json h)

end Commute

/-! ### Requests that name a review -/

section Retained

variable {added : List (Uuid × IncidentReview)} {reviews : AList fun _ : Uuid => RetainedReview}
  {review : Uuid}

/-- The added incidents hide no other review. -/
theorem lookup_withIncidents (h : review ∉ added.map Prod.fst) :
    (withIncidents reviews added).lookup review = reviews.lookup review := by
  induction added generalizing reviews with
  | nil => rfl
  | cons entry added ih =>
      rw [List.map_cons, List.mem_cons, not_or] at h
      exact (ih h.2).trans (AList.lookup_insert_ne h.1)

/-- A review may be dropped before or after the incidents are added. -/
theorem erase_withIncidents (h : review ∉ added.map Prod.fst) :
    (withIncidents reviews added).erase review = withIncidents (reviews.erase review) added := by
  induction added generalizing reviews with
  | nil => rfl
  | cons entry added ih =>
      rw [List.map_cons, List.mem_cons, not_or] at h
      have hinsert : (reviews.insert entry.1 (.incident entry.2)).erase review =
          (reviews.erase review).insert entry.1 (.incident entry.2) := by
        refine AList.ext ?_
        rw [AList.entries_insert]
        change List.kerase review (reviews.insert entry.1 (.incident entry.2)).entries =
          _ :: List.kerase entry.1 (List.kerase review reviews.entries)
        rw [AList.entries_insert, List.kerase_cons_ne h.1, List.kerase_comm]
      have hrest := @ih (reviews.insert entry.1 (.incident entry.2)) h.2
      rw [hinsert] at hrest
      exact hrest

/-- The retained reviews that are no rebase of the session. -/
def withoutRebases (session : SessionId) (reviews : AList fun _ : Uuid => RetainedReview) :
    AList fun _ : Uuid => RetainedReview where
  entries := reviews.entries.filter fun entry => !entry.2.isRebaseOf session
  nodupKeys := .sublist List.filter_sublist reviews.nodupKeys

/-- Dropping a key and filtering commute. -/
theorem kerase_filter {entries : List (Sigma fun _ : Uuid => RetainedReview)}
    {keep : (Sigma fun _ : Uuid => RetainedReview) → Bool} (h : entries.NodupKeys) :
    (entries.filter keep).kerase review = (entries.kerase review).filter keep := by
  induction entries with
  | nil => rfl
  | cons entry entries ih =>
      obtain ⟨hfirst, hrest⟩ := List.nodupKeys_cons.mp h
      by_cases hsame : review = entry.1
      · rw [List.kerase_cons_eq hsame]
        -- No other entry has the key, so what is left of it is all that was to be erased.
        have hnone : review ∉ (entries.filter keep).keys := by
          intro hmem
          obtain ⟨other, hother, heq⟩ := List.mem_map.mp hmem
          refine hfirst ?_
          rw [← hsame, ← heq]
          exact List.mem_map_of_mem (List.mem_filter.mp hother).1
        by_cases hkeep : keep entry = true
        · rw [List.filter_cons_of_pos hkeep, List.kerase_cons_eq hsame]
        · rw [List.filter_cons_of_neg hkeep, List.kerase_of_notMem_keys hnone]
      · rw [List.kerase_cons_ne hsame]
        by_cases hkeep : keep entry = true
        · rw [List.filter_cons_of_pos hkeep, List.filter_cons_of_pos hkeep,
            List.kerase_cons_ne hsame, ih hrest]
        · rw [List.filter_cons_of_neg hkeep, List.filter_cons_of_neg hkeep, ih hrest]

/-- Closing a session keeps every incident review. -/
theorem withoutRebases_withIncidents {session : SessionId} :
    withoutRebases session (withIncidents reviews added) =
      withIncidents (withoutRebases session reviews) added := by
  induction added generalizing reviews with
  | nil => rfl
  | cons entry added ih =>
      have hinsert : withoutRebases session (reviews.insert entry.1 (.incident entry.2)) =
          (withoutRebases session reviews).insert entry.1 (.incident entry.2) := by
        refine AList.ext ?_
        rw [AList.entries_insert, withoutRebases]
        dsimp only
        rw [AList.entries_insert, List.filter_cons_of_pos rfl, ← kerase_filter reviews.nodupKeys]
        rfl
      have hrest := @ih (reviews.insert entry.1 (.incident entry.2))
      rw [hinsert] at hrest
      exact hrest

/-- Dropping a review does not see the others. -/
theorem removeReview_retaining (h : review ∉ added.map Prod.fst) :
    Commutes (Protocol.retaining added) (removeReview review) := by
  refine .modify fun protocol => ?_
  rw [Protocol.retaining, Protocol.retaining, erase_withIncidents h]

theorem closeSession_retaining (session : SessionId) :
    Commutes (Protocol.retaining added) (closeSession json session) := by
  refine .bind ((ofReviews_retaining added).onApp _) fun _ => .bind (.modify fun protocol => ?_)
    fun _ => .pure _
  exact congrArg (fun reviews => { protocol with reviews }) withoutRebases_withIncidents

/-- Accepting a rebase does not see the other reviews. -/
theorem acceptRebase_retaining (session : SessionId) (revision : DraftRevision)
    (h : review ∉ added.map Prod.fst) :
    Commutes (Protocol.retaining added) (acceptRebase json session revision review) := by
  refine .get_bind (fun protocol => ?_) fun protocol => ?_
  · rw [Protocol.retaining, lookup_withIncidents h]
  · split
    · exact .bind (.reject _ _) fun _ => .bind (removeReview_retaining h) fun _ =>
        (ofReviews_retaining added).answer json _ _
    · exact .throw _

/-- Closing a review does not see the others. -/
theorem closeReview_retaining (h : review ∉ added.map Prod.fst) :
    Commutes (Protocol.retaining added) (closeReview json review) := by
  refine .get_bind (fun protocol => ?_) fun protocol =>
    .bind (.reject _ _) fun _ => .bind (removeReview_retaining h) fun _ => .pure _
  have hmem : review ∈ (Protocol.retaining added protocol).reviews ↔ review ∈ protocol.reviews := by
    rw [← AList.lookup_isSome, ← AList.lookup_isSome, Protocol.retaining, lookup_withIncidents h]
  have hreject : ∀ {p q : Prop} [Decidable p] [Decidable q] (error : ProtocolError), (p ↔ q) →
      (Effectful.reject p error : ProtocolM Unit) = Effectful.reject q error := by
    intro p q _ _ error hiff
    unfold Effectful.reject
    simp only [hiff]
  exact congrArg (· >>= _) (hreject _ (not_congr hmem))

/-- Acknowledging an incident does not see the other reviews. -/
theorem acknowledgeIncident_retaining (runId token : Uuid) (h : review ∉ added.map Prod.fst) :
    Commutes (Protocol.retaining added) (acknowledgeIncident json review runId token) := by
  refine .get_bind (fun protocol => ?_) fun protocol => ?_
  · rw [Protocol.retaining, lookup_withIncidents h]
  · split
    · exact .bind (.reject _ _) fun _ => .bind (removeReview_retaining h) fun _ =>
        (ofReviews_retaining added).answer json _ _
    · exact .throw _

/-- **A request that retains no review is answered alike**, unless it names one that was added. -/
theorem retained_callWithPolicy {request : Request} (hretains : request.retainsReview = false)
    (hnamed : ∀ review ∈ request.namedReview, review ∉ added.map Prod.fst) :
    Commutes (Protocol.retaining added) (callWithPolicy json request) := by
  have hchange := ofReviews_retaining added
  refine hchange.callWithPolicy json ?_
  cases habout : request.isAboutReviews with
  | false => exact hchange.dispatch json habout
  | true =>
      cases request with
      | sessionAcceptRebase session revision review =>
          exact acceptRebase_retaining json session revision (hnamed review rfl)
      | reviewClose review => exact closeReview_retaining json (hnamed review rfl)
      | sessionClose session => exact closeSession_retaining json session
      | incidentAcknowledge review runId token =>
          exact acknowledgeIncident_retaining json runId token (hnamed review rfl)
      | sessionPrepareRebase | incidentReview => cases hretains
      | _ => cases habout

end Retained

/-! ### Resource limits -/

/-- The two forms of a resource limit. -/
def IsLimit : ProtocolError → Prop
  | .resourceLimit => True
  | .application error => error.code = .resourceLimit
  | _ => False

section Limits

variable {json}

/-- An application error that is no limit is none of the protocol. -/
theorem onApp_raises {α : Type} {method : FacadeM α}
    (h : Raises (·.code ≠ .resourceLimit) method) :
    Raises (¬ IsLimit ·) (onApp method) := by
  refine h.zoom ?_ Protocol.app fun app protocol => { protocol with app }
  exact fun _ herror => herror

theorem encode_raises (payload : Payload) : Raises (¬ IsLimit ·) (encode json payload) :=
  .unwrap _

/-- The errors of a session are no limits. -/
theorem onSession_raises {ε α : Type} (id : SessionId) {into : ε → DisksGraphError}
    (hinto : ∀ error, (into error).code ≠ .resourceLimit) (method : SessionM ε α) :
    Raises (·.code ≠ .resourceLimit) (FacadeM.onSession id into method) := by
  refine .bind (.bind .get fun application => ?_) fun session => ?_
  · split
    · exact .fail (by decide)
    · exact .pure _
  · split
    · exact .panic
    · refine .bind (.modify _) fun _ => Raises.lift ?_ _
      exact hinto

theorem fromRebase_code (error : RebaseError) :
    (DisksGraphError.fromRebase error).code ≠ .resourceLimit := by
  cases error <;> exact nofun

theorem acceptRebase_raises (session : SessionId) (revision : DraftRevision) (review : Uuid) :
    Raises (¬ IsLimit ·) (acceptRebase json session revision review) := by
  refine .bind .get fun protocol => ?_
  split
  · refine .bind (.reject nofun) fun _ => .bind (.modify _) fun _ => ?_
    exact .bind (onApp_raises (onSession_raises session fromRebase_code _)) fun _ =>
      encode_raises _
  · exact .fail nofun

theorem closeReview_raises (review : Uuid) : Raises (¬ IsLimit ·) (closeReview json review) :=
  .bind .get fun _ => .bind (.reject nofun) fun _ => .bind (.modify _) fun _ => .pure _

theorem closeSession_raises (session : SessionId) :
    Raises (¬ IsLimit ·) (closeSession json session) := by
  have hclose : Raises (·.code ≠ .resourceLimit) (FacadeM.closeSession session) :=
    .bind .get fun _ => .bind (.reject (by decide)) fun _ => .set _
  exact .bind (onApp_raises hclose) fun _ => .bind (.modify _) fun _ => .pure _

theorem acknowledgeIncident_raises (review runId token : Uuid) :
    Raises (¬ IsLimit ·) (acknowledgeIncident json review runId token) := by
  refine .bind .get fun protocol => ?_
  split
  · refine .bind (.reject nofun) fun _ => .bind (.modify _) fun _ => ?_
    refine .bind (onApp_raises (.bind (.ask _) fun answer => ?_)) fun _ => encode_raises _
    exact .returned (fun _ => nofun) _
  · exact .fail nofun

/-- Of the requests about reviews, only those that retain one are limited. -/
theorem callWithPolicy_raises {request : Request} (habout : request.isAboutReviews = true)
    (hwrite : request.isReadOnly = false)
    (hrebase : ∀ session revision, request ≠ .sessionPrepareRebase session revision) :
    Raises (¬ IsLimit ·) (callWithPolicy json request) := by
  refine .bind .get fun protocol => .bind (.reject nofun) fun _ => ?_
  cases request with
  | sessionPrepareRebase session revision => exact absurd rfl (hrebase session revision)
  | sessionAcceptRebase session revision review => exact acceptRebase_raises session revision review
  | reviewClose review => exact closeReview_raises review
  | sessionClose session => exact closeSession_raises session
  | incidentAcknowledge review runId token => exact acknowledgeIncident_raises review runId token
  | incidentReview => cases hwrite
  | _ => cases habout

end Limits

end ProtocolM

open ProtocolM

/-! ### Any number of requests -/

/-- Reviews may be retained in two goes. -/
theorem Protocol.retaining_append (first more : List (Uuid × IncidentReview))
    (protocol : Protocol) :
    (protocol.retaining first).retaining more = protocol.retaining (first ++ more) := by
  rw [retaining, retaining, retaining, withIncidents, withIncidents, withIncidents,
    List.foldl_append]

/-- What read-only requests leave behind. -/
structure Kept (requests : List Request) (protocol : Protocol) (t : FacadeTrace) (after : Protocol)
    (added : List (Uuid × IncidentReview)) : Prop where
  kept : after = protocol.retaining added
  found : ∀ entry ∈ added, t.Finds entry.2
  asked : added ≠ [] → .incidentReview ∈ requests
  bounded : protocol.reviews.keys.length ≤ MAX_APPLICATION_OBJECTS →
    after.reviews.keys.length ≤ MAX_APPLICATION_OBJECTS

/-- A trace finds what one of its parts finds. -/
theorem FacadeTrace.Finds.append {t rest : FacadeTrace} {candidate : IncidentReview}
    (h : t.Finds candidate ∨ rest.Finds candidate) : (t ++ rest).Finds candidate :=
  List.mem_append.mpr h

/-- An insertion adds at most one key. -/
theorem keys_insert_le (reviews : AList fun _ : Uuid => RetainedReview) (id : Uuid)
    (review : RetainedReview) :
    (reviews.insert id review).keys.length ≤ reviews.keys.length + 1 := by
  rw [AList.keys_insert, List.length_cons]
  exact Nat.succ_le_succ (List.length_erase_le)

section Served

variable {Value : Type} {json : Json Value} {requests : List Request} {protocol after : Protocol}
  {t : FacadeTrace}

theorem Kept.refl (requests : List Request) (protocol : Protocol) (t : FacadeTrace) :
    Kept requests protocol t protocol [] where
  kept := rfl
  found _ hentry := absurd hentry List.not_mem_nil
  asked hne := absurd rfl hne
  bounded h := h

/-- What one request keeps and adds. -/
theorem kept_call {request : Request} {result : Except (Failure ProtocolError) Value}
    (hread : request.isReadOnly = true)
    (h : Program.Runs ((callWithPolicy json request).start protocol) t (result, after)) :
    ∃ added, Kept [request] protocol t after added := by
  by_cases hreview : request = .incidentReview
  · subst hreview
    rcases reviewIncident_keeps json h with rfl | ⟨review, candidate, hfound, hroom, rfl⟩
    · exact ⟨[], .refl _ _ _⟩
    · refine ⟨[(review, candidate)], rfl, ?_, fun _ => List.mem_singleton_self _, fun _ => ?_⟩
      · intro entry hentry
        obtain rfl := List.mem_singleton.mp hentry
        exact hfound
      · exact (keys_insert_le protocol.reviews review _).trans hroom
  · obtain rfl : after = protocol := reads_callWithPolicy json hread hreview _ _ _ h
    exact ⟨[], .refl _ _ _⟩

/-- Induction over the requests served. -/
theorem Serves.kept (h : Serves json requests protocol t after)
    (hread : ∀ request ∈ requests, request.isReadOnly = true) :
    ∃ added, Kept requests protocol t after added := by
  induction h with
  | nil protocol => exact ⟨[], .refl _ _ _⟩
  | cons hcall _ ih =>
      obtain ⟨first, hfirst⟩ := kept_call (hread _ List.mem_cons_self) hcall
      obtain ⟨more, hmore⟩ := ih fun request hmem => hread request (List.mem_cons_of_mem _ hmem)
      refine ⟨first ++ more, ?_, ?_, ?_, fun hbound => hmore.bounded (hfirst.bounded hbound)⟩
      · rw [hmore.kept, hfirst.kept, Protocol.retaining_append]
      · intro entry hentry
        rcases List.mem_append.mp hentry with hmem | hmem
        · exact .append (.inl (hfirst.found entry hmem))
        · exact .append (.inr (hmore.found entry hmem))
      · intro hne
        by_cases hnone : first = []
        · subst hnone
          exact List.mem_cons_of_mem _ (hmore.asked hne)
        · rw [List.mem_singleton.mp (hfirst.asked hnone)]
          exact List.mem_cons_self

/-- **Read-only requests change no session, plan or run, and retain nothing but the reviews of
incidents that the host found.**  A later request is answered as if none had been made, and leaves
the protocol as it would have with these reviews retained, unless it retains a review itself or
names one of these; one that is not about reviews does not see them at all.  Of the writing requests
only a prepared rebase can run into a limit it would not have met. -/
theorem read_only_requests (h : Serves json requests protocol t after)
    (hread : ∀ request ∈ requests, request.isReadOnly = true) :
    (∃ added : List (Uuid × IncidentReview),
      after = protocol.retaining added ∧
      (∀ entry ∈ added, t.Finds entry.2) ∧ (added ≠ [] → .incidentReview ∈ requests) ∧
      ∀ later, later.retainsReview = false →
        (∀ review ∈ later.namedReview, review ∉ added.map Prod.fst) → ∀ t' result final,
        Program.Runs ((callWithPolicy json later).start after) t' (result, final) ↔
          ∃ last, Program.Runs ((callWithPolicy json later).start protocol) t' (result, last) ∧
            final = last.retaining added) ∧
    (protocol.reviews.keys.length ≤ MAX_APPLICATION_OBJECTS →
      after.reviews.keys.length ≤ MAX_APPLICATION_OBJECTS) ∧
    ((∀ candidate, ¬ t.Finds candidate) → after = protocol) ∧
    (∀ later, later.isAboutReviews = false → ∀ t' result final,
      Program.Runs ((callWithPolicy json later).start after) t' (result, final) ↔
        ∃ last, Program.Runs ((callWithPolicy json later).start protocol) t' (result, last) ∧
          final = { last with reviews := after.reviews }) ∧
    ∀ later, later.isReadOnly = false →
      (∀ session revision, later ≠ .sessionPrepareRebase session revision) →
      ∀ t' error final, IsLimit error →
        Program.Runs ((callWithPolicy json later).start after) t' (.error (.error error), final) →
        ∃ last, Program.Runs ((callWithPolicy json later).start protocol) t'
          (.error (.error error), last) := by
  obtain ⟨added, hafter, hfound, hasked, hbounded⟩ := h.kept hread
  have hreviews : after.reviews = withIncidents protocol.reviews added := by
    rw [hafter]
    rfl
  have hsame : withReviews after.reviews protocol = after := by
    rw [withReviews, hreviews]
    exact hafter.symm
  have hlater : ∀ later : Request, later.isAboutReviews = false → ∀ t' result final,
      Program.Runs ((callWithPolicy json later).start after) t' (result, final) ↔
        ∃ last, Program.Runs ((callWithPolicy json later).start protocol) t' (result, last) ∧
          final = { last with reviews := after.reviews } := by
    intro later habout t' result final
    have hcommutes := commutes_callWithPolicy json after.reviews habout
    have hruns := @Commutes.runs _ _ _ _ _ _ _ hcommutes protocol final t' result
    rw [hsame] at hruns
    exact hruns
  refine ⟨⟨added, hafter, hfound, hasked, fun later hretains hnamed t' result final => ?_⟩,
    hbounded,
    fun hnone => ?_, hlater, ?_⟩
  · rw [hafter]
    exact (retained_callWithPolicy json hretains hnamed).runs
  · cases added with
    | nil => exact hafter
    | cons entry added => exact absurd (hfound entry List.mem_cons_self) (hnone entry.2)
  · intro later hwrite hrebase t' error final hlimit hrun
    cases habout : later.isAboutReviews with
    | true => exact absurd hlimit (callWithPolicy_raises habout hwrite hrebase _ _ _ _ hrun)
    | false =>
        obtain ⟨last, hlast, -⟩ := (hlater later habout t' _ final).mp hrun
        exact ⟨last, hlast⟩

end Served

/-! ### A registry filled by a reader -/

/-- A session just opened on the sample baseline. -/
def openedSession : PlanSession where
  id := 7#128
  revision := {}
  baseline := sampleBaseline
  draft := {}
  preview := .invalid (.draft [])
  historyLimit := DEFAULT_HISTORY_LIMIT
  undo := []
  redo := []

/-- A protocol with one session, on an empty baseline. -/
def openedProtocol : Protocol where
  app := { sessions := AList.insert (SessionId.mk 3#128) openedSession ∅ }
  liveHost := true

/-- Every reply can be encoded. -/
def plainJson : Json Unit := ⟨sampleEditing, (), fun _ => .ok ()⟩

/-- `sampleState` as a pass holds it. -/
def heldSnapshot : CurrentState.codec.Stored :=
  (((((), ⟨((((), ⟨[], .nil⟩), ⟨[], id_eq _⟩), ⟨[], id_eq _⟩), rfl⟩), ((), ⟨[], rfl⟩)),
    (((), (((((), none), none), none), ⟨[], rfl⟩), ⟨[], rfl⟩), none)), ⟨[], rfl⟩)

/-- The incident of a mount, reviewed on an empty machine. -/
def markedIncident : IncidentReview where
  inspection :=
    { attempt := ⟨1, 5#128, 6#128, ⟨0⟩, none, sampleOperation, [], "", ⟨"mount"⟩⟩
      freshState := ⟨⟨9#128, 1⟩, heldSnapshot⟩
      assessment := .indeterminate }
  token := 9#128
  directory := (1, 1)

/-- A host with a fresh pass and nothing else. -/
def openedAnswers : (call : FacadeCall) → call.Answer
  | .newId => (11#128 : Uuid)
  | .tryReserve => (.ok () : Except String Unit)
  | .probe =>
      (.ok ⟨⟨⟨9#128, 1⟩, sampleState⟩, [], []⟩ : Except (Failure HostError) ProbedObservation)
  | .operationAvailability .. => (none : Option OperationAvailability)
  | .backendFor _ => (none : Option BackendId)
  | .tryLockHost => (.error .panic : Except (Failure LeaseError) Unit)
  | .releaseLock => ()
  | .inspectMarker => (.ok none : Except (Failure CheckpointError) (Option ActiveAttempt))
  | .tryCloneRoot => (.error .panic : Except (Failure LeaseError) Unit)
  | .executeRun run =>
      ((.error .panic, run) : Except (Failure CoordinatorError) ExecutionSummary × ExecutionRun)
  | .inspectIncident =>
      (.ok none : Except (Failure IncidentError) (Option IncidentInspection))
  | .reviewIncident =>
      (.ok (some markedIncident) : Except (Failure IncidentError) (Option IncidentReview))
  | .acknowledgeIncident .. => (.error .panic : Except (Failure IncidentError) IncidentInspection)

/-- A host that reports an incident, with the identity drawn for its review. -/
def reviewTrace (id : Uuid) : FacadeTrace :=
  [⟨.tryReserve, (.ok () : Except String Unit)⟩,
    ⟨.reviewIncident, (.ok (some markedIncident) :
      Except (Failure IncidentError) (Option IncidentReview))⟩,
    ⟨.newId, id⟩]

/-- An incident review below the bound, when there is an incident. -/
theorem review_marked {protocol : Protocol} (hlive : protocol.liveHost = true)
    (hroom : protocol.reviews.keys.length < MAX_APPLICATION_OBJECTS) (id : Uuid) :
    Program.Runs ((callWithPolicy plainJson .incidentReview).start protocol) (reviewTrace id)
      (.ok (), { protocol with
        reviews := protocol.reviews.insert id (.incident markedIncident) }) := by
  have hguard : ¬(Request.incidentReview.needsLiveHost = true ∧ protocol.liveHost = false) := by
    simp [hlive]
  have hreserve : Program.Runs (reserveReview.start protocol)
      [⟨.tryReserve, (.ok () : Except String Unit)⟩] (.ok ⟨⟩, protocol) :=
    Effectful.runs_append (t := []) (.refl _) <|
      Effectful.runs_append (Effectful.runs_reject_neg (not_le.mpr hroom) _ _) (.call (.refl _))
  refine Effectful.runs_append (t := []) (.refl _) ?_
  refine Effectful.runs_append (Effectful.runs_reject_neg hguard _ _) ?_
  exact Effectful.runs_append hreserve (.call (.call (.refl _)))

/-- The identities drawn are the numbers of the reviews retained so far. -/
theorem fill_registry (count : Nat) : ∀ {protocol : Protocol}, protocol.liveHost = true →
    protocol.reviews.keys.length + count ≤ MAX_APPLICATION_OBJECTS →
    (∀ id ∈ protocol.reviews, id.toNat < protocol.reviews.keys.length) →
    ∃ t after, Serves plainJson (List.replicate count .incidentReview) protocol t after ∧
      after.liveHost = true ∧
      after.reviews.keys.length = protocol.reviews.keys.length + count := by
  induction count with
  | zero => exact fun hlive _ _ => ⟨[], _, .nil _, hlive, rfl⟩
  | succ count ih =>
      intro protocol hlive hroom hfresh
      have hbound : MAX_APPLICATION_OBJECTS = 64 := rfl
      have hnumber : (BitVec.ofNat 128 protocol.reviews.keys.length).toNat =
          protocol.reviews.keys.length := by
        rw [BitVec.toNat_ofNat]
        exact Nat.mod_eq_of_lt (by omega)
      generalize BitVec.ofNat 128 protocol.reviews.keys.length = id at hnumber
      have hnew : id ∉ protocol.reviews := fun hmem => by
        have hlt := hfresh id hmem
        omega
      have hkeys : (protocol.reviews.insert id (.incident markedIncident)).keys.length =
          protocol.reviews.keys.length + 1 := by
        rw [AList.keys_insert, List.erase_of_not_mem (mt AList.mem_keys.mpr hnew),
          List.length_cons]
      obtain ⟨t, after, hserves, hstill, hlength⟩ := @ih
        { protocol with reviews := protocol.reviews.insert id (.incident markedIncident) } hlive
        (by rw [hkeys]; omega)
        (by
          intro other hother
          rw [hkeys]
          rcases (AList.mem_insert _).mp hother with rfl | hmem
          · omega
          · exact Nat.lt_succ_of_lt (hfresh other hmem))
      refine ⟨_, after, .cons (review_marked hlive (by omega) id) hserves, hstill, ?_⟩
      rw [hlength, hkeys]
      omega

/-- At the limit of reviews a rebase is refused. -/
theorem prepareRebase_full {protocol final : Protocol} {session : SessionId}
    {revision : DraftRevision} {t : FacadeTrace} {result : Except (Failure ProtocolError) Unit}
    (hlive : protocol.liveHost = true)
    (hfull : MAX_APPLICATION_OBJECTS ≤ protocol.reviews.keys.length)
    (h : Program.Runs ((callWithPolicy plainJson (.sessionPrepareRebase session revision)).start
      protocol) t (result, final)) : result = .error (.error .resourceLimit) := by
  have hguard : ¬((Request.sessionPrepareRebase session revision).needsLiveHost = true ∧
      protocol.liveHost = false) := by simp [hlive]
  have hpassed : Program.Runs ((Effectful.reject ((Request.sessionPrepareRebase session
      revision).needsLiveHost = true ∧ protocol.liveHost = false) ProtocolError.liveUnavailable >>=
        fun _ => prepareRebase plainJson session revision).start protocol) t (result, final) := h
  rw [Effectful.reject, if_neg hguard] at hpassed
  have hbody : Program.Runs ((prepareRebase plainJson session revision).start protocol) t
      (result, final) := hpassed
  obtain ⟨t₁, t₂, first, rfl, hreserve, hrest⟩ := Program.runs_bind.mp hbody
  have hreserved : Program.Runs ((Effectful.reject
      (protocol.reviews.keys.length ≥ MAX_APPLICATION_OBJECTS) ProtocolError.resourceLimit >>=
        fun _ => Effectful.ask FacadeCall.tryReserve >>= fun reserved =>
          Effectful.lift (fun _ => .resourceLimit) (reserved : Except String Unit)).start protocol)
      t₁ first := hreserve
  rw [Effectful.reject, if_pos hfull] at hreserved
  obtain ⟨-, rfl⟩ := Program.runs_ret.mp hreserved
  exact (Prod.mk.inj (Program.runs_ret.mp hrest).2).1.symm

/-- Sixty-four incident reviews of a reader: a rebase could be prepared before them, and no host
lets one be prepared after them. -/
theorem incident_reviews_exhaust_registry :
    (∀ request ∈ List.replicate 64 Request.incidentReview, request.isReadOnly = true) ∧
    (Request.sessionPrepareRebase ⟨3#128⟩ {}).isReadOnly = false ∧
    (∃ t value final, Program.Runs ((callWithPolicy plainJson
      (.sessionPrepareRebase ⟨3#128⟩ {})).start openedProtocol) t (.ok value, final)) ∧
    ∃ t after, Serves plainJson (List.replicate 64 .incidentReview) openedProtocol t after ∧
      after.reviews.keys.length = 64 ∧ openedProtocol.reviews.keys.length = 0 ∧
      ∀ t' result final, Program.Runs ((callWithPolicy plainJson
        (.sessionPrepareRebase ⟨3#128⟩ {})).start after) t' (result, final) →
        result = .error (.error .resourceLimit) := by
  refine ⟨fun request hmem => ?_, rfl, ?_, ?_⟩
  · rw [List.eq_of_mem_replicate hmem]
    rfl
  · have hok : (((callWithPolicy plainJson (.sessionPrepareRebase ⟨3#128⟩ {})).start
        openedProtocol).respond openedAnswers).2.1.isOk = true := by decide +kernel
    have hrun := Program.runs_respond openedAnswers
      ((callWithPolicy plainJson (.sessionPrepareRebase ⟨3#128⟩ {})).start openedProtocol)
    generalize (((callWithPolicy plainJson (.sessionPrepareRebase ⟨3#128⟩ {})).start
      openedProtocol).respond openedAnswers) = ended at hok hrun
    obtain ⟨t, result, final⟩ := ended
    cases result with
    | error failure => cases hok
    | ok value => exact ⟨t, value, final, hrun⟩
  · obtain ⟨t, after, hserves, hlive, hlength⟩ := @fill_registry 64 openedProtocol rfl
      (by decide) (fun id hmem => absurd hmem (AList.notMem_empty id))
    refine ⟨t, after, hserves, hlength, rfl, fun t' result final hrun => ?_⟩
    exact prepareRebase_full hlive hlength.ge hrun

/-- An export and an incident review leave the session, and retain the review of the incident. -/
theorem read_only_requests_opened : ∃ t after,
    Serves plainJson [.sessionExport ⟨3#128⟩, .incidentReview] openedProtocol t after ∧
      after.app.sessions.lookup ⟨3#128⟩ = some openedSession ∧ after.reviews.keys.length ≤ 64 := by
  have hserves := Serves.cons
    (Program.runs_respond openedAnswers
      ((callWithPolicy plainJson (.sessionExport ⟨3#128⟩)).start openedProtocol))
    (Serves.cons
      (Program.runs_respond openedAnswers ((callWithPolicy plainJson .incidentReview).start _))
      (.nil _))
  obtain ⟨⟨added, hafter, -⟩, hbounded, -⟩ := read_only_requests hserves (by decide)
  refine ⟨_, _, hserves, ?_, hbounded (by decide)⟩
  rw [hafter]
  rfl

end DisksGraph
