import DisksGraph.Runtime.Admission
import DisksGraph.Runtime.Incident

/-!
# Runtime — Consent

The policy of a root invoker (`dg-cli/src/confirmation.rs`): one confirmation of one displayed plan
review covers one run.

The `exchange` callback and the challenge token are inputs of a call: the callback may answer every
review differently, and is asked at most once in one call.  JSON values are the type `Value`.

* `RootPolicy.Bound`: what the four mutable fields say about the calls since the run changed.
* `consent_bound_to_review`: an authorization rests on a review of exactly its run and plan.
-/

namespace DisksGraph

/-- Exact kind of exclusion or preservation evidence requested from the embedding application. -/
inductive ScopeCheck where
  | scope
  | consumerExclusion
  | mountExclusion
  | finalScope
  | preservation
deriving DecidableEq, Repr

/-- Reviewed inputs of a scope check. -/
structure PolicyContext where
  runId : Uuid
  planId : Uuid
  actions : List PlannedAction
  dependencies : List ActionDependency
  baseline : HistoricalBaseline
  goal : DesiredState
  protectedScope : ProtectedScope

/-- Trusted side channel; ordinary application requests never contain a policy result.  `Context` is
how a reviewed context is held. -/
inductive PolicyRequest (Context : Type) where
  | scope (kind : ScopeCheck) (context : Context) (action : Option ResolvedAction)
      (observed : LiveObservation)
  | authorize (request : ApprovalRequest) (destructiveTarget : Option NodeId)
  | incident (reviewed fresh : IncidentInspection)

/-- Reviewed execution scope captured before authorization. -/
structure Review (Value : Type) where
  context : Value
  runId : Uuid
  planId : Uuid
  digest : String
  token : Uuid

/-- The document that the callback displays. -/
structure PlanReview (Value : Type) where
  type : String := "plan_review"
  review : Review Value
  exclusiveStorageAdministrationRequired : Bool := true
  confirmationCommand : String := "apply"

/-- A confirmation is consent by the root invoker. -/
structure Confirmation where
  command : String
  runId : Uuid
  planId : Uuid
  digest : String
  token : Uuid
deriving DecidableEq

/-- The two uses of `serde_json`: `to_value(context).ok()`, and `from_value(reply).ok()`.  A context
is written as it is held, and contexts that are equal may be held differently: a path keeps its
spelling and a hash table its order. -/
structure PolicyJson (Value : Type) where
  Held : Type
  /-- What the held context says. -/
  value : Held → PolicyContext
  context : Held → Option Value
  confirmation : Value → Option Confirmation

/-- One call of the callback. -/
structure Exchange (Value : Type) where
  shown : PlanReview Value
  reply : Except String Value

/-- Root CLI owns an exclusive storage administration interval.  The callback is not a field. -/
structure RootPolicy (Value : Type) where
  root : Bool
  context : Option Value
  confirmed : Option (Review Value)
  refused : Bool
  currentRun : Option Uuid

/-- The answer to one request, the policy after it, and the call of the callback if it was made. -/
structure Decision (Value : Type) where
  status : LiveCheckStatus
  policy : RootPolicy Value
  exchange : Option (Exchange Value) := none

/-- Refusal leaves the coordinator before dispatch. -/
def refused : LiveCheckStatus :=
  .violated "root invocation and exact live plan confirmation are required"

section Policy

variable {Value : Type} (json : PolicyJson Value)

/-- The reply is the affirmative command for exactly the displayed review. -/
def Exchange.confirms (exchange : Exchange Value) : Bool :=
  (exchange.reply.toOption.bind json.confirmation).any fun answer =>
    answer.command == "apply" && answer.runId == exchange.shown.review.runId &&
      answer.planId == exchange.shown.review.planId &&
      answer.digest == exchange.shown.review.digest &&
      answer.token == exchange.shown.review.token

namespace RootPolicy

/-- `RootPolicy::with_root`. -/
def withRoot (root : Bool) : RootPolicy Value := ⟨root, none, none, false, none⟩

/-- The review of the latest context, which is consumed, confirmed or refused.  Without a context
nothing is shown. -/
def review (policy : RootPolicy Value) (request : ApprovalRequest) (token : Uuid)
    (exchange : PlanReview Value → Except String Value) :
    RootPolicy Value × Option (Exchange Value) :=
  match policy.context with
  | none => (policy, none)
  | some context =>
      let review : Review Value :=
        ⟨context, request.runId, request.planId, request.planDigest, token⟩
      let shown : PlanReview Value := { review }
      let made : Exchange Value := ⟨shown, exchange shown⟩
      if made.confirms json then
        ({ policy with context := none, confirmed := some review }, some made)
      else ({ policy with context := none, refused := true }, some made)

/-- The request names the run, the plan and the digest of the review, and fingerprints the target
whose contents it replaces.  The source compares the JSON values of the identities. -/
def accepts (review : Review Value) (request : ApprovalRequest) (target : Option NodeId) : Bool :=
  review.runId == request.runId && review.planId == request.planId &&
    review.digest == request.planDigest &&
    target.all fun node => request.targets.any fun fingerprint => fingerprint.plannedId == node

/-- Binds consent to the actual run and exact document. -/
def authorize (policy : RootPolicy Value) (request : ApprovalRequest) (target : Option NodeId)
    (token : Uuid) (exchange : PlanReview Value → Except String Value) : Decision Value :=
  if policy.refused then { status := DisksGraph.refused, policy }
  else
    let (policy, made) :=
      if policy.confirmed.isNone then policy.review json request token exchange else (policy, none)
    match policy.confirmed with
    | none => { status := DisksGraph.refused, policy, exchange := made }
    | some review =>
        if accepts review request target then { status := .satisfied, policy, exchange := made }
        else { status := DisksGraph.refused, policy, exchange := made }

/-- Takes the context of a scope check; another run starts without consent and without refusal. -/
def enter (policy : RootPolicy Value) (context : json.Held) : RootPolicy Value :=
  if policy.currentRun ≠ some (json.value context).runId then
    { policy with
      currentRun := some (json.value context).runId, confirmed := none, refused := false
      context := json.context context }
  else { policy with context := json.context context }

/-- Root supplies authority and conscious confirmation; native facts still come from the
providers. -/
def check (policy : RootPolicy Value) (token : Uuid)
    (exchange : PlanReview Value → Except String Value) : PolicyRequest json.Held → Decision Value
  | .scope kind context _ _ =>
      if !policy.root then { status := DisksGraph.refused, policy }
      else if kind = .preservation ∧ (json.value context).protectedScope ≠ {} then
        { status := .unknown "independent protected contents preservation", policy }
      else { status := .satisfied, policy := policy.enter json context }
  | .authorize request target =>
      if !policy.root then { status := DisksGraph.refused, policy }
      else policy.authorize json request target token exchange
  | .incident .. =>
      if !policy.root then { status := DisksGraph.refused, policy }
      else
        { status := .unknown
            "independent native backend quiescence after an interrupted operation"
          policy }

end RootPolicy

/-! ### Runs -/

/-- One request, with the token a prompt would draw and the behaviour of the callback. -/
structure Turn where
  request : PolicyRequest json.Held
  token : Uuid
  exchange : PlanReview Value → Except String Value

/-- What one turn did. -/
structure TurnRecord where
  before : RootPolicy Value
  request : PolicyRequest json.Held
  decision : Decision Value

/-- One request put to the policy, with what it answered. -/
def RootPolicy.turn (policy : RootPolicy Value) (turn : Turn json) : TurnRecord json :=
  ⟨policy, turn.request, policy.check json turn.token turn.exchange turn.request⟩

/-- Answers requests in any order. -/
def RootPolicy.play (policy : RootPolicy Value) : List (Turn json) → List (TurnRecord json)
  | [] => []
  | turn :: rest =>
      policy.turn json turn :: RootPolicy.play (policy.turn json turn).decision.policy rest

variable {json}

/-- The turn changed `current_run`. -/
def TurnRecord.switches (record : TurnRecord json) : Bool :=
  record.before.currentRun != record.decision.policy.currentRun

/-- The turns from the last change of `current_run` on. -/
def sinceSwitch (records : List (TurnRecord json)) : List (TurnRecord json) :=
  records.foldl (fun turns record => if record.switches then [record] else turns ++ [record]) []

/-- The calls of the callback. -/
def exchanges (records : List (TurnRecord json)) : List (Exchange Value) :=
  records.filterMap (·.decision.exchange)

/-- The run that a satisfied scope check names. -/
def TurnRecord.scopeRun (record : TurnRecord json) : Option Uuid :=
  match record.request, record.decision.status with
  | .scope _ context _ _, .satisfied => some (json.value context).runId
  | _, _ => none

/-- The run of the latest scope check that was answered `Satisfied`. -/
def latestScope (records : List (TurnRecord json)) : Option Uuid :=
  records.foldl (fun latest record => record.scopeRun.or latest) none

/-- A satisfied scope check supplied a context. -/
def Supplied (turns : List (TurnRecord json)) (context : json.Held) : Prop :=
  ∃ record ∈ turns, ∃ kind action observed, record.request = .scope kind context action observed ∧
    record.decision.status = .satisfied

variable (json)

/-- The displayed context is one that was supplied for the current run. -/
def Shows (turns : List (TurnRecord json)) (run : Option Uuid) (value : Value) : Prop :=
  ∃ context, Supplied turns context ∧ json.context context = some value ∧
    run = some (json.value context).runId

/-- What the fields say about the turns since the run changed. -/
structure RootPolicy.Bound (policy : RootPolicy Value) (turns : List (TurnRecord json)) : Prop where
  context : ∀ value, policy.context = some value → Shows json turns policy.currentRun value
  confirmed : ∀ review, policy.confirmed = some review →
    Shows json turns policy.currentRun review.context ∧
      ∃ exchange ∈ exchanges turns, exchange.shown.review = review ∧ exchange.confirms json = true
  once : (exchanges turns).length ≤ 1
  unasked : policy.confirmed = none → policy.refused = false → exchanges turns = []
  refused : ∀ exchange ∈ exchanges turns, exchange.confirms json = false → policy.refused = true

section Runs

variable {json} {policy : RootPolicy Value} {turns records : List (TurnRecord json)}
  {record : TurnRecord json}

/-- A switch of roots starts the records anew. -/
theorem sinceSwitch_concat : sinceSwitch (records ++ [record]) =
    if record.switches then [record] else sinceSwitch records ++ [record] := by
  rw [sinceSwitch, List.foldl_append]
  rfl

theorem latestScope_concat :
    latestScope (records ++ [record]) = record.scopeRun.or (latestScope records) := by
  rw [latestScope, List.foldl_append]
  rfl

theorem exchanges_concat :
    exchanges (records ++ [record]) = exchanges records ++ record.decision.exchange.toList := by
  rw [exchanges, List.filterMap_append]
  cases h : record.decision.exchange <;> simp [exchanges, h]

theorem Supplied.concat {context : json.Held} (h : Supplied turns context) :
    Supplied (turns ++ [record]) context := by
  obtain ⟨earlier, hmem, h⟩ := h
  exact ⟨earlier, List.mem_append_left _ hmem, h⟩

/-- What was shown stays shown. -/
theorem Shows.concat {run : Option Uuid} {value : Value} (h : Shows json turns run value) :
    Shows json (turns ++ [record]) run value := by
  obtain ⟨context, hsupplied, h⟩ := h
  exact ⟨context, hsupplied.concat, h⟩

/-- A turn that asks nothing and keeps the policy keeps the invariant. -/
theorem RootPolicy.Bound.idle (h : policy.Bound json turns)
    (hexchange : record.decision.exchange = none) :
    policy.Bound json (turns ++ [record]) := by
  have hsame : exchanges (turns ++ [record]) = exchanges turns := by
    rw [exchanges_concat, hexchange, Option.toList_none, List.append_nil]
  constructor
  · exact fun value hvalue => (h.context value hvalue).concat
  · intro review hreview
    obtain ⟨hshows, hexchange⟩ := h.confirmed review hreview
    exact ⟨hshows.concat, hsame ▸ hexchange⟩
  · exact hsame ▸ h.once
  · exact hsame ▸ h.unasked
  · exact hsame ▸ h.refused

/-- What one turn can do: nothing, enter a run, or show one review. -/
inductive TurnKind (json : PolicyJson Value) (policy : RootPolicy Value) (turn : Turn json) :
    TurnRecord json → Prop where
  | idle {record : TurnRecord json} (hbefore : record.before = policy)
      (hpolicy : record.decision.policy = policy) (hexchange : record.decision.exchange = none)
      (hscope : record.scopeRun = none) : TurnKind json policy turn record
  | enters {kind : ScopeCheck} {context : json.Held} {action : Option ResolvedAction}
      {observed : LiveObservation} :
      TurnKind json policy turn ⟨policy, .scope kind context action observed,
        { status := .satisfied, policy := policy.enter json context }⟩
  | shows {request : ApprovalRequest} {target : Option NodeId} {value : Value}
      {made : Exchange Value} {record : TurnRecord json} (hbefore : record.before = policy)
      (hrequest : record.request = .authorize request target) (hrefused : policy.refused = false)
      (hconfirmed : policy.confirmed = none) (hcontext : policy.context = some value)
      (hshown : made.shown.review =
        ⟨value, request.runId, request.planId, request.planDigest, turn.token⟩)
      (hexchange : record.decision.exchange = some made)
      (hpolicy : record.decision.policy =
        if made.confirms json then
          { policy with context := none, confirmed := some made.shown.review }
        else { policy with context := none, refused := true }) : TurnKind json policy turn record

/-- A context is shown once, and the answer confirms or refuses it. -/
theorem RootPolicy.review_some {request : ApprovalRequest} {token : Uuid}
    {exchange : PlanReview Value → Except String Value} {value : Value}
    (hcontext : policy.context = some value) : ∃ made : Exchange Value,
      made.shown.review = ⟨value, request.runId, request.planId, request.planDigest, token⟩ ∧
      policy.review json request token exchange =
        (if made.confirms json then
          { policy with context := none, confirmed := some made.shown.review }
        else { policy with context := none, refused := true }, some made) := by
  refine ⟨⟨{ review := ⟨value, request.runId, request.planId, request.planDigest, token⟩ },
    exchange { review := ⟨value, request.runId, request.planId, request.planDigest, token⟩ }⟩,
    rfl, ?_⟩
  rw [RootPolicy.review, hcontext]
  dsimp only
  split <;> rfl

/-- What the answer to an authorization does to the policy. -/
theorem RootPolicy.authorize_cases {request : ApprovalRequest} {target : Option NodeId}
    {token : Uuid}
    {exchange : PlanReview Value → Except String Value} :
    ((policy.authorize json request target token exchange).policy = policy ∧
      (policy.authorize json request target token exchange).exchange = none) ∨
    (policy.refused = false ∧ policy.confirmed = none ∧ ∃ value made, policy.context = some value ∧
      made.shown.review = ⟨value, request.runId, request.planId, request.planDigest, token⟩ ∧
      (policy.authorize json request target token exchange).exchange = some made ∧
      (policy.authorize json request target token exchange).policy =
        if made.confirms json then
          { policy with context := none, confirmed := some made.shown.review }
        else { policy with context := none, refused := true }) := by
  unfold RootPolicy.authorize
  -- Only a policy that has neither refused nor confirmed, and has a context, shows a review.
  by_cases hrefused : policy.refused = true
  · rw [if_pos hrefused]
    exact .inl ⟨rfl, rfl⟩
  rw [if_neg hrefused]
  rw [Bool.not_eq_true] at hrefused
  cases hconfirmed : policy.confirmed with
  | some review =>
      rw [Option.isNone_some, if_neg Bool.false_ne_true]
      dsimp only
      rw [hconfirmed]
      dsimp only
      split <;> exact .inl ⟨rfl, rfl⟩
  | none =>
      rw [Option.isNone_none, if_pos rfl]
      cases hcontext : policy.context with
      | none =>
          rw [RootPolicy.review, hcontext]
          dsimp only
          rw [hconfirmed]
          exact .inl ⟨rfl, rfl⟩
      | some value =>
          obtain ⟨made, hshown, hreview⟩ :=
            @RootPolicy.review_some _ json policy request token exchange value hcontext
          refine .inr ⟨hrefused, rfl, value, made, rfl, hshown, ?_⟩
          rw [hreview]
          dsimp only
          by_cases hconfirms : made.confirms json = true
          · rw [if_pos hconfirms]
            dsimp only
            split <;> exact ⟨rfl, rfl⟩
          · simp [if_neg hconfirms, hconfirmed]

theorem RootPolicy.turn_kind {turn : Turn json} :
    TurnKind json policy turn (policy.turn json turn) := by
  obtain ⟨request, token, exchange⟩ := turn
  by_cases hroot : policy.root = true
  · cases request with
    | scope kind context action observed =>
        by_cases hpreserved : kind = .preservation ∧ (json.value context).protectedScope ≠ {}
        · have hcheck : policy.check json token exchange (.scope kind context action observed) =
              ⟨.unknown "independent protected contents preservation", policy, none⟩ := by
            simp [RootPolicy.check, hroot, hpreserved]
          exact .idle rfl (congrArg Decision.policy hcheck) (congrArg Decision.exchange hcheck)
            (by simp [TurnRecord.scopeRun, RootPolicy.turn, hcheck])
        · have hcheck : policy.check json token exchange (.scope kind context action observed) =
              ⟨.satisfied, policy.enter json context, none⟩ := by
            simp only [RootPolicy.check, hroot, Bool.not_true, Bool.false_eq_true, if_false,
              if_neg hpreserved]
          rw [RootPolicy.turn, hcheck]
          exact .enters
    | authorize request target =>
        have hcheck : policy.check json token exchange (.authorize request target) =
            policy.authorize json request target token exchange := by
          simp [RootPolicy.check, hroot]
        rcases @RootPolicy.authorize_cases _ json policy request target token exchange with
          ⟨hpolicy, hexchange⟩ |
            ⟨hrefused, hconfirmed, value, made, hcontext, hshown, hexchange, hpolicy⟩
        · exact .idle rfl ((congrArg Decision.policy hcheck).trans hpolicy)
            ((congrArg Decision.exchange hcheck).trans hexchange) rfl
        · exact .shows rfl rfl hrefused hconfirmed hcontext hshown
            ((congrArg Decision.exchange hcheck).trans hexchange)
            ((congrArg Decision.policy hcheck).trans hpolicy)
    | incident reviewed fresh =>
        refine .idle rfl ?_ ?_ rfl <;> simp [RootPolicy.turn, RootPolicy.check, hroot]
  · -- Without root every request is refused, and nothing changes.
    have hcheck :
        policy.check json token exchange request = ⟨DisksGraph.refused, policy, none⟩ := by
      cases request <;> simp [RootPolicy.check, hroot]
    refine .idle rfl (congrArg Decision.policy hcheck) (congrArg Decision.exchange hcheck) ?_
    rw [TurnRecord.scopeRun, RootPolicy.turn]
    dsimp only
    rw [hcheck]
    cases request <;> rfl

/-- A scope check of the current run brings its context. -/
theorem RootPolicy.Bound.enter_same {kind : ScopeCheck} {context : json.Held}
    {action : Option ResolvedAction} {observed : LiveObservation} (h : policy.Bound json turns)
    (hsame : policy.currentRun = some (json.value context).runId)
    (hrequest : record.request = .scope kind context action observed)
    (hstatus : record.decision.status = .satisfied) (hexchange : record.decision.exchange = none) :
    (policy.enter json context).Bound json (turns ++ [record]) := by
  have henter : policy.enter json context = { policy with context := json.context context } :=
    if_neg (not_not_intro hsame)
  have hidle : policy.Bound json (turns ++ [record]) := h.idle hexchange
  rw [henter]
  refine ⟨fun value hvalue => ?_, hidle.confirmed, hidle.once, hidle.unasked, hidle.refused⟩
  exact ⟨context, ⟨record, List.mem_append_right _ List.mem_cons_self, kind, action, observed,
    hrequest, hstatus⟩, hvalue, hsame⟩

/-- A scope check of another run starts over: nothing is confirmed or refused in it yet. -/
theorem RootPolicy.bound_enter_other {kind : ScopeCheck} {context : json.Held}
    {action : Option ResolvedAction} {observed : LiveObservation}
    (hother : policy.currentRun ≠ some (json.value context).runId)
    (hrequest : record.request = .scope kind context action observed)
    (hstatus : record.decision.status = .satisfied) (hexchange : record.decision.exchange = none) :
    (policy.enter json context).Bound json [record] := by
  have henter : policy.enter json context =
      { policy with
        currentRun := some (json.value context).runId, confirmed := none, refused := false
        context := json.context context } := if_pos hother
  have hnone : exchanges [record] = [] := by
    simp [exchanges, hexchange]
  rw [henter]
  refine ⟨fun value hvalue => ?_, nofun, ?_, fun _ _ => hnone, ?_⟩
  · exact ⟨context, ⟨record, List.mem_cons_self, kind, action, observed, hrequest, hstatus⟩, hvalue,
      rfl⟩
  · exact hnone ▸ Nat.zero_le 1
  · exact hnone ▸ nofun

theorem RootPolicy.currentRun_enter {context : json.Held} :
    (policy.enter json context).currentRun = some (json.value context).runId := by
  by_cases hsame : policy.currentRun = some (json.value context).runId
  · simp [RootPolicy.enter, hsame]
  · simp [RootPolicy.enter, hsame]

/-- A review is the only one since the run changed, and its answer decides what is held. -/
theorem RootPolicy.Bound.review {value : Value} {made : Exchange Value}
    (h : policy.Bound json turns)
    (hrefused : policy.refused = false) (hconfirmed : policy.confirmed = none)
    (hcontext : policy.context = some value) (hshown : made.shown.review.context = value)
    (hexchange : record.decision.exchange = some made)
    (hpolicy : record.decision.policy =
      if made.confirms json then
        { policy with context := none, confirmed := some made.shown.review }
      else { policy with context := none, refused := true }) :
    record.decision.policy.Bound json (turns ++ [record]) := by
  have hfirst : exchanges (turns ++ [record]) = [made] := by
    rw [exchanges_concat, h.unasked hconfirmed hrefused, hexchange]
    rfl
  by_cases hconfirms : made.confirms json = true
  · rw [hpolicy, if_pos hconfirms]
    refine ⟨nofun, ?_, hfirst ▸ Nat.le_refl 1, nofun, ?_⟩
    · rintro review ⟨⟩
      refine ⟨?_, made, hfirst ▸ List.mem_cons_self, rfl, hconfirms⟩
      rw [hshown]
      exact (h.context value hcontext).concat
    · intro exchange hmem hrefusal
      rw [hfirst] at hmem
      obtain rfl := List.mem_singleton.mp hmem
      exact absurd (hconfirms.symm.trans hrefusal) nofun
  · rw [hpolicy, if_neg hconfirms]
    refine ⟨nofun, fun review hreview => ?_, hfirst ▸ Nat.le_refl 1, fun _ => nofun,
      fun _ _ _ => rfl⟩
    exact absurd (hconfirmed.symm.trans hreview) nofun

/-- **One turn keeps the invariant**, and the current run is that of the latest satisfied scope
check. -/
theorem RootPolicy.Bound.turn {turn : Turn json} (h : policy.Bound json (sinceSwitch records))
    (hrun : policy.currentRun = latestScope records)
    (hrecord : record = policy.turn json turn) :
    record.decision.policy.Bound json (sinceSwitch (records ++ [record])) ∧
      record.decision.policy.currentRun = latestScope (records ++ [record]) := by
  have hkind := @RootPolicy.turn_kind _ json policy turn
  rw [← hrecord] at hkind
  rw [sinceSwitch_concat, latestScope_concat]
  cases hkind with
  | idle hbefore hpolicy hexchange hscope =>
      have hstays : record.switches = false := by
        rw [TurnRecord.switches, hbefore, hpolicy, bne_self_eq_false]
      rw [hstays, hpolicy, hscope]
      exact ⟨h.idle hexchange, hrun⟩
  | @enters kind context action observed =>
      refine ⟨?_, RootPolicy.currentRun_enter⟩
      rw [TurnRecord.switches, RootPolicy.currentRun_enter]
      by_cases hsame : policy.currentRun = some (json.value context).runId
      · rw [hsame, bne_self_eq_false]
        exact h.enter_same hsame rfl rfl rfl
      · rw [bne_iff_ne.mpr hsame]
        exact RootPolicy.bound_enter_other hsame rfl rfl rfl
  | @shows request target value made _ hbefore hrequest hrefused hconfirmed hcontext hshown hexchange
      hpolicy =>
      have hkept : record.decision.policy.currentRun = policy.currentRun := by
        rw [hpolicy]
        split <;> rfl
      have hstays : record.switches = false := by
        rw [TurnRecord.switches, hbefore, hkept, bne_self_eq_false]
      have hscope : record.scopeRun = none := by
        rw [TurnRecord.scopeRun, hrequest]
      rw [hstays, hscope, hkept]
      exact ⟨h.review hrefused hconfirmed hcontext (congrArg Review.context hshown) hexchange
        hpolicy, hrun⟩

theorem RootPolicy.turn_root {turn : Turn json} :
    (policy.turn json turn).decision.policy.root = policy.root := by
  have hkind := @RootPolicy.turn_kind _ json policy turn
  generalize policy.turn json turn = record at hkind
  cases hkind with
  | idle _ hpolicy _ _ => rw [hpolicy]
  | enters =>
      simp only [RootPolicy.enter]
      split <;> rfl
  | shows _ _ _ _ _ _ _ hpolicy =>
      rw [hpolicy]
      split <;> rfl

/-- **A run keeps the invariant** up to every turn. -/
theorem RootPolicy.Bound.play {turns : List (Turn json)}
    {start before after : List (TurnRecord json)}
    (h : policy.Bound json (sinceSwitch start)) (hrun : policy.currentRun = latestScope start)
    (hplay : policy.play json turns = before ++ record :: after) :
    record.before.Bound json (sinceSwitch (start ++ before)) ∧
      record.before.currentRun = latestScope (start ++ before) ∧
      record.before.root = policy.root ∧ ∃ turn, record = record.before.turn json turn := by
  induction turns generalizing policy start before with
  | nil => simp [RootPolicy.play] at hplay
  | cons turn rest ih =>
      rw [RootPolicy.play] at hplay
      cases before with
      | nil =>
          obtain ⟨rfl, -⟩ := List.cons.inj hplay
          rw [List.append_nil]
          exact ⟨h, hrun, rfl, turn, rfl⟩
      | cons first before =>
          obtain ⟨rfl, hrest⟩ := List.cons.inj hplay
          obtain ⟨hnext, hrun'⟩ := h.turn hrun rfl
          obtain ⟨hbound, hlatest, hroot, hturn⟩ := ih hnext hrun' hrest
          rw [List.append_assoc] at hbound hlatest
          exact ⟨hbound, hlatest, hroot.trans RootPolicy.turn_root, hturn⟩

theorem RootPolicy.bound_withRoot {root : Bool} :
    (RootPolicy.withRoot root).Bound json (sinceSwitch []) where
  context := nofun
  confirmed := nofun
  once := Nat.zero_le _
  unasked _ _ := rfl
  refused := nofun

/-- An authorization is given by a root policy that holds an accepted review. -/
theorem RootPolicy.check_authorize_satisfied {request : ApprovalRequest} {target : Option NodeId}
    {token : Uuid} {exchange : PlanReview Value → Except String Value}
    (h : (policy.check json token exchange (.authorize request target)).status = .satisfied) :
    policy.root = true ∧ ∃ review,
      (policy.check json token exchange (.authorize request target)).policy.confirmed =
        some review ∧ accepts review request target = true := by
  rw [RootPolicy.check] at h ⊢
  by_cases hroot : policy.root = true
  · rw [hroot, Bool.not_true, if_neg Bool.false_ne_true] at h ⊢
    refine ⟨rfl, ?_⟩
    unfold RootPolicy.authorize at h ⊢
    by_cases hrefused : policy.refused = true
    · rw [if_pos hrefused] at h
      cases h
    rw [if_neg hrefused] at h ⊢
    generalize (if policy.confirmed.isNone = true then policy.review json request token exchange
      else (policy, none)) = result at h ⊢
    obtain ⟨reviewed, made⟩ := result
    dsimp only at h ⊢
    cases hconfirmed : reviewed.confirmed with
    | none =>
        rw [hconfirmed] at h
        cases h
    | some review =>
        rw [hconfirmed] at h
        dsimp only at h ⊢
        by_cases haccepts : accepts review request target = true
        · rw [if_pos haccepts]
          exact ⟨review, hconfirmed, haccepts⟩
        · rw [if_neg haccepts] at h
          cases h
  · rw [Bool.not_eq_true] at hroot
    rw [hroot, Bool.not_false, if_pos rfl] at h
    cases h

/-- A policy that was refused refuses again. -/
theorem RootPolicy.check_authorize_refused {request : ApprovalRequest} {target : Option NodeId}
    {token : Uuid} {exchange : PlanReview Value → Except String Value} (h : policy.refused = true) :
    (policy.check json token exchange (.authorize request target)).status = DisksGraph.refused := by
  rw [RootPolicy.check]
  split
  · rfl
  · rw [RootPolicy.authorize, if_pos h]

/-- A confirming reply repeats the displayed review. -/
theorem Exchange.confirms_iff {exchange : Exchange Value} : exchange.confirms json = true ↔
    ∃ value, exchange.reply = .ok value ∧ json.confirmation value = some
      ⟨"apply", exchange.shown.review.runId, exchange.shown.review.planId,
        exchange.shown.review.digest, exchange.shown.review.token⟩ := by
  obtain ⟨shown, reply⟩ := exchange
  cases reply with
  | error message => simp [Exchange.confirms, Except.toOption]
  | ok value =>
      cases hanswer : json.confirmation value with
      | none => simp [Exchange.confirms, Except.toOption, hanswer]
      | some answer =>
          obtain ⟨command, runId, planId, digest, token⟩ := answer
          simp [Exchange.confirms, Except.toOption, hanswer, and_assoc]

/-- **`consent_bound_to_review`** — in every run of requests, an authorization is given only by
root, for fingerprinted targets, and only if the callback was shown, since the run changed, a review
of a context of that run with the request's run, plan and digest, and replied with exactly these and
the token.  The callback is asked at most once until the run changes, and a refusal lasts as long.
The run that the latest satisfied scope check names is the one that an authorization is asked
for. -/
theorem consent_bound_to_review {root : Bool} {turns : List (Turn json)}
    {before after : List (TurnRecord json)}
    (h : (RootPolicy.withRoot root).play json turns = before ++ record :: after)
    (hadmitted : ∀ request target run, record.request = .authorize request target →
      latestScope before = some run → run = request.runId) :
    (∀ request target, record.request = .authorize request target →
      record.decision.status = .satisfied →
      root = true ∧
      (∃ exchange ∈ exchanges (sinceSwitch (before ++ [record])),
        exchange.shown.review.runId = request.runId ∧
        exchange.shown.review.planId = request.planId ∧
        exchange.shown.review.digest = request.planDigest ∧
        (∃ context, Supplied (sinceSwitch (before ++ [record])) context ∧
          (json.value context).runId = request.runId ∧
          json.context context = some exchange.shown.review.context) ∧
        ∃ value, exchange.reply = .ok value ∧ json.confirmation value = some
          ⟨"apply", request.runId, request.planId, request.planDigest,
            exchange.shown.review.token⟩) ∧
      ∀ node, target = some node → node ∈ request.targets.map (·.plannedId)) ∧
    (exchanges (sinceSwitch (before ++ [record]))).length ≤ 1 ∧
    ∀ request target, record.request = .authorize request target →
      (∃ exchange ∈ exchanges (sinceSwitch before), exchange.confirms json = false) →
      record.decision.status = refused := by
  obtain ⟨hbound, hrun, hroot, turn, hturn⟩ := RootPolicy.bound_withRoot.play rfl h
  rw [List.nil_append] at hbound hrun
  obtain ⟨hnext, hrun'⟩ := hbound.turn hrun hturn
  have hchecked : ∀ {request target}, record.request = .authorize request target →
      record.decision =
        record.before.check json turn.token turn.exchange (.authorize request target) := by
    intro request target hrequest
    rw [hturn] at hrequest
    rw [← hrequest]
    exact congrArg TurnRecord.decision hturn
  refine ⟨fun request target hrequest hsatisfied => ?_, hnext.once,
    fun request target hrequest => ?_⟩
  · rw [hchecked hrequest] at hsatisfied
    obtain ⟨hisRoot, review, hreview, haccepts⟩ := RootPolicy.check_authorize_satisfied hsatisfied
    rw [← hchecked hrequest] at hreview
    obtain ⟨⟨context, hsupplied, hcontext, hcurrent⟩, exchange, hmem, rfl, hconfirms⟩ :=
      hnext.confirmed review hreview
    obtain ⟨value, hreply, hanswer⟩ := Exchange.confirms_iff.mp hconfirms
    -- The shown context is of the current run, which is the one the scope check admitted.
    have hsame : (json.value context).runId = request.runId := by
      refine hadmitted request target (json.value context).runId hrequest ?_
      rw [← hcurrent, hrun', latestScope_concat, TurnRecord.scopeRun, hrequest, Option.none_or]
    simp only [RootPolicy.accepts, Bool.and_eq_true, beq_iff_eq] at haccepts
    obtain ⟨⟨⟨hid, hplan⟩, hdigest⟩, htarget⟩ := haccepts
    rw [hid, hplan, hdigest] at hanswer
    refine ⟨hroot.symm.trans hisRoot, ⟨exchange, hmem, hid, hplan, hdigest,
      ⟨context, hsupplied, hsame, hcontext⟩, value, hreply, hanswer⟩, ?_⟩
    rintro node rfl
    rw [Option.all_some, List.any_eq_true] at htarget
    obtain ⟨fingerprint, hfingerprint, hnode⟩ := htarget
    exact List.mem_map.mpr ⟨fingerprint, hfingerprint, beq_iff_eq.mp hnode⟩
  · rintro ⟨exchange, hmem, hrefusal⟩
    rw [hchecked hrequest]
    exact RootPolicy.check_authorize_refused (hbound.refused exchange hmem hrefusal)

end Runs

end Policy

/-! ### One confirmed plan -/

/-- JSON values by what they decode to: a context is no confirmation. -/
def sampleJson : PolicyJson (PolicyContext ⊕ Confirmation) where
  Held := PolicyContext
  value := id
  context context := some (.inl context)
  confirmation value := value.getRight?

/-- The run that creates one volume, as a scope check shows it. -/
def sampleReviewed : PolicyContext where
  runId := 7#128
  planId := 5#128
  actions := [sampleCreation]
  dependencies := []
  baseline := ⟨6#128, sampleGroupState, sampleCapacity⟩
  goal := DesiredState.fromCurrent sampleGroupState
  protectedScope := {}

/-- An approval of creating a volume. -/
def sampleApproval : ApprovalRequest where
  runId := 7#128
  planId := 5#128
  actionId := ⟨0⟩
  planDigest := "digest"
  backend := ⟨"native"⟩
  targets := [⟨sampleVg, [.lvmVgUuid "vg-uuid"]⟩]
  observation := ⟨9#128, 1⟩

/-- A scope check, and an authorization whose review is answered with its own values. -/
def sampleTurns : List (Turn sampleJson) :=
  [⟨.scope .scope sampleReviewed none ⟨⟨9#128, 1⟩, sampleGroupState⟩, 20#128,
      fun _ => .error "nothing to confirm"⟩,
    ⟨.authorize sampleApproval (some sampleVg), 21#128, fun shown =>
      .ok (.inr ⟨"apply", shown.review.runId, shown.review.planId, shown.review.digest,
        shown.review.token⟩)⟩]

/-- The authorization is given on that review. -/
theorem consent_bound_to_review_applied : ∃ before record,
    (RootPolicy.withRoot true).play sampleJson sampleTurns = before ++ [record] ∧
      record.decision.status = .satisfied ∧
      ∃ exchange ∈ exchanges (sinceSwitch (before ++ [record])),
        exchange.shown.review.runId = 7#128 ∧ exchange.shown.review.planId = 5#128 := by
  obtain ⟨before, record, hplay, hrequest, hsatisfied, hscope⟩ : ∃ before record,
      (RootPolicy.withRoot true).play sampleJson sampleTurns = before ++ [record] ∧
        record.request = .authorize sampleApproval (some sampleVg) ∧
        record.decision.status = .satisfied ∧ latestScope before = some 7#128 :=
    ⟨[_], _, rfl, rfl, rfl, rfl⟩
  obtain ⟨hauthorized, -, -⟩ := consent_bound_to_review hplay <| by
    intro request target run hrequest' hrun
    obtain ⟨rfl, -⟩ := PolicyRequest.authorize.inj (hrequest.symm.trans hrequest')
    exact (Option.some.inj (hscope.symm.trans hrun)).symm
  obtain ⟨-, ⟨exchange, hmem, hid, hplan, -⟩, -⟩ := hauthorized _ _ hrequest hsatisfied
  exact ⟨before, record, hplay, hsatisfied, exchange, hmem, hid, hplan⟩

end DisksGraph
