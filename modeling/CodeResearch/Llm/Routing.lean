import CodeResearch.Llm.Calls

/-!
# Routing stays within its budget and loses no result

In every run in which the exceptions of an attempt are those its router handles, each
reservation is settled once, each call returns after boundedly many steps, and no result of a
task is lost. The text router has no clause for other exceptions. They leave its reservation
open and end the task.
-/

namespace CodeResearch.Llm

variable {P V : Type}

section Points

variable (r : Request P V)

def Request.left (todo : List (Provider × ℕ)) : ℕ := (todo.map fun p => r.retriesOf p.1 + 1).sum

def Request.stepsLeft (todo : List (Provider × ℕ)) : ℕ :=
  (todo.map fun p => 2 * (r.retriesOf p.1 + 1) + 1).sum

def Point.held : Point V → Option ℕ
  | .invoking _ _ _ _ id => some id
  | _ => none

def Point.result : Point V → Option (RouterResult V)
  | .closing result | .returned result => some result
  | _ => none

/-- The attempt is one of those of the retry loop. -/
def Point.Within : Point V → Prop
  | .reserving p _ attempt _ | .invoking p _ attempt _ _ => attempt ≤ r.retriesOf p
  | _ => True

/-- The requests that the call may still make. -/
def Point.remaining : Point V → ℕ
  | .opening => r.requestLimit
  | .looking p _ rest => r.retriesOf p + 1 + r.left rest
  | .reserving p _ attempt rest => r.retriesOf p + 1 - attempt + r.left rest
  | .invoking p _ attempt rest _ => r.retriesOf p - attempt + r.left rest
  | .closing _ | .returned _ | .raised _ => 0

/-- The steps that the call may still take. -/
def Point.rank : Point V → ℕ
  | .opening => r.stepsLeft r.available + 2
  | .looking p _ rest => 2 * (r.retriesOf p + 1) + r.stepsLeft rest + 2
  | .reserving p _ attempt rest => 2 * (r.retriesOf p + 1 - attempt) + r.stepsLeft rest + 1
  | .invoking p _ attempt rest _ => 2 * (r.retriesOf p - attempt) + r.stepsLeft rest + 2
  | .closing _ => 1
  | .returned _ | .raised _ => 0

/-- A point that keeps the bounds `n` on requests and `k` on steps, that is no exception, and
whose value passed. -/
structure Point.Lands (n k : ℕ) (pt : Point V) : Prop where
  unraised : ∀ e, pt ≠ .raised e
  within : pt.Within r
  remaining : pt.remaining r ≤ n
  rank : pt.rank r ≤ k
  passed : ∀ result value metadata, pt.result = some result →
    result.value = some (value, metadata) → r.job.Passed r.contextId value

end Points

variable {r : Request P V} {n k n' k' : ℕ} {c : Call P V} {b : BudgetManager} {m : Moved P V}
  {p : Provider} {index attempt id : ℕ} {rest : List (Provider × ℕ)}

theorem Point.Lands.mono {pt : Point V} (h : pt.Lands r n k) (hn : n ≤ n') (hk : k ≤ k') :
    pt.Lands r n' k' :=
  ⟨h.unraised, h.within, h.remaining.trans hn, h.rank.trans hk, h.passed⟩

variable {result : RouterResult V}

theorem lands_closing (h : ∀ value metadata, result.value = some (value, metadata) →
      r.job.Passed r.contextId value) : (Point.closing result).Lands r n (k + 1) :=
  ⟨fun _ h => (nomatch h), trivial, Nat.zero_le _, Nat.le_add_left .., fun _ value metadata hr hv => by
    cases hr
    exact h value metadata hv⟩

namespace Call

/-- What one step makes of a call: the rest of its request, with the bounds `n` and `k`. -/
structure Leads (c : Call P V) (n k : ℕ) (c' : Call P V) : Prop where
  request : c'.request = c.request
  reservations : c'.reservations = c.reservations
  held : c'.point.held = none
  lands : c'.point.Lands c.request n k

variable {c' : Call P V} {stored : Bool} {turn : Except Exc (ProviderResponse P)}

theorem Leads.mono (h : Leads c n k c') (hn : n ≤ n') (hk : k ≤ k') : Leads c n' k' c' :=
  ⟨h.request, h.reservations, h.held, h.lands.mono hn hk⟩

theorem Leads.of_warn {w : Warning} (h : Leads (c.warn w) n k c') :
    Leads c n k c' := ⟨h.request, h.reservations, h.held, h.lands⟩

theorem leads_finish {value : Option (V × CallMetadata)}
    (h : ∀ v metadata, value = some (v, metadata) → c.request.job.Passed c.request.contextId v) :
    Leads c n (k + 1) (c.finish value) :=
  ⟨rfl, rfl, rfl, lands_closing h⟩

theorem leads_finish_none : Leads c n (k + 1) (c.finish none) :=
  leads_finish fun _ _ h => nomatch h

theorem leads_proceed (todo : List (Provider × ℕ)) :
    Leads c (c.request.left todo) (c.request.stepsLeft todo + 1) (c.proceed todo) := by
  unfold proceed
  split
  · exact ⟨rfl, rfl, rfl, lands_closing fun _ _ h => nomatch h⟩
  · rename_i p index rest
    have hleft : c.request.left ((p, index) :: rest) =
        c.request.retriesOf p + 1 + c.request.left rest := List.sum_cons
    have hsteps : c.request.stepsLeft ((p, index) :: rest) =
        2 * (c.request.retriesOf p + 1) + 1 + c.request.stepsLeft rest := List.sum_cons
    split
    · exact ⟨rfl, rfl, rfl, fun _ h => (nomatch h), Nat.zero_le _, by simp only [Point.remaining]; omega,
        by simp only [Point.rank]; omega, fun _ _ _ h => nomatch h⟩
    · exact ⟨rfl, rfl, rfl, fun _ h => (nomatch h), trivial, by simp only [Point.remaining]; omega,
        by simp only [Point.rank]; omega, fun _ _ _ h => nomatch h⟩

theorem leads_enter :
    Leads c c.request.requestLimit (c.request.stepsLeft c.request.available + 1) c.enter := by
  unfold enter
  split
  · exact leads_finish_none.of_warn
  · exact leads_proceed _

theorem leads_retry : Leads c (c.request.retriesOf p - attempt + c.request.left rest)
    (2 * (c.request.retriesOf p - attempt) + c.request.stepsLeft rest + 1)
    (c.retry p index attempt rest) := by
  unfold retry
  split
  · exact ⟨rfl, rfl, rfl, fun _ h => (nomatch h), ‹_›, by simp only [Point.remaining]; omega,
      by simp only [Point.rank]; omega, fun _ _ _ h => nomatch h⟩
  · exact (leads_proceed rest).mono (Nat.le_add_left ..) (by omega)

theorem leads_fail (h : Handling) : Leads c (c.request.retriesOf p - attempt + c.request.left rest)
    (2 * (c.request.retriesOf p - attempt) + c.request.stepsLeft rest + 1)
    (c.fail p index attempt rest h) := by
  unfold fail
  dsimp only
  split
  · exact (leads_proceed rest).of_warn.mono (Nat.le_add_left ..) (by simp only [warn]; omega)
  · exact leads_retry.of_warn

theorem leads_deliver {value : V} {metadata : CallMetadata}
    (h : c.request.job.Passed c.request.contextId value) :
    Leads c n (k + 1) (c.deliver p value metadata stored) := by
  unfold deliver
  dsimp only
  split
  · exact leads_finish fun _ _ hv => by cases hv; exact h
  · exact (leads_finish fun _ _ hv => by cases hv; exact h).of_warn

theorem look_spec {answer : Except Exc (Option P)} :
    (c.look b p index rest answer).settled = [] ∧
      ((c.look b p index rest answer).budget = b ∨
        (c.look b p index rest answer).budget = b.recordCacheHit) ∧
      Leads c (c.request.retriesOf p + 1 + c.request.left rest)
        (2 * (c.request.retriesOf p + 1) + c.request.stepsLeft rest + 1)
        (c.look b p index rest answer).call := by
  have hgo : ∀ c' : Call P V, c'.request = c.request → c'.reservations = c.reservations →
      Leads c (c.request.retriesOf p + 1 + c.request.left rest)
        (2 * (c.request.retriesOf p + 1) + c.request.stepsLeft rest + 1)
        { c' with point := .reserving p index 0 rest } := fun c' hrequest hreservations =>
    ⟨hrequest, hreservations, rfl, fun _ h => (nomatch h), Nat.zero_le _, le_refl _, le_refl _,
      fun _ _ _ h => nomatch h⟩
  unfold look
  dsimp only
  split
  · exact ⟨rfl, .inl rfl, hgo _ rfl rfl⟩
  · exact ⟨rfl, .inl rfl, hgo _ rfl rfl⟩
  · exact ⟨rfl, .inl rfl, hgo _ rfl rfl⟩
  · rename_i cached accept haccept
    split
    · rename_i e hraised
      have hcatches : c.request.router.catchesCached e = true :=
        Job.catchesCached_of_raised haccept hraised
      rw [if_pos hcatches]
      exact ⟨rfl, .inl rfl, hgo _ rfl rfl⟩
    · rename_i value hvalue
      refine ⟨rfl, .inr rfl, ?_⟩
      dsimp only
      split
      · refine leads_finish fun _ _ hv => ?_
        cases hv
        exact Job.passed_of_acceptCached haccept hvalue
      · exact hgo _ rfl rfl

section Reserve

theorem budget_reserve : (c.reserve b p index attempt rest).budget =
    (b.tryReserveProviderRequest p.name c.request.router.taskType c.request.contextId
      (0 < attempt) (0 < index && attempt = 0)).1 := by
  unfold reserve
  dsimp only
  split <;> rfl

theorem settled_reserve : (c.reserve b p index attempt rest).settled = [] := by
  unfold reserve
  dsimp only
  split <;> rfl

theorem leads_reserve (h : b.maxProviderRequests ≤ b.reservedProviderRequests) :
    Leads c n 1 (c.reserve b p index attempt rest).call := by
  unfold reserve
  simp only [BudgetManager.tryReserveProviderRequest, if_pos h]
  exact ⟨rfl, rfl, rfl, lands_closing fun _ _ hv => nomatch hv⟩

theorem call_reserve (h : b.reservedProviderRequests < b.maxProviderRequests) :
    (c.reserve b p index attempt rest).call =
      { c with
        attempts := c.attempts + 1
        point := .invoking p index attempt rest b.reservedProviderRequests
        reservations := c.reservations ++ [b.reservedProviderRequests] } := by
  unfold reserve
  simp only [BudgetManager.tryReserveProviderRequest, if_neg (Nat.not_le.mpr h)]

end Reserve

def Settles (b : BudgetManager) (id : ℕ) (b' : BudgetManager) : Prop :=
  ∃ outcome, b' = b.recordRequestResult (some id) outcome

/-- The exception of an attempt reaches no `except` clause. -/
def Escapes (c : Call P V) (turn : Except Exc (ProviderResponse P)) : Prop :=
  ∃ e, (turn >>= fun response => c.request.router.accept response.data) = .error e ∧
    c.request.router.handles e = none

/-- An exception of an attempt escapes the text router only. -/
theorem escapes_iff : c.Escapes turn ↔ ∃ t, c.request.job = .text t ∧ ¬ t.Contained turn := by
  unfold Escapes Request.router
  constructor
  · rintro ⟨e, hraised, hnone⟩
    cases hjob : c.request.job with
    | text t =>
      rw [hjob] at hraised hnone
      refine ⟨t, rfl, fun hcontained => ?_⟩
      have hsome : ((ModelRouter.generateStructured t).handles e).isSome :=
        ModelRouter.handles_isSome.mpr (TextCall.contained_iff.mp hcontained e hraised)
      exact absurd hnone (Option.isSome_iff_ne_none.mp hsome)
    | figure | structuredImage =>
      rw [hjob] at hnone
      exact absurd hnone (Option.isSome_iff_ne_none.mp (visionHandles_isSome e))
  · rintro ⟨t, hjob, hcontained⟩
    rw [TextCall.contained_iff] at hcontained
    push Not at hcontained
    obtain ⟨e, hraised, hcaught⟩ := hcontained
    rw [hjob]
    refine ⟨e, hraised, Option.not_isSome_iff_eq_none.mp fun hsome => ?_⟩
    exact hcaught (ModelRouter.handles_isSome.mp hsome)

theorem handles_validation (job : Job P V) (contextId message : String) :
    ∃ h, (job.router contextId).handles (.validation message) = some h := by
  cases job <;> exact ⟨_, rfl⟩

/-- Unless its exception escapes, an answer settles the reservation. -/
theorem answer_spec (h : ¬ c.Escapes turn) :
    (c.answer b p index attempt rest id turn stored).settled = [id] ∧
      Settles b id (c.answer b p index attempt rest id turn stored).budget ∧
      Leads c (c.request.retriesOf p - attempt + c.request.left rest)
        (2 * (c.request.retriesOf p - attempt) + c.request.stepsLeft rest + 1)
        (c.answer b p index attempt rest id turn stored).call := by
  unfold answer
  dsimp only
  split
  · rename_i value response hturn
    obtain ⟨response', hresponse, hturn⟩ := except_bind_eq_ok_iff.mp hturn
    obtain ⟨value', haccept, hpair⟩ := except_map_eq_ok_iff.mp hturn
    cases hpair
    split
    · exact ⟨rfl, ⟨_, rfl⟩, leads_deliver (Job.passed_of_accept haccept)⟩
    · obtain ⟨handling, hhandling⟩ := handles_validation c.request.job c.request.contextId ""
      have hrouter : c.request.router.handles (.validation "") = some handling := hhandling
      rw [hrouter]
      exact ⟨rfl, ⟨_, BudgetManager.recordRequestResult_again⟩, leads_fail handling⟩
  · rename_i e hturn
    have hraised : (turn >>= fun response => c.request.router.accept response.data) = .error e := by
      cases turn with
      | error e' =>
        cases hturn
        rfl
      | ok response =>
        rw [except_bind_ok] at hturn ⊢
        cases haccept : c.request.router.accept response.data with
        | ok value =>
          rw [haccept] at hturn
          cases hturn
        | error e' =>
          rw [haccept] at hturn
          cases hturn
          rfl
    split
    · exact ⟨rfl, ⟨_, rfl⟩, leads_fail _⟩
    · exact absurd ⟨e, hraised, ‹_›⟩ h

/-- What one step does to the reservations, and where it leads the call. -/
inductive Moves (c : Call P V) (b : BudgetManager) (m : Moved P V) : Prop
  | quiet {k : ℕ} (held : c.point.held = none) (settled : m.settled = [])
      (budget : m.budget = b ∨ m.budget = b.recordCacheHit) (rank : k < c.point.rank c.request)
      (leads : Leads c (c.point.remaining c.request) k m.call)
  | reserve {n k : ℕ} {provider taskType contextId : String} {retry fallback : Bool}
      (room : b.reservedProviderRequests < b.maxProviderRequests) (held : c.point.held = none)
      (settled : m.settled = [])
      (budget : m.budget =
        (b.tryReserveProviderRequest provider taskType contextId retry fallback).1)
      (request : m.call.request = c.request)
      (reservations : m.call.reservations = c.reservations ++ [b.reservedProviderRequests])
      (holds : m.call.point.held = some b.reservedProviderRequests)
      (remaining : n < c.point.remaining c.request) (rank : k < c.point.rank c.request)
      (lands : m.call.point.Lands c.request n k)
  | settle {id k : ℕ} (held : c.point.held = some id) (settled : m.settled = [id])
      (budget : Settles b id m.budget) (rank : k < c.point.rank c.request)
      (leads : Leads c (c.point.remaining c.request) k m.call)

/-- No exception reaches the caller in this step. -/
def Spares (c : Call P V) : Action P → Prop
  | .opened raises | .closed raises => raises = none
  | .answered turn _ => ∀ t, c.request.job = .text t → t.Contained turn
  | .looked _ | .reserve => True

theorem moves_of_act {a : Action P} (hwithin : c.point.Within c.request) (hspares : c.Spares a)
    (hpassed : ∀ result value metadata, c.point.result = some result →
      result.value = some (value, metadata) → c.request.job.Passed c.request.contextId value)
    (h : c.act b a = some m) : Moves c b m := by
  obtain ⟨request, point, warnings, attempts, reservations, steps⟩ := c
  cases a with
  | opened raises =>
    cases hspares
    cases point with
    | opening =>
      cases h
      exact .quiet rfl rfl (.inl rfl) (Nat.lt_succ_self _) leads_enter
    | _ => cases h
  | looked answer =>
    cases point with
    | looking p index rest =>
      cases h
      obtain ⟨hsettled, hbudget, hleads⟩ := look_spec
      exact .quiet rfl hsettled hbudget (Nat.lt_succ_self _) hleads
    | _ => cases h
  | reserve =>
    cases point with
    | reserving p index attempt rest =>
      cases h
      have hattempt : attempt ≤ request.retriesOf p := hwithin
      rcases Nat.lt_or_ge b.reservedProviderRequests b.maxProviderRequests with hroom | hfull
      · have hlands : ∀ id, (Point.invoking (V := V) p index attempt rest id).Lands request
            (request.retriesOf p - attempt + request.left rest)
            (2 * (request.retriesOf p - attempt) + request.stepsLeft rest + 2) := fun id =>
          ⟨fun _ h => (nomatch h), hattempt, le_refl _, le_refl _, fun _ _ _ h => nomatch h⟩
        refine .reserve hroom rfl settled_reserve budget_reserve (by rw [call_reserve hroom])
          (by rw [call_reserve hroom]) (by rw [call_reserve hroom]; rfl) ?_ ?_
          (by rw [call_reserve hroom]; exact hlands _)
        · simp only [Point.remaining]
          omega
        · simp only [Point.rank]
          omega
      · refine .quiet rfl settled_reserve (.inl ?_) ?_ (leads_reserve hfull)
        · rw [budget_reserve, BudgetManager.tryReserve_of_full hfull]
        · simp only [Point.rank]
          omega
    | _ => cases h
  | answered turn stored =>
    cases point with
    | invoking p index attempt rest id =>
      cases h
      have hescapes : ¬ Escapes _ turn := fun hescapes => by
        obtain ⟨t, hjob, hcontained⟩ := escapes_iff.mp hescapes
        exact hcontained (hspares t hjob)
      obtain ⟨hsettled, hbudget, hleads⟩ := answer_spec hescapes
      exact .settle rfl hsettled hbudget (Nat.lt_succ_self _) hleads
    | _ => cases h
  | closed raises =>
    cases hspares
    cases point with
    | closing result =>
      cases h
      exact .quiet rfl rfl (.inl rfl) Nat.one_pos ⟨rfl, rfl, rfl, fun _ h => (nomatch h), trivial,
        Nat.zero_le _, le_refl _, fun _ _ _ hr hv => hpassed _ _ _ hr hv⟩
    | _ => cases h

end Call

def Call.held (c : Call P V) : Option ℕ := c.point.held

def Call.invocations (c : Call P V) : ℕ := c.reservations.length

def Request.stepLimit (r : Request P V) : ℕ := r.stepsLeft r.available + 2

/-- A call within its bounds, whose reservations are settled but for the one it holds. -/
structure Call.Sound (settled : List ℕ) (c : Call P V) : Prop where
  unraised : ∀ e, c.point ≠ .raised e
  within : c.point.Within c.request
  requests : c.reservations.length + c.point.remaining c.request ≤ c.request.requestLimit
  brief : c.steps + c.point.rank c.request ≤ c.request.stepLimit
  passed : ∀ result value metadata, c.point.result = some result →
    result.value = some (value, metadata) → c.request.job.Passed c.request.contextId value
  settled : ∀ id ∈ c.reservations, id ∈ settled ∨ c.point.held = some id

namespace Routing

/-- The reservations that the calls hold are the open ones. -/
structure Inv (maxProviderRequests : ℕ) (s : Routing P V) : Prop where
  limit : s.budget.maxProviderRequests = maxProviderRequests
  ledger : s.budget.Ledger s.settled
  held : (s.calls.filterMap Call.held).Perm s.budget.openIds
  reserved : (s.calls.map Call.invocations).sum = s.budget.reservedProviderRequests
  sound : ∀ c ∈ s.calls, c.Sound s.settled

variable {s s' : Routing P V} {maxProviderRequests : ℕ}

theorem inv_newRouting (maxProviderRequests : ℕ) :
    (newRouting maxProviderRequests : Routing P V).Inv maxProviderRequests where
  limit := rfl
  ledger := BudgetManager.ledger_new maxProviderRequests
  held := .refl _
  reserved := rfl
  sound := fun _ hc => nomatch hc

theorem sound_new (request : Request P V) (settled : List ℕ) : (Call.new request).Sound settled where
  unraised := fun _ h => nomatch h
  within := trivial
  requests := (Nat.zero_add _).le
  brief := (Nat.zero_add _).le
  passed := fun _ _ _ h => nomatch h
  settled := fun _ h => nomatch h

variable {settled' : List ℕ} {c' : Call P V}

theorem sound_mono {settled : List ℕ} (h : c.Sound settled) (hsub : settled ⊆ settled') :
    c.Sound settled' :=
  { h with settled := fun id hid => (h.settled id hid).imp_left fun hs => hsub hs }

/-- A call that goes on without a reservation is sound when what it held is settled. -/
theorem sound_leads {settled : List ℕ} (h : c.Sound settled)
    (hsub : settled ⊆ settled') (hheld : ∀ id, c.point.held = some id → id ∈ settled')
    (hk : k < c.point.rank c.request)
    (leads : c.Leads (c.point.remaining c.request) k c') :
    (c.stepped c').Sound settled' where
  unraised := leads.lands.unraised
  within := leads.request ▸ leads.lands.within
  requests := by
    have hrequests := h.requests
    have hremaining := leads.lands.remaining
    dsimp only [Call.stepped]
    rw [leads.request, leads.reservations]
    omega
  brief := by
    have hbrief := h.brief
    have hrank := leads.lands.rank
    dsimp only [Call.stepped]
    rw [leads.request]
    omega
  passed := leads.request ▸ leads.lands.passed
  settled := fun id hid => by
    rcases h.settled id (leads.reservations ▸ hid) with hs | hs
    · exact .inl (hsub hs)
    · exact .inl (hheld id hs)

theorem sound_reserved {settled : List ℕ} (h : c.Sound settled)
    (hheld : c.point.held = none) (hrequest : c'.request = c.request)
    (hreservations : c'.reservations = c.reservations ++ [id]) (hid : c'.point.held = some id)
    (hn : n < c.point.remaining c.request) (hk : k < c.point.rank c.request)
    (lands : c'.point.Lands c.request n k) : (c.stepped c').Sound settled where
  unraised := lands.unraised
  within := hrequest ▸ lands.within
  requests := by
    have hrequests := h.requests
    have hremaining := lands.remaining
    dsimp only [Call.stepped]
    rw [hrequest, hreservations, List.length_append, List.length_singleton]
    omega
  brief := by
    have hbrief := h.brief
    have hrank := lands.rank
    dsimp only [Call.stepped]
    rw [hrequest]
    omega
  passed := hrequest ▸ lands.passed
  settled := fun id' hid' => by
    rcases List.mem_append.mp (hreservations ▸ hid') with hold | hnew
    · refine .inl ((h.settled id' hold).resolve_right fun hs => ?_)
      rw [hheld] at hs
      cases hs
    · rw [List.mem_singleton.mp hnew]
      exact .inr hid

theorem calls_set {i : ℕ} {c : Call P V} (hc : s.calls[i]? = some c) (c' : Call P V) : ∃ others,
    s.calls.Perm (c :: others) ∧ (s.calls.set i c').Perm (c' :: others) := by
  obtain ⟨hi, hget⟩ := List.getElem?_eq_some_iff.mp hc
  exact ⟨s.calls.eraseIdx i, hget ▸ (List.getElem_cons_eraseIdx_perm hi).symm,
    List.set_perm_cons_eraseIdx hi c'⟩

/-- The exceptions of the step are those that its router handles. -/
def Spares (s : Routing P V) : RoutingLabel P V → Prop
  | .start _ => True
  | .act i action => ∀ c, s.calls[i]? = some c → c.Spares action

theorem Inv.step {label : RoutingLabel P V} (h : s.Inv maxProviderRequests)
    (hspares : s.Spares label) (hstep : s.step label = some s') : s'.Inv maxProviderRequests := by
  cases label with
  | start request =>
    cases hstep
    exact {
      limit := h.limit
      ledger := h.ledger
      held := by
        rw [List.filterMap_append]
        simpa [Call.new, Call.held, Point.held, List.filterMap_cons] using h.held
      reserved := by
        simpa [Call.new, Call.invocations] using h.reserved
      sound := fun c hc => by
        rcases List.mem_append.mp hc with hc | hc
        · exact h.sound c hc
        · rw [List.mem_singleton.mp hc]
          exact sound_new request s.settled }
  | act i action =>
    obtain ⟨c, hc, hstep⟩ := Option.bind_eq_some_iff.mp hstep
    obtain ⟨m, hm, hstep⟩ := Option.map_eq_some_iff.mp hstep
    have hsound := h.sound c (List.mem_of_getElem? hc)
    have hmoves := Call.moves_of_act hsound.within (hspares c hc) hsound.passed hm
    obtain ⟨others, hbefore, hafter⟩ := calls_set hc (c.stepped m.call)
    subst hstep
    have hothers : ∀ x ∈ others, x.Sound s.settled := fun x hx =>
      h.sound x (hbefore.mem_iff.mpr (List.mem_cons_of_mem _ hx))
    have hheld := (hbefore.filterMap Call.held).symm.trans h.held
    have hreserved := ((hbefore.map Call.invocations).sum_eq).symm.trans h.reserved
    rw [List.map_cons, List.sum_cons] at hreserved
    have hsum := (hafter.map Call.invocations).sum_eq
    rw [List.map_cons, List.sum_cons] at hsum
    cases hmoves with
    | quiet held settled budget rank leads =>
      have hnone : c.held = none := held
      rw [List.filterMap_cons_none hnone] at hheld
      have hsame : m.budget.openIds = s.budget.openIds ∧
          m.budget.reservedProviderRequests = s.budget.reservedProviderRequests := by
        rcases budget with hb | hb <;> rw [hb] <;> exact ⟨rfl, rfl⟩
      refine ⟨?_, ?_, ?_, ?_, fun x hx => ?_⟩
      · rw [← h.limit]
        rcases budget with hb | hb <;> rw [hb] <;> rfl
      · rw [settled, List.append_nil]
        rcases budget with hb | hb
        · exact hb ▸ h.ledger
        · exact hb ▸ h.ledger.cacheHit
      · refine (hafter.filterMap _).trans ?_
        have hleft : (c.stepped m.call).held = none := leads.held
        rw [List.filterMap_cons_none hleft, hsame.1]
        exact hheld
      · refine hsum.trans ?_
        rw [hsame.2, ← hreserved]
        exact congrArg (List.length · + _) leads.reservations
      · rw [settled, List.append_nil]
        rcases List.mem_cons.mp (hafter.mem_iff.mp hx) with rfl | hx
        · exact sound_leads hsound (List.Subset.refl _) (fun id hid => by simp [held] at hid)
            rank leads
        · exact hothers x hx
    | reserve room held settled budget request reservations holds remaining rank lands =>
      have hnone : c.held = none := held
      rw [List.filterMap_cons_none hnone] at hheld
      refine ⟨?_, ?_, ?_, ?_, fun x hx => ?_⟩
      · rw [budget, BudgetManager.max_tryReserve]
        exact h.limit
      · rw [settled, List.append_nil, budget]
        exact h.ledger.reserve room
      · refine (hafter.filterMap _).trans ?_
        have hnext : (c.stepped m.call).held = some s.budget.reservedProviderRequests := holds
        rw [List.filterMap_cons_some hnext, budget, BudgetManager.openIds_tryReserve room]
        exact (List.perm_append_singleton _ _).symm.trans (hheld.append_right _)
      · refine hsum.trans ?_
        have hlength : (c.stepped m.call).invocations = c.invocations + 1 :=
          (congrArg List.length reservations).trans List.length_append
        rw [budget, BudgetManager.reserved_tryReserve room, ← hreserved, hlength]
        omega
      · rw [settled, List.append_nil]
        rcases List.mem_cons.mp (hafter.mem_iff.mp hx) with rfl | hx
        · exact sound_reserved hsound held request reservations holds remaining rank lands
        · exact hothers x hx
    | settle held settled budget rank leads =>
      rename_i id k
      obtain ⟨outcome, hbudget⟩ := budget
      have hid : c.held = some id := held
      rw [List.filterMap_cons_some hid] at hheld
      have hopen : id ∈ s.budget.openIds := hheld.mem_iff.mp List.mem_cons_self
      have hsub : s.settled ⊆ s.settled ++ [id] := List.subset_append_left _ _
      refine ⟨?_, ?_, ?_, ?_, fun x hx => ?_⟩
      · rw [hbudget, BudgetManager.recordRequestResult_limits.1]
        exact h.limit
      · rw [settled, hbudget]
        exact h.ledger.record hopen
      · refine (hafter.filterMap _).trans ?_
        have hleft : (c.stepped m.call).held = none := leads.held
        rw [List.filterMap_cons_none hleft, hbudget]
        exact (hheld.trans (h.ledger.openIds_record hopen)).cons_inv
      · refine hsum.trans ?_
        rw [hbudget, BudgetManager.recordRequestResult_limits.2, ← hreserved]
        exact congrArg (List.length · + _) leads.reservations
      · rw [settled]
        rcases List.mem_cons.mp (hafter.mem_iff.mp hx) with rfl | hx
        · refine sound_leads hsound hsub (fun id' hid' => ?_) rank leads
          rw [held] at hid'
          cases hid'
          exact List.mem_append_right _ (List.mem_singleton_self id)
        · exact sound_mono (hothers x hx) hsub

/-- The providers are invoked within the budget, and within the retries of each call. -/
structure WithinBudget (maxProviderRequests : ℕ) (s : Routing P V) : Prop where
  total : (s.calls.map Call.invocations).sum ≤ maxProviderRequests
  reserved : (s.calls.map Call.invocations).sum = s.budget.reservedProviderRequests
  each : ∀ c ∈ s.calls, c.invocations ≤ c.request.requestLimit

structure Settled (s : Routing P V) : Prop where
  once : ∀ c ∈ s.calls, c.point.result.isSome → ∀ id ∈ c.reservations,
    s.settled.count id = 1 ∧ id ∉ s.budget.openIds
  sent : s.budget.reservedProviderRequests =
    s.budget.sentProviderRequests + s.calls.countP fun c => c.held.isSome
  idle : (∀ c ∈ s.calls, c.point.result.isSome) →
    s.budget.reservedProviderRequests = s.budget.sentProviderRequests ∧ s.budget.reservations = []

def nextAction (answer : Except Exc (Option P)) (turn : Except Exc (ProviderResponse P))
    (stored : Bool) : Point V → Action P
  | .opening => .opened none
  | .looking .. => .looked answer
  | .reserving .. => .reserve
  | .invoking .. => .answered turn stored
  | .closing _ | .returned _ | .raised _ => .closed none

/-- A call returns after boundedly many steps of its own, and what it returns passed the checks. -/
structure Answered (s : Routing P V) : Prop where
  unraised : ∀ c ∈ s.calls, ∀ e, c.point ≠ .raised e
  brief : ∀ c ∈ s.calls, c.steps ≤ c.request.stepLimit
  progress : ∀ i c answer turn stored, s.calls[i]? = some c → c.point.outcome = none →
    (s.step (.act i (nextAction answer turn stored c.point))).isSome
  passed : ∀ c ∈ s.calls, ∀ result value metadata, c.point.result = some result →
    result.value = some (value, metadata) → c.request.job.Passed c.request.contextId value

/-- The calls that `run_selected_entities` makes for a task. -/
def EntityCall (str : Dumped → String) (taskType : String) (dump : V → Dumped) (c : Call P V) :
    Prop :=
  ∃ t : TextCall P V, c.request.job = .text t ∧ t.identityValidator =
    some fun value => .ok (identityMatches str taskType c.request.contextId (dump value))

/-- Once the calls of a task are done, every value that one of them returned is an explanation
of the task. -/
def Collects (s : Routing P V) : Prop :=
  ∀ (str : Dumped → String) (taskType : String) (dump : V → Dumped) (jobs : List (Call P V)),
    (∀ c ∈ jobs, c ∈ s.calls ∧ c.point.outcome.isSome ∧ EntityCall str taskType dump c) →
    ∃ results, executorMap jobs = .ok results ∧
      results.map Prod.fst = jobs.map (fun c => c.request.contextId) ∧
      ∀ c ∈ jobs, ∀ result explanation, c.point = .returned result →
        result.value = some explanation →
        explanation ∈ (collectResults str taskType dump results).1

theorem Inv.withinBudget (h : s.Inv maxProviderRequests) : s.WithinBudget maxProviderRequests where
  total := h.limit ▸ h.reserved ▸ h.ledger.within
  reserved := h.reserved
  each := fun c hc => (Nat.le_add_right ..).trans (h.sound c hc).requests

theorem Inv.settled (h : s.Inv maxProviderRequests) : s.Settled := by
  have hnodup := List.nodup_append.mp h.ledger.nodup_issued
  have hheld : ∀ c : Call P V, c.point.result.isSome → c.held = none := by
    rintro ⟨request, point, warnings, attempts, reservations, steps⟩ hresult
    cases point <;> first | rfl | cases hresult
  have hsent : s.budget.reservedProviderRequests =
      s.budget.sentProviderRequests + s.calls.countP fun c => c.held.isSome := by
    rw [h.ledger.reserved_eq, ← h.held.length_eq, List.length_filterMap_eq_countP]
  refine ⟨fun c hc hresult id hid => ?_, hsent, fun hall => ?_⟩
  · have hsettled := ((h.sound c hc).settled id hid).resolve_right fun hs => by
      have hnone := hheld c hresult
      rw [Call.held, hs] at hnone
      cases hnone
    exact ⟨List.nodup_iff_count_eq_one.mp hnodup.1 id hsettled,
      fun hopen => hnodup.2.2 id hsettled id hopen rfl⟩
  · have hnone : s.calls.filterMap Call.held = [] :=
      List.filterMap_eq_nil_iff.mpr fun c hc => hheld c (hall c hc)
    have hopen : s.budget.openIds = [] := by
      have hperm := h.held
      rw [hnone] at hperm
      exact hperm.symm.eq_nil
    refine ⟨?_, List.map_eq_nil_iff.mp hopen⟩
    rw [h.ledger.reserved_eq, hopen]
    rfl

theorem Inv.answered (h : s.Inv maxProviderRequests) : s.Answered where
  unraised := fun c hc => (h.sound c hc).unraised
  brief := fun c hc => (Nat.le_add_right ..).trans (h.sound c hc).brief
  progress := fun i c answer turn stored hc hunfinished => by
    have hact : (c.act s.budget (nextAction answer turn stored c.point)).isSome := by
      obtain ⟨request, point, warnings, attempts, reservations, steps⟩ := c
      cases point <;> first | rfl | cases hunfinished
    simpa [Routing.step, hc] using hact
  passed := fun c hc => (h.sound c hc).passed

theorem mem_collectResults {str : Dumped → String} {taskType contextId : String} {dump : V → Dumped}
    {results : List (String × RouterResult V)} {explanation : V × CallMetadata}
    (hmem : (contextId, result) ∈ results) (hvalue : result.value = some explanation)
    (hmatch : identityMatches str taskType contextId (dump explanation.1) = true) :
    explanation ∈ (collectResults str taskType dump results).1 := by
  induction results with
  | nil => cases hmem
  | cons head rest ih =>
    obtain ⟨contextId', result'⟩ := head
    rcases List.mem_cons.mp hmem with heq | hmem
    · cases heq
      simp [collectResults, hvalue, hmatch]
    · have hrest := ih hmem
      simp only [collectResults]
      split
      · exact hrest
      · split
        · exact List.mem_cons_of_mem _ hrest
        · exact hrest

/-- When no call raised, `executor.map` gives the result of each. -/
theorem executorMap_ok {jobs : List (Call P V)}
    (h : ∀ c ∈ jobs, ∃ result, c.point = .returned result) :
    ∃ results, executorMap jobs = .ok results ∧
      results.map Prod.fst = jobs.map (fun c => c.request.contextId) ∧
      ∀ c ∈ jobs, ∀ result, c.point = .returned result →
        (c.request.contextId, result) ∈ results := by
  induction jobs with
  | nil => exact ⟨[], rfl, rfl, fun _ hc => nomatch hc⟩
  | cons c jobs ih =>
    obtain ⟨results, hok, hids, hmem⟩ := ih fun c hc => h c (List.mem_cons_of_mem _ hc)
    obtain ⟨result, hresult⟩ := h c List.mem_cons_self
    refine ⟨(c.request.contextId, result) :: results, ?_, ?_, fun c' hc' result' hr => ?_⟩
    · simp [executorMap, hresult, Point.outcome, hok, Except.map]
    · rw [List.map_cons, List.map_cons, hids]
    · rcases List.mem_cons.mp hc' with rfl | hc'
      · rw [hresult] at hr
        cases hr
        exact List.mem_cons_self
      · exact List.mem_cons_of_mem _ (hmem c' hc' result' hr)

theorem Inv.collects (h : s.Inv maxProviderRequests) : s.Collects := by
  intro str taskType dump jobs hjobs
  have hreturned : ∀ c ∈ jobs, ∃ result, c.point = .returned result := fun c hc => by
    obtain ⟨hcall, hfinished, _⟩ := hjobs c hc
    have hunraised := (h.sound c hcall).unraised
    cases hpoint : c.point with
    | returned result => exact ⟨result, rfl⟩
    | raised e => exact absurd hpoint (hunraised e)
    | _ => rw [hpoint] at hfinished; cases hfinished
  obtain ⟨results, hok, hids, hmem⟩ := executorMap_ok hreturned
  refine ⟨results, hok, hids, fun c hc result explanation hpoint hvalue => ?_⟩
  obtain ⟨hcall, _, t, hjob, hidentity⟩ := hjobs c hc
  have hpassed := (h.sound c hcall).passed result explanation.1 explanation.2
    (by rw [hpoint]; rfl) hvalue
  rw [hjob] at hpassed
  have hmatch : (Except.ok (identityMatches str taskType c.request.contextId
      (dump explanation.1)) : Except Exc Bool) = .ok true := hpassed.identity _ hidentity
  exact mem_collectResults (hmem c hc result hpoint) hvalue (Except.ok.inj hmatch)

/-- In a run in which the text router meets no exception but those of its `except` clauses,
routing keeps within the budget, settles each reservation once and loses no result. -/
theorem provider_routing_sound {labels : List (RoutingLabel P V)}
    (hrun : routing.Run Spares (newRouting maxProviderRequests) labels s) :
    s.WithinBudget maxProviderRequests ∧ s.Settled ∧ s.Answered ∧ s.Collects := by
  have h : s.Inv maxProviderRequests :=
    hrun.invariant _ (fun _ _ _ hinv hspares hstep => hinv.step hspares hstep)
      (inv_newRouting maxProviderRequests)
  exact ⟨h.withinBudget, h.settled, h.answered, h.collects⟩

section Example

def fileExplain (path : String) : Request String String where
  job := .text {
    taskType := "file_explain"
    modelValidate := some
    dump := fun value => .dict [("file_path", .text value)]
    str := fun _ => ""
    evidenceCatalog := []
    identityValidator := some fun value => .ok (identityMatches (fun _ => "") "file_explain" path
      (.dict [("file_path", .text value)])) }
  contextId := path
  providers := [⟨"deepseek", "deepseek-chat", true, some 0⟩]
  maxRetries := 1
  promptVersion := "1.1"
  digest := "0000000000000000000000000000000000000000000000000000000000000000"

/-- A call of `generate_structured` with the answer of its provider. -/
def explains (i : ℕ) (path : String) (turn : Except Exc (ProviderResponse String)) :
    List (RoutingLabel String String) :=
  [.start (fileExplain path), .act i (.opened none), .act i (.looked (.ok none)),
    .act i .reserve, .act i (.answered turn true)]

def validAnswer (path : String) : Except Exc (ProviderResponse String) :=
  .ok { data := path, latencyMs := 12 }

/-- The entity of a valid answer is explained. -/
theorem provider_routing_sound_file : ∃ s : Routing String String,
    routing.Run Spares (newRouting 4) (explains 0 "a.py" (validAnswer "a.py")) s ∧
      s.WithinBudget 4 ∧ s.Settled ∧ s.Answered ∧ s.Collects := by
  have hrun : ∃ s : Routing String String,
      routing.Run Spares (newRouting 4) (explains 0 "a.py" (validAnswer "a.py")) s := by
    refine ⟨_, .cons trivial rfl (.cons ?_ rfl (.cons ?_ rfl (.cons ?_ rfl (.cons ?_ rfl
      (.nil _)))))⟩
    · exact fun _ _ => rfl
    · exact fun _ _ => trivial
    · exact fun _ _ => trivial
    · rintro c hc t ht value hvalue -
      cases hc
      cases ht
      refine ⟨fun validator hv e he => ?_, fun _ validator hv => nomatch hv⟩
      cases hv
      cases he
  obtain ⟨s, hrun⟩ := hrun
  exact ⟨s, hrun, provider_routing_sound hrun⟩

/-- The provider of the second entity raises what no `except` clause of the text router names.
Its reservation stays open, and the explanation of the first entity is lost with it. -/
theorem failing_entity_discards_results : ∃ s : Routing String String,
    routing.Run Machine.Free (newRouting 4)
      (explains 0 "a.py" (validAnswer "a.py") ++ [.act 0 (.closed none)] ++
        explains 1 "b.py" (.error (.other "AttributeError"))) s ∧
      s.budget.reservedProviderRequests = 2 ∧ s.budget.sentProviderRequests = 1 ∧
      executorMap s.calls = .error (.other "AttributeError") ∧
      ∃ c ∈ s.calls, ∃ result explanation, c.point = .returned result ∧
        result.value = some explanation := by
  refine ⟨_, .cons trivial rfl (.cons trivial rfl (.cons trivial rfl (.cons trivial rfl
    (.cons trivial rfl (.cons trivial rfl (.cons trivial rfl (.cons trivial rfl
      (.cons trivial rfl (.cons trivial rfl (.cons trivial rfl (.nil _))))))))))), rfl, rfl, rfl, ?_⟩
  exact ⟨_, List.mem_cons_self, _, _, rfl, rfl⟩

end Example

end Routing

end CodeResearch.Llm
