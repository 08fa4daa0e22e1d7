import Mathlib.Data.List.Range
import Mathlib.Data.List.Perm.Basic

/-!
# The budget of provider requests

`BudgetManager` counts what the callers of one task reserve and send. Each of its methods
holds the lock, so that a method is one step of whoever calls it.
-/

namespace CodeResearch.Llm

/-- `ReservationResult`. -/
structure ReservationResult where
  allowed : Bool
  reserved : ℕ := 0
  reservationId : Option ℕ := none
  reason : Option String := none
  deriving DecidableEq

/-- `BudgetManager`, its counters of provider requests. A `uuid4` text is the number of the
reservations made before it. -/
structure BudgetManager where
  maxProviderRequests : ℕ
  reservedProviderRequests : ℕ := 0
  sentProviderRequests : ℕ := 0
  successfulProviderRequests : ℕ := 0
  cacheHits : ℕ := 0
  retries : ℕ := 0
  fallbacks : ℕ := 0
  reservations : List (ℕ × String) := []
  deriving DecidableEq

namespace BudgetManager

/-- `BudgetManager.try_reserve_provider_request`. -/
def tryReserveProviderRequest (b : BudgetManager) (provider taskType contextId : String)
    (retry fallback : Bool) : BudgetManager × ReservationResult :=
  if b.maxProviderRequests ≤ b.reservedProviderRequests then
    (b, { allowed := false, reason := some "provider_request_budget_exceeded" })
  else
    let reservationId := b.reservedProviderRequests
    ({ b with
        reservedProviderRequests := b.reservedProviderRequests + 1
        reservations := b.reservations ++
          [(reservationId, provider ++ ":" ++ taskType ++ ":" ++ contextId)]
        retries := if retry then b.retries + 1 else b.retries
        fallbacks := if fallback then b.fallbacks + 1 else b.fallbacks },
      { allowed := true, reserved := 1, reservationId := some reservationId })

/-- The keys of `_reservations`. -/
def openIds (b : BudgetManager) : List ℕ := b.reservations.map Prod.fst

/-- `BudgetManager.record_request_result`. -/
def recordRequestResult (b : BudgetManager) (reservationId : Option ℕ) (outcome : String) :
    BudgetManager :=
  match reservationId with
  | none => b
  | some id =>
    if id ∉ b.openIds then b
    else
      { b with
        reservations := b.reservations.filter fun r => r.1 ≠ id
        sentProviderRequests := b.sentProviderRequests + 1
        successfulProviderRequests :=
          if outcome = "success" then b.successfulProviderRequests + 1
          else b.successfulProviderRequests }

/-- `BudgetManager.record_cache_hit`. -/
def recordCacheHit (b : BudgetManager) : BudgetManager := { b with cacheHits := b.cacheHits + 1 }

/-- The ids handed out are the settled ones and the open ones, each once. -/
structure Ledger (b : BudgetManager) (settled : List ℕ) : Prop where
  issued : (settled ++ b.openIds).Perm (List.range b.reservedProviderRequests)
  sent : b.sentProviderRequests = settled.length
  within : b.reservedProviderRequests ≤ b.maxProviderRequests

variable {b b' : BudgetManager} {settled : List ℕ} {provider taskType contextId outcome : String}
  {retry fallback : Bool} {id : ℕ}

theorem ledger_new (maxProviderRequests : ℕ) :
    Ledger { maxProviderRequests } [] := ⟨.refl _, rfl, Nat.zero_le _⟩

theorem tryReserve_of_full (h : b.maxProviderRequests ≤ b.reservedProviderRequests) :
    (b.tryReserveProviderRequest provider taskType contextId retry fallback).1 = b := by
  unfold tryReserveProviderRequest
  rw [if_pos h]

section Reserved

variable (h : b.reservedProviderRequests < b.maxProviderRequests)
include h

theorem openIds_tryReserve :
    (b.tryReserveProviderRequest provider taskType contextId retry fallback).1.openIds =
      b.openIds ++ [b.reservedProviderRequests] := by
  unfold tryReserveProviderRequest
  rw [if_neg (Nat.not_le.mpr h)]
  simp [openIds]

theorem reserved_tryReserve :
    (b.tryReserveProviderRequest provider taskType contextId retry
      fallback).1.reservedProviderRequests = b.reservedProviderRequests + 1 := by
  unfold tryReserveProviderRequest
  rw [if_neg (Nat.not_le.mpr h)]

theorem sent_tryReserve :
    (b.tryReserveProviderRequest provider taskType contextId retry
      fallback).1.sentProviderRequests = b.sentProviderRequests := by
  unfold tryReserveProviderRequest
  rw [if_neg (Nat.not_le.mpr h)]

end Reserved

theorem max_tryReserve :
    (b.tryReserveProviderRequest provider taskType contextId retry
      fallback).1.maxProviderRequests = b.maxProviderRequests := by
  unfold tryReserveProviderRequest
  split <;> rfl

theorem Ledger.reserve (hl : Ledger b settled)
    (h : b.reservedProviderRequests < b.maxProviderRequests) :
    Ledger (b.tryReserveProviderRequest provider taskType contextId retry fallback).1 settled where
  issued := by
    rw [openIds_tryReserve h, reserved_tryReserve h, List.range_succ, ← List.append_assoc]
    exact hl.issued.append_right _
  sent := (sent_tryReserve h).trans hl.sent
  within := by
    rw [reserved_tryReserve h, max_tryReserve]
    exact h

theorem recordRequestResult_limits {reservationId : Option ℕ} :
    let b' := b.recordRequestResult reservationId outcome
    b'.maxProviderRequests = b.maxProviderRequests ∧
      b'.reservedProviderRequests = b.reservedProviderRequests := by
  unfold recordRequestResult
  split
  · exact ⟨rfl, rfl⟩
  · split <;> exact ⟨rfl, rfl⟩

theorem recordRequestResult_again {outcome' : String} :
    (b.recordRequestResult (some id) outcome).recordRequestResult (some id) outcome' =
      b.recordRequestResult (some id) outcome := by
  have hclosed : id ∉ (b.recordRequestResult (some id) outcome).openIds := by
    unfold recordRequestResult
    dsimp only
    split
    · assumption
    · simp [openIds]
  rw [recordRequestResult, if_pos hclosed]

theorem Ledger.nodup_issued (hl : Ledger b settled) : (settled ++ b.openIds).Nodup :=
  hl.issued.nodup_iff.mpr List.nodup_range

section Recorded

variable (hl : Ledger b settled) (hid : id ∈ b.openIds)
include hl hid

theorem Ledger.openIds_record :
    b.openIds.Perm (id :: (b.recordRequestResult (some id) outcome).openIds) := by
  have hnodup : b.openIds.Nodup := (List.nodup_append.mp hl.nodup_issued).2.1
  have herased : (b.recordRequestResult (some id) outcome).openIds = b.openIds.erase id := by
    rw [hnodup.erase_eq_filter, recordRequestResult, if_neg (not_not.mpr hid), openIds, openIds,
      List.filter_map]
    refine congrArg _ (List.filter_congr fun r _ => ?_)
    simp [bne, Function.comp, beq_eq_decide]
  rw [herased]
  exact List.perm_cons_erase hid

theorem Ledger.record :
    Ledger (b.recordRequestResult (some id) outcome) (settled ++ [id]) where
  issued := by
    rw [recordRequestResult_limits.2, List.append_assoc]
    exact ((hl.openIds_record hid).symm.append_left settled).trans hl.issued
  sent := by
    rw [recordRequestResult, if_neg (not_not.mpr hid), List.length_append, List.length_singleton,
      ← hl.sent]
  within := by
    rw [recordRequestResult_limits.1, recordRequestResult_limits.2]
    exact hl.within

end Recorded

theorem Ledger.cacheHit (hl : Ledger b settled) : Ledger b.recordCacheHit settled :=
  ⟨hl.issued, hl.sent, hl.within⟩

theorem Ledger.reserved_eq (hl : Ledger b settled) :
    b.reservedProviderRequests = b.sentProviderRequests + b.openIds.length := by
  have hlength := hl.issued.length_eq
  rw [List.length_append, List.length_range] at hlength
  rw [hl.sent, hlength]

end BudgetManager

end CodeResearch.Llm
