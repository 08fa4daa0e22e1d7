import CodeResearch.Research.Coordinator

/-!
# Leases on a research run

Any number of owners acquire, renew and release the lease of one run, and publish
its status. The lease is fenced by a token that is never handed out twice; a
publication is fenced only by the status that its owner read before.
-/
namespace CodeResearch.Research

/-- What a coordinator writes to the row of a run. -/
inductive Publication
  /-- `_publish_state` -/
  | state (s : ResearchState)
  /-- `_publish_terminal` -/
  | terminal (s : ResearchState)
  /-- a run that was cancelled before it started -/
  | cancelled
  /-- the `except Exception` handler -/
  | failure (fault : RunFault)
  /-- a lost lease or a shutdown -/
  | interrupted (reason : String)
  deriving DecidableEq

/-- The row after the write of a publication that read the status `seen`. -/
def Publication.write (seen : RunStatus) (row : RunRow) : Publication → RunRow
  | state s => if s.status.Terminal ∨ seen = .cancelling then row else publishState s seen row
  | terminal s => (publishTerminal s seen row).toOption.getD row
  | cancelled => (updateStatus row .cancelled seen {}).toOption.getD row
  | failure fault => if seen.Terminal then row else publishFailure fault seen row
  | interrupted reason => if seen.Terminal then row else publishInterrupted seen row reason

/-- A lease in the hands of a coordinator, with the publication that it has begun. -/
structure Holder where
  lease : RunLease
  pending : Option (Publication × RunStatus) := none
  deriving DecidableEq

/-- A run with its leases; the token of a lease counts the acquisitions before it. -/
structure LeasedRun where
  row : RunRow
  lease : Option LeaseRow := none
  now : Instant := 0
  holders : List Holder := []
  deriving DecidableEq

inductive LeaseEvent
  | tick (elapsed : ℕ)
  | acquire (owner : String) (ttl : ℕ)
  | renew (k : ℕ) (ttl : ℕ)
  | release (k : ℕ)
  | read (k : ℕ) (publication : Publication)
  | write (k : ℕ)
  | cancel
  | resume
  deriving DecidableEq

namespace LeasedRun

variable (c : LeasedRun)

/-- `acquire_lease` with the next token. -/
def acquire (owner : String) (ttl : ℕ) : LeasedRun :=
  match acquireLease c.lease c.now owner c.holders.length ttl with
  | none => c
  | some (row, lease) => { c with lease := some row, holders := c.holders ++ [{ lease }] }

/-- `renew_lease`. -/
def renew (k : ℕ) (holder : Holder) (ttl : ℕ) : LeasedRun :=
  match renewLease c.lease c.now holder.lease ttl with
  | none => c
  | some (row, lease) =>
    { c with lease := some row, holders := c.holders.set k { holder with lease } }

def write (k : ℕ) (holder : Holder) : Option LeasedRun :=
  holder.pending.map fun (publication, seen) =>
    { c with
      row := publication.write seen c.row
      holders := c.holders.set k { holder with pending := none } }

def step : LeaseEvent → Option LeasedRun
  | .tick elapsed => some { c with now := c.now + elapsed }
  | .acquire owner ttl => some (c.acquire owner ttl)
  | .renew k ttl => c.holders[k]?.map fun holder => c.renew k holder ttl
  | .release k => c.holders[k]?.map fun holder =>
      { c with lease := releaseLease c.lease holder.lease }
  | .read k publication => c.holders[k]?.map fun holder =>
      { c with
        holders := c.holders.set k { holder with pending := some (publication, c.row.status) } }
  | .write k => c.holders[k]?.bind fun holder => c.write k holder
  | .cancel => some { c with row := requestCancel c.row }
  | .resume => some { c with row := (markResumed c.row).toOption.getD c.row }

def machine : Machine LeasedRun LeaseEvent := ⟨step⟩

end LeasedRun

/-- The holder's token is no longer the stored one. -/
def LeasedRun.Stale (c : LeasedRun) (holder : Holder) : Prop := ¬ holder.lease.Holds c.lease

instance (c : LeasedRun) (holder : Holder) : Decidable (c.Stale holder) :=
  inferInstanceAs (Decidable (¬ _))

def LeasedRun.Overtakes (c : LeasedRun) : LeaseEvent → Prop
  | .write k => ∀ holder ∈ c.holders[k]?, c.Stale holder → ∀ p ∈ holder.pending,
      c.row.status ≠ p.2 ∨ c.row.status.Terminal
  | _ => True

/-- Leases fence: one token matches, a lease passes on when it expired or was
released, and stale holders change nothing. -/
structure LeasedRun.Fenced (c : LeasedRun) (e : LeaseEvent) (d : LeasedRun) : Prop where
  unique : ∀ (k k' : ℕ) (holder holder' : Holder), c.holders[k]? = some holder →
    c.holders[k']? = some holder' → holder.lease.Holds c.lease → holder'.lease.Holds c.lease → k = k'
  passes : ∀ row row', c.lease = some row → d.lease = some row' →
    row'.leaseOwner ≠ row.leaseOwner → row.leaseExpiresAt ≤ c.now
  released : ∀ row, c.lease = some row → d.lease = none →
    ∃ (k : ℕ) (holder : Holder), e = .release k ∧ c.holders[k]? = some holder ∧ holder.lease.Holds c.lease
  powerless : ∀ (k : ℕ) (holder : Holder), e = .write k → c.holders[k]? = some holder → c.Stale holder →
    d.row = c.row

def LeasesFence (row : RunRow) (G : LeasedRun → LeaseEvent → Prop) : Prop :=
  ∀ events c e d, LeasedRun.machine.Run G ⟨row, none, 0, []⟩ events c → G c e →
    c.step e = some d → c.Fenced e d

def LeasedRun.Tokens (c : LeasedRun) : Prop :=
  ∀ (k : ℕ) (holder : Holder), c.holders[k]? = some holder → holder.lease.token = k

section Steps

variable {c d : LeasedRun} {e : LeaseEvent} {k : ℕ} {holder : Holder} {lease : RunLease}
  {stored : Option LeaseRow}

variable {row : LeaseRow}

theorem acquireLease_ok {now token ttl : ℕ} {owner : String}
    (h : acquireLease stored now owner token ttl = some (row, lease)) :
    (∀ old, stored = some old → old.leaseExpiresAt ≤ now ∨ old.leaseOwner = owner) ∧
      row.leaseOwner = owner ∧ lease.token = token := by
  unfold acquireLease at h
  split_ifs at h with hheld
  simp only [Option.some.injEq, Prod.mk.injEq] at h
  obtain ⟨rfl, rfl⟩ := h
  refine ⟨fun old hold => ?_, rfl, rfl⟩
  by_contra hnot
  rw [not_or, Nat.not_le] at hnot
  exact hheld ⟨old, hold, hnot⟩

theorem renewLease_ok {now ttl : ℕ} {lease' : RunLease}
    (h : renewLease stored now lease ttl = some (row, lease')) :
    ∃ old, stored = some old ∧ row.leaseOwner = old.leaseOwner ∧ lease'.token = lease.token := by
  cases stored with
  | none => cases h
  | some old =>
    unfold renewLease at h
    dsimp only at h
    split_ifs at h
    simp only [Option.some.injEq, Prod.mk.injEq] at h
    obtain ⟨rfl, rfl⟩ := h
    exact ⟨old, rfl, rfl, rfl⟩

theorem releaseLease_some {row row' : LeaseRow} (hstored : stored = some row)
    (h : releaseLease stored lease = some row') : row' = row := by
  rw [hstored, releaseLease, Option.filter_some] at h
  split_ifs at h
  cases h
  rfl

theorem releaseLease_none (hstored : stored = some row) (h : releaseLease stored lease = none) :
    lease.Holds stored := by
  rw [hstored, releaseLease, Option.filter_some] at h
  split_ifs at h with hmatches
  exact ⟨row, hstored, by simpa using hmatches⟩

theorem LeasedRun.Tokens.set (h : c.Tokens) (hk : c.holders[k]? = some holder) {holder' : Holder}
    (htoken : holder'.lease.token = holder.lease.token) :
    ∀ (j : ℕ) (x : Holder), (c.holders.set k holder')[j]? = some x → x.lease.token = j := by
  intro j x hx
  by_cases hj : k = j
  · subst hj
    rw [List.getElem?_set_self (List.getElem?_eq_some_iff.mp hk).1] at hx
    cases hx
    exact htoken.trans (h k holder hk)
  · rw [List.getElem?_set_ne hj] at hx
    exact h j x hx

theorem tokens_start (row : RunRow) : (LeasedRun.mk row none 0 []).Tokens := by
  intro k holder hk
  cases hk

theorem acquire_cases (c : LeasedRun) (owner : String) (ttl : ℕ) :
    c.acquire owner ttl = c ∨ ∃ row lease,
      acquireLease c.lease c.now owner c.holders.length ttl = some (row, lease) ∧
        c.acquire owner ttl =
          { c with lease := some row, holders := c.holders ++ [{ lease := lease }] } := by
  unfold LeasedRun.acquire
  split
  · exact .inl rfl
  · rename_i row lease hacquire
    exact .inr ⟨row, lease, hacquire, rfl⟩

theorem renew_cases (c : LeasedRun) (k : ℕ) (holder : Holder) (ttl : ℕ) :
    c.renew k holder ttl = c ∨ ∃ row lease,
      renewLease c.lease c.now holder.lease ttl = some (row, lease) ∧
        c.renew k holder ttl = { c with
          lease := some row
          holders := c.holders.set k { holder with lease := lease } } := by
  unfold LeasedRun.renew
  split
  · exact .inl rfl
  · rename_i row lease hrenew
    exact .inr ⟨row, lease, hrenew, rfl⟩

theorem tokens_acquire (h : c.Tokens) (owner : String) (ttl : ℕ) : (c.acquire owner ttl).Tokens := by
  rcases acquire_cases c owner ttl with hsame | ⟨row, lease, hacquire, hnew⟩
  · rwa [hsame]
  · obtain ⟨_, _, htoken⟩ := acquireLease_ok hacquire
    rw [hnew]
    intro k holder hk
    rcases Nat.lt_trichotomy k c.holders.length with hlt | rfl | hgt
    · rw [List.getElem?_append_left hlt] at hk
      exact h k holder hk
    · rw [List.getElem?_concat_length] at hk
      cases hk
      exact htoken
    · rw [List.getElem?_eq_none (by rw [List.length_append]; exact hgt)] at hk
      cases hk

theorem tokens_renew (h : c.Tokens) (hk : c.holders[k]? = some holder) (ttl : ℕ) :
    (c.renew k holder ttl).Tokens := by
  rcases renew_cases c k holder ttl with hsame | ⟨row, lease, hrenew, hnew⟩
  · rwa [hsame]
  · obtain ⟨_, _, _, htoken⟩ := renewLease_ok hrenew
    rw [hnew]
    exact h.set hk htoken

theorem tokens_step (h : c.Tokens) (hstep : c.step e = some d) : d.Tokens := by
  cases e with
  | tick | cancel | resume =>
    cases hstep
    exact h
  | acquire owner ttl =>
    cases hstep
    exact tokens_acquire h owner ttl
  | renew k ttl =>
    obtain ⟨holder, hk, rfl⟩ := Option.map_eq_some_iff.mp hstep
    exact tokens_renew h hk ttl
  | release k =>
    obtain ⟨holder, _, rfl⟩ := Option.map_eq_some_iff.mp hstep
    exact h
  | read k publication =>
    obtain ⟨holder, hk, rfl⟩ := Option.map_eq_some_iff.mp hstep
    exact h.set hk rfl
  | write k =>
    obtain ⟨holder, hk, hwrite⟩ := Option.bind_eq_some_iff.mp hstep
    obtain ⟨p, _, rfl⟩ := Option.map_eq_some_iff.mp hwrite
    exact h.set hk rfl

theorem LeasedRun.Tokens.unique (h : c.Tokens) {k' : ℕ} {holder' : Holder}
    (hk : c.holders[k]? = some holder) (hk' : c.holders[k']? = some holder')
    (hholds : holder.lease.Holds c.lease) (hholds' : holder'.lease.Holds c.lease) : k = k' := by
  obtain ⟨row, hrow, _, htoken⟩ := hholds
  obtain ⟨row', hrow', _, htoken'⟩ := hholds'
  cases hrow.symm.trans hrow'
  rw [← h k holder hk, ← h k' holder' hk', ← htoken, ← htoken']

/-- A publication that was overtaken leaves the row alone. -/
theorem Publication.write_overtaken {publication : Publication} {seen : RunStatus} {row : RunRow}
    (h : row.status ≠ seen ∨ row.status.Terminal) : publication.write seen row = row := by
  cases publication with
  | state | failure | interrupted =>
    unfold Publication.write
    dsimp only
    split_ifs
    · rfl
    · exact updateStatus_overtaken h
  | terminal | cancelled => exact updateStatus_overtaken h

/-- The lease after a step: it is handed on when it expired, or released. -/
theorem lease_step (hstep : c.step e = some d) :
    (∀ row row', c.lease = some row → d.lease = some row' → row'.leaseOwner ≠ row.leaseOwner →
        row.leaseExpiresAt ≤ c.now) ∧
      ∀ row, c.lease = some row → d.lease = none → ∃ (k : ℕ) (holder : Holder),
        e = .release k ∧ c.holders[k]? = some holder ∧ holder.lease.Holds c.lease := by
  by_cases hmoved : d.lease = c.lease
  · rw [hmoved]
    refine ⟨fun row row' hrow hrow' hne => ?_, fun row hrow hnone => ?_⟩
    · cases hrow.symm.trans hrow'
      exact absurd rfl hne
    · cases hrow.symm.trans hnone
  cases e with
  | acquire owner ttl =>
    cases hstep
    rcases acquire_cases c owner ttl with hidle | ⟨new, lease, hacquire, hnew⟩
    · exact absurd (congrArg LeasedRun.lease hidle) hmoved
    · obtain ⟨hfree, howner, _⟩ := acquireLease_ok hacquire
      rw [hnew]
      refine ⟨fun row row' hrow hrow' hne => ?_, fun row hrow hnone => by cases hnone⟩
      cases hrow'
      exact (hfree row hrow).resolve_right fun h => hne (howner.trans h.symm)
  | renew k ttl =>
    obtain ⟨holder, hk, rfl⟩ := Option.map_eq_some_iff.mp hstep
    rcases renew_cases c k holder ttl with hidle | ⟨new, lease, hrenew, hnew⟩
    · exact absurd (congrArg LeasedRun.lease hidle) hmoved
    · obtain ⟨old, hold, howner, _⟩ := renewLease_ok hrenew
      rw [hnew]
      refine ⟨fun row row' hrow hrow' hne => ?_, fun row hrow hnone => by cases hnone⟩
      cases hrow'
      cases hold.symm.trans hrow
      exact absurd howner hne
  | release k =>
    obtain ⟨holder, hk, rfl⟩ := Option.map_eq_some_iff.mp hstep
    constructor
    · intro row row' hrow hrow' hne
      exact absurd (congrArg LeaseRow.leaseOwner (releaseLease_some hrow hrow')) hne
    · intro row hrow hnone
      exact ⟨k, holder, rfl, hk, releaseLease_none hrow hnone⟩
  | write k =>
    obtain ⟨holder, _, hwrite⟩ := Option.bind_eq_some_iff.mp hstep
    obtain ⟨p, _, rfl⟩ := Option.map_eq_some_iff.mp hwrite
    exact absurd rfl hmoved
  | read k publication =>
    obtain ⟨holder, _, rfl⟩ := Option.map_eq_some_iff.mp hstep
    exact absurd rfl hmoved
  | tick | cancel | resume =>
    cases hstep
    exact absurd rfl hmoved

theorem powerless_write (hovertakes : c.Overtakes (.write k)) (hstep : c.step (.write k) = some d)
    (hk : c.holders[k]? = some holder) (hstale : c.Stale holder) : d.row = c.row := by
  obtain ⟨holder', hk', hwrite⟩ := Option.bind_eq_some_iff.mp hstep
  cases hk.symm.trans hk'
  obtain ⟨p, hp, rfl⟩ := Option.map_eq_some_iff.mp hwrite
  exact Publication.write_overtaken (hovertakes holder hk hstale p hp)

end Steps

/-- Leases fence as long as every publication of a stale holder was overtaken. -/
theorem leasesFence_of_overtakes (row : RunRow) : LeasesFence row LeasedRun.Overtakes := by
  intro events c e d hrun hovertakes hstep
  have htokens : c.Tokens := hrun.invariant LeasedRun.Tokens
    (fun _ _ _ h _ hstep => tokens_step h hstep) (tokens_start _)
  obtain ⟨hpasses, hreleased⟩ := lease_step hstep
  refine ⟨fun k k' holder holder' hk hk' hh hh' => htokens.unique hk hk' hh hh', hpasses,
    hreleased, ?_⟩
  rintro k holder rfl hk hstale
  exact powerless_write hovertakes hstep hk hstale

/-- A state of the graph that its first owner publishes late. -/
def routedState : ResearchState :=
  { initialResearchState
      { runId := "run"
        repoId := "repo"
        indexVersionId := "version"
        query := "attention"
        queryType := none
        seedEvidenceIds := []
        answerEnabled := true
        externalTextConsent := false } with
    queryType := some .symbolLookup
    status := .routing }

/-- A lease that expires between the two halves of a publication. -/
def lateWrite : List LeaseEvent :=
  [.acquire "first" 30000000, .read 0 (.state routedState), .tick 31000000,
    .acquire "second" 30000000]

/-- The first owner overwrites the status of a run that the second one has taken over. -/
theorem not_leasesFence_lateWrite : ¬ LeasesFence { runId := "run" } Machine.Free := by
  intro h
  obtain ⟨c, hc, d, hd, hstale⟩ : ∃ c, LeasedRun.machine.exec Machine.Free
      ⟨{ runId := "run" }, none, 0, []⟩ lateWrite = some c ∧ ∃ d, c.step (.write 0) = some d ∧
      (∃ holder, c.holders[0]? = some holder ∧ c.Stale holder) ∧ d.row ≠ c.row := by
    refine ⟨_, rfl, _, rfl, ⟨_, rfl, ?_⟩, ?_⟩ <;> decide +kernel
  obtain ⟨⟨holder, hk, hstale⟩, hchanged⟩ := hstale
  have hfenced := h _ _ _ _ (Machine.run_of_exec hc) trivial hd
  exact hchanged (hfenced.powerless 0 holder rfl hk hstale)

end CodeResearch.Research
