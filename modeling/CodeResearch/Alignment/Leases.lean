import CodeResearch.Alignment.RunProcess
import Mathlib.Data.List.Chain

/-!
# Cancellations and leases of a run

Coordinators process a run under a lease while callers request its cancellation. Leases and
requests are checked by store calls of their own, so that a takeover or a request may fall
between a check and the write that it guards.
-/
namespace CodeResearch.Alignment

open ControlPlane (Timestamp)
open DomainJobs (AlignmentStatus)

/-- What a call of `request_cancel` does next. -/
inductive CancelCall
  | reading | marking | returning | ended
  deriving DecidableEq

/-- A run, the calls that process it, and the calls of `request_cancel`. -/
structure SharedRun where
  store : RunRecord := {}
  processes : List Process := []
  cancels : List CancelCall := []
  /-- `request_cancel` returned a run that was not terminal -/
  promised : Bool := false
  deriving DecidableEq

inductive SharedLabel
  /-- a coordinator is given the lease and starts to process the run -/
  | acquire (owner token : String) (now : Timestamp) (seconds : ℕ)
  | renew (k : ℕ) (now : Timestamp) (seconds : ℕ)
  | advance (k : ℕ) (now : Timestamp)
  /-- a store call raises, inside the `try` block of `process_run` or outside of it -/
  | raise (k : ℕ) (inside : Bool)
  /-- a process dies -/
  | stop (k : ℕ)
  | request
  | cancel (i : ℕ)
  /-- another run is activated -/
  | supersede
  deriving DecidableEq

/-- `BUILD_STATUSES`. -/
def buildStatuses : List AlignmentStatus :=
  [.queued, .profiling, .recalling, .featurizing, .scoring, .verifying, .ready]

/-- The statuses in which `request_cancel` is not allowed. -/
def settledStatuses : List AlignmentStatus := [.ready, .active, .superseded]

/-- `renew_lease` updates the lease that its token names. -/
def RunRecord.renewLease (s : RunRecord) (token : Option String) (expiresAt : Timestamp) :
    RunRecord :=
  if s.Held token then { s with lease := s.lease.map fun lease => { lease with expiresAt } } else s

def Process.raised (p : Process) (inside : Bool) : Option Process :=
  match p.ops with
  | [] | .release :: _ => none
  | .markFailed :: rest | .failFrom _ :: rest => some (p.continueWith rest)
  | _ => some (if inside then p.raiseError else p.raiseStoreError)

namespace SharedRun

variable (g : Stages) (s : SharedRun)

/-- One store call of `request_cancel`. -/
def cancelStep (i : ℕ) : CancelCall → Option SharedRun
  | .reading =>
    some { s with cancels := s.cancels.set i
                    (if s.store.status ∈ settledStatuses ∨ TerminalStatus s.store.status then .ended
                    else .marking) }
  | .marking =>
    some { s with
      store := { s.store with cancelRequested := true }, cancels := s.cancels.set i .returning }
  | .returning =>
    some { s with
      cancels := s.cancels.set i .ended
      promised := s.promised || !decide (TerminalStatus s.store.status) }
  | .ended => none

def advance (k : ℕ) (now : Timestamp) (p : Process) : SharedRun :=
  let result := p.advance g s.store now
  { s with store := result.1, processes := s.processes.set k result.2 }

def step : SharedLabel → Option SharedRun
  | .acquire owner token now seconds =>
    if s.store.status ∈ buildStatuses ∧ (∀ lease ∈ s.store.lease, lease.expiresAt ≤ now) ∧
        some token ∉ s.processes.map Process.token then
      some { s with
        store := { s.store with lease := some ⟨owner, token, now + seconds⟩ }
        processes := s.processes ++ [{ token := some token }] }
    else none
  | .renew k now seconds => s.processes[k]?.map fun p =>
    { s with store := s.store.renewLease p.token (now + seconds) }
  | .advance k now => s.processes[k]?.bind fun p =>
    if p.ops = [] then none else some (s.advance g k now p)
  | .raise k inside => s.processes[k]?.bind fun p =>
    (p.raised inside).map fun p' => { s with processes := s.processes.set k p' }
  | .stop k => s.processes[k]?.map fun p =>
    { s with processes := s.processes.set k (p.continueWith []) }
  | .request => some { s with cancels := s.cancels ++ [.reading] }
  | .cancel i => s.cancels[i]?.bind (s.cancelStep i)
  | .supersede =>
    if s.store.status = .active then some { s with store := { s.store with status := .superseded } }
    else none

def machine : Machine SharedRun SharedLabel := ⟨step g⟩

end SharedRun

/-- The status and the stage tables are those of another store. -/
structure RunRecord.SameWork (s t : RunRecord) : Prop where
  status : s.status = t.status
  profiles : s.profiles = t.profiles
  candidates : s.candidates = t.candidates
  features : s.features = t.features
  scores : s.scores = t.scores
  decisions : s.decisions = t.decisions
  verifications : s.verifications = t.verifications

structure SharedRun.Honoured (g : Stages) (s : SharedRun) : Prop where
  /-- a run whose cancellation was promised is not activated -/
  promised : s.promised = true → s.store.status ∉ [AlignmentStatus.active, .superseded]
  /-- the flag is set on a run that may be cancelled -/
  marking : .marking ∈ s.cancels → s.store.status ∉ settledStatuses
  /-- a process writes under its lease -/
  writes : ∀ p ∈ s.processes, ¬ s.store.Held p.token →
    ∀ now, (p.advance g s.store now).1.SameWork s.store

def atCheckpoint : List Op → Bool
  | [] | .assertLease :: _ => true
  | .compute _ :: rest => atCheckpoint rest
  | .release :: rest => rest.isEmpty
  | _ => false

def Process.AtActivation (p : Process) : Prop := p.ops.head? = some .activate

instance (p : Process) : Decidable p.AtActivation := inferInstanceAs (Decidable (_ = _))

/-- `mark_ready_and_activate` activates the run. -/
def RunRecord.Activates (s : RunRecord) : Prop :=
  s.status ∈ [AlignmentStatus.scoring, .verifying, .ready] ∧
    s.profiles.length = s.decisions.length

instance (s : RunRecord) : Decidable s.Activates := inferInstanceAs (Decidable (_ ∧ _))

def Process.Computes (g : Stages) (p : Process) : Prop :=
  match p.ops with
  | .compute table :: _ => (g.compute p.locals table).isSome
  | _ => True

instance (g : Stages) (p : Process) : Decidable (p.Computes g) := by
  unfold Process.Computes
  split <;> infer_instance

/-- No takeover falls between a check of the lease and a write, no process raises once its
lease is taken, no activation falls between the two statements of `request_cancel`, and no
request returns while a process is past its last check. -/
def SharedRun.Spares (g : Stages) (s : SharedRun) : SharedLabel → Prop
  | .acquire _ _ _ _ => ∀ p ∈ s.processes, s.store.Held p.token → atCheckpoint p.ops
  | .advance k _ => ∀ p ∈ s.processes[k]?, (¬ s.store.Held p.token → p.Computes g) ∧
    (p.AtActivation → s.store.Activates → .marking ∉ s.cancels)
  | .raise k _ => ∀ p ∈ s.processes[k]?, s.store.Held p.token
  | .cancel i => s.cancels[i]? = some .returning → ¬ TerminalStatus s.store.status →
    ∀ p ∈ s.processes, ¬ p.AtActivation
  | .renew _ _ _ | .stop _ | .request | .supersede => True

instance (g : Stages) (s : SharedRun) (label : SharedLabel) : Decidable (s.Spares g label) := by
  cases label <;> unfold SharedRun.Spares <;> infer_instance

def Op.Unsettling : Op → Bool
  | .enter status _ => status ∉ settledStatuses
  | _ => true

def Op.checksCancel : Op → Bool
  | .checkCancel _ => true
  | _ => false

/-- A release comes last, and an activation comes right after a check of the cancellation. -/
structure Shielded (ops : List Op) : Prop where
  unsettling : ∀ op ∈ ops, op.Unsettling
  chain : ops.IsChain fun a b => a ≠ .release ∧ (b = .activate → a.checksCancel)

variable {op : Op} {rest : List Op}

theorem Shielded.tail (h : Shielded (op :: rest)) : Shielded rest :=
  ⟨fun a ha => h.unsettling a (List.mem_cons_of_mem op ha), h.chain.tail⟩

theorem Shielded.head (h : Shielded (op :: rest))
    (hop : ¬ op.checksCancel) : rest.head? ≠ some .activate := fun hhead =>
  hop (((List.isChain_cons.mp h.chain).1 _ hhead).2 rfl)

theorem Shielded.release (h : Shielded (.release :: rest)) : rest = [] := by
  cases rest with
  | nil => rfl
  | cons b rest => exact absurd rfl (List.isChain_cons_cons.mp h.chain).1.1

theorem Shielded.replace {op' : Op} (h : Shielded (op :: rest))
    (hop : ¬ op.checksCancel) (hop' : op'.Unsettling) (hrelease : op' ≠ .release) :
    Shielded (op' :: rest) := by
  refine ⟨fun a ha => ?_, List.isChain_cons.mpr ⟨fun b hb => ⟨hrelease, fun hactivate => ?_⟩,
    h.tail.chain⟩⟩
  · rcases List.mem_cons.mp ha with rfl | ha
    · exact hop'
    · exact h.tail.unsettling a ha
  · exact absurd (hactivate ▸ hb) (h.head hop)

theorem shielded_program (verifierEnabled : Bool) (stage : AlignmentStatus) :
    Shielded (program verifierEnabled stage) := by
  constructor <;> cases verifierEnabled <;> cases stage <;> decide

variable {g : Stages} {s : RunRecord} {p : Process} {now : Timestamp}

theorem save_fields (l : Locals) (table : StageTable) : let t := Stages.save s l table
    t.cancelRequested = s.cancelRequested ∧ t.lease = s.lease ∧ t.status = s.status := by
  cases table <;> exact ⟨rfl, rfl, rfl⟩

theorem token_advance : (p.advance g s now).2.token = p.token := by
  unfold Process.advance
  rcases p.ops with _ | ⟨op, rest⟩
  · rfl
  dsimp only
  cases op <;> dsimp only <;> try rfl
  all_goals split <;> rfl

theorem cancelRequested_advance :
    (p.advance g s now).1.cancelRequested = s.cancelRequested := by
  unfold Process.advance
  rcases p.ops with _ | ⟨op, rest⟩
  · rfl
  dsimp only
  cases op <;> dsimp only <;> try rfl
  case save table => exact (save_fields _ _).1
  all_goals split <;> rfl

variable (g s p now) in
/-- Only its owner removes a lease, with its last operation. -/
theorem lease_advance : (p.advance g s now).1.lease = s.lease ∨
    s.Held p.token ∧ ∃ rest, p.ops = .release :: rest ∧ (p.advance g s now).2.ops = rest := by
  unfold Process.advance
  rcases p.ops with _ | ⟨op, rest⟩
  · exact .inl rfl
  dsimp only
  cases op <;> dsimp only
  case save table => exact .inl (save_fields _ _).2.1
  case release =>
    split_ifs with hheld
    · exact .inr ⟨hheld, rest, rfl, rfl⟩
    · exact .inl rfl
  all_goals first | exact .inl rfl | split <;> exact .inl rfl

variable (g s now) in
/-- A process changes the status by an entry, an activation or a failure. -/
theorem status_advance (h : Shielded p.ops) : (p.advance g s now).1.status = s.status ∨
    (p.advance g s now).1.status ∉ settledStatuses ∨ p.AtActivation ∧ s.Activates := by
  unfold Process.advance Process.AtActivation
  rcases hops : p.ops with _ | ⟨op, rest⟩
  · exact .inl rfl
  have hop := h.unsettling op (hops ▸ List.mem_cons_self)
  dsimp only
  cases op <;> dsimp only
  case enter status allowed =>
    split_ifs
    · exact .inr (.inl (of_decide_eq_true hop))
    · exact .inl rfl
  case save table => exact .inl (save_fields _ _).2.2
  case activate =>
    split_ifs with hactivates
    · exact .inr (.inr ⟨rfl, hactivates⟩)
    · exact .inl rfl
  case failFrom status =>
    split_ifs
    · exact .inr (.inl (show AlignmentStatus.failed ∉ settledStatuses by decide))
    · exact .inl rfl
  all_goals first | exact .inl rfl | split <;> exact .inl rfl

theorem shielded_failure : Shielded [.markFailed, .markFailed, .release] := by
  constructor <;> simp [Op.Unsettling]

theorem shielded_cancelled (status : AlignmentStatus) :
    Shielded [.enter .cancelled status, .release] := by
  constructor <;> simp [Op.Unsettling, settledStatuses]

theorem shielded_advance (h : Shielded p.ops) : Shielded (p.advance g s now).2.ops := by
  unfold Process.advance
  rcases hops : p.ops with _ | ⟨op, rest⟩
  · exact h
  rw [hops] at h
  have hrest := h.tail
  dsimp only
  cases op <;> dsimp only
  case getRun =>
    split_ifs
    · exact shielded_cancelled _
    · exact shielded_program _ _
  case assertLease =>
    split_ifs
    · exact shielded_failure.tail.tail
    · exact hrest
  case enter status allowed =>
    split_ifs
    · exact hrest
    · exact h.replace (by simp [Op.checksCancel]) rfl (by simp)
  case confirm status =>
    split_ifs
    · exact hrest
    · exact shielded_failure.tail
  case checkCancel stage =>
    split_ifs
    · exact shielded_cancelled _
    · exact hrest
  case compute table =>
    split
    · exact hrest
    · exact shielded_failure
  case activate =>
    split_ifs
    · exact hrest
    · exact shielded_failure.tail
  case markFailed =>
    split_ifs
    · exact hrest
    · exact h.replace (by simp [Op.checksCancel]) rfl (by simp)
  case failFrom status => split_ifs <;> exact hrest
  all_goals exact hrest

/-- A process reaches its activation when no cancellation is requested. -/
theorem cancelRequested_of_atActivation (h : Shielded p.ops)
    (hat : (p.advance g s now).2.AtActivation) (hnot : ¬ p.AtActivation) :
    s.cancelRequested = false := by
  unfold Process.advance at hat
  unfold Process.AtActivation at hat hnot
  rcases hops : p.ops with _ | ⟨op, rest⟩
  · rw [hops] at hat hnot
    exact absurd hat (by simp [hops])
  rw [hops] at h hat
  dsimp only at hat
  cases op <;> dsimp only at hat
  case checkCancel stage =>
    split_ifs at hat with hcancel
    · simp [Process.continueWith] at hat
    · simpa using hcancel
  all_goals
    have hrest := h.head (by simp [Op.checksCancel])
    exfalso
    first
      | exact hrest hat
      | split at hat <;>
          simp_all [Process.continueWith, Process.raiseStoreError, Process.raiseError, program]

/-- A process that raises goes to its handlers. -/
theorem raised_spec {p' : Process} {inside : Bool} (h : Shielded p.ops)
    (hraised : p.raised inside = some p') :
    p'.token = p.token ∧ Shielded p'.ops ∧ ¬ p'.AtActivation := by
  unfold Process.raised at hraised
  split at hraised
  case h_1 => cases hraised
  case h_2 => cases hraised
  case h_3 rest hops =>
    cases hraised
    rw [hops] at h
    exact ⟨rfl, h.tail, h.head (by simp [Op.checksCancel])⟩
  case h_4 status rest hops =>
    cases hraised
    rw [hops] at h
    exact ⟨rfl, h.tail, h.head (by simp [Op.checksCancel])⟩
  case h_5 =>
    cases hraised
    split_ifs
    · exact ⟨rfl, shielded_failure, by simp [Process.AtActivation, Process.raiseError, Process.continueWith]⟩
    · exact ⟨rfl, shielded_failure.tail,
        by simp [Process.AtActivation, Process.raiseStoreError, Process.continueWith]⟩

/-- A process at a checkpoint that lost its lease stays at a checkpoint and writes nothing. -/
theorem advance_of_not_held (hheld : ¬ s.Held p.token) (htoken : p.token.isSome)
    (hops : atCheckpoint p.ops) : (p.advance g s now).1 = s ∧
      (p.Computes g → atCheckpoint (p.advance g s now).2.ops) := by
  unfold Process.advance Process.Computes
  rcases hp : p.ops with _ | ⟨op, rest⟩
  · exact ⟨rfl, fun _ => hops⟩
  rw [hp] at hops
  cases op
  case assertLease => simp [htoken, hheld, Process.continueWith, atCheckpoint]
  case compute table =>
    cases hcompute : g.compute p.locals table with
    | some locals =>
      have hrest : atCheckpoint rest := hops
      simp [hcompute, Process.continueWith, hrest]
    | none => simp [hcompute]
  case release =>
    have hrest : rest = [] := by simpa [atCheckpoint] using hops
    simp [hheld, hrest, Process.continueWith, atCheckpoint]
  all_goals cases hops

theorem RunRecord.SameWork.refl (s : RunRecord) : s.SameWork s :=
  ⟨rfl, rfl, rfl, rfl, rfl, rfl, rfl⟩

namespace SharedRun

/-- A process writes under its lease, or asserts it before. -/
structure Fenced (s : RunRecord) (p : Process) : Prop where
  token : p.token.isSome
  shielded : Shielded p.ops
  checked : s.Held p.token ∨ atCheckpoint p.ops

structure Inv (s : SharedRun) : Prop where
  tokens : (s.processes.map Process.token).Nodup
  processes : ∀ p ∈ s.processes, Fenced s.store p
  marking : .marking ∈ s.cancels → s.store.status ∉ settledStatuses
  returning : .returning ∈ s.cancels → s.store.cancelRequested
  promised : s.promised = true → s.store.cancelRequested ∧
    s.store.status ∉ [AlignmentStatus.active, .superseded] ∧
      ∀ p ∈ s.processes, ¬ p.AtActivation

variable {x y : SharedRun} {k : ℕ}

theorem Inv.honoured (h : x.Inv) : x.Honoured g := by
  refine ⟨fun hpromised => (h.promised hpromised).2.1, h.marking, ?_⟩
  intro p hp hheld now
  obtain ⟨htoken, _, hchecked⟩ := h.processes p hp
  rw [(advance_of_not_held hheld htoken (hchecked.resolve_left hheld)).1]
  exact .refl _

theorem inv_initial : Inv {} := by
  constructor <;> simp

theorem Fenced.congr {s t : RunRecord} (h : Fenced s p)
    (hlease : t.lease.map LeaseRow.token = s.lease.map LeaseRow.token) : Fenced t p := by
  refine ⟨h.token, h.shielded, h.checked.imp_left fun hheld => ?_⟩
  exact ⟨hheld.1, hlease.trans hheld.2⟩

variable {p' q : Process} {seconds i : ℕ}

/-- One process changes, which keeps its token. -/
theorem nodup_set (h : (x.processes.map Process.token).Nodup)
    (hk : x.processes[k]? = some p) (htoken : p'.token = p.token) :
    ((x.processes.set k p').map Process.token).Nodup := by
  have hsame : (x.processes.set k p').map Process.token = x.processes.map Process.token := by
    rw [List.map_set, htoken]
    apply List.ext_getElem?
    intro j
    rw [List.getElem?_set]
    split_ifs with hj hlt
    · subst hj
      rw [List.getElem?_map, hk]
      rfl
    · subst hj
      rw [List.getElem?_eq_none (by simpa using hlt)]
    · rfl
  rwa [hsame]

theorem mem_set_cases (h : (x.processes.map Process.token).Nodup)
    (hk : x.processes[k]? = some p) (hq : q ∈ x.processes.set k p') :
    q = p' ∨ q ∈ x.processes ∧ q.token ≠ p.token := by
  obtain ⟨j, hj⟩ := List.mem_iff_getElem?.mp hq
  by_cases hjk : k = j
  · subst hjk
    rcases List.mem_or_eq_of_mem_set hq with hmem | rfl
    · rw [List.getElem?_set_self (List.getElem?_eq_some_iff.mp hk).1] at hj
      exact .inl (Option.some.inj hj).symm
    · exact .inl rfl
  · rw [List.getElem?_set_ne hjk] at hj
    refine .inr ⟨List.mem_of_getElem? hj, fun htoken => hjk ?_⟩
    have hlt : k < (x.processes.map Process.token).length := by
      simpa using (List.getElem?_eq_some_iff.mp hk).1
    apply (List.getElem?_inj hlt h).mp
    simp [List.getElem?_map, hk, hj, htoken]

/-- What a step of one process has to keep. -/
theorem Inv.set {store : RunRecord} (h : x.Inv) (hk : x.processes[k]? = some p)
    (htoken : p'.token = p.token) (hfenced : Fenced store p')
    (hothers : ∀ q ∈ x.processes, q.token ≠ p.token → Fenced store q)
    (hcancel : store.cancelRequested = x.store.cancelRequested)
    (hmarking : .marking ∈ x.cancels → store.status ∉ settledStatuses)
    (hpromised : x.promised = true →
      store.status ∉ [AlignmentStatus.active, .superseded] ∧ ¬ p'.AtActivation) :
    Inv { x with store, processes := x.processes.set k p' } := by
  refine ⟨nodup_set h.tokens hk htoken, fun q hq => ?_, hmarking,
    fun hreturning => hcancel ▸ h.returning hreturning, fun hp => ?_⟩
  · rcases mem_set_cases h.tokens hk hq with rfl | ⟨hmem, hne⟩
    · exact hfenced
    · exact hothers q hmem hne
  · refine ⟨hcancel ▸ (h.promised hp).1, (hpromised hp).1, fun q hq => ?_⟩
    rcases mem_set_cases h.tokens hk hq with rfl | ⟨hmem, _⟩
    · exact (hpromised hp).2
    · exact (h.promised hp).2.2 q hmem

theorem inv_acquire {owner token : String} (h : x.Inv)
    (hspares : x.Spares g (.acquire owner token now seconds))
    (hstep : x.step g (.acquire owner token now seconds) = some y) : y.Inv := by
  dsimp only [step] at hstep
  split_ifs at hstep with henabled
  obtain ⟨_, _, hfresh⟩ := henabled
  cases hstep
  refine ⟨?_, ?_, h.marking, h.returning, ?_⟩
  · rw [List.map_append]
    exact h.tokens.append (List.nodup_singleton _) (by simpa using hfresh)
  · intro p hp
    rcases List.mem_append.mp hp with hp | hp
    · obtain ⟨htoken, hshielded, hchecked⟩ := h.processes p hp
      exact ⟨htoken, hshielded, .inr (hchecked.elim (hspares p hp) id)⟩
    · rw [List.mem_singleton.mp hp]
      refine ⟨rfl, ⟨by simp [Op.Unsettling], by simp⟩, .inl ⟨rfl, rfl⟩⟩
  · intro hpromised
    obtain ⟨hcancel, hstatus, hprocesses⟩ := h.promised hpromised
    refine ⟨hcancel, hstatus, fun p hp => ?_⟩
    rcases List.mem_append.mp hp with hp | hp
    · exact hprocesses p hp
    · rw [List.mem_singleton.mp hp]
      simp [Process.AtActivation]

theorem inv_renew (h : x.Inv) (hstep : x.step g (.renew k now seconds) = some y) : y.Inv := by
  obtain ⟨p, _, rfl⟩ := Option.map_eq_some_iff.mp hstep
  unfold RunRecord.renewLease
  split_ifs
  · refine ⟨h.tokens, fun q hq => (h.processes q hq).congr ?_, h.marking, h.returning, h.promised⟩
    cases x.store.lease <;> simp
  · exact h

/-- The fence of a process after its own step. -/
theorem fenced_advance (h : Fenced s p) (hcomputes : ¬ s.Held p.token → p.Computes g) :
    Fenced (p.advance g s now).1 (p.advance g s now).2 := by
  have htoken : (p.advance g s now).2.token = p.token := token_advance
  refine ⟨htoken ▸ h.token, shielded_advance h.shielded, ?_⟩
  rw [htoken]
  by_cases hheld : s.Held p.token
  · rcases lease_advance g s p now with hlease | ⟨_, rest, hops, hrest⟩
    · exact .inl ⟨hheld.1, by rw [hlease, hheld.2]⟩
    · have hshielded := h.shielded
      rw [hops] at hshielded
      rw [hrest, hshielded.release]
      exact .inr rfl
  · have hcheckpoint := h.checked.resolve_left hheld
    exact .inr ((advance_of_not_held hheld h.token hcheckpoint).2 (hcomputes hheld))

theorem held_of_ne (hother : q.token ≠ p.token) (hheld : s.Held q.token) :
    (p.advance g s now).1.Held q.token := by
  rcases lease_advance g s p now with hlease | ⟨hp, _⟩
  · exact ⟨hheld.1, by rw [hlease, hheld.2]⟩
  · exact absurd (hheld.2.symm.trans hp.2) hother

theorem inv_advance (h : x.Inv) (hspares : x.Spares g (.advance k now))
    (hstep : x.step g (.advance k now) = some y) : y.Inv := by
  obtain ⟨p, hk, hstep⟩ := Option.bind_eq_some_iff.mp hstep
  split_ifs at hstep
  cases hstep
  obtain ⟨hcomputes, hactivates⟩ := hspares p hk
  have hp := List.mem_of_getElem? hk
  have hfenced := h.processes p hp
  have hcancel : (p.advance g x.store now).1.cancelRequested = x.store.cancelRequested :=
    cancelRequested_advance
  have hstatus := status_advance g x.store now hfenced.shielded
  refine h.set hk token_advance (fenced_advance hfenced hcomputes) ?_ hcancel ?_ ?_
  · intro q hq hother
    have hq' := h.processes q hq
    exact ⟨hq'.token, hq'.shielded, hq'.checked.imp_left (held_of_ne hother)⟩
  · intro hmarking
    rcases hstatus with hsame | hunsettled | ⟨hat, hactive⟩
    · exact hsame ▸ h.marking hmarking
    · exact hunsettled
    · exact absurd hmarking (hactivates hat hactive)
  · intro hpromised
    obtain ⟨hrequested, hlive, hnot⟩ := h.promised hpromised
    constructor
    · rcases hstatus with hsame | hunsettled | ⟨hat, _⟩
      · exact hsame ▸ hlive
      · intro hmem
        exact hunsettled (List.mem_cons_of_mem _ hmem)
      · exact absurd hat (hnot p hp)
    · intro hat
      have hnone := cancelRequested_of_atActivation hfenced.shielded hat (hnot p hp)
      rw [hnone] at hrequested
      cases hrequested

theorem inv_raise {inside : Bool} (h : x.Inv) (hspares : x.Spares g (.raise k inside))
    (hstep : x.step g (.raise k inside) = some y) : y.Inv := by
  obtain ⟨p, hk, hstep⟩ := Option.bind_eq_some_iff.mp hstep
  obtain ⟨p', hraised, rfl⟩ := Option.map_eq_some_iff.mp hstep
  have hfenced := h.processes p (List.mem_of_getElem? hk)
  obtain ⟨htoken, hshielded, hat⟩ := raised_spec hfenced.shielded hraised
  refine h.set hk htoken ⟨htoken ▸ hfenced.token, hshielded, .inl (htoken ▸ hspares p hk)⟩
    (fun q hq _ => h.processes q hq) rfl h.marking fun hpromised => ⟨(h.promised hpromised).2.1, hat⟩

theorem inv_stop (h : x.Inv) (hstep : x.step g (.stop k) = some y) : y.Inv := by
  obtain ⟨p, hk, rfl⟩ := Option.map_eq_some_iff.mp hstep
  have hfenced := h.processes p (List.mem_of_getElem? hk)
  exact h.set hk rfl ⟨hfenced.token, ⟨by simp [Process.continueWith], .nil⟩, .inr rfl⟩
    (fun q hq _ => h.processes q hq) rfl h.marking
    fun hpromised => ⟨(h.promised hpromised).2.1, by simp [Process.AtActivation, Process.continueWith]⟩

theorem inv_request (h : x.Inv) (hstep : x.step g .request = some y) : y.Inv := by
  cases hstep
  exact ⟨h.tokens, h.processes, by simpa using h.marking, by simpa using h.returning, h.promised⟩

theorem mem_cancels_of_set {call new : CancelCall} (h : call ∈ x.cancels.set i new)
    (hne : call ≠ new) : call ∈ x.cancels :=
  (List.mem_or_eq_of_mem_set h).resolve_right hne

theorem inv_cancel (h : x.Inv) (hspares : x.Spares g (.cancel i))
    (hstep : x.step g (.cancel i) = some y) : y.Inv := by
  obtain ⟨call, hcall, hstep⟩ := Option.bind_eq_some_iff.mp hstep
  cases call with
  | reading =>
    cases hstep
    refine ⟨h.tokens, h.processes, fun hmarking => ?_, fun hreturning => ?_, h.promised⟩
    · dsimp only at hmarking ⊢
      split_ifs at hmarking with hsettled
      · exact h.marking (mem_cancels_of_set hmarking (by decide))
      · exact fun hmem => hsettled (.inl hmem)
    · refine h.returning (mem_cancels_of_set hreturning ?_)
      split_ifs <;> decide
  | marking =>
    cases hstep
    exact ⟨h.tokens, fun p hp => (h.processes p hp).congr rfl,
      fun hmarking => h.marking (mem_cancels_of_set hmarking (by decide)), fun _ => rfl,
      fun hpromised => ⟨rfl, (h.promised hpromised).2⟩⟩
  | returning =>
    cases hstep
    refine ⟨h.tokens, h.processes,
      fun hmarking => h.marking (mem_cancels_of_set hmarking (by decide)),
      fun hreturning => h.returning (mem_cancels_of_set hreturning (by decide)), fun hpromised => ?_⟩
    rcases Bool.or_eq_true_iff.mp hpromised with hpromised | hlive
    · exact h.promised hpromised
    · have hterminal : ¬ TerminalStatus x.store.status := by simpa using hlive
      refine ⟨h.returning (List.mem_of_getElem? hcall), fun hmem => hterminal ?_,
        hspares hcall hterminal⟩
      unfold TerminalStatus
      simp only [List.mem_cons, List.not_mem_nil, or_false] at hmem ⊢
      tauto
  | ended => cases hstep

theorem inv_supersede (h : x.Inv) (hstep : x.step g .supersede = some y) : y.Inv := by
  dsimp only [step] at hstep
  split_ifs at hstep with hactive
  cases hstep
  refine ⟨h.tokens, fun p hp => (h.processes p hp).congr rfl, fun hmarking => ?_, h.returning,
    fun hpromised => ?_⟩
  · exact absurd (by simp [hactive, settledStatuses]) (h.marking hmarking)
  · exact absurd (by simp [hactive]) (h.promised hpromised).2.1

theorem inv_step {label : SharedLabel} (h : x.Inv) (hspares : x.Spares g label)
    (hstep : x.step g label = some y) : y.Inv := by
  cases label with
  | acquire owner token now seconds => exact inv_acquire h hspares hstep
  | renew k now seconds => exact inv_renew h hstep
  | advance k now => exact inv_advance h hspares hstep
  | raise k inside => exact inv_raise h hspares hstep
  | stop k => exact inv_stop h hstep
  | request => exact inv_request h hstep
  | cancel i => exact inv_cancel h hspares hstep
  | supersede => exact inv_supersede h hstep

end SharedRun

/-- Cancellations and leases are honoured in every run whose races are spared. -/
theorem commits_honour_cancellation_and_leases (g : Stages) {labels : List SharedLabel}
    {x : SharedRun} (h : (SharedRun.machine g).Run (SharedRun.Spares g) {} labels x) :
    x.Honoured g :=
  (h.invariant SharedRun.Inv (fun _ _ _ hx hspares hstep => SharedRun.inv_step hx hspares hstep)
    SharedRun.inv_initial).honoured

def emptyStages : Stages where
  ids := ⟨fun profile => profile, fun _ candidate _ => candidate, fun _ _ _ => ""⟩
  verificationIds := ⟨fun profile _ => profile, fun profile => profile⟩
  profiles := []
  candidates := fun _ => []
  hasEntity := fun _ => true
  feature := fun p c => ⟨"vector", p.profileId, c.candidateId, ""⟩
  score := fun v => ⟨"score", v.profileId, v.candidateId, 1, 1, 1, none, [], ""⟩
  verifierEnabled := false
  provider := none
  profileJson := PaperModuleProfile.profileId
  candidateJson := AlignmentCandidate.candidateId
  featureJson := AlignmentFeatureVector.vectorId
  scoreJson := AlignmentCandidateScore.scoreId
  decisionJson := AlignmentDecision.decisionId

def untilActivation : List SharedLabel :=
  .acquire "first" "token" 0 60 :: List.replicate 28 (.advance 0 0)

/-- The call of `request_cancel` is answered before the run is activated. -/
def cancelLate : List SharedLabel :=
  untilActivation ++ [.request, .cancel 0, .cancel 0, .cancel 0, .advance 0 0]

/-- The lease is taken over while the profiles are computed, and the run is cancelled. -/
def takenOverEarly : List SharedLabel :=
  .acquire "first" "token" 0 60 :: List.replicate 3 (.advance 0 0) ++
    [.acquire "second" "other" 60 60, .request, .cancel 0, .cancel 0, .cancel 0] ++
    List.replicate 3 (.advance 0 60) ++ List.replicate 3 (.advance 1 60)

theorem takenOverEarly_ends :
    ((SharedRun.machine emptyStages).exec (SharedRun.Spares emptyStages) {} takenOverEarly).map
      (fun x => (x.store.status, x.promised, x.processes.map Process.ops)) =
        some (.cancelled, true, [[], []]) := by
  decide +kernel

theorem cancelLate_ends :
    ((SharedRun.machine emptyStages).exec Machine.Free {} cancelLate).map
      (fun x => (x.promised, x.store.status)) = some (true, .active) := by
  decide +kernel

theorem takenOverEarly_honoured : ∃ x,
    (SharedRun.machine emptyStages).Run (SharedRun.Spares emptyStages) {} takenOverEarly x ∧
      x.promised = true ∧ x.Honoured emptyStages := by
  obtain ⟨x, hx, hfields⟩ := Option.map_eq_some_iff.mp takenOverEarly_ends
  simp only [Prod.mk.injEq] at hfields
  have hrun := Machine.run_of_exec hx
  exact ⟨x, hrun, hfields.2.1, commits_honour_cancellation_and_leases emptyStages hrun⟩

/-- A run is activated after a call of `request_cancel` returned it as not terminal. -/
theorem cancelled_run_activated :
    ¬ ∀ (g : Stages) (labels : List SharedLabel) (x : SharedRun),
      (SharedRun.machine g).Run Machine.Free {} labels x → x.Honoured g := by
  intro hall
  obtain ⟨x, hx, hfields⟩ := Option.map_eq_some_iff.mp cancelLate_ends
  obtain ⟨hpromised, hstatus⟩ := Prod.mk.inj hfields
  have hhonoured := hall _ _ x (Machine.run_of_exec hx)
  exact hhonoured.promised hpromised (by simp [hstatus])

end CodeResearch.Alignment
