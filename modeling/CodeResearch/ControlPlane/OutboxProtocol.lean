import CodeResearch.ControlPlane.OutboxChanges

/-!
# The outbox protocol

Every event knows how often it was claimed and whose token may acknowledge it.
The claims of a batch are taken one at a time, and each of them, an
acknowledgement, and every other store call keep this.
-/
namespace CodeResearch.ControlPlane

theorem claimsIn_cons_self (claim : ClaimedOutbox) (claimed : List ClaimedOutbox) :
    claimsIn (claim :: claimed) claim.event.outboxEventId =
      claim :: claimsIn claimed claim.event.outboxEventId := by
  simp [claimsIn]

theorem claimsIn_cons_of_ne {claim : ClaimedOutbox} (claimed : List ClaimedOutbox)
    {eventId : String} (h : claim.event.outboxEventId ≠ eventId) :
    claimsIn (claim :: claimed) eventId = claimsIn claimed eventId := by
  simp [claimsIn, h]

variable {id : String}

section Hashing

variable (stableHash : String → String)

/-- The stored events agree with the claims made so far. -/
structure Tracked (s : Store) (claimed : List ClaimedOutbox) : Prop where
  counted : ∀ e ∈ s.outbox.rows, e.publishAttempt = (claimsIn claimed e.outboxEventId).length
  leased : ∀ e ∈ s.outbox.rows, e.status = .publishing → e.leaseUntil.isSome ∧
    ∃ claim, (claimsIn claimed e.outboxEventId).head? = some claim ∧
      e.claimTokenHash = some (stableHash claim.claimToken)
  known : ∀ claim ∈ claimed, ∃ e, s.outbox.find? claim.event.outboxEventId = some e ∧
    e.messageDeduplicationKey = claim.event.messageDeduplicationKey
  failures : s.FailuresClosed

variable {stableHash} {s : Store} {claimed : List ClaimedOutbox}

theorem Tracked.empty : Tracked stableHash .empty [] := by
  constructor <;> simp [Store.empty, Store.FailuresClosed]

variable {eventId : String} {c : StoreCall} {e e' event : OutboxEvent} {now : Timestamp} {t : Store}

theorem Tracked.claimsIn_of_new (h : Tracked stableHash s claimed)
    (hnew : eventId ∉ s.outbox.rows.map OutboxEvent.outboxEventId) :
    claimsIn claimed eventId = [] := by
  apply List.filter_eq_nil_iff.mpr
  intro claim hclaim hid
  obtain ⟨e, he, _⟩ := h.known claim hclaim
  apply hnew
  rw [← of_decide_eq_true hid, ← Table.find?_key he]
  exact List.mem_map_of_mem (Table.find?_mem he)

theorem OutboxMove.publishAttempt (h : OutboxMove c e e') :
    e'.publishAttempt = e.publishAttempt := by
  cases h with
  | kept | consumed => rfl
  | failed =>
    unfold OutboxEvent.supersede
    split_ifs <;> rfl

theorem OutboxMove.eq_of_publishing
    (h : OutboxMove c e e') (hstatus : e'.status = .publishing) : e' = e := by
  cases h with
  | kept => rfl
  | consumed => cases hstatus
  | failed =>
    rw [OutboxEvent.supersede_status] at hstatus
    cases hstatus

theorem mem_perform_outbox (he' : e' ∈ (s.perform stableHash c).outbox.rows) :
    (∃ e ∈ s.outbox.rows, OutboxMove c e e') ∨
      (e'.outboxEventId ∉ s.outbox.rows.map OutboxEvent.outboxEventId ∧ e'.Unclaimed) := by
  by_cases hold : e'.outboxEventId ∈ s.outbox.rows.map OutboxEvent.outboxEventId
  · obtain ⟨e, he, hid⟩ := List.mem_map.mp hold
    obtain ⟨e'', he'', hmove⟩ := perform_outbox stableHash (Table.find?_of_mem he) c
    have hsame : e'' = e' := by
      apply (s.perform stableHash c).outbox.eq_of_key_eq (Table.find?_mem he'') he'
      rw [Table.find?_key he'', hid]
    exact .inl ⟨e, he, hsame ▸ hmove⟩
  · exact .inr ⟨hold, (perform_outbox_new s c e' he').resolve_left hold⟩

theorem Tracked.perform (h : Tracked stableHash s claimed) (c : StoreCall) :
    Tracked stableHash (s.perform stableHash c) claimed := by
  refine ⟨?_, ?_, ?_, h.failures.perform c⟩
  · intro e' he'
    rcases mem_perform_outbox he' with ⟨e, he, hmove⟩ | ⟨hnew, hunclaimed⟩
    · rw [hmove.publishAttempt, hmove.continues.outboxEventId]
      exact h.counted e he
    · rw [hunclaimed.publishAttempt, h.claimsIn_of_new hnew]
      rfl
  · intro e' he' hstatus
    rcases mem_perform_outbox he' with ⟨e, he, hmove⟩ | ⟨_, hunclaimed⟩
    · obtain rfl := hmove.eq_of_publishing hstatus
      exact h.leased e' he hstatus
    · exact absurd hstatus hunclaimed.status
  · intro claim hclaim
    obtain ⟨e, he, hkey⟩ := h.known claim hclaim
    obtain ⟨e', he', hmove⟩ := perform_outbox stableHash he c
    exact ⟨e', he', hmove.continues.messageDeduplicationKey.trans hkey⟩

theorem Tracked.claim (h : Tracked stableHash s claimed)
    (hevent : event ∈ s.outbox.rows) (dispatcherId claimToken : String)
    (leaseUntil now : Timestamp) :
    let updated := event.claim stableHash dispatcherId claimToken leaseUntil now
    Tracked stableHash (s.updateOutbox updated) (⟨updated, claimToken⟩ :: claimed) := by
  intro updated
  have hrow : ∀ e ∈ (s.updateOutbox updated).outbox.rows,
      e = updated ∨ (e ∈ s.outbox.rows ∧ updated.outboxEventId ≠ e.outboxEventId) := by
    intro e he
    have hsome : (s.outbox.find? updated.outboxEventId).isSome := by
      rw [show updated.outboxEventId = event.outboxEventId from rfl, Table.find?_of_mem hevent]
      rfl
    exact ((Table.mem_replace hsome e).mp he).imp_right fun ⟨hmem, hne⟩ => ⟨hmem, hne.symm⟩
  refine ⟨?_, ?_, ?_, h.failures.updateOutbox hevent rfl OutboxStatus.noConfusion⟩
  · intro e he
    rcases hrow e he with rfl | ⟨hold, hne⟩
    · rw [claimsIn_cons_self ⟨updated, claimToken⟩, List.length_cons]
      exact congrArg (· + 1) (h.counted event hevent)
    · rw [claimsIn_cons_of_ne _ hne]
      exact h.counted e hold
  · intro e he hstatus
    rcases hrow e he with rfl | ⟨hold, hne⟩
    · refine ⟨rfl, ⟨updated, claimToken⟩, ?_, rfl⟩
      rw [claimsIn_cons_self ⟨updated, claimToken⟩]
      rfl
    · rw [claimsIn_cons_of_ne _ hne]
      exact h.leased e hold hstatus
  · intro claim hclaim
    rcases List.mem_cons.mp hclaim with rfl | hold
    · exact ⟨updated, Table.find?_replace_self (by
        rw [show updated.outboxEventId = event.outboxEventId from rfl, Table.find?_of_mem hevent]
        rfl), rfl⟩
    · obtain ⟨e, he, hkey⟩ := h.known claim hold
      rcases find?_updateOutbox he updated with ⟨hid, hnew⟩ | ⟨_, hsame⟩
      · have hsame : e = event := s.outbox.eq_of_key_eq (Table.find?_mem he) hevent
          ((Table.find?_key he).trans hid)
        rw [hsame] at hkey
        exact ⟨updated, hnew, hkey⟩
      · exact ⟨e, hsame, hkey⟩

/-- An acknowledgement: the event is no longer being published, and has not failed. -/
structure OutboxEvent.Acknowledges (updated event : OutboxEvent) : Prop where
  continues : event.Continues updated
  publishAttempt : updated.publishAttempt = event.publishAttempt
  publishing : updated.status ≠ .publishing
  failed : updated.status ≠ .failed

theorem OutboxEvent.publish_acknowledges (event : OutboxEvent) (messageId : String)
    (now : Timestamp) : (event.publish messageId now).Acknowledges event :=
  ⟨⟨rfl, rfl, rfl⟩, rfl, OutboxStatus.noConfusion, OutboxStatus.noConfusion⟩

theorem OutboxEvent.retryLater_acknowledges (event : OutboxEvent) (errorCode : String)
    (retrySeconds : ℤ) (now : Timestamp) :
    (event.retryLater errorCode retrySeconds now).Acknowledges event :=
  ⟨⟨rfl, rfl, rfl⟩, rfl, OutboxStatus.noConfusion, OutboxStatus.noConfusion⟩

variable {updated : OutboxEvent} {P : Store → List ClaimedOutbox → Prop}
  {dispatcherId claimToken : String} {tokens : String → String} {batchSize : ℤ}

theorem Tracked.acknowledge (h : Tracked stableHash s claimed)
    (hevent : event ∈ s.outbox.rows) (hack : updated.Acknowledges event) :
    Tracked stableHash (s.updateOutbox updated) claimed := by
  have hid := hack.continues.outboxEventId
  refine ⟨?_, ?_, ?_, h.failures.updateOutbox hevent hid hack.failed⟩
  · intro e he
    rcases mem_updateOutbox he hevent hid with rfl | hold
    · rw [hack.publishAttempt, hid]
      exact h.counted event hevent
    · exact h.counted e hold
  · intro e he hstatus
    rcases mem_updateOutbox he hevent hid with rfl | hold
    · exact absurd hstatus hack.publishing
    · exact h.leased e hold hstatus
  · intro claim hclaim
    obtain ⟨e, he, hkey⟩ := h.known claim hclaim
    rcases find?_updateOutbox he updated with ⟨hsame, hnew⟩ | ⟨_, hold⟩
    · obtain rfl : e = event := s.outbox.eq_of_key_eq (Table.find?_mem he) hevent
        ((Table.find?_key he).trans (hsame.trans hid))
      exact ⟨updated, hnew, hack.continues.messageDeduplicationKey.trans hkey⟩
    · exact ⟨e, hold, hkey⟩

theorem rest_of_updateOutbox (updated : OutboxEvent) {rest : List OutboxEvent}
    (hnot : updated.outboxEventId ∉ rest.map OutboxEvent.outboxEventId)
    (hstored : ∀ other ∈ rest, other ∈ s.outbox.rows) :
    ∀ other ∈ rest, other ∈ (s.updateOutbox updated).outbox.rows := by
  intro other hother
  have hne : other.outboxEventId ≠ updated.outboxEventId := by
    intro hid
    exact hnot (hid ▸ List.mem_map_of_mem hother)
  have hfind : (s.updateOutbox updated).outbox.find? other.outboxEventId = some other := by
    rw [Store.updateOutbox_outbox, Table.find?_replace_of_ne _ hne]
    exact Table.find?_of_mem (hstored other hother)
  exact Table.find?_mem hfind

/-- The rule for the loop of `claim_outbox`: every iteration claims a stored event
that no earlier iteration has touched. -/
theorem claimLoop_rule {leaseUntil : Timestamp} {events : List OutboxEvent}
    (hstep : ∀ u claimed event, P u claimed → event ∈ events → event ∈ u.outbox.rows →
      let updated := event.claim stableHash dispatcherId (tokens event.outboxEventId) leaseUntil now
      P (u.updateOutbox updated) (⟨updated, tokens event.outboxEventId⟩ :: claimed))
    (hP : P s claimed) (hnodup : (events.map OutboxEvent.outboxEventId).Nodup)
    (hstored : ∀ event ∈ events, event ∈ s.outbox.rows) :
    let result := claimLoop stableHash dispatcherId tokens leaseUntil now events s
    P result.2 (result.1.reverse ++ claimed) := by
  induction events generalizing s claimed with
  | nil => exact hP
  | cons event rest ih =>
    rw [List.map_cons, List.nodup_cons] at hnodup
    let updated := event.claim stableHash dispatcherId (tokens event.outboxEventId) leaseUntil now
    have hnext := hstep s claimed event hP List.mem_cons_self (hstored event List.mem_cons_self)
    have hrest := rest_of_updateOutbox updated hnodup.1
      fun other hother => hstored other (List.mem_cons_of_mem _ hother)
    have htail := ih (fun u c e hu he => hstep u c e hu (List.mem_cons_of_mem _ he)) hnext
      hnodup.2 hrest
    simp only [claimLoop, List.reverse_cons, List.append_assoc, List.singleton_append]
    exact htail

theorem limited_sublist {α : Type} (batchSize : ℤ) (rows : List α) :
    (limited batchSize rows).Sublist rows := by
  unfold limited
  split_ifs
  · exact .refl rows
  · exact List.take_sublist _ rows

theorem mem_claimableOutbox (h : event ∈ s.claimableOutbox batchSize now) :
    event ∈ s.outbox.rows ∧ event.Claimable now := by
  have hmem := (limited_sublist _ _).subset h
  rw [List.mem_insertionSort, List.mem_filter] at hmem
  exact ⟨hmem.1, of_decide_eq_true hmem.2⟩

theorem nodup_claimableOutbox (s : Store) (batchSize : ℤ) (now : Timestamp) :
    ((s.claimableOutbox batchSize now).map OutboxEvent.outboxEventId).Nodup := by
  have hperm := (List.perm_insertionSort (fun a b : OutboxEvent => a.createdAt ≤ b.createdAt)
    (s.outbox.rows.filter fun e => e.Claimable now)).map OutboxEvent.outboxEventId
  have hsorted := hperm.nodup_iff.mpr (s.outbox.nodup.sublist (List.filter_sublist.map _))
  exact hsorted.sublist ((limited_sublist _ _).map _)

/-- The rule for `claim_outbox`. -/
theorem claimOutbox_rule {leaseSeconds : ℤ}
    (hstep : ∀ u claimed event, P u claimed → event ∈ s.outbox.rows → event.Claimable now →
      event ∈ u.outbox.rows →
      let updated := event.claim stableHash dispatcherId (tokens event.outboxEventId)
        (now.after leaseSeconds) now
      P (u.updateOutbox updated) (⟨updated, tokens event.outboxEventId⟩ :: claimed))
    {c : List ClaimedOutbox} (hP : P s c) :
    let result := claimOutbox stableHash dispatcherId batchSize leaseSeconds tokens now s
    P result.2 (result.1.reverse ++ c) := by
  apply claimLoop_rule _ hP (nodup_claimableOutbox s batchSize now)
  · exact fun event hevent => (mem_claimableOutbox hevent).1
  · intro u claimed event hu hevent hmem
    obtain ⟨hstored, hclaimable⟩ := mem_claimableOutbox hevent
    exact hstep u claimed event hu hstored hclaimable hmem

theorem Tracked.claimOutbox (h : Tracked stableHash s claimed) (dispatcherId : String)
    (batchSize leaseSeconds : ℤ) (tokens : String → String) (now : Timestamp) :
    let result := claimOutbox stableHash dispatcherId batchSize leaseSeconds tokens now s
    Tracked stableHash result.2 (result.1.reverse ++ claimed) := by
  apply claimOutbox_rule _ h
  intro u claimed event hu _ _ hmem
  exact hu.claim hmem dispatcherId _ _ now

def Acknowledged (stableHash : String → String) (s : Store) (eventId claimToken : String)
    (t : Store) : Prop :=
  t = s ∨ ∃ event updated, s.outbox.find? eventId = some event ∧ event.status = .publishing ∧
    event.claimTokenHash = some (stableHash claimToken) ∧ updated.Acknowledges event ∧
    t = s.updateOutbox updated

theorem markOutboxPublished_acknowledged (eventId claimToken messageId : String)
    (now : Timestamp) (s : Store) : Acknowledged stableHash s eventId claimToken
      (markOutboxPublished stableHash eventId claimToken messageId now s).2 := by
  unfold markOutboxPublished
  rcases commit_cases s _ with ⟨e, h⟩ | ⟨x, t, hx, h⟩
  · exact .inl (by rw [h])
  · simp only [except_bind_eq_ok_iff, orError_eq_ok_iff, ensure_eq_ok_iff, except_pure_eq_ok_iff,
      Prod.mk.injEq] at hx
    obtain ⟨event, hevent, _, hclaimed, _, htoken, rfl, rfl⟩ := hx
    exact .inr ⟨event, event.publish messageId now, hevent, hclaimed.1, htoken,
      event.publish_acknowledges messageId now, by rw [h]⟩

theorem markOutboxPublishFailed_acknowledged (eventId claimToken errorCode : String)
    (retrySeconds : ℤ) (now : Timestamp) (s : Store) :
    Acknowledged stableHash s eventId claimToken
      (markOutboxPublishFailed stableHash eventId claimToken errorCode retrySeconds now s).2 := by
  unfold markOutboxPublishFailed
  rcases commit_cases s _ with ⟨e, h⟩ | ⟨x, t, hx, h⟩
  · exact .inl (by rw [h])
  · simp only [except_bind_eq_ok_iff, orError_eq_ok_iff, ensure_eq_ok_iff, except_pure_eq_ok_iff,
      Prod.mk.injEq] at hx
    obtain ⟨event, hevent, _, ⟨hclaimed, htoken⟩, rfl, rfl⟩ := hx
    exact .inr ⟨event, event.retryLater errorCode retrySeconds now, hevent, hclaimed.1, htoken,
      event.retryLater_acknowledges errorCode retrySeconds now, by rw [h]⟩

theorem Tracked.acknowledged (h : Tracked stableHash s claimed)
    (hack : Acknowledged stableHash s eventId claimToken t) :
    Tracked stableHash t claimed := by
  rcases hack with rfl | ⟨event, updated, hevent, _, _, hack, rfl⟩
  · exact h
  · exact h.acknowledge (Table.find?_mem hevent) hack

def OutboxEvent.Settled (e : OutboxEvent) : Prop := e.status = .published ∨ e.status = .failed

theorem OutboxEvent.Claimable.not_settled (h : e.Claimable now) : ¬ e.Settled := by
  rintro (hs | hs) <;> rcases h.1 with hp | ⟨hp, _⟩ <;> rw [hs] at hp <;> cases hp

theorem OutboxEvent.not_settled_of_publishing (h : e.status = .publishing) : ¬ e.Settled := by
  rintro (hs | hs) <;> rw [hs] at h <;> cases h

def Store.KeepsEvents (s t : Store) : Prop :=
  ∀ id e, s.outbox.find? id = some e →
    ∃ e', t.outbox.find? id = some e' ∧ e.Continues e' ∧ (e.Settled → e'.Settled)

theorem Store.KeepsEvents.refl (s : Store) : s.KeepsEvents s :=
  fun _ e he => ⟨e, he, .refl e, fun h => h⟩

theorem Store.KeepsEvents.trans {s u : Store} (h : s.KeepsEvents t) (h' : t.KeepsEvents u) :
    s.KeepsEvents u := by
  intro id e he
  obtain ⟨e', he', hcont, hsettled⟩ := h id e he
  obtain ⟨e'', he'', hcont', hsettled'⟩ := h' id e' he'
  exact ⟨e'', he'', hcont.trans hcont', fun hs => hsettled' (hsettled hs)⟩

theorem keepsEvents_perform (s : Store) (c : StoreCall) :
    s.KeepsEvents (s.perform stableHash c) := by
  intro id e he
  obtain ⟨e', he', hmove⟩ := perform_outbox stableHash he c
  refine ⟨e', he', hmove.continues, fun hs => ?_⟩
  cases hmove with
  | kept => exact hs
  | consumed => exact .inl rfl
  | failed => exact .inr (e.supersede_status _)

theorem keepsEvents_updateOutbox (hevent : event ∈ s.outbox.rows)
    (hcont : event.Continues updated) (hopen : ¬ event.Settled) :
    s.KeepsEvents (s.updateOutbox updated) := by
  intro id e he
  rcases find?_updateOutbox he updated with ⟨hid, hnew⟩ | ⟨_, hold⟩
  · obtain rfl : e = event := s.outbox.eq_of_key_eq (Table.find?_mem he) hevent
      ((Table.find?_key he).trans (hid.trans hcont.outboxEventId))
    exact ⟨updated, hnew, hcont, fun hs => absurd hs hopen⟩
  · exact ⟨e, hold, .refl e, fun hs => hs⟩

theorem keepsEvents_claimOutbox (s : Store) (dispatcherId : String)
    (batchSize leaseSeconds : ℤ) (tokens : String → String) (now : Timestamp) :
    s.KeepsEvents
      (claimOutbox stableHash dispatcherId batchSize leaseSeconds tokens now s).2 := by
  apply claimOutbox_rule (P := fun u _ => s.KeepsEvents u) (c := [])
  · intro u _ event hu _ hclaimable hmem
    apply hu.trans
    apply keepsEvents_updateOutbox hmem
    · exact ⟨rfl, rfl, rfl⟩
    · exact hclaimable.not_settled
  · exact .refl s

theorem Acknowledged.keepsEvents
    (h : Acknowledged stableHash s eventId claimToken t) : s.KeepsEvents t := by
  rcases h with rfl | ⟨event, updated, hevent, hstatus, _, hack, rfl⟩
  · exact .refl t
  · exact keepsEvents_updateOutbox (Table.find?_mem hevent) hack.continues
      (OutboxEvent.not_settled_of_publishing hstatus)

theorem claimsIn_claimOutbox_of_settled (he : s.outbox.find? id = some e) (hsettled : e.Settled)
    (dispatcherId : String) (batchSize leaseSeconds : ℤ) (tokens : String → String)
    (now : Timestamp) :
    let result := claimOutbox stableHash dispatcherId batchSize leaseSeconds tokens now s
    claimsIn (result.1.reverse ++ claimed) id = claimsIn claimed id := by
  apply claimOutbox_rule (P := fun _ c => claimsIn c id = claimsIn claimed id)
  · intro u c event hc hstored hclaimable _
    rw [← hc]
    apply claimsIn_cons_of_ne
    intro hid
    have hsame : event = e := s.outbox.eq_of_key_eq hstored (Table.find?_mem he)
      (hid.trans (Table.find?_key he).symm)
    exact hclaimable.not_settled (hsame ▸ hsettled)
  · rfl

theorem failed_claimOutbox (s : Store) (dispatcherId : String) (batchSize leaseSeconds : ℤ)
    (tokens : String → String) (now : Timestamp) :
    ∀ e ∈ (claimOutbox stableHash dispatcherId batchSize leaseSeconds tokens now s).2.outbox.rows,
      e.status = .failed → e ∈ s.outbox.rows := by
  apply claimOutbox_rule (P := fun u _ => ∀ e ∈ u.outbox.rows, e.status = .failed →
    e ∈ s.outbox.rows) (c := [])
  · intro u _ event hu _ _ hmem updated e he hfailed
    rcases mem_updateOutbox he hmem rfl with rfl | hold
    · cases hfailed
    · exact hu e hold hfailed
  · exact fun e he _ => he

theorem mem_claimed_of_batch {batch : List ClaimedOutbox} {claim : ClaimedOutbox}
    (h : claim ∈ batch) : claim ∈ batch.reverse ++ claimed :=
  List.mem_append_left _ (List.mem_reverse.mpr h)

end Hashing

namespace OutboxSystem

variable (stableHash : String → String)

structure Inv (d : OutboxSystem) : Prop where
  tracked : Tracked stableHash d.store d.claimed
  held : ∀ p ∈ d.dispatchers, ∀ claim ∈ p.claims, claim ∈ d.claimed
  sent : ∀ m ∈ d.messages, ∃ e, d.store.outbox.find? m.outboxEventId = some e ∧
    m.deduplicationKey = e.messageDeduplicationKey

/-- What a step does to the store and to the claims, and whose token it presents. -/
inductive Effect (d : OutboxSystem) : OutboxLabel → OutboxSystem → Prop
  | called {c : StoreCall} {d' : OutboxSystem} (store : d'.store = d.store.perform stableHash c)
      (claimed : d'.claimed = d.claimed) : Effect d (.call c) d'
  | claimed {dispatcherId : String} {batchSize leaseSeconds : ℤ} {tokens : String → String}
      {now : Timestamp} {d' : OutboxSystem}
      (store : d'.store =
        (claimOutbox stableHash dispatcherId batchSize leaseSeconds tokens now d.store).2)
      (claimed : d'.claimed =
        (claimOutbox stableHash dispatcherId batchSize leaseSeconds tokens now d.store).1.reverse ++
          d.claimed) : Effect d (.claim dispatcherId batchSize leaseSeconds tokens now) d'
  | acknowledged {label : OutboxLabel} {eventId claimToken : String} {d' : OutboxSystem}
      (presented : d.presented label = some (eventId, claimToken))
      (store : Acknowledged stableHash d.store eventId claimToken d'.store)
      (claimed : d'.claimed = d.claimed) : Effect d label d'
  | idle {label : OutboxLabel} {d' : OutboxSystem} (presented : d.presented label = none)
      (store : d'.store = d.store) (claimed : d'.claimed = d.claimed) : Effect d label d'

variable {stableHash} {d d' : OutboxSystem} {label : OutboxLabel}

/-- A mark writes the store only: the claims and the messages stay. -/
theorem mark_fields (k : ℕ) (rest : List ClaimedOutbox)
    (result : Except StoreError OutboxEvent × Store) :
    (d.mark k rest result).store = result.2 ∧ (d.mark k rest result).claimed = d.claimed ∧
      (d.mark k rest result).messages = d.messages := by
  unfold mark
  split <;> exact ⟨rfl, rfl, rfl⟩

/-- Whatever `publish` did, the mark acknowledges the claim at hand. -/
theorem mark_step {k : ℕ} {now : Timestamp} (h : d.step stableHash (.mark k now) = some d') :
    ∃ claim rest publication result, d.dispatchers[k]? = some ⟨claim :: rest, publication⟩ ∧
      Acknowledged stableHash d.store claim.event.outboxEventId claim.claimToken result.2 ∧
      d' = d.mark k rest result := by
  simp only [step] at h
  split at h
  · rename_i hp
    cases h
    exact ⟨_, _, _, _, hp, markOutboxPublished_acknowledged _ _ _ _ _, rfl⟩
  · rename_i hp
    cases h
    exact ⟨_, _, _, _, hp, markOutboxPublishFailed_acknowledged _ _ _ _ _ _, rfl⟩
  · cases h

theorem step_effect (h : d.step stableHash label = some d') : Effect stableHash d label d' := by
  cases label with
  | call c =>
    cases h
    exact .called rfl rfl
  | claim dispatcherId batchSize leaseSeconds tokens now =>
    cases h
    exact .claimed rfl rfl
  | publish k publication =>
    simp only [step] at h
    split at h
    · cases h
      exact .idle rfl rfl rfl
    · cases h
  | mark k now =>
    obtain ⟨claim, rest, publication, result, hp, hack, rfl⟩ := mark_step h
    have hpresented : d.presented (.mark k now) =
        some (claim.event.outboxEventId, claim.claimToken) := by
      rw [presented, hp]
      rfl
    obtain ⟨hstore, hclaimed, -⟩ := mark_fields (d := d) k rest result
    exact .acknowledged hpresented (hstore ▸ hack) hclaimed
  | crash k =>
    simp only [step] at h
    split_ifs at h
    cases h
    exact .idle rfl rfl rfl
  | markPublished eventId claimToken messageId now =>
    cases h
    exact .acknowledged rfl (markOutboxPublished_acknowledged _ _ _ _ _) rfl
  | markPublishFailed eventId claimToken errorCode retrySeconds now =>
    cases h
    exact .acknowledged rfl (markOutboxPublishFailed_acknowledged _ _ _ _ _ _) rfl

theorem Effect.keepsEvents (h : Effect stableHash d label d') :
    d.store.KeepsEvents d'.store := by
  cases h with
  | called store => exact store ▸ keepsEvents_perform d.store _
  | claimed store => exact store ▸ keepsEvents_claimOutbox d.store _ _ _ _ _
  | acknowledged _ store => exact store.keepsEvents
  | idle _ store => exact store ▸ .refl d.store

theorem Effect.tracked (h : Effect stableHash d label d')
    (hd : Tracked stableHash d.store d.claimed) : Tracked stableHash d'.store d'.claimed := by
  cases h with
  | called store claimed =>
    rw [store, claimed]
    exact hd.perform _
  | claimed store claimed =>
    rw [store, claimed]
    exact hd.claimOutbox _ _ _ _ _
  | acknowledged _ store claimed =>
    rw [claimed]
    exact hd.acknowledged store
  | idle _ store claimed =>
    rw [store, claimed]
    exact hd

variable {e : OutboxEvent}

theorem Effect.claimsOf_of_settled (h : Effect stableHash d label d')
    (he : d.store.outbox.find? id = some e) (hsettled : e.Settled) :
    d'.claimsOf id = d.claimsOf id := by
  cases h with
  | claimed _ claimed =>
    rw [claimsOf, claimed]
    exact claimsIn_claimOutbox_of_settled he hsettled _ _ _ _ _
  | called _ claimed => rw [claimsOf, claimed, claimsOf]
  | acknowledged _ _ claimed | idle _ _ claimed => rw [claimsOf, claimed, claimsOf]

theorem Inv.empty : Inv stableHash .empty := by
  refine ⟨.empty, ?_, ?_⟩ <;> simp [OutboxSystem.empty]

/-- The dispatchers hold only claims that were made. -/
theorem held_step (hd : ∀ p ∈ d.dispatchers, ∀ claim ∈ p.claims, claim ∈ d.claimed)
    (h : d.step stableHash label = some d') :
    ∀ p ∈ d'.dispatchers, ∀ claim ∈ p.claims, claim ∈ d'.claimed := by
  have hmark : ∀ k claim rest publication (result : Except StoreError OutboxEvent × Store),
      d.dispatchers[k]? = some ⟨claim :: rest, publication⟩ →
      ∀ p ∈ (d.mark k rest result).dispatchers, ∀ claim ∈ p.claims, claim ∈ d.claimed := by
    intro k claim rest publication result hp p hmem other hother
    unfold mark at hmem
    split at hmem
    · rcases List.mem_or_eq_of_mem_set hmem with hold | rfl
      · exact hd p hold other hother
      · exact hd _ (List.mem_of_getElem? hp) other (List.mem_cons_of_mem _ hother)
    · exact hd p (List.mem_of_mem_eraseIdx hmem) other hother
  cases label with
  | call | markPublished | markPublishFailed =>
    cases h
    exact hd
  | claim dispatcherId batchSize leaseSeconds tokens now =>
    cases h
    intro p hp claim hclaim
    rcases List.mem_append.mp hp with hold | hnew
    · exact List.mem_append_right _ (hd p hold claim hclaim)
    · rw [List.mem_singleton.mp hnew] at hclaim
      exact mem_claimed_of_batch hclaim
  | publish k publication =>
    simp only [step] at h
    split at h
    · rename_i claim rest hp
      cases h
      intro p hmem other hother
      rcases List.mem_or_eq_of_mem_set hmem with hold | rfl
      · exact hd p hold other hother
      · exact hd _ (List.mem_of_getElem? hp) other hother
    · cases h
  | mark k now =>
    obtain ⟨_, rest, _, result, hp, -, rfl⟩ := mark_step h
    rw [(mark_fields k rest result).2.1]
    exact hmark _ _ _ _ _ hp
  | crash k =>
    simp only [step] at h
    split_ifs at h
    cases h
    exact fun p hp => hd p (List.mem_of_mem_eraseIdx hp)

/-- A message is sent for a claim that a dispatcher holds. -/
theorem messages_step (h : d.step stableHash label = some d') :
    ∀ m ∈ d'.messages, m ∈ d.messages ∨ ∃ p ∈ d.dispatchers, ∃ claim ∈ p.claims,
      m.outboxEventId = claim.event.outboxEventId ∧
        m.deduplicationKey = claim.event.messageDeduplicationKey := by
  intro m hm
  cases label with
  | publish k publication =>
    simp only [step] at h
    split at h
    · rename_i claim rest hp
      cases h
      rcases List.mem_append.mp hm with hold | hnew
      · exact .inl hold
      · rw [List.mem_singleton.mp hnew]
        exact .inr ⟨_, List.mem_of_getElem? hp, claim, List.mem_cons_self, rfl, rfl⟩
    · cases h
  | mark k now =>
    obtain ⟨_, rest, _, result, -, -, rfl⟩ := mark_step h
    rw [(mark_fields k rest result).2.2] at hm
    exact .inl hm
  | crash k =>
    simp only [step] at h
    split_ifs at h
    cases h
    exact .inl hm
  | call | claim | markPublished | markPublishFailed =>
    cases h
    exact .inl hm

theorem Inv.step (hd : Inv stableHash d) (h : d.step stableHash label = some d') :
    Inv stableHash d' := by
  have heffect := step_effect h
  refine ⟨heffect.tracked hd.tracked, held_step hd.held h, ?_⟩
  have hkept : ∀ (m : Message) e, d.store.outbox.find? m.outboxEventId = some e →
      m.deduplicationKey = e.messageDeduplicationKey →
      ∃ e', d'.store.outbox.find? m.outboxEventId = some e' ∧
        m.deduplicationKey = e'.messageDeduplicationKey := by
    intro m e he hkey
    obtain ⟨e', he', hcont, _⟩ := heffect.keepsEvents _ _ he
    exact ⟨e', he', hkey.trans hcont.messageDeduplicationKey.symm⟩
  intro m hm
  rcases messages_step h m hm with hold | ⟨p, hp, claim, hclaim, hid, hkey⟩
  · obtain ⟨e, he, hkey⟩ := hd.sent m hold
    exact hkept m e he hkey
  · obtain ⟨e, he, hsame⟩ := hd.tracked.known claim (hd.held p hp claim hclaim)
    exact hkept m e (hid ▸ he) (hkey.trans hsame.symm)

/-- An event is waiting, leased to its last claim, published, or failed together with
its attempt. -/
def Accounted (stableHash : String → String) (d : OutboxSystem) (e : OutboxEvent) : Prop :=
  match e.status with
  | .pending | .published => True
  | .publishing => e.leaseUntil.isSome ∧
    ∃ claim, (d.claimsOf e.outboxEventId).head? = some claim ∧
      e.claimTokenHash = some (stableHash claim.claimToken)
  | .failed => e.lastPublishErrorCode = some "attempt_superseded_on_restart" ∧
    ∃ a, d.store.attempts.find? e.attemptId = some a ∧ a.status.Final

theorem Inv.accounted (hd : Inv stableHash d)
    (he : e ∈ d.store.outbox.rows) : d.Accounted stableHash e := by
  unfold Accounted
  split
  · trivial
  · trivial
  · rename_i hstatus
    exact hd.tracked.leased e he hstatus
  · rename_i hstatus
    exact hd.tracked.failures e he hstatus

/-- What holds in a state of the outbox system, at its next step, and after it. -/
structure Protocol (stableHash : String → String) (d : OutboxSystem) : Prop where
  /-- a settled event is not claimed again -/
  settled : ∀ labels d', (machine stableHash).Run Machine.Free d labels d' →
    ∀ e ∈ d.store.outbox.rows, e.Settled →
      d'.claimsOf e.outboxEventId = d.claimsOf e.outboxEventId
  /-- a presented token changes no event but the one whose last claim it belongs to -/
  fenced : ∀ label d', d.step stableHash label = some d' →
    ∀ eventId claimToken, d.presented label = some (eventId, claimToken) →
      ∀ id, d'.store.outbox.find? id ≠ d.store.outbox.find? id → id = eventId ∧
        ∃ claim, (d.claimsOf eventId).head? = some claim ∧
          stableHash claimToken = stableHash claim.claimToken ∧
          (Function.Injective stableHash → claimToken = claim.claimToken)
  /-- without a token, an event is claimed, acknowledged locally or failed -/
  unfenced : ∀ label d', d.step stableHash label = some d' → d.presented label = none →
    ∀ id e e', d.store.outbox.find? id = some e → d'.store.outbox.find? id = some e' → e' ≠ e →
      (∃ dispatcherId batchSize leaseSeconds tokens now,
        label = .claim dispatcherId batchSize leaseSeconds tokens now) ∨
      ∃ c, label = .call c ∧ OutboxMove c e e'
  counted : ∀ e ∈ d.store.outbox.rows, e.publishAttempt = (d.claimsOf e.outboxEventId).length
  /-- no event is lost, and only a recovery fails one -/
  kept : ∀ labels d', (machine stableHash).Run Machine.Free d labels d' →
    ∀ e ∈ d.store.outbox.rows, ∃ e' ∈ d'.store.outbox.rows, e.Continues e'
  accounted : ∀ e ∈ d.store.outbox.rows, d.Accounted stableHash e
  failed : ∀ label d', d.step stableHash label = some d' → ∀ e ∈ d'.store.outbox.rows,
    e.status = .failed → e ∈ d.store.outbox.rows ∨
      ∃ fresh now, label = .call ⟨.recoverIncompleteJobs fresh, now⟩
  sameKey : ∀ m ∈ d.messages, ∀ m' ∈ d.messages, m.outboxEventId = m'.outboxEventId →
    m.deduplicationKey = m'.deduplicationKey

theorem Effect.failed (h : Effect stableHash d label d') :
    ∀ e ∈ d'.store.outbox.rows, e.status = .failed → e ∈ d.store.outbox.rows ∨
      ∃ fresh now, label = .call ⟨.recoverIncompleteJobs fresh, now⟩ := by
  intro e he hfailed
  cases h with
  | @called c _ store =>
    rw [store] at he
    rcases failed_perform d.store c e he hfailed with hold | ⟨fresh, hop⟩
    · exact .inl hold
    · obtain ⟨op, now⟩ := c
      obtain rfl : op = .recoverIncompleteJobs fresh := hop
      exact .inr ⟨fresh, now, rfl⟩
  | claimed store =>
    rw [store] at he
    exact .inl (failed_claimOutbox _ _ _ _ _ _ e he hfailed)
  | acknowledged _ store =>
    left
    rcases store with hsame | ⟨event, updated, hevent, _, _, hack, hstore⟩
    · exact hsame ▸ he
    · rw [hstore] at he
      rcases mem_updateOutbox he (Table.find?_mem hevent) hack.continues.outboxEventId with
        rfl | hold
      · exact absurd hfailed hack.failed
      · exact hold
  | idle _ store => exact .inl (store ▸ he)

/-- Nobody but the holder of the last claim acknowledges an event. -/
theorem Effect.fenced (h : Effect stableHash d label d') (hd : Inv stableHash d)
    {eventId claimToken : String} (hpresented : d.presented label = some (eventId, claimToken))
    (hchanged : d'.store.outbox.find? id ≠ d.store.outbox.find? id) :
    id = eventId ∧ ∃ claim, (d.claimsOf eventId).head? = some claim ∧
      stableHash claimToken = stableHash claim.claimToken ∧
      (Function.Injective stableHash → claimToken = claim.claimToken) := by
  cases h with
  | called | claimed => cases hpresented
  | idle hnone =>
    rw [hnone] at hpresented
    cases hpresented
  | acknowledged hsome store =>
    rw [hsome] at hpresented
    cases hpresented
    rcases store with hsame | ⟨event, updated, hevent, hstatus, htoken, hack, hstore⟩
    · rw [hsame] at hchanged
      exact absurd rfl hchanged
    · have hid : updated.outboxEventId = eventId :=
        hack.continues.outboxEventId.trans (Table.find?_key hevent)
      obtain ⟨_, claim, hclaim, hhash⟩ :=
        hd.tracked.leased event (Table.find?_mem hevent) hstatus
      rw [Table.find?_key hevent] at hclaim
      have hsame := Option.some.inj (htoken.symm.trans hhash)
      refine ⟨?_, claim, hclaim, hsame, fun hinj => hinj hsame⟩
      by_contra hne
      apply hchanged
      rw [hstore, Store.updateOutbox_outbox, Table.find?_replace_of_ne _ (hid ▸ hne)]

theorem Effect.unfenced (h : Effect stableHash d label d') (hnone : d.presented label = none)
    {e' : OutboxEvent} (he : d.store.outbox.find? id = some e)
    (he' : d'.store.outbox.find? id = some e') (hchanged : e' ≠ e) :
    (∃ dispatcherId batchSize leaseSeconds tokens now,
      label = .claim dispatcherId batchSize leaseSeconds tokens now) ∨
    ∃ c, label = .call c ∧ OutboxMove c e e' := by
  cases h with
  | @called c _ store =>
    obtain ⟨moved, hmoved, hmove⟩ := perform_outbox stableHash he c
    rw [store, hmoved] at he'
    cases he'
    exact .inr ⟨c, rfl, hmove⟩
  | claimed => exact .inl ⟨_, _, _, _, _, rfl⟩
  | acknowledged hsome =>
    rw [hsome] at hnone
    cases hnone
  | idle _ store =>
    rw [store, he] at he'
    cases he'
    exact absurd rfl hchanged

theorem Inv.sameKey (hd : Inv stableHash d) : ∀ m ∈ d.messages, ∀ m' ∈ d.messages,
    m.outboxEventId = m'.outboxEventId → m.deduplicationKey = m'.deduplicationKey := by
  intro m hm m' hm' hid
  obtain ⟨e, he, hkey⟩ := hd.sent m hm
  obtain ⟨e', he', hkey'⟩ := hd.sent m' hm'
  rw [hid, he'] at he
  cases he
  exact hkey.trans hkey'.symm

variable {labels : List OutboxLabel}

theorem keepsEvents_run
    (h : (machine stableHash).Run Machine.Free d labels d') : d.store.KeepsEvents d'.store :=
  h.evolves (fun _ => True) (fun d d' => d.store.KeepsEvents d'.store) (fun d => .refl d.store)
    (fun _ _ _ h h' => h.trans h') (fun _ _ _ _ _ _ => trivial)
    (fun _ _ _ _ _ hstep => (step_effect hstep).keepsEvents) trivial

theorem claimsOf_run (h : (machine stableHash).Run Machine.Free d labels d')
    (he : d.store.outbox.find? id = some e) (hsettled : e.Settled) :
    d'.claimsOf id = d.claimsOf id := by
  induction h generalizing e with
  | nil => rfl
  | cons _ hstep _ ih =>
    have heffect := step_effect hstep
    obtain ⟨e', he', _, hkeeps⟩ := heffect.keepsEvents _ _ he
    rw [ih he' (hkeeps hsettled), heffect.claimsOf_of_settled he hsettled]

theorem Inv.protocol (hd : Inv stableHash d) : Protocol stableHash d where
  settled _ _ hrun _ he hsettled := claimsOf_run hrun (Table.find?_of_mem he) hsettled
  fenced _ _ hstep _ _ hpresented _ hchanged := (step_effect hstep).fenced hd hpresented hchanged
  unfenced _ _ hstep hnone _ _ _ he he' := (step_effect hstep).unfenced hnone he he'
  counted := hd.tracked.counted
  kept _ _ hrun e he := by
    obtain ⟨e', he', hcont, _⟩ := keepsEvents_run hrun _ _ (Table.find?_of_mem he)
    exact ⟨e', Table.find?_mem he', hcont⟩
  accounted _ he := hd.accounted he
  failed _ _ hstep := (step_effect hstep).failed
  sameKey := hd.sameKey

variable (stableHash)

/-- The protocol holds in every state that any number of dispatchers reaches. -/
def OutboxProtocol : Prop :=
  ∀ labels d, (machine stableHash).Run Machine.Free .empty labels d → Protocol stableHash d

theorem outboxProtocol : OutboxProtocol stableHash := by
  intro labels d hrun
  apply Inv.protocol
  exact hrun.invariant (Inv stableHash) (fun _ _ _ hd _ hstep => hd.step hstep) .empty

/-- A dispatcher loses its lease, and its late acknowledgement is refused. -/
def lostLease : List OutboxLabel :=
  [.call sampleCreate,
    .claim "slow" 10 30 (fun _ => "token_1") 2,
    .publish 0 (.sent "message_1"),
    .claim "fast" 10 30 (fun _ => "token_2") 40000000,
    .publish 1 (.sent "message_2"),
    .mark 0 41000000]

example : ((machine fun text => text).exec Machine.Free .empty lostLease).map (fun d =>
    (d.store.outbox.rows.map fun e => (e.status, e.publishAttempt), d.messages.length)) =
    some ([(.publishing, 2)], 2) := by
  decide +kernel

end OutboxSystem

end CodeResearch.ControlPlane
