import CodeResearch.ControlPlane.Operations

/-!
# Claiming and acknowledging outbox events

Dispatchers claim events under a lease and a token, publish them outside any
transaction, and acknowledge them with the token. Every other store call may
come in between, and so may calls of the three operations with any arguments.
-/
namespace CodeResearch.ControlPlane

structure ClaimedOutbox where
  event : OutboxEvent
  claimToken : String
  deriving DecidableEq

/-- `timedelta(seconds=...)`, added to a clock. -/
def Timestamp.after (now : Timestamp) (seconds : ℤ) : Timestamp :=
  ((now : ℤ) + seconds * 1000000).toNat

/-- The rows that `claim_outbox` selects. -/
def OutboxEvent.Claimable (event : OutboxEvent) (now : Timestamp) : Prop :=
  (event.status = .pending ∨
    (event.status = .publishing ∧ ∃ leaseUntil ∈ event.leaseUntil, leaseUntil < now)) ∧
  ∀ nextRetryAt ∈ event.nextRetryAt, nextRetryAt ≤ now

instance (event : OutboxEvent) (now : Timestamp) : Decidable (event.Claimable now) :=
  inferInstanceAs (Decidable (_ ∧ _))

/-- `LIMIT ?`; a negative limit is none. -/
def limited {α : Type} (batchSize : ℤ) (rows : List α) : List α :=
  if batchSize < 0 then rows else rows.take batchSize.toNat

def Store.claimableOutbox (s : Store) (batchSize : ℤ) (now : Timestamp) : List OutboxEvent :=
  limited batchSize <| (s.outbox.rows.filter fun e => e.Claimable now).insertionSort
    fun a b => a.createdAt ≤ b.createdAt

section Hashing

variable (stableHash : String → String)

/-- The row that `claim_outbox` writes. -/
def OutboxEvent.claim (event : OutboxEvent) (dispatcherId claimToken : String)
    (leaseUntil now : Timestamp) : OutboxEvent :=
  { event with
    status := .publishing
    claimTokenHash := some (stableHash claimToken)
    leaseOwnerHash := some (stableHash dispatcherId)
    leaseUntil := some leaseUntil
    publishAttempt := event.publishAttempt + 1
    updatedAt := now }

/-- The loop of `claim_outbox` over the rows it selected. -/
def claimLoop (dispatcherId : String) (tokens : String → String) (leaseUntil now : Timestamp) :
    List OutboxEvent → Store → List ClaimedOutbox × Store
  | [], s => ([], s)
  | event :: rest, s =>
    let claimToken := tokens event.outboxEventId
    let updated := event.claim stableHash dispatcherId claimToken leaseUntil now
    let (claimed, s) := claimLoop dispatcherId tokens leaseUntil now rest (s.updateOutbox updated)
    (⟨updated, claimToken⟩ :: claimed, s)

/-- `tokens` are the tokens drawn for the events of the batch. -/
def claimOutbox (dispatcherId : String) (batchSize leaseSeconds : ℤ) (tokens : String → String)
    (now : Timestamp) (s : Store) : List ClaimedOutbox × Store :=
  claimLoop stableHash dispatcherId tokens (now.after leaseSeconds) now
    (s.claimableOutbox batchSize now) s

/-- The row that `mark_outbox_published` writes. -/
def OutboxEvent.publish (event : OutboxEvent) (messageId : String) (now : Timestamp) :
    OutboxEvent :=
  { event with
    status := .published
    publishedMessageId := some messageId
    claimTokenHash := none
    leaseOwnerHash := none
    leaseUntil := none
    updatedAt := now }

/-- `event.status == "publishing" and event.claim_token_hash`. -/
def OutboxEvent.Claimed (event : OutboxEvent) : Prop :=
  event.status = .publishing ∧ ∃ hash ∈ event.claimTokenHash, hash ≠ ""

instance (event : OutboxEvent) : Decidable event.Claimed := inferInstanceAs (Decidable (_ ∧ _))

def markOutboxPublished (eventId claimToken messageId : String) (now : Timestamp) (s : Store) :
    Except StoreError OutboxEvent × Store :=
  commit s do
    let event ← orError (.controlPlane "outbox_not_found") (s.outbox.find? eventId)
    ensure event.Claimed (.controlPlane "outbox_not_claimed")
    ensure (event.claimTokenHash = some (stableHash claimToken))
      (.controlPlane "outbox_claim_lost")
    let updated := event.publish messageId now
    return (updated, s.updateOutbox updated)

/-- The row that `mark_outbox_publish_failed` writes. -/
def OutboxEvent.retryLater (event : OutboxEvent) (errorCode : String) (retrySeconds : ℤ)
    (now : Timestamp) : OutboxEvent :=
  { event with
    status := .pending
    claimTokenHash := none
    leaseOwnerHash := none
    leaseUntil := none
    lastPublishErrorCode := some errorCode
    nextRetryAt := some (now.after (max 1 retrySeconds))
    updatedAt := now }

def markOutboxPublishFailed (eventId claimToken errorCode : String) (retrySeconds : ℤ)
    (now : Timestamp) (s : Store) : Except StoreError OutboxEvent × Store :=
  commit s do
    let event ← orError (.controlPlane "outbox_not_found") (s.outbox.find? eventId)
    ensure (event.Claimed ∧ event.claimTokenHash = some (stableHash claimToken))
      (.controlPlane "outbox_claim_lost")
    let updated := event.retryLater errorCode retrySeconds now
    return (updated, s.updateOutbox updated)

end Hashing

/-- The arguments of `publish`, and the event that they are taken from. -/
structure Message where
  outboxEventId : String
  deduplicationKey : String
  taskSchemaVersion : ℕ
  deriving DecidableEq

/-- What `publish` did for the claim at hand. -/
inductive Publication
  | sent (messageId : String)
  | raised
  deriving DecidableEq

/-- A running `dispatch_once`: the claims it has not acknowledged yet, and what
`publish` did for the first of them. -/
structure Dispatcher where
  claims : List ClaimedOutbox
  publication : Option Publication
  deriving DecidableEq

def claimsIn (claimed : List ClaimedOutbox) (eventId : String) : List ClaimedOutbox :=
  claimed.filter fun c => c.event.outboxEventId = eventId

structure OutboxSystem where
  store : Store
  dispatchers : List Dispatcher
  /-- the claims made so far, the most recent one first -/
  claimed : List ClaimedOutbox
  messages : List Message

inductive OutboxLabel
  /-- any other call of the store, a recovery among them -/
  | call (c : StoreCall)
  /-- `dispatch_once` starts with a claim -/
  | claim (dispatcherId : String) (batchSize leaseSeconds : ℤ) (tokens : String → String)
      (now : Timestamp)
  | publish (k : ℕ) (publication : Publication)
  | mark (k : ℕ) (now : Timestamp)
  | crash (k : ℕ)
  /-- the operations called with any arguments -/
  | markPublished (eventId claimToken messageId : String) (now : Timestamp)
  | markPublishFailed (eventId claimToken errorCode : String) (retrySeconds : ℤ)
      (now : Timestamp)

namespace OutboxSystem

def empty : OutboxSystem := ⟨.empty, [], [], []⟩

variable (stableHash : String → String) (d : OutboxSystem)

def claimsOf (eventId : String) : List ClaimedOutbox := claimsIn d.claimed eventId

/-- The acknowledgement of the claim at hand; an error ends `dispatch_once`. -/
def mark (k : ℕ) (rest : List ClaimedOutbox)
    (result : Except StoreError OutboxEvent × Store) : OutboxSystem :=
  match result with
  | (.ok _, store) => { d with store, dispatchers := d.dispatchers.set k ⟨rest, none⟩ }
  | (.error _, store) => { d with store, dispatchers := d.dispatchers.eraseIdx k }

/-- One event; `none` if it cannot happen in the state. -/
def step : OutboxLabel → Option OutboxSystem
  | .call c => some { d with store := d.store.perform stableHash c }
  | .claim dispatcherId batchSize leaseSeconds tokens now =>
    let (claims, store) :=
      claimOutbox stableHash dispatcherId batchSize leaseSeconds tokens now d.store
    some { d with
      store
      dispatchers := d.dispatchers ++ [⟨claims, none⟩]
      claimed := claims.reverse ++ d.claimed }
  | .publish k publication =>
    match d.dispatchers[k]? with
    | some ⟨claim :: rest, none⟩ => some { d with
        dispatchers := d.dispatchers.set k ⟨claim :: rest, some publication⟩
        messages := d.messages ++ [⟨claim.event.outboxEventId,
          claim.event.messageDeduplicationKey, claim.event.taskSchemaVersion⟩] }
    | _ => none
  | .mark k now =>
    match d.dispatchers[k]? with
    | some ⟨claim :: rest, some (.sent messageId)⟩ =>
      some <| d.mark k rest <| markOutboxPublished stableHash claim.event.outboxEventId
        claim.claimToken messageId now d.store
    | some ⟨claim :: rest, some .raised⟩ =>
      some <| d.mark k rest <| markOutboxPublishFailed stableHash claim.event.outboxEventId
        claim.claimToken "broker_publish_failed" 5 now d.store
    | _ => none
  | .crash k =>
    if k < d.dispatchers.length then
      some { d with dispatchers := d.dispatchers.eraseIdx k }
    else none
  | .markPublished eventId claimToken messageId now =>
    some { d with
      store := (markOutboxPublished stableHash eventId claimToken messageId now d.store).2 }
  | .markPublishFailed eventId claimToken errorCode retrySeconds now =>
    some { d with
      store := (markOutboxPublishFailed stableHash eventId claimToken errorCode retrySeconds now
        d.store).2 }

def machine : Machine OutboxSystem OutboxLabel := ⟨step stableHash⟩

def presented : OutboxLabel → Option (String × String)
  | .mark k _ => d.dispatchers[k]?.bind fun p =>
    p.claims.head?.map fun claim => (claim.event.outboxEventId, claim.claimToken)
  | .markPublished eventId claimToken _ _ => some (eventId, claimToken)
  | .markPublishFailed eventId claimToken _ _ _ => some (eventId, claimToken)
  | _ => none

end OutboxSystem

end CodeResearch.ControlPlane
