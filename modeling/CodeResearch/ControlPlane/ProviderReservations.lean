import CodeResearch.ControlPlane.Outbox
import Mathlib.Data.Rat.Defs

/-!
# Reservations of provider calls

A reservation is settled or released by its holder, or a recovery finds that its lease
has run out. Whichever comes first closes it, and a closed reservation never changes.
Every statement writes its columns from the record, so the table holds the records.
-/
namespace CodeResearch.ControlPlane

inductive ReservationStatus
  | reserved | settled | released | expired
  deriving DecidableEq

/-- The arguments of `reserve`; a cost is finite. -/
structure ReservationRequest where
  workspaceId : String
  projectId : Option String
  providerProfileId : String
  modelId : String
  jobId : String
  attemptId : String
  estimatedTokens : ℤ
  estimatedCost : Option ℚ
  leaseSeconds : ℤ

structure ProviderReservation where
  reservationId : String
  workspaceId : String
  projectId : Option String
  providerProfileId : String
  modelId : String
  jobId : String
  attemptId : String
  estimatedTokens : ℤ
  estimatedCost : Option ℚ
  actualTokens : Option ℤ
  actualCost : Option ℚ
  leaseUntil : Timestamp
  status : ReservationStatus
  createdAt : Timestamp
  updatedAt : Timestamp

namespace ProviderReservation

variable (r : ProviderReservation)

/-- `Field(ge=0)`. -/
def Valid : Prop :=
  0 ≤ r.estimatedTokens ∧ (∀ cost ∈ r.estimatedCost, 0 ≤ cost) ∧
    (∀ tokens ∈ r.actualTokens, 0 ≤ tokens) ∧ ∀ cost ∈ r.actualCost, 0 ≤ cost

instance : Decidable r.Valid := inferInstanceAs (Decidable (_ ∧ _ ∧ _ ∧ _))

/-- The validation of a new record, and `model_validate_json`. -/
def validate : Except StoreError ProviderReservation :=
  if r.Valid then .ok r else .error .validation

def Expired (now : Timestamp) : Prop := r.status = .reserved ∧ r.leaseUntil < now

instance (now : Timestamp) : Decidable (r.Expired now) := inferInstanceAs (Decidable (_ ∧ _))

def expire (now : Timestamp) : ProviderReservation :=
  { r with status := .expired, updatedAt := now }

end ProviderReservation

abbrev ReservationTable := Table ProviderReservation.reservationId

inductive ReservationCall
  | reserve (request : ReservationRequest) (hex : String)
  | settle (reservationId : String) (actualTokens : ℤ) (actualCost : Option ℚ)
  | release (reservationId : String)
  | recoverExpired

namespace ReservationTable

variable (t : ReservationTable)

def reserve (request : ReservationRequest) (hex : String) (now : Timestamp) :
    Except StoreError (ProviderReservation × ReservationTable) := do
  let reservation ← ProviderReservation.validate { request with
    reservationId := "provider_reservation_" ++ hex
    actualTokens := none
    actualCost := none
    leaseUntil := now.after request.leaseSeconds
    status := .reserved
    createdAt := now
    updatedAt := now }
  let u ← orError .integrity (t.insert reservation)
  pure (reservation, u)

/-- `_finish`; the copy is written as it is, without a validation. -/
def finish (reservationId : String) (status : ReservationStatus) (actualTokens : Option ℤ)
    (actualCost : Option ℚ) (now : Timestamp) :
    Except StoreError (ProviderReservation × ReservationTable) := do
  let row ← orError (.controlPlane "provider_reservation_not_found") (t.find? reservationId)
  let reservation ← row.validate
  let _ ← ensure (reservation.status = .reserved) (.controlPlane "provider_reservation_terminal")
  let updated := { reservation with status, actualTokens, actualCost, updatedAt := now }
  pure (updated, t.replace updated)

def settle (reservationId : String) (actualTokens : ℤ) (actualCost : Option ℚ) (now : Timestamp) :
    Except StoreError (ProviderReservation × ReservationTable) :=
  t.finish reservationId .settled (some actualTokens) actualCost now

def release (reservationId : String) (now : Timestamp) :
    Except StoreError (ProviderReservation × ReservationTable) :=
  t.finish reservationId .released none none now

/-- The loop of `recover_expired`. -/
def expireAll (now : Timestamp) :
    List ProviderReservation → ReservationTable → Except StoreError ReservationTable
  | [], t => .ok t
  | row :: rows, t => do
    let reservation ← row.validate
    expireAll now rows (t.replace (reservation.expire now))

def recoverExpired (now : Timestamp) : Except StoreError (ℕ × ReservationTable) :=
  let rows := t.rows.filter fun row => row.Expired now
  (expireAll now rows t).map fun u => (rows.length, u)

/-- A call that raises is rolled back. -/
def committed {α : Type} : Except StoreError (α × ReservationTable) → ReservationTable
  | .ok (_, u) => u
  | .error _ => t

def perform : ReservationCall × Timestamp → ReservationTable
  | (.reserve request hex, now) => t.committed (t.reserve request hex now)
  | (.settle reservationId actualTokens actualCost, now) =>
    t.committed (t.settle reservationId actualTokens actualCost now)
  | (.release reservationId, now) => t.committed (t.release reservationId now)
  | (.recoverExpired, now) => t.committed (t.recoverExpired now)

/-- An open reservation is valid and has no actual values yet. -/
def Sound : Prop :=
  ∀ r ∈ t.rows, r.status = .reserved → r.Valid ∧ r.actualTokens = none ∧ r.actualCost = none

/-- What a run of calls leaves, and what the next calls do. -/
structure Closes : Prop where
  sound : t.Sound
  final : ∀ calls : List (ReservationCall × Timestamp), ∀ r ∈ t.rows, r.status ≠ .reserved →
    r ∈ (calls.foldl perform t).rows
  finishes : ∀ id status tokens cost now,
    (∃ answer, t.finish id status tokens cost now = .ok answer) ↔
      ∃ r ∈ t.rows, r.reservationId = id ∧ r.status = .reserved
  recovers : ∀ now, ∃ u,
    t.recoverExpired now = .ok ((t.rows.filter fun r => r.Expired now).length, u) ∧
      ∀ x, x ∈ u.rows ↔ (x ∈ t.rows ∧ ¬ x.Expired now) ∨
        ∃ r ∈ t.rows, r.Expired now ∧ x = r.expire now

structure Keeps (t u : ReservationTable) : Prop where
  sound : u.Sound
  final : ∀ r ∈ t.rows, r.status ≠ .reserved → r ∈ u.rows

variable {t} {u v : ReservationTable} {r old : ProviderReservation} {now : Timestamp}

theorem Keeps.refl (ht : t.Sound) : Keeps t t := ⟨ht, fun _ h _ => h⟩

theorem Keeps.trans (h : Keeps t u) (h' : Keeps u v) : Keeps t v :=
  ⟨h'.sound, fun r hr hs => h'.final r (h.final r hr hs) hs⟩

theorem mem_replace (hold : old ∈ t.rows) (hid : r.reservationId = old.reservationId)
    (x : ProviderReservation) :
    x ∈ (t.replace r).rows ↔ x = r ∨ x ∈ t.rows ∧ x.reservationId ≠ old.reservationId := by
  rw [Table.mem_replace (by rw [hid, Table.find?_of_mem hold]; rfl), hid]

/-- Closing an open reservation leaves the closed ones. -/
theorem keeps_replace (ht : t.Sound) (hold : old ∈ t.rows) (hopen : old.status = .reserved)
    (hid : r.reservationId = old.reservationId) (hclosed : r.status ≠ .reserved) :
    Keeps t (t.replace r) := by
  refine ⟨fun x hx => ?_, fun x hx hs => (mem_replace hold hid x).mpr (.inr ⟨hx, ?_⟩)⟩
  · rcases (mem_replace hold hid x).mp hx with rfl | ⟨hx, _⟩
    · exact fun h => absurd h hclosed
    · exact ht x hx
  · intro heq
    rw [t.eq_of_key_eq hx hold heq] at hs
    exact hs hopen

variable {status : ReservationStatus}

theorem finish_ok {id : String} {tokens : Option ℤ} {cost : Option ℚ}
    {answer : ProviderReservation × ReservationTable}
    (h : t.finish id status tokens cost now = .ok answer) :
    ∃ r ∈ t.rows, r.reservationId = id ∧ r.status = .reserved ∧ answer.2 = t.replace
      { r with status, actualTokens := tokens, actualCost := cost, updatedAt := now } := by
  simp only [finish, except_bind_eq_ok_iff, orError_eq_ok_iff, Table.find?_eq_some_iff,
    ensure_eq_ok_iff, except_pure_eq_ok_iff] at h
  obtain ⟨r, ⟨hr, hid⟩, _, hvalid, _, hs, rfl⟩ := h
  unfold ProviderReservation.validate at hvalid
  split_ifs at hvalid
  cases hvalid
  exact ⟨r, hr, hid, hs, rfl⟩

theorem expireAll_ok (now : Timestamp) {rows : List ProviderReservation} (ht : t.Sound)
    (hrows : ∀ r ∈ rows, r ∈ t.rows ∧ r.status = .reserved)
    (hnodup : (rows.map ProviderReservation.reservationId).Nodup) :
    ∃ u, expireAll now rows t = .ok u ∧ Keeps t u ∧ ∀ x, x ∈ u.rows ↔
      (x ∈ t.rows ∧ x.reservationId ∉ rows.map ProviderReservation.reservationId) ∨
        ∃ r ∈ rows, x = r.expire now := by
  induction rows generalizing t with
  | nil => exact ⟨t, rfl, .refl ht, by simp⟩
  | cons r rest ih =>
    rw [List.map_cons, List.nodup_cons] at hnodup
    obtain ⟨hr, hs⟩ := hrows r List.mem_cons_self
    have hid : (r.expire now).reservationId = r.reservationId := rfl
    have hkeeps := keeps_replace ht hr hs hid (by simp [ProviderReservation.expire])
    have hmem := mem_replace hr hid
    have hrest : ∀ other ∈ rest, other ∈ (t.replace (r.expire now)).rows ∧
        other.status = .reserved := by
      intro other hother
      obtain ⟨hold, hs'⟩ := hrows other (List.mem_cons_of_mem _ hother)
      have hne : other.reservationId ≠ r.reservationId := fun heq =>
        hnodup.1 (heq ▸ List.mem_map_of_mem hother)
      exact ⟨(hmem other).mpr (.inr ⟨hold, hne⟩), hs'⟩
    obtain ⟨u, hu, hkept, hiff⟩ := ih hkeeps.sound hrest hnodup.2
    refine ⟨u, ?_, hkeeps.trans hkept, fun x => ?_⟩
    · rwa [expireAll, ProviderReservation.validate, if_pos (ht r hr hs).1, except_bind_ok]
    · rw [hiff x, hmem x, List.map_cons]
      grind

theorem recoverExpired_ok (ht : t.Sound) (now : Timestamp) : ∃ u,
    t.recoverExpired now = .ok ((t.rows.filter fun r => r.Expired now).length, u) ∧ Keeps t u ∧
      ∀ x, x ∈ u.rows ↔ (x ∈ t.rows ∧ ¬ x.Expired now) ∨
        ∃ r ∈ t.rows, r.Expired now ∧ x = r.expire now := by
  have hrows : ∀ r ∈ t.rows.filter fun r => r.Expired now, r ∈ t.rows ∧ r.status = .reserved := by
    intro r hr
    obtain ⟨hr, hexpired⟩ := List.mem_filter.mp hr
    exact ⟨hr, (of_decide_eq_true hexpired).1⟩
  obtain ⟨u, hu, hkeeps, hiff⟩ := expireAll_ok now ht hrows
    (t.nodup.sublist (List.filter_sublist.map _))
  refine ⟨u, by rw [recoverExpired, hu]; rfl, hkeeps, fun x => ?_⟩
  simp only [hiff x, List.mem_map, List.mem_filter, decide_eq_true_eq, and_assoc]
  refine or_congr_left (and_congr_right fun hx => not_congr ⟨?_, fun h => ⟨x, hx, h, rfl⟩⟩)
  rintro ⟨r, hr, hexpired, heq⟩
  rwa [← t.eq_of_key_eq hr hx heq]

theorem keeps_finish (ht : t.Sound) (id : String) (hclosed : status ≠ .reserved) (tokens : Option ℤ)
    (cost : Option ℚ) (now : Timestamp) :
    Keeps t (t.committed (t.finish id status tokens cost now)) := by
  cases h : t.finish id status tokens cost now with
  | error e => exact .refl ht
  | ok answer =>
    obtain ⟨r, hr, -, hs, hu⟩ := finish_ok h
    rw [committed, hu]
    exact keeps_replace ht hr hs rfl hclosed

/-- No call changes a closed reservation. -/
theorem keeps_perform (ht : t.Sound) (call : ReservationCall × Timestamp) :
    Keeps t (t.perform call) := by
  obtain ⟨⟨request, hex⟩ | ⟨id, tokens, cost⟩ | id | _, now⟩ := call
  · rw [perform]
    cases h : t.reserve request hex now with
    | error e => exact .refl ht
    | ok answer =>
      simp only [reserve, except_bind_eq_ok_iff, orError_eq_ok_iff, except_pure_eq_ok_iff] at h
      obtain ⟨r, hvalid, u, hu, rfl⟩ := h
      unfold ProviderReservation.validate at hvalid
      split_ifs at hvalid with hok
      cases hvalid
      refine ⟨fun x hx => ?_, fun x hx _ => (Table.mem_insert hu x).mpr (.inl hx)⟩
      rcases (Table.mem_insert hu x).mp hx with hx | rfl
      · exact ht x hx
      · exact fun _ => ⟨hok, rfl, rfl⟩
  · exact keeps_finish ht id (by decide) _ _ now
  · exact keeps_finish ht id (by decide) _ _ now
  · obtain ⟨u, hu, hkeeps, _⟩ := recoverExpired_ok ht now
    rwa [perform, hu]

theorem keeps_run (ht : t.Sound) (calls : List (ReservationCall × Timestamp)) :
    Keeps t (calls.foldl perform t) := by
  induction calls generalizing t with
  | nil => exact .refl ht
  | cons call calls ih => exact (keeps_perform ht call).trans (ih (keeps_perform ht call).sound)

/-- After any calls a reservation is open or closed for good, exactly the open ones can be
settled or released, and a recovery closes exactly those whose lease has run out. -/
theorem closes (calls : List (ReservationCall × Timestamp)) :
    Closes (calls.foldl perform .empty) := by
  have hsound := (keeps_run (t := .empty) (fun _ h => nomatch h) calls).sound
  refine ⟨hsound, fun later => (keeps_run hsound later).final, fun id status tokens cost now => ?_,
    fun now => ?_⟩
  · constructor
    · rintro ⟨answer, h⟩
      obtain ⟨r, hr, hid, hs, -⟩ := finish_ok h
      exact ⟨r, hr, hid, hs⟩
    · rintro ⟨r, hr, rfl, hs⟩
      rw [finish, Table.find?_of_mem hr, orError_some, except_bind_ok, ProviderReservation.validate,
        if_pos (hsound r hr hs).1, except_bind_ok, ensure_pos hs]
      exact ⟨_, rfl⟩
  · obtain ⟨u, hu, -, hiff⟩ := recoverExpired_ok hsound now
    exact ⟨u, hu, hiff⟩

end ReservationTable

end CodeResearch.ControlPlane
