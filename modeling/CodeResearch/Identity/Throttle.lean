import CodeResearch.Identity.Families

/-!
# Login throttling

`login` counts the failures of the last fifteen minutes, verifies the password and
records the outcome in three transactions. The service is seen with a clock that does
not go back and with the verifications that ended as failed. A login that starts while
others of its identity are between their count and their record does not see how
those will end.
-/
namespace CodeResearch.Identity

def Event.now? : Event → Option Timestamp
  | .createUser _ _ _ _ now | .login _ _ _ now | .recordLogin _ _ _ _ _ now
  | .createLocalSession _ _ _ _ _ now | .openSession _ _ now | .writePassword _ _ _ now
  | .refresh _ _ _ now | .logout _ now | .writeRevocation _ now | .revokeAllSessions _ now => some now
  | .readUser _ _ _ | .changePassword _ _ _ | .revokeSession _ _ => none

/-- The row that `_record_login` inserts has a new identifier. -/
def Event.FreshLogin (s : System) : Event → Prop
  | .recordLogin _ _ _ _ loginHex _ => (s.tables.logins.find? ("login_" ++ loginHex)).isNone
  | _ => True

instance (s : System) (ev : Event) : Decidable (ev.FreshLogin s) := by
  unfold Event.FreshLogin
  split <;> infer_instance

/-- The service, the time of its last transaction, and the verifications that ended as
failed, each with its identity and its time. -/
structure Watched where
  system : System
  clock : Timestamp
  failures : List (String × Timestamp)

namespace Watched

def init : Watched := ⟨.init, 0, []⟩

variable (cfg : Service)

def identity (username : String) : String := cfg.hash (cfg.normalize username)

def failure? : Event → Option (String × Timestamp)
  | .recordLogin username password _ row _ now =>
    if cfg.accepts row password = none then some (identity cfg username, now) else none
  | _ => none

def step (w : Watched) (ev : Event) : Option Watched :=
  if (∀ now ∈ ev.now?, w.clock ≤ now) ∧ ev.FreshLogin w.system then
    (System.step cfg w.system ev).map fun s =>
      ⟨s, ev.now?.getD w.clock, w.failures ++ (failure? cfg ev).toList⟩
  else none

def machine : Machine Watched Event := ⟨step cfg⟩

def verifying? : Call → Option String
  | .loginLimited username _ _ | .loginRead username _ _ _ => some (identity cfg username)
  | _ => none

def inFlight (identity : String) (calls : List Call) : ℕ :=
  calls.countP fun c => verifying? cfg c = some identity

def failedSince (identity : String) (start : Timestamp) (failures : List (String × Timestamp)) : ℕ :=
  failures.countP fun f => f.1 = identity ∧ start ≤ f.2

def failedWithin (identity : String) (start : Timestamp)
    (failures : List (String × Timestamp)) : ℕ :=
  failures.countP fun f => f.1 = identity ∧ start ≤ f.2 ∧ f.2 ≤ start + 15 * minute

def Throttled (w : Watched) : Prop :=
  ∀ identity start, failedWithin identity start w.failures ≤ 5

/-- In every run whose steps meet the guard, the logins are throttled. -/
def LoginsThrottled (G : Watched → Event → Prop) : Prop :=
  ∀ events w, (machine cfg).Run G .init events w → w.Throttled

/-- A login that passes its count while others of its identity are in flight finds
fewer than five of them and of the recent failures together. -/
def Spares (w : Watched) : Event → Prop
  | .login username _ _ now =>
    enforceLoginLimit (identity cfg username) now w.system.tables = .ok () →
      0 < inFlight cfg (identity cfg username) w.system.calls →
      failedSince (identity cfg username) (now - 15 * minute) w.failures +
        inFlight cfg (identity cfg username) w.system.calls < 5
  | _ => True

end Watched

variable {now : Timestamp}

section Logins

variable {cfg : Service} {s t : Tables}

theorem logins_insertUser {u : UserRow} (h : s.insertUser u = .ok t) : t.logins = s.logins := by
  unfold Tables.insertUser at h
  split_ifs at h
  simp only [except_map_eq_ok_iff] at h
  obtain ⟨v, _, rfl⟩ := h
  rfl

theorem logins_insertSession {x : SessionRow} (h : s.insertSession x = .ok t) :
    t.logins = s.logins := by
  unfold Tables.insertSession at h
  split_ifs at h
  simp only [except_map_eq_ok_iff] at h
  obtain ⟨v, _, rfl⟩ := h
  rfl

theorem logins_issueTokensIn {userId sessionId familyId : String} {version : ℕ}
    {csrf : Option String} {ids : TokenIds} {tokens : SessionTokens}
    (h : issueTokensIn cfg userId sessionId familyId version now csrf ids s = .ok (tokens, t)) :
    t.logins = s.logins := by
  simp only [issueTokensIn, except_bind_eq_ok_iff, except_pure_eq_ok_iff, Prod.mk.injEq,
    Tables.insertRefresh] at h
  obtain ⟨u, hu, _, rfl⟩ := h
  split_ifs at hu
  simp only [except_map_eq_ok_iff] at hu
  obtain ⟨v, _, rfl⟩ := hu
  rfl

theorem logins_transact {α : Type} {x : Except AuthError (α × Tables)}
    (h : ∀ a t, x = .ok (a, t) → t.logins = s.logins) : (transact s x).2.logins = s.logins := by
  rcases transact_cases s x with ⟨e, _, hx⟩ | ⟨a, t, hok, hx⟩
  · rw [hx]
  · rw [hx]
    exact h a t hok

theorem logins_createUser (username password userHex salt : String) (now : Timestamp) :
    (createUser cfg username password userHex salt now s).2.logins = s.logins := by
  unfold createUser
  split_ifs
  · rfl
  · split
    · rename_i t ht
      exact logins_insertUser ht
    · rfl

variable (cfg) in
theorem logins_localUser (username userHex salt secret : String) (now : Timestamp) :
    (localUser cfg username userHex salt secret now s).2.logins = s.logins := by
  apply logins_transact
  intro a t h
  split at h
  · simp only [except_bind_eq_ok_iff, except_pure_eq_ok_iff, Prod.mk.injEq] at h
    obtain ⟨_, _, _, rfl⟩ := h
    rfl
  · simp only [except_bind_eq_ok_iff, except_pure_eq_ok_iff, Prod.mk.injEq] at h
    obtain ⟨u, hu, _, rfl⟩ := h
    exact logins_insertUser hu

variable (cfg) in
theorem logins_createSession (userId userAgent : String) (version : ℕ) (ids : SessionIds)
    (now : Timestamp) :
    (createSession cfg userId version userAgent ids now s).2.logins = s.logins := by
  apply logins_transact
  intro tokens t h
  obtain ⟨u, hu, hissued⟩ := except_bind_eq_ok_iff.mp h
  exact (logins_issueTokensIn hissued).trans (logins_insertSession hu)

variable (cfg) in
theorem logins_refresh (refreshToken csrfToken : String) (ids : TokenIds) (now : Timestamp) :
    (refresh cfg refreshToken csrfToken ids now s).2.logins = s.logins := by
  unfold refresh
  split
  · rfl
  · split_ifs
    · rfl
    · apply logins_transact
      intro tokens t h
      exact (logins_issueTokensIn h : t.logins = (s.useRefresh _ now).logins)
    · rfl

theorem logins_logout (sessionId : String) (now : Timestamp) :
    (logout sessionId now s).logins = s.logins := by
  unfold logout
  split <;> rfl

theorem logins_recordLogin {loginHex : String}
    (hfresh : (s.logins.find? ("login_" ++ loginHex)).isNone) (identityHash sourceHash : String)
    (outcome : LoginOutcome) (now : Timestamp) :
    ∃ logins, logins.rows =
        s.logins.rows ++ [⟨"login_" ++ loginHex, identityHash, sourceHash, outcome, now⟩] ∧
      recordLogin identityHash sourceHash outcome loginHex now s = (.ok (), { s with logins }) := by
  have hnone := s.logins.find?_eq_none_iff.mp (Option.isNone_iff_eq_none.mp hfresh)
  obtain ⟨logins, hins⟩ := Table.exists_insert
    (r := (⟨"login_" ++ loginHex, identityHash, sourceHash, outcome, now⟩ : LoginRow)) hnone
  refine ⟨logins, Table.rows_insert hins, ?_⟩
  rw [recordLogin, Tables.insertLogin, hins]
  rfl

end Logins

namespace Watched

variable {cfg : Service}

section Calls

variable {calls : List Call} {c : Call}

theorem inFlight_cons (id : String) : inFlight cfg id (c :: calls) =
    inFlight cfg id calls + if verifying? cfg c = some id then 1 else 0 := by
  simp [inFlight, List.countP_cons]

variable (cfg) in
theorem inFlight_erase (hc : c ∈ calls) (id : String) :
    inFlight cfg id (calls.erase c) + (if verifying? cfg c = some id then 1 else 0) =
      inFlight cfg id calls := by
  rw [← inFlight_cons]
  exact (List.perm_cons_erase hc).symm.countP_eq _

theorem inFlight_erase_other (hc : c ∈ calls) (hother : verifying? cfg c = none) (id : String) :
    inFlight cfg id (calls.erase c) = inFlight cfg id calls := by
  have herase := inFlight_erase cfg hc id
  simpa [hother] using herase

end Calls

/-- What a transaction does to the recorded attempts and to the calls in flight. -/
inductive Effect (cfg : Service) (s t : System) : Event → Prop
  | other {ev : Event} (failure : failure? cfg ev = none)
      (logins : t.tables.logins.rows = s.tables.logins.rows)
      (calls : ∀ identity, inFlight cfg identity t.calls = inFlight cfg identity s.calls) :
      Effect cfg s t ev
  | counted {username password userAgent : String} {now : Timestamp}
      (limit : enforceLoginLimit (identity cfg username) now s.tables = .ok ())
      (tables : t.tables = s.tables)
      (calls : t.calls = .loginLimited username password userAgent :: s.calls) :
      Effect cfg s t (.login username password userAgent now)
  | recorded {username password userAgent : String} {row : Option UserRow} {loginHex : String}
      {now : Timestamp} {sourceHash : String} {outcome : LoginOutcome}
      (logins : t.tables.logins.rows = s.tables.logins.rows ++
        [⟨"login_" ++ loginHex, identity cfg username, sourceHash, outcome, now⟩])
      (failed : outcome = .failed ↔ cfg.accepts row password = none)
      (mine : inFlight cfg (identity cfg username) t.calls + 1 =
        inFlight cfg (identity cfg username) s.calls)
      (others : ∀ other ≠ identity cfg username,
        inFlight cfg other t.calls = inFlight cfg other s.calls) :
      Effect cfg s t (.recordLogin username password userAgent row loginHex now)

/-- The transaction that records the outcome of a login ends its verification. -/
theorem effect_recordLogin {s : System} {username password userAgent loginHex : String}
    {row : Option UserRow} (hfresh : (s.tables.logins.find? ("login_" ++ loginHex)).isNone)
    (hc : .loginRead username password userAgent row ∈ s.calls) :
    Effect cfg s
      (System.recordLogin cfg
        { s with calls := s.calls.erase (.loginRead username password userAgent row) }
        username password userAgent row loginHex now)
      (.recordLogin username password userAgent row loginHex now) := by
  have herase := inFlight_erase cfg hc
  have hmine := herase (identity cfg username)
  have hothers : ∀ other ≠ identity cfg username,
      inFlight cfg other (s.calls.erase (.loginRead username password userAgent row)) =
        inFlight cfg other s.calls := by
    intro other hother
    simpa [verifying?, Ne.symm hother] using herase other
  rw [verifying?, if_pos rfl] at hmine
  have hidentity : cfg.hash (cfg.normalize username) = identity cfg username := rfl
  unfold System.recordLogin
  rw [hidentity]
  cases haccepts : cfg.accepts row password with
  | none =>
    obtain ⟨logins, hrows, hrecorded⟩ := logins_recordLogin hfresh (identity cfg username)
      (cfg.hash (if userAgent = "" then "unknown" else userAgent)) .failed now
    dsimp only
    rw [hrecorded]
    exact .recorded hrows (iff_of_true rfl haccepts) hmine hothers
  | some u =>
    obtain ⟨logins, hrows, hrecorded⟩ := logins_recordLogin hfresh (identity cfg username)
      (cfg.hash (if userAgent = "" then "unknown" else userAgent)) .succeeded now
    dsimp only
    rw [hrecorded]
    have hnot : cfg.accepts row password ≠ none := by simp [haccepts]
    refine .recorded hrows (iff_of_false nofun hnot) ?_ fun other hother => ?_
    · simpa [System.push, inFlight_cons, verifying?] using hmine
    · simpa [System.push, inFlight_cons, verifying?] using hothers other hother

theorem effect_step {s t : System} {ev : Event} (hfresh : ev.FreshLogin s)
    (h : System.step cfg s ev = some t) : Effect cfg s t ev := by
  cases ev with
  | createUser username password userHex salt now =>
    cases h
    exact .other rfl (congrArg Table.rows (logins_createUser username password userHex salt now))
      fun _ => rfl
  | login username password userAgent now =>
    simp only [System.step] at h
    split at h
    · rename_i hlimit
      cases h
      exact .counted hlimit rfl rfl
    · cases h
      exact .other rfl rfl fun _ => rfl
  | readUser username password userAgent =>
    simp only [System.step] at h
    obtain ⟨hc, rfl⟩ := System.advance_eq_some h
    refine .other rfl rfl fun id => ?_
    have herase := inFlight_erase cfg hc id
    simpa [System.push, inFlight_cons, verifying?] using herase
  | recordLogin username password userAgent row loginHex now =>
    simp only [System.step] at h
    obtain ⟨hc, rfl⟩ := System.advance_eq_some h
    exact effect_recordLogin hfresh hc
  | createLocalSession username userAgent userHex salt secret now =>
    cases h
    have hlogins := logins_localUser cfg (s := s.tables) username userHex salt secret now
    unfold System.createLocalSession
    split_ifs
    · exact .other rfl rfl fun _ => rfl
    · split <;> rename_i heq <;> rw [heq] at hlogins
      · refine .other rfl (congrArg Table.rows hlogins) fun id => ?_
        simp [System.push, inFlight_cons, verifying?]
      · exact .other rfl (congrArg Table.rows hlogins) fun _ => rfl
  | openSession request ids now =>
    simp only [System.step] at h
    obtain ⟨hc, rfl⟩ := System.advance_eq_some h
    have hlogins := logins_createSession cfg (s := s.tables) request.userId
      request.userAgent request.tokenVersion ids now
    unfold System.openSession
    split <;> rename_i heq <;> rw [heq] at hlogins <;>
      exact .other rfl (congrArg Table.rows hlogins) (inFlight_erase_other hc rfl)
  | changePassword | revokeSession =>
    simp only [System.step] at h
    split at h <;> cases h
    · refine .other rfl rfl fun id => ?_
      simp [System.push, inFlight_cons, verifying?]
    · exact .other rfl rfl fun _ => rfl
  | writePassword userId newPassword salt now =>
    simp only [System.step] at h
    obtain ⟨hc, rfl⟩ := System.advance_eq_some h
    exact .other rfl rfl (inFlight_erase_other hc rfl)
  | refresh refreshToken csrfToken ids now =>
    cases h
    have hlogins := logins_refresh cfg (s := s.tables) refreshToken csrfToken ids now
    unfold System.refresh
    split <;> rename_i heq <;> rw [heq] at hlogins <;>
      exact .other rfl (congrArg Table.rows hlogins) fun _ => rfl
  | logout sessionId now =>
    cases h
    exact .other rfl (congrArg Table.rows (logins_logout sessionId now)) fun _ => rfl
  | writeRevocation sessionId now =>
    simp only [System.step] at h
    obtain ⟨hc, rfl⟩ := System.advance_eq_some h
    exact .other rfl (congrArg Table.rows (logins_logout sessionId now))
      (inFlight_erase_other hc rfl)
  | revokeAllSessions userId now =>
    cases h
    exact .other rfl rfl fun _ => rfl

section Counts

variable {id : String} {failures : List (String × Timestamp)}

theorem failedSince_antitone {start later : Timestamp} (h : start ≤ later) :
    failedSince id later failures ≤ failedSince id start failures := by
  apply List.countP_mono_left
  intro f _ hf
  simp only [decide_eq_true_eq] at hf ⊢
  exact ⟨hf.1, Nat.le_trans h hf.2⟩

variable (id failures) in
theorem failedWithin_le_failedSince (start : Timestamp) :
    failedWithin id start failures ≤ failedSince id start failures := by
  apply List.countP_mono_left
  intro f _ hf
  simp only [decide_eq_true_eq] at hf ⊢
  exact ⟨hf.1, hf.2.1⟩

theorem failedSince_append_of_ne {other : String} (h : other ≠ id) (start now : Timestamp) :
    failedSince id start (failures ++ [(other, now)]) = failedSince id start failures := by
  simp [failedSince, h]

variable (id failures) in
theorem failedSince_append_le (start now : Timestamp) :
    failedSince id start (failures ++ [(id, now)]) ≤ failedSince id start failures + 1 := by
  rw [failedSince, List.countP_append, ← failedSince]
  exact Nat.add_le_add_left List.countP_le_length _

theorem failedWithin_append_of_lt {other : String} {start now : Timestamp}
    (h : start + 15 * minute < now) :
    failedWithin id start (failures ++ [(other, now)]) = failedWithin id start failures := by
  have hout : ¬ now ≤ start + 15 * minute := Nat.not_le.mpr h
  simp [failedWithin, hout]

end Counts

/-- The failures that `login_attempts` holds. -/
def recorded (rows : List LoginRow) : List (String × Timestamp) :=
  (rows.filter fun r => r.outcome = .failed).map fun r => (r.identityHash, r.occurredAt)

/-- What every transaction keeps. In a window that is still open, the failures and the
calls in flight of an identity are at most five together. -/
structure Inv (cfg : Service) (w : Watched) : Prop where
  failures : w.failures = recorded w.system.tables.logins.rows
  clock : ∀ f ∈ w.failures, f.2 ≤ w.clock
  room : ∀ id start, w.clock ≤ start + 15 * minute →
    failedSince id start w.failures + inFlight cfg id w.system.calls ≤ 5
  throttled : w.Throttled

theorem inv_init : Inv cfg .init := by
  constructor <;> simp [init, System.init, Tables.empty, recorded, failedSince, inFlight,
    Throttled, failedWithin]

theorem Inv.limited {w : Watched} (h : Inv cfg w) {id : String}
    (hlimit : enforceLoginLimit id now w.system.tables = .ok ()) :
    failedSince id (now - 15 * minute) w.failures < 5 := by
  have hcount := ensure_eq_ok_iff.mp hlimit
  rw [h.failures, failedSince, recorded, List.countP_map, List.countP_filter,
    List.countP_eq_length_filter]
  simpa [Function.comp_def, Bool.and_assoc, Bool.and_comm, Bool.and_left_comm] using hcount

variable {w : Watched} {s : System} {ev : Event}

theorem Inv.keep (h : Inv cfg w) (hclock : w.clock ≤ now)
    (hrecorded : recorded s.tables.logins.rows = recorded w.system.tables.logins.rows)
    (hcalls : ∀ id, inFlight cfg id s.calls ≤ inFlight cfg id w.system.calls) :
    Inv cfg ⟨s, now, w.failures⟩ where
  failures := h.failures.trans hrecorded.symm
  clock f hf := Nat.le_trans (h.clock f hf) hclock
  room id start hopen := by
    have hroom := h.room id start (Nat.le_trans hclock hopen)
    have hcall := hcalls id
    dsimp only
    omega
  throttled := h.throttled

theorem Inv.count (h : Inv cfg w) {username password userAgent : String}
    (hclock : w.clock ≤ now) (hlimit : enforceLoginLimit (identity cfg username) now
      w.system.tables = .ok ())
    (hspares : Spares cfg w (.login username password userAgent now))
    (htables : s.tables = w.system.tables)
    (hcalls : s.calls = .loginLimited username password userAgent :: w.system.calls) :
    Inv cfg ⟨s, now, w.failures⟩ where
  failures := by
    rw [htables]
    exact h.failures
  clock f hf := Nat.le_trans (h.clock f hf) hclock
  room id start hopen := by
    dsimp only at hopen ⊢
    rw [hcalls, inFlight_cons, verifying?]
    by_cases hid : identity cfg username = id
    · subst hid
      have hlimited := h.limited hlimit
      have hrecent : failedSince (identity cfg username) start w.failures ≤
          failedSince (identity cfg username) (now - 15 * minute) w.failures :=
        failedSince_antitone (Nat.sub_le_iff_le_add.mpr hopen)
      rw [if_pos rfl]
      by_cases hidle : inFlight cfg (identity cfg username) w.system.calls = 0
      · omega
      · have hspared := hspares hlimit (Nat.pos_of_ne_zero hidle)
        omega
    · have hroom := h.room id start (Nat.le_trans hclock hopen)
      rw [if_neg fun hsome => hid (Option.some.inj hsome)]
      omega
  throttled := h.throttled

theorem Inv.fail (h : Inv cfg w) {mine : String} (hclock : w.clock ≤ now)
    (hrecorded : recorded s.tables.logins.rows =
      recorded w.system.tables.logins.rows ++ [(mine, now)])
    (hmine : inFlight cfg mine s.calls + 1 = inFlight cfg mine w.system.calls)
    (hothers : ∀ other ≠ mine, inFlight cfg other s.calls = inFlight cfg other w.system.calls) :
    Inv cfg ⟨s, now, w.failures ++ [(mine, now)]⟩ := by
  have hroom : ∀ id start, now ≤ start + 15 * minute →
      failedSince id start (w.failures ++ [(mine, now)]) + inFlight cfg id s.calls ≤ 5 := by
    intro id start hopen
    have hroom := h.room id start (Nat.le_trans hclock hopen)
    by_cases hid : mine = id
    · subst hid
      have happend := failedSince_append_le mine w.failures start now
      omega
    · rw [failedSince_append_of_ne hid, hothers id (Ne.symm hid)]
      exact hroom
  constructor
  · rw [hrecorded, h.failures]
  · intro f hf
    rcases List.mem_append.mp hf with hold | hnew
    · exact Nat.le_trans (h.clock f hold) hclock
    · exact Nat.le_of_eq (congrArg Prod.snd (List.mem_singleton.mp hnew))
  · exact hroom
  · intro id start
    by_cases hopen : now ≤ start + 15 * minute
    · have hwithin := failedWithin_le_failedSince id (w.failures ++ [(mine, now)]) start
      have hopened := hroom id start hopen
      dsimp only
      omega
    · dsimp only
      rw [failedWithin_append_of_lt (Nat.not_le.mp hopen)]
      exact h.throttled id start

theorem Inv.step {w' : Watched} (h : Inv cfg w) (hspares : Spares cfg w ev)
    (hstep : step cfg w ev = some w') : Inv cfg w' := by
  unfold Watched.step at hstep
  split_ifs at hstep with hready
  obtain ⟨hclock, hfresh⟩ := hready
  obtain ⟨s, hs, rfl⟩ := Option.map_eq_some_iff.mp hstep
  have hlater : w.clock ≤ ev.now?.getD w.clock := by
    cases hnow : ev.now? with
    | none => exact Nat.le_refl _
    | some now => exact hclock now hnow
  have heffect : Effect cfg w.system s ev := effect_step hfresh hs
  cases heffect with
  | other hfailure hlogins hcalls =>
    rw [hfailure, Option.toList_none, List.append_nil]
    exact h.keep hlater (congrArg recorded hlogins) fun id => Nat.le_of_eq (hcalls id)
  | counted hlimit htables hcalls =>
    have hcounted := h.count hlater hlimit hspares htables hcalls
    rwa [← List.append_nil w.failures] at hcounted
  | @recorded username password userAgent row loginHex now source outcome hlogins hfailed hmine
      hothers =>
    by_cases haccepts : cfg.accepts row password = none
    · have hnew : failure? cfg (.recordLogin username password userAgent row loginHex now) =
          some (identity cfg username, now) := if_pos haccepts
      rw [hnew]
      apply h.fail hlater _ hmine hothers
      rw [hlogins, hfailed.mpr haccepts]
      simp [recorded, Event.now?]
    · have hnone : failure? cfg (.recordLogin username password userAgent row loginHex now) =
          none := if_neg haccepts
      have hsucceeded : outcome ≠ .failed := fun houtcome => haccepts (hfailed.mp houtcome)
      rw [hnone, Option.toList_none, List.append_nil]
      apply h.keep hlater
      · rw [hlogins]
        simp [recorded, hsucceeded]
      · intro id
        by_cases hid : id = identity cfg username
        · rw [hid]
          omega
        · exact Nat.le_of_eq (hothers id hid)

/-- Logins that start while others of their identity are in flight are the only ones
that the limit misses. -/
theorem throttled_of_spares (cfg : Service) : LoginsThrottled cfg (Spares cfg) := by
  intro events w hrun
  have hinv : Inv cfg w :=
    Machine.Run.invariant (Inv cfg) (fun _ _ _ h hspares hstep => h.step hspares hstep) hrun
      inv_init
  exact hinv.throttled

/-- Six logins with a wrong password pass the count before any of them is recorded. -/
def sixLogins : List Event :=
  List.replicate 6 (.login "owner" "wrong horse" "" 1) ++
    List.replicate 6 (.readUser "owner" "wrong horse" "") ++
      ["1", "2", "3", "4", "5", "6"].map fun loginHex =>
        .recordLogin "owner" "wrong horse" "" none loginHex 2

theorem sixLogins_unthrottled : ¬ LoginsThrottled sampleService Machine.Free := by
  intro h
  obtain ⟨w, hw, hmany⟩ : ∃ w ∈ (machine sampleService).exec Machine.Free .init sixLogins,
      ¬ failedWithin (identity sampleService "owner") 0 w.failures ≤ 5 := by decide +kernel
  exact hmany (h _ w (Machine.run_of_exec hw) _ 0)

end Watched

end CodeResearch.Identity
