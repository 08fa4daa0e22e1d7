import CodeResearch.Identity.SystemSpec

/-!
# Refresh-token families

Every family belongs to one session. An active session has exactly one active
refresh token in its family, and a revoked one none. A revoked session stays
revoked, so presenting a used token disables its whole family for good.
-/
namespace CodeResearch.Identity

def Tables.activeCount (s : Tables) (familyId : String) : ℕ :=
  s.refreshTokens.rows.countP fun r => r.familyId = familyId ∧ r.status = .active

structure Families (s : Tables) : Prop extends Owned s where
  user : ∀ x ∈ s.sessions.rows, ∃ u, s.users.find? x.userId = some u
  hashes : (s.refreshTokens.rows.map RefreshRow.tokenHash).Nodup
  live : ∀ x ∈ s.sessions.rows,
    s.activeCount x.refreshFamilyId = if x.status = .active then 1 else 0

def Tables.Dead (s : Tables) (familyId : String) : Prop :=
  ∃ x ∈ s.sessions.rows, x.refreshFamilyId = familyId ∧ x.status = .revoked

section Writes

variable {cfg : Service} {s t : Tables}

theorem Families.of_eq (h : Families s) (hsessions : t.sessions = s.sessions)
    (htokens : t.refreshTokens = s.refreshTokens) (husers : UsersKept s t) : Families t := by
  refine ⟨⟨?_, ?_⟩, ?_, ?_, ?_⟩
  · rw [hsessions, htokens]
    exact h.session
  · rw [hsessions]
    exact h.families
  · rw [hsessions]
    intro x hx
    obtain ⟨u, hu⟩ := h.user x hx
    obtain ⟨v, hv, _⟩ := husers _ u hu
    exact ⟨v, hv⟩
  · rw [htokens]
    exact h.hashes
  · rw [hsessions]
    unfold Tables.activeCount
    rw [htokens]
    exact h.live

variable {F : String → Prop} {familyId : String}

/-- Revoking families keeps the invariant. -/
theorem Families.revocation (h : Families s) (hr : Revocation F s t)
    (husers : UsersKept s t) : Families t := by
  obtain ⟨⟨f, hf, hfs⟩, g, hg, hgs⟩ := hr
  refine ⟨⟨?_, ?_⟩, ?_, ?_, ?_⟩
  · intro r' hr'
    rw [hg] at hr'
    obtain ⟨r, hr, rfl⟩ := List.mem_map.mp hr'
    obtain ⟨x, hx, hown⟩ := h.session r hr
    obtain ⟨hsession, hfamily, -⟩ := hgs r hr
    obtain ⟨hid, -, hxfam, -⟩ := hfs x (Table.find?_mem hx)
    refine ⟨f x, (Table.find?_eq_some_iff _).mpr ⟨?_, ?_⟩, by rw [hxfam, hfamily, hown]⟩
    · rw [hf]
      exact List.mem_map_of_mem (Table.find?_mem hx)
    · rw [hid, hsession, Table.find?_key hx]
  · have hsame : t.sessions.rows.map SessionRow.refreshFamilyId =
        s.sessions.rows.map SessionRow.refreshFamilyId := by
      rw [hf, List.map_map]
      exact List.map_congr_left fun x hx => (hfs x hx).2.2.1
    rw [hsame]
    exact h.families
  · intro x' hx'
    rw [hf] at hx'
    obtain ⟨x, hx, rfl⟩ := List.mem_map.mp hx'
    obtain ⟨u, hu⟩ := h.user x hx
    obtain ⟨v, hv, _⟩ := husers _ u hu
    exact ⟨v, by rw [(hfs x hx).2.1]; exact hv⟩
  · have hsame : t.refreshTokens.rows.map RefreshRow.tokenHash =
        s.refreshTokens.rows.map RefreshRow.tokenHash := by
      rw [hg, List.map_map]
      exact List.map_congr_left fun r hr => (hgs r hr).2.2.1
    rw [hsame]
    exact h.hashes
  · intro x' hx'
    rw [hf] at hx'
    obtain ⟨x, hx, rfl⟩ := List.mem_map.mp hx'
    obtain ⟨-, -, hxfam, hdead, hkept⟩ := hfs x hx
    rw [hxfam]
    by_cases hF : F x.refreshFamilyId
    · rw [hdead hF, if_neg (by decide), Tables.activeCount, hg, List.countP_eq_zero]
      intro r' hr'
      obtain ⟨r, hr, rfl⟩ := List.mem_map.mp hr'
      obtain ⟨-, hfamily, -, hinactive, -⟩ := hgs r hr
      simp only [decide_eq_true_eq, hfamily]
      rintro ⟨heq, hactive⟩
      exact hinactive (heq ▸ hF) hactive
    · rw [hkept hF, ← h.live x hx, Tables.activeCount, Tables.activeCount, hg, List.countP_map]
      apply List.countP_congr
      intro r hr
      obtain ⟨-, hfamily, -, -, hsame⟩ := hgs r hr
      simp only [Function.comp_apply, decide_eq_true_eq, hfamily]
      constructor
      · rintro ⟨heq, hactive⟩
        exact ⟨heq, by rwa [hsame (heq ▸ hF)] at hactive⟩
      · rintro ⟨heq, hactive⟩
        exact ⟨heq, by rwa [hsame (heq ▸ hF)]⟩

theorem Tables.Dead.revocation (h : s.Dead familyId) (hr : Revocation F s t) : t.Dead familyId := by
  obtain ⟨f, hf, hfs⟩ := hr.sessions
  obtain ⟨x, hx, hfam, hrevoked⟩ := h
  obtain ⟨-, -, hxfam, hdead, hkept⟩ := hfs x hx
  refine ⟨f x, by rw [hf]; exact List.mem_map_of_mem hx, hxfam.trans hfam, ?_⟩
  by_cases hF : F x.refreshFamilyId
  · exact hdead hF
  · rw [hkept hF, hrevoked]

variable {userId userAgent : String} {version : ℕ} {ids : SessionIds} {now : Timestamp}
  {tokens : SessionTokens}

/-- The sessions after an opening, up to the new session's CSRF token. -/
theorem Opening.mem_sessions (h : Opening cfg userId userAgent version ids now s t tokens)
    {x : SessionRow} (hx : x ∈ t.sessions.rows) :
    x ∈ s.sessions.rows ∨ x.sessionId = "session_" ++ ids.sessionHex ∧ x.userId = userId ∧
      x.refreshFamilyId = "family_" ++ ids.familyHex ∧ x.status = .active := by
  obtain ⟨v, csrfHash, hv, ht⟩ := h.sessions
  rw [ht, Table.mem_updateWhere] at hx
  obtain ⟨y, hy, rfl⟩ := hx
  rcases (Table.mem_insert hv y).mp hy with hy | rfl
  · left
    rw [if_neg]
    · exact hy
    · intro heq
      exact Table.insert_fresh hv (List.mem_map.mpr ⟨y, hy, by simpa using heq⟩)
  · right
    rw [if_pos (by simp [Service.sessionRow])]
    exact ⟨rfl, rfl, rfl, rfl⟩

/-- Opening a session under a new family keeps the invariant. -/
theorem Families.opening (h : Families s)
    (ho : Opening cfg userId userAgent version ids now s t tokens)
    (hfresh : ∀ x ∈ s.sessions.rows, x.refreshFamilyId ≠ "family_" ++ ids.familyHex) :
    Families t := by
  have hrows := Table.rows_insert ho.refreshTokens
  have hnone : ∀ r ∈ s.refreshTokens.rows, r.familyId ≠ "family_" ++ ids.familyHex := by
    intro r hr heq
    obtain ⟨x, hx, hown⟩ := h.session r hr
    exact hfresh x (Table.find?_mem hx) (hown.trans heq)
  obtain ⟨v, csrfHash, hv, ht⟩ := ho.sessions
  refine ⟨⟨?_, ?_⟩, ?_, ?_, ?_⟩
  · intro r hr
    rcases (Table.mem_insert ho.refreshTokens r).mp hr with hr | rfl
    · obtain ⟨x, hx, hown⟩ := h.session r hr
      exact ⟨x, ho.find?_sessions hx, hown⟩
    · rw [ht, Table.find?_updateWhere]
      have hself := Table.find?_insert_self hv
      rw [Service.sessionRow_sessionId] at hself
      rw [Service.refreshRow_sessionId, hself]
      refine ⟨_, rfl, ?_⟩
      dsimp only
      split_ifs <;> rfl
  · rw [ht, Table.map_updateWhere _ _ _ _ SessionRow.refreshFamilyId (by intro; rfl), Table.rows_insert hv, List.map_append,
      List.nodup_append]
    refine ⟨h.families, by simp, ?_⟩
    intro f hf f' hf' heq
    obtain ⟨x, hx, rfl⟩ := List.mem_map.mp hf
    obtain rfl := List.mem_singleton.mp hf'
    exact hfresh x hx heq
  · intro x hx
    rw [ho.users]
    rcases ho.mem_sessions hx with hx | ⟨_, rfl, _⟩
    · exact h.user x hx
    · exact ho.user
  · rw [hrows, List.map_append, List.nodup_append]
    refine ⟨h.hashes, by simp, ?_⟩
    intro k hk k' hk' heq
    obtain ⟨r, hr, rfl⟩ := List.mem_map.mp hk
    obtain rfl := List.mem_singleton.mp hk'
    exact ho.hash r hr heq
  · intro x hx
    rw [Tables.activeCount, hrows, List.countP_append]
    rcases ho.mem_sessions hx with hx | ⟨_, _, hfam, hactive⟩
    · have hlive := h.live x hx
      rw [Tables.activeCount] at hlive
      rw [hlive]
      have hne : "family_" ++ ids.familyHex ≠ x.refreshFamilyId := (hfresh x hx).symm
      simp [Service.refreshRow, hne]
    · rw [hfam, hactive, List.countP_eq_zero.mpr ?_]
      · simp [Service.refreshRow]
      · intro r hr
        simp [hnone r hr]

theorem Tables.Dead.opening (h : s.Dead familyId)
    (ho : Opening cfg userId userAgent version ids now s t tokens) : t.Dead familyId := by
  obtain ⟨x, hx, hdead⟩ := h
  exact ⟨x, Table.find?_mem (ho.find?_sessions (Table.find?_of_mem hx)), hdead⟩

variable {csrfToken : String} {tids : TokenIds} {r : RefreshRow} {x : SessionRow} {u : UserRow}

/-- Rotating the active token of a family keeps the invariant. -/
theorem Families.rotation (h : Families s) (hr : r ∈ s.refreshTokens.rows)
    (ho : Rotation cfg csrfToken tids now s t r x u tokens) : Families t := by
  obtain ⟨before, after, hrows, hused⟩ := Table.rows_updateKey (Table.find?_of_mem hr)
    (fun r => { r with status := .used, usedAt := some now }) (fun _ => rfl)
  have hnew := Table.rows_insert ho.refreshTokens
  rw [Tables.useRefresh, hused] at hnew
  obtain ⟨f, hf, hfind, hfs⟩ := ho.sessions_map
  have hsession : ∀ y ∈ s.refreshTokens.rows,
      ∃ z, t.sessions.find? y.sessionId = some z ∧ z.refreshFamilyId = y.familyId := by
    intro y hy
    obtain ⟨z, hz, hown⟩ := h.session y hy
    exact ⟨f z, by rw [hfind, hz, Option.map_some], (hfs z).2.2.1.trans hown⟩
  refine ⟨⟨?_, ?_⟩, ?_, ?_, ?_⟩
  · intro y hy
    rw [hnew] at hy
    rcases List.mem_append.mp hy with hy | hy
    · rcases List.mem_append.mp hy with hy | hy
      · exact hsession y (hrows ▸ List.mem_append_left _ hy)
      · rcases List.mem_cons.mp hy with rfl | hy
        · exact hsession r hr
        · exact hsession y (hrows ▸ List.mem_append_right _ (List.mem_cons_of_mem _ hy))
    · obtain rfl := List.mem_singleton.mp hy
      exact hsession r hr
  · rw [hf, List.map_map, List.map_congr_left fun y _ => show (SessionRow.refreshFamilyId ∘ f) y =
      y.refreshFamilyId from (hfs y).2.2.1]
    exact h.families
  · intro y' hy'
    rw [hf] at hy'
    obtain ⟨y, hy, rfl⟩ := List.mem_map.mp hy'
    rw [ho.users, (hfs y).2.1]
    exact h.user y hy
  · have hmap : t.refreshTokens.rows.map RefreshRow.tokenHash =
        s.refreshTokens.rows.map RefreshRow.tokenHash ++ [cfg.hash tids.refresh] := by
      rw [hnew, hrows]
      simp [Service.refreshRow]
    rw [hmap, List.nodup_append]
    refine ⟨h.hashes, by simp, ?_⟩
    intro k hk k' hk' heq
    obtain ⟨y, hy, rfl⟩ := List.mem_map.mp hk
    obtain rfl := List.mem_singleton.mp hk'
    exact ho.hash y hy heq
  · intro y' hy'
    rw [hf] at hy'
    obtain ⟨y, hy, rfl⟩ := List.mem_map.mp hy'
    rw [(hfs y).2.2.1, (hfs y).2.2.2, ← h.live y hy, Tables.activeCount, Tables.activeCount, hnew,
      hrows]
    by_cases hfam : r.familyId = y.refreshFamilyId
    · simp [hfam, ho.accepted.1, Service.refreshRow]
    · simp [hfam, Service.refreshRow]

theorem Tables.Dead.rotation (h : s.Dead familyId)
    (ho : Rotation cfg csrfToken tids now s t r x u tokens) : t.Dead familyId := by
  obtain ⟨f, hf, -, hfs⟩ := ho.sessions_map
  obtain ⟨y, hy, hfam, hrevoked⟩ := h
  exact ⟨f y, by rw [hf]; exact List.mem_map_of_mem hy, (hfs y).2.2.1.trans hfam,
    (hfs y).2.2.2.trans hrevoked⟩

end Writes

def Event.Fresh (s : System) (ev : Event) : Prop :=
  match ev with
  | .openSession _ ids _ =>
    ∀ x ∈ s.tables.sessions.rows, x.refreshFamilyId ≠ "family_" ++ ids.familyHex
  | _ => True

instance (s : System) (ev : Event) : Decidable (ev.Fresh s) := by
  unfold Event.Fresh
  split <;> infer_instance

namespace System

variable {cfg : Service} {s t : System}

theorem families_init : Families System.init.tables := by
  refine ⟨⟨?_, ?_⟩, ?_, ?_, ?_⟩ <;> simp [System.init, Tables.empty]

variable {ev : Event} {familyId : String} {evs : List Event}

theorem families_step (h : Families s.tables) (hfresh : ev.Fresh s)
    (hstep : step cfg s ev = some t) : Families t.tables := by
  have hchange := step_change hstep
  have husers := hchange.users
  cases hchange with
  | kept _ htables _ _ => exact h.of_eq htables.1 htables.2.1 husers
  | revoked _ _ htables _ _ _ => exact h.revocation htables husers
  | userRevoked _ _ htables _ _ _ => exact h.revocation (htables.revocation h.toOwned) husers
  | opening htables _ _ => exact h.opening htables hfresh
  | rotated hfound htables _ _ => exact h.rotation (findRefresh_some hfound).1 htables

theorem dead_step (h : Families s.tables) (hdead : s.tables.Dead familyId)
    (hstep : step cfg s ev = some t) : t.tables.Dead familyId := by
  cases step_change hstep with
  | kept _ htables _ _ =>
    unfold Tables.Dead
    rw [htables.1]
    exact hdead
  | revoked _ _ htables _ _ _ => exact Tables.Dead.revocation hdead htables
  | userRevoked _ _ htables _ _ _ =>
    exact Tables.Dead.revocation hdead (htables.revocation h.toOwned)
  | opening htables _ _ => exact Tables.Dead.opening hdead htables
  | rotated _ htables _ _ => exact Tables.Dead.rotation hdead htables

theorem families_run (h : Families s.tables)
    (hrun : (machine cfg).Run (fun s ev => ev.Fresh s) s evs t) : Families t.tables :=
  Machine.Run.invariant (fun s => Families s.tables)
    (fun _ _ _ h hfresh hstep => families_step h hfresh hstep) hrun h

theorem dead_run (h : Families s.tables) (hdead : s.tables.Dead familyId)
    (hrun : (machine cfg).Run (fun s ev => ev.Fresh s) s evs t) :
    Families t.tables ∧ t.tables.Dead familyId :=
  Machine.Run.invariant (fun s => Families s.tables ∧ s.tables.Dead familyId)
    (fun _ _ _ h hfresh hstep => ⟨families_step h.1 hfresh hstep, dead_step h.1 h.2 hstep⟩) hrun
    ⟨h, hdead⟩

end System

section Dead

variable {cfg : Service} {s : Tables} {familyId : String}

variable {r : RefreshRow} {refreshToken : String}

theorem Families.not_active (h : Families s) (hdead : s.Dead familyId)
    (hr : r ∈ s.refreshTokens.rows) (hfam : r.familyId = familyId) : r.status ≠ .active := by
  obtain ⟨x, hx, rfl, hrevoked⟩ := hdead
  have hzero := h.live x hx
  rw [if_neg (by simp [hrevoked]), Tables.activeCount, List.countP_eq_zero] at hzero
  intro hactive
  exact hzero r hr (by simp [hfam, hactive])

/-- No token of a revoked family can be refreshed. -/
theorem Families.not_refreshed (h : Families s) (hdead : s.Dead familyId)
    (hr : r ∈ s.refreshTokens.rows) (hfam : r.familyId = familyId)
    (hhash : cfg.hash refreshToken = r.tokenHash) (csrfToken : String) (ids : TokenIds)
    (now : Timestamp) (tokens : SessionTokens) :
    (refresh cfg refreshToken csrfToken ids now s).1 ≠ .ok tokens := by
  rcases refresh_cases cfg refreshToken csrfToken ids now s with
    ⟨e, heq⟩ | ⟨_, _, _, _, _, heq⟩ | ⟨r', x, u, tokens', t, hfind, heq, hrot⟩
  · simp [heq]
  · simp [heq]
  · obtain ⟨hr', hhash', -, -⟩ := findRefresh_some hfind
    have hsame : r' = r :=
      List.inj_on_of_nodup_map h.hashes hr' hr (hhash'.trans hhash)
    exact absurd hrot.accepted.1 (h.not_active hdead (hsame ▸ hr) (hsame ▸ hfam))

theorem Families.dead_of_reuse (h : Families s) (hr : r ∈ s.refreshTokens.rows)
    (hused : r.status = .used) (hhash : cfg.hash refreshToken = r.tokenHash)
    (csrfToken : String) (ids : TokenIds) (now : Timestamp) :
    (refresh cfg refreshToken csrfToken ids now s).2.Dead r.familyId := by
  obtain ⟨x, hx, hown⟩ := h.session r hr
  obtain ⟨u, hu⟩ := h.user x (Table.find?_mem hx)
  have hfirst : (s.refreshTokens.rows.find? fun y => y.tokenHash = cfg.hash refreshToken) =
      some r := by
    cases hf : s.refreshTokens.rows.find? fun y => y.tokenHash = cfg.hash refreshToken with
    | none =>
      have := List.find?_eq_none.mp hf r hr
      simp [hhash] at this
    | some y =>
      have hy : y.tokenHash = cfg.hash refreshToken := by simpa using List.find?_some hf
      rw [List.inj_on_of_nodup_map h.hashes (List.mem_of_find?_eq_some hf) hr (hy.trans hhash)]
  have hfind : s.findRefresh (cfg.hash refreshToken) = some (r, x, u) := by
    simp [Tables.findRefresh, hfirst, hx, hu]
  have heq : (refresh cfg refreshToken csrfToken ids now s).2 = s.revokeFamilyIn r.familyId now := by
    simp [refresh, hfind, hused]
  rw [heq]
  obtain ⟨f, hf, hfs⟩ := (revocation_revokeFamilyIn s r.familyId now).sessions
  obtain ⟨-, -, hfam, hrevoked, -⟩ := hfs x (Table.find?_mem hx)
  refine ⟨f x, by rw [hf]; exact List.mem_map_of_mem (Table.find?_mem hx), hfam.trans hown, ?_⟩
  exact hrevoked hown

end Dead

namespace System

variable (cfg : Service)

/-- The refresh-token families of every reachable state. -/
theorem refreshFamilies {evs : List Event} {s : System}
    (hrun : (machine cfg).Run (fun s ev => ev.Fresh s) .init evs s) :
    (∀ x ∈ s.tables.sessions.rows, ∀ y ∈ s.tables.sessions.rows,
      x.refreshFamilyId = y.refreshFamilyId → x = y) ∧
    (∀ r ∈ s.tables.refreshTokens.rows, ∃ x ∈ s.tables.sessions.rows,
      x.sessionId = r.sessionId ∧ x.refreshFamilyId = r.familyId) ∧
    (∀ x ∈ s.tables.sessions.rows, x.status = .active →
      s.tables.activeCount x.refreshFamilyId = 1) ∧
    (∀ x ∈ s.tables.sessions.rows, x.status = .revoked → ∀ after t,
      (machine cfg).Run (fun s ev => ev.Fresh s) s after t →
        t.tables.activeCount x.refreshFamilyId = 0) ∧
    ∀ r ∈ s.tables.refreshTokens.rows, r.status = .used →
      ∀ refreshToken csrfToken ids now, cfg.hash refreshToken = r.tokenHash → ∀ after t,
      (machine cfg).Run (fun s ev => ev.Fresh s)
        (refresh cfg s refreshToken csrfToken ids now) after t →
      ∀ r' ∈ t.tables.refreshTokens.rows, r'.familyId = r.familyId → r'.status ≠ .active ∧
        ∀ refreshToken' csrfToken' ids' now' tokens, cfg.hash refreshToken' = r'.tokenHash →
          (Identity.refresh cfg refreshToken' csrfToken' ids' now' t.tables).1 ≠ .ok tokens := by
  have h : Families s.tables := families_run families_init hrun
  refine ⟨?_, ?_, ?_, ?_, ?_⟩
  · intro x hx y hy heq
    exact h.eq_of_family hx hy heq
  · intro r hr
    obtain ⟨x, hx, hown⟩ := h.session r hr
    exact ⟨x, Table.find?_mem hx, Table.find?_key hx, hown⟩
  · intro x hx hactive
    rw [h.live x hx, if_pos hactive]
  · intro x hx hrevoked after t hafter
    obtain ⟨ht, y, hy, hfam, hyrevoked⟩ := dead_run h ⟨x, hx, rfl, hrevoked⟩ hafter
    rw [← hfam, ht.live y hy, if_neg (by simp [hyrevoked])]
  · intro r hr hused refreshToken csrfToken ids now hhash after t hafter r' hr' hfam
    have hstep : step cfg s (.refresh refreshToken csrfToken ids now) =
        some (refresh cfg s refreshToken csrfToken ids now) := rfl
    have hafter₀ := families_step h (show Event.Fresh s (.refresh refreshToken csrfToken ids now) from trivial) hstep
    have htables : (refresh cfg s refreshToken csrfToken ids now).tables =
        (Identity.refresh cfg refreshToken csrfToken ids now s.tables).2 := by
      unfold refresh
      split <;> rename_i heq <;> rw [heq]
    have hdead : (refresh cfg s refreshToken csrfToken ids now).tables.Dead r.familyId := by
      rw [htables]
      exact h.dead_of_reuse hr hused hhash csrfToken ids now
    obtain ⟨ht, hdead'⟩ := dead_run hafter₀ hdead hafter
    refine ⟨ht.not_active hdead' hr' hfam, ?_⟩
    intro refreshToken' csrfToken' ids' now' tokens hhash'
    exact ht.not_refreshed hdead' hr' hfam hhash' csrfToken' ids' now' tokens

end System

def sampleService : Service where
  hash := id
  normalize := id
  hashPassword := fun salt password => salt ++ password
  verifyPassword := fun encoded password => encoded = "salt" ++ password
  accessMinutes := 15
  refreshDays := 30
  signingKeyId := "local-v1"

def sampleSessionIds (n : String) : SessionIds := ⟨⟨n, n, n⟩, n, n, n⟩

def refreshedRun : List Event :=
  [.createUser "owner" "correct horse" "1" "salt" 1, .login "owner" "correct horse" "" 2,
    .readUser "owner" "correct horse" "",
    .recordLogin "owner" "correct horse" ""
      (some ⟨"user_1", "owner", "saltcorrect horse", 1, .active, 1, 1⟩) "1" 3,
    .openSession ⟨"user_1", 1, "", true⟩ (sampleSessionIds "a") 4,
    .refresh "a" "a" ⟨"b", "b", "b"⟩ 5]

theorem refreshFamilies_refreshed : ∃ s,
    (System.machine sampleService).Run (fun s ev => ev.Fresh s) .init refreshedRun s ∧
      (∃ x ∈ s.tables.sessions.rows, x.status = .active ∧
        s.tables.activeCount x.refreshFamilyId = 1) ∧
      ∀ tokens, (refresh sampleService "b" "b" ⟨"c", "c", "c"⟩ 7
        (System.refresh sampleService s "a" "a" ⟨"c", "c", "c"⟩ 6).tables).1 ≠ .ok tokens := by
  obtain ⟨s, hs, x, hx, hactive, r, hr, hused, hhash, r', hr', hfam, hhash'⟩ :
      ∃ s ∈ (System.machine sampleService).exec (fun s ev => ev.Fresh s) .init refreshedRun,
      ∃ x ∈ s.tables.sessions.rows, x.status = .active ∧
      ∃ r ∈ s.tables.refreshTokens.rows, r.status = .used ∧ r.tokenHash = "a" ∧
      ∃ r' ∈ (System.refresh sampleService s "a" "a" ⟨"c", "c", "c"⟩ 6).tables.refreshTokens.rows,
        r'.familyId = r.familyId ∧ r'.tokenHash = "b" := by decide
  have hrun := Machine.run_of_exec hs
  obtain ⟨_, _, hlive, _, hreuse⟩ := System.refreshFamilies sampleService hrun
  refine ⟨s, hrun, ⟨x, hx, hactive, hlive x hx hactive⟩, fun tokens => ?_⟩
  exact (hreuse r hr hused "a" "a" ⟨"c", "c", "c"⟩ 6 hhash.symm [] _ (.nil _) r' hr' hfam).2 "b"
    "b" ⟨"c", "c", "c"⟩ 7 tokens hhash'.symm

end CodeResearch.Identity
