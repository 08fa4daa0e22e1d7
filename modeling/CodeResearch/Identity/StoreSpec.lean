import CodeResearch.Identity.Store

/-!
# What one identity transaction can do

The writes to sessions and refresh tokens are of three kinds: a set of families
is revoked, a family is opened, or a family's active token is rotated.
-/
namespace CodeResearch.Identity

namespace Tables

variable (s : Tables) (now : Timestamp)

section Projections

variable (p : SessionRow → Bool) (q : RefreshRow → Bool) (id h : String)

@[simp] theorem updateUsers_users (p : UserRow → Bool) (f : UserRow → UserRow)
    (hf : ∀ r, (f r).userId = r.userId) :
    (s.updateUsers p f hf).users = s.users.updateWhere p f hf := rfl

end Projections

end Tables

/-- The families that meet `F` are revoked, and nothing else is touched. -/
structure Revocation (F : String → Prop) (s t : Tables) : Prop where
  sessions : ∃ f : SessionRow → SessionRow, t.sessions.rows = s.sessions.rows.map f ∧
    ∀ x ∈ s.sessions.rows, (f x).sessionId = x.sessionId ∧ (f x).userId = x.userId ∧
      (f x).refreshFamilyId = x.refreshFamilyId ∧
      (F x.refreshFamilyId → (f x).status = .revoked) ∧
      (¬ F x.refreshFamilyId → (f x).status = x.status)
  refreshTokens : ∃ g : RefreshRow → RefreshRow, t.refreshTokens.rows = s.refreshTokens.rows.map g ∧
    ∀ r ∈ s.refreshTokens.rows, (g r).sessionId = r.sessionId ∧ (g r).familyId = r.familyId ∧
      (g r).tokenHash = r.tokenHash ∧ (F r.familyId → (g r).status ≠ .active) ∧
      (¬ F r.familyId → (g r).status = r.status)

structure Owned (s : Tables) : Prop where
  session : ∀ r ∈ s.refreshTokens.rows,
    ∃ x, s.sessions.find? r.sessionId = some x ∧ x.refreshFamilyId = r.familyId
  families : (s.sessions.rows.map SessionRow.refreshFamilyId).Nodup

variable {s : Tables}

theorem Owned.eq_of_family (h : Owned s) {x y : SessionRow} (hx : x ∈ s.sessions.rows)
    (hy : y ∈ s.sessions.rows) (heq : x.refreshFamilyId = y.refreshFamilyId) : x = y :=
  List.inj_on_of_nodup_map h.families hx hy heq

section Revocations

variable {s : Tables}

theorem revocation_revokeFamilyIn (s : Tables) (familyId : String) (now : Timestamp) :
    Revocation (· = familyId) s (s.revokeFamilyIn familyId now) := by
  refine ⟨⟨_, rfl, ?_⟩, ⟨_, rfl, ?_⟩⟩
  · intro x _
    by_cases hf : x.refreshFamilyId = familyId <;> simp [hf]
  · intro r _
    by_cases hf : r.familyId = familyId
    · by_cases hr : r.status = .revoked <;> simp [hf, hr]
    · simp [hf]

theorem revocation_logout {sessionId : String} {x : SessionRow}
    (hx : s.sessions.find? sessionId = some x) (now : Timestamp) :
    Revocation (· = x.refreshFamilyId) s (logout sessionId now s) := by
  have hlogout : logout sessionId now s =
      (s.revokeSessions (fun y => y.sessionId = sessionId) now).revokeFamilyIn
        x.refreshFamilyId now := by
    rw [logout, hx]
  rw [hlogout]
  refine ⟨⟨fun y => if y.refreshFamilyId = x.refreshFamilyId then
      { y with status := .revoked, updatedAt := now } else y, ?_, ?_⟩, ⟨_, rfl, ?_⟩⟩
  · simp only [Tables.revokeFamilyIn, Tables.revokeSessions, Tables.revokeRefresh,
      Table.updateWhere, Table.rows_mapRows, List.map_map]
    apply List.map_congr_left
    intro y hy
    by_cases hid : y.sessionId = sessionId
    · have hsame : y = x := Option.some.inj ((hid ▸ Table.find?_of_mem hy).symm.trans hx)
      simp [hsame, Table.find?_key hx]
    · by_cases hf : y.refreshFamilyId = x.refreshFamilyId <;> simp [hid, hf]
  · intro y _
    by_cases hf : y.refreshFamilyId = x.refreshFamilyId <;> simp [hf]
  · intro r _
    by_cases hf : r.familyId = x.refreshFamilyId
    · by_cases hr : r.status = .revoked <;> simp [hf, hr]
    · simp [hf]

/-- The sessions of a user are revoked with their tokens, and nothing else is touched. -/
structure UserRevocation (userId : String) (s t : Tables) : Prop where
  sessions : ∃ f : SessionRow → SessionRow, t.sessions.rows = s.sessions.rows.map f ∧
    ∀ x ∈ s.sessions.rows, (f x).sessionId = x.sessionId ∧ (f x).userId = x.userId ∧
      (f x).refreshFamilyId = x.refreshFamilyId ∧
      (x.userId = userId → (f x).status = .revoked) ∧
      (x.userId ≠ userId → (f x).status = x.status)
  refreshTokens : ∃ g : RefreshRow → RefreshRow, t.refreshTokens.rows = s.refreshTokens.rows.map g ∧
    ∀ r ∈ s.refreshTokens.rows, (g r).sessionId = r.sessionId ∧ (g r).familyId = r.familyId ∧
      (g r).tokenHash = r.tokenHash ∧
      ((∃ y ∈ s.sessions.rows, y.userId = userId ∧ y.sessionId = r.sessionId) →
        (g r).status ≠ .active) ∧
      ((¬ ∃ y ∈ s.sessions.rows, y.userId = userId ∧ y.sessionId = r.sessionId) →
        (g r).status = r.status)

theorem userRevocation_revokeUser (s : Tables) (userId : String) (now : Timestamp) :
    UserRevocation userId s (s.revokeUser userId now) := by
  refine ⟨⟨_, rfl, ?_⟩, ⟨_, rfl, ?_⟩⟩
  · intro x _
    by_cases hu : x.userId = userId <;> simp [hu]
  · intro r _
    by_cases hu : ∃ y ∈ s.sessions.rows, y.userId = userId ∧ y.sessionId = r.sessionId
    · have hany : ((s.sessions.rows.filter fun x => x.userId = userId).any fun x =>
          x.sessionId = r.sessionId) = true := by simpa using hu
      by_cases hr : r.status = .active <;> simp [hu, hany, hr]
    · have hany : ((s.sessions.rows.filter fun x => x.userId = userId).any fun x =>
          x.sessionId = r.sessionId) = false := by simpa using hu
      simp [hu, hany]

def FamilyOf (s : Tables) (userId : String) (familyId : String) : Prop :=
  ∃ x ∈ s.sessions.rows, x.userId = userId ∧ x.refreshFamilyId = familyId

/-- Where tokens belong to the session of their family, the sessions of a user are
revoked by family. -/
theorem UserRevocation.revocation {t : Tables} {userId : String} (h : UserRevocation userId s t)
    (hown : Owned s) : Revocation (FamilyOf s userId) s t := by
  obtain ⟨⟨f, hf, hfs⟩, g, hg, hgs⟩ := h
  refine ⟨⟨f, hf, ?_⟩, ⟨g, hg, ?_⟩⟩
  · intro x hx
    obtain ⟨hid, huser, hfam, hdead, hkept⟩ := hfs x hx
    refine ⟨hid, huser, hfam, ?_, ?_⟩
    · rintro ⟨y, hy, hu, heq⟩
      exact hdead (hown.eq_of_family hy hx heq ▸ hu)
    · intro hnot
      exact hkept fun hu => hnot ⟨x, hx, hu, rfl⟩
  · intro r hr
    obtain ⟨hid, hfam, hhash, hdead, hkept⟩ := hgs r hr
    obtain ⟨x, hx, hfamily⟩ := hown.session r hr
    refine ⟨hid, hfam, hhash, ?_, ?_⟩
    · rintro ⟨y, hy, hu, heq⟩
      have hsame := hown.eq_of_family hy (Table.find?_mem hx) (heq.trans hfamily.symm)
      exact hdead ⟨y, hy, hu, hsame ▸ Table.find?_key hx⟩
    · intro hnot
      apply hkept
      rintro ⟨y, hy, hu, heq⟩
      have hsame : y = x := Option.some.inj ((heq ▸ Table.find?_of_mem hy).symm.trans hx)
      exact hnot ⟨y, hy, hu, hsame ▸ hfamily⟩

end Revocations

variable (cfg : Service)

section Issuing

variable {cfg} {s t : Tables} {userId sessionId familyId : String} {version : ℕ}
  {now : Timestamp} {csrf : Option String} {ids : TokenIds} {tokens : SessionTokens}

/-- An accepted `_issue_tokens_in` inserts one active token. -/
theorem issueTokensIn_ok
    (h : issueTokensIn cfg userId sessionId familyId version now csrf ids s = .ok (tokens, t)) :
    ∃ v csrfHash, s.refreshTokens.insert (cfg.refreshRow sessionId familyId ids now) = some v ∧
      (∀ r ∈ s.refreshTokens.rows, r.tokenHash ≠ cfg.hash ids.refresh) ∧
      t = ({ s with refreshTokens := v }).setCsrf sessionId csrfHash now ∧
      tokens.accessToken = cfg.access userId sessionId version now ∧
      tokens.sessionId = sessionId := by
  simp only [issueTokensIn, except_bind_eq_ok_iff, except_pure_eq_ok_iff, Prod.mk.injEq] at h
  obtain ⟨u, hu, rfl, rfl⟩ := h
  unfold Tables.insertRefresh at hu
  split_ifs at hu with hany
  simp only [except_map_eq_ok_iff, orError_eq_ok_iff] at hu
  obtain ⟨v, hv, rfl⟩ := hu
  refine ⟨v, _, hv, ?_, rfl, rfl, rfl⟩
  intro r hr heq
  exact hany (.inr (List.any_eq_true.mpr ⟨r, hr, decide_eq_true heq⟩))

end Issuing

structure Opening (userId userAgent : String) (version : ℕ) (ids : SessionIds) (now : Timestamp)
    (s t : Tables) (tokens : SessionTokens) : Prop where
  user : ∃ u, s.users.find? userId = some u
  users : t.users = s.users
  sessions : ∃ v csrfHash, s.sessions.insert (cfg.sessionRow userId userAgent ids now) = some v ∧
    t.sessions = v.updateWhere (fun x => x.sessionId = "session_" ++ ids.sessionHex)
      (fun x => { x with csrfTokenHash := csrfHash, updatedAt := now }) fun _ => rfl
  refreshTokens : s.refreshTokens.insert (cfg.refreshRow ("session_" ++ ids.sessionHex)
    ("family_" ++ ids.familyHex) ids.toTokenIds now) = some t.refreshTokens
  hash : ∀ r ∈ s.refreshTokens.rows, r.tokenHash ≠ cfg.hash ids.refresh
  accessToken : tokens.accessToken =
    cfg.access userId ("session_" ++ ids.sessionHex) version now
  sessionId : tokens.sessionId = "session_" ++ ids.sessionHex

theorem createSession_cases (userId : String) (version : ℕ) (userAgent : String)
    (ids : SessionIds) (now : Timestamp) (s : Tables) :
    (∃ e, createSession cfg userId version userAgent ids now s = (.error e, s)) ∨
    ∃ tokens t, createSession cfg userId version userAgent ids now s = (.ok tokens, t) ∧
      Opening cfg userId userAgent version ids now s t tokens := by
  unfold createSession
  rcases transact_cases s _ with ⟨e, _, h⟩ | ⟨tokens, t, hx, h⟩
  · exact .inl ⟨e, h⟩
  · right
    refine ⟨tokens, t, h, ?_⟩
    simp only [except_bind_eq_ok_iff] at hx
    obtain ⟨u, hu, hx⟩ := hx
    unfold Tables.insertSession at hu
    split_ifs at hu with huser
    simp only [except_map_eq_ok_iff, orError_eq_ok_iff] at hu
    obtain ⟨v, hv, rfl⟩ := hu
    obtain ⟨w, csrfHash, hw, hhash, rfl, haccess, hsession⟩ := issueTokensIn_ok hx
    refine ⟨?_, rfl, ⟨v, csrfHash, hv, rfl⟩, hw, hhash, haccess, hsession⟩
    exact Option.ne_none_iff_exists'.mp (by simpa [Service.sessionRow] using huser)

section Opening

variable {cfg} {s t : Tables} {userId userAgent : String} {version : ℕ} {ids : SessionIds}
  {now : Timestamp} {tokens : SessionTokens}

theorem Opening.find?_sessions (h : Opening cfg userId userAgent version ids now s t tokens)
    {id : String} {x : SessionRow} (hx : s.sessions.find? id = some x) :
    t.sessions.find? id = some x := by
  obtain ⟨v, csrfHash, hv, ht⟩ := h.sessions
  rw [ht, Table.find?_updateWhere, Table.find?_insert_of_some hv hx, Option.map_some, if_neg]
  intro heq
  exact Table.insert_fresh hv (List.mem_map.mpr ⟨x, Table.find?_mem hx, by simpa using heq⟩)

theorem Opening.session_fresh (h : Opening cfg userId userAgent version ids now s t tokens) :
    s.sessions.find? ("session_" ++ ids.sessionHex) = none := by
  obtain ⟨v, csrfHash, hv, -⟩ := h.sessions
  rw [Table.find?_eq_none_iff]
  exact Table.insert_fresh hv

theorem Opening.find?_session (h : Opening cfg userId userAgent version ids now s t tokens) :
    ∃ x, t.sessions.find? ("session_" ++ ids.sessionHex) = some x ∧ x.userId = userId := by
  obtain ⟨v, csrfHash, hv, ht⟩ := h.sessions
  have hself := Table.find?_insert_self hv
  rw [Service.sessionRow_sessionId] at hself
  rw [ht, Table.find?_updateWhere, hself, Option.map_some]
  refine ⟨_, rfl, ?_⟩
  split_ifs <;> rfl

end Opening

/-- The tables after the active token of a family was rotated. -/
structure Rotation (csrfToken : String) (ids : TokenIds) (now : Timestamp) (s t : Tables)
    (r : RefreshRow) (x : SessionRow) (u : UserRow) (tokens : SessionTokens) : Prop where
  accepted : cfg.Refreshable csrfToken now r x u
  users : t.users = s.users
  sessions : ∃ csrfHash, t.sessions = s.sessions.updateWhere (fun x => x.sessionId = r.sessionId)
    (fun x => { x with csrfTokenHash := csrfHash, updatedAt := now }) fun _ => rfl
  refreshTokens : (s.useRefresh r.tokenId now).refreshTokens.insert
    (cfg.refreshRow r.sessionId r.familyId ids now) = some t.refreshTokens
  hash : ∀ y ∈ s.refreshTokens.rows, y.tokenHash ≠ cfg.hash ids.refresh
  accessToken : tokens.accessToken = cfg.access x.userId r.sessionId u.tokenVersion now
  sessionId : tokens.sessionId = r.sessionId

section Rotation

variable {cfg} {s t : Tables} {csrfToken : String} {ids : TokenIds} {now : Timestamp}
  {r : RefreshRow} {x : SessionRow} {u : UserRow} {tokens : SessionTokens}

theorem Rotation.sessions_map (h : Rotation cfg csrfToken ids now s t r x u tokens) :
    ∃ f : SessionRow → SessionRow, t.sessions.rows = s.sessions.rows.map f ∧
      (∀ k, t.sessions.find? k = (s.sessions.find? k).map f) ∧
      ∀ y, (f y).sessionId = y.sessionId ∧ (f y).userId = y.userId ∧
        (f y).refreshFamilyId = y.refreshFamilyId ∧ (f y).status = y.status := by
  obtain ⟨csrfHash, ht⟩ := h.sessions
  refine ⟨_, by rw [ht]; rfl, fun k => by rw [ht]; exact Table.find?_updateWhere _ _ _ _ k, ?_⟩
  intro y
  dsimp only
  split_ifs <;> exact ⟨rfl, rfl, rfl, rfl⟩

end Rotation

theorem findRefresh_some {tokenHash : String} {r : RefreshRow} {x : SessionRow} {u : UserRow}
    (h : s.findRefresh tokenHash = some (r, x, u)) :
    r ∈ s.refreshTokens.rows ∧ r.tokenHash = tokenHash ∧
      s.sessions.find? r.sessionId = some x ∧ s.users.find? x.userId = some u := by
  simp only [Tables.findRefresh, Option.bind_eq_some_iff, Option.map_eq_some_iff,
    Prod.mk.injEq] at h
  obtain ⟨r, hr, x, hx, u, hu, rfl, rfl, rfl⟩ := h
  exact ⟨List.mem_of_find?_eq_some hr, by simpa using List.find?_some hr, hx, hu⟩

/-- `refresh` rotates, revokes a family whose used token is presented, or fails. -/
theorem refresh_cases (refreshToken csrfToken : String) (ids : TokenIds) (now : Timestamp)
    (s : Tables) :
    (∃ e, refresh cfg refreshToken csrfToken ids now s = (.error e, s)) ∨
    (∃ r x u, s.findRefresh (cfg.hash refreshToken) = some (r, x, u) ∧ r.status = .used ∧
      refresh cfg refreshToken csrfToken ids now s =
        (.error (.authentication "refresh_reuse_detected"), s.revokeFamilyIn r.familyId now)) ∨
    ∃ r x u tokens t, s.findRefresh (cfg.hash refreshToken) = some (r, x, u) ∧
      refresh cfg refreshToken csrfToken ids now s = (.ok tokens, t) ∧
      Rotation cfg csrfToken ids now s t r x u tokens := by
  unfold refresh
  split
  · exact .inl ⟨_, rfl⟩
  · rename_i r x u hfind
    split_ifs with hused haccepted
    · exact .inr (.inl ⟨r, x, u, hfind, hused, rfl⟩)
    · rcases transact_cases s _ with ⟨e, _, h⟩ | ⟨tokens, t, hx, h⟩
      · exact .inl ⟨e, h⟩
      · obtain ⟨w, csrfHash, hw, hhash, rfl, haccess, hsession⟩ := issueTokensIn_ok hx
        refine .inr (.inr ⟨r, x, u, tokens, _, hfind, h, haccepted, rfl, ⟨csrfHash, rfl⟩, hw, ?_,
          haccess, hsession⟩)
        intro y hy
        have hy' : (if decide (y.tokenId = r.tokenId) = true then
            { y with status := .used, usedAt := some now } else y) ∈
            (s.useRefresh r.tokenId now).refreshTokens.rows :=
          List.mem_map_of_mem hy
        have hne := hhash _ hy'
        split_ifs at hne <;> exact hne
    · exact .inl ⟨_, rfl⟩

theorem verifyAccess_ok {p : AccessPayload} {now : Timestamp} {who : AccessPrincipal}
    (h : verifyAccess p now s = .ok who) :
    ∃ x u, s.sessions.find? p.sid = some x ∧ s.users.find? x.userId = some u ∧
      x.status = .active ∧ u.tokenVersion = p.ver := by
  simp only [verifyAccess, except_bind_eq_ok_iff, except_pure_eq_ok_iff, ensure_eq_ok_iff,
    orError_eq_ok_iff, Option.filter_eq_some_iff] at h
  obtain ⟨-, -, x, ⟨hx, -⟩, u, hu, -, ⟨hactive, -, hver⟩, -⟩ := h
  exact ⟨x, u, hx, hu, hactive, hver⟩

end CodeResearch.Identity
