import CodeResearch.Identity.StoreSpec
import CodeResearch.Identity.System

/-!
# What one step of the identity service changes

A step keeps the sessions, revokes families, opens a session for a call in
flight, or rotates a refresh token. It never deletes a user or lowers a token
version.
-/
namespace CodeResearch.Identity

def UsersKept (s t : Tables) : Prop :=
  ∀ id u, s.users.find? id = some u →
    ∃ v, t.users.find? id = some v ∧ u.tokenVersion ≤ v.tokenVersion

theorem UsersKept.of_eq {s t : Tables} (h : t.users = s.users) : UsersKept s t :=
  fun _ u hu => ⟨u, h ▸ hu, Nat.le_refl _⟩

theorem usersKept_insertUser {s t : Tables} {row : UserRow} (h : s.insertUser row = .ok t) :
    UsersKept s t := by
  unfold Tables.insertUser at h
  split_ifs at h
  simp only [except_map_eq_ok_iff, orError_eq_ok_iff] at h
  obtain ⟨v, hv, rfl⟩ := h
  exact fun _ u hu => ⟨u, Table.find?_insert_of_some hv hu, Nat.le_refl _⟩

theorem usersKept_updateUsers (s : Tables) (p : UserRow → Bool) (f : UserRow → UserRow)
    (hf : ∀ r, (f r).userId = r.userId) (hle : ∀ r, r.tokenVersion ≤ (f r).tokenVersion) :
    UsersKept s (s.updateUsers p f hf) := by
  intro id u hu
  refine ⟨if p u then f u else u, ?_, ?_⟩
  · rw [Tables.updateUsers_users, Table.find?_updateWhere, hu, Option.map_some]
  · split_ifs
    · exact hle u
    · exact Nat.le_refl _

section Tables

variable (cfg : Service) (s : Tables) (now : Timestamp)

/-- Creating a user, recording a login and the first half of a local session touch
neither sessions nor refresh tokens. -/
def SessionsKept (s t : Tables) : Prop :=
  t.sessions = s.sessions ∧ t.refreshTokens = s.refreshTokens ∧ UsersKept s t

theorem SessionsKept.refl (s : Tables) : SessionsKept s s := ⟨rfl, rfl, .of_eq rfl⟩

theorem sessionsKept_insertUser {t : Tables} {row : UserRow} (h : s.insertUser row = .ok t) :
    SessionsKept s t := by
  refine ⟨?_, ?_, usersKept_insertUser h⟩ <;>
  · unfold Tables.insertUser at h
    split_ifs at h
    simp only [except_map_eq_ok_iff] at h
    obtain ⟨v, _, rfl⟩ := h
    rfl

theorem sessionsKept_createUser (username password userHex salt : String) :
    SessionsKept s (createUser cfg username password userHex salt now s).2 := by
  unfold createUser
  split_ifs
  · exact .refl s
  · split
    · rename_i t ht
      exact sessionsKept_insertUser s ht
    · exact .refl s

theorem sessionsKept_localUser (username userHex salt secret : String) :
    SessionsKept s (localUser cfg username userHex salt secret now s).2 := by
  unfold localUser
  rcases transact_cases s _ with ⟨e, _, h⟩ | ⟨a, t, hx, h⟩
  · rw [h]
    exact .refl s
  · rw [h]
    split at hx
    · simp only [except_bind_eq_ok_iff, except_pure_eq_ok_iff, Prod.mk.injEq] at hx
      obtain ⟨_, _, _, rfl⟩ := hx
      exact .refl s
    · simp only [except_bind_eq_ok_iff, except_pure_eq_ok_iff, Prod.mk.injEq] at hx
      obtain ⟨u, hu, _, rfl⟩ := hx
      exact sessionsKept_insertUser s hu

theorem sessionsKept_recordLogin (identityHash sourceHash : String) (outcome : LoginOutcome)
    (loginHex : String) :
    SessionsKept s (recordLogin identityHash sourceHash outcome loginHex now s).2 := by
  unfold recordLogin
  rcases transact_cases s _ with ⟨e, _, h⟩ | ⟨a, t, hx, h⟩
  · rw [h]
    exact .refl s
  · rw [h]
    simp only [except_bind_eq_ok_iff, except_pure_eq_ok_iff, Prod.mk.injEq, Tables.insertLogin,
      except_map_eq_ok_iff] at hx
    obtain ⟨_, ⟨v, _, rfl⟩, _, rfl⟩ := hx
    exact ⟨rfl, rfl, .of_eq rfl⟩

variable {s}

theorem usersKept_changePassword (userId newPassword salt : String) :
    UsersKept s (changePassword cfg userId newPassword salt now s) :=
  usersKept_updateUsers s (fun u => u.userId = userId)
    (fun u => { u.bump now with passwordHash := cfg.hashPassword salt newPassword })
    (fun _ => rfl) fun _ => Nat.le_succ _

theorem find?_changePassword {userId : String} {u : UserRow} (hu : s.users.find? userId = some u)
    (newPassword salt : String) :
    (changePassword cfg userId newPassword salt now s).users.find? userId =
      some { u.bump now with passwordHash := cfg.hashPassword salt newPassword } := by
  have hrow := Table.find?_updateWhere s.users (fun u => u.userId = userId)
    (fun u => { u.bump now with passwordHash := cfg.hashPassword salt newPassword })
    (fun _ => rfl) userId
  rw [hu, Option.map_some, if_pos (by simpa using Table.find?_key hu)] at hrow
  exact hrow

theorem usersKept_revokeAllSessions (userId : String) :
    UsersKept s (revokeAllSessions userId now s) :=
  usersKept_updateUsers (s.revokeUser userId now) (fun u => u.userId = userId)
    (fun u => u.bump now) (fun _ => rfl) fun _ => Nat.le_succ _

theorem usersKept_logout (sessionId : String) : UsersKept s (logout sessionId now s) := by
  unfold logout
  split
  · exact .of_eq rfl
  · exact .of_eq rfl

theorem revocation_logout_any (sessionId : String) :
    ∃ F, Revocation F s (logout sessionId now s) := by
  cases hx : s.sessions.find? sessionId with
  | some x => exact ⟨_, revocation_logout hx now⟩
  | none =>
    refine ⟨fun _ => False, ?_⟩
    rw [logout, hx]
    exact ⟨⟨id, by simp, by simp⟩, ⟨id, by simp, by simp⟩⟩

theorem userRevocation_changePassword (userId newPassword salt : String) :
    UserRevocation userId s (changePassword cfg userId newPassword salt now s) := by
  have hrevoked := userRevocation_revokeUser (s.updateUsers (fun u => u.userId = userId)
    (fun u => { u.bump now with passwordHash := cfg.hashPassword salt newPassword })
    fun _ => rfl) userId now
  exact ⟨hrevoked.sessions, hrevoked.refreshTokens⟩

theorem userRevocation_revokeAllSessions (userId : String) :
    UserRevocation userId s (revokeAllSessions userId now s) := by
  have hrevoked := userRevocation_revokeUser s userId now
  exact ⟨hrevoked.sessions, hrevoked.refreshTokens⟩

end Tables

namespace System

variable {cfg : Service} {s t : System} {ev : Event}

/-- What a step does to sessions, refresh tokens and answers. -/
inductive Change (cfg : Service) (s t : System) : Event → Prop
  | kept (ev : Event) (tables : SessionsKept s.tables t.tables) (opened : t.opened = s.opened)
      (issued : t.issued = s.issued) : Change cfg s t ev
  | revoked (ev : Event) (F : String → Prop) (tables : Revocation F s.tables t.tables)
      (users : UsersKept s.tables t.tables) (opened : t.opened = s.opened)
      (issued : t.issued = s.issued) : Change cfg s t ev
  | userRevoked (ev : Event) (userId : String) (tables : UserRevocation userId s.tables t.tables)
      (users : UsersKept s.tables t.tables) (opened : t.opened = s.opened)
      (issued : t.issued = s.issued) : Change cfg s t ev
  | opening {request : SessionRequest} {ids : SessionIds} {now : Timestamp}
      {tokens : SessionTokens}
      (tables : Opening cfg request.userId request.userAgent request.tokenVersion ids now s.tables
        t.tables tokens)
      (opened : t.opened = (tokens.sessionId, request) :: s.opened)
      (issued : t.issued = tokens :: s.issued) : Change cfg s t (.openSession request ids now)
  | rotated {refreshToken csrfToken : String} {ids : TokenIds} {now : Timestamp} {r : RefreshRow}
      {x : SessionRow} {u : UserRow} {tokens : SessionTokens}
      (found : s.tables.findRefresh (cfg.hash refreshToken) = some (r, x, u))
      (tables : Rotation cfg csrfToken ids now s.tables t.tables r x u tokens)
      (opened : t.opened = s.opened) (issued : t.issued = tokens :: s.issued) :
      Change cfg s t (.refresh refreshToken csrfToken ids now)

theorem Change.users (h : Change cfg s t ev) : UsersKept s.tables t.tables := by
  cases h with
  | kept _ htables _ _ => exact htables.2.2
  | revoked _ _ _ husers _ _ | userRevoked _ _ _ husers _ _ => exact husers
  | opening htables _ _ => exact .of_eq htables.users
  | rotated _ htables _ _ => exact .of_eq htables.users

/-- A session stays, with its user, and stays revoked. -/
theorem Change.session (h : Change cfg s t ev) {id : String} {x : SessionRow}
    (hx : s.tables.sessions.find? id = some x) :
    ∃ y, t.tables.sessions.find? id = some y ∧ y.userId = x.userId ∧
      (x.status = .revoked → y.status = .revoked) := by
  cases h with
  | kept _ htables _ _ => exact ⟨x, by rw [htables.1, hx], rfl, fun h => h⟩
  | revoked _ F htables _ _ _ =>
    obtain ⟨f, hf, hfs⟩ := htables.sessions
    obtain ⟨-, huser, -, hdead, hkept⟩ := hfs x (Table.find?_mem hx)
    refine ⟨f x, Table.find?_of_rows_map hf (fun y hy => (hfs y hy).1) hx, huser, ?_⟩
    intro hrevoked
    by_cases hF : F x.refreshFamilyId
    · exact hdead hF
    · rw [hkept hF, hrevoked]
  | userRevoked _ userId htables _ _ _ =>
    obtain ⟨f, hf, hfs⟩ := htables.sessions
    obtain ⟨-, huser, -, hdead, hkept⟩ := hfs x (Table.find?_mem hx)
    refine ⟨f x, Table.find?_of_rows_map hf (fun y hy => (hfs y hy).1) hx, huser, ?_⟩
    intro hrevoked
    by_cases hu : x.userId = userId
    · exact hdead hu
    · rw [hkept hu, hrevoked]
  | opening htables _ _ => exact ⟨x, htables.find?_sessions hx, rfl, fun h => h⟩
  | rotated _ htables _ _ =>
    obtain ⟨f, -, hfind, hfs⟩ := htables.sessions_map
    obtain ⟨-, huser, -, hstatus⟩ := hfs x
    exact ⟨f x, by rw [hfind, hx, Option.map_some], huser, fun h => hstatus.trans h⟩

/-- Every step is one of these changes. -/
theorem step_change (h : step cfg s ev = some t) : Change cfg s t ev := by
  have hsame : ∀ {u : System}, u.tables = s.tables → u.opened = s.opened → u.issued = s.issued →
      Change cfg s u ev := fun htables hopened hissued =>
    .kept ev (htables ▸ .refl _) hopened hissued
  cases ev with
  | createUser username password userHex salt now =>
    cases h
    exact .kept _ (sessionsKept_createUser cfg s.tables now username password userHex salt) rfl rfl
  | login | changePassword | revokeSession =>
    simp only [step] at h
    split at h <;> cases h <;> exact hsame rfl rfl rfl
  | readUser username password userAgent =>
    simp only [step] at h
    obtain ⟨_, rfl⟩ := advance_eq_some h
    exact hsame rfl rfl rfl
  | recordLogin username password userAgent row loginHex now =>
    simp only [step] at h
    obtain ⟨_, rfl⟩ := advance_eq_some h
    unfold recordLogin
    dsimp only
    split
    · exact .kept _ (sessionsKept_recordLogin _ _ _ _ _ _) rfl rfl
    · have hkept := sessionsKept_recordLogin s.tables now (cfg.hash (cfg.normalize username))
        (cfg.hash (if userAgent = "" then "unknown" else userAgent)) .succeeded loginHex
      split <;> rename_i heq <;> rw [heq] at hkept <;> exact .kept _ hkept rfl rfl
  | createLocalSession username userAgent userHex salt secret now =>
    cases h
    unfold createLocalSession
    split_ifs
    · exact hsame rfl rfl rfl
    · have hkept := sessionsKept_localUser cfg s.tables now username userHex salt secret
      split <;> rename_i heq <;> rw [heq] at hkept <;> exact .kept _ hkept rfl rfl
  | openSession request ids now =>
    simp only [step] at h
    obtain ⟨_, rfl⟩ := advance_eq_some h
    unfold openSession
    dsimp only
    rcases createSession_cases cfg request.userId request.tokenVersion request.userAgent ids now
      s.tables with ⟨e, heq⟩ | ⟨tokens, u, heq, hopening⟩
    · rw [heq]
      exact hsame rfl rfl rfl
    · rw [heq]
      exact .opening hopening rfl rfl
  | writePassword userId newPassword salt now =>
    simp only [step] at h
    obtain ⟨_, rfl⟩ := advance_eq_some h
    exact .userRevoked _ _ (userRevocation_changePassword cfg now userId newPassword salt)
      (usersKept_changePassword cfg now userId newPassword salt) rfl rfl
  | refresh refreshToken csrfToken ids now =>
    cases h
    unfold refresh
    rcases refresh_cases cfg refreshToken csrfToken ids now s.tables with
      ⟨e, heq⟩ | ⟨r, x, u, _, _, heq⟩ | ⟨r, x, u, tokens, w, hfind, heq, hrot⟩
    · rw [heq]
      exact hsame rfl rfl rfl
    · rw [heq]
      exact .revoked _ _ (revocation_revokeFamilyIn s.tables r.familyId now) (.of_eq rfl) rfl rfl
    · rw [heq]
      exact .rotated hfind hrot rfl rfl
  | logout sessionId now =>
    cases h
    obtain ⟨F, hF⟩ := revocation_logout_any (s := s.tables) now sessionId
    exact .revoked _ F hF (usersKept_logout now sessionId) rfl rfl
  | writeRevocation sessionId now =>
    simp only [step] at h
    obtain ⟨_, rfl⟩ := advance_eq_some h
    obtain ⟨F, hF⟩ := revocation_logout_any (s := s.tables) now sessionId
    exact .revoked _ F hF (usersKept_logout now sessionId) rfl rfl
  | revokeAllSessions userId now =>
    cases h
    exact .userRevoked _ _ (userRevocation_revokeAllSessions now userId)
      (usersKept_revokeAllSessions now userId) rfl rfl

end System

end CodeResearch.Identity
