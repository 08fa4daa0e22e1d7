import CodeResearch.Library.Result
import CodeResearch.Library.Table

/-!
# The tables and transactions of the Local identity service

Each `with store._connect()` block is one function on the tables. The clock,
random suffixes and tokens are arguments. SHA-256, Unicode normalisation and the
password hasher are parameters, and an access token is its decoded payload.
-/
namespace CodeResearch.Identity

/-- Microseconds since the epoch. -/
abbrev Timestamp := ℕ

def second : Timestamp := 1000000
def minute : Timestamp := 60 * second
def day : Timestamp := 1440 * minute

inductive UserStatus
  | active | disabled
  deriving DecidableEq

inductive SessionStatus
  | active | revoked
  deriving DecidableEq

inductive RefreshStatus
  | active | used | revoked
  deriving DecidableEq

inductive LoginOutcome
  | failed | succeeded
  deriving DecidableEq

structure UserRow where
  userId : String
  usernameNormalized : String
  passwordHash : String
  tokenVersion : ℕ
  status : UserStatus
  createdAt : Timestamp
  updatedAt : Timestamp
  deriving DecidableEq

structure SessionRow where
  sessionId : String
  userId : String
  refreshFamilyId : String
  csrfTokenHash : String
  userAgentHash : Option String
  status : SessionStatus
  expiresAt : Timestamp
  createdAt : Timestamp
  updatedAt : Timestamp
  deriving DecidableEq

structure RefreshRow where
  tokenId : String
  familyId : String
  sessionId : String
  tokenHash : String
  status : RefreshStatus
  expiresAt : Timestamp
  usedAt : Option Timestamp
  revokedAt : Option Timestamp
  createdAt : Timestamp
  deriving DecidableEq

structure LoginRow where
  attemptId : String
  identityHash : String
  sourceHash : String
  outcome : LoginOutcome
  occurredAt : Timestamp
  deriving DecidableEq

structure Tables where
  users : Table UserRow.userId
  sessions : Table SessionRow.sessionId
  refreshTokens : Table RefreshRow.tokenId
  logins : Table LoginRow.attemptId

def Tables.empty : Tables := ⟨.empty, .empty, .empty, .empty⟩

/-- The payload that `_encode_access` signs. -/
structure AccessPayload where
  sub : String
  sid : String
  ver : ℕ
  iat : ℕ
  exp : ℕ
  kid : String
  deriving DecidableEq

structure SessionTokens where
  accessToken : AccessPayload
  refreshToken : String
  csrfToken : String
  sessionId : String
  refreshFamilyId : String
  deriving DecidableEq

structure AccessPrincipal where
  userId : String
  sessionId : String
  tokenVersion : ℕ
  deriving DecidableEq

inductive AuthError
  /-- `AuthenticationError(code)` -/
  | authentication (code : String)
  /-- `sqlite3.IntegrityError` -/
  | integrity
  deriving DecidableEq

structure Service where
  /-- `_hash` -/
  hash : String → String
  /-- `username.strip().casefold()` -/
  normalize : String → String
  /-- `password_hasher.hash` with its salt -/
  hashPassword : String → String → String
  verifyPassword : String → String → Bool
  accessMinutes : ℕ
  refreshDays : ℕ
  signingKeyId : String

/-- What `_issue_tokens_in` draws. -/
structure TokenIds where
  refresh : String
  csrf : String
  tokenHex : String
  deriving DecidableEq

/-- What `_create_session` draws. -/
structure SessionIds extends TokenIds where
  sessionHex : String
  familyHex : String
  sessionCsrf : String
  deriving DecidableEq

namespace Tables

/-- `users` has a primary key and a unique user name. -/
def insertUser (s : Tables) (u : UserRow) : Except AuthError Tables :=
  if s.users.rows.any fun r => r.usernameNormalized = u.usernameNormalized then .error .integrity
  else (orError .integrity (s.users.insert u)).map fun t => { s with users := t }

/-- `user_sessions` has a primary key and references its user. -/
def insertSession (s : Tables) (x : SessionRow) : Except AuthError Tables :=
  if (s.users.find? x.userId).isNone then .error .integrity
  else (orError .integrity (s.sessions.insert x)).map fun t => { s with sessions := t }

/-- `refresh_tokens` has a primary key and a unique token hash and references its
session. -/
def insertRefresh (s : Tables) (r : RefreshRow) : Except AuthError Tables :=
  if (s.sessions.find? r.sessionId).isNone ∨ s.refreshTokens.rows.any fun x =>
      x.tokenHash = r.tokenHash then .error .integrity
  else (orError .integrity (s.refreshTokens.insert r)).map fun t => { s with refreshTokens := t }

def insertLogin (s : Tables) (r : LoginRow) : Except AuthError Tables :=
  (orError .integrity (s.logins.insert r)).map fun t => { s with logins := t }

def updateUsers (s : Tables) (p : UserRow → Bool) (f : UserRow → UserRow)
    (hf : ∀ r, (f r).userId = r.userId) : Tables :=
  { s with users := s.users.updateWhere p f hf }

/-- `UPDATE user_sessions SET status='revoked',updated_at=? WHERE p`. -/
def revokeSessions (s : Tables) (p : SessionRow → Bool) (now : Timestamp) : Tables :=
  { s with
    sessions := s.sessions.updateWhere p
      (fun x => { x with status := .revoked, updatedAt := now }) fun _ => rfl }

/-- `UPDATE refresh_tokens SET status='revoked',revoked_at=? WHERE p`. -/
def revokeRefresh (s : Tables) (p : RefreshRow → Bool) (now : Timestamp) : Tables :=
  { s with
    refreshTokens := s.refreshTokens.updateWhere p
      (fun r => { r with status := .revoked, revokedAt := some now }) fun _ => rfl }

/-- `UPDATE refresh_tokens SET status='used',used_at=? WHERE token_id=?`. -/
def useRefresh (s : Tables) (tokenId : String) (now : Timestamp) : Tables :=
  { s with
    refreshTokens := s.refreshTokens.updateWhere (fun r => r.tokenId = tokenId)
      (fun r => { r with status := .used, usedAt := some now }) fun _ => rfl }

/-- `UPDATE user_sessions SET csrf_token_hash=?,updated_at=? WHERE session_id=?`. -/
def setCsrf (s : Tables) (sessionId csrfHash : String) (now : Timestamp) : Tables :=
  { s with
    sessions := s.sessions.updateWhere (fun x => x.sessionId = sessionId)
      (fun x => { x with csrfTokenHash := csrfHash, updatedAt := now }) fun _ => rfl }

/-- `_revoke_family_in`. -/
def revokeFamilyIn (s : Tables) (familyId : String) (now : Timestamp) : Tables :=
  (s.revokeRefresh (fun r => r.familyId = familyId ∧ r.status ≠ .revoked) now).revokeSessions
    (fun x => x.refreshFamilyId = familyId) now

/-- The two updates by which `change_password` and `revoke_all_sessions` end the
sessions of a user. -/
def revokeUser (s : Tables) (userId : String) (now : Timestamp) : Tables :=
  (s.revokeSessions (fun x => x.userId = userId) now).revokeRefresh
    (fun r => ((s.sessions.rows.filter fun x => x.userId = userId).any fun x =>
      x.sessionId = r.sessionId) ∧ r.status = .active) now

def findUsername (s : Tables) (username : String) : Option UserRow :=
  s.users.rows.find? fun u => u.usernameNormalized = username

def findRefresh (s : Tables) (tokenHash : String) : Option (RefreshRow × SessionRow × UserRow) :=
  (s.refreshTokens.rows.find? fun r => r.tokenHash = tokenHash).bind fun r =>
    (s.sessions.find? r.sessionId).bind fun x => (s.users.find? x.userId).map fun u => (r, x, u)

end Tables

variable (cfg : Service)

/-- The access token that `_issue_tokens_in` encodes. -/
def Service.access (userId sessionId : String) (tokenVersion : ℕ) (now : Timestamp) :
    AccessPayload where
  sub := userId
  sid := sessionId
  ver := tokenVersion
  iat := now / second
  exp := (now + cfg.accessMinutes * minute) / second
  kid := cfg.signingKeyId

/-- The row that `_issue_tokens_in` inserts. -/
def Service.refreshRow (sessionId familyId : String) (ids : TokenIds) (now : Timestamp) :
    RefreshRow where
  tokenId := "refresh_" ++ ids.tokenHex
  familyId := familyId
  sessionId := sessionId
  tokenHash := cfg.hash ids.refresh
  status := .active
  expiresAt := now + cfg.refreshDays * day
  usedAt := none
  revokedAt := none
  createdAt := now

/-- `_issue_tokens_in`. -/
def issueTokensIn (userId sessionId familyId : String) (tokenVersion : ℕ) (now : Timestamp)
    (csrf : Option String) (ids : TokenIds) (s : Tables) :
    Except AuthError (SessionTokens × Tables) := do
  let csrf := (csrf.filter (· ≠ "")).getD ids.csrf
  let s ← s.insertRefresh (cfg.refreshRow sessionId familyId ids now)
  return (⟨cfg.access userId sessionId tokenVersion now, ids.refresh, csrf, sessionId, familyId⟩,
    s.setCsrf sessionId (cfg.hash csrf) now)

/-- The row that `_create_session` inserts. -/
def Service.sessionRow (userId userAgent : String) (ids : SessionIds) (now : Timestamp) :
    SessionRow where
  sessionId := "session_" ++ ids.sessionHex
  userId := userId
  refreshFamilyId := "family_" ++ ids.familyHex
  csrfTokenHash := cfg.hash ids.sessionCsrf
  userAgentHash := if userAgent = "" then none else some (cfg.hash userAgent)
  status := .active
  expiresAt := now + cfg.refreshDays * day
  createdAt := now
  updatedAt := now

@[simp] theorem Service.sessionRow_sessionId (userId userAgent : String) (ids : SessionIds)
    (now : Timestamp) :
    (cfg.sessionRow userId userAgent ids now).sessionId = "session_" ++ ids.sessionHex := rfl

@[simp] theorem Service.refreshRow_sessionId (sessionId familyId : String) (ids : TokenIds)
    (now : Timestamp) : (cfg.refreshRow sessionId familyId ids now).sessionId = sessionId := rfl

/-- `_create_session`. -/
def createSession (userId : String) (tokenVersion : ℕ) (userAgent : String) (ids : SessionIds)
    (now : Timestamp) (s : Tables) : Except AuthError SessionTokens × Tables :=
  transact s do
    let x := cfg.sessionRow userId userAgent ids now
    let s ← s.insertSession x
    issueTokensIn cfg userId x.sessionId x.refreshFamilyId tokenVersion now (some ids.sessionCsrf)
      ids.toTokenIds s

/-- `create_user`. -/
def createUser (username password userHex salt : String) (now : Timestamp) (s : Tables) :
    Except AuthError String × Tables :=
  if (cfg.normalize username).length < 3 ∨ password.length < 12 then
    (.error (.authentication "invalid_registration"), s)
  else
    match s.insertUser ⟨"user_" ++ userHex, cfg.normalize username, cfg.hashPassword salt password, 1,
      .active, now, now⟩ with
    | .ok t => (.ok ("user_" ++ userHex), t)
    | .error _ => (.error (.authentication "invalid_registration"), s)

/-- The first transaction of `create_local_session`. -/
def localUser (username userHex salt secret : String) (now : Timestamp) (s : Tables) :
    Except AuthError (String × ℕ) × Tables :=
  transact s <|
    match s.findUsername (cfg.normalize username) with
    | some u => do
      ensure (u.status = .active) (.authentication "authentication_failed")
      return ((u.userId, u.tokenVersion), s)
    | none => do
      let s ← s.insertUser ⟨"user_" ++ userHex, cfg.normalize username, cfg.hashPassword salt secret,
        1, .active, now, now⟩
      return (("user_" ++ userHex, 1), s)

/-- `_enforce_login_limit`. -/
def enforceLoginLimit (identityHash : String) (now : Timestamp) (s : Tables) :
    Except AuthError Unit :=
  ensure ((s.logins.rows.filter fun r => r.identityHash = identityHash ∧ r.outcome = .failed ∧
    now - 15 * minute ≤ r.occurredAt).length < 5) (.authentication "login_rate_limited")

/-- `_record_login`. -/
def recordLogin (identityHash sourceHash : String) (outcome : LoginOutcome) (loginHex : String)
    (now : Timestamp) (s : Tables) : Except AuthError Unit × Tables :=
  transact s do
    let s ← s.insertLogin ⟨"login_" ++ loginHex, identityHash, sourceHash, outcome, now⟩
    return ((), s)

/-- The check that `login` makes on the row it has read. -/
def Service.accepts (row : Option UserRow) (password : String) : Option UserRow :=
  row.filter fun u => u.status = .active ∧ cfg.verifyPassword u.passwordHash password = true

/-- The lookup of `revoke_session`. -/
def sessionOf (userId sessionId : String) (s : Tables) : Except AuthError Unit :=
  match s.sessions.find? sessionId with
  | some x => ensure (x.userId = userId) (.authentication "session_not_found")
  | none => .error (.authentication "session_not_found")

/-- `logout`. -/
def logout (sessionId : String) (now : Timestamp) (s : Tables) : Tables :=
  match s.sessions.find? sessionId with
  | some x => (s.revokeSessions (fun y => y.sessionId = sessionId) now).revokeFamilyIn
      x.refreshFamilyId now
  | none => s

/-- The lookup of `change_password`. -/
def passwordOf (userId currentPassword newPassword : String) (s : Tables) : Except AuthError Unit :=
  if newPassword.length < 12 then .error (.authentication "invalid_password")
  else
    match s.users.find? userId with
    | some u => ensure (u.status = .active ∧ cfg.verifyPassword u.passwordHash currentPassword = true)
        (.authentication "authentication_failed")
    | none => .error (.authentication "authentication_failed")

/-- `token_version=token_version+1,updated_at=?`. -/
def UserRow.bump (u : UserRow) (now : Timestamp) : UserRow :=
  { u with tokenVersion := u.tokenVersion + 1, updatedAt := now }

/-- The writing transaction of `change_password`. -/
def changePassword (userId newPassword salt : String) (now : Timestamp) (s : Tables) : Tables :=
  (s.updateUsers (fun u => u.userId = userId)
    (fun u => { u.bump now with passwordHash := cfg.hashPassword salt newPassword })
    fun _ => rfl).revokeUser userId now

/-- `revoke_all_sessions`. -/
def revokeAllSessions (userId : String) (now : Timestamp) (s : Tables) : Tables :=
  (s.revokeUser userId now).updateUsers (fun u => u.userId = userId) (fun u => u.bump now)
    fun _ => rfl

/-- What `refresh` demands of a token that has not been used. -/
def Service.Refreshable (csrfToken : String) (now : Timestamp) (r : RefreshRow) (x : SessionRow)
    (u : UserRow) : Prop :=
  r.status = .active ∧ x.status = .active ∧ u.status = .active ∧ now < r.expiresAt ∧
    x.csrfTokenHash = cfg.hash csrfToken

instance (csrfToken : String) (now : Timestamp) (r : RefreshRow) (x : SessionRow) (u : UserRow) :
    Decidable (cfg.Refreshable csrfToken now r x u) :=
  inferInstanceAs (Decidable (_ ∧ _))

/-- `refresh`; a used token revokes its family before the error is raised. -/
def refresh (refreshToken csrfToken : String) (ids : TokenIds) (now : Timestamp) (s : Tables) :
    Except AuthError SessionTokens × Tables :=
  match s.findRefresh (cfg.hash refreshToken) with
  | none => (.error (.authentication "refresh_invalid"), s)
  | some (r, x, u) =>
    if r.status = .used then
      (.error (.authentication "refresh_reuse_detected"), s.revokeFamilyIn r.familyId now)
    else if cfg.Refreshable csrfToken now r x u then
      transact s (issueTokensIn cfg x.userId r.sessionId r.familyId u.tokenVersion now none ids
        (s.useRefresh r.tokenId now))
    else (.error (.authentication "refresh_invalid"), s)

/-- `verify_access` on a decoded token. -/
def verifyAccess (p : AccessPayload) (now : Timestamp) (s : Tables) :
    Except AuthError AccessPrincipal := do
  ensure (now / second < p.exp) (.authentication "access_expired")
  let x ← orError (.authentication "access_revoked")
    ((s.sessions.find? p.sid).filter fun x => x.userId = p.sub)
  let u ← orError (.authentication "access_revoked") (s.users.find? x.userId)
  ensure (x.status = .active ∧ u.status = .active ∧ u.tokenVersion = p.ver)
    (.authentication "access_revoked")
  return ⟨p.sub, p.sid, u.tokenVersion⟩

end CodeResearch.Identity
