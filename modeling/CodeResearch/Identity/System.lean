import CodeResearch.Library.Machine
import CodeResearch.Identity.Store

/-!
# The identity service as interleaved transactions

Calls that span several transactions are in flight between them: `login`,
`create_local_session`, `change_password` and `revoke_session`. A step commits
one transaction. What the service has answered is recorded: the sessions that
were opened, each with the user row its call had read, and the issued tokens.
-/
namespace CodeResearch.Identity

/-- The arguments with which a call reaches `_create_session`. -/
structure SessionRequest where
  userId : String
  tokenVersion : ℕ
  userAgent : String
  /-- the call is a `login` that verified a password -/
  login : Bool
  deriving DecidableEq

/-- A call between two of its transactions. -/
inductive Call
  | loginLimited (username password userAgent : String)
  | loginRead (username password userAgent : String) (row : Option UserRow)
  | opening (request : SessionRequest)
  | changing (userId newPassword : String)
  | revoking (sessionId : String)
  deriving DecidableEq

inductive Event
  | createUser (username password userHex salt : String) (now : Timestamp)
  | login (username password userAgent : String) (now : Timestamp)
  | readUser (username password userAgent : String)
  | recordLogin (username password userAgent : String) (row : Option UserRow) (loginHex : String)
      (now : Timestamp)
  | createLocalSession (username userAgent userHex salt secret : String) (now : Timestamp)
  | openSession (request : SessionRequest) (ids : SessionIds) (now : Timestamp)
  | changePassword (userId currentPassword newPassword : String)
  | writePassword (userId newPassword salt : String) (now : Timestamp)
  | refresh (refreshToken csrfToken : String) (ids : TokenIds) (now : Timestamp)
  | logout (sessionId : String) (now : Timestamp)
  | revokeSession (userId sessionId : String)
  | writeRevocation (sessionId : String) (now : Timestamp)
  | revokeAllSessions (userId : String) (now : Timestamp)
  deriving DecidableEq

structure System where
  tables : Tables
  calls : List Call
  opened : List (String × SessionRequest)
  issued : List SessionTokens

def System.init : System := ⟨.empty, [], [], []⟩

namespace System

/-- A call in flight takes its next step, if it is there. -/
def advance (s : System) (c : Call) (f : System → System) : Option System :=
  if c ∈ s.calls then some (f { s with calls := s.calls.erase c }) else none

def push (s : System) (c : Call) : System := { s with calls := c :: s.calls }

variable (cfg : Service)

/-- The next transaction of a `login` that has read its row: a rejected one ends. -/
def recordLogin (s : System) (username password userAgent : String) (row : Option UserRow)
    (loginHex : String) (now : Timestamp) : System :=
  let identity := cfg.hash (cfg.normalize username)
  let source := cfg.hash (if userAgent = "" then "unknown" else userAgent)
  match cfg.accepts row password with
  | none => { s with tables := (Identity.recordLogin identity source .failed loginHex now s.tables).2 }
  | some u =>
    match Identity.recordLogin identity source .succeeded loginHex now s.tables with
    | (.ok _, t) => push { s with tables := t } (.opening ⟨u.userId, u.tokenVersion, userAgent, true⟩)
    | (.error _, t) => { s with tables := t }

def openSession (s : System) (request : SessionRequest) (ids : SessionIds) (now : Timestamp) :
    System :=
  match createSession cfg request.userId request.tokenVersion request.userAgent ids now s.tables with
  | (.ok tokens, t) =>
    { s with
      tables := t
      opened := (tokens.sessionId, request) :: s.opened
      issued := tokens :: s.issued }
  | (.error _, t) => { s with tables := t }

def createLocalSession (s : System) (username userAgent userHex salt secret : String)
    (now : Timestamp) : System :=
  if (cfg.normalize username).length < 3 then s
  else
    match localUser cfg username userHex salt secret now s.tables with
    | (.ok (userId, version), t) =>
      push { s with tables := t } (.opening ⟨userId, version, userAgent, false⟩)
    | (.error _, t) => { s with tables := t }

def refresh (s : System) (refreshToken csrfToken : String) (ids : TokenIds) (now : Timestamp) :
    System :=
  match Identity.refresh cfg refreshToken csrfToken ids now s.tables with
  | (.ok tokens, t) => { s with tables := t, issued := tokens :: s.issued }
  | (.error _, t) => { s with tables := t }

/-- One transaction; `none` if no call in flight can commit it. -/
def step (s : System) : Event → Option System
  | .createUser username password userHex salt now =>
    some { s with tables := (createUser cfg username password userHex salt now s.tables).2 }
  | .login username password userAgent now =>
    match enforceLoginLimit (cfg.hash (cfg.normalize username)) now s.tables with
    | .ok _ => some (s.push (.loginLimited username password userAgent))
    | .error _ => some s
  | .readUser username password userAgent =>
    s.advance (.loginLimited username password userAgent) fun s =>
      s.push (.loginRead username password userAgent
        (s.tables.findUsername (cfg.normalize username)))
  | .recordLogin username password userAgent row loginHex now =>
    s.advance (.loginRead username password userAgent row) fun s =>
      recordLogin cfg s username password userAgent row loginHex now
  | .createLocalSession username userAgent userHex salt secret now =>
    some (createLocalSession cfg s username userAgent userHex salt secret now)
  | .openSession request ids now =>
    s.advance (.opening request) fun s => openSession cfg s request ids now
  | .changePassword userId currentPassword newPassword =>
    match passwordOf cfg userId currentPassword newPassword s.tables with
    | .ok _ => some (s.push (.changing userId newPassword))
    | .error _ => some s
  | .writePassword userId newPassword salt now =>
    s.advance (.changing userId newPassword) fun s =>
      { s with tables := changePassword cfg userId newPassword salt now s.tables }
  | .refresh refreshToken csrfToken ids now => some (refresh cfg s refreshToken csrfToken ids now)
  | .logout sessionId now => some { s with tables := logout sessionId now s.tables }
  | .revokeSession userId sessionId =>
    match sessionOf userId sessionId s.tables with
    | .ok _ => some (s.push (.revoking sessionId))
    | .error _ => some s
  | .writeRevocation sessionId now =>
    s.advance (.revoking sessionId) fun s => { s with tables := logout sessionId now s.tables }
  | .revokeAllSessions userId now =>
    some { s with tables := revokeAllSessions userId now s.tables }

def machine : Machine System Event := ⟨step cfg⟩

theorem advance_eq_some {s t : System} {c : Call} {f : System → System} (h : s.advance c f = some t) :
    c ∈ s.calls ∧ t = f { s with calls := s.calls.erase c } := by
  unfold advance at h
  split_ifs at h with hc
  cases h
  exact ⟨hc, rfl⟩

end System

end CodeResearch.Identity
