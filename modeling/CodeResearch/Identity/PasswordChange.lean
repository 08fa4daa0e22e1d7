import CodeResearch.Identity.Families

/-!
# What a password change ends

`change_password` revokes the sessions that are there. A login that has read its
user row before may insert its session afterwards. The access token of such a
session carries the old version and is refused, but a refresh reads the user row
again and issues a token of the current version.
-/
namespace CodeResearch.Identity

def SessionRequest.Stale (q : SessionRequest) (userId : String) (version : ℕ) : Prop :=
  q.login = true ∧ q.userId = userId ∧ q.tokenVersion ≤ version

instance (q : SessionRequest) (userId : String) (version : ℕ) :
    Decidable (q.Stale userId version) :=
  inferInstanceAs (Decidable (_ ∧ _))

def Event.Revives (cfg : Service) (userId : String) (version : ℕ) (s : System) : Event → Prop
  | .refresh refreshToken csrfToken _ now =>
    ∃ row ∈ s.tables.findRefresh (cfg.hash refreshToken),
      cfg.Refreshable csrfToken now row.1 row.2.1 row.2.2 ∧
        ∃ p ∈ s.opened, p.1 = row.1.sessionId ∧ p.2.Stale userId version
  | _ => False

instance (cfg : Service) (userId : String) (version : ℕ) (s : System) (ev : Event) :
    Decidable (ev.Revives cfg userId version s) := by
  unfold Event.Revives
  split <;> infer_instance

def Tables.Revoked (s : Tables) (sessionId : String) : Prop :=
  ∃ x, s.sessions.find? sessionId = some x ∧ x.status = .revoked

/-- The calls that end a session: those for it and those for all sessions of its user. -/
def Event.Ends : Event → SessionRow → Prop
  | .logout sessionId _, x | .writeRevocation sessionId _, x => x.sessionId = sessionId
  | .revokeAllSessions userId _, x | .writePassword userId _ _ _, x => x.userId = userId
  | _, _ => False

namespace System

variable (cfg : Service)

/-- The steps after a password change that revive no stale session. -/
def RevivesNone (userId : String) (version : ℕ) (s : System) (ev : Event) : Prop :=
  ¬ ev.Revives cfg userId version s

instance (userId : String) (version : ℕ) (s : System) (ev : Event) :
    Decidable (RevivesNone cfg userId version s ev) :=
  inferInstanceAs (Decidable (¬ _))

/-- After `change_password` has committed, no token of a session whose login had
read an earlier user row passes `verify_access`. -/
def PasswordChangeEnds (G : String → ℕ → System → Event → Prop) : Prop :=
  ∀ (before after : List Event) (s₀ s₁ s₂ : System) (userId newPassword salt : String)
    (now : Timestamp) (u : UserRow),
    (machine cfg).Run Machine.Free .init before s₀ → s₀.tables.users.find? userId = some u →
    step cfg s₀ (.writePassword userId newPassword salt now) = some s₁ →
    (machine cfg).Run (G userId u.tokenVersion) s₁ after s₂ →
    ∀ p ∈ s₂.opened, p.2.Stale userId u.tokenVersion →
    ∀ tokens ∈ s₂.issued, tokens.sessionId = p.1 → ∀ (now' : Timestamp) (who : AccessPrincipal),
      verifyAccess tokens.accessToken now' s₂.tables ≠ .ok who

variable {cfg} {s t : System} {userId : String} {version : ℕ} {ev : Event}

/-- The answers of the service are about sessions that it stores. -/
structure Recorded (s : System) : Prop where
  opened : ∀ p ∈ s.opened,
    ∃ x, s.tables.sessions.find? p.1 = some x ∧ x.userId = p.2.userId
  issued : ∀ tokens ∈ s.issued, tokens.accessToken.sid = tokens.sessionId ∧
    ∃ x, s.tables.sessions.find? tokens.sessionId = some x

theorem recorded_init : Recorded .init := by
  constructor
  · intro p hp
    cases hp
  · intro tokens htokens
    cases htokens

/-- What was recorded stays recorded. -/
theorem Recorded.keep (h : Recorded s) (hchange : Change cfg s t ev) :
    (∀ p ∈ s.opened, ∃ x, t.tables.sessions.find? p.1 = some x ∧ x.userId = p.2.userId) ∧
      ∀ tokens ∈ s.issued, tokens.accessToken.sid = tokens.sessionId ∧
        ∃ x, t.tables.sessions.find? tokens.sessionId = some x := by
  constructor
  · intro p hp
    obtain ⟨x, hx, huser⟩ := h.opened p hp
    obtain ⟨y, hy, hkept, _⟩ := hchange.session hx
    exact ⟨y, hy, hkept.trans huser⟩
  · intro tokens htokens
    obtain ⟨hsid, x, hx⟩ := h.issued tokens htokens
    obtain ⟨y, hy, _⟩ := hchange.session hx
    exact ⟨hsid, y, hy⟩

theorem Recorded.change (h : Recorded s) (hchange : Change cfg s t ev) : Recorded t := by
  obtain ⟨hopened, hissued⟩ := h.keep hchange
  cases hchange with
  | kept _ _ heq heq' => exact ⟨heq ▸ hopened, heq' ▸ hissued⟩
  | revoked _ _ _ _ heq heq' | userRevoked _ _ _ _ heq heq' => exact ⟨heq ▸ hopened, heq' ▸ hissued⟩
  | opening htables heq heq' =>
    obtain ⟨x, hx, huser⟩ := htables.find?_session
    rw [← htables.sessionId] at hx
    constructor
    · rw [heq]
      intro p hp
      rcases List.mem_cons.mp hp with rfl | hp
      · exact ⟨x, hx, huser⟩
      · exact hopened p hp
    · rw [heq']
      intro tokens htokens
      rcases List.mem_cons.mp htokens with rfl | htokens
      · exact ⟨by rw [htables.accessToken, htables.sessionId]; rfl, x, hx⟩
      · exact hissued tokens htokens
  | rotated hfound htables heq heq' =>
    refine ⟨heq ▸ hopened, ?_⟩
    rw [heq']
    intro tokens htokens
    rcases List.mem_cons.mp htokens with rfl | htokens
    · obtain ⟨-, -, hx, -⟩ := findRefresh_some hfound
      obtain ⟨f, -, hfind, -⟩ := htables.sessions_map
      rw [htables.accessToken, htables.sessionId, hfind, hx]
      exact ⟨rfl, _, rfl⟩
    · exact hissued tokens htokens

theorem recorded_run {evs : List Event} (hrun : (machine cfg).Run Machine.Free .init evs s) :
    Recorded s :=
  Machine.Run.invariant Recorded (fun _ _ _ h _ hstep => h.change (step_change hstep)) hrun
    recorded_init

theorem revoked_of_ends {x : SessionRow} (hx : x ∈ s.tables.sessions.rows) (hends : ev.Ends x)
    (hstep : step cfg s ev = some t) : t.tables.Revoked x.sessionId := by
  have hfind := Table.find?_of_mem hx
  have hone : ∀ sessionId now, x.sessionId = sessionId →
      t.tables = logout sessionId now s.tables → t.tables.Revoked x.sessionId := by
    rintro _ now rfl ht
    obtain ⟨f, hf, hfs⟩ := (revocation_logout hfind now).sessions
    obtain ⟨-, -, -, hdead, -⟩ := hfs x hx
    rw [ht]
    exact ⟨f x, Table.find?_of_rows_map hf (fun y hy => (hfs y hy).1) hfind, hdead rfl⟩
  have hall : ∀ userId, x.userId = userId → UserRevocation userId s.tables t.tables →
      t.tables.Revoked x.sessionId := by
    intro userId huser htables
    obtain ⟨f, hf, hfs⟩ := htables.sessions
    obtain ⟨-, -, -, hdead, -⟩ := hfs x hx
    exact ⟨f x, Table.find?_of_rows_map hf (fun y hy => (hfs y hy).1) hfind, hdead huser⟩
  cases ev with
  | logout sessionId now =>
    cases hstep
    exact hone _ now hends rfl
  | writeRevocation sessionId now =>
    simp only [step] at hstep
    obtain ⟨-, rfl⟩ := advance_eq_some hstep
    exact hone _ now hends rfl
  | revokeAllSessions userId now =>
    cases hstep
    exact hall _ hends (userRevocation_revokeAllSessions now userId)
  | writePassword userId newPassword salt now =>
    simp only [step] at hstep
    obtain ⟨-, rfl⟩ := advance_eq_some hstep
    exact hall _ hends (userRevocation_changePassword cfg now userId newPassword salt)
  | _ => exact hends.elim

/-- Once a session is ended, no access token that names it is accepted again. -/
def EndsAccess (cfg : Service) : Prop :=
  ∀ (s₀ s₁ s₂ : System) (ev : Event) (after : List Event) (x : SessionRow),
    x ∈ s₀.tables.sessions.rows → ev.Ends x → step cfg s₀ ev = some s₁ →
    (machine cfg).Run Machine.Free s₁ after s₂ → ∀ p : AccessPayload, p.sid = x.sessionId →
    ∀ (now : Timestamp) (who : AccessPrincipal), verifyAccess p now s₂.tables ≠ .ok who

theorem endsAccess (cfg : Service) : EndsAccess cfg := by
  intro s₀ s₁ s₂ ev after x hx hends hstep hafter p hsid now who hverified
  obtain ⟨y, hy, hrevoked⟩ : s₂.tables.Revoked x.sessionId := by
    apply hafter.invariant (fun s => s.tables.Revoked x.sessionId) ?_
      (revoked_of_ends hx hends hstep)
    rintro s _ t ⟨y, hy, hrevoked⟩ _ hstep
    obtain ⟨z, hz, _, hdead⟩ := (step_change hstep).session hy
    exact ⟨z, hz, hdead hrevoked⟩
  obtain ⟨z, _, hz, _, hactive, _⟩ := verifyAccess_ok hverified
  rw [hsid, hy] at hz
  cases hz
  rw [hrevoked] at hactive
  cases hactive

/-- The state after a password change: the tokens of a stale session are of the
old version unless the session was revoked. -/
structure Ended (userId : String) (version : ℕ) (s : System) : Prop extends Recorded s where
  user : ∃ u, s.tables.users.find? userId = some u ∧ version < u.tokenVersion
  tokens : ∀ p ∈ s.opened, p.2.Stale userId version → ∀ tokens ∈ s.issued,
    tokens.sessionId = p.1 → tokens.accessToken.ver ≤ version ∨
      ∃ x, s.tables.sessions.find? p.1 = some x ∧ x.status = .revoked

theorem Ended.change (h : Ended userId version s) (hchange : Change cfg s t ev)
    (hguard : RevivesNone cfg userId version s ev) : Ended userId version t := by
  have hrecorded := h.toRecorded.change hchange
  obtain ⟨u, hu, hnewer⟩ := h.user
  obtain ⟨v, hv, hle⟩ := hchange.users userId u hu
  refine ⟨hrecorded, ⟨v, hv, Nat.lt_of_lt_of_le hnewer hle⟩, ?_⟩
  have hkept : ∀ p ∈ s.opened, p.2.Stale userId version → ∀ tokens ∈ s.issued,
      tokens.sessionId = p.1 → tokens.accessToken.ver ≤ version ∨
        ∃ x, t.tables.sessions.find? p.1 = some x ∧ x.status = .revoked := by
    intro p hp hstale tokens htokens hsid
    rcases h.tokens p hp hstale tokens htokens hsid with hver | ⟨x, hx, hrevoked⟩
    · exact .inl hver
    · obtain ⟨y, hy, _, hdead⟩ := hchange.session hx
      exact .inr ⟨y, hy, hdead hrevoked⟩
  cases hchange with
  | kept _ _ heq heq' => exact heq ▸ heq' ▸ hkept
  | revoked _ _ _ _ heq heq' | userRevoked _ _ _ _ heq heq' => exact heq ▸ heq' ▸ hkept
  | @opening request ids now tokens₀ htables heq heq' =>
    have hfresh : s.tables.sessions.find? tokens₀.sessionId = none := by
      rw [htables.sessionId]
      exact htables.session_fresh
    rw [heq, heq']
    intro p hp hstale tokens htokens hsid
    rcases List.mem_cons.mp hp with rfl | hp'
    · rcases List.mem_cons.mp htokens with rfl | htokens
      · left
        rw [htables.accessToken]
        exact hstale.2.2
      · obtain ⟨-, x, hx⟩ := h.issued tokens htokens
        rw [hsid, hfresh] at hx
        cases hx
    · rcases List.mem_cons.mp htokens with rfl | htokens
      · obtain ⟨x, hx, -⟩ := h.opened p hp'
        rw [← hsid, hfresh] at hx
        cases hx
      · exact hkept p hp' hstale tokens htokens hsid
  | rotated hfound htables heq heq' =>
    rw [heq, heq']
    intro p hp hstale tokens htokens hsid
    rcases List.mem_cons.mp htokens with rfl | htokens
    · refine absurd ⟨_, hfound, htables.accepted, p, hp, ?_, hstale⟩ hguard
      exact hsid.symm.trans htables.sessionId
    · exact hkept p hp hstale tokens htokens hsid

/-- A password change revokes every session of the user and raises the version. -/
theorem ended_writePassword (h : Recorded s) {u : UserRow}
    (hu : s.tables.users.find? userId = some u) {newPassword salt : String} {now : Timestamp}
    (hstep : step cfg s (.writePassword userId newPassword salt now) = some t) :
    Ended userId u.tokenVersion t := by
  have hrecorded := h.change (step_change hstep)
  simp only [step] at hstep
  obtain ⟨-, rfl⟩ := advance_eq_some hstep
  refine ⟨hrecorded, ⟨_, find?_changePassword cfg now hu newPassword salt, Nat.lt_succ_self _⟩, ?_⟩
  intro p hp hstale tokens _ _
  obtain ⟨x, hx, huser⟩ := h.opened p hp
  obtain ⟨f, hf, hfs⟩ :=
    (userRevocation_changePassword cfg (s := s.tables) now userId newPassword salt).sessions
  obtain ⟨-, -, -, hdead, -⟩ := hfs x (Table.find?_mem hx)
  exact .inr ⟨f x, Table.find?_of_rows_map hf (fun y hy => (hfs y hy).1) hx,
    hdead (huser.trans hstale.2.1)⟩

theorem Ended.not_verified (h : Ended userId version s) {p : String × SessionRequest}
    (hp : p ∈ s.opened) (hstale : p.2.Stale userId version) {tokens : SessionTokens}
    (htokens : tokens ∈ s.issued) (hsid : tokens.sessionId = p.1) (now : Timestamp)
    (who : AccessPrincipal) : verifyAccess tokens.accessToken now s.tables ≠ .ok who := by
  intro hverified
  obtain ⟨x, u, hx, hu, hactive, hver⟩ := verifyAccess_ok hverified
  rw [(h.issued tokens htokens).1, hsid] at hx
  obtain ⟨y, hy, huser⟩ := h.opened p hp
  obtain rfl : x = y := Option.some.inj (hx.symm.trans hy)
  rw [huser, hstale.2.1] at hu
  obtain ⟨v, hv, hnewer⟩ := h.user
  obtain rfl : u = v := Option.some.inj (hu.symm.trans hv)
  rcases h.tokens p hp hstale tokens htokens hsid with hle | ⟨z, hz, hrevoked⟩
  · omega
  · obtain rfl : x = z := Option.some.inj (hx.symm.trans hz)
    rw [hactive] at hrevoked
    cases hrevoked

/-- A password change ends the sessions of the old password in every run that
revives none of them. -/
theorem passwordChangeEnds_of_revivesNone : PasswordChangeEnds cfg (RevivesNone cfg) := by
  intro before after s₀ s₁ s₂ userId newPassword salt now u hbefore hu hstep hafter p hp hstale
    tokens htokens hsid now' who
  have hended : Ended userId u.tokenVersion s₂ :=
    Machine.Run.invariant (Ended userId u.tokenVersion)
      (fun _ _ _ h hguard hstep => h.change (step_change hstep) hguard) hafter
      (ended_writePassword (recorded_run hbefore) hu hstep)
  exact hended.not_verified hp hstale htokens hsid now' who

def changingRun : List Event :=
  refreshedRun.take 4 ++ [.changePassword "user_1" "correct horse" "battery staple"]

def passwordWritten : Event := .writePassword "user_1" "battery staple" "salt" 5

def staleRefresh : List Event :=
  [.openSession ⟨"user_1", 1, "", true⟩ (sampleSessionIds "a") 6,
    .refresh "a" "a" ⟨"b", "b", "b"⟩ 7]

theorem passwordChangeEnds_staleOpened : ∃ s₀ s₁ s₂ u,
    (machine sampleService).Run Machine.Free .init changingRun s₀ ∧
      s₀.tables.users.find? "user_1" = some u ∧
      step sampleService s₀ passwordWritten = some s₁ ∧
      (machine sampleService).Run (RevivesNone sampleService "user_1" u.tokenVersion) s₁
        (staleRefresh.take 1) s₂ ∧
      ∃ tokens ∈ s₂.issued, ∀ now who, verifyAccess tokens.accessToken now s₂.tables ≠ .ok who := by
  obtain ⟨s₀, h₀, u, hu, s₁, h₁, s₂, h₂, p, hp, hstale, tokens, htokens, hsid⟩ :
      ∃ s₀ ∈ (machine sampleService).exec Machine.Free .init changingRun,
      ∃ u ∈ s₀.tables.users.find? "user_1", ∃ s₁ ∈ step sampleService s₀ passwordWritten,
      ∃ s₂ ∈ (machine sampleService).exec (RevivesNone sampleService "user_1" u.tokenVersion) s₁
        (staleRefresh.take 1),
      ∃ p ∈ s₂.opened, p.2.Stale "user_1" u.tokenVersion ∧ ∃ tokens ∈ s₂.issued,
        tokens.sessionId = p.1 := by decide
  exact ⟨s₀, s₁, s₂, u, Machine.run_of_exec h₀, hu, h₁, Machine.run_of_exec h₂, tokens, htokens,
    passwordChangeEnds_of_revivesNone _ _ s₀ s₁ s₂ "user_1" _ _ _ u (Machine.run_of_exec h₀) hu h₁
      (Machine.run_of_exec h₂) p hp hstale tokens htokens hsid⟩

theorem not_passwordChangeEnds_free :
    ¬ PasswordChangeEnds sampleService fun _ _ => Machine.Free := by
  intro hends
  obtain ⟨s₀, h₀, u, hu, s₁, h₁, s₂, h₂, p, hp, hstale, tokens, htokens, hsid, hverified⟩ :
      ∃ s₀ ∈ (machine sampleService).exec Machine.Free .init changingRun,
      ∃ u ∈ s₀.tables.users.find? "user_1", ∃ s₁ ∈ step sampleService s₀ passwordWritten,
      ∃ s₂ ∈ (machine sampleService).exec Machine.Free s₁ staleRefresh,
      ∃ p ∈ s₂.opened, p.2.Stale "user_1" u.tokenVersion ∧ ∃ tokens ∈ s₂.issued,
        tokens.sessionId = p.1 ∧
          (verifyAccess tokens.accessToken 8 s₂.tables).isOk = true := by decide
  cases hresult : verifyAccess tokens.accessToken 8 s₂.tables with
  | ok who =>
    exact hends _ _ s₀ s₁ s₂ "user_1" _ _ _ u (Machine.run_of_exec h₀) hu h₁
      (Machine.run_of_exec h₂) p hp hstale tokens htokens hsid 8 who hresult
  | error e =>
    rw [hresult] at hverified
    cases hverified

end System

end CodeResearch.Identity
