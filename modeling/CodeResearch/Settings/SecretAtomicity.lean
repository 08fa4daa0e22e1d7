import CodeResearch.Settings.SecretRevisions

/-!
# Atomic updates of provider secrets

The file and the keyring agree as long as no call raises after it changed its keyring entry and
no call touches an entry that another one under way has touched.
-/
namespace CodeResearch.Settings

namespace SecretCall

def keyAfter (call : SecretCall) (before : Option String) : Option String :=
  match call with
  | update .. => call.passedKey <|> before
  | delete .. => some ""

end SecretCall

def SecretCall.Decides (call : SecretCall) : Prop :=
  ∀ before before', call.keyAfter before = call.keyAfter before'

def keyAfterCalls (initial : Option String) (provider : String) : List SecretCall → Option String
  | [] => initial
  | call :: log =>
    if call.provider = provider then call.keyAfter (keyAfterCalls initial provider log)
    else keyAfterCalls initial provider log

def lastKey (provider : String) (log : List SecretCall) : Option String :=
  keyAfterCalls none provider log

theorem keyAfterCalls_of_lastKey {initial : Option String} {provider k : String}
    {log : List SecretCall} (h : lastKey provider log = some k) :
    keyAfterCalls initial provider log = some k := by
  induction log with
  | nil => cases h
  | cons call log ih =>
    unfold lastKey keyAfterCalls at h
    unfold keyAfterCalls
    split_ifs at h ⊢ with hp
    · cases call with
      | delete kind p revision => exact h
      | update kind p config apiKey revision =>
        unfold SecretCall.keyAfter at h ⊢
        dsimp only at h ⊢
        cases hkey : (SecretCall.update kind p config apiKey revision).passedKey with
        | some key => rwa [hkey] at h
        | none =>
          rw [hkey] at h
          exact ih h
    · exact ih h

namespace SecretCall

variable {call : SecretCall} {d d' : Document} {stored : Bool} {p p' : Provider} {k : String}

theorem decides_of_passedKey (h : call.passedKey.isSome = true) : call.Decides := by
  intro before before'
  cases call with
  | delete => rfl
  | update kind provider config apiKey revision =>
    obtain ⟨key, hkey⟩ := Option.isSome_iff_exists.mp h
    unfold keyAfter
    dsimp only
    rw [hkey]
    rfl

theorem decides_of_touches (h : call.touches d = true) : call.Decides := by
  cases call with
  | delete => exact fun _ _ => rfl
  | update => exact decides_of_passedKey (Bool.and_eq_true_iff.mp h).2

theorem presets_or_touches (h : call.passedKey.isSome = true) :
    call.presets = true ∨ call.touches d = true := by
  cases call with
  | delete => cases h
  | update kind provider config apiKey revision =>
    by_cases hkind : kind = .keyring
    · exact .inl (Bool.and_eq_true_iff.mpr ⟨by simp [SecretCall.kind, hkind], h⟩)
    · exact .inr (Bool.and_eq_true_iff.mpr ⟨by simp [hkind], h⟩)

theorem passedKey_ne (h : call.passedKey = some k) : k ≠ "" := by
  cases call with
  | update kind provider config apiKey revision =>
    have := (Option.filter_eq_some_iff.mp h).2
    simpa using this
  | delete => cases h

/-- The key of a provider that a call mutated, where its keyring entry is the one of the call as
far as the call leaves the key there. -/
theorem key_mutateProvider (h : call.mutateProvider stored p = some p') {answer : Option String}
    (hanswer : call.presets = true ∨ (call.passedKey.isSome = true ∧ stored = true) →
      answer = call.passedKey) :
    some (p'.key answer) = call.keyAfter (some (p.key answer)) := by
  cases call with
  | delete kind provider revision =>
    cases h
    simp [Provider.key, keyAfter]
  | update kind provider config apiKey revision =>
    unfold mutateProvider at h
    simp only [Option.bind_eq_bind, Option.bind_eq_some_iff] at h
    obtain ⟨current, hcurrent, h⟩ := h
    unfold keyAfter
    dsimp only
    split at h
    · rename_i hkey
      cases h
      rw [hkey]
      rfl
    · rename_i key hkey
      rw [hkey]
      have hne := passedKey_ne hkey
      split_ifs at h with hkeyring
      · cases h
        have : answer = some key := by
          rw [← hkey]
          refine hanswer (hkeyring.imp (fun hk => ?_) fun hs => ⟨by rw [hkey]; rfl, hs⟩)
          subst hk
          rw [presets, hkey]
          rfl
        simp [Provider.key, this, hne, Option.filter]
      · cases h
        simp [Provider.key]

end SecretCall

def Point.UnderWay : Point → Prop
  | .waiting _ | .reading _ | .mutating _ _ | .writing _ _ => True
  | _ => False

/-- What the call leaves of the keys: `d'` after `d`, if the entry is the one it touched. -/
structure Leaves (call : SecretCall) (touch : Touch) (d d' : Document) : Prop where
  others : ∀ keyring provider, provider ≠ call.provider →
    d'.key keyring provider = d.key keyring provider
  own : ∀ keyring : Keyring,
    (touch ≠ .untouched → keyring call.provider = call.passedKey) →
      d'.key keyring call.provider = call.keyAfter (d.key keyring call.provider)

def Unsettled (s : SecretState) (provider : String) : Prop :=
  ∃ id call point, s.calls id = some (call, point) ∧ call.provider = provider ∧
    point.touch = .changed

/-- The keys are the ones of the calls that returned, up to the calls under way. -/
structure Settled (init s : SecretState) : Prop where
  preset : ∀ id call point, s.calls id = some (call, point) → point.UnderWay →
    call.presets = true → point.touch ≠ .untouched
  presetting : ∀ id call, s.calls id = some (call, .presetting) → call.presets = true
  entry : ∀ id call point, s.calls id = some (call, point) → point.touch ≠ .untouched →
    s.keyring call.provider = call.passedKey ∧ call.Decides
  unique : ∀ i j call call' point point', s.calls i = some (call, point) →
    s.calls j = some (call', point') → point.touch ≠ .untouched → point'.touch ≠ .untouched →
      call.provider = call'.provider → i = j
  writing : ∀ id call touch d', s.calls id = some (call, .writing touch d') →
    ∃ d, s.file.document = some d ∧ Leaves call touch d d'
  key : ∀ provider d, ¬ Unsettled s provider → s.file.document = some d →
    d.key s.keyring provider =
      keyAfterCalls (init.file.document.bind fun d => d.key init.keyring provider) provider s.log

theorem leaves_of_mutate {call : SecretCall} {touch : Touch} {stored : Bool} {d d' : Document}
    (h : call.mutate stored d = some d')
    (htouch : call.presets = true ∨ (call.passedKey.isSome = true ∧ stored = true) →
      touch ≠ .untouched) : Leaves call touch d d' := by
  obtain ⟨p, p', hp, hp', rfl⟩ := SecretCall.mutate_eq_some h
  refine ⟨fun keyring provider hne => ?_, fun keyring hentry => ?_⟩
  · simp only [Document.key, Function.update_of_ne hne]
  · simp only [Document.key, Function.update_self, hp, Option.map_some]
    exact SecretCall.key_mutateProvider hp' fun hk => hentry (htouch hk)

def OthersClear (s : SecretState) (id : ℕ) (call : SecretCall) : Prop :=
  ∀ j call' point, j ≠ id → s.calls j = some (call', point) → call'.provider = call.provider →
    point.touch = .untouched

/-- The steps at which a call raises are not taken by one that has changed its keyring entry, and
the keyring is not set or deleted where another call under way has touched the entry. -/
def Spares (s : SecretState) : SecretLabel → Prop
  | .start _ _ => True
  | .preset id done => ∀ call, s.calls id = some (call, .presetting) → done = true →
      OthersClear s id call
  | .acquire id done => ∀ call touch, s.calls id = some (call, .waiting touch) → done = false →
      touch ≠ .changed
  | .read id done => ∀ call touch, s.calls id = some (call, .reading touch) →
      (done = false ∨ call.admitted s.file = none) → touch ≠ .changed
  | .mutate id stored => ∀ call touch d, s.calls id = some (call, .mutating touch d) →
      (call.mutate stored d = none → touch ≠ .changed) ∧
        (call.touches d = true → stored = true → OthersClear s id call)
  | .write id done => ∀ call touch d, s.calls id = some (call, .writing touch d) → done = false →
      touch ≠ .changed

variable {init s s' : SecretState} {id : ℕ} {call : SecretCall} {label : SecretLabel}

/-- A step of a call that leaves the file and the keyring alone. -/
theorem Settled.move (h : Settled init s) {p : Point} (hfile : s'.file = s.file)
    (hkeyring : s'.keyring = s.keyring) (hlog : s'.log = s.log)
    (hcalls : s'.calls = Function.update s.calls id (some (call, p)))
    (hpreset : p.UnderWay → call.presets = true → p.touch ≠ .untouched)
    (hpresetting : p = .presetting → call.presets = true)
    (htouch : p.touch = .untouched ∨
      ∃ old, s.calls id = some (call, old) ∧ old.touch = p.touch)
    (hwriting : ∀ touch d', p = .writing touch d' →
      ∃ d, s.file.document = some d ∧ Leaves call touch d d')
    (hchanged : ∀ call' old, s.calls id = some (call', old) → old.touch = .changed →
      call' = call ∧ p.touch = .changed) : Settled init s' := by
  -- a call that has touched its entry was there before with the same touch
  have hold : ∀ {j c pt}, s'.calls j = some (c, pt) → pt.touch ≠ .untouched →
      ∃ old, s.calls j = some (c, old) ∧ old.touch = pt.touch := by
    intro j c pt hc ht
    rcases of_calls hcalls hc with ⟨rfl, rfl, rfl⟩ | ⟨_, hc⟩
    · exact htouch.resolve_left ht
    · exact ⟨pt, hc, rfl⟩
  refine ⟨fun j c pt hc hu hp => ?_, fun j c hc => ?_, fun j c pt hc ht => ?_,
    fun i j c c' pt pt' hi hj hti htj hp => ?_, fun j c touch d' hc => ?_,
    fun provider d hsettled hd => ?_⟩
  · rcases of_calls hcalls hc with ⟨rfl, rfl, rfl⟩ | ⟨_, hc⟩
    · exact hpreset hu hp
    · exact h.preset j c pt hc hu hp
  · rcases of_calls hcalls hc with ⟨rfl, rfl, hpt⟩ | ⟨_, hc⟩
    · exact hpresetting hpt
    · exact h.presetting j c hc
  · obtain ⟨old, hco, hto⟩ := hold hc ht
    rw [hkeyring]
    exact h.entry j c old hco (hto ▸ ht)
  · obtain ⟨old, hio, hto⟩ := hold hi hti
    obtain ⟨old', hjo, hto'⟩ := hold hj htj
    exact h.unique i j c c' old old' hio hjo (hto ▸ hti) (hto' ▸ htj) hp
  · rw [hfile]
    rcases of_calls hcalls hc with ⟨rfl, rfl, hpt⟩ | ⟨_, hc⟩
    · exact hwriting touch d' hpt
    · exact h.writing j c touch d' hc
  · rw [hkeyring, hlog]
    rw [hfile] at hd
    refine h.key provider d (fun hunsettled => hsettled ?_) hd
    obtain ⟨j, c, old, hc, hp, ht⟩ := hunsettled
    by_cases hj : j = id
    · subst hj
      obtain ⟨rfl, hpt⟩ := hchanged c old hc ht
      exact ⟨j, c, p, by rw [hcalls, Function.update_self], hp, hpt⟩
    · exact ⟨j, c, old, by rwa [hcalls, Function.update_of_ne hj], hp, ht⟩

theorem Settled.setEntry (h : Settled init s) {old point : Point}
    (hid : s.calls id = some (call, old)) (hclear : OthersClear s id call) (hdecides : call.Decides)
    (hpoint : point.touch = s.touchOf old.touch call) (hpresetting : point ≠ .presetting)
    (hwriting : ∀ touch d', point = .writing touch d' →
      ∃ d, s.file.document = some d ∧ Leaves call touch d d') :
    Settled init ((s.setEntry call).move id call point) := by
  have htouched : point.touch ≠ .untouched := by
    rw [hpoint, SecretState.touchOf]
    split_ifs <;> simp
  refine ⟨fun j c pt hc hu hp => ?_, fun j c hc => ?_, fun j c pt hc ht => ?_,
    fun i j c c' pt pt' hi hj hti htj hp => ?_, fun j c touch d' hc => ?_,
    fun provider d hsettled hd => ?_⟩
  · rcases of_calls rfl hc with ⟨rfl, rfl, rfl⟩ | ⟨_, hc⟩
    · exact htouched
    · exact h.preset j c pt hc hu hp
  · rcases of_calls rfl hc with ⟨-, -, hpt⟩ | ⟨_, hc⟩
    · exact absurd hpt hpresetting
    · exact h.presetting j c hc
  · rcases of_calls rfl hc with ⟨rfl, rfl, rfl⟩ | ⟨hj, hc⟩
    · exact ⟨Function.update_self .., hdecides⟩
    · have hne : c.provider ≠ call.provider := fun hp => ht (hclear j c pt hj hc hp)
      obtain ⟨hentry, hdec⟩ := h.entry j c pt hc ht
      exact ⟨(Function.update_of_ne hne ..).trans hentry, hdec⟩
  · rcases of_calls rfl hi with ⟨rfl, rfl, -⟩ | ⟨hii, hi⟩
    · rcases of_calls rfl hj with ⟨rfl, -, -⟩ | ⟨hjj, hj⟩
      · rfl
      · exact absurd (hclear j c' pt' hjj hj hp.symm) htj
    · rcases of_calls rfl hj with ⟨rfl, rfl, -⟩ | ⟨_, hj⟩
      · exact absurd (hclear i c pt hii hi hp) hti
      · exact h.unique i j c c' pt pt' hi hj hti htj hp
  · rcases of_calls rfl hc with ⟨rfl, rfl, hpt⟩ | ⟨_, hc⟩
    · exact hwriting touch d' hpt
    · exact h.writing j c touch d' hc
  · have hbefore : ¬ Unsettled s provider := by
      rintro ⟨j, c, pt, hc, hp, ht⟩
      refine hsettled ?_
      by_cases hj : j = id
      · subst hj
        cases hid.symm.trans hc
        exact ⟨j, call, point, Function.update_self .., hp, by rw [hpoint, ht]; simp [SecretState.touchOf]⟩
      · exact ⟨j, c, pt, (Function.update_of_ne hj ..).trans hc, hp, ht⟩
    have hkey := h.key provider d hbefore hd
    have hsame : Function.update s.keyring call.provider call.passedKey provider =
        s.keyring provider := by
      by_cases hp : provider = call.provider
      · subst hp
        rw [Function.update_self]
        by_contra hne
        refine hsettled ⟨id, call, point, Function.update_self .., rfl, ?_⟩
        rw [hpoint, SecretState.touchOf, if_pos (.inr fun he => hne he.symm)]
      · exact Function.update_of_ne hp ..
    refine Eq.trans ?_ hkey
    change d.key (Function.update s.keyring call.provider call.passedKey) provider = _
    rw [Document.key, hsame, Document.key]

theorem Settled.commit (h : Settled init s) (hserial : Serial s) {touch : Touch} {d' : Document}
    (hid : s.calls id = some (call, .writing touch d')) :
    Settled init (s.commit id call d') := by
  obtain ⟨d, hd, hleaves⟩ := h.writing id call touch d' hid
  have hbefore : ∀ {j c pt}, (s.commit id call d').calls j = some (c, pt) → pt ≠ .returned →
      j ≠ id ∧ s.calls j = some (c, pt) := by
    intro j c pt hc hne
    exact (of_calls rfl hc).resolve_left fun ⟨_, _, hpt⟩ => hne hpt.symm
  have hclear : ∀ {pt : Point}, pt.touch ≠ .untouched → pt ≠ .returned := by
    rintro _ ht rfl
    exact ht rfl
  refine ⟨fun j c pt hc hu hp => ?_, fun j c hc => ?_, fun j c pt hc ht => ?_,
    fun i j c c' pt pt' hi hj hti htj hp => ?_, fun j c t d'' hc => ?_,
    fun provider d₀ hsettled hd₀ => ?_⟩
  · refine h.preset j c pt (hbefore hc ?_).2 hu hp
    rintro rfl
    exact hu
  · exact h.presetting j c (hbefore hc (by simp)).2
  · exact h.entry j c pt (hbefore hc (hclear ht)).2 ht
  · exact h.unique i j c c' pt pt' (hbefore hi (hclear hti)).2 (hbefore hj (hclear htj)).2 hti htj hp
  · obtain ⟨hj, hc⟩ := hbefore hc (by simp)
    exact (hserial.alone hid trivial hj hc trivial).elim
  · cases ((StoreKind.document_encode call.kind d').symm.trans hd₀ : some d' = some d₀)
    -- the other calls that changed an entry are still under way
    have hown : Unsettled s provider → touch = .changed ∧ provider = call.provider := by
      rintro ⟨j, c, pt, hc, hp, ht⟩
      by_cases hj : j = id
      · subst hj
        cases hid.symm.trans hc
        exact ⟨ht, hp.symm⟩
      · exact absurd ⟨j, c, pt, (Function.update_of_ne hj ..).trans hc, hp, ht⟩ hsettled
    change d'.key s.keyring provider = keyAfterCalls _ provider (call :: s.log)
    unfold keyAfterCalls
    by_cases hp : call.provider = provider
    · subst hp
      rw [if_pos rfl, hleaves.own s.keyring fun ht => (h.entry id call _ hid ht).1]
      by_cases ht : touch = .changed
      · exact (h.entry id call _ hid (by rw [Point.touch, ht]; simp)).2 _ _
      · rw [h.key call.provider d (fun hu => ht (hown hu).1) hd]
    · rw [if_neg hp, hleaves.others s.keyring provider fun he => hp he.symm]
      exact h.key provider d (fun hu => hp (hown hu).2.symm) hd

theorem Settled.step (h : Settled init s) (hserial : Serial s) (hspares : Spares s label)
    (ha : Advances s id call label s') : Settled init s' := by
  -- a call that raises has not changed its entry
  have hraise : ∀ {old : Point}, s.calls id = some (call, old) → old.touch ≠ .changed →
      s'.file = s.file → s'.keyring = s.keyring → s'.log = s.log →
      s'.calls = Function.update s.calls id (some (call, .raised)) → Settled init s' :=
    fun hid hne hfile hkeyring hlog hcalls =>
      h.move hfile hkeyring hlog hcalls (fun hu => hu.elim) (fun hp => nomatch hp) (.inl rfl)
        (fun _ _ hp => nomatch hp) fun _ _ hc ht => by
          cases hid.symm.trans hc
          exact absurd ht hne
  cases ha with
  | start hid =>
    refine h.move (p := if call.presets then .presetting else .waiting .untouched)
      rfl rfl rfl rfl ?_ ?_ (.inl ?_) ?_ fun _ _ hc => nomatch hid.symm.trans hc <;> split
    · exact fun hu => hu.elim
    · rename_i hp
      exact fun _ hp' => absurd hp' hp
    · exact fun _ => ‹_›
    · exact fun hp => nomatch hp
    · rfl
    · rfl
    · exact fun _ _ hp => nomatch hp
    · exact fun _ _ hp => nomatch hp
  | preset hid =>
    have hpasses := (Bool.and_eq_true_iff.mp (h.presetting _ _ hid)).2
    exact h.setEntry hid (hspares _ hid rfl) (SecretCall.decides_of_passedKey hpasses) rfl
      (fun hp => nomatch hp) fun _ _ hp => nomatch hp
  | presetFails hid => exact hraise hid (fun ht => nomatch ht) rfl rfl rfl rfl
  | acquire hid | read hid =>
    have hpreset := h.preset _ _ _ hid trivial
    refine h.move rfl rfl rfl rfl (fun _ => hpreset) (fun hp => nomatch hp)
      (.inr ⟨_, hid, rfl⟩) (fun _ _ hp => nomatch hp) fun _ _ hc ht => ?_
    cases hid.symm.trans hc
    exact ⟨rfl, ht⟩
  | acquireFails hid => exact hraise hid (hspares _ _ hid rfl) rfl rfl rfl rfl
  | readFails hid hd => exact hraise hid (hspares _ _ hid hd) rfl rfl rfl rfl
  | mutateKeyring hid hm ht =>
    have hdocument := (SecretCall.admitted_eq_some (hserial.mutating _ _ _ _ hid)).1
    refine h.setEntry hid ((hspares _ _ _ hid).2 ht rfl) (SecretCall.decides_of_touches ht) rfl
      (fun hp => nomatch hp) fun touch d' hp => ⟨_, hdocument, ?_⟩
    cases hp
    refine leaves_of_mutate hm fun _ => ?_
    rw [SecretState.touchOf]
    split_ifs <;> simp
  | @mutate touch d d' stored hid hm ht =>
    have hdocument := (SecretCall.admitted_eq_some (hserial.mutating _ _ _ _ hid)).1
    have hpreset := h.preset _ _ _ hid trivial
    refine h.move rfl rfl rfl rfl (fun _ => hpreset) (fun hp => nomatch hp)
      (.inr ⟨_, hid, rfl⟩) (fun _ _ hp => ⟨_, hdocument, ?_⟩) fun _ _ hc ht => ?_
    · cases hp
      refine leaves_of_mutate hm fun hk => ?_
      have hpresets : call.presets = true := by
        obtain hp | ⟨hpassed, hstored⟩ := hk
        · exact hp
        · exact (SecretCall.presets_or_touches hpassed).resolve_right fun htouches =>
            ht ⟨htouches, hstored⟩
      exact hpreset hpresets
    · cases hid.symm.trans hc
      exact ⟨rfl, ht⟩
  | mutateFails hid hm => exact hraise hid ((hspares _ _ _ hid).1 hm) rfl rfl rfl rfl
  | write hid => exact h.commit hserial hid
  | writeFails hid => exact hraise hid (hspares _ _ _ hid rfl) rfl rfl rfl rfl

theorem Fresh.settled (h : Fresh s) : Settled s s where
  preset id _ _ hc := nomatch (h.calls id).symm.trans hc
  presetting id _ hc := nomatch (h.calls id).symm.trans hc
  entry id _ _ hc := nomatch (h.calls id).symm.trans hc
  unique i _ _ _ _ _ hc := nomatch (h.calls i).symm.trans hc
  writing id _ _ _ hc := nomatch (h.calls id).symm.trans hc
  key provider d _ hd := by rw [h.log, hd, Option.bind_some, keyAfterCalls]

variable {labels : List SecretLabel}

theorem settled_run (hinit : Fresh init) (h : secrets.Run Spares init labels s) :
    Serial s ∧ Settled init s :=
  h.invariant (fun s => Serial s ∧ Settled init s) (fun _ _ _ hs hspares hstep =>
    let ⟨_, ha⟩ := advances_of_step hstep
    ⟨hs.1.step ha, hs.2.step hs.1 hspares ha⟩) ⟨hinit.serial, hinit.settled⟩

def Bound (id : ℕ) (s : SecretState) : Prop :=
  ∃ call point, s.calls id = some (call, point) ∧ (point.touch = .changed ∨ point = .returned)

theorem Bound.step (h : Bound id s) (hspares : Spares s label)
    (hstep : secrets.step s label = some s') : Bound id s' := by
  obtain ⟨call, point, hid, hpoint⟩ := h
  obtain ⟨call', ha⟩ := advances_of_step hstep
  by_cases hne : id = label.id
  · rw [← hne] at ha
    have hchanged : ∀ {old : Point}, s.calls id = some (call', old) → old ≠ .returned →
        old.touch = .changed := by
      intro old ho hr
      cases hid.symm.trans ho
      exact hpoint.resolve_right hr
    cases ha with
    | start ho => cases hid.symm.trans ho
    | preset ho | presetFails ho => cases hchanged ho (fun hp => nomatch hp)
    | acquire ho | read ho | mutate ho =>
      have htouch := hchanged ho fun hp => nomatch hp
      exact ⟨_, _, Function.update_self .., .inl htouch⟩
    | acquireFails ho => exact absurd (hchanged ho fun hp => nomatch hp) (hspares _ _ ho rfl)
    | readFails ho hd => exact absurd (hchanged ho fun hp => nomatch hp) (hspares _ _ ho hd)
    | mutateKeyring ho =>
      refine ⟨_, _, Function.update_self .., .inl ?_⟩
      exact if_pos (.inl (hchanged ho fun hp => nomatch hp))
    | mutateFails ho hm => exact absurd (hchanged ho fun hp => nomatch hp) ((hspares _ _ _ ho).1 hm)
    | write ho => exact ⟨_, _, Function.update_self .., .inr rfl⟩
    | writeFails ho => exact absurd (hchanged ho fun hp => nomatch hp) (hspares _ _ _ ho rfl)
  · exact ⟨call, point, (ha.calls_of_ne hne).trans hid, hpoint⟩

/-- A step of a call that goes on to raise, or has raised, changes neither the file nor the
keyring. -/
theorem unchanged_of_raises {t : SecretState} (hspares : Spares s label)
    (hstep : secrets.step s label = some s') (hrun : secrets.Run Spares s' labels t)
    {raised : SecretCall} (hraised : t.calls label.id = some (raised, .raised)) :
    s'.file = s.file ∧ s'.keyring = s.keyring := by
  have hnot : ¬ Bound label.id s' := by
    intro hbound
    obtain ⟨c, point, hc, hpoint⟩ := hrun.invariant (Bound label.id)
      (fun _ _ _ hb hsp hst => hb.step hsp hst) hbound
    cases hraised.symm.trans hc
    obtain hp | hp := hpoint <;> cases hp
  obtain ⟨call, ha⟩ := advances_of_step hstep
  have hentry : ∀ {touch : Touch} {point : Point}, point.touch = s.touchOf touch call →
      ((s.setEntry call).move label.id call point) = s' →
      Function.update s.keyring call.provider call.passedKey = s.keyring := by
    intro touch point htouch hs'
    refine Function.update_eq_self_iff.mpr ?_
    by_contra hne
    refine hnot ⟨call, point, by rw [← hs']; exact Function.update_self .., .inl ?_⟩
    rw [htouch, SecretState.touchOf, if_pos (.inr fun he => hne he.symm)]
  generalize hk : label.id = k at ha hentry hnot
  cases ha with
  | preset | mutateKeyring => exact ⟨rfl, hentry rfl rfl⟩
  | write ho => exact absurd ⟨_, _, Function.update_self .., .inr rfl⟩ hnot
  | _ => exact ⟨rfl, rfl⟩

structure Atomic (s : SecretState) : Prop where
  /-- A call that goes on to raise changes neither the file nor the keyring. -/
  raises : ∀ label s' labels t call, Spares s label → secrets.step s label = some s' →
    secrets.Run Spares s' labels t → t.calls label.id = some (call, .raised) →
      s'.file = s.file ∧ s'.keyring = s.keyring
  /-- The file changes only where a call returns, and then the revision is one higher. -/
  returns : ∀ label s', secrets.step s label = some s' →
    (s'.file = s.file ∧ ∀ call, s'.calls label.id ≠ some (call, .returned)) ∨
      ((∃ call, s'.calls label.id = some (call, .returned)) ∧
        ∃ r, s.file.revision = some r ∧ s'.file.revision = some (r + 1))
  distinct : ∀ i j call call', s.calls i = some (call, .returned) →
    s.calls j = some (call', .returned) → call.expectedRevision = call'.expectedRevision → i = j
  /-- Where no call for a provider is under way, its key is the last one that a returned call
  passed, or the empty text where it was deleted since. -/
  key : ∀ provider key, (∀ id call point, s.calls id = some (call, point) →
      call.provider = provider → point = .returned ∨ point = .raised) →
    lastKey provider s.log = some key → ∀ kind, (kind.read s.file).isSome = true →
      providerApiKey kind s.file s.keyring true true provider = some key

theorem secrets_atomic {labels : List SecretLabel} (hinit : Fresh init)
    (h : secrets.Run Spares init labels s) : Atomic s := by
  obtain ⟨_, hsettled⟩ := settled_run hinit h
  obtain ⟨hrevision, hdistinct⟩ := revisions_run hinit h.free
  refine ⟨fun label s' labels' t raised hspares hstep hrun hraised =>
    unchanged_of_raises hspares hstep hrun hraised, hrevision, hdistinct,
    fun provider key hquiet hlast kind hread => ?_⟩
  obtain ⟨d, hd⟩ := Option.isSome_iff_exists.mp hread
  have hnone : ¬ Unsettled s provider := by
    rintro ⟨id, call, point, hc, hp, ht⟩
    obtain rfl | rfl := hquiet id call point hc hp <;> cases ht
  have hkey := hsettled.key provider d hnone (StoreKind.document_of_read hd)
  rw [keyAfterCalls_of_lastKey hlast] at hkey
  simpa [providerApiKey, hd] using hkey

section Example

def emptyStore : SecretState where
  file := .absent
  keyring := fun _ => none

theorem emptyStore_fresh : Fresh emptyStore := ⟨fun _ => rfl, rfl, rfl⟩

/-- A call of `KeyringSecretStore.update_provider`. -/
def setKey (apiKey : String) : SecretCall := .update .keyring "qwen" [] (some apiKey) 0

/-- The steps of a call up to its revision check. -/
def untilCheck (id : ℕ) (apiKey : String) : List SecretLabel :=
  [.start id (setKey apiKey), .preset id true, .acquire id true, .read id true]

def firstKey : List SecretLabel := untilCheck 0 "first" ++ [.mutate 0 true, .write 0 true]

/-- A call passes a key and returns. -/
theorem secrets_atomic_firstKey : ∃ s, secrets.Run Spares emptyStore firstKey s ∧ Atomic s := by
  have hrun : ∃ s, secrets.Run Spares emptyStore firstKey s := by
    refine ⟨_, .cons trivial rfl (.cons ?_ rfl (.cons ?_ rfl (.cons ?_ rfl (.cons ?_ rfl
      (.cons ?_ rfl (.nil _))))))⟩
    · rintro call - - j call' point hj hc
      exact nomatch (Function.update_of_ne hj ..).symm.trans hc
    · exact fun _ _ _ hdone => nomatch hdone
    · rintro call touch hc (hdone | hadmitted)
      · cases hdone
      · cases hc
        cases hadmitted
    · rintro call touch d hc
      cases hc
      exact ⟨fun hm => (nomatch hm), fun ht => (nomatch ht)⟩
    · exact fun _ _ _ _ hdone => nomatch hdone
  obtain ⟨s, hrun⟩ := hrun
  exact ⟨s, hrun, secrets_atomic emptyStore_fresh hrun⟩

/-- The second call expects the revision of the first one. It raises, and its key stays in the
keyring. -/
theorem conflicting_key_kept : ∃ s call,
    secrets.Run Machine.Free emptyStore (firstKey ++ untilCheck 1 "second") s ∧
      s.calls 1 = some (call, .raised) ∧ lastKey "qwen" s.log = some "first" ∧
      providerApiKey .keyring s.file s.keyring true true "qwen" = some "second" := by
  refine ⟨_, _, .cons trivial rfl (.cons trivial rfl (.cons trivial rfl (.cons trivial rfl
    (.cons trivial rfl (.cons trivial rfl (.cons trivial rfl (.cons trivial rfl (.cons trivial rfl
      (.cons trivial rfl (.nil _)))))))))), rfl, rfl, ?_⟩
  rfl

end Example

end CodeResearch.Settings
