import CodeResearch.Settings.SecretStore
import Mathlib.Tactic.Linarith

/-!
# Revisions of the secret store

The lock makes the reading, the check and the writing of a call one step of the file. Each call
that returns raises the revision by one, and no two of them expected the same revision.
-/
namespace CodeResearch.Settings

def MetadataFile.document : MetadataFile → Option Document
  | .absent => some {}
  | .plain document | .encrypted document => some document
  | .damaged => none

def MetadataFile.revision (file : MetadataFile) : Option ℤ := file.document.bind Document.revision

theorem StoreKind.document_of_read {kind : StoreKind} {file : MetadataFile} {d : Document}
    (h : kind.read file = some d) : file.document = some d := by
  cases kind <;> cases file <;> simp_all [StoreKind.read, MetadataFile.document]

@[simp] theorem StoreKind.document_encode (kind : StoreKind) (d : Document) :
    (kind.encode d).document = some d := by
  cases kind <;> rfl

namespace SecretCall

variable {call : SecretCall} {file : MetadataFile} {d d' : Document} {stored : Bool}

theorem admitted_eq_some (h : call.admitted file = some d) :
    file.document = some d ∧ d.revision = some call.expectedRevision := by
  unfold admitted at h
  simp only [Option.bind_eq_bind, Option.bind_eq_some_iff, Option.guard_eq_some', Option.pure_def,
    Option.some.injEq] at h
  obtain ⟨document, hread, _, hrevision, rfl⟩ := h
  exact ⟨StoreKind.document_of_read hread, hrevision⟩

theorem mutate_eq_some (h : call.mutate stored d = some d') :
    ∃ p p', d.providers call.provider = some p ∧ call.mutateProvider stored p = some p' ∧
      d' =
        { revision := d.revision.map (· + 1)
          providers := Function.update d.providers call.provider (some p') } := by
  unfold mutate at h
  simp only [Option.bind_eq_bind, Option.bind_eq_some_iff, Option.pure_def, Option.some.injEq] at h
  obtain ⟨p, hp, p', hp', rfl⟩ := h
  exact ⟨p, p', hp, hp', rfl⟩

theorem revision_of_admitted (h : call.admitted file = some d) :
    file.revision = some call.expectedRevision := by
  obtain ⟨hd, hr⟩ := admitted_eq_some h
  rw [MetadataFile.revision, hd, Option.bind_some, hr]

theorem revision_of_mutate (h : call.admitted file = some d) (hm : call.mutate stored d = some d') :
    d'.revision = some (call.expectedRevision + 1) := by
  obtain ⟨_, _, _, _, rfl⟩ := mutate_eq_some hm
  rw [(admitted_eq_some h).2, Option.map_some]

end SecretCall

/-- The steps of a call, with what each does. -/
inductive Advances (s : SecretState) (id : ℕ) (call : SecretCall) : SecretLabel → SecretState → Prop
  | start (h : s.calls id = none) :
    Advances s id call (.start id call)
      (s.move id call (if call.presets then .presetting else .waiting .untouched))
  | preset (h : s.calls id = some (call, .presetting)) :
    Advances s id call (.preset id true)
      ((s.setEntry call).move id call (.waiting (s.touchOf .untouched call)))
  | presetFails (h : s.calls id = some (call, .presetting)) :
    Advances s id call (.preset id false) (s.move id call .raised)
  | acquire {touch : Touch} (h : s.calls id = some (call, .waiting touch)) (hlock : s.lock = none) :
    Advances s id call (.acquire id true) ({ s with lock := some id }.move id call (.reading touch))
  | acquireFails {touch : Touch} (h : s.calls id = some (call, .waiting touch)) :
    Advances s id call (.acquire id false) (s.move id call .raised)
  | read {touch : Touch} {d : Document} (h : s.calls id = some (call, .reading touch))
    (hd : call.admitted s.file = some d) :
    Advances s id call (.read id true) (s.move id call (.mutating touch d))
  | readFails {touch : Touch} {done : Bool} (h : s.calls id = some (call, .reading touch))
    (hd : done = false ∨ call.admitted s.file = none) :
    Advances s id call (.read id done) (s.abandon id call)
  | mutateKeyring {touch : Touch} {d d' : Document}
    (h : s.calls id = some (call, .mutating touch d)) (hm : call.mutate true d = some d')
    (ht : call.touches d = true) :
    Advances s id call (.mutate id true)
      ((s.setEntry call).move id call (.writing (s.touchOf touch call) d'))
  | mutate {touch : Touch} {d d' : Document} {stored : Bool}
    (h : s.calls id = some (call, .mutating touch d)) (hm : call.mutate stored d = some d')
    (ht : ¬ (call.touches d = true ∧ stored = true)) :
    Advances s id call (.mutate id stored) (s.move id call (.writing touch d'))
  | mutateFails {touch : Touch} {d : Document} {stored : Bool}
    (h : s.calls id = some (call, .mutating touch d)) (hm : call.mutate stored d = none) :
    Advances s id call (.mutate id stored) (s.abandon id call)
  | write {touch : Touch} {d : Document} (h : s.calls id = some (call, .writing touch d)) :
    Advances s id call (.write id true) (s.commit id call d)
  | writeFails {touch : Touch} {d : Document} (h : s.calls id = some (call, .writing touch d)) :
    Advances s id call (.write id false) (s.abandon id call)

variable {s s' : SecretState} {label : SecretLabel}

theorem advances_of_step (h : secrets.step s label = some s') :
    ∃ call, Advances s label.id call label s' := by
  cases label with
  | start id call =>
    dsimp only [secrets] at h
    split at h <;> cases h
    exact ⟨call, .start ‹_›⟩
  | preset id done =>
    dsimp only [secrets] at h
    split at h
    · split at h <;> cases h <;> simp_all only [Bool.not_eq_true]
      · exact ⟨_, .preset ‹_›⟩
      · exact ⟨_, .presetFails ‹_›⟩
    · cases h
  | acquire id done =>
    dsimp only [secrets] at h
    split at h
    · split at h
      · split at h <;> cases h
        simp_all only
        exact ⟨_, .acquire ‹_› ‹_›⟩
      · cases h
        simp_all only [Bool.not_eq_true]
        exact ⟨_, .acquireFails ‹_›⟩
    · cases h
  | read id done =>
    dsimp only [secrets] at h
    split at h
    · split at h <;> rename_i hd <;> cases h
      · split at hd
        · simp_all only
          exact ⟨_, .read ‹_› hd⟩
        · cases hd
      · refine ⟨_, .readFails ‹_› ?_⟩
        split at hd
        · exact .inr hd
        · exact .inl (by simp_all)
    · cases h
  | mutate id stored =>
    dsimp only [secrets] at h
    split at h
    · split at h
      · cases h
        exact ⟨_, .mutateFails ‹_› ‹_›⟩
      · split at h <;> rename_i ht <;> cases h
        · obtain ⟨hkeyring, rfl⟩ := Bool.and_eq_true_iff.mp ht
          exact ⟨_, .mutateKeyring ‹_› ‹_› hkeyring⟩
        · rw [Bool.and_eq_true] at ht
          exact ⟨_, .mutate ‹_› ‹_› ht⟩
    · cases h
  | write id done =>
    dsimp only [secrets] at h
    split at h
    · split at h <;> cases h <;> simp_all only [Bool.not_eq_true]
      · exact ⟨_, .write ‹_›⟩
      · exact ⟨_, .writeFails ‹_›⟩
    · cases h

theorem Advances.calls {id : ℕ} {call : SecretCall} (h : Advances s id call label s') :
    ∃ point, s'.calls = Function.update s.calls id (some (call, point)) := by
  cases h <;> exact ⟨_, rfl⟩

theorem Advances.calls_of_ne {id j : ℕ} {call : SecretCall} (h : Advances s id call label s')
    (hj : j ≠ id) :
    s'.calls j = s.calls j := by
  obtain ⟨point, hcalls⟩ := h.calls
  rw [hcalls, Function.update_of_ne hj]

structure Serial (s : SecretState) : Prop where
  lock : ∀ id call point, s.calls id = some (call, point) → point.Critical → s.lock = some id
  mutating : ∀ id call touch d, s.calls id = some (call, .mutating touch d) →
    call.admitted s.file = some d
  writing : ∀ id call touch d', s.calls id = some (call, .writing touch d') →
    ∃ stored d, call.admitted s.file = some d ∧ call.mutate stored d = some d'
  behind : ∀ id call, s.calls id = some (call, .returned) →
    ∃ r, s.file.revision = some r ∧ call.expectedRevision < r
  distinct : ∀ i j call call', s.calls i = some (call, .returned) →
    s.calls j = some (call', .returned) → call.expectedRevision = call'.expectedRevision → i = j

def Fits (file : MetadataFile) (call : SecretCall) : Point → Prop
  | .mutating _ d => call.admitted file = some d
  | .writing _ d' => ∃ stored d, call.admitted file = some d ∧ call.mutate stored d = some d'
  | .returned => False
  | _ => True

variable {id : ℕ} {call : SecretCall}

/-- After a move of one call, a call is that one at its new point, or is where it was. -/
theorem of_calls {p point : Point} {j : ℕ} {c : SecretCall}
    (hcalls : s'.calls = Function.update s.calls id (some (call, p)))
    (hc : s'.calls j = some (c, point)) :
    id = j ∧ call = c ∧ p = point ∨ j ≠ id ∧ s.calls j = some (c, point) := by
  rw [hcalls] at hc
  by_cases hj : j = id
  · subst hj
    cases (Function.update_self ..).symm.trans hc
    exact .inl ⟨rfl, rfl, rfl⟩
  · exact .inr ⟨hj, (Function.update_of_ne hj ..).symm.trans hc⟩

/-- A step that leaves the file alone. -/
theorem Serial.move (h : Serial s) {p : Point} (hfile : s'.file = s.file)
    (hcalls : s'.calls = Function.update s.calls id (some (call, p)))
    (hfits : Fits s.file call p) (hlock : p.Critical → s'.lock = some id)
    (hothers : ∀ j, j ≠ id → s.lock = some j → s'.lock = some j) : Serial s' := by
  have hreturned : ∀ {j c}, s'.calls j = some (c, .returned) → s.calls j = some (c, .returned) := by
    intro j c hc
    rcases of_calls hcalls hc with ⟨rfl, rfl, rfl⟩ | ⟨_, hc⟩
    · exact hfits.elim
    · exact hc
  refine ⟨fun j c point hc hcritical => ?_, fun j c touch d hc => ?_, fun j c touch d' hc => ?_,
    fun j c hc => ?_, fun i j c c' hi hj he => ?_⟩
  · rcases of_calls hcalls hc with ⟨rfl, rfl, rfl⟩ | ⟨hj, hc⟩
    · exact hlock hcritical
    · exact hothers j hj (h.lock j c point hc hcritical)
  · rw [hfile]
    rcases of_calls hcalls hc with ⟨rfl, rfl, rfl⟩ | ⟨_, hc⟩
    · exact hfits
    · exact h.mutating j c touch d hc
  · rw [hfile]
    rcases of_calls hcalls hc with ⟨rfl, rfl, rfl⟩ | ⟨_, hc⟩
    · exact hfits
    · exact h.writing j c touch d' hc
  · rw [hfile]
    exact h.behind j c (hreturned hc)
  · exact h.distinct i j c c' (hreturned hi) (hreturned hj) he

theorem Serial.alone (h : Serial s) {point : Point} (hid : s.calls id = some (call, point))
    (hcritical : point.Critical) {j : ℕ} {call' : SecretCall} {point' : Point} (hj : j ≠ id)
    (hc : s.calls j = some (call', point')) : ¬ point'.Critical := fun hp =>
  hj (Option.some.inj ((h.lock j call' point' hc hp).symm.trans (h.lock id call point hid hcritical)))

theorem Serial.commit (h : Serial s) {touch : Touch} {d' : Document}
    (hid : s.calls id = some (call, .writing touch d')) : Serial (s.commit id call d') := by
  obtain ⟨stored, d, hadmitted, hmutate⟩ := h.writing id call touch d' hid
  have hold := SecretCall.revision_of_admitted hadmitted
  have hnew : (s.commit id call d').file.revision = some (call.expectedRevision + 1) := by
    change (call.kind.encode d').revision = _
    rw [MetadataFile.revision, StoreKind.document_encode, Option.bind_some,
      SecretCall.revision_of_mutate hadmitted hmutate]
  have hbehind : ∀ {j c}, s.calls j = some (c, .returned) →
      c.expectedRevision < call.expectedRevision := by
    intro j c hc
    obtain ⟨r, hr, hlt⟩ := h.behind j c hc
    cases hold.symm.trans hr
    exact hlt
  have hidle : ∀ {j c point}, (s.commit id call d').calls j = some (c, point) → ¬ point.Critical := by
    intro j c point hc
    rcases of_calls rfl hc with ⟨rfl, rfl, rfl⟩ | ⟨hj, hc⟩
    · exact False.elim
    · exact h.alone hid trivial hj hc
  refine ⟨fun j c point hc hp => absurd hp (hidle hc), fun j c touch d hc => absurd trivial (hidle hc),
    fun j c touch d hc => absurd trivial (hidle hc), fun j c hc => ⟨_, hnew, ?_⟩,
    fun i j c c' hi hj he => ?_⟩
  · rcases of_calls rfl hc with ⟨rfl, rfl, -⟩ | ⟨_, hc⟩
    · exact lt_add_one _
    · exact (hbehind hc).trans (lt_add_one _)
  · rcases of_calls rfl hi with ⟨rfl, rfl, -⟩ | ⟨_, hi⟩
    · rcases of_calls rfl hj with ⟨rfl, -, -⟩ | ⟨_, hj⟩
      · rfl
      · exact absurd he (hbehind hj).ne'
    · rcases of_calls rfl hj with ⟨rfl, rfl, -⟩ | ⟨_, hj⟩
      · exact absurd he (hbehind hi).ne
      · exact h.distinct i j c c' hi hj he

theorem Serial.step (h : Serial s) (ha : Advances s id call label s') : Serial s' := by
  have habandon : ∀ {point : Point}, s.calls id = some (call, point) → point.Critical →
      Serial (s.abandon id call) := fun hid hcritical =>
    h.move (p := .raised) rfl rfl trivial (fun hp => hp.elim) fun j hj hlock =>
      absurd (Option.some.inj (hlock.symm.trans (h.lock id call _ hid hcritical))) hj
  cases ha with
  | start hid =>
    refine h.move (p := if call.presets then .presetting else .waiting .untouched) rfl rfl ?_ ?_
      fun _ _ hl => hl <;> split
    · trivial
    · trivial
    · exact fun hp => hp.elim
    · exact fun hp => hp.elim
  | preset | presetFails | acquireFails =>
      exact h.move rfl rfl trivial (fun hp => hp.elim) fun _ _ hl => hl
  | acquire hid hlock =>
    exact h.move rfl rfl trivial (fun _ => rfl) fun j _ hl => by cases hlock.symm.trans hl
  | read hid hd => exact h.move rfl rfl hd (fun _ => h.lock _ _ _ hid trivial) fun _ _ hl => hl
  | readFails hid hd => exact habandon hid trivial
  | mutateKeyring hid hm ht =>
    exact h.move rfl rfl ⟨true, _, h.mutating _ _ _ _ hid, hm⟩ (fun _ => h.lock _ _ _ hid trivial)
      fun _ _ hl => hl
  | mutate hid hm ht =>
    exact h.move rfl rfl ⟨_, _, h.mutating _ _ _ _ hid, hm⟩ (fun _ => h.lock _ _ _ hid trivial)
      fun _ _ hl => hl
  | mutateFails hid hm => exact habandon hid trivial
  | write hid => exact h.commit hid
  | writeFails hid => exact habandon hid trivial

/-- What a step does to the revision: the file stays, or the call returns and the revision is one
higher. -/
theorem Serial.revision_step (h : Serial s) (ha : Advances s id call label s') :
    (s'.file = s.file ∧ s'.calls id ≠ some (call, .returned)) ∨
      (s'.calls id = some (call, .returned) ∧
        ∃ r, s.file.revision = some r ∧ s'.file.revision = some (r + 1)) := by
  cases ha with
  | write hid =>
    obtain ⟨stored, d, hadmitted, hmutate⟩ := h.writing _ _ _ _ hid
    refine .inr ⟨Function.update_self .., _, SecretCall.revision_of_admitted hadmitted, ?_⟩
    change (call.kind.encode _).revision = _
    rw [MetadataFile.revision, StoreKind.document_encode, Option.bind_some,
      SecretCall.revision_of_mutate hadmitted hmutate]
  | start hid =>
    refine .inl ⟨rfl, ?_⟩
    simp only [SecretState.move, Function.update_self]
    split <;> simp
  | _ => exact .inl ⟨rfl, by simp [SecretState.move, SecretState.abandon]⟩

/-- No call has started. -/
structure Fresh (s : SecretState) : Prop where
  calls : ∀ id, s.calls id = none
  lock : s.lock = none
  log : s.log = []

theorem Fresh.serial (h : Fresh s) : Serial s where
  lock id _ _ hc := nomatch (h.calls id).symm.trans hc
  mutating id _ _ _ hc := nomatch (h.calls id).symm.trans hc
  writing id _ _ _ hc := nomatch (h.calls id).symm.trans hc
  behind id _ hc := nomatch (h.calls id).symm.trans hc
  distinct i _ _ _ hc := nomatch (h.calls i).symm.trans hc

variable {labels : List SecretLabel}

theorem serial_run {init : SecretState} (hinit : Fresh init)
    (h : secrets.Run Machine.Free init labels s) : Serial s :=
  h.invariant Serial (fun _ _ _ hs _ hstep =>
    let ⟨_, ha⟩ := advances_of_step hstep
    hs.step ha) hinit.serial

/-- In every run, a step changes the revision only where a call returns, and then by one, and
calls that returned expected different revisions. -/
theorem revisions_run {init : SecretState} (hinit : Fresh init)
    (h : secrets.Run Machine.Free init labels s) :
    (∀ label s', secrets.step s label = some s' →
      (s'.file = s.file ∧ ∀ call, s'.calls label.id ≠ some (call, .returned)) ∨
        ((∃ call, s'.calls label.id = some (call, .returned)) ∧
          ∃ r, s.file.revision = some r ∧ s'.file.revision = some (r + 1))) ∧
    ∀ i j call call', s.calls i = some (call, .returned) → s.calls j = some (call', .returned) →
      call.expectedRevision = call'.expectedRevision → i = j := by
  have hserial := serial_run hinit h
  refine ⟨fun label s' hstep => ?_, hserial.distinct⟩
  obtain ⟨call, ha⟩ := advances_of_step hstep
  obtain ⟨hfile, hne⟩ | ⟨hreturned, hrevision⟩ := hserial.revision_step ha
  · refine .inl ⟨hfile, fun call' hc => ?_⟩
    obtain ⟨point, hcalls⟩ := ha.calls
    rw [hcalls, Function.update_self] at hc
    cases hc
    exact hne (by rw [hcalls, Function.update_self])
  · exact .inr ⟨⟨call, hreturned⟩, hrevision⟩

end CodeResearch.Settings
