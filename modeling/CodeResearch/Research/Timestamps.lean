import CodeResearch.Library.Digits
import CodeResearch.Research.Schemas
import Mathlib.Data.Char

/-!
# Times that are compared as texts

`isoformat` leaves a fraction of zero microseconds out. Before the offset `+00:00` of the control
plane nothing is lost, because `+` is below the point of a fraction. The research runs write `Z`,
which is above the point, so that a whole second comes after the fractions of that second.
-/
namespace CodeResearch.Research.Timestamps

open Digits

def daysInMonth (year month : ℕ) : ℕ :=
  if month = 2 then if year % 4 = 0 ∧ (year % 100 = 0 → year % 400 = 0) then 29 else 28
  else if month ∈ [4, 6, 9, 11] then 30 else 31

/-- A `datetime` in UTC. -/
structure DateTime where
  year : ℕ
  month : ℕ
  day : ℕ
  hour : ℕ := 0
  minute : ℕ := 0
  second : ℕ := 0
  microsecond : ℕ := 0
  calendar : year ∈ Set.Icc 1 9999 ∧ month ∈ Set.Icc 1 12 ∧ day ∈ Set.Icc 1 (daysInMonth year month)
  clock : hour < 24 ∧ minute < 60 ∧ second < 60 ∧ microsecond < 1000000

namespace DateTime

/-- The fields down to the second, which decide before the microseconds. -/
def seconds (d : DateTime) : List ℕ := [d.year, d.month, d.day, d.hour, d.minute, d.second]

instance : LT DateTime :=
  ⟨fun a b => a.seconds < b.seconds ∨ a.seconds = b.seconds ∧ a.microsecond < b.microsecond⟩

instance : LE DateTime := ⟨fun a b => ¬ b < a⟩

def fraction (microsecond : ℕ) : List Char :=
  if microsecond = 0 then [] else '.' :: padded 6 microsecond

/-- `isoformat`, with the offset that `_iso` leaves at its end. -/
def isoformat (offset : String) (d : DateTime) : List Char :=
  padded 4 d.year ++ '-' :: (padded 2 d.month ++ '-' :: (padded 2 d.day ++ 'T' ::
    (padded 2 d.hour ++ ':' :: (padded 2 d.minute ++ ':' :: (padded 2 d.second ++
      (fraction d.microsecond ++ offset.toList))))))

end DateTime

/-- `_iso` of the control plane and of its login attempts. -/
def isoControlPlane : DateTime → List Char := DateTime.isoformat "+00:00"

/-- `_iso` of the research runs, which replaces `+00:00` by `Z`. -/
def isoResearch : DateTime → List Char := DateTime.isoformat "Z"

/-- What the queries read of a run and its lease. -/
structure StoredRun where
  runId : String
  status : RunStatus
  createdAt : List Char
  finishedAt : Option (List Char)
  leaseExpiresAt : Option (List Char)

/-- The condition of `list_claimable`; a run without a lease is claimable. -/
def Claimable (now : List Char) (r : StoredRun) : Prop :=
  ¬ r.status.Terminal ∧ r.status ≠ .paused ∧
    (r.status = .queued ∨ ∀ expires ∈ r.leaseExpiresAt, expires ≤ now)

/-- The condition of `terminal_runs_before`. -/
def Purgeable (cutoff : List Char) (r : StoredRun) : Prop :=
  r.status.Terminal ∧ ∃ finished ∈ r.finishedAt, finished < cutoff

/-- The texts of two times are ordered as the times, a lease that expires at the first is claimable
at the second if it has expired, and a run that finished at the first is purged by a cutoff at the
second if it finished before. -/
structure Ordered (a b : DateTime) : Prop where
  controlPlane : isoControlPlane a < isoControlPlane b ↔ a < b
  research : isoResearch a < isoResearch b ↔ a < b
  lease : ∀ r : StoredRun, ¬ r.status.Terminal → r.status ∉ [.paused, .queued] →
    r.leaseExpiresAt = some (isoResearch a) → (Claimable (isoResearch b) r ↔ a ≤ b)
  purge : ∀ r : StoredRun, r.status.Terminal → r.finishedAt = some (isoResearch a) →
    (Purgeable (isoResearch b) r ↔ a < b)

/-- One of the times is the whole second of the other. -/
def Mixed (a b : DateTime) : Prop :=
  a.seconds = b.seconds ∧ (a.microsecond = 0 ↔ b.microsecond ≠ 0)

variable (a b : DateTime)

namespace DateTime

theorem bounds : a.year < 10 ^ 4 ∧ a.month < 10 ^ 2 ∧ a.day < 10 ^ 2 ∧ a.hour < 10 ^ 2 ∧
    a.minute < 10 ^ 2 ∧ a.second < 10 ^ 2 ∧ a.microsecond < 10 ^ 6 := by
  obtain ⟨⟨_, hyear⟩, ⟨_, hmonth⟩, _, hday⟩ := a.calendar
  obtain ⟨hhour, hminute, hsecond, hmicro⟩ := a.clock
  have hdays : daysInMonth a.year a.month ≤ 31 := by
    unfold daysInMonth
    split_ifs <;> decide
  exact ⟨by omega, by omega, by omega, by omega, by omega, by omega, hmicro⟩

/-- The fraction and the offset decide within a second. -/
theorem isoformat_lt_iff (offset : String) : a.isoformat offset < b.isoformat offset ↔
    a.seconds < b.seconds ∨ a.seconds = b.seconds ∧
      fraction a.microsecond ++ offset.toList < fraction b.microsecond ++ offset.toList := by
  obtain ⟨hay, hamo, had, hah, hami, has, -⟩ := a.bounds
  obtain ⟨hby, hbmo, hbd, hbh, hbmi, hbs, -⟩ := b.bounds
  rw [isoformat, isoformat, padded_append_lt_iff hay hby, List.cons_lt_cons_self,
    padded_append_lt_iff hamo hbmo, List.cons_lt_cons_self, padded_append_lt_iff had hbd,
    List.cons_lt_cons_self, padded_append_lt_iff hah hbh, List.cons_lt_cons_self,
    padded_append_lt_iff hami hbmi, List.cons_lt_cons_self, padded_append_lt_iff has hbs]
  simp only [seconds, List.cons_lt_cons_iff, List.not_lt_nil, List.cons.injEq]
  tauto

theorem fraction_lt_iff {n m : ℕ} (hn : n < 10 ^ 6) (hm : m < 10 ^ 6) {c : Char}
    (hc : c ≠ '.') (rest : List Char) :
    fraction n ++ c :: rest < fraction m ++ c :: rest ↔
      if c < '.' then n < m else n ≠ 0 ∧ (m = 0 ∨ n < m) := by
  unfold fraction
  rcases eq_or_ne n 0 with rfl | hn0 <;> rcases eq_or_ne m 0 with rfl | hm0
  · simp
  · rw [if_pos rfl, if_neg hm0, List.nil_append, List.cons_append, List.cons_lt_cons_iff]
    simp [hc, Nat.pos_of_ne_zero hm0]
  · rw [if_neg hn0, if_pos rfl, List.nil_append, List.cons_append, List.cons_lt_cons_iff]
    rcases lt_or_gt_of_ne hc with h | h
    · simp [h, hc.symm, h.not_gt]
    · simp [h, h.not_gt, hn0]
  · rw [if_neg hn0, if_neg hm0, List.cons_append, List.cons_append, List.cons_lt_cons_self,
      padded_append_lt_iff hn hm]
    simp [hn0, hm0]

end DateTime

theorem isoControlPlane_lt_iff : isoControlPlane a < isoControlPlane b ↔ a < b := by
  have hfraction := DateTime.fraction_lt_iff a.bounds.2.2.2.2.2.2 b.bounds.2.2.2.2.2.2
    (c := '+') (by decide) "00:00".toList
  rw [if_pos (by decide)] at hfraction
  exact (a.isoformat_lt_iff b "+00:00").trans (or_congr_right (and_congr_right' hfraction))

theorem isoResearch_lt_iff : isoResearch a < isoResearch b ↔ a.seconds < b.seconds ∨
    a.seconds = b.seconds ∧ a.microsecond ≠ 0 ∧ (b.microsecond = 0 ∨
      a.microsecond < b.microsecond) := by
  have hfraction := DateTime.fraction_lt_iff a.bounds.2.2.2.2.2.2 b.bounds.2.2.2.2.2.2
    (c := 'Z') (by decide) []
  rw [if_neg (by decide)] at hfraction
  exact (a.isoformat_lt_iff b "Z").trans (or_congr_right (and_congr_right' hfraction))

theorem mixed_comm : Mixed a b ↔ Mixed b a :=
  and_congr eq_comm (by tauto)

theorem isoResearch_ordered_iff : (isoResearch a < isoResearch b ↔ a < b) ↔ ¬ Mixed a b := by
  rw [isoResearch_lt_iff]
  change (_ ↔ a.seconds < b.seconds ∨ a.seconds = b.seconds ∧ a.microsecond < b.microsecond) ↔ _
  unfold Mixed
  by_cases hsame : a.seconds = b.seconds
  · rw [hsame]
    simp only [List.lt_irrefl, true_and, false_or]
    omega
  · simp [hsame]

/-- The times are ordered as their texts are, unless one is the whole second of the other. -/
theorem ordered_iff : Ordered a b ↔ ¬ Mixed a b := by
  refine ⟨fun h => (isoResearch_ordered_iff a b).mp h.research, fun h => ?_⟩
  have hforward := (isoResearch_ordered_iff a b).mpr h
  have hback := (isoResearch_ordered_iff b a).mpr fun hmixed => h ((mixed_comm a b).mpr hmixed)
  refine ⟨isoControlPlane_lt_iff a b, hforward, ?_, ?_⟩
  · intro r hlive hstatus hexpires
    obtain ⟨hpaused, hqueued⟩ : r.status ≠ .paused ∧ r.status ≠ .queued := by simpa using hstatus
    have hclaimable : Claimable (isoResearch b) r ↔ isoResearch a ≤ isoResearch b := by
      simp [Claimable, hlive, hpaused, hqueued, hexpires]
    exact hclaimable.trans (not_lt.symm.trans (not_congr hback))
  · intro r hterminal hfinished
    have hpurgeable : Purgeable (isoResearch b) r ↔ isoResearch a < isoResearch b := by
      simp [Purgeable, hterminal, hfinished]
    exact hpurgeable.trans hforward

/-- The text of noon is above the text of the next microsecond. -/
theorem not_ordered_noon : ¬ ∀ a b, Ordered a b := by
  intro h
  have hnoon := (h ⟨2026, 1, 1, 12, 0, 0, 0, by decide, by decide⟩
    ⟨2026, 1, 1, 12, 0, 0, 1, by decide, by decide⟩).research
  exact absurd (hnoon.mpr (.inr ⟨rfl, by decide⟩)) (by decide)

end CodeResearch.Research.Timestamps
