import CodeResearch.Library.Machine
import CodeResearch.Library.Result
import CodeResearch.Library.Table

/-!
# Plan versions of research runs

`save_plan` points its run at a stored plan of the same content, or supersedes the active plans
of the run and inserts a new one. The insert ignores a plan id that is taken, by whichever run.
-/
namespace CodeResearch.Research

inductive PlanStatus
  | active | superseded | rejected
  deriving DecidableEq

/-- `content` is the canonical JSON of the other fields. -/
structure SavedPlan where
  planId : String
  planVersion : String
  content : String
  deriving DecidableEq

/-- A row of `research_plan_versions`. -/
structure PlanRow where
  planId : String
  runId : String
  plan : SavedPlan
  plannerRequestHash : String
  status : PlanStatus
  replacedReason : Option String
  deriving DecidableEq

/-- The columns of `research_runs` that `save_plan` writes. -/
structure PlannedRun where
  runId : String
  currentPlan : Option (String × String) := none
  deriving DecidableEq

structure PlanTables where
  runs : Table PlannedRun.runId := .empty
  plans : Table PlanRow.planId := .empty

structure SavePlan where
  runId : String
  plan : SavedPlan
  plannerRequestHash : String := ""
  replacedReason : Option String := none
  deriving DecidableEq

inductive PlanError
  | planIdConflict
  /-- `sqlite3.IntegrityError` -/
  | integrity
  deriving DecidableEq

namespace PlanTables

variable (t : PlanTables) (call : SavePlan)

/-- `UPDATE research_runs SET current_plan_id=?, current_plan_version=? WHERE run_id=?`. -/
def point : PlanTables :=
  { t with
    runs := t.runs.updateWhere (fun r => r.runId = call.runId)
      (fun r => { r with currentPlan := some (call.plan.planId, call.plan.planVersion) })
      fun _ => rfl }

def supersede : PlanTables :=
  { t with
    plans := t.plans.updateWhere (fun p => p.runId = call.runId ∧ p.status = .active)
      (fun p => { p with status := .superseded, replacedReason := call.replacedReason })
      fun _ => rfl }

/-- `UNIQUE(run_id, plan_version)`. -/
def VersionTaken : Prop :=
  ∃ p ∈ t.plans.rows, p.runId = call.runId ∧ p.plan.planVersion = call.plan.planVersion

instance : Decidable (t.VersionTaken call) := inferInstanceAs (Decidable (∃ p ∈ t.plans.rows, _))

def newRow : PlanRow where
  planId := call.plan.planId
  runId := call.runId
  plan := call.plan
  plannerRequestHash := call.plannerRequestHash
  status := .active
  replacedReason := none

/-- `INSERT ... ON CONFLICT(plan_id) DO NOTHING`; which of two violated constraints SQLite checks
first is left open. -/
def insertPlan (idFirst : Bool) : Except PlanError PlanTables :=
  match t.plans.insert (newRow call) with
  | none => if idFirst = false ∧ t.VersionTaken call then .error .integrity else .ok t
  | some plans => do
    ensure (¬ t.VersionTaken call) .integrity
    ensure (t.runs.find? call.runId ≠ none) .integrity
    return { t with plans }

/-- `save_plan`. -/
def savePlan (idFirst : Bool) : Except PlanError PlanTables :=
  match (t.plans.find? call.plan.planId).filter (·.runId = call.runId) with
  | some existing => do
    ensure (existing.plan = call.plan) .planIdConflict
    return t.point call
  | none => do
    let t ← (t.supersede call).insertPlan call idFirst
    return t.point call

def perform (idFirst : Bool) : PlanTables := (t.savePlan call idFirst).toOption.getD t

def Booked (run : PlannedRun) : Prop :=
  ∃ row ∈ t.plans.rows, row.runId = run.runId ∧ row.status = .active ∧
    run.currentPlan = some (row.planId, row.plan.planVersion) ∧
    ∀ other ∈ t.plans.rows, other.runId = run.runId → other.status = .active → other = row

def Unconfused : Prop :=
  ∀ row, t.plans.find? call.plan.planId = some row →
    row.runId = call.runId ∧ (row.plan = call.plan → row.status = .active)

instance : Decidable (t.Unconfused call) :=
  decidable_of_iff (∀ row ∈ t.plans.find? call.plan.planId,
    row.runId = call.runId ∧ (row.plan = call.plan → row.status = .active)) Iff.rfl

def machine (idFirst : Bool) : Machine PlanTables SavePlan :=
  .total fun t call => t.perform call idFirst

def Bookkeeping (idFirst : Bool) (G : PlanTables → SavePlan → Prop) : Prop :=
  ∀ runs calls t call, (∀ run ∈ runs.rows, run.currentPlan = none) →
    (machine idFirst).Run G { runs } calls t → G t call →
    (∀ u, t.savePlan call idFirst = .ok u →
      t.perform call idFirst = u ∧ ∃ run, u.runs.find? call.runId = some run ∧ u.Booked run) ∧
    ∀ e, t.savePlan call idFirst = .error e → t.perform call idFirst = t

/-- What runs of unconfused calls preserve. -/
structure Kept : Prop where
  run : ∀ row ∈ t.plans.rows, (t.runs.find? row.runId).isSome
  content : ∀ row ∈ t.plans.rows, row.planId = row.plan.planId
  booked : ∀ run ∈ t.runs.rows, t.Booked run ∨ ∀ row ∈ t.plans.rows, row.runId ≠ run.runId

section Steps

variable {t u : PlanTables} {call : SavePlan} {idFirst : Bool} {row : PlanRow}

theorem mem_point {run : PlannedRun} (h : run ∈ (t.point call).runs.rows) :
    (run.runId = call.runId ∧
      run.currentPlan = some (call.plan.planId, call.plan.planVersion)) ∨
    (run.runId ≠ call.runId ∧ run ∈ t.runs.rows) := by
  obtain ⟨old, hold, rfl⟩ := List.mem_map.mp h
  by_cases hmine : old.runId = call.runId
  · rw [if_pos (decide_eq_true hmine)]
    exact .inl ⟨hmine, rfl⟩
  · rw [if_neg (by simpa using hmine)]
    exact .inr ⟨hmine, hold⟩

/-- A run that is pointed at its only active plan is booked, and the others stay as they were. -/
theorem kept_point (hrun : ∀ p ∈ t.plans.rows, (t.runs.find? p.runId).isSome)
    (hcontent : ∀ p ∈ t.plans.rows, p.planId = p.plan.planId) (hrow : row ∈ t.plans.rows)
    (hid : row.runId = call.runId) (hplan : row.plan = call.plan) (hactive : row.status = .active)
    (honly : ∀ p ∈ t.plans.rows, p.runId = call.runId → p.status = .active → p = row)
    (hothers : ∀ run ∈ t.runs.rows, run.runId ≠ call.runId →
      t.Booked run ∨ ∀ p ∈ t.plans.rows, p.runId ≠ run.runId) :
    (t.point call).Kept ∧ ∃ run, (t.point call).runs.find? call.runId = some run ∧
      (t.point call).Booked run := by
  have hbooked : ∀ run ∈ (t.point call).runs.rows, run.runId = call.runId →
      (t.point call).Booked run := by
    intro run hmem hsame
    obtain ⟨-, hcurrent⟩ := (mem_point hmem).resolve_right fun h => h.1 hsame
    refine ⟨row, hrow, hid.trans hsame.symm, hactive, ?_, fun p hp hpr => honly p hp (hpr.trans hsame)⟩
    rw [hcurrent, hcontent row hrow, hplan]
  have hfound : ∀ runId, (t.runs.find? runId).isSome →
      ((t.point call).runs.find? runId).isSome := by
    intro runId hsome
    rw [point, Table.find?_updateWhere, Option.isSome_map]
    exact hsome
  refine ⟨⟨fun p hp => hfound _ (hrun p hp), hcontent, fun run hmem => ?_⟩, ?_⟩
  · by_cases hsame : run.runId = call.runId
    · exact .inl (hbooked run hmem hsame)
    · exact hothers run ((mem_point hmem).resolve_left fun h => hsame h.1).2 hsame
  · obtain ⟨run, hsome⟩ := Option.isSome_iff_exists.mp (hfound _ (hid ▸ hrun row hrow))
    exact ⟨run, hsome, hbooked run (Table.find?_mem hsome) (Table.find?_key hsome)⟩

/-- What `supersede` makes of a row is the row of another run, or is not active. -/
theorem mem_supersede {p : PlanRow} (h : p ∈ (t.supersede call).plans.rows) :
    ∃ old ∈ t.plans.rows, old.planId = p.planId ∧ old.runId = p.runId ∧ old.plan = p.plan ∧
      (p = old ∨ old.runId = call.runId) ∧ (p.runId = call.runId → p.status ≠ .active) := by
  obtain ⟨old, hold, rfl⟩ := List.mem_map.mp h
  refine ⟨old, hold, ?_⟩
  by_cases hmine : old.runId = call.runId ∧ old.status = .active
  · rw [if_pos (decide_eq_true hmine)]
    exact ⟨rfl, rfl, rfl, .inr hmine.1, fun _ hactive => nomatch hactive⟩
  · rw [if_neg (by simpa using hmine)]
    exact ⟨rfl, rfl, rfl, .inl rfl, fun hsame hactive => hmine ⟨hsame, hactive⟩⟩

/-- A row of another run survives `supersede`. -/
theorem mem_supersede_of_ne {p : PlanRow} (h : p ∈ t.plans.rows) (hne : p.runId ≠ call.runId) :
    p ∈ (t.supersede call).plans.rows :=
  List.mem_map.mpr ⟨p, h, if_neg (by simp [hne])⟩

theorem kept_savePlan (h : t.Kept) (hcall : t.Unconfused call)
    (hok : t.savePlan call idFirst = .ok u) :
    u.Kept ∧ ∃ run, u.runs.find? call.runId = some run ∧ u.Booked run := by
  unfold savePlan at hok
  split at hok
  · rename_i existing hfound
    obtain ⟨hfound, -⟩ := Option.filter_eq_some_iff.mp hfound
    simp only [except_bind_eq_ok_iff, ensure_eq_ok_iff, except_pure_eq_ok_iff] at hok
    obtain ⟨_, hplan, rfl⟩ := hok
    obtain ⟨hid, hactive⟩ := hcall existing hfound
    have hmem := Table.find?_mem hfound
    refine kept_point h.run h.content hmem hid hplan (hactive hplan) ?_ fun run hr _ => h.booked run hr
    -- the run of an active row is booked, and with no other row
    intro p hp hpr hpa
    obtain ⟨run, hrun⟩ := Option.isSome_iff_exists.mp (h.run existing hmem)
    have hkey : run.runId = existing.runId := Table.find?_key hrun
    rcases h.booked run (Table.find?_mem hrun) with ⟨only, -, -, -, -, honly⟩ | hnone
    · rw [honly p hp (hpr.trans (hid.symm.trans hkey.symm)) hpa,
        honly existing hmem hkey.symm (hactive hplan)]
    · exact absurd hkey.symm (hnone existing hmem)
  · rename_i hnone
    have hfree : t.plans.find? call.plan.planId = none := by
      by_contra hsome
      obtain ⟨row, hrow⟩ := Option.ne_none_iff_exists'.mp hsome
      rw [hrow, Option.filter_some, if_pos (decide_eq_true (hcall row hrow).1)] at hnone
      cases hnone
    have hfree' : (t.supersede call).plans.find? call.plan.planId = none := by
      rw [supersede, Table.find?_updateWhere, hfree, Option.map_none]
    obtain ⟨plans, hinsert⟩ := Table.exists_insert_iff (r := newRow call) |>.mpr hfree'
    simp only [insertPlan, hinsert, except_bind_eq_ok_iff, ensure_eq_ok_iff,
      except_pure_eq_ok_iff] at hok
    obtain ⟨v, ⟨_, -, _, hrun, rfl⟩, rfl⟩ := hok
    have hmem : ∀ p, p ∈ plans.rows ↔ p ∈ (t.supersede call).plans.rows ∨ p = newRow call :=
      Table.mem_insert hinsert
    -- a row of another run is the one that was stored
    have hother : ∀ p ∈ plans.rows, p.runId ≠ call.runId → p ∈ t.plans.rows := by
      intro p hp hne
      rcases (hmem p).mp hp with hp | rfl
      · obtain ⟨old, hold, -, hsame, -, rfl | hmine, -⟩ := mem_supersede hp
        · exact hold
        · exact absurd (hsame.symm.trans hmine) hne
      · exact absurd rfl hne
    have hstored : ∀ p ∈ plans.rows, (t.runs.find? p.runId).isSome ∧ p.planId = p.plan.planId := by
      intro p hp
      rcases (hmem p).mp hp with hp | rfl
      · obtain ⟨old, hold, hid, hsame, hplan, -, -⟩ := mem_supersede hp
        rw [← hsame, ← hid, ← hplan]
        exact ⟨h.run old hold, h.content old hold⟩
      · exact ⟨Option.isSome_iff_ne_none.mpr hrun, rfl⟩
    refine kept_point (fun p hp => (hstored p hp).1) (fun p hp => (hstored p hp).2)
      ((hmem (newRow call)).mpr (.inr rfl)) rfl rfl rfl ?_ fun run hr hne => ?_
    · intro p hp hpr hpa
      rcases (hmem p).mp hp with hp | rfl
      · obtain ⟨-, -, -, -, -, -, hinactive⟩ := mem_supersede hp
        exact absurd hpa (hinactive hpr)
      · rfl
    · rcases h.booked run hr with ⟨row, hrow, hid, hactive, hcurrent, honly⟩ | hnone
      · refine .inl ⟨row, (hmem row).mpr (.inl (mem_supersede_of_ne hrow (hid ▸ hne))), hid, hactive,
          hcurrent, fun p hp hpr => honly p (hother p hp (hpr ▸ hne)) hpr⟩
      · exact .inr fun p hp hpr => hnone p (hother p hp (hpr ▸ hne)) hpr

theorem Kept.perform (h : t.Kept) (hcall : t.Unconfused call) : (t.perform call idFirst).Kept := by
  unfold PlanTables.perform
  cases hok : t.savePlan call idFirst with
  | error e => exact h
  | ok u => exact (kept_savePlan h hcall hok).1

end Steps

theorem bookkeeping_of_unconfused (idFirst : Bool) :
    Bookkeeping idFirst fun t call => t.Unconfused call := by
  intro runs calls t call hfresh hrun hcall
  have hkept : t.Kept := by
    refine hrun.invariant Kept ?_ ⟨by simp, by simp, fun _ _ => .inr (by simp)⟩
    rintro s c u hs hc hstep
    cases hstep
    exact hs.perform hc
  refine ⟨fun u hok => ⟨by rw [perform, hok]; rfl, (kept_savePlan hkept hcall hok).2⟩, ?_⟩
  intro e herror
  rw [perform, herror]
  rfl

def plannedRuns : Table PlannedRun.runId := ⟨[{ runId := "run" }], by simp⟩

def firstPlan : SavePlan := { runId := "run", plan := ⟨"plan_1", "1", "content"⟩ }

def secondPlan : SavePlan := { runId := "run", plan := ⟨"plan_2", "2", "content"⟩ }

/-- The first plan is saved again after the second one: the run names the first plan, and the
second one is active. -/
theorem not_bookkeeping_free : ¬ Bookkeeping true Machine.Free := by
  intro hall
  have hrun : (machine true).Run Machine.Free { runs := plannedRuns } [firstPlan, secondPlan] _ :=
    Machine.run_total _ rfl
  obtain ⟨hok, -⟩ := hall plannedRuns _ _ firstPlan (by decide) hrun trivial
  obtain ⟨-, run, hfound, row, hrow, -, hactive, hcurrent, -⟩ := hok _ rfl
  obtain rfl : ⟨"run", some ("plan_1", "1")⟩ = run := Option.some.inj hfound
  have hplans : ∀ row ∈ [(⟨"plan_1", "run", firstPlan.plan, "", .superseded, none⟩ : PlanRow),
      newRow secondPlan], row.status = .active → row.planId ≠ "plan_1" := by decide
  exact hplans row hrow hactive (Prod.mk.inj (Option.some.inj hcurrent)).1.symm

theorem bookkeeping_secondPlan :
    ∃ (t u : PlanTables) (run : PlannedRun), t.savePlan secondPlan true = .ok u ∧ u.runs.find? "run" = some run ∧
      u.Booked run := by
  have hrun : (machine true).Run (fun t call => t.Unconfused call) { runs := plannedRuns }
      [firstPlan] _ := Machine.run_total _ (by decide)
  obtain ⟨hok, -⟩ := bookkeeping_of_unconfused true plannedRuns _ _ secondPlan (by decide) hrun
    (by decide)
  obtain ⟨-, run, hfound, hbooked⟩ := hok _ rfl
  exact ⟨[firstPlan].foldl (fun t call => t.perform call true) { runs := plannedRuns }, _, run, rfl,
    hfound, hbooked⟩

end PlanTables

end CodeResearch.Research
