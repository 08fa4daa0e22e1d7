import CodeResearch.Evaluation.DatasetCatalog
import CodeResearch.Evaluation.BadCaseLog

/-!
# Frozen datasets are exact and clean

The checks of a freezing and the writes of a case stand in different transactions. A frozen
version is the one of its cases as long as no case is stored between a listing and its freezing
or between a reading of the version and the freezing of it, and as long as promotions store
reproduced cases and come to their end before the version is frozen.
-/
namespace CodeResearch.Evaluation

open ControlPlane (JobError Timestamp)

def CatalogStore.Reproduced (s : CatalogStore) (case : CatalogCase) : Prop :=
  ∃ p ∈ s.promotions.rows, p.newCaseId = case.caseId ∧
    p.targetDatasetVersionId = case.datasetVersionId ∧ p.ReproducedBeforeFix

/-- A frozen version is the one of some cases, which may be frozen. -/
structure Sealed (hashes : CatalogHashes) (version : EvaluationDatasetVersion)
    (cases : List CatalogCase) : Prop where
  frozen : version.status = .frozen
  caseCount : version.caseCount = cases.length
  contentHash : version.contentHash = hashes.cases cases
  goldHash : version.goldHash = hashes.golds (cases.map CatalogCase.gold)
  adjudicated : ∀ case ∈ cases,
    case.adjudicationStatus ≠ .pending ∧ case.adjudicationStatus ≠ .disputed
  families : ∀ case ∈ cases, ∀ other ∈ cases,
    case.stableCaseFamilyId = other.stableCaseFamilyId → case.split = other.split

/-- A version is the one of the cases stored for it, and the ones of them that a promotion has
stored were reproduced. -/
structure FrozenSound (hashes : CatalogHashes) (s : CatalogSystem)
    (version : EvaluationDatasetVersion) : Prop where
  exact : Sealed hashes version (s.store.listCases version.datasetVersionId)
  reproduced : ∀ case ∈ s.store.listCases version.datasetVersionId, case.caseId ∈ s.promoted →
    s.store.Reproduced case

variable {version : EvaluationDatasetVersion}

namespace CatalogStore

variable {s t : CatalogStore}

variable {case : CatalogCase}

@[simp] theorem mem_listCases {versionId : String} :
    case ∈ s.listCases versionId ↔ case ∈ s.cases.rows ∧ case.datasetVersionId = versionId := by
  unfold listCases
  rw [List.mem_insertionSort, List.mem_filter, decide_eq_true_iff]

theorem saveDatasetVersion_ok (h : s.saveDatasetVersion version = .ok t) :
    t.cases = s.cases ∧ t.promotions = s.promotions ∧
      (t.versions = s.versions ∨
        (∀ row, s.versions.find? version.datasetVersionId = some row → row.status ≠ .frozen) ∧
          ∀ row, row ∈ t.versions.rows ↔ row = version ∨
            row ∈ s.versions.rows ∧ row.datasetVersionId ≠ version.datasetVersionId) := by
  unfold saveDatasetVersion at h
  split at h
  · rename_i hnone
    obtain ⟨versions, hins, rfl⟩ := except_map_eq_ok_iff.mp h
    have hrows := orError_eq_ok_iff.mp hins
    refine ⟨rfl, rfl, .inr ⟨fun row hrow => (nomatch hnone.symm.trans hrow), fun row => ?_⟩⟩
    have hfresh := Table.insert_fresh hrows
    rw [Table.mem_insert hrows]
    constructor
    · rintro (hrow | rfl)
      · exact .inr ⟨hrow, fun he => hfresh (he ▸ List.mem_map_of_mem hrow)⟩
      · exact .inl rfl
    · rintro (rfl | ⟨hrow, _⟩)
      · exact .inr rfl
      · exact .inl hrow
  · rename_i old hold
    split_ifs at h with hfrozen hopen <;> cases h
    · refine ⟨rfl, rfl, .inr ⟨fun row hrow => ?_, fun row => Table.mem_replace (by rw [hold]; rfl) row⟩⟩
      cases hold.symm.trans hrow
      rcases hopen with hopen | hopen <;> rw [hopen] <;> simp
    · exact ⟨rfl, rfl, .inl rfl⟩

variable {status : DatasetStatus} {p : CasePromotion}

theorem storeCase_ok (h : s.storeCase status case = .ok t) :
    t.versions = s.versions ∧ t.promotions = s.promotions ∧
      (s.cases.find? case.caseId = none ∧ status ≠ .frozen ∧ t.cases.rows = s.cases.rows ++ [case] ∨
        s.cases.find? case.caseId = some case ∧ t.cases = s.cases) := by
  unfold storeCase at h
  split at h
  · rename_i hnone
    split_ifs at h with hfrozen
    obtain ⟨cases, hins, rfl⟩ := except_map_eq_ok_iff.mp h
    exact ⟨rfl, rfl, .inl ⟨hnone, hfrozen, Table.rows_insert (orError_eq_ok_iff.mp hins)⟩⟩
  · rename_i existing hexisting
    split_ifs at h with hsame
    cases h
    exact ⟨rfl, rfl, .inr ⟨hsame ▸ hexisting, rfl⟩⟩

/-- A case that is not stored has been stored before, or its version was read frozen. -/
theorem storeCase_error {e : JobError} (h : s.storeCase status case = .error e) :
    (s.cases.find? case.caseId).isSome ∨ status = .frozen := by
  unfold storeCase at h
  split at h
  · rename_i hnone
    split_ifs at h with hfrozen
    · exact .inr hfrozen
    · obtain ⟨u, hu⟩ := Table.exists_insert ((s.cases.find?_eq_none_iff).mp hnone)
      rw [hu] at h
      cases h
  · rename_i existing hexisting
    exact .inl (by rw [hexisting]; rfl)

theorem savePromotion_ok (h : s.savePromotion p = .ok t) :
    t.versions = s.versions ∧ t.cases = s.cases ∧ ∀ q, q ∈ t.promotions.rows ↔
      q ∈ s.promotions.rows ∨ q = p := by
  obtain ⟨promotions, hp, rfl⟩ := except_map_eq_ok_iff.mp h
  refine ⟨rfl, rfl, fun q => ?_⟩
  rcases BadCaseStore.immutableJson_ok hp with ⟨hfound, rfl⟩ | ⟨_, hins⟩
  · refine ⟨.inl, fun hq => hq.elim id fun he => ?_⟩
    exact he ▸ Table.find?_mem hfound
  · exact Table.mem_insert hins q

theorem exists_savePromotion (h : s.promotions.find? p.promotionId = none) :
    ∃ t, s.savePromotion p = .ok t := by
  obtain ⟨u, hu⟩ := Table.exists_insert ((s.promotions.find?_eq_none_iff).mp h)
  refine ⟨{ s with promotions := u }, ?_⟩
  unfold savePromotion BadCaseStore.immutableJson
  rw [h]
  dsimp only
  rw [hu]
  rfl

theorem Reproduced.of_promotions (h : s.Reproduced case)
    (hmore : ∀ p ∈ s.promotions.rows, p ∈ t.promotions.rows) : t.Reproduced case := by
  obtain ⟨p, hp, hcase, htarget, hreproduced⟩ := h
  exact ⟨p, hmore p hp, hcase, htarget, hreproduced⟩

end CatalogStore

namespace PromotionCall

def Reproduces (call : PromotionCall) : Prop :=
  call.regressionCase.isSome → call.reproduced = true ∧ ∃ id ∈ call.preFixReproductionResultId, id ≠ ""

/-- A call whose arguments were checked. -/
structure Checked (call : PromotionCall) : Prop where
  reproduces : call.Reproduces
  identity : ∀ case ∈ call.regressionCase, case.caseId = call.newCaseId
  dataset : ∀ case ∈ call.regressionCase, case.datasetVersionId = call.targetDatasetVersionId

variable {call : PromotionCall}

theorem checked_of_check {status : BadCaseStatus} {u : Unit}
    (h : call.check status = .ok u) (hr : call.Reproduces) : call.Checked := by
  unfold check at h
  obtain ⟨_, _, h⟩ := except_bind_eq_ok_iff.mp h
  obtain ⟨_, _, h⟩ := except_bind_eq_ok_iff.mp h
  obtain ⟨_, hidentity, h⟩ := except_bind_eq_ok_iff.mp h
  exact ⟨hr, ensure_eq_ok_iff.mp hidentity, ensure_eq_ok_iff.mp h⟩

theorem Checked.reproduced (h : call.Checked) {case : CatalogCase}
    (hcase : call.regressionCase = some case) (hashes : CatalogHashes) (now : Timestamp)
    {s : CatalogStore} (hstored : call.promotion hashes now ∈ s.promotions.rows) :
    s.Reproduced case := by
  obtain ⟨hreproduced, hbefore⟩ := h.reproduces (by rw [hcase]; rfl)
  refine ⟨_, hstored, (h.identity case hcase).symm, (h.dataset case hcase).symm, ?_, hbefore⟩
  exact if_pos hreproduced

end PromotionCall

theorem sealed_of_checkCases {hashes : CatalogHashes} {cases : List CatalogCase} {now : Timestamp}
    {u : Unit} (h : checkCases version.datasetVersionId cases = .ok u) :
    Sealed hashes (version.freeze hashes cases now) cases := by
  unfold checkCases at h
  obtain ⟨_, _, h⟩ := except_bind_eq_ok_iff.mp h
  obtain ⟨_, hadjudicated, h⟩ := except_bind_eq_ok_iff.mp h
  obtain ⟨_, _, h⟩ := except_bind_eq_ok_iff.mp h
  exact ⟨rfl, rfl, rfl, rfl, ensure_eq_ok_iff.mp hadjudicated, ensure_eq_ok_iff.mp h⟩

namespace CatalogSystem

variable (hashes : CatalogHashes)

def Fits : CatalogCall → Prop
  | .saving case promotion | .storing case _ promotion =>
    ∀ call ∈ promotion, call.regressionCase = some case ∧ call.Checked
  | .promoting call => call.Reproduces
  | .targeting call case | .sourcing call case => call.regressionCase = some case ∧ call.Checked
  | .creating call case target =>
    (call.regressionCase = some case ∧ call.Checked) ∧ target.status ≠ .frozen
  | .recording call => call.Checked
  | .freezing _ | .listing _ => True
  | .sealing frozen cases => Sealed hashes frozen cases

structure Inv (s : CatalogSystem) : Prop where
  frozen : ∀ version ∈ s.store.versions.rows, version.status = .frozen → FrozenSound hashes s version
  stored : ∀ id ∈ s.promoted, ∃ case ∈ s.store.cases.rows, case.caseId = id
  reproduced : ∀ case ∈ s.store.cases.rows, case.caseId ∈ s.promoted → s.store.Reproduced case ∨
    ∃ call, .recording call ∈ s.calls ∧ call.regressionCase = some case
  calls : ∀ call ∈ s.calls, Fits hashes call

/-- While a promotion has stored a case and not its promotion, it is not cut off and another one
does not take its id. A case is stored where its version is not frozen by then, and a version is
frozen with the cases that are stored, none of them by a promotion that goes on. -/
def Spares (s : CatalogSystem) : CatalogLabel → Prop
  | .promote call => call.Reproduces
  | .advance k _ => ∀ call, s.calls[k]? = some call →
    match call with
    | .storing case status _ => s.store.cases.find? case.caseId = none → status ≠ .frozen →
      ∀ version, s.store.versions.find? case.datasetVersionId = some version →
        version.status ≠ .frozen
    | .recording call => call.regressionCase.isSome →
      s.store.promotions.find? (hashes.promotionId call.badCaseId call.targetDatasetVersionId
        call.newCaseId) = none
    | .sealing frozen cases =>
      (∀ version, s.store.versions.find? frozen.datasetVersionId = some version →
        version.status ≠ .frozen) →
      s.store.listCases frozen.datasetVersionId = cases ∧
        ∀ call case, .recording call ∈ s.calls → call.regressionCase = some case →
          case.datasetVersionId ≠ frozen.datasetVersionId
    | _ => True
  | .raise k => ∀ call, s.calls[k]? = some (.recording call) → call.regressionCase = none
  | _ => True

variable {hashes} {s t : CatalogSystem} {k : ℕ} {now : Timestamp}

variable {next : Option CatalogCall} {store : CatalogStore} {row : EvaluationDatasetVersion}

variable {call : CatalogCall}

theorem mem_resume (h : call ∈ (s.resume k next).calls) : next = some call ∨ call ∈ s.calls := by
  rcases List.mem_append.mp h with h | h
  · exact .inl (Option.mem_toList.mp h)
  · exact .inr (List.mem_of_mem_eraseIdx h)

theorem mem_resume_of_ne (h : call ∈ s.calls) (hne : s.calls[k]? ≠ some call) :
    call ∈ (s.resume k next).calls := by
  obtain ⟨i, hi⟩ := List.mem_iff_getElem?.mp h
  refine List.mem_append_right _ (List.mem_eraseIdx_iff_getElem?.mpr ⟨i, ?_, hi⟩)
  rintro rfl
  exact hne hi

/-- A step that leaves the store alone and ends no promotion that has stored its case. -/
theorem Inv.calls_step (h : Inv hashes s) (hstore : t.store = s.store)
    (hpromoted : t.promoted = s.promoted) (hcalls : ∀ call ∈ t.calls, Fits hashes call)
    (hkept : ∀ call case, .recording call ∈ s.calls → call.regressionCase = some case →
      .recording call ∈ t.calls) : Inv hashes t := by
  refine ⟨fun version hv hf => ?_, fun id hid => ?_, fun case hc hp => ?_, hcalls⟩
  · rw [hstore] at hv
    obtain ⟨hexact, hreproduced⟩ := h.frozen version hv hf
    exact ⟨hstore ▸ hexact, by rw [hstore, hpromoted]; exact hreproduced⟩
  · rw [hpromoted] at hid
    rw [hstore]
    exact h.stored id hid
  · rw [hstore] at hc ⊢
    rw [hpromoted] at hp
    refine (h.reproduced case hc hp).imp_right ?_
    rintro ⟨call, hcall, hcase⟩
    exact ⟨call, hkept call case hcall hcase, hcase⟩

theorem Inv.resume (h : Inv hashes s) (hk : s.calls[k]? = some call)
    (hnext : ∀ call' ∈ next, Fits hashes call')
    (hends : ∀ p case, call = .recording p → p.regressionCase ≠ some case) :
    Inv hashes (s.resume k next) := by
  refine h.calls_step rfl rfl (fun call' hcall => ?_) fun p case hp hcase => ?_
  · rcases mem_resume hcall with hn | hcall
    · exact hnext call' hn
    · exact h.calls call' hcall
  · refine mem_resume_of_ne hp fun he => ?_
    cases hk.symm.trans he
    exact hends p case rfl hcase

theorem Inv.storeCase (h : Inv hashes s) {case : CatalogCase} {status : DatasetStatus}
    {promotion : Option PromotionCall} (hk : s.calls[k]? = some (.storing case status promotion))
    (hspares : s.store.cases.find? case.caseId = none → status ≠ .frozen →
      ∀ version, s.store.versions.find? case.datasetVersionId = some version →
        version.status ≠ .frozen) (hok : s.store.storeCase status case = .ok store) :
    Inv hashes { s.resume k (promotion.map .recording) with
      store, promoted := s.promotedBy case status promotion } := by
  have hfits : ∀ call ∈ promotion, call.regressionCase = some case ∧ call.Checked :=
    h.calls _ (List.mem_of_getElem? hk)
  obtain ⟨hversions, hpromotions, ⟨hnone, hstatus, hrows⟩ | ⟨hsome, hcases⟩⟩ :=
    CatalogStore.storeCase_ok hok
  · have hnew : ∀ c ∈ s.store.cases.rows, c.caseId ≠ case.caseId := fun c hc he =>
      (s.store.cases.find?_eq_none_iff).mp hnone (he ▸ List.mem_map_of_mem hc)
    have hpromoted : ∀ {id}, id ∈ s.promotedBy case status promotion →
        id = case.caseId ∧ promotion.isSome ∨ id ∈ s.promoted := by
      intro id hid
      unfold promotedBy at hid
      split_ifs at hid with hp
      · rcases List.mem_cons.mp hid with rfl | hid
        · exact .inl ⟨rfl, hp.1⟩
        · exact .inr hid
      · exact .inr hid
    have hold : ∀ {c}, c ∈ s.store.cases.rows → c.caseId ∈ s.promotedBy case status promotion →
        c.caseId ∈ s.promoted := fun hc hid =>
      (hpromoted hid).resolve_left fun he => hnew _ hc he.1
    have hmore : ∀ p ∈ s.store.promotions.rows, p ∈ store.promotions.rows := fun p hp => by
      rwa [hpromotions]
    refine ⟨fun version hv hf => ?_, fun id hid => ?_, fun c hc hp => ?_, fun call hcall => ?_⟩
    · rw [hversions] at hv
      have hne : case.datasetVersionId ≠ version.datasetVersionId := fun he =>
        hspares hnone hstatus version (he ▸ Table.find?_of_mem hv) hf
      have hlist : store.listCases version.datasetVersionId =
          s.store.listCases version.datasetVersionId := by
        unfold CatalogStore.listCases
        rw [hrows, List.filter_append, List.filter_singleton, decide_eq_false hne, Bool.cond_false,
          List.append_nil]
      obtain ⟨hexact, hreproduced⟩ := h.frozen version hv hf
      refine ⟨hlist ▸ hexact, fun c hc hp => ?_⟩
      rw [hlist] at hc
      have hcrow := (CatalogStore.mem_listCases.mp hc).1
      exact (hreproduced c hc (hold hcrow hp)).of_promotions hmore
    · rcases hpromoted hid with ⟨rfl, _⟩ | hid
      · exact ⟨case, by rw [hrows]; simp, rfl⟩
      · obtain ⟨c, hc, he⟩ := h.stored id hid
        exact ⟨c, by rw [hrows]; exact List.mem_append_left _ hc, he⟩
    · rw [hrows, List.mem_append, List.mem_singleton] at hc
      rcases hc with hc | rfl
      · refine (h.reproduced c hc (hold hc hp)).imp (fun hr => hr.of_promotions hmore) ?_
        rintro ⟨call, hcall, hcase⟩
        refine ⟨call, mem_resume_of_ne hcall fun he => ?_, hcase⟩
        cases hk.symm.trans he
      · rcases hpromoted hp with ⟨_, hsome⟩ | hp
        · obtain ⟨call, hcall⟩ := Option.isSome_iff_exists.mp hsome
          refine .inr ⟨call, ?_, (hfits call hcall).1⟩
          simp [CatalogSystem.resume, hcall]
        · obtain ⟨c', hc', he⟩ := h.stored _ hp
          exact absurd he (hnew c' hc')
    · rcases mem_resume hcall with hn | hcall
      · obtain ⟨call', hcall', rfl⟩ := Option.map_eq_some_iff.mp hn
        exact (hfits call' hcall').2
      · exact h.calls call hcall
  · have hsame : store = s.store := by
      cases store
      cases hs : s.store
      simp_all
    have hpromoted : s.promotedBy case status promotion = s.promoted := if_neg (by simp [hsome])
    rw [hpromoted, hsame]
    refine h.resume hk (fun call' hcall' => ?_) fun p c he => nomatch he
    obtain ⟨call, hcall, rfl⟩ := Option.map_eq_some_iff.mp hcall'
    exact (hfits call hcall).2

theorem Inv.savePromotion (h : Inv hashes s) {call : PromotionCall}
    (hk : s.calls[k]? = some (.recording call))
    (hok : s.store.savePromotion (call.promotion hashes now) = .ok store) :
    Inv hashes { s.resume k none with store } := by
  obtain ⟨hversions, hcases, hpromotions⟩ := CatalogStore.savePromotion_ok hok
  have hmore : ∀ p ∈ s.store.promotions.rows, p ∈ store.promotions.rows := fun p hp =>
    (hpromotions p).mpr (.inl hp)
  have hlist : ∀ id, store.listCases id = s.store.listCases id := fun id => by
    unfold CatalogStore.listCases
    rw [hcases]
  refine ⟨fun version hv hf => ?_, fun id hid => ?_, fun c hc hp => ?_, fun call' hcall' => ?_⟩
  · rw [hversions] at hv
    obtain ⟨hexact, hreproduced⟩ := h.frozen version hv hf
    refine ⟨(hlist _).symm ▸ hexact, fun c hc hp => ?_⟩
    rw [hlist] at hc
    exact (hreproduced c hc hp).of_promotions hmore
  · rw [hcases]
    exact h.stored id hid
  · rw [hcases] at hc
    rcases h.reproduced c hc hp with hr | ⟨call', hcall', hcase⟩
    · exact .inl (hr.of_promotions hmore)
    · by_cases he : call' = call
      · subst he
        have hchecked : call'.Checked := h.calls _ (List.mem_of_getElem? hk)
        exact .inl (hchecked.reproduced hcase hashes now ((hpromotions _).mpr (.inr rfl)))
      · refine .inr ⟨call', mem_resume_of_ne hcall' fun hk' => he ?_, hcase⟩
        cases hk.symm.trans hk'
        rfl
  · rcases mem_resume hcall' with hn | hcall'
    · cases hn
    · exact h.calls call' hcall'

variable {label : CatalogLabel} {labels : List CatalogLabel}

theorem Inv.saveDatasetVersion (h : Inv hashes s) (hk : s.calls[k]? = some call)
    (hends : ∀ p, call ≠ .recording p) (hsound : version.status = .frozen →
      (∀ row, s.store.versions.find? version.datasetVersionId = some row → row.status ≠ .frozen) →
        FrozenSound hashes s version) (hnext : ∀ call' ∈ next, Fits hashes call')
    (hok : s.store.saveDatasetVersion version = .ok store) :
    Inv hashes { s.resume k next with store } := by
  obtain ⟨hcases, hpromotions, hversions⟩ := CatalogStore.saveDatasetVersion_ok hok
  have hlist : ∀ id, store.listCases id = s.store.listCases id := fun id => by
    unfold CatalogStore.listCases
    rw [hcases]
  have hreproduced : ∀ c, s.store.Reproduced c → store.Reproduced c := fun c hc =>
    hc.of_promotions fun p hp => by rwa [hpromotions]
  have hfrozen : ∀ row ∈ store.versions.rows, row.status = .frozen → FrozenSound hashes s row := by
    intro row hrow hf
    rcases hversions with hsame | ⟨hopen, hmem⟩
    · rw [hsame] at hrow
      exact h.frozen row hrow hf
    · rcases (hmem row).mp hrow with rfl | ⟨hrow, _⟩
      · exact hsound hf hopen
      · exact h.frozen row hrow hf
  refine ⟨fun row hrow hf => ?_, fun id hid => ?_, fun c hc hp => ?_, fun call' hcall' => ?_⟩
  · obtain ⟨hexact, hrep⟩ := hfrozen row hrow hf
    refine ⟨(hlist _).symm ▸ hexact, fun c hc hp => hreproduced c ?_⟩
    rw [hlist] at hc
    exact hrep c hc hp
  · rw [hcases]
    exact h.stored id hid
  · rw [hcases] at hc
    refine (h.reproduced c hc hp).imp (hreproduced c) ?_
    rintro ⟨p, hpcall, hcase⟩
    refine ⟨p, mem_resume_of_ne hpcall fun he => hends p ?_, hcase⟩
    exact Option.some.inj (hk.symm.trans he)
  · rcases mem_resume hcall' with hn | hcall'
    · exact hnext call' hn
    · exact h.calls call' hcall'

theorem Inv.advance (h : Inv hashes s) (hk : s.calls[k]? = some call)
    (hspares : Spares hashes s (.advance k now)) (hstep : s.advance hashes k now call = some t) :
    Inv hashes t := by
  have hfits := h.calls call (List.mem_of_getElem? hk)
  have hguard := hspares call hk
  have hresume : ∀ {next : Option CatalogCall}, (∀ p, call ≠ .recording p) →
      (∀ call' ∈ next, Fits hashes call') → Inv hashes (s.resume k next) := fun hne hnext =>
    h.resume hk hnext fun p _ he => absurd he (hne p)
  cases call with
  | saving case promotion =>
    cases hstep
    refine hresume (fun _ he => nomatch he) fun call' hcall' => ?_
    obtain ⟨version, _, rfl⟩ := Option.map_eq_some_iff.mp hcall'
    exact hfits
  | storing case status promotion =>
    cases hstep
    cases hresult : s.store.storeCase status case with
    | ok store => exact h.storeCase hk hguard hresult
    | error e =>
      have hpromoted : s.promotedBy case status promotion = s.promoted := by
        refine if_neg fun hp => ?_
        rcases CatalogStore.storeCase_error hresult with hsome | hfrozen
        · rw [Option.isNone_iff_eq_none.mp hp.2.1] at hsome
          cases hsome
        · exact hp.2.2 hfrozen
      rw [hpromoted]
      exact hresume (fun _ he => nomatch he) fun _ hn => nomatch hn
  | promoting call => cases hstep
  | targeting call case =>
    cases hstep
    refine hresume (fun _ he => nomatch he) fun call' hcall' => ?_
    cases hcall'
    split
    · intro p hp
      cases hp
      exact hfits
    · exact hfits
  | sourcing call case =>
    cases hstep
    refine hresume (fun _ he => nomatch he) fun call' hcall' => ?_
    obtain ⟨source, _, rfl⟩ := Option.map_eq_some_iff.mp hcall'
    exact ⟨hfits, fun he => nomatch he⟩
  | creating call case target =>
    cases hstep
    unfold settle
    split
    · rename_i store hok
      refine h.saveDatasetVersion hk (fun _ he => nomatch he) (fun hf => absurd hf hfits.2) ?_ hok
      intro call' hcall'
      cases hcall'
      intro p hp
      cases hp
      exact hfits.1
    · exact hresume (fun _ he => nomatch he) fun _ hn => nomatch hn
  | recording call =>
    cases hstep
    unfold settle
    split
    · rename_i store hok
      exact h.savePromotion hk hok
    · rename_i e herror
      refine h.resume hk (fun _ hn => nomatch hn) fun p case he hcase => ?_
      cases he
      obtain ⟨store, hok⟩ := CatalogStore.exists_savePromotion
        (p := call.promotion hashes now) (hguard (by rw [hcase]; rfl))
      cases hok.symm.trans herror
  | freezing versionId =>
    cases hstep
    refine hresume (fun _ he => nomatch he) fun call' hcall' => ?_
    obtain ⟨version, _, hv⟩ := Option.bind_eq_some_iff.mp hcall'
    unfold afterVersion at hv
    split_ifs at hv
    cases hv
    trivial
  | listing version =>
    cases hstep
    refine hresume (fun _ he => nomatch he) fun call' hcall' => ?_
    unfold afterCases at hcall'
    split at hcall' <;> cases hcall'
    rename_i hchecked
    exact sealed_of_checkCases hchecked
  | sealing frozen cases =>
    cases hstep
    unfold settle
    split
    · rename_i store hok
      have hends : ∀ call' ∈ (none : Option CatalogCall), Fits hashes call' := fun _ hn => nomatch hn
      refine h.saveDatasetVersion hk (fun _ he => nomatch he) (fun _ hopen => ?_) hends hok
      obtain ⟨hlist, hnone⟩ := hguard hopen
      refine ⟨hlist.symm ▸ hfits, fun c hc hp => ?_⟩
      obtain ⟨hcrow, hversion⟩ := CatalogStore.mem_listCases.mp hc
      refine (h.reproduced c hcrow hp).resolve_right ?_
      rintro ⟨p, hpcall, hcase⟩
      exact hnone p c hpcall hcase hversion
    · exact hresume (fun _ he => nomatch he) fun _ hn => nomatch hn

theorem Inv.step (h : Inv hashes s) (hspares : Spares hashes s label)
    (hstep : (machine hashes).step s label = some t) : Inv hashes t := by
  have hstart : ∀ {call : CatalogCall}, Fits hashes call →
      Inv hashes { s with calls := call :: s.calls } := fun hfits =>
    h.calls_step rfl rfl (fun call' hcall => by
      rcases List.mem_cons.mp hcall with rfl | hcall
      · exact hfits
      · exact h.calls call' hcall) fun _ _ hp _ => List.mem_cons_of_mem _ hp
  cases label with
  | saveCase case =>
    cases hstep
    exact hstart fun _ hp => nomatch hp
  | promote call =>
    cases hstep
    exact hstart hspares
  | freeze versionId =>
    cases hstep
    exact hstart trivial
  | advance k now =>
    obtain ⟨call, hk, hadvance⟩ := Option.bind_eq_some_iff.mp hstep
    exact h.advance hk hspares hadvance
  | read k status =>
    obtain ⟨call, hk, hread⟩ := Option.bind_eq_some_iff.mp hstep
    split at hread <;> cases hread
    rename_i call
    refine h.resume hk (fun call' hcall' => ?_) fun _ _ he => nomatch he
    have hfits : call.Reproduces := h.calls _ (List.mem_of_getElem? hk)
    unfold afterChecked at hcall'
    split at hcall'
    · rename_i hchecked
      have hcall := PromotionCall.checked_of_check hchecked hfits
      cases hcall'
      split
      · rename_i case hcase
        exact ⟨hcase, hcall⟩
      · exact hcall
    · cases hcall'
  | raise k =>
    obtain ⟨call, hk, hraise⟩ := Option.map_eq_some_iff.mp hstep
    cases hraise
    change Inv hashes (s.resume k none)
    refine h.resume hk (fun _ hn => nomatch hn) fun p case he hcase => ?_
    subst he
    cases (hspares p hk).symm.trans hcase

structure Quiescent (hashes : CatalogHashes) (s : CatalogSystem) : Prop where
  calls : s.calls = []
  promoted : s.promoted = []
  frozen : ∀ version ∈ s.store.versions.rows, version.status = .frozen → FrozenSound hashes s version

theorem Quiescent.inv (h : Quiescent hashes s) : Inv hashes s where
  frozen := h.frozen
  stored id hid := by
    rw [h.promoted] at hid
    cases hid
  reproduced case _ hp := by
    rw [h.promoted] at hp
    cases hp
  calls call hcall := by
    rw [h.calls] at hcall
    cases hcall

theorem inv_run {init : CatalogSystem} (hinit : Quiescent hashes init)
    (h : (machine hashes).Run (Spares hashes) init labels s) : Inv hashes s :=
  h.invariant (Inv hashes) (fun _ _ _ hs hspares hstep => hs.step hspares hstep) hinit.inv

theorem frozen_saveDatasetVersion {s t : CatalogStore}
    (h : s.saveDatasetVersion version = .ok t) (hrow : row ∈ s.versions.rows)
    (hf : row.status = .frozen) : row ∈ t.versions.rows := by
  obtain ⟨_, _, hsame | ⟨hopen, hmem⟩⟩ := CatalogStore.saveDatasetVersion_ok h
  · rwa [hsame]
  · refine (hmem row).mpr (.inr ⟨hrow, fun he => ?_⟩)
    exact hopen row (he ▸ Table.find?_of_mem hrow) hf

theorem frozen_advance (h : s.advance hashes k now call = some t)
    (hrow : row ∈ s.store.versions.rows) (hf : row.status = .frozen) :
    row ∈ t.store.versions.rows := by
  have hsettle : ∀ {result : Except JobError CatalogStore} {next : Option CatalogCall},
      (∀ store, result = .ok store → row ∈ store.versions.rows) →
        row ∈ (s.settle k result next).store.versions.rows := by
    intro result next hresult
    cases result with
    | ok store => exact hresult store rfl
    | error => exact hrow
  cases call <;> cases h
  case storing case status promotion =>
    refine hsettle fun store hok => ?_
    rwa [(CatalogStore.storeCase_ok hok).1]
  case creating call case target =>
    exact hsettle fun store hok => frozen_saveDatasetVersion hok hrow hf
  case recording call =>
    refine hsettle fun store hok => ?_
    rwa [(CatalogStore.savePromotion_ok hok).1]
  case sealing frozen cases => exact hsettle fun store hok => frozen_saveDatasetVersion hok hrow hf
  all_goals exact hrow

theorem frozen_step
    (hstep : (machine hashes).step s label = some t) (hrow : row ∈ s.store.versions.rows)
    (hf : row.status = .frozen) : row ∈ t.store.versions.rows := by
  cases label with
  | advance k now =>
    obtain ⟨call, _, hadvance⟩ := Option.bind_eq_some_iff.mp hstep
    exact frozen_advance hadvance hrow hf
  | read k status =>
    obtain ⟨call, _, hread⟩ := Option.bind_eq_some_iff.mp hstep
    split at hread <;> cases hread
    exact hrow
  | raise k =>
    obtain ⟨call, _, hraise⟩ := Option.map_eq_some_iff.mp hstep
    cases hraise
    exact hrow
  | _ =>
    cases hstep
    exact hrow

theorem frozen_run
    (h : (machine hashes).Run Machine.Free s labels t) (hrow : row ∈ s.store.versions.rows)
    (hf : row.status = .frozen) : row ∈ t.store.versions.rows :=
  h.invariant (fun u => row ∈ u.store.versions.rows)
    (fun _ _ _ hu _ hstep => frozen_step hstep hu hf) hrow

/-- A version that is frozen is the one of its cases, and stays so. -/
theorem frozen_datasets_exact {labels : List CatalogLabel} {init : CatalogSystem}
    (hinit : Quiescent hashes init) (h : (machine hashes).Run (Spares hashes) init labels s)
    {version : EvaluationDatasetVersion} (hversion : version ∈ s.store.versions.rows)
    (hfrozen : version.status = .frozen) :
    FrozenSound hashes s version ∧
      ∀ labels' t, (machine hashes).Run (Spares hashes) s labels' t →
        version ∈ t.store.versions.rows ∧ FrozenSound hashes t version := by
  refine ⟨(inv_run hinit h).frozen version hversion hfrozen, fun labels' t hlater => ?_⟩
  have hstays := frozen_run hlater.free hversion hfrozen
  exact ⟨hstays, (inv_run hinit (h.append hlater)).frozen version hstays hfrozen⟩

section Example

def plainHashes : CatalogHashes where
  cases cases := String.join (cases.map fun case => case.caseId ++ ";")
  golds golds := String.join (golds.map (· ++ ";"))
  fixtures fixtures := String.join (fixtures.map (· ++ ";"))
  promotionId badCaseId targetId caseId := badCaseId ++ "/" ++ targetId ++ "/" ++ caseId

def fixtureCase (caseId : String) : CatalogCase where
  caseId := caseId
  stableCaseFamilyId := caseId
  component := .index
  datasetVersionId := "v1"
  split := .dev
  source := .syntheticFixture
  fixture := "fixture"
  gold := "gold"
  annotatorScopeHashes := []
  adjudicationStatus := .notRequired
  content := ""

def draftVersion : EvaluationDatasetVersion where
  datasetVersionId := "v1"
  datasetId := "dataset"
  version := "1"
  status := .draft
  parentVersionId := none
  caseCount := 0
  splitCounts := []
  sourceCounts := []
  schemaHash := ""
  goldHash := ""
  fixtureHash := ""
  contentHash := ""
  annotationPolicyVersion := ""
  authorizationScopeHash := ""
  provenance := ""
  createdAt := 0
  frozenAt := none

def draftDataset : CatalogSystem where
  store :=
    { versions := ⟨[draftVersion], by simp⟩
      cases := ⟨[fixtureCase "a"], by simp⟩
      promotions := .empty }
  calls := []
  promoted := []

theorem draftDataset_quiescent : Quiescent plainHashes draftDataset where
  calls := rfl
  promoted := rfl
  frozen version hv hf := by
    rcases List.mem_singleton.mp hv with rfl
    cases hf

def frozenVersion : EvaluationDatasetVersion :=
  draftVersion.freeze plainHashes [fixtureCase "a"] 1

/-- The dataset of one case is frozen. -/
theorem frozen_datasets_exact_fixture : ∃ s,
    (machine plainHashes).Run (Spares plainHashes) draftDataset
      [.freeze "v1", .advance 0 1, .advance 0 1, .advance 0 1] s ∧
    FrozenSound plainHashes s frozenVersion ∧
    ∀ labels' t, (machine plainHashes).Run (Spares plainHashes) s labels' t →
      frozenVersion ∈ t.store.versions.rows ∧ FrozenSound plainHashes t frozenVersion := by
  have hrun : ∃ s, (machine plainHashes).Run (Spares plainHashes) draftDataset
      [.freeze "v1", .advance 0 1, .advance 0 1, .advance 0 1] s ∧
      frozenVersion ∈ s.store.versions.rows := by
    refine ⟨_, .cons trivial rfl (.cons ?_ rfl (.cons ?_ rfl (.cons ?_ rfl (.nil _)))), ?_⟩
    · intro call hcall
      cases hcall
      trivial
    · intro call hcall
      cases hcall
      trivial
    · intro call hcall
      cases hcall
      refine fun _ => ⟨by decide, fun p case hp => ?_⟩
      cases List.mem_singleton.mp hp
    · decide
  obtain ⟨s, hrun, hversion⟩ := hrun
  exact ⟨s, hrun, frozen_datasets_exact draftDataset_quiescent hrun hversion rfl⟩

/-- A case whose version was read as a draft is stored after the version is frozen. -/
theorem case_stored_after_freeze : ∃ s,
    (machine plainHashes).Run Machine.Free draftDataset
      [.saveCase (fixtureCase "b"), .advance 0 1, .freeze "v1", .advance 0 1, .advance 0 1,
        .advance 0 1, .advance 0 1] s ∧
    s.store.versions.rows = [frozenVersion] ∧ frozenVersion.status = .frozen ∧
    frozenVersion.caseCount = 1 ∧ (s.store.listCases "v1").length = 2 := by
  refine ⟨_, .cons trivial rfl (.cons trivial rfl (.cons trivial rfl (.cons trivial rfl
    (.cons trivial rfl (.cons trivial rfl (.cons trivial rfl (.nil _))))))), ?_, rfl, rfl, ?_⟩
  all_goals decide

end Example

end CatalogSystem

end CodeResearch.Evaluation
