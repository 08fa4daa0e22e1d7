import CodeResearch.Retrieval.VectorSync
import Mathlib.Data.List.TakeWhile

/-!
# Truthful vector generations

A synchronization that fits its scope leaves the points of the other generations alone and
makes exactly its own points ready, and a deletion takes a generation with its points.
-/
namespace CodeResearch.Retrieval

namespace VectorSyncCall

variable {ids : VectorIds} {call : VectorSyncCall} {points : List VectorPoint}

theorem length_sparseVectors {sparseVectors : List (Option SparseVectorData)}
    (h : call.sparseVectors = .ok sparseVectors) : sparseVectors.length = call.documents.length := by
  unfold VectorSyncCall.sparseVectors at h
  split at h
  · cases h
    rw [List.length_map]
  · obtain ⟨values, _, h⟩ := except_bind_eq_ok_iff.mp h
    obtain ⟨_, hvalues, h⟩ := except_bind_eq_ok_iff.mp h
    cases h
    rw [List.length_map]
    exact ensure_eq_ok_iff.mp hvalues

theorem exists_zip_of_points (h : call.points ids = .ok points) :
    ∃ embedded : List (List ℚ × Option SparseVectorData),
      embedded.length = call.documents.length ∧
        points = (call.documents.zip embedded).map fun (d, vector, sparseVector) =>
          call.point ids d vector sparseVector := by
  unfold VectorSyncCall.points at h
  obtain ⟨vectors, _, h⟩ := except_bind_eq_ok_iff.mp h
  obtain ⟨_, hvectors, h⟩ := except_bind_eq_ok_iff.mp h
  obtain ⟨sparseVectors, hsparse, h⟩ := except_bind_eq_ok_iff.mp h
  have hlength := ensure_eq_ok_iff.mp hvectors
  refine ⟨vectors.zip sparseVectors, ?_, (except_pure_eq_ok_iff.mp h).symm⟩
  rw [List.length_zip, hlength, length_sparseVectors hsparse, min_self]

theorem pointIds_points (h : call.points ids = .ok points) :
    points.map VectorPoint.pointId =
      call.documents.map fun d => ids.pointId call.scope d.chunkId := by
  obtain ⟨embedded, hlength, rfl⟩ := exists_zip_of_points h
  rw [List.map_map]
  have hfst : (call.documents.zip embedded).map Prod.fst = call.documents :=
    List.map_fst_zip hlength.ge
  conv_rhs => rw [← hfst, List.map_map]
  rfl

theorem nodup_points (h : call.points ids = .ok points) :
    (points.map VectorPoint.pointId).Nodup := by
  have hmap : points.map VectorPoint.pointId =
      (call.documents.map RetrievalDocument.chunkId).map (ids.pointId call.scope) := by
    rw [pointIds_points h, List.map_map]
    rfl
  rw [hmap]
  exact call.nodup_documents.map (ids.pointId_injective _)

theorem length_points (h : call.points ids = .ok points) :
    points.length = call.documents.length := by
  simpa using congrArg List.length (pointIds_points h)

theorem scope_points (h : call.points ids = .ok points)
    (hdocuments : ∀ d ∈ call.documents,
      d.repoId = call.repoId ∧ d.indexVersionId = call.indexVersionId) :
    ∀ p ∈ points, p.scope = call.scope := by
  obtain ⟨embedded, _, rfl⟩ := exists_zip_of_points h
  intro p hp
  obtain ⟨⟨d, vector, sparseVector⟩, hmem, rfl⟩ := List.mem_map.mp hp
  obtain ⟨hrepo, hversion⟩ := hdocuments d (List.of_mem_zip hmem).1
  simp [VectorPoint.scope, point, vectorPayload, scope, hrepo, hversion]

end VectorSyncCall

structure VectorManifest.NamesCollection (m : VectorManifest) : Prop where
  length_profileHash : m.scope.profileHash.length = 64
  named : ∃ length ∈ [12, 16, 24, 32, 64],
    m.collectionName = Retrieval.collectionName m.scope.profileHash length

namespace VectorSystem

variable {ids : VectorIds} {s t : VectorSystem} {call : VectorSyncCall} {name : String}

/-- Nothing changed but empty collections. -/
structure SamePoints (s t : VectorSystem) : Prop where
  manifests : t.manifests = s.manifests
  points : ∀ name, t.pointsOf name = s.pointsOf name

theorem SamePoints.refl (s : VectorSystem) : SamePoints s s := ⟨rfl, fun _ => rfl⟩

theorem pointsOf_put_self (s : VectorSystem) (c : MemoryCollection) :
    pointsOf { s with collections := s.collections.put c } c.name = c.points.rows := by
  unfold pointsOf
  dsimp only
  rw [Table.find?_put_self]
  rfl

theorem pointsOf_put_of_ne (s : VectorSystem) (c : MemoryCollection) {other : String}
    (h : other ≠ c.name) :
    pointsOf { s with collections := s.collections.put c } other = s.pointsOf other := by
  unfold pointsOf
  dsimp only
  rw [Table.find?_put_of_ne _ h]

variable {c : MemoryCollection} {points : List VectorPoint} {place : String × GenerationScope}
  {m : VectorManifest} {order : List VectorManifest}

theorem pointsOf_of_find? (h : s.collections.find? name = some c) :
    s.pointsOf name = c.points.rows := by
  unfold pointsOf
  rw [h]
  rfl

variable {profile : VectorProfile}

theorem ensureCollection_spec (h : s.ensureCollection name profile = some t) : SamePoints s t ∧
      ∃ c, t.collections.find? name = some c ∧ c.dimension = profile.dimension := by
  unfold ensureCollection at h
  split at h
  · rename_i hnone
    cases h
    refine ⟨⟨rfl, fun other => ?_⟩, _, Table.find?_put_self _ _, rfl⟩
    by_cases hname : other = name
    · subst hname
      have hempty : s.pointsOf other = [] := by
        unfold pointsOf
        rw [hnone]
        rfl
      exact (pointsOf_put_self s _).trans hempty.symm
    · exact pointsOf_put_of_ne s _ hname
  · rename_i c hsome
    split_ifs at h with hprofile
    cases h
    exact ⟨.refl s, c, hsome, hprofile.2⟩

theorem prepare_same : SamePoints s (s.prepare call).1 := by
  unfold prepare
  split
  · exact .refl s
  · split
    · exact .refl s
    · rename_i t hensured
      have hsame : SamePoints s t := by
        split_ifs at hensured
        exact (ensureCollection_spec hensured).1
      split_ifs <;> exact hsame

theorem prepare_spec (h : s.prepare call = (t, some name)) : SamePoints s t ∧
    (∃ c, t.collections.find? name = some c ∧ c.dimension = call.profile.dimension) ∧
      resolveCollectionName call.profile.profileHash s.knownCollectionProfiles = some name := by
  unfold prepare at h
  split at h
  · cases h
  · rename_i resolved hresolved
    split at h
    · cases h
    · rename_i u hensured
      split_ifs at hensured
      obtain ⟨hsame, hcollection⟩ := ensureCollection_spec hensured
      split_ifs at h
      · cases h
        exact ⟨hsame, hcollection, hresolved⟩
      · cases h

theorem manifests_upsert {fault : Option (ℕ × String)} :
    (s.upsert name points fault).1.manifests = s.manifests := by
  unfold upsert
  split <;> rfl

theorem sublist_writtenPoints (dimension : ℕ) (points : List VectorPoint)
    (fault : Option (ℕ × String)) : (writtenPoints dimension points fault).Sublist points := by
  refine (List.takeWhile_sublist _).trans ?_
  cases fault with
  | none => exact .refl _
  | some fault => exact List.take_sublist _ _

/-- What an upsert writes into its collection. -/
theorem pointsOf_upsert (s : VectorSystem) (name : String)
    (fault : Option (ℕ × String)) (hnodup : (points.map VectorPoint.pointId).Nodup) : ∃ written,
      (∀ p ∈ written, p ∈ points) ∧
      (((s.upsert name points fault).1.pointsOf name).Perm
        (written ++ (s.pointsOf name).filter fun p => p.pointId ∉ written.map VectorPoint.pointId)) ∧
      (∀ other, other ≠ name → (s.upsert name points fault).1.pointsOf other = s.pointsOf other) ∧
      ((s.upsert name points fault).2 = .ok () → written = points ∧ fault = none) := by
  unfold upsert
  cases hcollection : s.collections.find? name with
  | none => exact ⟨[], by simp, by simp, fun _ _ => rfl, fun h => (nomatch h)⟩
  | some c =>
    obtain rfl : c.name = name := Table.find?_key hcollection
    have hsublist := sublist_writtenPoints c.dimension points fault
    refine ⟨writtenPoints c.dimension points fault, fun p hp => hsublist.subset hp, ?_, ?_, ?_⟩
    · rw [pointsOf_of_find? hcollection]
      dsimp only
      refine (List.Perm.of_eq (pointsOf_put_self s { c with points := _ })).trans ?_
      exact Table.perm_putAll _ (hnodup.sublist (hsublist.map _))
    · intro other hother
      exact pointsOf_put_of_ne s { c with points := _ } hother
    · dsimp only
      intro hok
      split_ifs at hok with hshort
      cases fault with
      | some fault => cases hok
      | none => exact ⟨hsublist.eq_of_length_le (not_lt.mp hshort), rfl⟩

theorem upsert_ok (hcollection : s.collections.find? name = some c)
    (hdimension : ∀ p ∈ points, p.vector.length = c.dimension) :
    (s.upsert name points none).2 = .ok () := by
  have hwritten : writtenPoints c.dimension points none = points :=
    List.takeWhile_eq_self_iff.mpr fun p hp => decide_eq_true (hdimension p hp)
  unfold upsert
  rw [hcollection]
  dsimp only
  rw [hwritten, if_neg (by simp [reachedPoints])]

section Scopes

variable {old written points : List VectorPoint} {scope scope' : GenerationScope}

/-- Points of one scope leave the points of another one alone. -/
theorem filter_written_other (hwritten : ∀ p ∈ written, p.scope = scope)
    (hown : ∀ p ∈ old, p.pointId ∈ written.map VectorPoint.pointId → p.scope = scope)
    (hne : scope' ≠ scope) :
    (written ++ old.filter fun p => p.pointId ∉ written.map VectorPoint.pointId).filter
      (fun p => p.scope = scope') = old.filter fun p => p.scope = scope' := by
  have hnone : written.filter (fun p => p.scope = scope') = [] := by
    rw [List.filter_eq_nil_iff]
    intro p hp hscope
    exact hne ((of_decide_eq_true hscope).symm.trans (hwritten p hp))
  rw [List.filter_append, hnone, List.nil_append, List.filter_filter]
  apply List.filter_congr
  intro p hp
  rw [Bool.eq_iff_iff]
  simp only [Bool.and_eq_true, decide_eq_true_eq]
  constructor
  · exact And.left
  · intro hscope
    exact ⟨hscope, fun hmem => hne (hscope.symm.trans (hown p hp hmem))⟩

/-- Points that are all that is left in their scope. -/
theorem filter_written_own (hpoints : ∀ p ∈ points, p.scope = scope)
    (hleft : ∀ p ∈ old, p.scope = scope → p.pointId ∈ points.map VectorPoint.pointId) :
    (points ++ old.filter fun p => p.pointId ∉ points.map VectorPoint.pointId).filter
      (fun p => p.scope = scope) = points := by
  have hall : points.filter (fun p => p.scope = scope) = points :=
    List.filter_eq_self.mpr fun p hp => decide_eq_true (hpoints p hp)
  have hnone : (old.filter fun p => p.pointId ∉ points.map VectorPoint.pointId).filter
      (fun p => p.scope = scope) = [] := by
    rw [List.filter_eq_nil_iff]
    intro p hp hscope
    obtain ⟨hold, hfresh⟩ := List.mem_filter.mp hp
    exact of_decide_eq_true hfresh (hleft p hold (of_decide_eq_true hscope))
  rw [List.filter_append, hall, hnone, List.append_nil]

end Scopes

def pointsAt (s : VectorSystem) (place : String × GenerationScope) : List VectorPoint :=
  (s.pointsOf place.1).filter fun p => p.scope = place.2

theorem SamePoints.pointsAt (h : SamePoints s t) (place : String × GenerationScope) :
    t.pointsAt place = s.pointsAt place := by
  unfold VectorSystem.pointsAt
  rw [h.points]

theorem manifests_fill : (s.fill ids call name).1.manifests = s.manifests := by
  unfold fill
  split
  · rfl
  · exact manifests_upsert

/-- What fits a scope leaves the points of the other places alone. -/
theorem pointsAt_fill_other (hfits : ∀ points, call.points ids = .ok points →
      s.Fits call name points)
    (hplace : ∀ points, call.points ids = .ok points → place ≠ (name, call.scope)) :
    ((s.fill ids call name).1.pointsAt place).Perm (s.pointsAt place) := by
  unfold fill
  split
  · exact .refl _
  · rename_i points hpoints
    have hfit := hfits points hpoints
    have hne := hplace points hpoints
    obtain ⟨written, hsub, hperm, hothers, _⟩ := pointsOf_upsert s name call.upsertFault
      (VectorSyncCall.nodup_points hpoints)
    dsimp only [VectorSystem.pointsAt]
    by_cases hname : place.1 = name
    · have hscope : place.2 ≠ call.scope := fun hscope => hne (Prod.ext hname hscope)
      have hscopes := VectorSyncCall.scope_points hpoints hfit.documents
      rw [hname]
      refine (hperm.filter _).trans (.of_eq (filter_written_other
        (fun p hp => hscopes p (hsub p hp)) (fun p hp hmem => hfit.own p hp ?_) hscope))
      obtain ⟨q, hq, hqp⟩ := List.mem_map.mp hmem
      exact hqp ▸ List.mem_map_of_mem (hsub q hq)
    · rw [hothers place.1 hname]

/-- A `try` block that ends without an exception leaves the points of its documents. -/
theorem pointsAt_fill_own (hfits : ∀ points, call.points ids = .ok points →
      s.Fits call name points) {n : ℕ} (h : (s.fill ids call name).2 = .ok n) :
    ∃ points, call.points ids = .ok points ∧
      ((s.fill ids call name).1.pointsAt (name, call.scope)).Perm points := by
  unfold fill at h ⊢
  split at h
  · cases h
  · rename_i points hpoints
    refine ⟨points, hpoints, ?_⟩
    obtain ⟨_, hupserted, h⟩ := except_bind_eq_ok_iff.mp h
    obtain ⟨_, hcounted, _⟩ := except_bind_eq_ok_iff.mp h
    have hfit := hfits points hpoints
    obtain ⟨written, _, hperm, _, hok⟩ := pointsOf_upsert s name call.upsertFault
      (VectorSyncCall.nodup_points hpoints)
    obtain ⟨rfl, hfault⟩ := hok hupserted
    exact (hperm.filter _).trans (.of_eq (filter_written_own
      (VectorSyncCall.scope_points hpoints hfit.documents) (hfit.leftovers hfault hcounted)))

/-- The state in which the `try` block begins. -/
def begun (t : VectorSystem) (ids : VectorIds) (call : VectorSyncCall) (name : String) :
    VectorSystem :=
  { t with manifests := t.manifests.put (call.manifest ids .building name) }

theorem Fits.begun (h : s.Fits call name points) (hst : SamePoints s t) :
    (begun t ids call name).Fits call name points := by
  have hpoints : (VectorSystem.begun t ids call name).pointsOf name = s.pointsOf name := hst.points name
  refine ⟨h.documents, hpoints ▸ h.own, fun m hm hready => ?_, hpoints ▸ h.leftovers⟩
  rcases (Table.mem_put _ _ _).mp hm with rfl | ⟨hm, _⟩
  · cases hready
  · exact h.others m (hst.manifests ▸ hm) hready

/-- What a sync leaves: its own manifest, and the manifests and the points of the others. -/
theorem truthful_of_filled (h : s.Truthful) (hst : SamePoints s t)
    (hfits : ∀ points, call.points ids = .ok points → s.Fits call name points)
    (own : VectorManifest) (hkey : own.key = (call.manifest ids .building name).key)
    (hown : own.status = .ready →
      (((begun t ids call name).fill ids call name).1.pointsAt own.place).Perm own.points) :
    VectorSystem.Truthful { ((begun t ids call name).fill ids call name).1 with
      manifests := ((begun t ids call name).fill ids call name).1.manifests.put own } := by
  intro m hm hready
  rcases (Table.mem_put _ _ _).mp hm with rfl | ⟨hm, hne⟩
  · exact hown hready
  · rw [manifests_fill] at hm
    rcases (Table.mem_put _ _ _).mp hm with rfl | ⟨hm, _⟩
    · exact absurd hkey.symm hne
    · have hmem : m ∈ s.manifests.rows := hst.manifests ▸ hm
      have hfill := pointsAt_fill_other (s := begun t ids call name)
        (fun points hpoints => (hfits points hpoints).begun hst)
        fun points hpoints => (hfits points hpoints).others m hmem hready
      exact hfill.trans ((List.Perm.of_eq (hst.pointsAt m.place)).trans (h m hmem hready))

theorem truthful_sync (h : s.Truthful) (hspares : s.Spares ids (.sync call)) :
    (s.sync ids call).2.Truthful := by
  unfold sync
  split
  · exact h
  · rename_i hexisting
    split
    · rename_i t hprepare
      have hst : SamePoints s t := by
        have hsame : SamePoints s (s.prepare call).1 := prepare_same
        rwa [hprepare] at hsame
      intro m hm hready
      exact (List.Perm.of_eq (hst.pointsAt m.place)).trans (h m (hst.manifests ▸ hm) hready)
    · rename_i t name hprepare
      obtain ⟨hst, _, _⟩ := prepare_spec hprepare
      have hfits := hspares hexisting name
      rw [hprepare] at hfits
      have hfits' := fun points => hfits points rfl
      have hbegun : ∀ points, call.points ids = .ok points →
          (begun t ids call name).Fits call name points :=
        fun points hpoints => (hfits' points hpoints).begun hst
      dsimp only
      split
      · rename_i v n hfill
        have hresult : (begun t ids call name).fill ids call name = (v, .ok n) := hfill
        obtain ⟨points, hpoints, hperm⟩ := pointsAt_fill_own hbegun (congrArg Prod.snd hresult)
        have htruthful := truthful_of_filled h hst hfits'
          { call.manifest ids .ready name with pointCount := n, points } rfl fun _ => hperm
        rw [hresult] at htruthful
        rw [hpoints]
        exact htruthful
      · rename_i v code hfill
        have hresult : (begun t ids call name).fill ids call name = (v, .error code) := hfill
        have htruthful := truthful_of_filled h hst hfits'
          { call.manifest ids .failed name with errorCode := some code } rfl
          fun hready => nomatch hready
        rw [hresult] at htruthful
        exact htruthful

theorem manifests_deletePoints (s : VectorSystem) (name : String) (p : VectorPoint → Bool) :
    (s.deletePoints name p).manifests = s.manifests := by
  unfold deletePoints
  split <;> rfl

theorem pointsAt_deletePoints {p : VectorPoint → Bool}
    (h : place.1 = name → ∀ q, q.scope = place.2 → p q = false) :
    (s.deletePoints name p).pointsAt place = s.pointsAt place := by
  unfold deletePoints
  split
  · rfl
  · rename_i c hcollection
    obtain rfl : c.name = name := Table.find?_key hcollection
    unfold VectorSystem.pointsAt
    by_cases hname : place.1 = c.name
    · have hself := pointsOf_put_self s { c with points := c.points.deleteWhere p }
      dsimp only at hself
      rw [hname, hself, pointsOf_of_find? hcollection, Table.rows_deleteWhere, List.filter_filter]
      apply List.filter_congr
      intro q _
      by_cases hscope : q.scope = place.2
      · simp [hscope, h hname q hscope]
      · simp [hscope]
    · have hother := pointsOf_put_of_ne s { c with points := c.points.deleteWhere p } hname
      rw [hother]

theorem pointsAt_deletePlace (h : m.place ≠ place) :
    ((s.deletePoints m.collectionName fun p => p.scope = m.scope).unlink m).pointsAt place =
      s.pointsAt place := by
  refine pointsAt_deletePoints fun hname q hscope => decide_eq_false fun hsame => h ?_
  exact Prod.ext hname.symm (hsame.symm.trans hscope)

def processed (order : List VectorManifest) : Option (ℕ × List String) → List VectorManifest
  | none => order
  | some (k, _) => order.take k

variable {fault : Option (ℕ × List String)}

theorem mem_manifests_deleteAll (h : m ∈ (s.deleteAll order fault).manifests.rows) :
    m ∈ s.manifests.rows ∧ ∀ m' ∈ processed order fault, m.key ≠ m'.key := by
  fun_induction VectorSystem.deleteAll s order fault with
  | case1 s fault => cases fault <;> exact ⟨h, by simp [processed]⟩
  | case2 s first rest removed =>
    rw [manifests_deletePoints] at h
    exact ⟨h, by simp [processed]⟩
  | case3 s first rest k removed ih =>
    obtain ⟨hmem, hkeys⟩ := ih h
    simp only [unlink, manifests_deletePoints, Table.rows_deleteWhere] at hmem
    obtain ⟨hmem, hne⟩ := List.mem_filter.mp hmem
    exact ⟨hmem, List.forall_mem_cons.mpr ⟨by simpa using hne, hkeys⟩⟩
  | case4 s first rest ih =>
    obtain ⟨hmem, hkeys⟩ := ih h
    simp only [unlink, manifests_deletePoints, Table.rows_deleteWhere] at hmem
    obtain ⟨hmem, hne⟩ := List.mem_filter.mp hmem
    exact ⟨hmem, List.forall_mem_cons.mpr ⟨by simpa using hne, hkeys⟩⟩

/-- A deletion leaves the points of every place that it does not get to. -/
theorem pointsAt_deleteAll (hprocessed : ∀ m ∈ processed order fault, m.place ≠ place)
    (hraised : ∀ k removed, fault = some (k, removed) →
      ∀ m ∈ order[k]?, m.place = place → removed = []) :
    (s.deleteAll order fault).pointsAt place = s.pointsAt place := by
  fun_induction VectorSystem.deleteAll s order fault with
  | case1 s fault => rfl
  | case2 s first rest removed =>
    refine pointsAt_deletePoints fun hname q hscope => decide_eq_false ?_
    rintro ⟨hsame, hremoved⟩
    have hplace : first.place = place := Prod.ext hname.symm (hsame.symm.trans hscope)
    rw [hraised 0 removed rfl first rfl hplace] at hremoved
    cases hremoved
  | case3 s first rest k removed ih =>
    obtain ⟨hfirst, hrest⟩ := List.forall_mem_cons.mp hprocessed
    refine (ih hrest fun k' removed' hfault m hm hplace => ?_).trans (pointsAt_deletePlace hfirst)
    cases hfault
    exact hraised (k + 1) removed rfl m hm hplace
  | case4 s first rest ih =>
    obtain ⟨hfirst, hrest⟩ := List.forall_mem_cons.mp hprocessed
    exact (ih hrest fun k removed hfault => nomatch hfault).trans (pointsAt_deletePlace hfirst)

theorem truthful_deleteVersion (h : s.Truthful) {repoId indexVersionId : String}
    (hspares : s.Spares ids (.deleteVersion repoId indexVersionId order fault))
    (horder : order.Perm (s.manifestsOf repoId indexVersionId)) :
    (s.deleteAll order fault).Truthful := by
  intro m hm hready
  obtain ⟨hmem, hkeys⟩ := mem_manifests_deleteAll hm
  have hversion : ∀ m' ∈ order, m'.scope.repoId = repoId ∧ m'.scope.indexVersionId = indexVersionId := by
    intro m' hm'
    exact of_decide_eq_true (List.mem_filter.mp (horder.mem_iff.mp hm')).2
  have hsame : (s.deleteAll order fault).pointsAt m.place = s.pointsAt m.place := by
    by_cases hown : m ∈ order
    · cases fault with
      | none => exact absurd rfl (hkeys m hown)
      | some fault =>
        obtain ⟨k, removed⟩ := fault
        have hdrop : m ∈ order.drop k := by
          rw [← List.take_append_drop k order] at hown
          exact (List.mem_append.mp hown).resolve_left fun htake => hkeys m htake rfl
        obtain ⟨hprocessed, hraised⟩ := hspares k removed rfl m hdrop hready
        refine pointsAt_deleteAll hprocessed fun k' removed' hfault => ?_
        cases hfault
        exact hraised
    · have hother : ∀ m' ∈ order, m'.place ≠ m.place := by
        intro m' hm' hplace
        have hscope : m'.scope = m.scope := congrArg Prod.snd hplace
        apply hown
        rw [horder.mem_iff, manifestsOf, List.mem_filter, ← hscope]
        exact ⟨hmem, decide_eq_true (hversion m' hm')⟩
      refine pointsAt_deleteAll (fun m' hm' => hother m' ?_) fun k removed _ m' hm' hplace =>
        absurd hplace (hother m' (List.mem_of_getElem? hm'))
      cases fault with
      | none => exact hm'
      | some fault => exact List.mem_of_mem_take hm'
  exact (List.Perm.of_eq hsame).trans (h m hmem hready)

def Named (s : VectorSystem) : Prop := ∀ m ∈ s.manifests.rows, m.NamesCollection

theorem resolved_name {profileHash : String} {existing : String → Option String}
    (h : resolveCollectionName profileHash existing = some name) :
    ∃ length ∈ [12, 16, 24, 32, 64], name = collectionName profileHash length := by
  obtain ⟨length, hlength, rfl⟩ := List.mem_map.mp (List.mem_of_find?_eq_some h)
  exact ⟨length, hlength, rfl⟩

theorem collectionName_injective {a b : String} {length : ℕ} (ha : a.length = 64)
    (hb : b.length = 64) (h : collectionName a 64 = collectionName b length) : a = b := by
  unfold collectionName at h
  rw [String.append_right_inj] at h
  have hlists : a.toList.take 64 = b.toList.take length := by
    simpa using congrArg String.toList h
  have hlengths := congrArg List.length hlists
  rw [List.length_take, List.length_take, String.length_toList, String.length_toList, ha, hb] at hlengths
  rw [List.take_of_length_le (by rw [String.length_toList, ha]),
    List.take_of_length_le (by rw [String.length_toList, hb]; omega)] at hlists
  exact String.toList_inj.mp hlists

/-- The name with the whole hash is free, or it is that of the profile. -/
theorem resolveCollectionName_ne_none (h : s.Named) :
    resolveCollectionName profile.profileHash s.knownCollectionProfiles ≠ none := by
  intro hnone
  have htaken := List.find?_eq_none.mp hnone (collectionName profile.profileHash 64) (by simp)
  unfold knownCollectionProfiles at htaken
  cases hmanifest : dictBy VectorManifest.collectionName s.manifests.rows
      (collectionName profile.profileHash 64) with
  | none => simp [hmanifest] at htaken
  | some m =>
    obtain ⟨hmem, hname⟩ := mem_of_dictBy hmanifest
    obtain ⟨hlength, length, _, hown⟩ := h m hmem
    have hsame : profile.profileHash = m.scope.profileHash :=
      collectionName_injective profile.length_profileHash hlength (hname.symm.trans hown)
    rw [hmanifest] at htaken
    simp [hsame] at htaken

theorem named_put (h : s.Named) (hm : m.NamesCollection) :
    Named { s with manifests := s.manifests.put m } := by
  intro m' hm'
  rcases (Table.mem_put _ _ _).mp hm' with rfl | ⟨hm', _⟩
  · exact hm
  · exact h m' hm'

theorem named_sync (h : s.Named) : (s.sync ids call).2.Named := by
  unfold sync
  split
  · exact h
  · split
    · rename_i t hprepare
      have hst : SamePoints s (s.prepare call).1 := prepare_same
      rw [hprepare] at hst
      exact fun m hm => h m (hst.manifests ▸ hm)
    · rename_i t name hprepare
      obtain ⟨hst, _, hresolved⟩ := prepare_spec hprepare
      have hnames : ∀ status, (call.manifest ids status name).NamesCollection := fun status =>
        ⟨call.profile.length_profileHash, resolved_name hresolved⟩
      have hbegun : (begun t ids call name).Named :=
        named_put (fun m hm => h m (hst.manifests ▸ hm)) (hnames .building)
      have hfilled : ((begun t ids call name).fill ids call name).1.Named := fun m hm =>
        hbegun m (by rwa [manifests_fill] at hm)
      dsimp only
      split
      · rename_i v n hfill
        have hv : (begun t ids call name).fill ids call name = (v, .ok n) := hfill
        rw [hv] at hfilled
        exact named_put hfilled ⟨(hnames .ready).1, (hnames .ready).2⟩
      · rename_i v code hfill
        have hv : (begun t ids call name).fill ids call name = (v, .error code) := hfill
        rw [hv] at hfilled
        exact named_put hfilled ⟨(hnames .failed).1, (hnames .failed).2⟩

theorem named_deleteAll (h : s.Named) (order : List VectorManifest)
    (fault : Option (ℕ × List String)) : (s.deleteAll order fault).Named :=
  fun m hm => h m (mem_manifests_deleteAll hm).1

theorem fill_ok (hfits : ∀ points, call.points ids = .ok points → s.Fits call name points)
    (hcollection : s.collections.find? name = some c)
    (hdimension : c.dimension = call.profile.dimension) (hsucceeds : t.Succeeds ids call) :
    ∃ n, (s.fill ids call name).2 = .ok n := by
  obtain ⟨points, hpoints, hvectors⟩ := hsucceeds.embedded
  have hupsert : (s.upsert name points none).2 = .ok () :=
    upsert_ok hcollection (hdimension ▸ hvectors)
  obtain ⟨written, _, hperm, _, hok⟩ := pointsOf_upsert s name none
    (VectorSyncCall.nodup_points hpoints)
  obtain ⟨rfl, _⟩ := hok hupsert
  have hfit := hfits written hpoints
  have hcount : (s.upsert name written none).1.count name call.scope = call.documents.length := by
    have hown := (hperm.filter fun p => p.scope = call.scope).length_eq
    rw [filter_written_own (VectorSyncCall.scope_points hpoints hfit.documents)
      (hfit.leftovers hsucceeds.upserted hsucceeds.counted)] at hown
    exact hown.trans (VectorSyncCall.length_points hpoints)
  refine ⟨call.documents.length, ?_⟩
  unfold fill
  rw [hpoints, hsucceeds.upserted, hsucceeds.counted]
  dsimp only
  rw [hupsert, hcount, ensure_pos rfl]
  rfl

theorem sync_ready (h : s.Named) (hspares : s.Spares ids (.sync call))
    (hsucceeds : s.Succeeds ids call) :
    ∃ m, (s.sync ids call).1 = some m ∧ m.status = .ready ∧
      m ∈ (s.sync ids call).2.manifests.rows := by
  unfold sync
  split
  · rename_i m hexisting
    obtain ⟨hmem, hready⟩ := Option.filter_eq_some_iff.mp hexisting
    exact ⟨m, rfl, of_decide_eq_true hready, Table.find?_mem hmem⟩
  · rename_i hexisting
    split
    · rename_i t hprepare
      exact absurd (congrArg Prod.snd hprepare)
        (hsucceeds.prepared (resolveCollectionName_ne_none h))
    · rename_i t name hprepare
      obtain ⟨hst, ⟨c, hcollection, hdimension⟩, _⟩ := prepare_spec hprepare
      have hfits := hspares hexisting name
      rw [hprepare] at hfits
      have hbegun : ∀ points, call.points ids = .ok points →
          (begun t ids call name).Fits call name points :=
        fun points hpoints => (hfits points rfl hpoints).begun hst
      obtain ⟨n, hok⟩ := fill_ok hbegun hcollection hdimension hsucceeds
      dsimp only
      split
      · exact ⟨_, rfl, rfl, (Table.mem_put _ _ _).mpr (.inl rfl)⟩
      · rename_i v code hfill
        have hv : (begun t ids call name).fill ids call name = (v, .error code) := hfill
        rw [hv] at hok
        cases hok

end VectorSystem

/-- Ready manifests are truthful, and a sync in which nothing fails ends ready, in every run
whose syncs fit their scopes and whose failing deletions leave the ready points. -/
theorem vector_generations_truthful (ids : VectorIds) {labels : List VectorLabel}
    {s : VectorSystem} (h : (VectorSystem.machine ids).Run (VectorSystem.Spares ids) {} labels s) :
    s.Truthful ∧ ∀ call, s.Spares ids (.sync call) → s.Succeeds ids call →
      ∃ m, (s.sync ids call).1 = some m ∧ m.status = .ready ∧
        m ∈ (s.sync ids call).2.manifests.rows := by
  have hinv : s.Truthful ∧ s.Named := by
    refine h.invariant (fun s => s.Truthful ∧ s.Named) ?_ ?_
    · rintro s label t ⟨htruthful, hnamed⟩ hspares hstep
      cases label with
      | sync call =>
        cases hstep
        exact ⟨VectorSystem.truthful_sync htruthful hspares, VectorSystem.named_sync hnamed⟩
      | deleteVersion repoId indexVersionId order fault =>
        dsimp only [VectorSystem.machine, VectorSystem.step] at hstep
        split_ifs at hstep with horder
        cases hstep
        exact ⟨VectorSystem.truthful_deleteVersion htruthful hspares horder,
          VectorSystem.named_deleteAll hnamed order fault⟩
    · exact ⟨fun m hm => by simp at hm, fun m hm => by simp at hm⟩
  exact ⟨hinv.1, fun call hspares hsucceeds => VectorSystem.sync_ready hinv.2 hspares hsucceeds⟩

def plainVectorIds : VectorIds where
  pointId := fun _ chunkId => chunkId
  generationId := fun _ chunks => String.intercalate "," (chunks.map Prod.fst)
  pointId_injective := fun _ _ _ h => h

def plainProfile : VectorProfile where
  profileHash := String.ofList (List.replicate 64 'a')
  dimension := 1
  length_profileHash := by decide +kernel

def plainDocument (chunkId : String) : RetrievalDocument where
  chunkId := chunkId
  entityId := "entity"
  repoId := "repo"
  indexVersionId := "version"
  entityKind := .code
  entityType := "function"
  chunkType := "symbol"
  text := ""
  contentHash := "hash"

def syncOne : VectorSyncCall where
  profile := plainProfile
  repoId := "repo"
  indexVersionId := "version"
  documents := [plainDocument "a"]
  nodup_documents := by simp
  embedded := .ok [[1]]

def syncTwo : VectorSyncCall where
  profile := plainProfile
  repoId := "repo"
  indexVersionId := "version"
  documents := [plainDocument "a", plainDocument "b"]
  nodup_documents := by simp [plainDocument]
  embedded := .ok [[1], [1]]

def VectorSystem.summary (s : VectorSystem) : List (SyncStatus × ℕ × ℕ) :=
  s.manifests.rows.map fun m => (m.status, (s.pointsAt m.place).length, m.points.length)

theorem syncOne_summary :
    ((VectorSystem.machine plainVectorIds).exec Machine.Free {} [.sync syncOne]).map
      VectorSystem.summary = some [(.ready, 1, 1)] := by
  decide +kernel

theorem syncTwo_summary :
    ((VectorSystem.machine plainVectorIds).exec Machine.Free {} [.sync syncOne, .sync syncTwo]).map
      VectorSystem.summary = some [(.ready, 2, 1), (.ready, 2, 2)] := by
  decide +kernel

theorem syncOne_truthful : ∃ s,
    (VectorSystem.machine plainVectorIds).Run (VectorSystem.Spares plainVectorIds) {}
      [.sync syncOne] s ∧ s.summary = [(.ready, 1, 1)] ∧ s.Truthful := by
  obtain ⟨s, hs, hsummary⟩ := Option.map_eq_some_iff.mp syncOne_summary
  have hspares : VectorSystem.Spares plainVectorIds {} (.sync syncOne) := by
    intro _ name points _ _
    exact ⟨by simp [syncOne, plainDocument], by simp [VectorSystem.pointsOf], by simp,
      by simp [VectorSystem.pointsOf]⟩
  have hrun := Machine.run_of_exec hs
  have hspared : (VectorSystem.machine plainVectorIds).Run (VectorSystem.Spares plainVectorIds) {}
      [.sync syncOne] s := by
    cases hrun with
    | cons _ hstep hrest =>
      cases hrest
      exact .cons hspares hstep (.nil _)
  exact ⟨s, hspared, hsummary, (vector_generations_truthful plainVectorIds hspared).1⟩

/-- A sync adds points to a generation that is ready. -/
theorem ready_generation_outgrown :
    ¬ ∀ (ids : VectorIds) (labels : List VectorLabel) (s : VectorSystem),
      (VectorSystem.machine ids).Run Machine.Free {} labels s → s.Truthful := by
  intro hall
  obtain ⟨s, hs, hsummary⟩ := Option.map_eq_some_iff.mp syncTwo_summary
  have htruthful := hall _ _ s (Machine.run_of_exec hs)
  have hmem : (SyncStatus.ready, 2, 1) ∈ s.summary := by rw [hsummary]; exact List.mem_cons_self
  obtain ⟨m, hm, hfields⟩ := List.mem_map.mp hmem
  simp only [Prod.mk.injEq] at hfields
  have hlength : (s.pointsAt m.place).length = m.points.length :=
    (htruthful m hm hfields.1).length_eq
  rw [hfields.2.1, hfields.2.2] at hlength
  cases hlength

end CodeResearch.Retrieval
