import CodeResearch.Library.BreadthFirst

/-!
# Call paths

`get_call_path` searches the calls of an entity breadth first. The search of its queue is that of
the library on the edges that do not lead to the target, so the first path is a shortest one. A
node that was not seen counts as 99 hops away, so no path of more than 99 edges is found.
-/
namespace CodeResearch.Research.CallPaths

open BreadthFirst (Walk Visit)

variable {ν : Type*} [DecidableEq ν]

/-- A row of `knowledge_edges`. -/
structure CallEdge (ν : Type*) where
  edgeId : String
  sourceId : ν
  /-- `none` also for an empty `target_id` -/
  targetId : Option ν
  edgeType : String

structure GetCallPathInput (ν : Type*) where
  sourceEntityId : ν
  targetEntityId : ν
  maxHops : ℕ
  maxPaths : ℕ
  one_le_maxHops : 1 ≤ maxHops
  one_le_maxPaths : 1 ≤ maxPaths

structure Search (ν : Type*) where
  queue : List (ν × List (CallEdge ν))
  paths : List (List (CallEdge ν))
  /-- `best_depth.get(entity, 99)` -/
  bestDepth : ν → ℕ

variable (rows : List (CallEdge ν)) (value : GetCallPathInput ν)

/-- `graph_neighbors` of one entity, for rows in the order of their confidence. -/
def graphNeighbors (current : ν) : List (CallEdge ν) :=
  rows.filter fun edge => edge.sourceId = current ∧ edge.edgeType ∈ ["CALLS", "INSTANTIATES"]

/-- The body of the loop over the edges. -/
def visit (path : List (CallEdge ν)) (s : Search ν) (edge : CallEdge ν) : Search ν :=
  match edge.targetId with
  | none => s
  | some target =>
    let nextPath := path ++ [edge]
    if target = value.targetEntityId then { s with paths := s.paths ++ [nextPath] }
    else if nextPath.length < value.maxHops ∧ nextPath.length < s.bestDepth target then
      { s with
        queue := s.queue ++ [(target, nextPath)]
        bestDepth := Function.update s.bestDepth target nextPath.length }
    else s

/-- The body of the loop over the queue. -/
def step (s : Search ν) : Search ν :=
  match s.queue with
  | [] => s
  | (current, path) :: rest =>
    if value.maxHops ≤ path.length then { s with queue := rest }
    else (graphNeighbors rows current).foldl (visit value path) { s with queue := rest }

def Ended (s : Search ν) : Prop := s.queue = [] ∨ value.maxPaths ≤ s.paths.length

instance (s : Search ν) : Decidable (Ended value s) :=
  inferInstanceAs (Decidable (s.queue = [] ∨ value.maxPaths ≤ s.paths.length))

def run : ℕ → Search ν → Search ν
  | 0, s => s
  | fuel + 1, s => if Ended value s then s else run fuel (step rows value s)

def start : Search ν where
  queue := [(value.sourceEntityId, [])]
  paths := []
  bestDepth entity := if entity = value.sourceEntityId then 0 else 99

def search : Search ν := run rows value (1 + rows.length * 99) (start value)

/-- `_call_paths`. -/
def callPaths : List (List (CallEdge ν)) := (search rows value).paths

def arcs (current : ν) : List (ν × CallEdge ν) :=
  (graphNeighbors rows current).filterMap fun edge => edge.targetId.map (·, edge)

def Chain (path : List (CallEdge ν)) : Prop :=
  path ≠ [] ∧ Walk (arcs rows) value.sourceEntityId path value.targetEntityId

/-- The search ends, finds only chains, finds one if there is one of at most `bound` edges, and
finds a shortest one first. -/
structure CompleteTo (bound : ℕ) : Prop where
  ended : Ended value (search rows value)
  sound : ∀ path ∈ callPaths rows value, Chain rows value path ∧ path.length ≤ value.maxHops
  complete : ∀ path, Chain rows value path → path.length ≤ bound → callPaths rows value ≠ []
  minimal : ∀ path ∈ (callPaths rows value).head?, ∀ other, Chain rows value other →
    path.length ≤ other.length

/-- An edge that the queue is continued along. -/
def onwardArc (edge : CallEdge ν) : Option (ν × CallEdge ν) :=
  (edge.targetId.filter (· ≠ value.targetEntityId)).map (·, edge)

def onward (current : ν) : List (ν × CallEdge ν) :=
  (graphNeighbors rows current).filterMap (onwardArc value)

def hits (v : Visit ν (CallEdge ν)) : List (List (CallEdge ν)) :=
  if value.maxHops ≤ v.path.length then []
  else ((graphNeighbors rows v.node).filter (·.targetId = some value.targetEntityId)).map
    (v.path ++ [·])

structure Mirrors (s : Search ν) (t : BreadthFirst.Search ν (CallEdge ν)) : Prop where
  queue : s.queue = t.queue.map fun v => (v.node, v.path)
  best : s.bestDepth = t.best

/-- A search has made the visits that left the queue of the library's search. -/
structure Reflects (s : Search ν) (t : BreadthFirst.Search ν (CallEdge ν))
    (popped : List (Visit ν (CallEdge ν))) : Prop where
  mirrors : Mirrors s t
  invariant : BreadthFirst.Invariant (onward rows value) (value.maxHops - 1) 99
    [value.sourceEntityId] t
  order : ⟨value.sourceEntityId, 0, []⟩ :: t.found = popped ++ t.queue
  sorted : (popped ++ t.queue).Pairwise fun v w => v.depth ≤ w.depth
  paths : s.paths = popped.flatMap (hits rows value)

section

variable {rows value} {s : Search ν} {t : BreadthFirst.Search ν (CallEdge ν)}
  {v : Visit ν (CallEdge ν)} {popped rest : List (Visit ν (CallEdge ν))} {node target : ν}
  {path : List (CallEdge ν)} {edge : CallEdge ν}

theorem onwardArc_eq_some_iff : onwardArc value edge = some (target, edge) ↔
    edge.targetId = some target ∧ target ≠ value.targetEntityId := by
  simp [onwardArc, Option.filter_eq_some_iff]

theorem mem_onward : (target, edge) ∈ onward rows value node ↔ edge ∈ graphNeighbors rows node ∧
    edge.targetId = some target ∧ target ≠ value.targetEntityId := by
  rw [← onwardArc_eq_some_iff, onward, List.mem_filterMap]
  constructor
  · rintro ⟨other, hmem, harc⟩
    obtain ⟨_, _, hpair⟩ := Option.map_eq_some_iff.mp harc
    obtain rfl : other = edge := congrArg Prod.snd hpair
    exact ⟨hmem, harc⟩
  · rintro ⟨hmem, harc⟩
    exact ⟨edge, hmem, harc⟩

theorem mem_arcs : (target, edge) ∈ arcs rows node ↔
    edge ∈ graphNeighbors rows node ∧ edge.targetId = some target := by
  simp only [arcs, List.mem_filterMap, Option.map_eq_some_iff, Prod.mk.injEq]
  constructor
  · rintro ⟨_, hmem, _, htarget, rfl, rfl⟩
    exact ⟨hmem, htarget⟩
  · rintro ⟨hmem, htarget⟩
    exact ⟨edge, hmem, target, htarget, rfl, rfl⟩

theorem mirrors_visit (hv : v.path.length = v.depth) (h : Mirrors s t) (edge : CallEdge ν) :
    Mirrors (visit value v.path s edge) (if value.maxHops - 1 ≤ v.depth then t
      else (onwardArc value edge).toList.foldl (BreadthFirst.visit v) t) ∧
    (visit value v.path s edge).paths = s.paths ++
      if edge.targetId = some value.targetEntityId then [v.path ++ [edge]] else [] := by
  unfold visit onwardArc
  cases htarget : edge.targetId with
  | none => simpa using h
  | some target =>
    dsimp only
    by_cases hfound : target = value.targetEntityId
    · have hnone : (some target).filter (· ≠ value.targetEntityId) = none := by
        simpa using hfound
      rw [if_pos hfound, if_pos (congrArg some hfound), hnone]
      refine ⟨?_, rfl⟩
      split_ifs
      · exact ⟨h.queue, h.best⟩
      · exact ⟨h.queue, h.best⟩
    rw [if_neg hfound, Option.filter_some, if_pos (decide_eq_true hfound), Option.map_some,
      Option.toList_some, List.foldl_cons, List.foldl_nil, List.length_append,
      List.length_singleton, hv, h.best]
    refine ⟨?_, ?_⟩
    · by_cases hhops : value.maxHops - 1 ≤ v.depth
      · rw [if_pos hhops, if_neg (by omega)]
        exact h
      rw [if_neg hhops]
      by_cases hbest : t.best target ≤ v.depth + 1
      · rw [BreadthFirst.visit, if_pos hbest, if_neg (by omega)]
        exact h
      · rw [BreadthFirst.visit, if_neg hbest, if_pos (by omega)]
        constructor
        · rw [List.map_append, ← h.queue]
          rfl
        · rw [← h.best]
    · rw [if_neg fun heq => hfound (Option.some.inj heq), List.append_nil]
      split_ifs <;> rfl

theorem mirrors_foldl (hv : v.path.length = v.depth) (h : Mirrors s t) (edges : List (CallEdge ν)) :
    Mirrors (edges.foldl (visit value v.path) s) (if value.maxHops - 1 ≤ v.depth then t
      else (edges.filterMap (onwardArc value)).foldl (BreadthFirst.visit v) t) ∧
    (edges.foldl (visit value v.path) s).paths = s.paths ++
      (edges.filter (·.targetId = some value.targetEntityId)).map (v.path ++ [·]) := by
  induction edges generalizing s t with
  | nil => simpa using h
  | cons edge edges ih =>
    obtain ⟨hmirrors, hpaths⟩ := mirrors_visit hv h edge
    obtain ⟨hrest, hall⟩ := ih hmirrors
    rw [List.foldl_cons]
    constructor
    · convert hrest using 1
      split_ifs
      · rfl
      · rw [List.filterMap_cons]
        cases onwardArc value edge <;> rfl
    · rw [hall, hpaths, List.filter_cons]
      split_ifs <;> simp_all

theorem reflects_start : Reflects rows value (start value)
    (BreadthFirst.start 99 [value.sourceEntityId]) [] := by
  refine ⟨⟨rfl, ?_⟩, BreadthFirst.invariant_start (by decide), rfl, List.pairwise_singleton _ _, rfl⟩
  funext entity
  simp [start, BreadthFirst.start]

theorem Reflects.walk (h : Reflects rows value s t popped) (hmem : v ∈ popped ++ t.queue) :
    Walk (onward rows value) value.sourceEntityId v.path v.node ∧ v.path.length = v.depth ∧
      v.depth < 99 := by
  rw [← h.order, List.mem_cons] at hmem
  rcases hmem with rfl | hmem
  · exact ⟨.nil, rfl, Nat.zero_lt_succ 98⟩
  · obtain ⟨⟨seed, hseed, hwalk⟩, hlength⟩ := h.invariant.walk v (List.mem_append_right _ hmem)
    rw [List.mem_singleton.mp hseed] at hwalk
    exact ⟨hwalk, hlength, (h.invariant.within v hmem).2.2⟩

theorem Reflects.step (h : Reflects rows value s t popped) (hqueue : t.queue = v :: rest) :
    Reflects rows value (CallPaths.step rows value s)
      (BreadthFirst.step (onward rows value) (value.maxHops - 1) t) (popped ++ [v]) := by
  have hv : v ∈ t.queue := hqueue ▸ List.mem_cons_self
  have hlength := (h.walk (List.mem_append_right _ hv)).2.1
  have horder := h.order
  have hsorted := h.sorted
  have hmirrors : Mirrors { s with queue := rest.map fun v => (v.node, v.path) }
      { t with queue := rest } := ⟨rfl, h.mirrors.best⟩
  obtain ⟨hfold, hpaths⟩ := @mirrors_foldl _ _ value _ _ _ hlength hmirrors
    (graphNeighbors rows v.node)
  have hs : CallPaths.step rows value s = if value.maxHops ≤ v.path.length then
      { s with queue := rest.map fun v => (v.node, v.path) }
      else (graphNeighbors rows v.node).foldl (visit value v.path)
        { s with queue := rest.map fun v => (v.node, v.path) } := by
    unfold CallPaths.step
    rw [h.mirrors.queue, hqueue]
    rfl
  have hstep : (CallPaths.step rows value s).paths = (popped ++ [v]).flatMap (hits rows value) := by
    rw [hs, List.flatMap_append, List.flatMap_singleton, hits, ← h.paths]
    split_ifs
    · rw [List.append_nil]
    · exact hpaths
  refine ⟨?_, h.invariant.step, ?_, ?_, hstep⟩
  · rw [hs, BreadthFirst.step, hqueue]
    dsimp only
    split_ifs with hskip hlast hlast
    · exact hmirrors
    · omega
    · rwa [if_pos hlast] at hfold
    · rwa [if_neg hlast] at hfold
  all_goals
    rw [BreadthFirst.step, hqueue]
    dsimp only
    rw [hqueue, List.append_cons] at horder hsorted
    split_ifs
  · exact horder
  · obtain ⟨new, -, hnew, hfound⟩ := BreadthFirst.foldl_visit_new v (onward rows value v.node)
      { t with queue := rest }
    rw [hnew, hfound, ← List.cons_append, horder, List.append_assoc]
  · exact hsorted
  · obtain ⟨new, hdepth, hnew, -⟩ := BreadthFirst.foldl_visit_new v (onward rows value v.node)
      { t with queue := rest }
    rw [hnew, ← List.append_assoc, List.pairwise_append]
    refine ⟨hsorted, List.pairwise_of_forall_mem_list fun a ha b hb => ?_, fun a ha b hb => ?_⟩
    · rw [hdepth a ha, hdepth b hb]
    · rw [hdepth b hb]
      rw [← horder, List.mem_cons] at ha
      rcases ha with rfl | ha
      · exact Nat.zero_le _
      · exact h.invariant.near v hv a (List.mem_append_right _ ha)

theorem run_reflects {nodes : Finset ν}
    (hnodes : ∀ node, ∀ arc ∈ onward rows value node, arc.1 ∈ nodes)
    (h : Reflects rows value s t popped) (fuel : ℕ) :
    (∃ t popped, Reflects rows value (run rows value fuel s) t popped) ∧
      (BreadthFirst.potential nodes t ≤ fuel → Ended value (run rows value fuel s)) := by
  have hempty {s t popped} (h : Reflects rows value s t popped) (hqueue : t.queue = []) :
      Ended value s := by
    left
    rw [h.mirrors.queue, hqueue]
    rfl
  induction fuel generalizing s t popped with
  | zero =>
    refine ⟨⟨t, popped, h⟩, fun hfuel => hempty h (List.length_eq_zero_iff.mp ?_)⟩
    exact Nat.le_zero.mp ((Nat.le_add_right ..).trans hfuel)
  | succ fuel ih =>
    rw [run]
    split_ifs with hended
    · exact ⟨⟨t, popped, h⟩, fun _ => hended⟩
    · cases hqueue : t.queue with
      | nil => exact absurd (hempty h hqueue) hended
      | cons v rest =>
        obtain ⟨hrun, hend⟩ := ih (h.step hqueue)
        have hless := @BreadthFirst.potential_step _ _ _ _ (value.maxHops - 1) _ _ hnodes
          (hqueue ▸ List.cons_ne_nil v rest)
        exact ⟨hrun, fun hfuel => hend (by omega)⟩

theorem Reflects.chain (h : Reflects rows value s t popped) (hpath : path ∈ s.paths) :
    Chain rows value path ∧ path.length ≤ min value.maxHops 99 := by
  rw [h.paths, List.mem_flatMap] at hpath
  obtain ⟨v, hv, hpath⟩ := hpath
  obtain ⟨hwalk, hlength, hdepth⟩ := h.walk (List.mem_append_left _ hv)
  unfold hits at hpath
  split_ifs at hpath with hhops
  · cases hpath
  obtain ⟨edge, hedge, rfl⟩ := List.mem_map.mp hpath
  rw [List.mem_filter, decide_eq_true_eq] at hedge
  have harcs {path node} (hwalk : Walk (onward rows value) value.sourceEntityId path node) :
      Walk (arcs rows) value.sourceEntityId path node := by
    induction hwalk with
    | nil => exact .nil
    | snoc _ harc ih =>
      obtain ⟨hedge, htarget, -⟩ := mem_onward.mp harc
      exact ih.snoc (mem_arcs.mpr ⟨hedge, htarget⟩)
  refine ⟨⟨List.append_ne_nil_of_right_ne_nil _ (List.cons_ne_nil _ _),
    (harcs hwalk).snoc (mem_arcs.mpr hedge)⟩, ?_⟩
  rw [List.length_append, List.length_singleton]
  omega

/-- A chain passes an edge to the target after a walk that does not pass the target. -/
theorem Chain.exists_hit (h : Chain rows value path) : ∃ front node edge, front.length < path.length ∧
    Walk (onward rows value) value.sourceEntityId front node ∧ edge ∈ graphNeighbors rows node ∧
      edge.targetId = some value.targetEntityId := by
  obtain ⟨hne, hwalk⟩ := h
  suffices hall : ∀ path node, Walk (arcs rows) value.sourceEntityId path node →
      (Walk (onward rows value) value.sourceEntityId path node ∧
        (path ≠ [] → node ≠ value.targetEntityId)) ∨
      ∃ front node edge, front.length < path.length ∧
        Walk (onward rows value) value.sourceEntityId front node ∧
          edge ∈ graphNeighbors rows node ∧ edge.targetId = some value.targetEntityId by
    rcases hall _ _ hwalk with ⟨-, htarget⟩ | hhit
    · exact absurd rfl (htarget hne)
    · exact hhit
  intro path node hwalk
  induction hwalk with
  | nil => exact .inl ⟨.nil, fun hnil => absurd rfl hnil⟩
  | @snoc path b c edge _ harc ih =>
    obtain ⟨hedge, htarget⟩ := mem_arcs.mp harc
    have hlength : path.length < (path ++ [edge]).length := by simp
    rcases ih with ⟨hwalk, -⟩ | ⟨front, node, other, hless, hhit⟩
    · by_cases hc : c = value.targetEntityId
      · exact .inr ⟨path, b, edge, hlength, hwalk, hedge, hc ▸ htarget⟩
      · exact .inl ⟨hwalk.snoc (mem_onward.mpr ⟨hedge, htarget, hc⟩), fun _ => hc⟩
    · exact .inr ⟨front, node, other, hless.trans hlength, hhit⟩

/-- A walk ends where a visit that left the queue was, or the queue has a visit that is nearer. -/
theorem Reflects.reaches (h : Reflects rows value s t popped)
    (hwalk : Walk (onward rows value) value.sourceEntityId path node)
    (hpath : path.length < min value.maxHops 99) :
    ∃ v ∈ popped ++ t.queue, v.depth ≤ path.length ∧ (v ∈ t.queue ∨ v.node = node) := by
  have hbest : (∃ v ∈ t.queue, v.depth ≤ path.length) ∨ t.best node ≤ path.length := by
    induction hwalk with
    | nil => exact .inr (h.invariant.best_seed _ List.mem_cons_self).le
    | @snoc path b c edge _ harc ih =>
      rw [List.length_append, List.length_singleton] at hpath ⊢
      rcases ih (by omega) with ⟨v, hv, hle⟩ | hle
      · exact .inl ⟨v, hv, by omega⟩
      rcases h.invariant.closed b (by omega) with ⟨v, hv, rfl⟩ | hmax | harcs
      · exact .inl ⟨v, hv, by rw [← h.invariant.queued v hv]; omega⟩
      · omega
      · exact .inr ((harcs _ harc).trans (by omega))
  rcases hbest with ⟨v, hv, hle⟩ | hle
  · exact ⟨v, List.mem_append_right _ hv, hle, .inl hv⟩
  rw [← h.order]
  rcases h.invariant.seen node (by omega) with hseed | ⟨v, hv, rfl⟩
  · exact ⟨_, List.mem_cons_self, Nat.zero_le _, .inr (List.mem_singleton.mp hseed).symm⟩
  · exact ⟨v, List.mem_cons_of_mem _ hv, h.invariant.best_found v hv ▸ hle, .inr rfl⟩

/-- A chain is longer than the way to a visit that is in the queue or has added a path. -/
theorem Reflects.exists_shorter (h : Reflects rows value s t popped) (hchain : Chain rows value path)
    (hpath : path.length ≤ min value.maxHops 99) :
    ∃ v ∈ popped ++ t.queue, v.depth < path.length ∧ (v ∈ t.queue ∨ hits rows value v ≠ []) := by
  obtain ⟨front, node, edge, hless, hwalk, hedge, htarget⟩ := hchain.exists_hit
  obtain ⟨v, hv, hle, hnode⟩ := h.reaches hwalk (by omega)
  refine ⟨v, hv, by omega, hnode.imp_right ?_⟩
  rintro rfl
  have hlength := (h.walk hv).2.1
  rw [hits, if_neg (by omega), ne_eq, List.map_eq_nil_iff]
  exact List.ne_nil_of_mem (List.mem_filter.mpr ⟨hedge, decide_eq_true htarget⟩)

/-- The first path is a shortest chain. -/
theorem Reflects.minimal (h : Reflects rows value s t popped) (hpath : path ∈ s.paths.head?)
    {other : List (CallEdge ν)} (hother : Chain rows value other) : path.length ≤ other.length := by
  by_contra hlt
  have hbound := (h.chain (List.mem_of_mem_head? hpath)).2
  obtain ⟨w, hw, hless, hhits⟩ := h.exists_shorter hother (by omega)
  have hsorted := h.sorted
  rw [h.paths, List.head?_flatMap, Option.mem_def, List.findSome?_eq_some_iff] at hpath
  obtain ⟨before, v, after, rfl, hv, hnone⟩ := hpath
  have hlength : path.length = v.depth + 1 := by
    have hmem := List.mem_of_mem_head? hv
    unfold hits at hmem
    split_ifs at hmem
    · cases hmem
    · obtain ⟨edge, -, rfl⟩ := List.mem_map.mp hmem
      rw [List.length_append, (h.walk (by simp)).2.1]
      rfl
  have hle : v.depth ≤ w.depth := by
    rw [List.append_assoc, List.pairwise_append, List.cons_append, List.pairwise_cons] at hsorted
    rw [List.append_assoc, List.mem_append, List.cons_append, List.mem_cons] at hw
    rcases hw with hw | rfl | hw
    · rcases hhits with hqueue | hhits
      · exact hsorted.2.1.1 w (List.mem_append_right _ hqueue)
      · exact absurd (List.head?_eq_none_iff.mp (hnone w hw)) hhits
    · exact le_rfl
    · exact hsorted.2.1.1 w hw
  omega

end

/-- The search is complete for the chains of at most 99 edges. -/
theorem completeTo_min (rows : List (CallEdge ν)) (value : GetCallPathInput ν) :
    CompleteTo rows value (min value.maxHops 99) := by
  let nodes : Finset ν := (rows.filterMap CallEdge.targetId).toFinset
  have hnodes : ∀ node, ∀ arc ∈ onward rows value node, arc.1 ∈ nodes := by
    rintro node ⟨target, edge⟩ harc
    obtain ⟨hedge, htarget, -⟩ := mem_onward.mp harc
    exact List.mem_toFinset.mpr (List.mem_filterMap.mpr
      ⟨edge, (List.mem_filter.mp hedge).1, htarget⟩)
  obtain ⟨⟨t, popped, h⟩, hfuel⟩ := run_reflects hnodes reflects_start (1 + rows.length * 99)
  have hended : Ended value (search rows value) := by
    apply hfuel
    refine (BreadthFirst.potential_start nodes).trans ?_
    gcongr
    · rfl
    · exact (List.toFinset_card_le _).trans (List.length_filterMap_le _ _)
  refine ⟨hended, fun path hpath => ⟨(h.chain hpath).1, (h.chain hpath).2.trans (min_le_left _ _)⟩,
    fun path hchain hpath hnone => ?_, fun path hpath other hother => h.minimal hpath hother⟩
  have hempty : t.queue = [] := by
    rcases hended with hempty | hpaths
    · rwa [search, h.mirrors.queue, List.map_eq_nil_iff] at hempty
    · change value.maxPaths ≤ (callPaths rows value).length at hpaths
      rw [hnone, List.length_nil] at hpaths
      exact absurd (value.one_le_maxPaths.trans hpaths) (Nat.not_succ_le_zero 0)
  obtain ⟨v, hv, -, hqueue | hhits⟩ := h.exists_shorter hchain hpath
  · rw [hempty] at hqueue
    cases hqueue
  · rw [hempty, List.append_nil] at hv
    change (search rows value).paths = [] at hnone
    rw [search, h.paths, List.flatMap_eq_nil_iff] at hnone
    exact hhits (hnone v hv)

def hundredCalls : List (CallEdge ℕ) :=
  (List.range 100).map fun n => ⟨toString n, n, some (n + 1), "CALLS"⟩

def hundredInput : GetCallPathInput ℕ := ⟨0, 100, 100, 1, by decide, by decide⟩

theorem not_completeTo_hundred : ¬ CompleteTo hundredCalls hundredInput 100 := by
  intro h
  have hwalk : ∀ n ≤ 100, Walk (arcs hundredCalls) 0
      ((List.range n).map fun n => ⟨toString n, n, some (n + 1), "CALLS"⟩) n := by
    intro n hn
    induction n with
    | zero => exact .nil
    | succ n ih =>
      rw [List.range_succ, List.map_append]
      refine (ih (by omega)).snoc (mem_arcs.mpr ⟨List.mem_filter.mpr ⟨?_, by simp⟩, rfl⟩)
      exact List.mem_map.mpr ⟨n, List.mem_range.mpr hn, rfl⟩
  have hnone : callPaths hundredCalls hundredInput = [] := by decide +kernel
  exact h.complete hundredCalls ⟨by decide, hwalk 100 le_rfl⟩ le_rfl hnone

end CodeResearch.Research.CallPaths
