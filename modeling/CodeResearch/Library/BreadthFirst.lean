import Mathlib.Algebra.Order.BigOperators.Group.Finset

/-!
# Bounded breadth-first search

A search over labelled arcs that visits the nodes within a number of hops of its seeds. A
node that was not seen counts as `unseen` hops away, so the bound of the search has to be
below `unseen` for it to find all of them.
-/
namespace CodeResearch.BreadthFirst

variable {ν ε : Type*} [DecidableEq ν]

/-- A node with the depth and the labels of the path on which it was reached. -/
structure Visit (ν ε : Type*) where
  node : ν
  depth : ℕ
  path : List ε

structure Search (ν ε : Type*) where
  queue : List (Visit ν ε)
  best : ν → ℕ
  found : List (Visit ν ε)

/-- The labels of consecutive arcs from one node to another. -/
inductive Walk (next : ν → List (ν × ε)) (a : ν) : List ε → ν → Prop
  | nil : Walk next a [] a
  | snoc {path : List ε} {b c : ν} {e : ε} :
    Walk next a path b → (c, e) ∈ next b → Walk next a (path ++ [e]) c

/-- A node is visited when this brings it nearer. -/
def visit (current : Visit ν ε) (s : Search ν ε) (arc : ν × ε) : Search ν ε :=
  if s.best arc.1 ≤ current.depth + 1 then s
  else
    let next := ⟨arc.1, current.depth + 1, current.path ++ [arc.2]⟩
    { queue := s.queue ++ [next]
      best := Function.update s.best arc.1 (current.depth + 1)
      found := s.found ++ [next] }

section Search

variable (next : ν → List (ν × ε)) (maxHops unseen : ℕ) (seeds : List ν)

def step (s : Search ν ε) : Search ν ε :=
  match s.queue with
  | [] => s
  | current :: rest =>
    if maxHops ≤ current.depth then { s with queue := rest }
    else (next current.node).foldl (visit current) { s with queue := rest }

def start : Search ν ε where
  queue := seeds.map fun seed => ⟨seed, 0, []⟩
  best node := if node ∈ seeds then 0 else unseen
  found := []

def run : ℕ → Search ν ε → Search ν ε
  | 0, s => s
  | fuel + 1, s => match s.queue with
    | [] => s
    | _ :: _ => run fuel (step next maxHops s)

/-- The visits of a search are walks, in the order of their depths, and no arc of a node that
left the queue leads further than one hop beyond it. -/
structure Invariant (s : Search ν ε) : Prop where
  walk : ∀ v ∈ s.queue ++ s.found,
    (∃ seed ∈ seeds, Walk next seed v.path v.node) ∧ v.path.length = v.depth
  sorted : s.queue.Pairwise fun v w => v.depth ≤ w.depth
  near : ∀ v ∈ s.queue, ∀ w ∈ s.queue ++ s.found, w.depth ≤ v.depth + 1
  queued : ∀ v ∈ s.queue, s.best v.node = v.depth
  best_found : ∀ v ∈ s.found, s.best v.node = v.depth
  nodup : (s.found.map Visit.node).Nodup
  best_seed : ∀ seed ∈ seeds, s.best seed = 0
  best_le : ∀ node, s.best node ≤ unseen
  seen : ∀ node, s.best node < unseen → node ∈ seeds ∨ ∃ v ∈ s.found, v.node = node
  within : ∀ v ∈ s.found, 0 < v.depth ∧ v.depth ≤ maxHops ∧ v.depth < unseen
  closed : ∀ node, s.best node < unseen →
    (∃ v ∈ s.queue, v.node = node) ∨ maxHops ≤ s.best node ∨
      ∀ arc ∈ next node, s.best arc.1 ≤ s.best node + 1

variable {next maxHops unseen seeds}

theorem invariant_start (hunseen : 0 < unseen) :
    Invariant next maxHops unseen seeds (start unseen seeds) := by
  have hqueue : ∀ v ∈ (start unseen seeds : Search ν ε).queue,
      ∃ seed ∈ seeds, v = ⟨seed, 0, []⟩ := by
    intro v hv
    obtain ⟨seed, hseed, rfl⟩ := List.mem_map.mp hv
    exact ⟨seed, hseed, rfl⟩
  have happend : ∀ v ∈ (start unseen seeds : Search ν ε).queue ++ (start unseen seeds).found,
      ∃ seed ∈ seeds, v = ⟨seed, 0, []⟩ := by
    intro v hv
    rw [start, List.append_nil] at hv
    exact hqueue v hv
  refine ⟨?_, ?_, ?_, ?_, fun v hv => absurd hv List.not_mem_nil, List.nodup_nil, ?_, ?_, ?_,
    fun v hv => absurd hv List.not_mem_nil, ?_⟩
  · intro v hv
    obtain ⟨seed, hseed, rfl⟩ := happend v hv
    exact ⟨⟨seed, hseed, .nil⟩, rfl⟩
  · exact List.pairwise_map.mpr (List.pairwise_of_forall fun _ _ => le_rfl)
  · intro v hv w hw
    obtain ⟨_, _, rfl⟩ := happend w hw
    exact Nat.zero_le _
  · intro v hv
    obtain ⟨seed, hseed, rfl⟩ := hqueue v hv
    exact if_pos hseed
  · exact fun seed hseed => if_pos hseed
  · intro node
    unfold start
    dsimp only
    split_ifs <;> omega
  · intro node hnode
    unfold start at hnode
    dsimp only at hnode
    split_ifs at hnode with hseed
    · exact .inl hseed
    · exact absurd hnode (lt_irrefl _)
  · intro node hnode
    unfold start at hnode
    dsimp only at hnode
    split_ifs at hnode with hseed
    · exact .inl ⟨⟨node, 0, []⟩, List.mem_map.mpr ⟨node, hseed, rfl⟩, rfl⟩
    · exact absurd hnode (lt_irrefl _)

theorem visit_cases (current : Visit ν ε) (s : Search ν ε) (arc : ν × ε) :
    (s.best arc.1 ≤ current.depth + 1 ∧ visit current s arc = s) ∨
      (current.depth + 1 < s.best arc.1 ∧
        visit current s arc =
          { queue := s.queue ++ [⟨arc.1, current.depth + 1, current.path ++ [arc.2]⟩]
            best := Function.update s.best arc.1 (current.depth + 1)
            found := s.found ++ [⟨arc.1, current.depth + 1, current.path ++ [arc.2]⟩] }) := by
  unfold visit
  by_cases h : s.best arc.1 ≤ current.depth + 1
  · exact .inl ⟨h, if_pos h⟩
  · exact .inr ⟨not_le.mp h, if_neg h⟩

theorem best_visit_le (current : Visit ν ε) (s : Search ν ε) (arc : ν × ε) (node : ν) :
    (visit current s arc).best node ≤ s.best node := by
  rcases visit_cases current s arc with ⟨_, heq⟩ | ⟨hlt, heq⟩
  · rw [heq]
  · rw [heq]
    dsimp only
    by_cases hnode : node = arc.1
    · subst hnode
      rw [Function.update_self]
      exact hlt.le
    · rw [Function.update_of_ne hnode]

theorem best_visit_arc (current : Visit ν ε) (s : Search ν ε) (arc : ν × ε) :
    (visit current s arc).best arc.1 ≤ current.depth + 1 := by
  rcases visit_cases current s arc with ⟨hle, heq⟩ | ⟨_, heq⟩
  · rwa [heq]
  · rw [heq]
    exact (Function.update_self ..).le

variable {current : Visit ν ε} {s : Search ν ε}

variable {arc : ν × ε} {rest : List (Visit ν ε)} {arcs : List (ν × ε)} {node : ν}

theorem Invariant.visit (h : Invariant next maxHops unseen seeds s)
    (hqueue : s.queue = current :: rest)
    (hdepth : current.depth < maxHops) (harc : arc ∈ next current.node) :
    Invariant next maxHops unseen seeds (visit current s arc) := by
  have hcurrent : current ∈ s.queue := hqueue ▸ List.mem_cons_self
  rcases visit_cases current s arc with ⟨_, heq⟩ | ⟨hlt, heq⟩
  · rwa [heq]
  rw [heq]
  -- every node that was seen is at most one hop beyond the head of the queue
  have hseed : arc.1 ∉ seeds := fun hseed => by
    rw [h.best_seed _ hseed] at hlt
    omega
  have hfound : ∀ v ∈ s.found, v.node ≠ arc.1 := by
    intro v hv hnode
    have hnear := h.near current hcurrent v (List.mem_append_right _ hv)
    rw [← hnode, h.best_found v hv] at hlt
    omega
  have hnew : ∀ node, node ≠ arc.1 →
      Function.update s.best arc.1 (current.depth + 1) node = s.best node :=
    fun node hnode => Function.update_of_ne hnode ..
  have hqueued : ∀ v ∈ s.queue, v.node ≠ arc.1 := by
    intro v hv hnode
    have hnear := h.near current hcurrent v (List.mem_append_left _ hv)
    rw [← hnode, h.queued v hv] at hlt
    omega
  have hhead : ∀ v ∈ s.queue, current.depth ≤ v.depth := by
    intro v hv
    have hsorted := h.sorted
    rw [hqueue, List.pairwise_cons] at hsorted
    rw [hqueue, List.mem_cons] at hv
    rcases hv with rfl | hv
    · exact le_rfl
    · exact hsorted.1 v hv
  have hmem : ∀ v ∈ (s.queue ++ [⟨arc.1, current.depth + 1, current.path ++ [arc.2]⟩]) ++
      (s.found ++ [⟨arc.1, current.depth + 1, current.path ++ [arc.2]⟩]),
      v ∈ s.queue ++ s.found ∨ v = ⟨arc.1, current.depth + 1, current.path ++ [arc.2]⟩ := by
    intro v hv
    simp only [List.mem_append, List.mem_singleton] at hv ⊢
    tauto
  refine ⟨?_, ?_, ?_, ?_, ?_, ?_, ?_, ?_, ?_, ?_, ?_⟩
  · intro v hv
    rcases hmem v hv with hold | rfl
    · exact h.walk v hold
    · obtain ⟨⟨seed, hseed, hwalk⟩, hlength⟩ := h.walk current (List.mem_append_left _ hcurrent)
      refine ⟨⟨seed, hseed, hwalk.snoc harc⟩, ?_⟩
      rw [List.length_append, hlength]
      rfl
  · rw [List.pairwise_append]
    refine ⟨h.sorted, List.pairwise_singleton _ _, ?_⟩
    intro v hv w hw
    rw [List.mem_singleton.mp hw]
    exact h.near current hcurrent v (List.mem_append_left _ hv)
  · intro v hv w hw
    have hv' : current.depth ≤ v.depth := by
      rcases List.mem_append.mp hv with hv | hv
      · exact hhead v hv
      · rw [List.mem_singleton.mp hv]
        exact Nat.le_succ _
    rcases hmem w hw with hold | rfl
    · have := h.near current hcurrent w hold
      omega
    · exact Nat.succ_le_succ hv'
  · intro v hv
    rcases List.mem_append.mp hv with hv | hv
    · exact (hnew _ (hqueued v hv)).trans (h.queued v hv)
    · rw [List.mem_singleton.mp hv]
      exact Function.update_self ..
  · intro v hv
    rcases List.mem_append.mp hv with hv | hv
    · exact (hnew _ (hfound v hv)).trans (h.best_found v hv)
    · rw [List.mem_singleton.mp hv]
      exact Function.update_self ..
  · rw [List.map_append, List.nodup_append]
    refine ⟨h.nodup, List.nodup_singleton _, ?_⟩
    intro a ha b hb
    obtain ⟨v, hv, rfl⟩ := List.mem_map.mp ha
    rw [List.mem_singleton.mp hb]
    exact hfound v hv
  · intro seed hmem
    exact (hnew seed fun heq => hseed (heq ▸ hmem)).trans (h.best_seed seed hmem)
  · intro node
    by_cases hnode : node = arc.1
    · subst hnode
      have := h.best_le arc.1
      dsimp only
      rw [Function.update_self]
      omega
    · exact (hnew node hnode).trans_le (h.best_le node)
  · intro node hnode
    dsimp only at hnode
    by_cases heq : node = arc.1
    · exact .inr ⟨_, List.mem_append_right _ (List.mem_singleton.mpr rfl), heq.symm⟩
    · rw [hnew node heq] at hnode
      rcases h.seen node hnode with hseen | ⟨v, hv, hvnode⟩
      · exact .inl hseen
      · exact .inr ⟨v, List.mem_append_left _ hv, hvnode⟩
  · intro v hv
    rcases List.mem_append.mp hv with hv | hv
    · exact h.within v hv
    · have := h.best_le arc.1
      rw [List.mem_singleton.mp hv]
      dsimp only
      omega
  · intro node hnode
    dsimp only at hnode ⊢
    by_cases heq : node = arc.1
    · exact .inl ⟨_, List.mem_append_right _ (List.mem_singleton.mpr rfl), heq.symm⟩
    · rw [hnew node heq] at hnode ⊢
      rcases h.closed node hnode with ⟨v, hv, hvnode⟩ | hmax | harcs
      · exact .inl ⟨v, List.mem_append_left _ hv, hvnode⟩
      · exact .inr (.inl hmax)
      · refine .inr (.inr fun arc' harc' => ?_)
        have hle := harcs arc' harc'
        by_cases harc'' : arc'.1 = arc.1
        · rw [harc''] at hle ⊢
          rw [Function.update_self]
          omega
        · rwa [hnew _ harc'']

/-- Popping a visit commutes with the visits that it makes. -/
theorem foldl_visit_pop (current : Visit ν ε) (arcs : List (ν × ε)) (s : Search ν ε)
    (rest : List (Visit ν ε)) :
    arcs.foldl (BreadthFirst.visit current) { s with queue := current :: rest } =
      let t := arcs.foldl (BreadthFirst.visit current) { s with queue := rest }
      { t with queue := current :: t.queue } := by
  induction arcs generalizing s rest with
  | nil => rfl
  | cons arc arcs ih =>
    rw [List.foldl_cons, List.foldl_cons]
    by_cases hle : s.best arc.1 ≤ current.depth + 1
    · rw [BreadthFirst.visit, if_pos hle, BreadthFirst.visit, if_pos hle]
      exact ih s rest
    · rw [BreadthFirst.visit, if_neg hle, BreadthFirst.visit, if_neg hle]
      exact ih ⟨s.queue, Function.update s.best arc.1 (current.depth + 1), s.found ++ _⟩ (rest ++ _)

/-- The new visits are one hop beyond the current one. -/
theorem foldl_visit_new (current : Visit ν ε) (arcs : List (ν × ε)) (s : Search ν ε) :
    ∃ new, (∀ v ∈ new, v.depth = current.depth + 1) ∧
      (arcs.foldl (BreadthFirst.visit current) s).queue = s.queue ++ new ∧
      (arcs.foldl (BreadthFirst.visit current) s).found = s.found ++ new := by
  induction arcs generalizing s with
  | nil => exact ⟨[], fun _ h => absurd h List.not_mem_nil, by simp, by simp⟩
  | cons arc arcs ih =>
    obtain ⟨new, hnew, hqueue, hfound⟩ := ih (BreadthFirst.visit current s arc)
    rw [List.foldl_cons, hqueue, hfound]
    rcases visit_cases current s arc with ⟨_, heq⟩ | ⟨_, heq⟩
    · exact ⟨new, hnew, by rw [heq], by rw [heq]⟩
    · refine ⟨⟨arc.1, current.depth + 1, current.path ++ [arc.2]⟩ :: new,
        List.forall_mem_cons.mpr ⟨rfl, hnew⟩, ?_, ?_⟩
      · rw [heq, List.append_assoc, List.singleton_append]
      · rw [heq, List.append_assoc, List.singleton_append]

/-- After all visits from the head of the queue its arcs lead at most one hop beyond it. -/
theorem Invariant.foldl_visit (h : Invariant next maxHops unseen seeds s)
    (hqueue : ∃ rest, s.queue = current :: rest)
    (hdepth : current.depth < maxHops)
    (harcs : ∀ arc ∈ arcs, arc ∈ next current.node) :
    let t := arcs.foldl (BreadthFirst.visit current) s
    Invariant next maxHops unseen seeds t ∧ (∃ rest, t.queue = current :: rest) ∧
      (∀ node, t.best node ≤ s.best node) ∧ ∀ arc ∈ arcs, t.best arc.1 ≤ current.depth + 1 := by
  induction arcs generalizing s with
  | nil => exact ⟨h, hqueue, fun _ => le_rfl, fun _ hmem => absurd hmem List.not_mem_nil⟩
  | cons arc arcs ih =>
    obtain ⟨rest, hrest⟩ := hqueue
    have hvisit := h.visit hrest hdepth (harcs arc List.mem_cons_self)
    have hhead : ∃ rest, (BreadthFirst.visit current s arc).queue = current :: rest := by
      rcases visit_cases current s arc with ⟨_, heq⟩ | ⟨_, heq⟩
      · exact ⟨rest, by rw [heq, hrest]⟩
      · exact ⟨rest ++ _, by rw [heq, hrest]; rfl⟩
    obtain ⟨hinv, hqueue, hle, hall⟩ := ih hvisit hhead
      fun arc' hmem => harcs arc' (List.mem_cons_of_mem _ hmem)
    refine ⟨hinv, hqueue, fun node => (hle node).trans (best_visit_le ..), ?_⟩
    intro arc' hmem
    rcases List.mem_cons.mp hmem with rfl | hmem
    · exact (hle _).trans (best_visit_arc ..)
    · exact hall arc' hmem

omit [DecidableEq ν] in
/-- The head of the queue may leave it once its arcs lead at most one hop beyond it. -/
theorem Invariant.pop (h : Invariant next maxHops unseen seeds s)
    (hqueue : s.queue = current :: rest)
    (hdone : maxHops ≤ current.depth ∨
      ∀ arc ∈ next current.node, s.best arc.1 ≤ current.depth + 1) :
    Invariant next maxHops unseen seeds { s with queue := rest } := by
  have hmem : ∀ v ∈ rest, v ∈ s.queue := fun v hv => hqueue ▸ List.mem_cons_of_mem _ hv
  have hall : ∀ v ∈ rest ++ s.found, v ∈ s.queue ++ s.found := by
    intro v hv
    rcases List.mem_append.mp hv with hv | hv
    · exact List.mem_append_left _ (hmem v hv)
    · exact List.mem_append_right _ hv
  refine ⟨fun v hv => h.walk v (hall v hv), ?_, fun v hv w hw => h.near v (hmem v hv) w (hall w hw),
    fun v hv => h.queued v (hmem v hv), h.best_found, h.nodup, h.best_seed, h.best_le, h.seen,
    h.within, ?_⟩
  · have hsorted := h.sorted
    rw [hqueue, List.pairwise_cons] at hsorted
    exact hsorted.2
  · intro node hnode
    rcases h.closed node hnode with ⟨v, hv, rfl⟩ | hclosed
    · rw [hqueue, List.mem_cons] at hv
      rcases hv with rfl | hv
      · right
        have hbest := h.queued v (hqueue ▸ List.mem_cons_self)
        dsimp only
        rwa [hbest]
      · exact .inl ⟨v, hv, rfl⟩
    · exact .inr hclosed

theorem Invariant.step (h : Invariant next maxHops unseen seeds s) :
    Invariant next maxHops unseen seeds (step next maxHops s) := by
  unfold BreadthFirst.step
  cases hqueue : s.queue with
  | nil => exact h
  | cons current rest =>
    dsimp only
    by_cases hmax : maxHops ≤ current.depth
    · rw [if_pos hmax]
      exact h.pop hqueue (.inl hmax)
    · rw [if_neg hmax]
      obtain ⟨hinv, _, _, hall⟩ := h.foldl_visit ⟨rest, hqueue⟩ (not_le.mp hmax) fun _ hmem => hmem
      have hpop := foldl_visit_pop current (next current.node) s rest
      rw [← hqueue] at hpop
      change (next current.node).foldl (BreadthFirst.visit current) s = _ at hpop
      rw [hpop] at hinv hall
      exact hinv.pop rfl (.inr hall)

theorem Invariant.run (h : Invariant next maxHops unseen seeds s) (fuel : ℕ) :
    Invariant next maxHops unseen seeds (run next maxHops fuel s) := by
  induction fuel generalizing s with
  | zero => exact h
  | succ fuel ih =>
    unfold BreadthFirst.run
    cases hqueue : s.queue with
    | nil => exact h
    | cons current rest => exact ih h.step

def potential (nodes : Finset ν) (s : Search ν ε) : ℕ := s.queue.length + ∑ node ∈ nodes, s.best node

theorem potential_visit (nodes : Finset ν) (current : Visit ν ε) (s : Search ν ε)
    (harc : arc.1 ∈ nodes) :
    potential nodes (BreadthFirst.visit current s arc) ≤ potential nodes s := by
  rcases visit_cases current s arc with ⟨_, heq⟩ | ⟨hlt, heq⟩
  · rw [heq]
  · have hold := Finset.add_sum_erase nodes (fun node => s.best node) harc
    have hnew := Finset.add_sum_erase nodes
      (fun node => Function.update s.best arc.1 (current.depth + 1) node) harc
    have hother : ∑ node ∈ nodes.erase arc.1, Function.update s.best arc.1 (current.depth + 1) node =
        ∑ node ∈ nodes.erase arc.1, s.best node :=
      Finset.sum_congr rfl fun node hnode =>
        Function.update_of_ne (Finset.ne_of_mem_erase hnode) ..
    rw [Function.update_self] at hnew
    rw [heq, potential, potential]
    dsimp only
    rw [List.length_append, List.length_singleton]
    omega

theorem potential_foldl_visit (nodes : Finset ν) (current : Visit ν ε)
    (harcs : ∀ arc ∈ arcs, arc.1 ∈ nodes) (s : Search ν ε) :
    potential nodes (arcs.foldl (BreadthFirst.visit current) s) ≤ potential nodes s := by
  induction arcs generalizing s with
  | nil => exact le_rfl
  | cons arc arcs ih =>
    exact (ih (fun arc' hmem => harcs arc' (List.mem_cons_of_mem _ hmem)) _).trans
      (potential_visit nodes current s (harcs arc List.mem_cons_self))

theorem potential_step {nodes : Finset ν} (hnodes : ∀ node, ∀ arc ∈ next node, arc.1 ∈ nodes)
    (hqueue : s.queue ≠ []) :
    potential nodes (BreadthFirst.step next maxHops s) < potential nodes s := by
  unfold BreadthFirst.step
  cases hs : s.queue with
  | nil => exact absurd hs hqueue
  | cons current rest =>
    have hpop : potential nodes { s with queue := rest } + 1 = potential nodes s := by
      unfold potential
      rw [hs, List.length_cons]
      dsimp only
      omega
    dsimp only
    split_ifs
    · omega
    · have := potential_foldl_visit nodes current (hnodes current.node) { s with queue := rest }
      omega

/-- A search with enough fuel empties its queue. -/
theorem queue_run {nodes : Finset ν} (hnodes : ∀ node, ∀ arc ∈ next node, arc.1 ∈ nodes)
    {fuel : ℕ} (hfuel : potential nodes s ≤ fuel) :
    (run next maxHops fuel s).queue = [] := by
  induction fuel generalizing s with
  | zero =>
    have : s.queue.length ≤ 0 := (Nat.le_add_right ..).trans hfuel
    exact List.length_eq_zero_iff.mp (Nat.le_zero.mp this)
  | succ fuel ih =>
    unfold BreadthFirst.run
    cases hqueue : s.queue with
    | nil => exact hqueue
    | cons current rest =>
      have := @potential_step _ _ _ _ maxHops _ _ hnodes (hqueue ▸ List.cons_ne_nil current rest)
      exact ih (by omega)

theorem potential_start (nodes : Finset ν) :
    potential nodes (start unseen seeds : Search ν ε) ≤ seeds.length + nodes.card * unseen := by
  unfold potential start
  dsimp only
  rw [List.length_map]
  gcongr
  refine Finset.sum_le_card_nsmul nodes _ unseen fun node _ => ?_
  split_ifs <;> omega

def Reaches (next : ν → List (ν × ε)) (seeds : List ν) (node : ν) (hops : ℕ) : Prop :=
  ∃ seed ∈ seeds, ∃ path, Walk next seed path node ∧ path.length = hops

omit [DecidableEq ν] in
/-- A finished search knows a shortest way to every node within its bounds. -/
theorem Invariant.best_le_of_walk (h : Invariant next maxHops unseen seeds s)
    (hqueue : s.queue = []) {seed : ν} (hseed : seed ∈ seeds) {path : List ε}
    (hwalk : Walk next seed path node) (hpath : path.length ≤ maxHops) :
    s.best node ≤ path.length := by
  induction hwalk with
  | nil => exact (h.best_seed seed hseed).le
  | @snoc path b c e hwalk harc ih =>
    rw [List.length_append, List.length_singleton] at hpath ⊢
    have hb := ih (by omega)
    rcases (h.best_le b).eq_or_lt with heq | hlt
    · have := h.best_le c
      omega
    · rcases h.closed b hlt with ⟨v, hv, _⟩ | hmax | harcs
      · rw [hqueue] at hv
        exact absurd hv List.not_mem_nil
      · omega
      · have := harcs _ harc
        dsimp only at this
        omega

omit [DecidableEq ν] in
/-- A finished search has found each node within its bounds that is no seed, once and over a
shortest walk. -/
theorem Invariant.mem_found_iff (h : Invariant next maxHops unseen seeds s)
    (hqueue : s.queue = []) (hunseen : maxHops < unseen) :
    node ∈ s.found.map Visit.node ↔
      node ∉ seeds ∧ ∃ hops ≤ maxHops, Reaches next seeds node hops := by
  constructor
  · intro hmem
    obtain ⟨v, hv, rfl⟩ := List.mem_map.mp hmem
    obtain ⟨hpos, hle, _⟩ := h.within v hv
    obtain ⟨⟨seed, hseed, hwalk⟩, hlength⟩ := h.walk v (List.mem_append_right _ hv)
    refine ⟨fun hmem => ?_, v.depth, hle, seed, hseed, v.path, hwalk, hlength⟩
    have hbest := h.best_found v hv
    rw [h.best_seed _ hmem] at hbest
    omega
  · rintro ⟨hnot, hops, hle, seed, hseed, path, hwalk, rfl⟩
    have hbest := h.best_le_of_walk hqueue hseed hwalk hle
    rcases h.seen node (by omega) with hmem | ⟨v, hv, rfl⟩
    · exact absurd hmem hnot
    · exact List.mem_map_of_mem hv

omit [DecidableEq ν] in
theorem Invariant.depth_le (h : Invariant next maxHops unseen seeds s)
    (hqueue : s.queue = []) {v : Visit ν ε} (hv : v ∈ s.found) {hops : ℕ}
    (hreach : Reaches next seeds v.node hops) : v.depth ≤ hops := by
  obtain ⟨seed, hseed, path, hwalk, rfl⟩ := hreach
  by_cases hle : path.length ≤ maxHops
  · rw [← h.best_found v hv]
    exact h.best_le_of_walk hqueue hseed hwalk hle
  · exact (h.within v hv).2.1.trans (not_le.mp hle).le

end Search

end CodeResearch.BreadthFirst
