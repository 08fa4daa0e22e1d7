import CodeResearch.Analysis.SetOrders

/-!
# The steps of a `forward`

Which statements of a method its steps are made of. The statements below an `if`, `for` or
`while` are read off level by level, so the steps are the statements of the method in their
order where depth never falls below these, and where no `with` or `try` hides any.
-/
namespace CodeResearch

section Buckets

variable {α : Type*} (depth : α → ℕ)

theorem pairwise_flatMap_filter (l : List α) (n : ℕ) :
    ((List.range n).flatMap fun k => l.filter fun a => depth a = k).Pairwise
      fun a b => depth a ≤ depth b := by
  rw [List.pairwise_flatMap]
  constructor
  · intro k _
    rw [List.pairwise_iff_forall_sublist]
    intro a b hab
    have ha := hab.subset (List.mem_cons_self)
    have hb := hab.subset (List.mem_cons_of_mem _ List.mem_cons_self)
    simp only [List.mem_filter, decide_eq_true_eq] at ha hb
    omega
  · refine List.pairwise_lt_range.imp ?_
    intro k k' hlt a ha b hb
    simp only [List.mem_filter, decide_eq_true_eq] at ha hb
    omega

theorem filter_lt_succ {l : List α} (h : l.Pairwise fun a b => depth a ≤ depth b) (n : ℕ) :
    (l.filter fun a => depth a < n + 1) =
      (l.filter fun a => depth a < n) ++ l.filter fun a => depth a = n := by
  induction l with
  | nil => rfl
  | cons a l ih =>
    rw [List.pairwise_cons] at h
    rcases lt_trichotomy (depth a) n with hlt | heq | hgt
    · rw [List.filter_cons_of_pos (by simpa using by omega),
        List.filter_cons_of_pos (by simpa using hlt),
        List.filter_cons_of_neg (by simpa using by omega), ih h.2, List.cons_append]
    · have hnone : (l.filter fun b => depth b < n) = [] := by
        rw [List.filter_eq_nil_iff]
        intro b hb
        have := h.1 b hb
        simpa using by omega
      rw [List.filter_cons_of_pos (by simpa using by omega),
        List.filter_cons_of_neg (by simpa using by omega),
        List.filter_cons_of_pos (by simpa using heq), ih h.2, hnone]
      rfl
    · have hnone : (l.filter fun b => depth b < n + 1) = [] := by
        rw [List.filter_eq_nil_iff]
        intro b hb
        have := h.1 b hb
        simpa using by omega
      rw [List.filter_cons_of_neg (by simpa using by omega),
        List.filter_cons_of_neg (by simpa using by omega),
        List.filter_cons_of_neg (by simpa using by omega), ← ih h.2, hnone]

/-- Listing by depth keeps a list exactly if its depths do not fall. -/
theorem flatMap_filter_eq_iff {l : List α} {n : ℕ} (hn : ∀ a ∈ l, depth a < n) :
    ((List.range n).flatMap fun k => l.filter fun a => depth a = k) = l ↔
      l.Pairwise fun a b => depth a ≤ depth b := by
  constructor
  · intro h
    rw [← h]
    exact pairwise_flatMap_filter depth l n
  · intro h
    have hlt : ∀ m, ((List.range m).flatMap fun k => l.filter fun a => depth a = k) =
        l.filter fun a => depth a < m := by
      intro m
      induction m with
      | zero => simp
      | succ m ih =>
        rw [List.range_succ, List.flatMap_append, ih, List.flatMap_singleton,
          filter_lt_succ depth h]
    rw [hlt, List.filter_eq_self]
    exact fun a ha => decide_eq_true (hn a ha)

end Buckets

section Distinct

variable {α β : Type*}

theorem eq_of_map_eq {f : α → β} {l m : List α}
    (hinj : ∀ a ∈ l, ∀ b ∈ m, f a = f b → a = b) (h : l.map f = m.map f) : l = m := by
  induction l generalizing m with
  | nil => exact (List.map_eq_nil_iff.mp h.symm).symm
  | cons a l ih =>
    cases m with
    | nil => exact absurd h (List.cons_ne_nil _ _)
    | cons b m =>
      rw [List.map_cons, List.map_cons, List.cons.injEq] at h
      rw [hinj a List.mem_cons_self b List.mem_cons_self h.1,
        ih (fun a' ha' b' hb' =>
          hinj a' (List.mem_cons_of_mem _ ha') b' (List.mem_cons_of_mem _ hb')) h.2]

/-- Two ways to list parts of distinct ranges agree on each of them if they agree in all. -/
theorem eq_of_flatMap_eq {f g range : α → List β} {l : List α} (hnodup : (l.flatMap range).Nodup)
    (hf : ∀ a ∈ l, ∀ b ∈ f a, b ∈ range a) (hg : ∀ a ∈ l, ∀ b ∈ g a, b ∈ range a)
    (h : l.flatMap f = l.flatMap g) : ∀ a ∈ l, f a = g a := by
  classical
  induction l with
  | nil => exact fun a ha => absurd ha List.not_mem_nil
  | cons a l ih =>
    rw [List.flatMap_cons, List.nodup_append] at hnodup
    obtain ⟨-, hrest, hdisjoint⟩ := hnodup
    have hkeep : ∀ k : α → List β, (∀ a' ∈ a :: l, ∀ b ∈ k a', b ∈ range a') →
        ((a :: l).flatMap k).filter (fun b => b ∈ range a) = k a := by
      intro k hk
      have hself : (k a).filter (fun b => b ∈ range a) = k a := by
        rw [List.filter_eq_self]
        exact fun b hb => decide_eq_true (hk a List.mem_cons_self b hb)
      have hnone : (l.flatMap k).filter (fun b => b ∈ range a) = [] := by
        rw [List.filter_eq_nil_iff]
        intro b hb hmem
        obtain ⟨a', ha', hb'⟩ := List.mem_flatMap.mp hb
        have hin := hk a' (List.mem_cons_of_mem _ ha') b hb'
        exact hdisjoint b (of_decide_eq_true hmem) b (List.mem_flatMap.mpr ⟨a', ha', hin⟩) rfl
      rw [List.flatMap_cons, List.filter_append, hself, hnone, List.append_nil]
    have hhead : f a = g a := by
      rw [← hkeep f hf, ← hkeep g hg, h]
    rw [List.flatMap_cons, List.flatMap_cons, hhead] at h
    intro a' ha'
    rcases List.mem_cons.mp ha' with rfl | htail
    · exact hhead
    · exact ih hrest (fun x hx => hf x (List.mem_cons_of_mem _ hx))
        (fun x hx => hg x (List.mem_cons_of_mem _ hx)) (List.append_cancel_left h) a' htail

end Distinct

namespace Analysis.ForwardSteps

/-- Is it a statement whose blocks belong to the method? -/
def isCompound (kind : Kind) : Bool :=
  kind = .ifStmt || kind = .forStmt || kind = .whileStmt ||
    ["AsyncFor", "With", "AsyncWith", "Try", "TryStar", "ExceptHandler"].any fun className =>
      kind = .other className

/-- Is it an assignment, an expression statement or a return? An annotation without a value is
no assignment. -/
def isStatement (n : Node) : Bool :=
  n.kind = .assign || n.kind = .annAssign && (n.field .value) ≠ [] ||
    n.kind = .other "AugAssign" || n.kind = .exprStmt || n.kind = .returnStmt

/-- A node with its depth, and whether only blocks of the method lie above it. -/
structure Place where
  depth : ℕ
  inMethod : Bool
  node : Node

mutual

def places (depth : ℕ) (inMethod : Bool) : Node → List Place
  | .mk kind lineno text segment children =>
    ⟨depth, inMethod, .mk kind lineno text segment children⟩ ::
      placesIn (depth + 1) (inMethod && isCompound kind) children

def placesIn (depth : ℕ) (inMethod : Bool) : List (Field × Node) → List Place
  | [] => []
  | (_, n) :: rest => places depth inMethod n ++ placesIn depth inMethod rest

end

def statements (n : Node) : List Node :=
  ((places 0 true n).filter fun p => p.inMethod && isStatement p.node).map Place.node

mutual

theorem depth_bounds (depth : ℕ) (inMethod : Bool) (n : Node) :
    ∀ p ∈ places depth inMethod n, depth ≤ p.depth ∧ p.depth < depth + n.height := by
  match n with
  | .mk kind lineno text segment children =>
    intro p hp
    rw [places, List.mem_cons] at hp
    rw [Node.height]
    rcases hp with rfl | hp
    · exact ⟨le_rfl, by dsimp only; omega⟩
    · have := depth_bounds_in (depth + 1) (inMethod && isCompound kind) children p hp
      omega

theorem depth_bounds_in (depth : ℕ) (inMethod : Bool) (children : List (Field × Node)) :
    ∀ p ∈ placesIn depth inMethod children,
      depth ≤ p.depth ∧ p.depth < depth + Node.heights children := by
  match children with
  | [] => exact fun p hp => absurd hp List.not_mem_nil
  | (f, n) :: rest =>
    intro p hp
    rw [placesIn, List.mem_append] at hp
    rw [Node.heights]
    rcases hp with hp | hp
    · have := depth_bounds depth inMethod n p hp
      omega
    · have := depth_bounds_in depth inMethod rest p hp
      omega

end

mutual

theorem level_eq (depth : ℕ) (inMethod : Bool) (n : Node) (j : ℕ) :
    n.level j =
      ((places depth inMethod n).filter fun p => p.depth = depth + j).map Place.node := by
  match n, j with
  | .mk kind lineno text segment children, 0 =>
    have hnone : ((placesIn (depth + 1) (inMethod && isCompound kind) children).filter
        fun p => p.depth = depth + 0) = [] := by
      rw [List.filter_eq_nil_iff]
      intro p hp
      have := (depth_bounds_in _ _ _ p hp).1
      simpa using by omega
    rw [places, List.filter_cons_of_pos (by simp), hnone]
    rfl
  | .mk kind lineno text segment children, j + 1 =>
    rw [places, List.filter_cons_of_neg (by simp)]
    have hin := level_eq_in (depth + 1) (inMethod && isCompound kind) children j
    rw [show depth + (j + 1) = depth + 1 + j by omega]
    rw [← hin, Node.level, Node.children, Node.fields, List.flatMap_map]

theorem level_eq_in (depth : ℕ) (inMethod : Bool) (children : List (Field × Node)) (j : ℕ) :
    (children.flatMap fun child => child.2.level j) =
      ((placesIn depth inMethod children).filter fun p => p.depth = depth + j).map
        Place.node := by
  match children with
  | [] => rfl
  | (f, n) :: rest =>
    rw [placesIn, List.flatMap_cons, List.filter_append, List.map_append,
      level_eq depth inMethod n j, level_eq_in depth inMethod rest j]

end

mutual

theorem inMethod_of_places (depth : ℕ) (n : Node) :
    ∀ p ∈ places depth false n, p.inMethod = false := by
  match n with
  | .mk kind lineno text segment children =>
    intro p hp
    rw [places, List.mem_cons] at hp
    rcases hp with rfl | hp
    · rfl
    · exact inMethod_of_placesIn (depth + 1) children p hp

theorem inMethod_of_placesIn (depth : ℕ) (children : List (Field × Node)) :
    ∀ p ∈ placesIn depth false children, p.inMethod = false := by
  match children with
  | [] => exact fun p hp => absurd hp List.not_mem_nil
  | (f, n) :: rest =>
    intro p hp
    rw [placesIn, List.mem_append] at hp
    rcases hp with hp | hp
    · exact inMethod_of_places depth n p hp
    · exact inMethod_of_placesIn depth rest p hp

end

variable {n stmt : Node} {parts : Option String × Node × Bool} {stmts : List Node}

/-- A statement that is not compound stands for itself. -/
theorem statements_of_not_isCompound (h : isCompound n.kind = false) :
    statements n = if isStatement n then [n] else [] := by
  match n with
  | .mk kind lineno text segment children =>
    have hnone : (placesIn 1 (true && isCompound kind) children).filter
        (fun p => p.inMethod && isStatement p.node) = [] := by
      have hkind : isCompound kind = false := h
      rw [List.filter_eq_nil_iff, hkind]
      intro p hp
      rw [inMethod_of_placesIn _ _ p hp]
      exact Bool.false_ne_true
    rw [statements, places, List.filter_cons, hnone, Bool.true_and]
    split_ifs <;> rfl

def isStepNode (n : Node) : Bool := (stepParts n).isSome

def stepPlaces (n : Node) : List Place := (places 0 true n).filter fun p => isStepNode p.node

def stepStatements (body : List Node) : List Node := (visitedStatements body).filter isStepNode

theorem kind_of_isStepNode (h : isStepNode n = true) :
    n.kind = .assign ∨ n.kind = .annAssign ∨ n.kind = .exprStmt ∨ n.kind = .returnStmt := by
  unfold isStepNode stepParts at h
  split at h
  · exact .inl ‹_›
  · exact .inr (.inl ‹_›)
  · exact .inr (.inr (.inl ‹_›))
  · exact .inr (.inr (.inr ‹_›))
  · exact absurd h Bool.false_ne_true

theorem isStatement_of_isStepNode (h : isStepNode n = true) : isStatement n = true := by
  unfold isStatement
  rcases kind_of_isStepNode h with hkind | hkind | hkind | hkind
  · simp [hkind]
  · have hvalue : n.field .value ≠ [] := by
      intro hnil
      unfold isStepNode stepParts at h
      rw [hkind] at h
      dsimp only at h
      rw [hnil] at h
      exact absurd h Bool.false_ne_true
    simp [hkind, hvalue]
  · simp [hkind]
  · simp [hkind]

theorem isStepNode_of_isCompound (h : isCompound n.kind = true) : isStepNode n = false := by
  by_contra hstep
  rw [Bool.not_eq_false] at hstep
  rcases kind_of_isStepNode hstep with hkind | hkind | hkind | hkind
  all_goals
    rw [hkind] at h
    exact absurd h (by decide)

theorem isCompound_of_isControlFlow (h : isControlFlow n = true) : isCompound n.kind = true := by
  rcases of_decide_eq_true h with hkind | hkind | hkind <;> rw [hkind] <;> decide

theorem walk_eq_cons (n : Node) : n.walk = n :: n.walk.tail := by
  match n with
  | .mk kind lineno text segment children =>
    rw [Node.walk, Node.height, List.range_succ_eq_map, List.flatMap_cons]
    rfl

theorem filter_walk (n : Node) (q : Node → Bool) :
    n.walk.filter q = ((List.range n.height).flatMap fun k =>
      ((places 0 true n).filter fun p => q p.node).filter fun p => p.depth = k).map Place.node := by
  rw [Node.walk, List.filter_flatMap, List.map_flatMap]
  congr 1
  funext k
  rw [level_eq 0 true n k, List.filter_map, Nat.zero_add, List.filter_filter, List.filter_filter]
  simp only [Bool.and_comm, Function.comp_def]

/-- Below an `if`, `for` or `while` the statements are read by their depth. -/
theorem stepStatements_of_isControlFlow (h : isControlFlow n = true) :
    (interestingNestedStatements n).filter isStepNode =
      ((List.range n.height).flatMap fun k =>
        (stepPlaces n).filter fun p => p.depth = k).map Place.node := by
  rw [stepPlaces, ← filter_walk n isStepNode]
  conv_rhs => rw [walk_eq_cons]
  rw [List.filter_cons_of_neg
    (by rw [isStepNode_of_isCompound (isCompound_of_isControlFlow h)]; exact Bool.false_ne_true),
    interestingNestedStatements, List.filter_filter]
  refine List.filter_congr fun m _ => ?_
  cases hstep : isStepNode m with
  | false => rfl
  | true => simpa using kind_of_isStepNode hstep

variable {order : SetOrder String} {function : FunctionInfo} {names : Finset String}
  {aliases : List (String × String)}

def signature (function : FunctionInfo) (stmt : Node) :
    Option (Option String × String × Option ℕ) :=
  (stepParts stmt).map fun parts =>
    (parts.1, parts.2.1.sourceText, absoluteLineNo function stmt.lineno)

def MadeOf (function : FunctionInfo) (stmt : Node × ℕ) (step : ForwardStep) : Prop :=
  signature function stmt.1 = some (step.target, step.expression, step.lineNo) ∧
    step.order = stmt.2 + 1

def returnExpressions (stmts : List Node) : List String :=
  stmts.filterMap fun stmt =>
    if stmt.kind = .returnStmt then (stmt.field .value).head?.map Node.sourceText else none

theorem returnExpressions_cons (stmt : Node) (stmts : List Node) :
    returnExpressions (stmt :: stmts) = returnExpressions [stmt] ++ returnExpressions stmts := by
  rw [← List.singleton_append, returnExpressions, List.filterMap_append]
  rfl

theorem returnExpressions_of_stepParts (h : stepParts stmt = some parts) :
    returnExpressions [stmt] = if parts.2.2 then [parts.2.1.sourceText] else [] := by
  unfold stepParts at h
  unfold returnExpressions
  rw [List.filterMap_cons, List.filterMap_nil]
  split at h
  · rename_i hkind
    split at h
    · obtain ⟨value, -, rfl⟩ := Option.map_eq_some_iff.mp h
      simp [hkind]
    · exact absurd h nofun
  · rename_i hkind
    obtain ⟨value, -, rfl⟩ := Option.map_eq_some_iff.mp h
    simp [hkind]
  · rename_i hkind
    obtain ⟨value, -, rfl⟩ := Option.map_eq_some_iff.mp h
    simp [hkind]
  · rename_i hkind
    obtain ⟨value, hvalue, rfl⟩ := Option.map_eq_some_iff.mp h
    simp [hkind, hvalue]
  · exact absurd h nofun

theorem stepsMadeFrom_cons {start : ℕ} (h : stepParts stmt = some parts) :
    stepsFrom order function names aliases (stmt :: stmts) start =
      forwardStep order function names aliases stmt parts start ::
        stepsFrom order function names aliases stmts (start + 1) := by
  rw [stepsFrom, h]

theorem stepsFrom_filter (stmts : List Node) (start : ℕ) :
    stepsFrom order function names aliases (stmts.filter isStepNode) start =
      stepsFrom order function names aliases stmts start := by
  induction stmts generalizing start with
  | nil => rfl
  | cons stmt stmts ih =>
    cases hparts : stepParts stmt with
    | none =>
      rw [List.filter_cons_of_neg (by rw [isStepNode, hparts]; exact Bool.false_ne_true),
        stepsFrom, hparts]
      exact ih start
    | some parts =>
      rw [List.filter_cons_of_pos (by rw [isStepNode, hparts]; rfl), stepsMadeFrom_cons hparts,
        stepsMadeFrom_cons hparts, ih]

theorem returnExpressions_filter (stmts : List Node) :
    returnExpressions (stmts.filter isStepNode) =
      (stmts.filterMap stepParts).flatMap fun parts =>
        if parts.2.2 then [parts.2.1.sourceText] else [] := by
  induction stmts with
  | nil => rfl
  | cons stmt stmts ih =>
    cases hparts : stepParts stmt with
    | none =>
      rw [List.filter_cons_of_neg (by rw [isStepNode, hparts]; exact Bool.false_ne_true),
        List.filterMap_cons_none hparts, ih]
    | some parts =>
      rw [List.filter_cons_of_pos (by rw [isStepNode, hparts]; rfl),
        List.filterMap_cons_some hparts, List.flatMap_cons, returnExpressions_cons,
        returnExpressions_of_stepParts hparts, ih]

theorem appendForwardSteps_filter (stmts : List Node) :
    appendForwardSteps order function names aliases stmts ([], []) =
      (stepsFrom order function names aliases (stmts.filter isStepNode) 0,
        returnExpressions (stmts.filter isStepNode)) := by
  rw [appendForwardSteps_eq, List.nil_append, List.nil_append, List.length_nil, stepsFrom_filter,
    returnExpressions_filter]

theorem exists_stepParts (h : isStepNode stmt = true) :
    ∃ parts, stepParts stmt = some parts := Option.isSome_iff_exists.mp h

theorem madeOf_stepsMadeFrom (h : ∀ stmt ∈ stmts, isStepNode stmt = true) (start : ℕ) :
    List.Forall₂ (MadeOf function) (stmts.zipIdx start)
      (stepsFrom order function names aliases stmts start) := by
  induction stmts generalizing start with
  | nil => exact .nil
  | cons stmt stmts ih =>
    obtain ⟨parts, hparts⟩ := exists_stepParts (h stmt List.mem_cons_self)
    rw [stepsMadeFrom_cons hparts, List.zipIdx_cons]
    refine .cons ⟨?_, rfl⟩ (ih (fun m hm => h m (List.mem_cons_of_mem _ hm)) (start + 1))
    rw [signature, hparts]
    rfl

/-- Steps tell all of the statements they are made of but what no step tells. -/
theorem signatures_of_madeOf {made : List Node} {start : ℕ}
    (hmade : ∀ stmt ∈ made, isStepNode stmt = true)
    (h : List.Forall₂ (MadeOf function) (stmts.zipIdx start)
      (stepsFrom order function names aliases made start)) :
    (∀ stmt ∈ stmts, isStepNode stmt = true) ∧
      stmts.map (signature function) = made.map (signature function) := by
  induction made generalizing stmts start with
  | nil =>
    rw [stepsFrom, List.forall₂_nil_right_iff, List.zipIdx_eq_nil_iff] at h
    rw [h]
    exact ⟨fun stmt hstmt => absurd hstmt List.not_mem_nil, rfl⟩
  | cons m made ih =>
    obtain ⟨parts, hparts⟩ := exists_stepParts (hmade m List.mem_cons_self)
    rw [stepsMadeFrom_cons hparts] at h
    cases stmts with
    | nil =>
      rw [List.zipIdx_nil] at h
      cases h
    | cons stmt stmts =>
      rw [List.zipIdx_cons, List.forall₂_cons] at h
      obtain ⟨⟨hsignature, -⟩, hrest⟩ := h
      obtain ⟨hall, hmap⟩ := ih (fun m' hm' => hmade m' (List.mem_cons_of_mem _ hm')) hrest
      have hm : signature function m = signature function stmt := by
        rw [hsignature, signature, hparts]
        rfl
      refine ⟨?_, by rw [List.map_cons, List.map_cons, hm, hmap]⟩
      intro n hn
      rcases List.mem_cons.mp hn with rfl | hn
      · rw [isStepNode]
        rw [signature, Option.map_eq_some_iff] at hsignature
        obtain ⟨p, hp, -⟩ := hsignature
        rw [hp]
        rfl
      · exact hall n hn

def CallsLayer (expression : Node) (name : String) : Prop :=
  ∃ call ∈ expression.walk, call.kind = .call ∧
    (call.field .func).head?.bind selfAttributeName = some name

def UsesOf (names : Finset String) (stmt : Node) (step : ForwardStep) : Prop :=
  ∀ text, text ∈ step.usesLayers ↔ ∃ name ∈ names, text = "self." ++ name ∧
    ∃ parts, stepParts stmt = some parts ∧ CallsLayer parts.2.1 name

/-- What `ast.unparse` returns for a called expression is `self.name` for this attribute
alone. -/
def TextsFaithful (stmts : List Node) : Prop :=
  ∀ stmt ∈ stmts, ∀ parts ∈ stepParts stmt, ∀ call ∈ parts.2.1.walk,
    ∀ func ∈ (call.field .func).head?, ∀ name,
      func.text = "self." ++ name ↔ selfAttributeName func = some name

def AliasesKeepLayers (names : Finset String) (aliases : List (String × String)) (stmt : Node) :
    Prop :=
  ∀ parts ∈ stepParts stmt, ∀ name ∈ names,
    "self." ++ name ∈ callNames parts.2.1 aliases ↔ "self." ++ name ∈ callNames parts.2.1 []

theorem canonicalName_nil (name : String) : canonicalName name [] = name := by
  rw [canonicalName, aliasOf, List.lookup_nil, Option.getD_none, splitRoot]
  rw [← String.ofList_append, List.takeWhile_append_dropWhile, String.ofList_toList]

theorem self_append_ne_empty (name : String) : "self." ++ name ≠ "" := by
  intro h
  have hlist := congrArg String.toList h
  rw [String.toList_append] at hlist
  exact absurd hlist (List.cons_ne_nil _ _)

theorem callsLayer_iff (htexts : TextsFaithful stmts) (hstmt : stmt ∈ stmts)
    (hparts : stepParts stmt = some parts) (name : String) :
    CallsLayer parts.2.1 name ↔ "self." ++ name ∈ callNames parts.2.1 [] := by
  unfold CallsLayer callNames
  simp only [List.mem_map, List.mem_filter, decide_eq_true_eq, canonicalName_nil, and_assoc]
  refine exists_congr fun call => and_congr_right fun hcall => and_congr_right fun _ => ?_
  cases hfunc : (call.field .func).head? with
  | none =>
    rw [Option.bind_none, Option.map_none, Option.getD_none]
    exact iff_of_false nofun fun h => self_append_ne_empty name h.symm
  | some func =>
    rw [Option.bind_some, Option.map_some, Option.getD_some]
    exact (htexts stmt hstmt parts hparts call hcall func hfunc name).symm

theorem mem_usesLayers {count : ℕ} {text : String} :
    text ∈ (forwardStep order function names aliases stmt parts count).usesLayers ↔
      ∃ name ∈ names, text = "self." ++ name ∧ "self." ++ name ∈ callNames parts.2.1 aliases := by
  unfold forwardStep
  simp only [List.mem_map, List.mem_filter, decide_eq_true_eq, order.mem_list]
  constructor
  · rintro ⟨name, ⟨hname, hcall⟩, rfl⟩
    exact ⟨name, hname, rfl, hcall⟩
  · rintro ⟨name, hname, rfl, hcall⟩
    exact ⟨name, ⟨hname, hcall⟩, rfl⟩

theorem usesOf_iff (htexts : TextsFaithful stmts) (hstmt : stmt ∈ stmts)
    (hparts : stepParts stmt = some parts) (count : ℕ) :
    UsesOf names stmt (forwardStep order function names aliases stmt parts count) ↔
      AliasesKeepLayers names aliases stmt := by
  unfold UsesOf AliasesKeepLayers
  rw [hparts]
  simp only [mem_usesLayers, Option.some.injEq, exists_eq_left', Option.mem_def, forall_eq',
    callsLayer_iff htexts hstmt hparts]
  constructor
  · intro h name hname
    have hself := h ("self." ++ name)
    constructor
    · intro hcall
      obtain ⟨name', -, heq, hcall'⟩ := hself.mp ⟨name, hname, rfl, hcall⟩
      rwa [heq]
    · intro hcall
      obtain ⟨name', -, heq, hcall'⟩ := hself.mpr ⟨name, hname, rfl, hcall⟩
      rwa [heq]
  · intro h text
    exact exists_congr fun name => and_congr_right fun hname => and_congr_right fun _ =>
      h name hname

def methodStatements (body : List Node) : List Node := body.flatMap statements

/-- The steps are made of the statements of the method, each names the layers it calls, the
outputs are the expressions returned, and the warning says whether there are none. -/
structure Extracted (function : FunctionInfo) (names : Finset String) (body : List Node)
    (facts : ForwardFacts) : Prop where
  steps : List.Forall₂ (MadeOf function) (methodStatements body).zipIdx facts.steps
  uses : List.Forall₂ (UsesOf names) (methodStatements body) facts.steps
  outputs : facts.outputs = returnExpressions (methodStatements body)
  warning : "forward 中未发现显式 return。" ∈ facts.warnings ↔
    returnExpressions (methodStatements body) = []

structure ReadInOrder (names : Finset String) (aliases : List (String × String))
    (body : List Node) : Prop where
  /-- No augmented assignment and no return without a value. -/
  made : ∀ stmt ∈ methodStatements body, isStepNode stmt = true
  /-- Nothing to read in a `with`, a `try` or an `async for` of the body itself. -/
  read : ∀ n ∈ body, isControlFlow n = false → isCompound n.kind = true → statements n = []
  /-- Nothing below a nested function, class or `match` of an `if`, `for` or `while`. -/
  inMethod : ∀ n ∈ body, isControlFlow n = true → ∀ p ∈ stepPlaces n, p.inMethod = true
  /-- Below an `if`, `for` or `while` no statement follows a deeper one. -/
  level : ∀ n ∈ body, isControlFlow n = true →
    (stepPlaces n).Pairwise fun p p' => p.depth ≤ p'.depth
  aliases : ∀ stmt ∈ methodStatements body, AliasesKeepLayers names aliases stmt
  returns : returnExpressions (methodStatements body) ≠ []

def stepStatementsAt (n : Node) : List Node :=
  if isControlFlow n then
    ((List.range n.height).flatMap fun k =>
      (stepPlaces n).filter fun p => p.depth = k).map Place.node
  else if isStepNode n then [n] else []

theorem stepStatements_eq (body : List Node) :
    stepStatements body = body.flatMap stepStatementsAt := by
  rw [stepStatements, visitedStatements, List.filter_flatMap]
  congr 1
  funext n
  unfold stepStatementsAt
  split_ifs with hcontrol hstep
  · exact stepStatements_of_isControlFlow hcontrol
  · exact List.filter_cons_of_pos hstep
  · exact List.filter_cons_of_neg hstep

theorem depth_lt_of_stepPlaces : ∀ p ∈ stepPlaces n, p.depth < n.height := by
  intro p hp
  have := (depth_bounds 0 true n p (List.mem_of_mem_filter hp)).2
  omega

/-- The statements below a node that steps can be made of. -/
theorem statements_eq_of_isStepNode (h : ∀ stmt ∈ statements n, isStepNode stmt = true) :
    statements n = ((stepPlaces n).filter fun p => p.inMethod).map Place.node := by
  rw [statements, stepPlaces, List.filter_filter]
  congr 1
  refine List.filter_congr fun p hp => ?_
  cases hin : p.inMethod with
  | false => rfl
  | true =>
    cases hstep : isStepNode p.node with
    | true => simp [isStatement_of_isStepNode hstep]
    | false =>
      cases hstmt : isStatement p.node with
      | false => rfl
      | true =>
        have hmem : p.node ∈ statements n :=
          List.mem_map_of_mem (List.mem_filter.mpr ⟨hp, by rw [hin, hstmt]; rfl⟩)
        rw [h _ hmem] at hstep
        exact absurd hstep (by decide)

theorem ReadInOrder.stepStatements {body : List Node} (h : ReadInOrder names aliases body) :
    stepStatements body = methodStatements body := by
  rw [stepStatements_eq]
  refine List.flatMap_congr fun n hn => ?_
  have hmade : ∀ stmt ∈ statements n, isStepNode stmt = true := fun stmt hstmt =>
    h.made stmt (List.mem_flatMap.mpr ⟨n, hn, hstmt⟩)
  unfold stepStatementsAt
  split_ifs with hcontrol hstep
  · rw [(flatMap_filter_eq_iff Place.depth depth_lt_of_stepPlaces).mpr (h.level n hn hcontrol),
      statements_eq_of_isStepNode hmade, List.filter_eq_self.mpr (h.inMethod n hn hcontrol)]
  · have hcompound : isCompound n.kind = false := by
      by_contra hcompound
      rw [isStepNode_of_isCompound (by simpa using hcompound)] at hstep
      exact absurd hstep (by decide)
    rw [statements_of_not_isCompound hcompound, if_pos (isStatement_of_isStepNode hstep)]
  · cases hcompound : isCompound n.kind with
    | true => exact (h.read n hn (by simpa using hcontrol) hcompound).symm
    | false =>
      rw [statements_of_not_isCompound hcompound] at hmade ⊢
      split_ifs at hmade ⊢ with hstmt
      · exact absurd (hmade n List.mem_cons_self) hstep
      · rfl

def ToldApart (function : FunctionInfo) (body : List Node) : Prop :=
  ((body.flatMap fun n => (stepPlaces n).map Place.node).map (signature function)).Nodup

theorem mem_stepPlaces_of_stepStatementsAt {m : Node} (h : m ∈ stepStatementsAt n) :
    m ∈ (stepPlaces n).map Place.node := by
  unfold stepStatementsAt at h
  split_ifs at h with hcontrol hstep
  · obtain ⟨p, hp, rfl⟩ := List.mem_map.mp h
    obtain ⟨k, -, hp⟩ := List.mem_flatMap.mp hp
    exact List.mem_map_of_mem (List.mem_of_mem_filter hp)
  · rw [List.mem_singleton.mp h]
    refine List.mem_map.mpr ⟨⟨0, true, n⟩, List.mem_filter.mpr ⟨?_, hstep⟩, rfl⟩
    match n with
    | .mk kind lineno text segment children =>
      rw [places]
      exact List.mem_cons_self
  · exact absurd h List.not_mem_nil

theorem mem_stepPlaces_of_statements {m : Node} (h : m ∈ statements n)
    (hstep : isStepNode m = true) : m ∈ (stepPlaces n).map Place.node := by
  obtain ⟨p, hp, rfl⟩ := List.mem_map.mp h
  exact List.mem_map_of_mem (List.mem_filter.mpr ⟨List.mem_of_mem_filter hp, hstep⟩)

/-- Where steps tell nodes apart, equal steps are made of equal statements. -/
theorem statements_eq_of_signatures {body : List Node} (hapart : ToldApart function body)
    (hmade : ∀ stmt ∈ methodStatements body, isStepNode stmt = true)
    (h : (methodStatements body).map (signature function) =
      (stepStatements body).map (signature function)) :
    ∀ n ∈ body, stepStatementsAt n = statements n := by
  have hinj := List.inj_on_of_nodup_map hapart
  have hmethod : ∀ m ∈ methodStatements body,
      m ∈ body.flatMap fun n => (stepPlaces n).map Place.node := by
    intro m hm
    obtain ⟨n, hn, hm'⟩ := List.mem_flatMap.mp hm
    exact List.mem_flatMap.mpr ⟨n, hn, mem_stepPlaces_of_statements hm' (hmade m hm)⟩
  have hsteps : ∀ m ∈ stepStatements body,
      m ∈ body.flatMap fun n => (stepPlaces n).map Place.node := by
    intro m hm
    rw [stepStatements_eq] at hm
    obtain ⟨n, hn, hm⟩ := List.mem_flatMap.mp hm
    exact List.mem_flatMap.mpr ⟨n, hn, mem_stepPlaces_of_stepStatementsAt hm⟩
  have heq : methodStatements body = stepStatements body :=
    eq_of_map_eq (fun m hm m' hm' => hinj (hmethod m hm) (hsteps m' hm')) h
  rw [stepStatements_eq] at heq
  refine eq_of_flatMap_eq hapart.of_map
    (fun n _ m hm => mem_stepPlaces_of_stepStatementsAt hm) (fun n hn m hm => ?_) heq.symm
  exact mem_stepPlaces_of_statements hm (hmade m (List.mem_flatMap.mpr ⟨n, hn, hm⟩))

/-- A node whose statements are read as they are hides none and has them by their depth. -/
theorem inMethod_and_level (hcontrol : isControlFlow n = true)
    (hnodup : ((stepPlaces n).map Place.node).Nodup)
    (hmade : ∀ stmt ∈ statements n, isStepNode stmt = true)
    (h : stepStatementsAt n = statements n) :
    (∀ p ∈ stepPlaces n, p.inMethod = true) ∧
      (stepPlaces n).Pairwise fun p p' => p.depth ≤ p'.depth := by
  have hinj := List.inj_on_of_nodup_map hnodup
  rw [stepStatementsAt, if_pos hcontrol, statements_eq_of_isStepNode hmade] at h
  have hin : ∀ p ∈ stepPlaces n, p.inMethod = true := by
    intro p hp
    have hmem : p.node ∈ ((stepPlaces n).filter fun p => p.inMethod).map Place.node := by
      rw [← h]
      exact List.mem_map_of_mem (List.mem_flatMap.mpr ⟨p.depth,
        List.mem_range.mpr (depth_lt_of_stepPlaces p hp),
        List.mem_filter.mpr ⟨hp, decide_eq_true rfl⟩⟩)
    obtain ⟨p', hp', heq⟩ := List.mem_map.mp hmem
    obtain ⟨hp', hin⟩ := List.mem_filter.mp hp'
    rwa [← hinj hp' hp heq]
  refine ⟨hin, ?_⟩
  rw [List.filter_eq_self.mpr hin] at h
  rw [← flatMap_filter_eq_iff Place.depth depth_lt_of_stepPlaces]
  refine eq_of_map_eq (fun p hp p' hp' => hinj ?_ hp') h
  obtain ⟨k, -, hp⟩ := List.mem_flatMap.mp hp
  exact List.mem_of_mem_filter hp

theorem usesOf_stepsMadeFrom (htexts : TextsFaithful stmts)
    (h : ∀ stmt ∈ stmts, isStepNode stmt = true) (start : ℕ) :
    List.Forall₂ (UsesOf names) stmts (stepsFrom order function names aliases stmts start) ↔
      ∀ stmt ∈ stmts, AliasesKeepLayers names aliases stmt := by
  induction stmts generalizing start with
  | nil => exact iff_of_true .nil fun stmt hstmt => absurd hstmt List.not_mem_nil
  | cons stmt stmts ih =>
    obtain ⟨parts, hparts⟩ := exists_stepParts (h stmt List.mem_cons_self)
    rw [stepsMadeFrom_cons hparts, List.forall₂_cons, usesOf_iff htexts List.mem_cons_self hparts,
      ih (fun m hm => htexts m (List.mem_cons_of_mem _ hm))
        (fun m hm => h m (List.mem_cons_of_mem _ hm)), List.forall_mem_cons]

/-- What is read off the source of a method. -/
theorem extractForwardSteps_eq {py : Python} {layers : List ModelLayer} {tree functionDef : Node}
    (htree : parseFunctionSource py function = some tree)
    (hfound : (tree.walk.find? fun n => decide (Node.IsFunction n.kind)) = some functionDef) :
    let facts := extractForwardSteps py order (some function) layers aliases
    let made := stepStatements (functionDef.field .body)
    facts.steps = stepsFrom order function (layers.map ModelLayer.name).toFinset aliases made 0 ∧
      facts.outputs = (if returnExpressions made = [] then ["无显式 return"]
        else returnExpressions made) ∧
      ("forward 中未发现显式 return。" ∈ facts.warnings ↔ returnExpressions made = []) := by
  dsimp only
  unfold extractForwardSteps
  dsimp only
  rw [htree]
  dsimp only
  rw [hfound]
  dsimp only
  rw [appendForwardSteps_filter, ← stepStatements]
  split_ifs with hnone
  · refine ⟨rfl, rfl, iff_of_true ?_ hnone⟩
    exact List.mem_append_right _ List.mem_cons_self
  · refine ⟨rfl, rfl, iff_of_false ?_ hnone⟩
    intro hmem
    obtain ⟨_, _, heq⟩ := List.mem_map.mp hmem
    exact absurd heq (by decide)

def leaf (kind : Kind) (text : String) : Node := .mk kind (some 1) text (some text) []

/-- `y = f(x)` on a line. -/
def callStatement (line : ℕ) : Node :=
  .mk .assign (some line) "y = f(x)" (some "y = f(x)")
    [(.targets, leaf (.name "y") "y"),
      (.value, .mk .call (some line) "f(x)" (some "f(x)")
        [(.func, leaf (.name "f") "f"), (.args, leaf (.name "x") "x")])]

/-- `return y` on a line. -/
def returnY (line : ℕ) : Node :=
  .mk .returnStmt (some line) "return y" (some "return y") [(.value, leaf (.name "y") "y")]

/-- `forward` with a body. -/
def forwardDef (body : List Node) : Node :=
  .mk (.functionDef "forward") (some 1) "forward" none (body.map (.body, ·))

def parsesTo (functionDef : Node) : Python where
  lower := id
  parse _ := some (.mk (.other "Module") none "" none [(.body, functionDef)])

def forwardInfo : FunctionInfo where
  filePath := "model.py"
  functionName := "forward"
  className := some "Model"
  startLine := some 10
  sourceCode := some "def forward(self, x): ..."

/-- `with context: y = f(x)` and then `return y`. -/
def withBody : List Node :=
  [.mk (.other "With") (some 2) "with" none [(.body, callStatement 3)], returnY 4]

/-- `y = f(x)` and then `return y`. -/
def plainBody : List Node := [callStatement 2, returnY 3]

end Analysis.ForwardSteps
end CodeResearch
