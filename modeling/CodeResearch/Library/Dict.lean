import Mathlib.Data.List.Nodup

/-!
# Dictionaries built from lists

A dictionary keeps the last of the values under one key. Where the keys differ it depends
on the values only, not on their order. What is seen first under a key is kept by `firstBy`.
-/
namespace CodeResearch

variable {α κ : Type*} [DecidableEq κ] {key : α → κ} {l l' : List α}

/-- `{key(a): a for a in l}.get(k)`. -/
def dictBy (key : α → κ) (l : List α) (k : κ) : Option α :=
  l.reverse.find? fun a => decide (key a = k)

theorem mem_of_dictBy {k : κ} {a : α} (h : dictBy key l k = some a) : a ∈ l ∧ key a = k :=
  ⟨List.mem_reverse.mp (List.mem_of_find?_eq_some h), by simpa using List.find?_some h⟩

theorem exists_dictBy {k : κ} (h : k ∈ l.map key) : ∃ a, dictBy key l k = some a := by
  obtain ⟨a, ha, rfl⟩ := List.mem_map.mp h
  have hsome : (dictBy key l (key a)).isSome :=
    List.find?_isSome.mpr ⟨a, List.mem_reverse.mpr ha, by simp⟩
  exact Option.isSome_iff_exists.mp hsome

theorem dictBy_of_mem (hnodup : (l.map key).Nodup) {a : α} (h : a ∈ l) :
    dictBy key l (key a) = some a := by
  have hkey : key a ∈ l.map key := List.mem_map_of_mem h
  obtain ⟨b, hb⟩ := exists_dictBy hkey
  obtain ⟨hmem, hkey⟩ := mem_of_dictBy hb
  rw [hb, List.inj_on_of_nodup_map hnodup hmem h hkey]

theorem dictBy_congr (h : l.Perm l') (hnodup : (l.map key).Nodup) : dictBy key l = dictBy key l' := by
  funext k
  apply Option.ext
  intro a
  constructor
  · intro ha
    obtain ⟨hmem, rfl⟩ := mem_of_dictBy ha
    exact dictBy_of_mem ((h.map key).nodup_iff.mp hnodup) (h.mem_iff.mp hmem)
  · intro ha
    obtain ⟨hmem, rfl⟩ := mem_of_dictBy ha
    exact dictBy_of_mem hnodup (h.mem_iff.mpr hmem)

def firstBy (key : α → κ) : List α → List α
  | [] => []
  | a :: l => a :: (firstBy key l).filter fun b => key b ≠ key a

theorem firstBy_sublist (l : List α) : (firstBy key l).Sublist l := by
  induction l with
  | nil => exact .slnil
  | cons a l ih => exact (List.filter_sublist.trans ih).cons_cons a

theorem mem_map_firstBy {k : κ} : k ∈ (firstBy key l).map key ↔ k ∈ l.map key := by
  induction l with
  | nil => exact Iff.rfl
  | cons a l ih =>
    rw [firstBy, List.map_cons, List.map_cons, List.mem_cons, List.mem_cons]
    refine or_congr_right' fun hk => ?_
    rw [← ih, List.mem_map, List.mem_map]
    refine exists_congr fun b => ?_
    rw [List.mem_filter, decide_eq_true_eq]
    constructor
    · rintro ⟨⟨hb, _⟩, hkey⟩
      exact ⟨hb, hkey⟩
    · rintro ⟨hb, hkey⟩
      exact ⟨⟨hb, hkey ▸ hk⟩, hkey⟩

theorem nodup_firstBy (l : List α) : ((firstBy key l).map key).Nodup := by
  induction l with
  | nil => exact List.nodup_nil
  | cons a l ih =>
    rw [firstBy, List.map_cons, List.nodup_cons]
    refine ⟨fun hmem => ?_, ih.sublist (List.filter_sublist.map key)⟩
    obtain ⟨b, hb, hkey⟩ := List.mem_map.mp hmem
    simp [hkey] at hb

/-- A value that comes last is kept where its key is new. -/
theorem firstBy_concat (l : List α) (c : α) :
    firstBy key (l ++ [c]) = firstBy key l ++ if key c ∈ l.map key then [] else [c] := by
  induction l with
  | nil => rfl
  | cons a l ih =>
    rw [List.cons_append, firstBy, firstBy, ih, List.filter_append, List.cons_append,
      List.map_cons]
    congr 2
    by_cases hl : key c ∈ l.map key
    · rw [if_pos hl, if_pos (List.mem_cons_of_mem _ hl), List.filter_nil]
    · by_cases hca : key c = key a
      · rw [if_neg hl, if_pos (hca ▸ List.mem_cons_self)]
        simp [hca]
      · rw [if_neg hl, if_neg (by simp [hca, hl])]
        simp [hca]

/-- `{key(a): a for a in l}.values()`: each key where it comes first, with its last value. -/
def lastBy (key : α → κ) : List α → List α
  | [] => []
  | a :: l => ((l.filter fun b => key b = key a).getLast?).getD a ::
      (lastBy key l).filter fun b => key b ≠ key a

theorem key_getLast_getD (key : α → κ) (a : α) (l : List α) :
    key (((l.filter fun b => key b = key a).getLast?).getD a) = key a ∧
      ((l.filter fun b => key b = key a).getLast?).getD a ∈ a :: l := by
  cases hlast : (l.filter fun b => key b = key a).getLast? with
  | none => exact ⟨rfl, List.mem_cons_self⟩
  | some b =>
    have hb := List.mem_filter.mp (List.mem_of_getLast? hlast)
    rw [decide_eq_true_eq] at hb
    exact ⟨hb.2, List.mem_cons_of_mem _ hb.1⟩

theorem mem_of_mem_lastBy {a : α} (h : a ∈ lastBy key l) : a ∈ l := by
  induction l with
  | nil => cases h
  | cons b l ih =>
    rw [lastBy] at h
    rcases List.mem_cons.mp h with rfl | h
    · exact (key_getLast_getD key b l).2
    · exact List.mem_cons_of_mem _ (ih (List.mem_of_mem_filter h))

/-- An element that is alone with its key is a value. -/
theorem mem_lastBy_of_unique {a : α} (ha : a ∈ l) (h : ∀ b ∈ l, key b = key a → b = a) :
    a ∈ lastBy key l := by
  induction l with
  | nil => cases ha
  | cons b l ih =>
    rw [lastBy]
    by_cases hba : key b = key a
    · have hlast := key_getLast_getD key b l
      have heq := h _ hlast.2 (hlast.1.trans hba)
      rw [heq]
      exact List.mem_cons_self
    · have hal : a ∈ l := by
        rcases List.mem_cons.mp ha with rfl | hal
        · exact absurd rfl hba
        · exact hal
      refine List.mem_cons_of_mem _ (List.mem_filter.mpr ⟨?_, ?_⟩)
      · exact ih hal fun c hc => h c (List.mem_cons_of_mem _ hc)
      · rw [decide_eq_true_eq]
        exact Ne.symm hba

theorem nodup_lastBy (l : List α) : ((lastBy key l).map key).Nodup := by
  induction l with
  | nil => exact List.nodup_nil
  | cons a l ih =>
    rw [lastBy, List.map_cons, List.nodup_cons, (key_getLast_getD key a l).1]
    constructor
    · simp
    · exact (List.filter_sublist.map key).nodup ih

/-- Elements with keys of their own are all values. -/
theorem lastBy_of_nodup (h : (l.map key).Nodup) : lastBy key l = l := by
  induction l with
  | nil => rfl
  | cons a l ih =>
    rw [List.map_cons, List.nodup_cons] at h
    have hne : ∀ b ∈ l, key b ≠ key a := fun b hb heq => h.1 (heq ▸ List.mem_map_of_mem hb)
    have hnil : (l.filter fun b => key b = key a) = [] := by
      rw [List.filter_eq_nil_iff]
      intro b hb
      rw [decide_eq_true_eq]
      exact hne b hb
    rw [lastBy, hnil, ih h.2, List.filter_eq_self.mpr]
    · rfl
    · intro b hb
      rw [decide_eq_true_eq]
      exact hne b hb

theorem filter_lastBy (p : κ → Bool) (l : List α) :
    (lastBy key l).filter (fun b => p (key b)) = lastBy key (l.filter fun b => p (key b)) := by
  induction l with
  | nil => rfl
  | cons a l ih =>
    have hlast := (key_getLast_getD key a l).1
    rw [lastBy]
    cases hp : p (key a) with
    | true =>
      have hsame : ((l.filter fun b => p (key b)).filter fun b => key b = key a) =
          l.filter fun b => key b = key a := by
        rw [List.filter_filter]
        apply List.filter_congr
        intro b _
        by_cases hb : key b = key a
        · simp [hb, hp]
        · simp [hb]
      rw [@List.filter_cons_of_pos _ (fun b => p (key b)) _ _ (by rw [hlast, hp]),
        @List.filter_cons_of_pos _ (fun b => p (key b)) _ _ hp, lastBy, hsame, ← ih,
        List.filter_filter, List.filter_filter]
      apply congrArg
      apply List.filter_congr
      intro b _
      rw [Bool.and_comm]
    | false =>
      rw [@List.filter_cons_of_neg _ (fun b => p (key b)) _ _ (by rw [hlast, hp]; nofun),
        @List.filter_cons_of_neg _ (fun b => p (key b)) _ _ (by rw [hp]; nofun), ← ih,
        List.filter_filter]
      apply List.filter_congr
      intro b _
      by_cases hb : key b = key a
      · simp [hb, hp]
      · simp [hb]

/-- Values that are there already change nothing. -/
theorem lastBy_append_of_subset {m : List α} (h : (l.map key).Nodup) (hsub : ∀ b ∈ m, b ∈ l) :
    lastBy key (l ++ m) = l := by
  induction l generalizing m with
  | nil =>
    rw [List.eq_nil_iff_forall_not_mem.mpr fun b hb => List.not_mem_nil (hsub b hb)]
    rfl
  | cons a l ih =>
    rw [List.map_cons, List.nodup_cons] at h
    have hlast : (((l ++ m).filter fun b => key b = key a).getLast?).getD a = a := by
      have hmem := key_getLast_getD key a (l ++ m)
      rcases List.mem_append.mp (List.cons_append ▸ hmem.2) with hmem' | hmem'
      · rcases List.mem_cons.mp hmem' with heq | hl
        · exact heq
        · exact absurd (hmem.1 ▸ List.mem_map_of_mem hl) h.1
      · rcases List.mem_cons.mp (hsub _ hmem') with heq | hl
        · exact heq
        · exact absurd (hmem.1 ▸ List.mem_map_of_mem hl) h.1
    have hrest : ((l ++ m).filter fun b => key b ≠ key a) =
        l ++ m.filter fun b => key b ≠ key a := by
      rw [List.filter_append, List.filter_eq_self.mpr]
      intro b hb
      rw [decide_eq_true_eq]
      exact fun heq => h.1 (heq ▸ List.mem_map_of_mem hb)
    rw [List.cons_append, lastBy, hlast,
      filter_lastBy (fun k => decide (k ≠ key a)) (l ++ m), hrest, ih h.2]
    intro b hb
    obtain ⟨hbm, hne⟩ := List.mem_filter.mp hb
    rw [decide_eq_true_eq] at hne
    rcases List.mem_cons.mp (hsub b hbm) with rfl | hl
    · exact absurd rfl hne
    · exact hl

omit [DecidableEq κ] in
/-- A key that is counted twice belongs to two elements. -/
theorem exists_ne_of_one_lt_count [BEq κ] [LawfulBEq κ] {k : κ} (h : 1 < (l.map key).count k)
    (hnodup : l.Nodup) : ∃ a ∈ l, ∃ b ∈ l, a ≠ b ∧ key a = k ∧ key b = k := by
  rw [List.count, List.countP_map, List.countP_eq_length_filter] at h
  have hsub : ∀ a ∈ l.filter ((· == k) ∘ key), a ∈ l ∧ key a = k := by
    intro a ha
    simpa using ha
  have hfilter := hnodup.filter ((· == k) ∘ key)
  match hl : l.filter ((· == k) ∘ key) with
  | [] =>
    rw [hl] at h
    cases h
  | [a] =>
    rw [hl] at h
    exact absurd h (Nat.lt_irrefl _)
  | a :: b :: rest =>
    rw [hl] at hsub hfilter
    obtain ⟨ha, hka⟩ := hsub a List.mem_cons_self
    obtain ⟨hb, hkb⟩ := hsub b (List.mem_cons_of_mem _ List.mem_cons_self)
    refine ⟨a, ha, b, hb, ?_, hka, hkb⟩
    rintro rfl
    exact (List.nodup_cons.mp hfilter).1 List.mem_cons_self

/-- The elements that share their key with others, numbered in their order after those
already seen. -/
def numberFrom (key : α → κ) (all : List α) : List α → List α → List (α × Option ℕ)
  | _, [] => []
  | seen, a :: l =>
    (a, if 1 < (all.map key).count (key a) then some ((seen.map key).count (key a) + 1) else none) ::
      numberFrom key all (seen ++ [a]) l

def numbered (key : α → κ) (l : List α) : List (α × Option ℕ) := numberFrom key l [] l

theorem map_fst_numberFrom (all seen l : List α) :
    (numberFrom key all seen l).map Prod.fst = l := by
  induction l generalizing seen with
  | nil => rfl
  | cons a l ih => rw [numberFrom, List.map_cons, ih]

theorem lt_of_mem_numberFrom {all seen : List α} {p : α × Option ℕ}
    (h : p ∈ numberFrom key all seen l) (hcount : 1 < (all.map key).count (key p.1)) :
    ∃ n, p.2 = some n ∧ (seen.map key).count (key p.1) < n := by
  induction l generalizing seen with
  | nil => cases h
  | cons a l ih =>
    rcases List.mem_cons.mp h with rfl | h
    · exact ⟨_, if_pos hcount, Nat.lt_succ_self _⟩
    · obtain ⟨n, hn, hlt⟩ := ih h
      rw [List.map_append, List.count_append] at hlt
      exact ⟨n, hn, by omega⟩

/-- Keys and numbers together tell the elements apart. -/
theorem nodup_numberFrom {seen : List α} :
    ((numberFrom key (seen ++ l) seen l).map fun p => (key p.1, p.2)).Nodup := by
  have main : ∀ all, all = seen ++ l →
      ((numberFrom key all seen l).map fun p => (key p.1, p.2)).Nodup := by
    intro all hall
    induction l generalizing seen with
    | nil => exact List.nodup_nil
    | cons a l ih =>
      rw [numberFrom, List.map_cons, List.nodup_cons]
      constructor
      · intro hmem
        obtain ⟨p, hp, heq⟩ := List.mem_map.mp hmem
        obtain ⟨hkey, hnumber⟩ := Prod.mk.inj heq
        have hpl : p.1 ∈ l := by
          rw [← @map_fst_numberFrom _ _ _ key all (seen ++ [a]) l]
          exact List.mem_map_of_mem hp
        have hcount : 1 < (all.map key).count (key a) := by
          have htail : 0 < (l.map key).count (key a) :=
            List.count_pos_iff.mpr (hkey ▸ List.mem_map_of_mem hpl)
          rw [hall, List.map_append, List.map_cons, List.count_append, List.count_cons_self]
          omega
        obtain ⟨n, hn, hlt⟩ := lt_of_mem_numberFrom hp (hkey ▸ hcount)
        dsimp only at hkey hnumber
        rw [if_pos hcount, hn] at hnumber
        rw [hkey, List.map_append, List.count_append, List.map_singleton,
          List.count_singleton_self] at hlt
        have := Option.some.inj hnumber
        omega
      · exact ih (by rw [hall, List.append_assoc, List.singleton_append])
  exact main _ rfl

theorem map_fst_numbered (l : List α) : (numbered key l).map Prod.fst = l :=
  map_fst_numberFrom l [] l

theorem nodup_numbered (l : List α) :
    ((numbered key l).map fun p => (key p.1, p.2)).Nodup :=
  @nodup_numberFrom _ _ _ key l []

omit [DecidableEq κ] in
theorem map_filterMap_of_some {β γ : Type*} {f : α → Option β} {g : β → γ} {k : α → γ}
    (h : ∀ a ∈ l, ∃ b, f a = some b ∧ g b = k a) : (l.filterMap f).map g = l.map k := by
  induction l with
  | nil => rfl
  | cons a l ih =>
    obtain ⟨b, hb, hkey⟩ := h a List.mem_cons_self
    rw [List.filterMap_cons_some hb, List.map_cons, List.map_cons, hkey,
      ih fun c hc => h c (List.mem_cons_of_mem a hc)]

/-- The group of one member among lists whose elements carry the key of their member. -/
theorem filter_flatMap_of_key {β : Type*} {f : α → List β} {keyOf : β → κ}
    (hkey : ∀ a, ∀ b ∈ f a, keyOf b = key a) (hnodup : (l.map key).Nodup) {a : α} (ha : a ∈ l) :
    (l.flatMap f).filter (fun b => decide (keyOf b = key a)) = f a := by
  have hself : (f a).filter (fun b => decide (keyOf b = key a)) = f a :=
    List.filter_eq_self.mpr fun b hb => decide_eq_true (hkey a b hb)
  have hother : ∀ m : List α, key a ∉ m.map key →
      (m.flatMap f).filter (fun b => decide (keyOf b = key a)) = [] := by
    intro m hm
    rw [List.filter_eq_nil_iff]
    intro b hb heq
    obtain ⟨c, hc, hbc⟩ := List.mem_flatMap.mp hb
    have hsame : key c = key a := (hkey c b hbc).symm.trans (of_decide_eq_true heq)
    exact hm (hsame ▸ List.mem_map_of_mem hc)
  obtain ⟨before, after, rfl⟩ := List.append_of_mem ha
  have hsplit := hnodup
  rw [List.map_append, List.map_cons, List.nodup_append] at hsplit
  obtain ⟨_, hcons, hdisjoint⟩ := hsplit
  have hbefore : key a ∉ before.map key := fun hmem =>
    hdisjoint _ hmem _ List.mem_cons_self rfl
  rw [List.flatMap_append, List.flatMap_cons, List.filter_append, List.filter_append, hself,
    hother before hbefore, hother after (List.nodup_cons.mp hcons).1, List.nil_append,
    List.append_nil]

end CodeResearch
