import CodeResearch.Llm.Truncation

/-!
# What truncation keeps

A truncated payload has the containers of the input with texts cut to a prefix and lists cut
to a prefix, each with its marker, and with the protected fields as they were. The cuts that
break this are those of lists that were cut before, of lists and texts inside the protected
fields, and of items shorter than the marker that takes their place.
-/
namespace CodeResearch.Llm

open Json (Visit)

/-- The fields that are to stay as they are. -/
def protectedKeys : List String := "evidence_catalog" :: "instruction" :: identityKeys

mutual

/-- The second value is what truncation may leave of the first. -/
def Faithful : Json → Json → Prop
  | .text text, w => w = .text text ∨ ∃ keep < text.length, w = .text (truncateText text keep)
  | .list items, w => ∃ items', w = .list items' ∧ FaithfulItems items items'
  | .dict entries, w => ∃ entries', w = .dict entries' ∧ FaithfulEntries entries entries'
  | v, w => w = v

/-- The first items in their order, then one marker for the number of the others. -/
def FaithfulItems : List Json → List Json → Prop
  | [], items' => items' = []
  | item :: items, items' =>
    items' = [.text (itemsMarker (items.length + 1))] ∨
      ∃ item' rest, items' = item' :: rest ∧ Faithful item item' ∧ FaithfulItems items rest

def FaithfulEntries : List (String × Json) → List (String × Json) → Prop
  | [], entries' => entries' = []
  | (key, item) :: entries, entries' =>
    ∃ item' rest, entries' = (key, item') :: rest ∧
      (if key ∈ protectedKeys then item' = item else Faithful item item') ∧
      FaithfulEntries entries rest

end

mutual

theorem Faithful.refl (v : Json) : Faithful v v := by
  match v with
  | .text text => exact .inl rfl
  | .list items => exact ⟨items, rfl, FaithfulItems.refl items⟩
  | .dict entries => exact ⟨entries, rfl, FaithfulEntries.refl entries⟩
  | .null | .bool _ | .number _ => exact rfl

theorem FaithfulItems.refl (items : List Json) : FaithfulItems items items := by
  match items with
  | [] => exact rfl
  | item :: items => exact .inr ⟨item, items, rfl, Faithful.refl item, FaithfulItems.refl items⟩

theorem FaithfulEntries.refl (entries : List (String × Json)) :
    FaithfulEntries entries entries := by
  match entries with
  | [] => exact rfl
  | (key, item) :: entries =>
    refine ⟨item, entries, rfl, ?_, FaithfulEntries.refl entries⟩
    split_ifs
    · rfl
    · exact Faithful.refl item

end

variable {item' u v w : Json} {items items' : List Json} {n keep minimum : ℕ} {key text : String}
  {position : List ℕ} {visit : Visit} {replaced : List (List ℕ)}

theorem FaithfulItems.modify (h : FaithfulItems items items') (hitem' : items'[n]? = some item')
    {g : Json → Json}
    (hmarker : ∀ k, item' ≠ .text (itemsMarker k))
    (hstep : ∀ item, items[n]? = some item → Faithful item item' → Faithful item (g item')) :
    FaithfulItems items (items'.modify n g) := by
  induction items generalizing items' n with
  | nil =>
    obtain rfl : items' = [] := h
    cases hitem'
  | cons item items ih =>
    rcases h with rfl | ⟨first, rest, rfl, hfirst, hrest⟩
    · cases n with
      | zero => exact absurd (Option.some.inj hitem').symm (hmarker _)
      | succ n => cases hitem'
    · cases n with
      | zero =>
        obtain rfl := Option.some.inj hitem'
        exact .inr ⟨g first, rest, rfl, hstep item rfl hfirst, hrest⟩
      | succ n => exact .inr ⟨first, _, rfl, hfirst, ih hrest hitem' hstep⟩

theorem FaithfulEntries.modify {entries entries' : List (String × Json)}
    (h : FaithfulEntries entries entries')
    (hentry' : entries'[n]? = some (key, item')) (hkey : key ∉ protectedKeys) {g : Json → Json}
    (hstep : ∀ item, entries[n]? = some (key, item) → Faithful item item' →
      Faithful item (g item')) :
    FaithfulEntries entries (entries'.modify n fun entry => (entry.1, g entry.2)) := by
  induction entries generalizing entries' n with
  | nil =>
    obtain rfl : entries' = [] := h
    cases hentry'
  | cons entry entries ih =>
    obtain ⟨first, rest, rfl, hfirst, hrest⟩ := h
    cases n with
    | zero =>
      obtain ⟨rfl, rfl⟩ := Prod.mk.inj (Option.some.inj hentry')
      rw [if_neg hkey] at hfirst
      exact ⟨g first, rest, rfl, by rw [if_neg hkey]; exact hstep entry.2 rfl hfirst, hrest⟩
    | succ n => exact ⟨first, _, rfl, hfirst, ih hrest hentry' hstep⟩

theorem at?_text (h : (Json.text text).at? position = some u) : u = .text text := by
  cases position with
  | nil => exact (Option.some.inj h).symm
  | cons => cases h

/-- An item that is left is what truncation may leave of the item in its place, or the marker. -/
theorem FaithfulItems.exists_item (h : FaithfulItems items items')
    (hitem' : items'[n]? = some item') :
    (∃ k, item' = .text (itemsMarker k)) ∨
      ∃ item, items[n]? = some item ∧ Faithful item item' := by
  induction items generalizing items' n with
  | nil =>
    obtain rfl : items' = [] := h
    cases hitem'
  | cons item items ih =>
    rcases h with rfl | ⟨first, rest, rfl, hfirst, hrest⟩
    · cases n with
      | zero => exact .inl ⟨_, (Option.some.inj hitem').symm⟩
      | succ n => cases hitem'
    · cases n with
      | zero =>
        obtain rfl := Option.some.inj hitem'
        exact .inr ⟨item, rfl, hfirst⟩
      | succ n => exact ih hrest hitem'

theorem FaithfulEntries.exists_item {entries entries' : List (String × Json)}
    (h : FaithfulEntries entries entries')
    (hentry' : entries'[n]? = some (key, item')) :
    ∃ item, entries[n]? = some (key, item) ∧ Faithful item item' := by
  induction entries generalizing entries' n with
  | nil =>
    obtain rfl : entries' = [] := h
    cases hentry'
  | cons entry entries ih =>
    obtain ⟨first, rest, rfl, hfirst, hrest⟩ := h
    cases n with
    | zero =>
      obtain ⟨rfl, rfl⟩ := Prod.mk.inj (Option.some.inj hentry')
      refine ⟨entry.2, rfl, ?_⟩
      split_ifs at hfirst
      · exact hfirst ▸ Faithful.refl _
      · exact hfirst
    | succ n => exact ih hrest hentry'

theorem Faithful.of_list (h : Faithful v (.list items')) :
    ∃ items, v = .list items ∧ FaithfulItems items items' := by
  cases v with
  | list items =>
    obtain ⟨_, heq, hitems⟩ := h
    exact ⟨items, rfl, Json.list.inj heq ▸ hitems⟩
  | text => rcases h with h | ⟨_, _, h⟩ <;> cases h
  | dict => obtain ⟨_, h, -⟩ := h; cases h
  | _ => cases h

theorem Faithful.of_dict {entries' : List (String × Json)} (h : Faithful v (.dict entries')) :
    ∃ entries, v = .dict entries ∧ FaithfulEntries entries entries' := by
  cases v with
  | dict entries =>
    obtain ⟨_, heq, hentries⟩ := h
    exact ⟨entries, rfl, Json.dict.inj heq ▸ hentries⟩
  | text => rcases h with h | ⟨_, _, h⟩ <;> cases h
  | list => obtain ⟨_, h, -⟩ := h; cases h
  | _ => cases h

/-- The keys on the way to a position are the same in what truncation leaves. -/
theorem Faithful.keysAt_eq (h : Faithful v w)
    (hat : w.at? position = some u) : Json.keysAt position v = Json.keysAt position w := by
  induction position generalizing v w with
  | nil => rfl
  | cons n position ih =>
    cases w with
    | list items' =>
      obtain ⟨item', hitem', hat'⟩ := Option.bind_eq_some_iff.mp hat
      obtain ⟨items, rfl, hitems⟩ := h.of_list
      rw [Json.keysAt_list hitem']
      rcases hitems.exists_item hitem' with ⟨k, rfl⟩ | ⟨item, hitem, hfaithful⟩
      · cases position with
        | nil =>
          change Json.keysAt [n] (.list items) = []
          cases hitem : items[n]? with
          | none =>
            rw [Json.keysAt, hitem]
            rfl
          | some item =>
            rw [Json.keysAt_list hitem]
            rfl
        | cons => cases hat'
      · rw [Json.keysAt_list hitem]
        exact ih hfaithful hat'
    | dict entries' =>
      obtain ⟨⟨key, item'⟩, hentry', hat'⟩ := Option.bind_eq_some_iff.mp hat
      obtain ⟨entries, rfl, hentries⟩ := h.of_dict
      obtain ⟨item, hitem, hfaithful⟩ := hentries.exists_item hentry'
      rw [Json.keysAt_dict hentry', Json.keysAt_dict hitem, ih hfaithful hat']
    | _ => cases hat

/-- A change at a position outside the protected fields is faithful if it is so there. -/
theorem Faithful.modifyAt {f : Json → Json} (h : Faithful v w) (hat : w.at? position = some u)
    (hkeys : ∀ key ∈ Json.keysAt position w, key ∉ protectedKeys)
    (hmarker : ∀ k, u ≠ .text (itemsMarker k))
    (hstep : ∀ original, v.at? position = some original → Faithful original u →
      Faithful original (f u)) :
    Faithful v (Json.modifyAt f position w) := by
  induction position generalizing v w with
  | nil =>
    obtain rfl := Option.some.inj hat
    exact hstep v rfl h
  | cons n position ih =>
    cases w with
    | list items' =>
      obtain ⟨item', hitem', hat'⟩ := Option.bind_eq_some_iff.mp hat
      rw [Json.keysAt_list hitem'] at hkeys
      have hplain : ∀ k, item' ≠ .text (itemsMarker k) := by
        rintro k rfl
        exact hmarker k (at?_text hat')
      obtain ⟨items, rfl, hitems⟩ := h.of_list
      refine ⟨_, rfl, hitems.modify hitem' hplain fun item hitem hfaithful => ?_⟩
      apply ih hfaithful hat' hkeys
      exact fun original horiginal =>
        hstep original (Option.bind_eq_some_iff.mpr ⟨item, hitem, horiginal⟩)
    | dict entries' =>
      obtain ⟨⟨key, item'⟩, hentry', hat'⟩ := Option.bind_eq_some_iff.mp hat
      rw [Json.keysAt_dict hentry'] at hkeys
      obtain ⟨hkey, hrest⟩ := List.forall_mem_cons.mp hkeys
      obtain ⟨entries, rfl, hentries⟩ := h.of_dict
      refine ⟨_, rfl, hentries.modify hentry' hkey fun item hitem hfaithful => ?_⟩
      apply ih hfaithful hat' hrest
      exact fun original horiginal =>
        hstep original (Option.bind_eq_some_iff.mpr ⟨(key, item), hitem, horiginal⟩)
    | _ => cases hat

theorem length_truncationMarker : truncationMarker.length = 14 := by decide

theorem toList_truncateText (text : String) (keep : ℕ) :
    (truncateText text keep).toList = text.toList.take keep ++ truncationMarker.toList := by
  rw [truncateText, String.toList_append, String.toList_ofList]

theorem length_truncateText (text : String) (keep : ℕ) :
    (truncateText text keep).length = min keep text.length + truncationMarker.length := by
  rw [← String.length_toList, toList_truncateText, List.length_append, List.length_take,
    String.length_toList, String.length_toList]

/-- A text that is cut again is cut in the prefix that it has kept. -/
theorem Faithful.truncate (h : Faithful v (.text text))
    (hkeep : keep + truncationMarker.length < text.length) :
    Faithful v (.text (truncateText text keep)) := by
  cases v with
  | text original =>
    rcases h with heq | ⟨kept, hkept, heq⟩
    · obtain rfl := Json.text.inj heq
      exact .inr ⟨keep, by omega, rfl⟩
    · obtain rfl := Json.text.inj heq
      have hlength : keep < kept := by
        rw [length_truncateText] at hkeep
        omega
      refine .inr ⟨keep, hlength.trans hkept, ?_⟩
      rw [truncateText, toList_truncateText, List.take_append_of_le_length, List.take_take,
        min_eq_left hlength.le]
      · rfl
      · rw [List.length_take, String.length_toList]
        omega
  | list | dict => obtain ⟨_, h, -⟩ := h; cases h
  | _ => cases h

/-- A list with as many items as the original is cut with the right number. -/
theorem FaithfulItems.take (h : FaithfulItems items items')
    (hlength : items.length = items'.length) (hn : n < items'.length) :
    FaithfulItems items (items'.take n ++ [.text (itemsMarker (items'.length - n))]) := by
  induction items generalizing items' n with
  | nil =>
    obtain rfl : items' = [] := h
    cases hn
  | cons item items ih =>
    cases n with
    | zero => exact .inl (by rw [← hlength]; rfl)
    | succ n =>
      rcases h with rfl | ⟨first, rest, rfl, hfirst, hrest⟩
      · exact absurd hn (by simp)
      · refine .inr ⟨first, rest.take n ++ [.text (itemsMarker (rest.length - n))], ?_, hfirst,
          ih hrest (Nat.succ.inj hlength) (Nat.lt_of_succ_lt_succ hn)⟩
        rw [List.take_succ_cons, List.length_cons, Nat.add_sub_add_right]
        rfl

theorem keptLength_lt (h : 1 < items.length) : keptLength items < items.length := by
  unfold keptLength
  omega

theorem itemsSize_modify {item : Json} (h : items[n]? = some item)
    (g : Json → Json) : itemsSize (items.modify n g) + serializedSize item =
      itemsSize items + serializedSize (g item) := by
  induction items generalizing n with
  | nil => cases h
  | cons first items ih =>
    cases n with
    | zero =>
      obtain rfl := Option.some.inj h
      rw [List.modify_zero_cons, itemsSize, itemsSize]
      omega
    | succ n =>
      have := ih h
      rw [List.modify_succ_cons, itemsSize, itemsSize]
      omega

theorem entriesSize_modify {entries : List (String × Json)} {item : Json}
    (h : entries[n]? = some (key, item)) (g : Json → Json) :
    entriesSize (entries.modify n fun entry => (entry.1, g entry.2)) + serializedSize item =
      entriesSize entries + serializedSize (g item) := by
  induction entries generalizing n with
  | nil => cases h
  | cons first entries ih =>
    cases n with
    | zero =>
      obtain rfl := Option.some.inj h
      rw [List.modify_zero_cons, entriesSize, entriesSize]
      dsimp only
      omega
    | succ n =>
      have := ih h
      rw [List.modify_succ_cons, entriesSize, entriesSize]
      omega

/-- The whole does not grow if the part that is changed does not. -/
theorem serializedSize_modifyAt_le {f : Json → Json}
    (hat : w.at? position = some u) (hsize : serializedSize (f u) ≤ serializedSize u) :
    serializedSize (Json.modifyAt f position w) ≤ serializedSize w := by
  induction position generalizing w with
  | nil =>
    obtain rfl := Option.some.inj hat
    exact hsize
  | cons n position ih =>
    cases w with
    | list items =>
      obtain ⟨item, hitem, hat'⟩ := Option.bind_eq_some_iff.mp hat
      have := itemsSize_modify hitem (Json.modifyAt f position)
      have := ih hat'
      rw [Json.modifyAt, serializedSize, serializedSize, List.length_modify]
      omega
    | dict entries =>
      obtain ⟨⟨key, item⟩, hentry, hat'⟩ := Option.bind_eq_some_iff.mp hat
      have := entriesSize_modify hentry (Json.modifyAt f position)
      have := ih hat'
      rw [Json.modifyAt, serializedSize, serializedSize, List.length_modify]
      dsimp only at *
      omega
    | _ => cases hat

theorem one_le_escapedLength (c : Char) : 1 ≤ escapedLength c := by
  unfold escapedLength
  split_ifs <;> decide

theorem length_le_escaped (chars : List Char) : chars.length ≤ (chars.map escapedLength).sum := by
  induction chars with
  | nil => exact le_rfl
  | cons c chars ih =>
    have := one_le_escapedLength c
    rw [List.map_cons, List.sum_cons, List.length_cons]
    omega

/-- A text that is cut is shorter by more than its marker. -/
theorem textSize_truncateText_le (hkeep : keep + truncationMarker.length < text.length) :
    textSize (truncateText text keep) ≤ textSize text := by
  have hmarker : (truncationMarker.toList.map escapedLength).sum = truncationMarker.length := by
    decide
  have hdropped := length_le_escaped (text.toList.drop keep)
  rw [List.length_drop, String.length_toList] at hdropped
  have hsplit : (text.toList.map escapedLength).sum =
      ((text.toList.take keep).map escapedLength).sum +
        ((text.toList.drop keep).map escapedLength).sum := by
    rw [← List.sum_append, ← List.map_append, List.take_append_drop]
  rw [textSize, textSize, toList_truncateText, List.map_append, List.sum_append, hmarker, hsplit]
  omega

theorem textCut_lt {maxChars : ℤ} {payload : Json}
    (hsize : ¬ (serializedSize payload : ℤ) ≤ maxChars)
    (h : textCut maxChars minimum payload text = some keep) :
    keep + truncationMarker.length < text.length := by
  unfold textCut at h
  dsimp only at h
  split_ifs at h with hshort
  obtain rfl := Option.some.inj h
  rw [length_truncationMarker] at hshort ⊢
  unfold keepLength
  rw [length_truncationMarker]
  omega

/-- The text is not below an identity field or the instruction, and is no list marker. -/
structure SafeText (visit : Visit) (text : String) : Prop where
  outside : ∀ key ∈ visit.path.dropLast, key ∉ "instruction" :: identityKeys
  plain : ∀ n, text ≠ itemsMarker n

/-- The list is not in an identity field or the instruction, it has as many items as in the
input, and the items that it loses are no shorter than the marker. -/
structure SafeList (value : Json) (visit : Visit) (items : List Json) : Prop where
  outside : ∀ key ∈ visit.path, key ∉ "instruction" :: identityKeys
  whole : ∀ original, value.at? visit.position = some (.list original) →
    original.length = items.length
  shorter : serializedSize (.list (cutItems items)) ≤ serializedSize (.list items)

/-- Every cut that `shrinkTexts` makes is safe. -/
def SafeTexts (maxChars : ℤ) (minimum : ℕ) : List (Visit × String) → Json → Prop
  | [], _ => True
  | (visit, text) :: candidates, payload =>
    serializedSize payload ≤ maxChars ∨
      match textCut maxChars minimum payload text with
      | none => SafeTexts maxChars minimum candidates payload
      | some keep => SafeText visit text ∧
          SafeTexts maxChars minimum candidates (writeText text keep visit.position payload)

/-- Every cut that `shrinkLists` makes is safe. -/
def SafeLists (value : Json) (maxChars : ℤ) : List Visit → List (List ℕ) → Json → Prop
  | [], _, _ => True
  | visit :: candidates, replaced, payload =>
    serializedSize payload ≤ maxChars ∨
      match listCut payload replaced visit.position with
      | none => SafeLists value maxChars candidates replaced payload
      | some items => SafeList value visit items ∧
          SafeLists value maxChars candidates (visit.position :: replaced)
            (writeList items visit.position payload)

/-- Every cut of the four passes is safe. -/
def SafeRun (value : Json) (maxChars : ℤ) : Prop :=
  let first := shrinkMatchingStrings value maxChars (some priorityTextKeys) 0
  let second := shrinkMatchingLists first maxChars (some priorityListKeys)
  let third := shrinkMatchingLists second maxChars none
  SafeTexts maxChars 0 (textCandidates (some priorityTextKeys) value) value ∧
    SafeLists value maxChars (listCandidates (some priorityListKeys) first) [] first ∧
    SafeLists value maxChars (listCandidates none second) [] second ∧
    SafeTexts maxChars 48 (textCandidates none third) third

/-- What a pass keeps of the input. -/
structure Kept (value before after : Json) : Prop where
  faithful : Faithful value after
  size : serializedSize after ≤ serializedSize before

variable {value payload : Json} {maxChars : ℤ} {candidates : List (Visit × String)}

theorem Kept.trans {before after last : Json} (h : Kept value before after)
    (h' : Kept value after last) : Kept value before last :=
  ⟨h'.faithful, h'.size.trans h.size⟩

def Located (value : Json) (visit : Visit) : Prop :=
  ∀ key ∈ Json.keysAt visit.position value, key ∈ visit.path

theorem located_of_mem_visits (h : Faithful value payload)
    (hvisit : visit ∈ payload.visits) : Located value visit := by
  intro key hkey
  rw [h.keysAt_eq (Json.at?_of_mem_visits hvisit)] at hkey
  exact Json.mem_path_of_mem_keysAt hvisit hkey

theorem mem_textCandidates {keys : Option (List String)} {candidate : Visit × String}
    (h : candidate ∈ textCandidates keys payload) : candidate.1 ∈ payload.visits ∧
      candidate.1.item = .text candidate.2 ∧ ¬ Protected candidate.1.path := by
  obtain ⟨visit, hvisit, heq⟩ := List.mem_filterMap.mp (mem_sortedBy.mp h)
  unfold textCandidate at heq
  split at heq
  · rename_i text hitem
    split_ifs at heq with hkeys
    obtain rfl := Option.some.inj heq
    exact ⟨hvisit, hitem, hkeys.1⟩
  · cases heq

theorem filterMap_sublist_map {α β : Type} {f : α → Option β} {g : α → β}
    (h : ∀ a b, f a = some b → b = g a) (l : List α) : (l.filterMap f).Sublist (l.map g) := by
  induction l with
  | nil => exact List.Sublist.refl _
  | cons a l ih =>
    cases hf : f a with
    | none =>
      rw [List.filterMap_cons_none hf]
      exact ih.cons _
    | some b =>
      rw [List.filterMap_cons_some hf, h a b hf]
      exact ih.cons_cons _

theorem nodup_textCandidates (keys : Option (List String)) (payload : Json) :
    ((textCandidates keys payload).map fun candidate => candidate.1.position).Nodup := by
  have hperm : ((textCandidates keys payload).map fun candidate => candidate.1.position).Perm
      ((payload.visits.filterMap (textCandidate keys)).map fun candidate => candidate.1.position) :=
    (perm_sortedBy _).map _
  refine hperm.nodup_iff.mpr ((Json.nodup_positions payload).sublist ?_)
  rw [List.map_filterMap]
  apply filterMap_sublist_map
  intro visit position h
  obtain ⟨candidate, hcandidate, rfl⟩ := Option.map_eq_some_iff.mp h
  unfold textCandidate at hcandidate
  split at hcandidate
  · split_ifs at hcandidate
    obtain rfl := Option.some.inj hcandidate
    rfl
  · cases hcandidate

theorem SafeText.keys (h : SafeText visit text)
    (hlocated : Located value visit) (hplace : ¬ Protected visit.path) :
    ∀ key ∈ Json.keysAt visit.position value, key ∉ protectedKeys := by
  intro key hkey hprotected
  have hpath := hlocated key hkey
  rcases List.mem_cons.mp hprotected with rfl | hprotected
  · exact hplace (.inl hpath)
  · have hne : visit.path ≠ [] := List.ne_nil_of_mem hpath
    rw [← List.dropLast_append_getLast hne] at hpath
    rcases List.mem_append.mp hpath with hpath | hlast
    · exact h.outside key hpath hprotected
    · obtain rfl := List.mem_singleton.mp hlast
      exact hplace (.inr ⟨_, List.getLast?_eq_some_getLast hne, hprotected⟩)

theorem SafeText.kept (h : SafeText visit text)
    (hfaithful : Faithful value payload) (hat : payload.at? visit.position = some (.text text))
    (hkeys : ∀ key ∈ Json.keysAt visit.position value, key ∉ protectedKeys)
    (hkeep : keep + truncationMarker.length < text.length) :
    Kept value payload (writeText text keep visit.position payload) := by
  constructor
  · rw [hfaithful.keysAt_eq hat] at hkeys
    apply hfaithful.modifyAt hat hkeys
    · intro n heq
      exact h.plain n (Json.text.inj heq)
    · exact fun original _ horiginal => horiginal.truncate hkeep
  · apply serializedSize_modifyAt_le hat
    rw [serializedSize, serializedSize]
    exact textSize_truncateText_le hkeep

theorem shrinkTexts_kept (hfaithful : Faithful value payload)
    (hnodup : (candidates.map fun candidate => candidate.1.position).Nodup)
    (hcandidates : ∀ candidate ∈ candidates,
      payload.at? candidate.1.position = some (.text candidate.2) ∧
        Located value candidate.1 ∧ ¬ Protected candidate.1.path)
    (hsafe : SafeTexts maxChars minimum candidates payload) :
    Kept value payload (shrinkTexts maxChars minimum candidates payload) := by
  induction candidates generalizing payload with
  | nil => exact ⟨hfaithful, le_rfl⟩
  | cons candidate candidates ih =>
    obtain ⟨visit, text⟩ := candidate
    obtain ⟨⟨hat, hlocated, hplace⟩, hrest⟩ := List.forall_mem_cons.mp hcandidates
    obtain ⟨hfresh, hnodup⟩ := List.nodup_cons.mp hnodup
    unfold shrinkTexts
    split_ifs with hfits
    · exact ⟨hfaithful, le_rfl⟩
    · have hsafe := hsafe.resolve_left hfits
      cases hcut : textCut maxChars minimum payload text with
      | none =>
        rw [hcut] at hsafe
        exact ih hfaithful hnodup hrest hsafe
      | some keep =>
        rw [hcut] at hsafe
        have hkept := hsafe.1.kept hfaithful hat (hsafe.1.keys hlocated hplace)
          (textCut_lt hfits hcut)
        refine hkept.trans (ih hkept.faithful hnodup ?_ hsafe.2)
        intro other hother
        obtain ⟨hat', hplaced⟩ := hrest other hother
        refine ⟨Json.at?_modifyAt_of_ne _ hat hat' ?_, hplaced⟩
        intro heq
        exact hfresh (List.mem_map.mpr ⟨other, hother, heq.symm⟩)

theorem shrinkMatchingStrings_kept (hfaithful : Faithful value payload)
    {keys : Option (List String)}
    (hsafe : SafeTexts maxChars minimum (textCandidates keys payload) payload) :
    Kept value payload (shrinkMatchingStrings payload maxChars keys minimum) := by
  refine shrinkTexts_kept hfaithful (nodup_textCandidates keys payload) ?_ hsafe
  intro candidate hcandidate
  obtain ⟨hvisit, hitem, hplace⟩ := mem_textCandidates hcandidate
  exact ⟨hitem ▸ Json.at?_of_mem_visits hvisit, located_of_mem_visits hfaithful hvisit, hplace⟩

theorem at?_of_listCut (h : listCut payload replaced position = some items) :
    payload.at? position = some (.list items) ∧ 1 < items.length := by
  unfold listCut at h
  split_ifs at h
  obtain ⟨hbind, hlength⟩ := Option.filter_eq_some_iff.mp h
  obtain ⟨item, hat, hlist⟩ := Option.bind_eq_some_iff.mp hbind
  refine ⟨?_, of_decide_eq_true hlength⟩
  cases item with
  | list found =>
    obtain rfl := Option.some.inj hlist
    exact hat
  | _ => cases hlist

theorem SafeList.kept (h : SafeList value visit items)
    (hfaithful : Faithful value payload) (hat : payload.at? visit.position = some (.list items))
    (hlocated : Located value visit) (hplace : "evidence_catalog" ∉ visit.path)
    (hlength : 1 < items.length) :
    Kept value payload (writeList items visit.position payload) := by
  constructor
  · apply hfaithful.modifyAt hat
    · intro key hkey hprotected
      rw [← hfaithful.keysAt_eq hat] at hkey
      have hpath := hlocated key hkey
      rcases List.mem_cons.mp hprotected with rfl | hprotected
      · exact hplace hpath
      · exact h.outside key hpath hprotected
    · intro n heq
      cases heq
    · intro original horiginal hlist
      cases original with
      | list original =>
        obtain ⟨_, heq, hitems⟩ := hlist
        obtain rfl := Json.list.inj heq
        have hwhole := h.whole original horiginal
        exact ⟨_, rfl, hitems.take hwhole (keptLength_lt hlength)⟩
      | text => rcases hlist with hlist | ⟨_, _, hlist⟩ <;> cases hlist
      | dict => obtain ⟨_, hlist, -⟩ := hlist; cases hlist
      | _ => cases hlist
  · exact serializedSize_modifyAt_le hat h.shorter

theorem shrinkLists_kept {candidates : List Visit} (hfaithful : Faithful value payload)
    (hcandidates : ∀ visit ∈ candidates,
      Located value visit ∧ "evidence_catalog" ∉ visit.path)
    (hsafe : SafeLists value maxChars candidates replaced payload) :
    Kept value payload (shrinkLists maxChars candidates replaced payload) := by
  induction candidates generalizing payload replaced with
  | nil => exact ⟨hfaithful, le_rfl⟩
  | cons visit candidates ih =>
    obtain ⟨⟨hlocated, hplace⟩, hrest⟩ := List.forall_mem_cons.mp hcandidates
    unfold shrinkLists
    split_ifs with hfits
    · exact ⟨hfaithful, le_rfl⟩
    · have hsafe := hsafe.resolve_left hfits
      cases hcut : listCut payload replaced visit.position with
      | none =>
        rw [hcut] at hsafe
        exact ih hfaithful hrest hsafe
      | some items =>
        rw [hcut] at hsafe
        obtain ⟨hat, hlength⟩ := at?_of_listCut hcut
        have hkept := hsafe.1.kept hfaithful hat hlocated hplace hlength
        exact hkept.trans (ih hkept.faithful hrest hsafe.2)

theorem shrinkMatchingLists_kept (hfaithful : Faithful value payload)
    {keys : Option (List String)}
    (hsafe : SafeLists value maxChars (listCandidates keys payload) [] payload) :
    Kept value payload (shrinkMatchingLists payload maxChars keys) := by
  refine shrinkLists_kept hfaithful ?_ hsafe
  intro visit hvisit
  obtain ⟨hvisit, hcandidate⟩ := List.mem_filter.mp (mem_sortedBy.mp hvisit)
  have hplace := of_decide_eq_true (Bool.and_eq_true_iff.mp hcandidate).2
  exact ⟨located_of_mem_visits hfaithful hvisit, hplace.1⟩

theorem truncatePayload_reported (value : Json) (maxChars : ℤ) :
    (truncatePayload value maxChars).2 = true ↔ maxChars < serializedSize value := by
  unfold truncatePayload
  split_ifs with hfits
  · simpa using hfits
  · simpa using hfits

def sourcePayload : Json :=
  .dict [("file_path", .text "a.py"), ("source", .text "def forward(self, x): return self.layer(x)")]

theorem safeTexts_of_fits (h : (serializedSize payload : ℤ) ≤ maxChars) :
    SafeTexts maxChars minimum candidates payload := by
  cases candidates with
  | nil => exact trivial
  | cons => exact .inl h

theorem safeLists_of_fits {candidates : List Visit} (h : (serializedSize payload : ℤ) ≤ maxChars) :
    SafeLists value maxChars candidates replaced payload := by
  cases candidates with
  | nil => exact trivial
  | cons => exact .inl h

theorem shrinkMatchingLists_of_fits {keys : Option (List String)}
    (h : (serializedSize payload : ℤ) ≤ maxChars) :
    shrinkMatchingLists payload maxChars keys = payload := by
  unfold shrinkMatchingLists
  cases listCandidates keys payload with
  | nil => rfl
  | cons => exact if_pos h

theorem safeRun_of_texts (hsafe : SafeTexts maxChars 0
      (textCandidates (some priorityTextKeys) value) value)
    (hfits : (serializedSize (shrinkMatchingStrings value maxChars (some priorityTextKeys) 0) : ℤ) ≤
      maxChars) : SafeRun value maxChars := by
  unfold SafeRun
  dsimp only
  rw [shrinkMatchingLists_of_fits hfits, shrinkMatchingLists_of_fits hfits]
  exact ⟨hsafe, safeLists_of_fits hfits, safeLists_of_fits hfits, safeTexts_of_fits hfits⟩

theorem head?_toList_append {a : String} {c : Char} (h : a.toList.head? = some c) (b b' : String) :
    (a ++ b ++ b').toList.head? = some c := by
  rw [String.toList_append, String.toList_append, List.head?_append, List.head?_append, h,
    Option.some_or, Option.some_or]

theorem ne_itemsMarker (h : text.toList.head? ≠ some '[') (n : ℕ) : text ≠ itemsMarker n := by
  intro heq
  apply h
  rw [heq]
  exact head?_toList_append (by decide) _ _

theorem safeRun_sourcePayload : SafeRun sourcePayload 60 := by
  have hcandidates : textCandidates (some priorityTextKeys) sourcePayload =
      [(⟨["source"], [1], .text "def forward(self, x): return self.layer(x)"⟩,
        "def forward(self, x): return self.layer(x)")] := by rfl
  have hcut : textCut 60 0 sourcePayload "def forward(self, x): return self.layer(x)" = some 6 := by
    decide +kernel
  apply safeRun_of_texts
  · rw [hcandidates]
    refine .inr ?_
    rw [hcut]
    exact ⟨⟨by decide, ne_itemsMarker (by decide)⟩, trivial⟩
  · decide +kernel

def importsPayload : Json :=
  .dict [("evidence_catalog", .list (List.replicate 60 (.text "src/app/model.py"))),
    ("imports", .list [.text "os", .text "re", .text "json", .text "sys"])]

end CodeResearch.Llm
