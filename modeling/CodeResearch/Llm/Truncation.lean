import CodeResearch.Library.JsonTree
import CodeResearch.Library.Ranking
import Mathlib

/-!
# Truncation of payloads

`truncate_payload` shortens a payload in place until its serialization fits. Four passes
collect their candidates first and then write into the containers that hold them: the texts
of some keys, the lists of some keys, all lists, all texts. A list that was replaced is no
longer part of the payload, so that later writes into it are lost.
-/
namespace CodeResearch.Llm

open Json (Visit)

def truncationMarker : String := "...[TRUNCATED]"

def identityKeys : List String := ["file_path", "qualified_name", "class_name", "contribution_id"]

def priorityTextKeys : List String :=
  ["source", "source_code", "docstring", "paper_text", "paper_content", "raw_text", "full_text",
    "body_text", "abstract", "description"]

def priorityListKeys : List String :=
  ["model_context", "imports", "classes", "functions", "layers", "forward_steps", "targets",
    "implementation_logic", "computation_logic", "library_calls", "called_internal_functions"]

/-- The characters that a character takes in a JSON text: the control characters with a short
escape, the quote and the backslash take two, other control characters six. -/
def escapedLength (c : Char) : ℕ :=
  if c.toNat ∈ [8, 9, 10, 12, 13, 34, 92] then 2 else if c.toNat < 32 then 6 else 1

def textSize (text : String) : ℕ := (text.toList.map escapedLength).sum + 2

mutual

/-- `_serialized_size`, the length of the compact JSON text. -/
def serializedSize : Json → ℕ
  | .null => 4
  | .bool value => if value then 4 else 5
  | .number literal => literal.length
  | .text value => textSize value
  | .list items => itemsSize items + (items.length - 1) + 2
  | .dict entries => entriesSize entries + (entries.length - 1) + 2

def itemsSize : List Json → ℕ
  | [] => 0
  | item :: items => serializedSize item + itemsSize items

def entriesSize : List (String × Json) → ℕ
  | [] => 0
  | (key, item) :: entries => textSize key + 1 + serializedSize item + entriesSize entries

end

/-- `_protected`. -/
def Protected (path : List String) : Prop :=
  "evidence_catalog" ∈ path ∨ ∃ name ∈ path.getLast?, name ∈ "instruction" :: identityKeys

instance (path : List String) : Decidable (Protected path) :=
  inferInstanceAs (Decidable (_ ∨ _))

def KeyIn (keys : Option (List String)) (path : List String) : Prop :=
  ∀ allowed ∈ keys, ∃ name ∈ path.getLast?, name ∈ allowed

instance (keys : Option (List String)) (path : List String) : Decidable (KeyIn keys path) :=
  inferInstanceAs (Decidable (∀ _ ∈ _, _))

/-- The text of a candidate of `_shrink_matching_strings`. -/
def textCandidate (keys : Option (List String)) (visit : Visit) : Option (Visit × String) :=
  match visit.item with
  | .text text => if ¬ Protected visit.path ∧ KeyIn keys visit.path then some (visit, text) else none
  | _ => none

/-- The candidates of `_shrink_matching_strings`, the longest first. -/
def textCandidates (keys : Option (List String)) (payload : Json) : List (Visit × String) :=
  sortedBy (fun candidate => OrderDual.toDual candidate.2.length)
    (payload.visits.filterMap (textCandidate keys))

/-- `len(text) - excess - len(TRUNCATION_MARKER) - 8`, with the minimum. -/
def keepLength (maxChars : ℤ) (minimum : ℕ) (size : ℕ) (text : String) : ℕ :=
  (max (minimum : ℤ) (text.length - (size - maxChars) - truncationMarker.length - 8)).toNat

def truncateText (text : String) (keep : ℕ) : String :=
  String.ofList (text.toList.take keep) ++ truncationMarker

def textCut (maxChars : ℤ) (minimum : ℕ) (payload : Json) (text : String) : Option ℕ :=
  if text.length ≤ minimum + truncationMarker.length then none
  else
    let keep := keepLength maxChars minimum (serializedSize payload) text
    if text.length ≤ keep then none else some keep

def writeText (text : String) (keep : ℕ) (position : List ℕ) (payload : Json) : Json :=
  Json.modifyAt (fun _ => .text (truncateText text keep)) position payload

/-- The loop of `_shrink_matching_strings`. -/
def shrinkTexts (maxChars : ℤ) (minimum : ℕ) : List (Visit × String) → Json → Json
  | [], payload => payload
  | (visit, text) :: candidates, payload =>
    if serializedSize payload ≤ maxChars then payload
    else match textCut maxChars minimum payload text with
      | none => shrinkTexts maxChars minimum candidates payload
      | some keep =>
        shrinkTexts maxChars minimum candidates (writeText text keep visit.position payload)

/-- `_shrink_matching_strings`. -/
def shrinkMatchingStrings (payload : Json) (maxChars : ℤ) (keys : Option (List String))
    (minimum : ℕ) : Json :=
  shrinkTexts maxChars minimum (textCandidates keys payload) payload

/-- The candidates of `_shrink_matching_lists`, the largest first. -/
def listCandidates (keys : Option (List String)) (payload : Json) : List Visit :=
  sortedBy (fun visit => OrderDual.toDual (serializedSize visit.item))
    (payload.visits.filter fun visit => (match visit.item with | .list _ => true | _ => false) &&
      decide ("evidence_catalog" ∉ visit.path ∧ KeyIn keys visit.path))

def itemsMarker (omitted : ℕ) : String := "[TRUNCATED_ITEMS:" ++ toString omitted ++ "]"

def keptLength (items : List Json) : ℕ := max 1 (min 8 (items.length / 2))

/-- The list that takes the place of `items`. -/
def cutItems (items : List Json) : List Json :=
  items.take (keptLength items) ++ [.text (itemsMarker (items.length - keptLength items))]

def listCut (payload : Json) (replaced : List (List ℕ)) (position : List ℕ) :
    Option (List Json) :=
  if position.dropLast ∈ replaced then none
  else ((payload.at? position).bind Json.asList).filter fun items => 1 < items.length

def writeList (items : List Json) (position : List ℕ) (payload : Json) : Json :=
  Json.modifyAt (fun _ => .list (cutItems items)) position payload

/-- The loop of `_shrink_matching_lists`; `replaced` has the positions of the lists that this
pass has replaced. -/
def shrinkLists (maxChars : ℤ) : List Visit → List (List ℕ) → Json → Json
  | [], _, payload => payload
  | visit :: candidates, replaced, payload =>
    if serializedSize payload ≤ maxChars then payload
    else match listCut payload replaced visit.position with
      | none => shrinkLists maxChars candidates replaced payload
      | some items =>
        shrinkLists maxChars candidates (visit.position :: replaced)
          (writeList items visit.position payload)

/-- `_shrink_matching_lists`. -/
def shrinkMatchingLists (payload : Json) (maxChars : ℤ) (keys : Option (List String)) : Json :=
  shrinkLists maxChars (listCandidates keys payload) [] payload

/-- `truncate_payload`, the payload and whether the input was too long. -/
def truncatePayload (value : Json) (maxChars : ℤ) : Json × Bool :=
  if serializedSize value ≤ maxChars then (value, false)
  else
    let payload := shrinkMatchingStrings value maxChars (some priorityTextKeys) 0
    let payload := shrinkMatchingLists payload maxChars (some priorityListKeys)
    let payload := shrinkMatchingLists payload maxChars none
    let payload := shrinkMatchingStrings payload maxChars none 48
    (payload, true)

end CodeResearch.Llm
