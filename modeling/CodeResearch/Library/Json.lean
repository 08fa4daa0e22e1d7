import Mathlib.Data.List.Basic

/-!
# JSON values

A dictionary is its list of entries in order. Reading a value as a text or as a list of
texts fails on any other value.
-/
namespace CodeResearch

inductive Json
  | null
  | bool (value : Bool)
  | number (literal : String)
  | text (value : String)
  | list (items : List Json)
  | dict (entries : List (String × Json))

namespace Json

def asText : Json → Option String
  | text value => some value
  | _ => none

def asList : Json → Option (List Json)
  | list items => some items
  | _ => none

def asTexts (value : Json) : Option (List String) := value.asList.bind fun items => items.mapM asText

theorem eq_of_asTexts {value : Json} {texts : List String} (h : value.asTexts = some texts) :
    value = .list (texts.map text) := by
  obtain ⟨items, hlist, hitems⟩ := Option.bind_eq_some_iff.mp h
  cases value with
  | list found =>
    obtain rfl := Option.some.inj hlist
    apply congrArg Json.list
    clear h hlist
    induction found generalizing texts with
    | nil =>
      obtain rfl := Option.some.inj hitems
      rfl
    | cons item found ih =>
      rw [List.mapM_cons] at hitems
      obtain ⟨first, hfirst, hrest⟩ := Option.bind_eq_some_iff.mp hitems
      obtain ⟨rest, hmap, hpure⟩ := Option.bind_eq_some_iff.mp hrest
      obtain rfl := Option.some.inj hpure
      cases item with
      | text value =>
        obtain rfl := Option.some.inj hfirst
        exact congrArg (Json.text value :: ·) (ih hmap)
      | _ => cases hfirst
  | _ => cases hlist

def entriesWithin (keys : List String) : Json → Option (List (String × Json))
  | dict entries => if ∀ entry ∈ entries, entry.1 ∈ keys then some entries else none
  | _ => none

def field (name : String) (entries : List (String × Json)) : Option Json :=
  (entries.find? fun entry => entry.1 = name).map Prod.snd

def textField (name : String) (entries : List (String × Json)) : Option String :=
  (field name entries).bind asText

def textsField (name : String) (entries : List (String × Json)) : Option (List String) :=
  match field name entries with
  | none => some []
  | some value => value.asTexts

end Json
end CodeResearch
