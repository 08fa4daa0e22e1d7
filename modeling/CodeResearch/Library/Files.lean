import Mathlib.Logic.Function.Basic

/-!
# File trees and the paths below a root

A path is the list of its names. A key is joined to a root name by name: empty
names and `.` are skipped, and `..` drops the last name. There are no symbolic
links. A tree holds the contents of its regular files only.
-/
namespace CodeResearch

abbrev Segment := List Char

abbrev Path := List Segment

/-- A name that a path can end with. -/
structure Segment.Plain (s : Segment) : Prop where
  separator : '/' ∉ s
  empty : s ≠ []
  dot : s ≠ ['.']
  dots : s ≠ ['.', '.']

namespace Path

def push (p : Path) (s : Segment) : Path :=
  if s = [] ∨ s = ['.'] then p else if s = ['.', '.'] then p.dropLast else p ++ [s]

def join (root : Path) (key : List Char) : Path := (key.splitOn '/').foldl push root

variable {s : Segment}

theorem push_plain (h : s.Plain) (p : Path) : p.push s = p ++ [s] := by
  rw [push, if_neg (by simp [h.empty, h.dot]), if_neg h.dots]

theorem join_plain (h : s.Plain) (root : Path) : join root s = root ++ [s] := by
  rw [join, List.splitOn_eq_singleton h.separator, List.foldl_cons, List.foldl_nil, push_plain h]

theorem join_append (root : Path) (directory : List Char) (h : s.Plain) :
    join root (directory ++ '/' :: s) = join root directory ++ [s] := by
  rw [join, join, List.splitOn_append_cons_self, List.foldl_append,
    List.splitOn_eq_singleton h.separator, List.foldl_cons, List.foldl_nil, push_plain h]

end Path

abbrev Files (β : Type*) := Path → Option β

namespace Files

variable {β : Type*}

def write (f : Files β) (p : Path) (b : β) : Files β := Function.update f p (some b)

def remove (f : Files β) (p : Path) : Files β := Function.update f p none

/-- `os.replace`. -/
def rename (f : Files β) (p q : Path) : Files β := Function.update (f.remove p) q (f p)

variable (f : Files β) {p q : Path} (b c : β)

@[simp] theorem write_self : f.write p b p = some b := Function.update_self ..

theorem write_of_ne (h : q ≠ p) : f.write p b q = f q := Function.update_of_ne h ..

@[simp] theorem remove_self : f.remove p p = none := Function.update_self ..

@[simp] theorem write_write : (f.write p b).write p c = f.write p c := Function.update_idem ..

theorem remove_write (h : f p = none) : (f.write p b).remove p = f := by
  rw [write, remove, Function.update_idem, ← h, Function.update_eq_self]

theorem remove_eq_self (h : f p = none) : f.remove p = f := by
  rw [remove, ← h, Function.update_eq_self]

theorem rename_write (h : f p = none) : (f.write p b).rename p q = f.write q b := by
  rw [rename, write_self, remove_write f b h]
  rfl

end Files

end CodeResearch
