import MiniProgram.Bundle.Index
import MiniProgram.Module

/-!
Bundles: the ordered set of modules a build works on, with the files emitted for the program as a
whole.

A bundle finds its modules through an index of their identifiers and carries the proof that the
index is right; so it holds at most one module for each identifier. `put` keeps the place of a
module it replaces and appends a new one; `remove?` keeps the order of the others. Emitted files are
listed by path, the last one emitted for a path being the one that counts.
-/

namespace MiniProgram

/-- An ordered set of modules, an index of it and the files emitted beside it. -/
structure Bundle where
  modules : List Module
  index : Index
  files : List Asset
  indexed : index.Indexes (modules.map (·.id))
deriving DecidableEq, Repr

namespace Bundle

/-- The bundle that holds nothing. -/
def empty : Bundle := ⟨[], [], [], Index.indexes_nil⟩

/-- The identifiers in bundle order. -/
def ids (b : Bundle) : List Text := b.modules.map (·.id)

/-- No two modules of a bundle share an identifier. -/
theorem nodup (b : Bundle) : (b.modules.map (·.id)).Nodup := b.indexed.nodup

/-- The number of modules. -/
def size (b : Bundle) : Nat := b.modules.length

/-- The module with the given identifier. -/
def get? (b : Bundle) (id : Text) : Option Module := do
  let i ← b.index.find? id
  b.modules[i]?

/-- Whether the bundle holds a module with the given identifier. -/
def has (b : Bundle) (id : Text) : Bool := (b.index.find? id).isSome

/-- The first module with the given output path. -/
def byPath? (b : Bundle) (path : Text) : Option Module := b.modules.find? (·.path = path)

/-- A module in the place of another with its identifier keeps the identifiers and their order. -/
theorem map_id_set {b : Bundle} {m : Module} {i : Nat} (h : b.index.find? m.id = some i) :
    (b.modules.set i m).map (·.id) = b.modules.map (·.id) := by
  obtain ⟨hi, hid⟩ := List.getElem?_eq_some_iff.1 ((b.indexed m.id i).1 h)
  rw [List.map_set, ← hid]
  exact List.set_getElem_self hi

/-- A module with a new identifier can stand at the end. -/
theorem indexes_append {b : Bundle} {m : Module} (h : b.index.find? m.id = none) :
    (b.index.set m.id b.modules.length).Indexes ((b.modules ++ [m]).map (·.id)) := by
  simpa using b.indexed.set_length (b.indexed.find?_eq_none_iff.1 h)

/-- Puts a module in the place of the one with its identifier, else at the end. -/
def put (b : Bundle) (m : Module) : Bundle :=
  match h : b.index.find? m.id with
  | some i => ⟨b.modules.set i m, b.index, b.files, map_id_set h ▸ b.indexed⟩
  | none => ⟨b.modules ++ [m], b.index.set m.id b.modules.length, b.files, indexes_append h⟩

/-- The bundle of some modules, put in order. -/
def ofModules (modules : List Module) : Bundle := modules.foldl put empty

/-- The index without an identifier, those behind it moved up by one place. -/
def closeGap (b : Bundle) (id : Text) (i : Nat) : Index :=
  (b.index.erase id).setFrom i (((b.modules.eraseIdx i).drop i).map (·.id))

theorem indexes_closeGap {b : Bundle} {id : Text} {i : Nat} (h : b.index.find? id = some i) :
    (b.closeGap id i).Indexes ((b.modules.eraseIdx i).map (·.id)) := by
  have hmap : (b.modules.eraseIdx i).map (·.id) = (b.modules.map (·.id)).eraseIdx i := by
    simp [List.eraseIdx_eq_take_drop_succ]
  rw [closeGap, List.map_drop, hmap]
  exact b.indexed.eraseIdx ((b.indexed id i).1 h)

/-- The bundle without the module with the given identifier, if it holds one. -/
def remove? (b : Bundle) (id : Text) : Option Bundle :=
  match h : b.index.find? id with
  | some i => some ⟨b.modules.eraseIdx i, b.closeGap id i, b.files, indexes_closeGap h⟩
  | none => none

/-- Removes the module with the given identifier, if the bundle holds one. -/
def remove (b : Bundle) (id : Text) : Bundle := (b.remove? id).getD b

/-- Emits a file, in the place of one emitted before under the same path. -/
def emit (b : Bundle) (a : Asset) : Bundle :=
  if b.files.any (·.path = a.path) then
    { b with files := b.files.map fun old => if old.path = a.path then a else old }
  else { b with files := b.files ++ [a] }

/-- The emitted files in ascending order of their paths. -/
def emitted (b : Bundle) : List Asset := b.files.mergeSort fun x y => Text.le x.path y.path

end Bundle

end MiniProgram
