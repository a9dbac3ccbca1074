import Mathlib.Tactic
import MiniProgram.Output

/-!
The paths that a bundle is written to.

Four kinds of files share one space of paths: the modules, their source maps, the assets extracted
from modules, and the files emitted for the program as a whole. The paths that are written are those
of the four kinds together; so each is written once if no kind repeats a path and no two kinds share
one.

* `paths_write`: what a successful write has written.
* `perm_files`: the paths of a bundle, kind by kind.
* `nodup_files_iff`: when every path is written once, if modules and emitted files have paths of
  their own.
-/

namespace MiniProgram

namespace Output

variable {b : Bundle}

/-! ### Writing -/

lemma paths_writeFiles {outDir : Text} {written : List Text} {fs : FileSystem}
    {files : List Asset} (h : (writeFiles outDir written fs files).failure = none) :
    (writeFiles outDir written fs files).paths = written.reverse ++ files.map (·.path) := by
  induction files generalizing written fs with
  | nil => simp [writeFiles]
  | cons a files ih =>
      rw [writeFiles] at h ⊢
      cases hwrite : writeFile outDir fs a with
      | error f => simp [hwrite] at h
      | ok fs' =>
          simp only [hwrite] at h ⊢
          rw [ih h]
          simp

/-- A successful write has written every file of the bundle. -/
theorem paths_write {fs : FileSystem} {outDir : Text} (h : (write fs outDir b).failure = none) :
    (write fs outDir b).paths = (files b).map (·.path) :=
  paths_writeFiles h

/-! ### Kinds of files -/

/-- The paths of the modules. -/
def modulePaths (b : Bundle) : List Text := b.modules.map (·.path)

/-- The paths of the source maps. -/
def mapPaths (b : Bundle) : List Text :=
  (b.modules.filter (·.sourceMap ≠ [])).map (·.path ++ ".map")

/-- The paths of the assets. -/
def assetPaths (b : Bundle) : List Text := b.modules.flatMap fun m => m.assets.map (·.path)

/-- The paths of the emitted files. -/
def emittedPaths (b : Bundle) : List Text := b.files.map (·.path)

/-- The files of a module are itself and its source map. -/
lemma perm_moduleFiles (ms : List Module) :
    ((ms.flatMap moduleFiles).map (·.path)).Perm
      (ms.map (·.path) ++ (ms.filter (·.sourceMap ≠ [])).map (·.path ++ (".map" : Text))) := by
  induction ms with
  | nil => simp
  | cons m ms ih =>
      by_cases hmap : m.sourceMap = []
      · simpa [moduleFiles, hmap] using ih
      · simpa [moduleFiles, hmap] using (ih.cons (m.path ++ ".map")).trans List.perm_middle.symm

/-- The paths of a bundle, kind by kind. -/
theorem perm_files (b : Bundle) :
    ((files b).map (·.path)).Perm
      (modulePaths b ++ mapPaths b ++ assetPaths b ++ emittedPaths b) := by
  have hassets : (b.modules.flatMap (·.assets)).map (·.path) = assetPaths b := List.map_flatMap
  have hemitted : (b.emitted.map (·.path)).Perm (emittedPaths b) :=
    (List.mergeSort_perm b.files _).map _
  rw [files, List.map_append, List.map_append, hassets]
  exact ((perm_moduleFiles b.modules).append_right _).append hemitted

/-! ### Written once -/

/-- Source maps have paths of their own if the modules do. -/
lemma nodup_mapPaths (h : (modulePaths b).Nodup) : (mapPaths b).Nodup := by
  have hsub : ((b.modules.filter (·.sourceMap ≠ [])).map (·.path)).Nodup :=
    h.sublist (List.filter_sublist.map _)
  have hmap : mapPaths b
      = ((b.modules.filter (·.sourceMap ≠ [])).map (·.path)).map (· ++ (".map" : Text)) := by
    rw [List.map_map]
    rfl
  rw [hmap]
  exact hsub.map fun p q h => List.append_cancel_right h

/-- The kinds of files between which only the names of the sources decide whether they share a
path. -/
structure Apart (b : Bundle) : Prop where
  /-- No module is written where the source map of a module is. -/
  module_map : (modulePaths b).Disjoint (mapPaths b)
  /-- No module is written where an asset is. -/
  module_asset : (modulePaths b).Disjoint (assetPaths b)
  /-- No emitted file is written where a module is. -/
  emitted_module : (emittedPaths b).Disjoint (modulePaths b)
  /-- No emitted file is written where a source map is. -/
  emitted_map : (emittedPaths b).Disjoint (mapPaths b)
  /-- No emitted file is written where an asset is. -/
  emitted_asset : (emittedPaths b).Disjoint (assetPaths b)

/-- If modules have paths of their own and so have emitted files, every path is written once exactly
if the assets have paths of their own, apart from the source maps, and the other kinds are apart. -/
theorem nodup_files_iff (hmodules : (modulePaths b).Nodup) (hemitted : (emittedPaths b).Nodup) :
    ((files b).map (·.path)).Nodup
      ↔ (assetPaths b).Nodup ∧ (mapPaths b).Disjoint (assetPaths b) ∧ Apart b := by
  have hmaps := nodup_mapPaths hmodules
  rw [(perm_files b).nodup_iff, List.nodup_append', List.nodup_append', List.nodup_append',
    List.disjoint_append_left, List.disjoint_append_left, List.disjoint_append_left]
  constructor
  · rintro ⟨⟨⟨-, -, hmm⟩, hassets, hma, hpa⟩, -, ⟨hme, hpe⟩, hae⟩
    exact ⟨hassets, hpa, hmm, hma, hme.symm, hpe.symm, hae.symm⟩
  · rintro ⟨hassets, hpa, h⟩
    exact ⟨⟨⟨hmodules, hmaps, h.module_map⟩, hassets, h.module_asset, hpa⟩, hemitted,
      ⟨h.emitted_module.symm, h.emitted_map.symm⟩, h.emitted_asset.symm⟩

end Output

end MiniProgram
