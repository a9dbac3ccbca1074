import MiniProgram.FileSystem
import MiniProgram.Proofs.Failure
import MiniProgram.Proofs.FileSystem.Memory

/-!
The files of a file system, through what can be read.

* `read_isOk_iff`: what exists and cannot be listed is what can be read, in every kind of store.
* `mem_filePaths`: a file system holds finitely many files, so the cleaned absolute paths that can
  be read are those of a list.
* `mem_contents`: so are the contents.
-/

namespace MiniProgram

namespace Memory

variable {m : Memory} {name content : Text}

/-- What can be read under a name is stored there, and the name can be looked up. -/
lemma get?_of_readName (h : m.readName name = .ok content) :
    isValidName name = true ∧ m.get? name = some content := by
  obtain ⟨entry, hopen, hread⟩ := bind_eq_ok.1 h
  cases entry with
  | dir entries => cases hread
  | file content' =>
      cases hread
      rw [open?] at hopen
      split at hopen
      · cases hopen
      · rename_i hvalid
        refine ⟨by simpa using hvalid, ?_⟩
        split at hopen
        · rename_i found hget
          cases hopen
          exact hget
        · -- an empty directory is no file, and neither is one with entries
          split at hopen
          · split at hopen
            · cases hopen
            · cases hopen
          · cases hopen

/-- A name stands for a file, for a directory or for nothing. -/
lemma readName_isOk_iff (m : Memory) (name : Text) :
    (m.readName name).isOk = ((m.open? name).isOk && !(m.listName name).isOk) := by
  rw [readName, listName]
  cases m.open? name with
  | error e => rfl
  | ok entry =>
      cases entry with
      | file content => rfl
      | dir entries => rfl

lemma mem_of_get? (h : m.get? name = some content) : (name, content) ∈ m.files := by
  obtain ⟨front, back, hsplit, -⟩ := List.lookup_eq_some_iff.1 h
  rw [hsplit]
  simp

end Memory

namespace Disk

variable {d : Disk} {p content : Text}

lemma mem_of_read (h : d.read p = .ok content) : (Path.clean p, some content) ∈ d.nodes := by
  have hfind : d.find (Path.clean p) = .ok (some content) := by
    rw [read, readShown] at h
    cases hf : d.find (Path.clean p) with
    | error cause =>
        rw [hf] at h
        cases h
    | ok node =>
        rw [hf] at h
        cases node with
        | none => cases h
        | some found =>
            cases h
            rfl
  -- a node that is found is listed
  have hget : d.get? (Path.clean p) = some (some content) := by
    rw [find] at hfind
    split at hfind
    · cases hfind
    · cases hg : d.get? (Path.clean p) with
      | none =>
          rw [hg] at hfind
          cases hfind
      | some node =>
          rw [hg] at hfind
          cases hfind
          rfl
  obtain ⟨front, back, hsplit, -⟩ := List.lookup_eq_some_iff.1 hget
  rw [hsplit]
  simp

lemma read_isOk_iff (d : Disk) (p : Text) :
    (d.read p).isOk = (d.contains p && !(d.list p).isOk) := by
  rw [read, readShown, contains, list]
  cases d.find (Path.clean p) with
  | error cause => rfl
  | ok node =>
      cases node with
      | none => rfl
      | some content => rfl

end Disk

namespace FileSystem

open MiniProgram.Path

variable {fs : FileSystem} {p content : Text}

/-- A path can be read if it exists and is no directory. -/
theorem read_isOk_iff (fs : FileSystem) (p : Text) :
    (fs.read p).isOk = (fs.contains p && !(fs.list p).isOk) := by
  rw [read, contains, list]
  cases fs.store with
  | memory m => exact m.readName_isOk_iff (Memory.key p)
  | readOnly m => exact m.readName_isOk_iff p
  | disk d => exact d.read_isOk_iff p

/-! ### Finitely many files -/

/-- The absolute paths at which files may be read, and the root. -/
def filePaths (fs : FileSystem) : List Text :=
  match fs.store with
  | .memory m => ("/" : Text) :: m.files.map fun f => Byte.slash :: f.1
  | .readOnly _ => []
  | .disk d => d.nodes.map (·.1)

/-- The contents of all files. -/
def contents (fs : FileSystem) : List Text :=
  match fs.store with
  | .memory m => m.files.map (·.2)
  | .readOnly m => m.files.map (·.2)
  | .disk d => d.nodes.filterMap (·.2)

lemma mem_contents (h : fs.read p = .ok content) : content ∈ fs.contents := by
  rw [read] at h
  rw [contents]
  cases hs : fs.store with
  | memory m =>
      simp only [hs] at h
      exact List.mem_map_of_mem (Memory.mem_of_get? (Memory.get?_of_readName h).2)
  | readOnly m =>
      simp only [hs] at h
      exact List.mem_map_of_mem (Memory.mem_of_get? (Memory.get?_of_readName h).2)
  | disk d =>
      simp only [hs] at h
      exact List.mem_filterMap.2 ⟨_, Disk.mem_of_read h, rfl⟩

/-- What can be read at a cleaned absolute path is one of finitely many files. -/
theorem mem_filePaths (habs : isAbsolute p = true) (hclean : clean p = p)
    (h : fs.read p = .ok content) : p ∈ fs.filePaths := by
  rw [read] at h
  rw [filePaths]
  cases hs : fs.store with
  | memory m =>
      simp only [hs] at h
      have hkey := Memory.clean_of_key habs
      rw [hclean] at hkey
      rcases hkey with hroot | hkey
      · exact List.mem_cons.2 (Or.inl hroot)
      · refine List.mem_cons.2 (Or.inr (List.mem_map.2 ⟨_, Memory.mem_of_get?
          (Memory.get?_of_readName h).2, hkey.symm⟩))
  | readOnly m =>
      -- a read-only store takes names as they are spelled, and a name begins with no slash
      simp only [hs] at h
      have hvalid := (Memory.get?_of_readName h).1
      cases p with
      | nil => cases habs
      | cons b t =>
          obtain rfl : b = Byte.slash := by simpa [isAbsolute] using habs
          have hdot : Byte.slash :: t ≠ ("." : Text) := fun hd =>
            absurd (List.cons.inj hd).1 (by decide)
          simp [Memory.isValidName, hdot] at hvalid
  | disk d =>
      simp only [hs] at h
      have hmem := Disk.mem_of_read h
      rw [hclean] at hmem
      exact List.mem_map_of_mem hmem

end FileSystem

end MiniProgram
