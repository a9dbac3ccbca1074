import MiniProgram.Proofs.Bundle
import MiniProgram.Proofs.Text.Order

/-!
Bundles as ordered maps.

A bundle is made of some modules and then changed by putting and removing modules and by emitting
files, in any order. Whatever its history, it behaves as a list of modules with identifiers of their
own, read through an index that is repaired after every removal, and as one file for each path that
something was emitted under.

* `Op`, `history`: what can be done to a bundle, and the bundle after some of it was done.
* `modules_put_append`, `modules_remove_append`: a module is replaced or removed where it stands.
* `get?_apply`: what one operation does to the module found under an identifier.
* `mem_files_emit`: what emitting a file does to the emitted files.
* `isOrderedMap_history`: what holds of a bundle after every history.
-/

namespace MiniProgram

namespace Bundle

/-! ### Histories -/

/-- What can be done to a bundle. -/
inductive Op where
  | put (m : Module)
  | remove (id : Text)
  | emit (a : Asset)
deriving DecidableEq, Repr

namespace Op

/-- The file that an operation emits. -/
def emission? : Op → Option Asset
  | emit a => some a
  | _ => none

/-- The module that is stored under an identifier after an operation, given the one before it. -/
def store (id : Text) (stored : Option Module) : Op → Option Module
  | put m => if id = m.id then some m else stored
  | remove gone => if id = gone then none else stored
  | emit _ => stored

end Op

/-- The bundle after an operation. -/
def apply (b : Bundle) : Op → Bundle
  | .put m => b.put m
  | .remove id => b.remove id
  | .emit a => b.emit a

/-- The bundle of some modules after operations on it. -/
def history (start : List Module) (ops : List Op) : Bundle := ops.foldl apply (ofModules start)

variable {b : Bundle} {m old : Module} {front back : List Module}

/-! ### The place of a module -/

/-- A module with the identifier of another takes its place. -/
lemma modules_put_append (h : b.modules = front ++ old :: back) (hid : m.id = old.id) :
    (b.put m).modules = front ++ m :: back := by
  obtain ⟨hfront, hback⟩ := ids_around h
  rw [modules_put_of_mem (by simp [h]) hid, h, replace_append_cons hid hfront hback]

/-- A module that is removed leaves those around it in their order. -/
lemma modules_remove_append (h : b.modules = front ++ old :: back) :
    ∃ b', b.remove? old.id = some b' ∧ b'.modules = front ++ back := by
  have hmem : old.id ∈ b.ids := by simp [ids, h]
  obtain ⟨b', hb'⟩ := Option.ne_none_iff_exists'.1 (mt remove?_eq_none_iff.1 (not_not.2 hmem))
  obtain ⟨hfront, hback⟩ := ids_around h
  refine ⟨b', hb', ?_⟩
  have hmodules := modules_remove b old.id
  rw [remove, hb', Option.getD_some] at hmodules
  rw [hmodules, h, filter_append_cons hfront hback]

/-! ### Looking up after an operation -/

lemma get?_remove (b : Bundle) (gone id : Text) :
    (b.remove gone).get? id = if id = gone then none else b.get? id := by
  refine Option.ext fun m => ?_
  rw [get?_eq_some_iff, modules_remove, List.mem_filter, decide_eq_true_iff]
  split_ifs with hid
  · rw [iff_false_right (by simp)]
    rintro ⟨⟨-, hne⟩, rfl⟩
    exact hne hid
  · rw [get?_eq_some_iff]
    refine ⟨fun h => ⟨h.1.1, h.2⟩, fun h => ⟨⟨h.1, h.2 ▸ hid⟩, h.2⟩⟩

/-- What one operation does to the module found under an identifier. -/
lemma get?_apply (b : Bundle) (op : Op) (id : Text) :
    (b.apply op).get? id = op.store id (b.get? id) := by
  cases op with
  | put m => exact get?_put b m id
  | remove gone => exact get?_remove b gone id
  | emit a => exact get?_emit b a id

lemma get?_foldl_apply (b : Bundle) (ops : List Op) (id : Text) :
    (ops.foldl apply b).get? id = ops.foldl (Op.store id) (b.get? id) := by
  induction ops generalizing b with
  | nil => rfl
  | cons op ops ih => rw [List.foldl_cons, ih, get?_apply, List.foldl_cons]

/-- A bundle of modules is the empty one after they were put. -/
lemma ofModules_eq (start : List Module) :
    ofModules start = (start.map Op.put).foldl apply empty := by
  rw [ofModules, List.foldl_map]
  rfl

/-! ### Emitting -/

/-- After a file is emitted, it stands for its path, and nothing else changes. -/
lemma mem_files_emit (b : Bundle) (a x : Asset) :
    x ∈ (b.emit a).files ↔ if x.path = a.path then x = a else x ∈ b.files := by
  rw [emit]
  split_ifs with hany hpath hpath
  · obtain ⟨old, hold, hsame⟩ := List.any_eq_true.1 hany
    rw [decide_eq_true_iff] at hsame
    simp only [List.mem_map]
    constructor
    · rintro ⟨y, hy, rfl⟩
      split_ifs with hya
      · rfl
      · rw [if_neg hya] at hpath
        exact absurd hpath hya
    · rintro rfl
      exact ⟨old, hold, if_pos hsame⟩
  · simp only [List.mem_map]
    constructor
    · rintro ⟨y, hy, rfl⟩
      split_ifs at hpath ⊢ with hya
      · exact absurd rfl hpath
      · exact hy
    · exact fun hx => ⟨x, hx, if_neg hpath⟩
  · -- no file has the path yet: it is appended
    have hnot := not_any_key_iff.1 hany
    rw [List.mem_append, List.mem_singleton, or_iff_right fun hx => hnot x hx hpath]
  · rw [List.mem_append, List.mem_singleton, or_iff_left]
    rintro rfl
    exact hpath rfl

/-- The emitted files are those emitted last for their paths, one for each path. -/
structure Emits (b : Bundle) (emissions : List Asset) : Prop where
  nodup : (b.files.map (·.path)).Nodup
  mem_iff : ∀ a, a ∈ b.files ↔ emissions.reverse.find? (·.path = a.path) = some a

/-- One operation keeps track of what was emitted. -/
lemma Emits.apply {emissions : List Asset} (h : b.Emits emissions) (op : Op) :
    (b.apply op).Emits (emissions ++ op.emission?.toList) := by
  cases op with
  | put m =>
      have hfiles : (b.apply (.put m)).files = b.files := files_put b m
      exact ⟨hfiles ▸ h.nodup, by simpa [hfiles, Op.emission?] using h.mem_iff⟩
  | remove id =>
      have hfiles : (b.apply (.remove id)).files = b.files := files_remove b id
      exact ⟨hfiles ▸ h.nodup, by simpa [hfiles, Op.emission?] using h.mem_iff⟩
  | emit a =>
      refine ⟨nodup_paths_emit a h.nodup, fun x => ?_⟩
      have hlast : (emissions ++ [a]).reverse.find? (·.path = x.path)
          = if x.path = a.path then some a else emissions.reverse.find? (·.path = x.path) := by
        rw [List.reverse_append, List.reverse_singleton, List.singleton_append, List.find?_cons]
        by_cases hpath : a.path = x.path
        · simp [hpath]
        · simp [hpath, Ne.symm hpath]
      rw [Bundle.apply, mem_files_emit, Op.emission?, Option.toList_some, hlast]
      split_ifs
      · rw [Option.some.injEq, eq_comm]
      · exact h.mem_iff x

lemma Emits.foldl {emissions : List Asset} (h : b.Emits emissions) (ops : List Op) :
    (ops.foldl Bundle.apply b).Emits (emissions ++ ops.filterMap Op.emission?) := by
  induction ops generalizing b emissions with
  | nil => simpa using h
  | cons op ops ih =>
      have hops : (op :: ops).filterMap Op.emission?
          = op.emission?.toList ++ ops.filterMap Op.emission? := by
        cases op <;> rfl
      rw [List.foldl_cons, hops, ← List.append_assoc]
      exact ih (h.apply op)

lemma emits_ofModules (start : List Module) : (ofModules start).Emits [] := by
  have hfiles : (ofModules start).files = [] := files_foldl_put empty start
  exact ⟨by simp [hfiles], by simp [hfiles]⟩

/-- The emitted files are listed in ascending order of their paths. -/
lemma pairwise_emitted (b : Bundle) :
    b.emitted.Pairwise fun x y => Text.le x.path y.path = true :=
  Text.pairwise_mergeSort_key (·.path) b.files

/-! ### Every history -/

/-- A bundle that is an ordered map: from identifiers to modules, in the order in which these were
put, and from paths to the files emitted last under them. -/
structure IsOrderedMap (b : Bundle) (stored : Text → Option Module) (emissions : List Asset) :
    Prop where
  /-- No two modules share an identifier. -/
  nodup : b.ids.Nodup
  /-- The index knows the identifiers of the modules and no others, each at its place. -/
  index_iff : ∀ id i, b.index.find? id = some i ↔ b.ids[i]? = some id
  /-- What is found under an identifier is what was stored under it. -/
  get?_eq : ∀ id, b.get? id = stored id
  /-- What is found under an identifier is the module in the list that has it. -/
  get?_iff : ∀ id m, b.get? id = some m ↔ m ∈ b.modules ∧ m.id = id
  has_iff : ∀ id, b.has id = true ↔ id ∈ b.ids
  /-- A module takes the place of the one with its identifier. -/
  put_old : ∀ front old back m, b.modules = front ++ old :: back → m.id = old.id →
    (b.put m).modules = front ++ m :: back
  /-- A module with a new identifier comes last. -/
  put_new : ∀ m, m.id ∉ b.ids → (b.put m).modules = b.modules ++ [m]
  /-- A module that is removed leaves those around it in their order. -/
  remove_old : ∀ front old back, b.modules = front ++ old :: back →
    ∃ b', b.remove? old.id = some b' ∧ b'.modules = front ++ back
  /-- Where there is nothing to remove, it is told so. -/
  remove_new : ∀ id, id ∉ b.ids → b.remove? id = none
  emit_modules : ∀ a, (b.emit a).modules = b.modules
  /-- The emitted files are listed by their paths. -/
  emitted_sorted : b.emitted.Pairwise fun x y => Text.le x.path y.path = true
  /-- For each path there is one emitted file. -/
  emitted_nodup : (b.emitted.map (·.path)).Nodup
  /-- An emitted file is the last that was emitted under its path. -/
  mem_emitted_iff : ∀ a, a ∈ b.emitted ↔ emissions.reverse.find? (·.path = a.path) = some a

/-- **Bundles are ordered maps**, whatever their history: the index follows the modules through
every sequence of operations, a module keeps its place until it is removed, and the last file
emitted under a path is the one that is listed. -/
theorem isOrderedMap_history (start : List Module) (ops : List Op) :
    IsOrderedMap (history start ops)
      (fun id => (start.map Op.put ++ ops).foldl (Op.store id) none)
      (ops.filterMap Op.emission?) := by
  have hemits : (history start ops).Emits (ops.filterMap Op.emission?) :=
    (emits_ofModules start).foldl ops
  have hperm : (history start ops).emitted.Perm (history start ops).files :=
    List.mergeSort_perm _ _
  refine {
    nodup := nodup _
    index_iff := indexed _
    get?_eq := fun id => ?_
    get?_iff := fun id m => get?_eq_some_iff
    has_iff := fun id => has_eq_true_iff_mem_ids
    put_old := fun front old back m => modules_put_append
    put_new := fun m hm => ?_
    remove_old := fun front old back => modules_remove_append
    remove_new := fun id => remove?_eq_none_iff.2
    emit_modules := modules_emit _
    emitted_sorted := pairwise_emitted _
    emitted_nodup := (hperm.map _).nodup_iff.2 hemits.nodup
    mem_emitted_iff := fun a => hperm.mem_iff.trans (hemits.mem_iff a) }
  · have hempty : empty.get? id = none := rfl
    rw [history, ofModules_eq, get?_foldl_apply, get?_foldl_apply, hempty, List.foldl_append]
  · rw [modules_put, if_neg hm]

end Bundle

end MiniProgram
