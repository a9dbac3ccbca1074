import Mathlib.Tactic
import MiniProgram.Bundle
import MiniProgram.Proofs.Keyed

/-!
Bundles, through the list of their modules.

* `exists_of_place`, `ids_around`: where the index has an identifier, the module with it stands, and
  nowhere else does another.
* `get?_eq_some_iff`: the module with an identifier is the one in the list that has it.
* `modules_put`, `modules_remove`: what becomes of the list, the index aside.
* `get?_put`, `ids_put`: a module that is put is found under its identifier, and has a place in the
  order.
* `modules_foldl_put`: putting the changed modules of a bundle back changes them where they stand.
* `modules_foldl_remove`: removing modules leaves the others, in order.
* `paths_emit`: a file that is emitted has a place among the emitted files, one for each path.
-/

namespace MiniProgram

/-- What some elements of a list contribute, the others contributing nothing. -/
lemma flatMap_ite {α β : Type} (p : α → Bool) (g : α → List β) (xs : List α) :
    (xs.flatMap fun x => if p x then g x else []) = (xs.filter p).flatMap g := by
  induction xs with
  | nil => rfl
  | cons x xs ih => by_cases hx : p x <;> simp [hx, ih]

namespace Bundle

variable {b : Bundle} {m m' : Module} {id : Text}

/-! ### The index -/

/-- The modules around one of a bundle have other identifiers. -/
lemma ids_around {front back : List Module} (h : b.modules = front ++ m :: back) :
    (∀ x ∈ front, x.id ≠ m.id) ∧ ∀ x ∈ back, x.id ≠ m.id := by
  have hnodup := b.nodup
  rw [h, List.map_append, List.map_cons, List.nodup_append, List.nodup_cons] at hnodup
  obtain ⟨-, ⟨hback, -⟩, hfront⟩ := hnodup
  refine ⟨fun x hx => ?_, fun x hx heq => ?_⟩
  · exact hfront _ (List.mem_map_of_mem hx) _ (by simp)
  · exact hback (heq ▸ List.mem_map_of_mem hx)

/-- Where the index has an identifier, the module with it stands. -/
lemma exists_of_place {i : ℕ} (h : b.index.find? id = some i) :
    ∃ front old back, b.modules = front ++ old :: back ∧ front.length = i ∧ old.id = id := by
  have hplace := (b.indexed id i).1 h
  rw [List.getElem?_map, Option.map_eq_some_iff] at hplace
  obtain ⟨old, hold, rfl⟩ := hplace
  obtain ⟨hi, rfl⟩ := List.getElem?_eq_some_iff.1 hold
  exact ⟨b.modules.take i, b.modules[i], b.modules.drop (i + 1), by simp,
    List.length_take_of_le hi.le, rfl⟩

lemma find?_index_eq_none_iff : b.index.find? id = none ↔ id ∉ b.ids :=
  b.indexed.find?_eq_none_iff

lemma has_eq_true_iff_mem_ids : b.has id = true ↔ id ∈ b.ids := by
  rw [has, Option.isSome_iff_ne_none, ne_eq, find?_index_eq_none_iff, not_not]

/-! ### Looking up -/

/-- Two modules of a bundle with the same identifier are the same. -/
lemma eq_of_id_eq (hm : m ∈ b.modules) (hm' : m' ∈ b.modules) (h : m.id = m'.id) : m = m' :=
  List.inj_on_of_nodup_map b.nodup hm hm' h

/-- The index leads to the module that a search for the identifier finds. -/
lemma get?_eq_find? (b : Bundle) (id : Text) : b.get? id = b.modules.find? (·.id = id) := by
  cases h : b.index.find? id with
  | none =>
      have hnone : b.modules.find? (·.id = id) = none := by
        rw [find?_key_eq_none_iff]
        exact fun m hm heq => find?_index_eq_none_iff.1 h (heq ▸ List.mem_map_of_mem hm)
      simp [get?, h, hnone]
  | some i =>
      obtain ⟨front, old, back, hsplit, rfl, rfl⟩ := exists_of_place h
      rw [(find?_key_eq_some_iff b.nodup).2 ⟨by simp [hsplit], rfl⟩]
      simp [get?, h, hsplit]

theorem get?_eq_some_iff : b.get? id = some m ↔ m ∈ b.modules ∧ m.id = id := by
  rw [get?_eq_find?]
  exact find?_key_eq_some_iff b.nodup

lemma has_eq_true_iff : b.has id = true ↔ ∃ m ∈ b.modules, m.id = id := by
  rw [has_eq_true_iff_mem_ids, ids, List.mem_map]

lemma mem_ids_iff : id ∈ b.ids ↔ ∃ m, b.get? id = some m := by
  simp only [get?_eq_some_iff, ids, List.mem_map]

lemma get?_eq_none_iff : b.get? id = none ↔ id ∉ b.ids := by
  rw [mem_ids_iff, not_exists, Option.eq_none_iff_forall_ne_some]

/-! ### Putting -/

/-- The modules with one put in the place of those with its identifier. -/
def replace (m : Module) (modules : List Module) : List Module :=
  modules.map fun old => if old.id = m.id then m else old

/-- Replacing a module keeps the identifiers and their order. -/
lemma map_id_replace (m : Module) (modules : List Module) :
    (replace m modules).map (·.id) = modules.map (·.id) := by
  simp only [replace, List.map_map, List.map_inj_left]
  intro old _
  by_cases h : old.id = m.id <;> simp [h]

/-- A module takes the place of the one with its identifier, if there is one such place. -/
lemma replace_append_cons {front back : List Module} (hid : m'.id = m.id)
    (hfront : ∀ x ∈ front, x.id ≠ m.id) (hback : ∀ x ∈ back, x.id ≠ m.id) :
    replace m' (front ++ m :: back) = front ++ m' :: back := by
  have hkeep : ∀ l : List Module, (∀ x ∈ l, x.id ≠ m.id) →
      l.map (fun old => if old.id = m'.id then m' else old) = l := by
    intro l hl
    refine (List.map_congr_left fun x hx => ?_).trans (List.map_id l)
    exact if_neg (hid ▸ hl x hx)
  rw [replace, List.map_append, List.map_cons, hkeep front hfront, hkeep back hback,
    if_pos hid.symm]

/-- The list of modules after one is put: it replaces the one with its identifier or comes last. -/
theorem modules_put (b : Bundle) (m : Module) :
    (b.put m).modules = if m.id ∈ b.ids then replace m b.modules else b.modules ++ [m] := by
  rw [put]
  split
  · rename_i i h
    obtain ⟨front, old, back, hsplit, rfl, hid⟩ := exists_of_place h
    obtain ⟨hfront, hback⟩ := ids_around hsplit
    have hmem : m.id ∈ b.ids := by simp [ids, hsplit, ← hid]
    have hset : b.modules.set front.length m = replace m b.modules := by
      rw [hsplit, replace_append_cons hid.symm hfront hback]
      simp
    rw [if_pos hmem]
    exact hset
  · rename_i h
    rw [if_neg (find?_index_eq_none_iff.1 h)]

/-- A module that is put keeps its place, or comes last. -/
theorem ids_put (b : Bundle) (m : Module) :
    (b.put m).ids = if m.id ∈ b.ids then b.ids else b.ids ++ [m.id] := by
  rw [ids, modules_put]
  split_ifs
  · exact map_id_replace m b.modules
  · simp [ids]

/-- A module that is put is found under its identifier, and nothing else changes. -/
theorem get?_put (b : Bundle) (m : Module) (id : Text) :
    (b.put m).get? id = if id = m.id then some m else b.get? id := by
  have hmem : m ∈ (b.put m).modules := by
    rw [modules_put]
    split_ifs with hmem
    · obtain ⟨old, hold, hid⟩ := List.mem_map.1 hmem
      exact List.mem_map.2 ⟨old, hold, if_pos hid⟩
    · simp
  split_ifs with hid
  · exact get?_eq_some_iff.2 ⟨hmem, hid.symm⟩
  · refine Option.ext fun m' => ?_
    rw [get?_eq_some_iff, get?_eq_some_iff]
    refine and_congr_left fun hid' => ?_
    have hne : m'.id ≠ m.id := fun h => hid (hid'.symm.trans h)
    rw [modules_put]
    split_ifs
    · simp only [replace, List.mem_map]
      constructor
      · rintro ⟨old, hold, rfl⟩
        by_cases hold' : old.id = m.id
        · rw [if_pos hold'] at hne
          exact absurd rfl hne
        · rwa [if_neg hold']
      · exact fun h => ⟨m', h, if_neg hne⟩
    · rw [List.mem_append, List.mem_singleton]
      exact or_iff_left fun h => hne (by rw [h])

lemma mem_ids_put (h : id ∈ b.ids) (m : Module) : id ∈ (b.put m).ids := by
  rw [ids_put]
  split_ifs
  · exact h
  · exact List.mem_append_left _ h

lemma id_mem_ids_put (b : Bundle) (m : Module) : m.id ∈ (b.put m).ids := by
  rw [ids_put]
  split_ifs with hm
  · exact hm
  · simp

@[simp] lemma modules_ofModules_singleton (m : Module) : (ofModules [m]).modules = [m] := by
  simp [ofModules, modules_put, empty, ids]

lemma eq_or_mem_of_mem_put (h : m' ∈ (b.put m).modules) : m' = m ∨ m' ∈ b.modules := by
  have hget := get?_eq_some_iff.2 ⟨h, rfl⟩
  rw [get?_put] at hget
  split_ifs at hget
  · exact Or.inl (Option.some.inj hget).symm
  · exact Or.inr (get?_eq_some_iff.1 hget).1

lemma mem_of_mem_foldl_put {ms : List Module} (h : m ∈ (ms.foldl put b).modules) :
    m ∈ ms ∨ m ∈ b.modules := by
  induction ms generalizing b with
  | nil => exact Or.inr h
  | cons x ms ih =>
      rw [List.foldl_cons] at h
      rcases ih h with hm | hm
      · exact Or.inl (List.mem_cons_of_mem x hm)
      · rcases eq_or_mem_of_mem_put hm with rfl | hm
        · exact Or.inl List.mem_cons_self
        · exact Or.inr hm

@[simp] lemma files_put (b : Bundle) (m : Module) : (b.put m).files = b.files := by
  rw [put]
  split <;> rfl

@[simp] lemma files_foldl_put (b : Bundle) (ms : List Module) :
    (ms.foldl put b).files = b.files := by
  induction ms generalizing b with
  | nil => rfl
  | cons m ms ih => rw [List.foldl_cons, ih, files_put]

/-! ### Putting back -/

lemma modules_put_of_mem (hm : m ∈ b.modules) (hid : m'.id = m.id) :
    (b.put m').modules = replace m' b.modules := by
  have hmem : m'.id ∈ b.ids := hid ▸ List.mem_map_of_mem hm
  rw [modules_put, if_pos hmem]

/-- A module of a bundle can be put back. -/
lemma put_of_mem (hm : m ∈ b.modules) : b.put m = b := by
  rw [put]
  split
  · rename_i i h
    have hset : b.modules.set i m = b.modules := by
      obtain ⟨front, old, back, hsplit, rfl, hid⟩ := exists_of_place h
      obtain rfl : old = m := eq_of_id_eq (by simp [hsplit]) hm hid
      simp [hsplit]
    simp only [hset]
  · rename_i h
    exact absurd (List.mem_map_of_mem hm) (find?_index_eq_none_iff.1 h)

lemma foldl_put_of_forall_mem {ms : List Module} (h : ∀ m ∈ ms, m ∈ b.modules) :
    ms.foldl put b = b := by
  induction ms with
  | nil => rfl
  | cons m ms ih =>
      rw [List.foldl_cons, put_of_mem (h m (by simp))]
      exact ih fun m' hm' => h m' (by simp [hm'])

/-- Putting back the modules of a bundle that pass a test, each changed, changes them where they
stand. -/
theorem modules_foldl_put {p : Module → Bool} {g : Module → Module} (hg : ∀ m, (g m).id = m.id) :
    (((b.modules.filter p).map g).foldl put b).modules
      = b.modules.map fun m => if p m then g m else m := by
  have hid : ∀ m : Module, (if p m then g m else m).id = m.id := by
    intro m
    split_ifs
    · exact hg m
    · rfl
  -- by induction on the modules still to come, those before them being changed already
  suffices hrun : ∀ (rest done : List Module) (c : Bundle),
      c.modules = done.map (fun m => if p m then g m else m) ++ rest →
      ((done ++ rest).map (·.id)).Nodup →
      (((rest.filter p).map g).foldl put c).modules
        = (done ++ rest).map fun m => if p m then g m else m from
    hrun b.modules [] b rfl b.nodup
  intro rest
  induction rest with
  | nil =>
      intro done c hc _
      simpa using hc
  | cons x rest ih =>
      intro done c hc hnodup
      have hsplit : done ++ x :: rest = (done ++ [x]) ++ rest := by simp
      rw [hsplit]
      by_cases hx : p x = true
      · have hmem : x ∈ c.modules := by simp [hc]
        rw [List.filter_cons_of_pos hx, List.map_cons, List.foldl_cons]
        refine ih (done ++ [x]) _ ?_ (hsplit ▸ hnodup)
        rw [List.map_append, List.map_cons, List.nodup_append, List.nodup_cons] at hnodup
        obtain ⟨-, ⟨hrest, -⟩, hdone⟩ := hnodup
        rw [modules_put_of_mem hmem (hg x), hc, replace_append_cons (hg x)]
        · simp [hx]
        · intro y hy
          obtain ⟨z, hz, rfl⟩ := List.mem_map.1 hy
          rw [hid z]
          exact hdone _ (List.mem_map_of_mem hz) _ (by simp)
        · exact fun y hy heq => hrest (heq ▸ List.mem_map_of_mem hy)
      · rw [List.filter_cons_of_neg hx]
        refine ih (done ++ [x]) c ?_ (hsplit ▸ hnodup)
        simp [hc, hx]

/-! ### Removing -/

lemma remove?_eq_none_iff : b.remove? id = none ↔ id ∉ b.ids := by
  rw [← find?_index_eq_none_iff, remove?]
  split <;> simp_all

/-- Taking out the modules with the identifier of one leaves those around it. -/
lemma filter_append_cons {front back : List Module} (hfront : ∀ x ∈ front, x.id ≠ m.id)
    (hback : ∀ x ∈ back, x.id ≠ m.id) :
    (front ++ m :: back).filter (·.id ≠ m.id) = front ++ back := by
  rw [List.filter_append, List.filter_cons_of_neg (by simp),
    List.filter_eq_self.2 fun x hx => by simpa using hfront x hx,
    List.filter_eq_self.2 fun x hx => by simpa using hback x hx]

/-- What is left when a module is removed: all others, in order. -/
lemma modules_remove (b : Bundle) (id : Text) :
    (b.remove id).modules = b.modules.filter (·.id ≠ id) := by
  rw [remove, remove?]
  split
  · rename_i i h
    obtain ⟨front, old, back, hsplit, rfl, rfl⟩ := exists_of_place h
    obtain ⟨hfront, hback⟩ := ids_around hsplit
    have herase : b.modules.eraseIdx front.length = b.modules.filter (·.id ≠ old.id) := by
      rw [hsplit, filter_append_cons hfront hback]
      simp [List.eraseIdx_append_of_length_le]
    exact herase
  · rename_i h
    have hnot := find?_index_eq_none_iff.1 h
    have hkeep : b.modules.filter (·.id ≠ id) = b.modules := by
      refine List.filter_eq_self.2 fun m hm => ?_
      rw [decide_eq_true_iff]
      rintro rfl
      exact hnot (List.mem_map_of_mem hm)
    exact hkeep.symm

@[simp] lemma files_remove (b : Bundle) (id : Text) : (b.remove id).files = b.files := by
  rw [remove, remove?]
  split <;> rfl

theorem modules_foldl_remove (b : Bundle) (gone : List Text) :
    (gone.foldl remove b).modules = b.modules.filter fun m => m.id ∉ gone := by
  induction gone generalizing b with
  | nil => simp
  | cons id gone ih =>
      rw [List.foldl_cons, ih, modules_remove, List.filter_filter]
      refine List.filter_congr fun m _ => ?_
      simp [Bool.and_comm]

@[simp] lemma files_foldl_remove (b : Bundle) (gone : List Text) :
    (gone.foldl remove b).files = b.files := by
  induction gone generalizing b with
  | nil => rfl
  | cons id gone ih => rw [List.foldl_cons, ih, files_remove]

/-! ### Emitting -/

@[simp] lemma modules_emit (b : Bundle) (a : Asset) : (b.emit a).modules = b.modules := by
  rw [emit]
  split_ifs <;> rfl

@[simp] lemma get?_emit (b : Bundle) (a : Asset) (id : Text) : (b.emit a).get? id = b.get? id := by
  rw [get?_eq_find?, get?_eq_find?, modules_emit]

/-- A file takes the place of the one emitted before under its path, or comes last. -/
lemma paths_emit (b : Bundle) (a : Asset) :
    (b.emit a).files.map (·.path)
      = if a.path ∈ b.files.map (·.path) then b.files.map (·.path)
        else b.files.map (·.path) ++ [a.path] := by
  have hany : b.files.any (·.path = a.path) = true ↔ a.path ∈ b.files.map (·.path) := by
    simp [List.any_eq_true]
  rw [emit]
  by_cases hmem : a.path ∈ b.files.map (·.path)
  · rw [if_pos (hany.2 hmem), if_pos hmem, List.map_map]
    refine List.map_congr_left fun old _ => ?_
    by_cases hold : old.path = a.path <;> simp [hold]
  · rw [if_neg (mt hany.1 hmem), if_neg hmem, List.map_append]
    rfl

/-- Emitted files have paths of their own. -/
lemma nodup_paths_emit (a : Asset) (h : (b.files.map (·.path)).Nodup) :
    ((b.emit a).files.map (·.path)).Nodup := by
  rw [paths_emit]
  split_ifs with hmem
  · exact h
  · rw [← List.concat_eq_append]
    exact h.concat hmem

end Bundle

end MiniProgram
