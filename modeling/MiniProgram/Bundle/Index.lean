import MiniProgram.Text.Basic

/-!
Indexes: where the keys of a list stand.

An index is kept beside a list whose members have keys, so that a member is found by its key without
a search through the list. When a member is added or taken out, the index has to follow: a new key
stands at the end, and the keys behind one that is taken out move up by one place.

* `Indexes`: what an index has to tell of a list of keys; no key can then stand at two places.
* `Indexes.set_length`, `Indexes.eraseIdx`: how an index follows the list.
-/

namespace MiniProgram

/-- The places of some keys in a list. -/
abbrev Index := List (Text × Nat)

namespace Index

/-- The place of a key. -/
def find? (ix : Index) (key : Text) : Option Nat := List.lookup key ix

/-- Forgets a key. -/
def erase (ix : Index) (key : Text) : Index := ix.filter (·.1 ≠ key)

/-- Puts a key at a place, wherever it stood before. -/
def set (ix : Index) (key : Text) (place : Nat) : Index := (key, place) :: ix.erase key

/-- Puts keys at consecutive places, the first of them at a given one. -/
def setFrom (ix : Index) (place : Nat) : List Text → Index
  | [] => ix
  | key :: keys => (ix.set key place).setFrom (place + 1) keys

/-- An index of a list of keys knows these keys and no others, each at its place. -/
def Indexes (ix : Index) (keys : List Text) : Prop :=
  ∀ key i, ix.find? key = some i ↔ keys[i]? = some key

variable {ix : Index} {keys front back : List Text} {key : Text} {i : Nat}

/-! ### Finding -/

theorem find?_cons (k : Text) (place : Nat) (ix : Index) (key : Text) :
    find? ((k, place) :: ix) key = if key = k then some place else ix.find? key := by
  simp only [find?, List.lookup_cons]
  split <;> simp_all

theorem find?_erase (ix : Index) (key other : Text) :
    (ix.erase key).find? other = if other = key then none else ix.find? other := by
  induction ix with
  | nil => simp [erase, find?]
  | cons entry ix ih =>
    rw [erase] at ih
    rw [erase, List.filter_cons, find?_cons]
    split
    · rw [find?_cons, ih]
      grind
    · rw [ih]
      grind

theorem find?_set (ix : Index) (key other : Text) (place : Nat) :
    (ix.set key place).find? other = if other = key then some place else ix.find? other := by
  rw [set, find?_cons, find?_erase]
  grind

/-! ### Following a list -/

theorem indexes_nil : Indexes [] [] := by
  intro key i
  simp [find?]

/-- No key stands at two places. -/
theorem Indexes.nodup (h : ix.Indexes keys) : keys.Nodup := by
  rw [List.Nodup, List.pairwise_iff_getElem]
  intro i j hi hj hlt heq
  have hfirst := (h keys[i] i).2 (List.getElem?_eq_getElem hi)
  have hsecond := (h keys[j] j).2 (List.getElem?_eq_getElem hj)
  rw [heq, hsecond] at hfirst
  cases hfirst
  exact Nat.lt_irrefl _ hlt

theorem Indexes.find?_eq_none_iff (h : ix.Indexes keys) : ix.find? key = none ↔ key ∉ keys := by
  rw [List.mem_iff_getElem?, Option.eq_none_iff_forall_ne_some, not_exists]
  exact forall_congr' fun i => not_congr (h key i)

/-- A key that does not stand in the second part of a list stands where it does in the first. -/
theorem getElem?_append_eq_some_iff (hkey : key ∉ back) :
    (front ++ back)[i]? = some key ↔ front[i]? = some key := by
  rw [List.getElem?_append]
  split
  · rfl
  · rename_i hi
    constructor
    · exact fun h => absurd (List.mem_of_getElem? h) hkey
    · intro h
      rw [List.getElem?_eq_none (Nat.le_of_not_lt hi)] at h
      cases h

theorem not_mem_of_nodup_append (h : (front ++ key :: back).Nodup) : key ∉ front :=
  fun hmem => (List.nodup_append.1 h).2.2 key hmem key List.mem_cons_self rfl

/-- A new key has its place at the end. -/
theorem Indexes.set_length (h : ix.Indexes keys) (hkey : key ∉ keys) :
    (ix.set key keys.length).Indexes (keys ++ [key]) := by
  intro other i
  rw [find?_set]
  split
  · rename_i heq
    subst heq
    rw [List.getElem?_append]
    grind
  · rename_i hne
    rw [h other i, getElem?_append_eq_some_iff (by simpa using hne)]

/-- An index that is right about the first keys of a list is right about all of them once the others
are put at their places, whatever it told of these before. -/
theorem indexes_setFrom (hnodup : (front ++ back).Nodup)
    (h : ∀ key ∉ back, ∀ i, ix.find? key = some i ↔ front[i]? = some key) :
    (ix.setFrom front.length back).Indexes (front ++ back) := by
  -- by induction on the keys still to be put, each of them joining those the index is right about
  induction back generalizing front ix with
  | nil => simpa [setFrom, Indexes] using h
  | cons k back ih =>
    have hsplit : front ++ k :: back = (front ++ [k]) ++ back := by simp
    have hlen : front.length + 1 = (front ++ [k]).length := by simp
    have hk : k ∉ front := not_mem_of_nodup_append hnodup
    rw [hsplit] at hnodup ⊢
    rw [setFrom, hlen]
    refine ih hnodup fun key hkey i => ?_
    rw [find?_set]
    split
    · rename_i heq
      subst heq
      grind
    · rename_i hne
      rw [h key (by simp [hne, hkey]), getElem?_append_eq_some_iff (by simpa using hne)]

theorem Indexes.erase_setFrom (h : ix.Indexes (front ++ key :: back)) :
    ((ix.erase key).setFrom front.length back).Indexes (front ++ back) := by
  have hnodup := h.nodup
  refine indexes_setFrom (hnodup.sublist (by simp)) fun other hother i => ?_
  rw [find?_erase]
  split
  · rename_i heq
    subst heq
    simp only [reduceCtorEq, false_iff]
    exact fun hi => not_mem_of_nodup_append hnodup (List.mem_of_getElem? hi)
  · rename_i hne
    rw [h other i, getElem?_append_eq_some_iff (by simp [hne, hother])]

/-- Without the key at a place, the keys behind it stand one place further to the front. -/
theorem Indexes.eraseIdx (h : ix.Indexes keys) (hkey : keys[i]? = some key) :
    ((ix.erase key).setFrom i ((keys.eraseIdx i).drop i)).Indexes (keys.eraseIdx i) := by
  obtain ⟨hi, rfl⟩ := List.getElem?_eq_some_iff.1 hkey
  have hlen : (keys.take i).length = i := List.length_take_of_le (Nat.le_of_lt hi)
  have hrest : keys.eraseIdx i = keys.take i ++ keys.drop (i + 1) :=
    List.eraseIdx_eq_take_drop_succ keys i
  have hdrop : (keys.take i ++ keys.drop (i + 1)).drop i = keys.drop (i + 1) := by
    rw [List.drop_append_of_le_length (by omega)]
    simp
  have hsplit : keys = keys.take i ++ keys[i] :: keys.drop (i + 1) := by simp
  rw [hrest, hdrop]
  rw [hsplit] at h
  simpa [hlen] using h.erase_setFrom

end Index

end MiniProgram
