import MiniProgram.Proofs.Keyed
import MiniProgram.Text.Basic

/-!
Lists of texts in byte order.

* `pairwise_mergeSort_key`: what is sorted by a key is in the order of the key.
* `pairwise_sortUnique`, `mem_sortUnique`: the members of a list, in ascending order and each once.
* `eq_of_pairwise_key`: a list in ascending order of a key is determined by its members.
-/

namespace MiniProgram

namespace Text

variable {α : Type} {xs ys : List α} {ts us : List Text} {t u : Text}

/-- The order tells two texts apart one way or the other. -/
lemma lt_of_le_of_ne (h : le t u = true) (hne : t ≠ u) : t < u := by
  by_contra hlt
  rw [le, decide_eq_true_iff] at h
  exact hne (List.le_antisymm h (List.not_lt.1 hlt))

/-- What is sorted by a key is in the order of the key. -/
lemma pairwise_mergeSort_key (key : α → Text) (xs : List α) :
    (xs.mergeSort fun x y => le (key x) (key y)).Pairwise fun x y =>
      le (key x) (key y) = true := by
  refine List.pairwise_mergeSort (fun x y z hxy hyz => ?_) (fun x y => ?_) xs
  · rw [le, decide_eq_true_iff] at hxy hyz ⊢
    exact List.le_trans hxy hyz
  · rw [Bool.or_eq_true, le, le, decide_eq_true_iff, decide_eq_true_iff]
    exact List.le_total (key x) (key y)

/-- What is sorted by a key that no two members share is in strictly ascending order. -/
lemma pairwise_lt_mergeSort_key (key : α → Text) (h : (xs.map key).Nodup) :
    (xs.mergeSort fun x y => le (key x) (key y)).Pairwise fun x y => key x < key y := by
  have hnodup : ((xs.mergeSort fun x y => le (key x) (key y)).map key).Nodup :=
    ((List.mergeSort_perm xs _).map key).nodup_iff.2 h
  have hne := List.pairwise_map.1 hnodup
  exact (pairwise_mergeSort_key key xs).imp₂ (fun _ _ => lt_of_le_of_ne) hne

/-- The members of a list are those of the list sorted and without repetition. -/
@[simp] lemma mem_sortUnique : t ∈ sortUnique ts ↔ t ∈ ts := by
  rw [sortUnique, sort, List.mem_mergeSort, List.mem_eraseDups]

lemma pairwise_sortUnique (ts : List Text) : (sortUnique ts).Pairwise (· < ·) := by
  rw [sortUnique, sort]
  exact pairwise_lt_mergeSort_key id (by simpa using nodup_eraseDups ts)

lemma nodup_sortUnique (ts : List Text) : (sortUnique ts).Nodup := by
  rw [sortUnique, sort]
  exact (List.mergeSort_perm _ _).nodup_iff.2 (nodup_eraseDups ts)

/-- A list in ascending order of a key is determined by its members. -/
lemma eq_of_pairwise_key (key : α → Text) (hx : xs.Pairwise fun x y => key x < key y)
    (hy : ys.Pairwise fun x y => key x < key y) (hmem : ∀ x, x ∈ xs ↔ x ∈ ys) : xs = ys := by
  have : Std.Irrefl fun x y : α => key x < key y := ⟨fun x => List.lt_irrefl (key x)⟩
  have : Std.Antisymm fun x y : α => key x < key y :=
    ⟨fun x y hxy hyx => absurd hyx (List.lt_asymm hxy)⟩
  exact hx.eq_of_mem_iff hy hmem

/-- Texts in ascending order are determined by their members. -/
lemma eq_of_pairwise_lt (ht : ts.Pairwise (· < ·)) (hu : us.Pairwise (· < ·))
    (hmem : ∀ t, t ∈ ts ↔ t ∈ us) : ts = us :=
  eq_of_pairwise_key id ht hu hmem

end Text

end MiniProgram
