import Mathlib.Tactic

/-!
Lists whose members have a key that no two of them share, and lists from which repetitions are
erased.

* `nodup_map_append_singleton_iff`: a member may be added exactly if its key is new.
* `find?_key_eq_some_iff`: a search for a key finds exactly the member that has it.
* `lookup_upsert`: what is put under a key, in the place of an earlier entry, is found there.
* `perm_flatMap_filter`: what has one key, taken key by key, is all there is.
* `find?_eq_some_iff_idxOf`: a search finds the member that comes first.
* `nodup_eraseDups`, `pairwise_idxOf_eraseDups`: what is left where repetitions are erased, and in
  which order.
-/

namespace MiniProgram

variable {α κ : Type} {key : α → κ} {xs : List α} {x : α}

/-- Keys stay distinct with one more member exactly if its key is new. -/
lemma nodup_map_append_singleton_iff :
    ((xs ++ [x]).map key).Nodup ↔ (xs.map key).Nodup ∧ ∀ y ∈ xs, key y ≠ key x := by
  rw [List.map_append, List.map_singleton, ← List.concat_eq_append, List.nodup_concat,
    and_comm, List.mem_map]
  simp only [ne_eq, not_exists, not_and]

variable [DecidableEq κ] {k : κ}

/-- Under distinct keys, a search finds exactly the member with the key. -/
lemma find?_key_eq_some_iff (h : (xs.map key).Nodup) :
    xs.find? (fun y => key y = k) = some x ↔ x ∈ xs ∧ key x = k := by
  constructor
  · intro hx
    exact ⟨List.mem_of_find?_eq_some hx, by simpa using List.find?_some hx⟩
  · rintro ⟨hx, rfl⟩
    have hsome : (xs.find? fun y => key y = key x).isSome = true := by
      rw [List.find?_isSome]
      exact ⟨x, hx, by simp⟩
    obtain ⟨y, hfound⟩ := Option.isSome_iff_exists.1 hsome
    have hy : key y = key x := by simpa using List.find?_some hfound
    rw [hfound, List.inj_on_of_nodup_map h (List.mem_of_find?_eq_some hfound) hx hy]

/-- A search finds nothing exactly if no member has the key. -/
lemma find?_key_eq_none_iff : xs.find? (fun y => key y = k) = none ↔ ∀ y ∈ xs, key y ≠ k := by
  simp

lemma not_any_key_iff : ¬ xs.any (fun y => key y = k) = true ↔ ∀ y ∈ xs, key y ≠ k := by
  simp

/-! ### Looking up a key -/

section Lookup

variable {β : Type} [BEq κ] [LawfulBEq κ]

lemma lookup_cons_ite (e : κ × β) (entries : List (κ × β)) (k : κ) :
    (e :: entries).lookup k = if k = e.1 then some e.2 else entries.lookup k := by
  rw [List.lookup_cons]
  by_cases hk : k = e.1
  · simp [hk]
  · rw [if_neg hk, beq_false_of_ne hk]

lemma lookup_map_replace (entries : List (κ × β)) (k : κ) (b : β) (k' : κ) :
    (entries.map fun e => if e.1 = k then (k, b) else e).lookup k'
      = if k' = k then (entries.lookup k).map fun _ => b else entries.lookup k' := by
  induction entries with
  | nil => simp
  | cons e entries ih =>
      rw [List.map_cons, lookup_cons_ite, lookup_cons_ite, lookup_cons_ite, ih]
      by_cases hk : k' = k
      · subst hk
        by_cases he : k' = e.1
        · simp [← he]
        · simp [he, Ne.symm he]
      · by_cases he : e.1 = k
        · simp [he, hk]
        · simp [he, hk]

/-- What is put under a key, in the place of an earlier entry or behind all others, is found there,
and nothing else changes. -/
lemma lookup_upsert (entries : List (κ × β)) (k : κ) (b : β) (k' : κ) :
    (if entries.any (·.1 = k) then entries.map fun e => if e.1 = k then (k, b) else e
      else entries ++ [(k, b)]).lookup k' = if k' = k then some b else entries.lookup k' := by
  by_cases hany : entries.any (·.1 = k) = true
  · have hsome : ∃ old, entries.lookup k = some old := by
      obtain ⟨e, he, hek⟩ := List.any_eq_true.1 hany
      rw [← Option.isSome_iff_exists, List.lookup_isSome_iff]
      exact ⟨e, he, beq_iff_eq.2 (of_decide_eq_true hek).symm⟩
    obtain ⟨old, hold⟩ := hsome
    rw [if_pos hany, lookup_map_replace, hold]
    simp
  · have hnone : entries.lookup k = none := by
      rw [List.lookup_eq_none_iff]
      intro e he
      have hek := List.any_eq_false.1 (eq_false_of_ne_true hany) e he
      exact bne_iff_ne.2 fun h => hek (decide_eq_true h.symm)
    rw [if_neg hany, List.lookup_append, lookup_cons_ite, List.lookup_nil]
    by_cases hk : k' = k
    · subst hk
      simp [hnone]
    · simp [hk]

end Lookup

/-! ### Taken key by key -/

/-- The members with one key, taken key by key, are the members with any of the keys. -/
lemma perm_flatMap_filter_mem {ks : List κ} (hks : ks.Nodup) (xs : List α) :
    (ks.flatMap fun k => xs.filter fun x => key x = k).Perm (xs.filter fun x => key x ∈ ks) := by
  induction ks with
  | nil => simp
  | cons k ks ih =>
      obtain ⟨hk, hks⟩ := List.nodup_cons.1 hks
      rw [List.flatMap_cons]
      refine ((ih hks).append_left _).trans ?_
      have hfirst : xs.filter (fun x => key x = k)
          = (xs.filter fun x => key x ∈ k :: ks).filter fun x => key x = k := by
        rw [List.filter_filter]
        refine List.filter_congr fun x _ => ?_
        by_cases hx : key x = k <;> simp [hx]
      have hrest : xs.filter (fun x => key x ∈ ks)
          = (xs.filter fun x => key x ∈ k :: ks).filter fun x => !decide (key x = k) := by
        rw [List.filter_filter]
        refine List.filter_congr fun x _ => ?_
        by_cases hx : key x = k
        · simp [hx, hk]
        · simp [hx]
      rw [hfirst, hrest]
      exact List.filter_append_perm _ _

/-- What has one key, taken key by key, is all there is. -/
lemma perm_flatMap_filter {ks : List κ} (hks : ks.Nodup) (h : ∀ x ∈ xs, key x ∈ ks) :
    (ks.flatMap fun k => xs.filter fun x => key x = k).Perm xs := by
  have hall : xs.filter (fun x => key x ∈ ks) = xs :=
    List.filter_eq_self.2 fun x hx => by simpa using h x hx
  exact (perm_flatMap_filter_mem hks xs).trans (List.Perm.of_eq hall)

/-! ### What comes first -/

/-- A search gives the member that comes first. -/
lemma find?_eq_some_iff_idxOf {α : Type} [BEq α] [LawfulBEq α] {xs : List α} {ok : α → Bool}
    {x : α} :
    xs.find? ok = some x
      ↔ x ∈ xs ∧ ok x = true ∧ ∀ y ∈ xs, ok y = true → xs.idxOf x ≤ xs.idxOf y := by
  induction xs with
  | nil => simp
  | cons a xs ih =>
      cases ha : ok a with
      | true =>
          rw [List.find?_cons_of_pos ha, Option.some_inj]
          constructor
          · rintro rfl
            exact ⟨List.mem_cons_self, ha, by simp⟩
          · rintro ⟨-, -, hfirst⟩
            -- no other member has the index of the first
            have hzero := hfirst a List.mem_cons_self ha
            rw [List.idxOf_cons_self, Nat.le_zero] at hzero
            by_contra hne
            rw [List.idxOf_cons_ne xs hne] at hzero
            exact Nat.succ_ne_zero _ hzero
      | false =>
          have hne : ∀ y, ok y = true → a ≠ y := by
            rintro y hy rfl
            rw [ha] at hy
            cases hy
          rw [List.find?_cons_of_neg (by simp [ha]), ih]
          constructor
          · rintro ⟨hx, hok, hfirst⟩
            refine ⟨List.mem_cons_of_mem _ hx, hok, fun y hy hyok => ?_⟩
            rw [List.idxOf_cons_ne xs (hne x hok), List.idxOf_cons_ne xs (hne y hyok)]
            have hy' := (List.mem_cons.1 hy).resolve_left (hne y hyok).symm
            exact Nat.succ_le_succ (hfirst y hy' hyok)
          · rintro ⟨hx, hok, hfirst⟩
            refine ⟨(List.mem_cons.1 hx).resolve_left (hne x hok).symm, hok, fun y hy hyok => ?_⟩
            have hle := hfirst y (List.mem_cons_of_mem _ hy) hyok
            rw [List.idxOf_cons_ne xs (hne x hok), List.idxOf_cons_ne xs (hne y hyok)] at hle
            exact Nat.le_of_succ_le_succ hle

/-! ### Erased repetitions -/

section Repetition

variable {α : Type} [BEq α] [LawfulBEq α] {l l' : List α} {x : α}

lemma eraseDups_concat_of_mem (h : x ∈ l) : (l ++ [x]).eraseDups = l.eraseDups := by
  simp [List.eraseDups_append, List.removeAll, h]

lemma eraseDups_concat_of_not_mem (h : x ∉ l) : (l ++ [x]).eraseDups = l.eraseDups ++ [x] := by
  simp [List.eraseDups_append, List.removeAll, h, List.eraseDups_cons]

lemma eraseDups_of_nodup (h : l.Nodup) : l.eraseDups = l := by
  induction l with
  | nil => rfl
  | cons x l ih =>
      obtain ⟨hx, hl⟩ := List.nodup_cons.1 h
      have hfilter : l.filter (fun y => !y == x) = l := by
        refine List.filter_eq_self.2 fun y hy => ?_
        have hne : y ≠ x := fun heq => hx (heq ▸ hy)
        simp [hne]
      rw [List.eraseDups_cons, hfilter, ih hl]

lemma isPrefix_eraseDups (h : l <+: l') : l.eraseDups <+: l'.eraseDups := by
  obtain ⟨t, rfl⟩ := h
  rw [List.eraseDups_append]
  exact List.prefix_append _ _

lemma nodup_eraseDups (l : List α) : l.eraseDups.Nodup := by
  induction l using List.reverseRecOn with
  | nil => exact List.nodup_nil
  | append_singleton l x ih =>
      by_cases hx : x ∈ l
      · rwa [eraseDups_concat_of_mem hx]
      · rw [eraseDups_concat_of_not_mem hx, ← List.concat_eq_append, List.nodup_concat]
        exact ⟨mt List.mem_eraseDups.1 hx, ih⟩

/-- What is left stands in the order in which it comes first. -/
lemma pairwise_idxOf_eraseDups (l : List α) :
    l.eraseDups.Pairwise fun x y => l.idxOf x < l.idxOf y := by
  induction l using List.reverseRecOn with
  | nil => exact List.Pairwise.nil
  | append_singleton l x ih =>
      have hbefore : l.eraseDups.Pairwise fun y z => (l ++ [x]).idxOf y < (l ++ [x]).idxOf z := by
        refine ih.imp_of_mem fun hy hz hlt => ?_
        rwa [List.idxOf_append_of_mem (List.mem_eraseDups.1 hy),
          List.idxOf_append_of_mem (List.mem_eraseDups.1 hz)]
      by_cases hx : x ∈ l
      · rwa [eraseDups_concat_of_mem hx]
      · rw [eraseDups_concat_of_not_mem hx, List.pairwise_append]
        refine ⟨hbefore, List.pairwise_singleton _ _, fun y hy z hz => ?_⟩
        have hmem := List.mem_eraseDups.1 hy
        rw [List.mem_singleton.1 hz, List.idxOf_append_of_mem hmem,
          List.idxOf_append_of_notMem hx]
        exact Nat.lt_add_right _ (List.idxOf_lt_length_of_mem hmem)

/-- The occurrences of what is left are all that was there. -/
lemma sum_count_eraseDups (l : List α) : (l.eraseDups.map l.count).sum = l.length := by
  classical
  have hkeys : ∀ x ∈ l, id x ∈ l.eraseDups := fun x hx => List.mem_eraseDups.2 hx
  have hperm := perm_flatMap_filter (nodup_eraseDups l) hkeys
  rw [← hperm.length_eq, List.length_flatMap]
  refine congrArg List.sum (List.map_congr_left fun x _ => ?_)
  rw [List.count_eq_length_filter]
  exact congrArg List.length (List.filter_congr fun y _ => beq_eq_decide y x)

end Repetition

end MiniProgram
