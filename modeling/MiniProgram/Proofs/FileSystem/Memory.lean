import MiniProgram.FileSystem.Memory
import MiniProgram.Proofs.Keyed
import MiniProgram.Proofs.Path.Clean

/-!
Files in memory, through what is stored under a key.

* `get?_put`, `get?_removeAll`: what storing a file and removing a tree do to each key.
* `key_spell`: the key of a cleaned path is the spelling of its segments without the root.
* `covers_join_iff`: a key covers exactly the keys that continue its segments.
-/

namespace MiniProgram

namespace Memory

open MiniProgram.Path

variable {m : Memory} {k k' content p : Text}

/-! ### What is stored -/

/-- Storing content under a key changes what is stored there and nowhere else. -/
@[simp] theorem get?_put (m : Memory) (k content k' : Text) :
    (m.put k content).get? k' = if k' = k then some content else m.get? k' := by
  rw [put, get?, get?, ← lookup_upsert m.files k content k']
  split_ifs <;> rfl

lemma lookup_filter_keys (files : List (Text × Text)) (keep : Text → Bool) (k : Text) :
    (files.filter fun f => keep f.1).lookup k = if keep k then files.lookup k else none := by
  induction files with
  | nil => simp
  | cons f files ih =>
      rw [List.filter_cons, lookup_cons_ite]
      by_cases hk : k = f.1
      · by_cases hf : keep f.1 = true
        · rw [if_pos hf, lookup_cons_ite, if_pos hk, if_pos hk, hk, if_pos hf]
        · rw [if_neg hf, ih, hk, if_neg hf, if_neg hf]
      · by_cases hf : keep f.1 = true
        · rw [if_pos hf, lookup_cons_ite, if_neg hk, if_neg hk, ih]
        · rw [if_neg hf, if_neg hk, ih]

/-- Removing a tree takes away what its key covers and nothing else. -/
@[simp] theorem get?_removeAll (m : Memory) (p k : Text) :
    (m.removeAll p).get? k = if covers (key p) k then none else m.get? k := by
  rw [removeAll, get?, get?, lookup_filter_keys m.files (fun x => !covers (key p) x)]
  cases covers (key p) k <;> rfl

/-! ### Keys of paths -/

/-- Cleaned, an absolute path is the root or its key behind a slash. -/
lemma clean_of_key (h : isAbsolute p = true) :
    clean p = ("/" : Text) ∨ clean p = Byte.slash :: key p := by
  obtain ⟨t, hclean⟩ : ∃ t, clean p = Byte.slash :: t := ⟨_, if_pos h⟩
  have htrim : Text.trimStart (Byte.slash :: t) "/" = t := Text.trimStart_append [Byte.slash] t
  rw [key, hclean, htrim]
  by_cases ht : t = []
  · exact Or.inl (by rw [ht]; rfl)
  · exact Or.inr (by rw [if_neg ht])

variable {rooted : Bool} {segs rest : List Text}

/-- The key of a cleaned path is spelled by its segments. -/
lemma key_spell (h : Resolved rooted segs) (hne : segs ≠ []) :
    key (spell rooted segs) = Text.join [Byte.slash] segs := by
  have hjoin : Text.join [Byte.slash] segs ≠ [] := fun hj =>
    hne ((Text.join_eq_nil_iff fun s hs => h.ne_nil hs).1 hj)
  have htrim : Text.trimStart (spell rooted segs) "/" = Text.join [Byte.slash] segs := by
    cases rooted with
    | true => exact Text.trimStart_append [Byte.slash] _
    | false =>
        refine Text.trimStart_eq_self fun ⟨t, ht⟩ => ?_
        have habs := h.isAbsolute_spell
        rw [← ht, slash_text] at habs
        exact absurd habs (by simp [isAbsolute])
  rw [key, h.clean_spell (Or.inr hne), htrim, if_neg hjoin]

lemma covers_iff {top k : Text} : covers top k = true ↔ k = top ∨ top ++ ("/" : Text) <+: k := by
  simp [covers, Text.startsWith_iff]

/-- A key covers those that continue its segments. -/
lemma covers_join_append (hne : segs ≠ []) :
    covers (Text.join [Byte.slash] segs) (Text.join [Byte.slash] (segs ++ rest)) = true := by
  rw [covers_iff]
  by_cases hrest : rest = []
  · subst hrest
    exact Or.inl (by rw [List.append_nil])
  · rw [Text.join_append hne hrest, slash_text]
    exact Or.inr (List.prefix_append _ _)

/-- A key covers only those that continue its segments. -/
theorem covers_join_iff {segs' : List Text} (hne : segs ≠ []) (hs : ∀ x ∈ segs, Byte.slash ∉ x)
    (hne' : segs' ≠ []) (hs' : ∀ x ∈ segs', Byte.slash ∉ x) :
    covers (Text.join [Byte.slash] segs) (Text.join [Byte.slash] segs') = true
      ↔ segs <+: segs' := by
  constructor
  · intro h
    rw [← Text.split_join hne' hs', ← Text.split_join hne hs]
    rcases covers_iff.1 h with heq | ⟨rest, hrest⟩
    · rw [heq]
    · rw [← hrest, slash_text, List.append_assoc, List.singleton_append, Text.split_append]
      exact List.prefix_append _ _
  · rintro ⟨rest, rfl⟩
    exact covers_join_append hne

/-- Covering is judged alike on keys and on the rooted paths they stand for. -/
lemma covers_cons (b : UInt8) (top k : Text) : covers (b :: top) (b :: k) = covers top k := by
  rw [Bool.eq_iff_iff, covers_iff, covers_iff, List.cons_append, List.cons_prefix_cons]
  simp

end Memory

end MiniProgram
