import MiniProgram.Proofs.Project.OutputDirectory

/-!
Renaming keeps plain paths plain.

* `Tidy`: rules that strip whole directories and swap extensions for proper ones.
* `isPlain_apply`: such rules turn a plain path into a plain path.
* `tidy_renameRules`: the rules of every accepted project are such.
-/

namespace MiniProgram

namespace RenameRules

open MiniProgram.Path

variable {rs : RenameRules} {p : Text}

/-- Rules that respect segments: what is stripped ends with a slash, and extensions hold none; what
is put in the place of an extension is too long to be a reference to a directory. -/
structure Tidy (rs : RenameRules) : Prop where
  strip_slash : ∀ r ∈ rs, r.strip = [] ∨ Text.endsWith r.strip "/" = true
  swap_ext : ∀ r ∈ rs, r.fromExt ≠ [] →
    Byte.slash ∉ r.fromExt ∧ Byte.slash ∉ r.toExt ∧ 2 < r.toExt.length

/-! ### Stripping -/

/-- Whole directories can be taken off a plain path. -/
lemma isPlain_trimStart {lead : Text} (h : IsPlain p) (hlead : Text.endsWith lead "/" = true) :
    IsPlain (Text.trimStart p lead) := by
  by_cases hp : lead <+: p
  · obtain ⟨rest, rfl⟩ := hp
    obtain ⟨front, rfl⟩ := Text.endsWith_iff.1 hlead
    have hnames := h.isName
    rw [slash_text, List.append_assoc, List.singleton_append, Text.split_append] at hnames
    rw [Text.trimStart_append]
    exact isPlain_of_isName fun s hs => hnames s (List.mem_append_right _ hs)
  · rwa [Text.trimStart_eq_self hp]

lemma isPlain_stripOnce (hrs : ∀ r ∈ rs, r.strip = [] ∨ Text.endsWith r.strip "/" = true)
    (h : IsPlain p) : IsPlain (stripOnce rs p) := by
  refine List.foldlRecOn rs _ h fun q hq r hr => ?_
  split_ifs with hstrip
  · exact hq
  · exact isPlain_trimStart hq ((hrs r hr).resolve_left hstrip)

lemma isPlain_stripAll (hrs : ∀ r ∈ rs, r.strip = [] ∨ Text.endsWith r.strip "/" = true)
    (h : IsPlain p) : IsPlain (stripAll rs p) := by
  fun_induction stripAll rs p with
  | case1 p hlt ih => exact ih (isPlain_stripOnce hrs h)
  | case2 p hlt => exact h

/-! ### Swapping -/

/-- The swap that is chosen is one of the rules and matches. -/
lemma swapFor?_eq_some {r : RenameRule} (h : swapFor? rs p = some r) :
    r ∈ rs ∧ r.swaps p = true := by
  refine List.foldlRecOn (motive := fun best : Option RenameRule =>
    ∀ b, best = some b → b ∈ rs ∧ b.swaps p = true) rs _ (by simp) ?_ r h
  intro best hbest x hx b hb
  by_cases hswap : x.swaps p = true
  · cases best with
    | none =>
        simp only [if_pos hswap, Option.some.injEq] at hb
        exact hb ▸ ⟨hx, hswap⟩
    | some old =>
        simp only [if_pos hswap] at hb
        split_ifs at hb
        · cases hb
          exact ⟨hx, hswap⟩
        · exact hbest b hb
  · simp only [if_neg hswap] at hb
    exact hbest b hb

/-- Swapping an extension changes the last name of a plain path into another name. -/
lemma isPlain_swap {body e e' : Text} (h : IsPlain (body ++ e)) (he : Byte.slash ∉ e)
    (he' : Byte.slash ∉ e') (hlen : 2 < e'.length) : IsPlain (body ++ e') := by
  obtain ⟨init, last, hsplit⟩ : ∃ init last, Text.split Byte.slash body = init ++ [last] :=
    ⟨_, _, (List.dropLast_append_getLast (Text.split_ne_nil Byte.slash body)).symm⟩
  have hnames := h.isName
  rw [Text.split_concat hsplit he] at hnames
  have hlast : Byte.slash ∉ last :=
    no_slash_of_mem_split (p := body) (by rw [hsplit]; simp)
  refine isPlain_of_isName ?_
  rw [Text.split_concat hsplit he']
  intro s hs
  rcases List.mem_append.1 hs with hs | hs
  · exact hnames s (by simp [hs])
  · rw [List.mem_singleton] at hs
    have hlong : ∀ t : Text, t.length ≤ 2 → s ≠ t := by
      rintro t ht rfl
      have hs' := congrArg List.length hs
      rw [List.length_append] at hs'
      omega
    refine ⟨hlong [] (by simp), hlong "." (by decide), hlong ".." (by decide), ?_⟩
    rw [hs, List.mem_append, not_or]
    exact ⟨hlast, he'⟩

/-- **Renaming keeps plain paths plain.** -/
theorem isPlain_apply (hrs : Tidy rs) (h : IsPlain p) : IsPlain (apply rs p) := by
  have hstrip := isPlain_stripAll hrs.strip_slash h
  rw [apply, if_neg h.ne_nil]
  cases hswap : swapFor? rs (stripAll rs p) with
  | none => simpa only [hswap] using hstrip
  | some r =>
      obtain ⟨hmem, hmatch⟩ := swapFor?_eq_some hswap
      obtain ⟨hne, hend⟩ : r.fromExt ≠ [] ∧ Text.endsWith (stripAll rs p) r.fromExt = true := by
        simpa [RenameRule.swaps] using hmatch
      obtain ⟨hfrom, hto, hlen⟩ := hrs.swap_ext r hmem hne
      obtain ⟨body, hbody⟩ := Text.endsWith_iff.1 hend
      simp only [hswap]
      rw [← hbody] at hstrip ⊢
      rw [Text.trimEnd_append]
      exact isPlain_swap hstrip hfrom hto hlen

end RenameRules

namespace Project

/-- The rules of an accepted project strip whole directories. -/
theorem tidy_renameRules {p : Project} (hp : Checked p) : RenameRules.Tidy p.renameRules := by
  have hswaps : ∀ r ∈ RenameRules.standardSwaps, r.strip = []
      ∧ Byte.slash ∉ r.fromExt ∧ Byte.slash ∉ r.toExt ∧ 2 < r.toExt.length := by decide
  refine ⟨fun r hr => ?_, fun r hr hne => ?_⟩
  · rcases List.mem_append.1 hr with hr | hr
    · obtain ⟨lead, hlead, rfl⟩ := List.mem_map.1 hr
      obtain ⟨hlead, -⟩ := List.mem_filter.1 hlead
      rcases List.mem_pair.1 hlead with rfl | rfl
      · exact hp.sandbox_slash
      · exact Or.inr (Text.endsWith_iff.2 (List.suffix_append _ _))
    · exact Or.inl (hswaps r hr).1
  · rcases List.mem_append.1 hr with hr | hr
    · obtain ⟨lead, -, rfl⟩ := List.mem_map.1 hr
      exact absurd rfl hne
    · exact (hswaps r hr).2

end Project

end MiniProgram
