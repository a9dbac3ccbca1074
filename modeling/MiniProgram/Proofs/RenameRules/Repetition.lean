import MiniProgram.Proofs.RenameRules.FinalForm
import MiniProgram.Proofs.Text.Search

/-!
Renaming a renamed path.

The check of a rule list compares each extension that is written with each that is swapped. What a
swap writes does not stand alone, though: an extension may match it together with the end of the
stem before it, and a leading text may match the whole stem and the beginning of it. A list that is
not refused can therefore rename its own output.

* `apply_eq_self_iff`: what renaming leaves as it is are the paths in final form.
* `final_swap_iff`: when the output of a swap is in final form.
* `swapFor?_of_suffix`: the swap that is chosen is also chosen for the end of the path.
* `apply_apply_eq_iff`: when renaming twice is renaming once, for a path and for all paths.
* `exists_apply_apply_ne`: two lists that are not refused and rename their own output.
-/

namespace MiniProgram

namespace RenameRules

open MiniProgram.Path

variable {rs : RenameRules} {p body : Text} {r : RenameRule}

/-! ### The check -/

/-- In a rule list that is not refused a swap writes something, and no extension that is swapped
ends one that is written. -/
lemma checked_of_flaw?_eq_none (h : flaw? rs = none) :
    (∀ r ∈ rs, r.fromExt ≠ [] → r.toExt ≠ [])
    ∧ ∀ r ∈ rs, ∀ r' ∈ rs, r.fromExt ≠ [] → r'.fromExt ≠ [] → ¬ r'.fromExt <:+ r.toExt := by
  rw [flaw?, Option.or_eq_none_iff, List.findSome?_eq_none_iff, List.findSome?_eq_none_iff] at h
  obtain ⟨hrule, hrematch⟩ := h
  have htarget : ∀ r ∈ rs, r.fromExt ≠ [] → r.toExt ≠ [] := by
    intro r hr hne hto
    have hflaw := hrule r hr
    rw [ruleFlaw?] at hflaw
    split_ifs at hflaw with _ hnone
    exact hnone ⟨hne, hto⟩
  refine ⟨htarget, fun r hr r' hr' hne hne' hsuffix => ?_⟩
  have hnone := hrematch r hr
  rw [rematch?, if_neg (htarget r hr hne), Option.map_eq_none_iff, List.find?_eq_none] at hnone
  exact hnone r' hr' (swaps_iff.2 ⟨hne', hsuffix⟩)

/-! ### Stripping -/

lemma stripOnce_suffix (rs : RenameRules) (p : Text) : stripOnce rs p <:+ p := by
  refine List.foldlRecOn (motive := (· <:+ p)) rs _ (List.suffix_refl p) fun q hq r _ => ?_
  split_ifs
  · exact hq
  · exact (Text.trimStart_suffix q r.strip).trans hq

lemma stripAll_suffix (rs : RenameRules) (p : Text) : stripAll rs p <:+ p := by
  fun_induction stripAll rs p with
  | case1 p hlt ih => exact ih.trans (stripOnce_suffix rs p)
  | case2 p hlt => exact List.suffix_refl p

/-! ### Paths that are left as they are -/

/-- For a list that is not refused, renaming leaves a path as it is only if it is in final form: a
swap cannot put back what was stripped. -/
theorem apply_eq_self_iff (h : flaw? rs = none) : apply rs p = p ↔ Final rs p := by
  refine ⟨fun hself => ?_, apply_eq_self⟩
  by_cases hp : p = []
  · exact hp ▸ final_nil rs
  have hsuffix := stripAll_suffix rs p
  have hstrip := not_prefix_stripAll rs p
  cases hswap : swapFor? rs (stripAll rs p) with
  | none =>
      have hsame : stripAll rs p = p := (apply_of_none hswap hp).symm.trans hself
      rw [hsame] at hstrip hswap
      exact ⟨hstrip, swapFor?_eq_none_iff.1 hswap⟩
  | some r =>
      -- the path would end both with what is swapped and with what is written in its place
      obtain ⟨hmem, hmatch⟩ := swapFor?_eq_some hswap
      obtain ⟨hne, hfrom⟩ := swaps_iff.1 hmatch
      obtain ⟨body, hbody, happly⟩ := apply_of_some hswap hp
      have hnot := (checked_of_flaw?_eq_none h).2 r hmem r hmem hne hne
      have hto : r.toExt <:+ p := ⟨body, happly.symm.trans hself⟩
      have hlong : r.toExt <:+ r.fromExt :=
        (List.suffix_or_suffix_of_suffix (hfrom.trans hsuffix) hto).resolve_left hnot
      have hlength : p.length = body.length + r.toExt.length := by
        rw [← List.length_append, ← happly, hself]
      have hshort := hsuffix.length_le
      rw [hbody, List.length_append, hlength] at hshort
      have hle := hlong.length_le
      have heq : r.toExt = r.fromExt := hlong.eq_of_length (by omega)
      exact absurd (heq ▸ List.suffix_refl r.fromExt) hnot

/-! ### What a swap writes -/

/-- No rule matches what a swap writes behind a stem: no extension that is swapped is what is
written with an end of the stem before it, and no leading text is the stem with a beginning of what
is written behind it. -/
structure Undisturbed (rs : RenameRules) (body : Text) (r : RenameRule) : Prop where
  swap : ∀ r' ∈ rs, ∀ x, x ≠ [] → r'.fromExt = x ++ r.toExt → ¬ x <:+ body
  strip : ∀ r' ∈ rs, ∀ y, y ≠ [] → r'.strip = body ++ y → ¬ y <+: r.toExt

/-- What a swap writes behind a stem from which nothing can be stripped is in final form exactly if
no rule matches it together with the stem. -/
theorem final_swap_iff (h : flaw? rs = none) (hr : r ∈ rs) (hne : r.fromExt ≠ [])
    (hstrip : ∀ r' ∈ rs, r'.strip ≠ [] → ¬ r'.strip <+: body ++ r.fromExt) :
    Final rs (body ++ r.toExt) ↔ Undisturbed rs body r := by
  obtain ⟨htarget, hcheck⟩ := checked_of_flaw?_eq_none h
  constructor
  · intro hfinal
    refine ⟨fun r' hr' x hx hfrom hsuffix => ?_, fun r' hr' y hy hlead hpre => ?_⟩
    · have hswap : r'.swaps (body ++ r.toExt) = true := by
        refine swaps_iff.2 ⟨?_, ?_⟩
        · rw [hfrom]
          exact List.append_ne_nil_of_left_ne_nil hx _
        · rw [hfrom]
          exact List.suffix_append_self_iff.2 hsuffix
      rw [hfinal.swap r' hr'] at hswap
      cases hswap
    · refine hfinal.strip r' hr' ?_ ?_
      · rw [hlead]
        exact List.append_ne_nil_of_right_ne_nil _ hy
      · rw [hlead]
        exact (List.prefix_append_right_inj body).2 hpre
  · -- a rule that matches the result matches one of its two parts, or reaches over the cut
    intro hfree
    refine ⟨fun r' hr' hne' hpre => ?_, fun r' hr' => ?_⟩
    · rcases List.prefix_or_prefix_of_prefix hpre (List.prefix_append body r.toExt) with
        hin | ⟨y, hlead⟩
      · exact hstrip r' hr' hne' (hin.trans (List.prefix_append body _))
      · by_cases hy : y = []
        · rw [hy, List.append_nil] at hlead
          exact hstrip r' hr' hne' (hlead ▸ List.prefix_append body _)
        · rw [← hlead, List.prefix_append_right_inj] at hpre
          exact hfree.strip r' hr' y hy hlead.symm hpre
    · by_contra hagain
      obtain ⟨hne', hsuffix⟩ := swaps_iff.1 (eq_true_of_ne_false hagain)
      rcases Text.suffix_append_cases hsuffix with hin | ⟨x, hx, hfrom⟩
      · exact hcheck r hr r' hr' hne hne' hin
      · by_cases hnil : x = []
        · rw [hnil, List.nil_append] at hfrom
          exact hcheck r hr r' hr' hne hne' (hfrom ▸ List.suffix_refl _)
        · exact hfree.swap r' hr' x hnil hfrom hx

/-- Renaming a renamed path changes nothing exactly if no rule matches what the swap wrote. -/
lemma apply_apply_eq_iff_undisturbed (h : flaw? rs = none) (p : Text) :
    apply rs (apply rs p) = apply rs p
      ↔ ∀ r body, swapFor? rs (stripAll rs p) = some r → stripAll rs p = body ++ r.fromExt →
        Undisturbed rs body r := by
  rw [apply_eq_self_iff h]
  by_cases hp : p = []
  · -- the empty path stays, and no extension is found at its end
    have hnil : stripAll rs p = [] := List.suffix_nil.1 (hp ▸ stripAll_suffix rs p)
    have hfinal : Final rs (apply rs p) := by
      rw [apply, if_pos hp]
      exact final_nil rs
    refine iff_of_true hfinal fun r body hswap _ => ?_
    obtain ⟨hne, hsuffix⟩ := swaps_iff.1 (swapFor?_eq_some hswap).2
    rw [hnil, List.suffix_nil] at hsuffix
    exact absurd hsuffix hne
  have hstrip := not_prefix_stripAll rs p
  cases hswap : swapFor? rs (stripAll rs p) with
  | none =>
      rw [apply_of_none hswap hp]
      exact iff_of_true ⟨hstrip, swapFor?_eq_none_iff.1 hswap⟩ (by simp)
  | some r =>
      obtain ⟨hmem, hmatch⟩ := swapFor?_eq_some hswap
      obtain ⟨body, hbody, happly⟩ := apply_of_some hswap hp
      rw [hbody] at hstrip
      rw [happly, final_swap_iff h hmem (swaps_iff.1 hmatch).1 hstrip, hbody]
      constructor
      · intro hfree r' body' hr' hbody'
        cases hr'
        rwa [← List.append_cancel_right hbody']
      · intro hall
        exact hall r body rfl rfl

/-! ### Which swap is chosen -/

/-- The swap that is chosen has the longest extension of those that match. -/
lemma length_le_of_swapFor? {r' : RenameRule} (h : swapFor? rs p = some r) (hr' : r' ∈ rs)
    (hswaps : r'.swaps p = true) : r'.fromExt.length ≤ r.fromExt.length := by
  induction rs using List.reverseRecOn generalizing r with
  | nil => cases hr'
  | append_singleton rs last ih =>
      rw [swapFor?, List.foldl_concat, ← swapFor?] at h
      rcases List.mem_append.1 hr' with hr' | hr'
      · -- what is chosen so far is at least as long, and what comes after is longer still
        cases hbest : swapFor? rs p with
        | none =>
            rw [swapFor?_eq_none_iff.1 hbest r' hr'] at hswaps
            cases hswaps
        | some best =>
            have hle := ih hbest hr'
            rw [hbest] at h
            dsimp only at h
            split_ifs at h with _ hlonger
            · cases h
              omega
            · cases h
              exact hle
            · cases h
              exact hle
      · rw [List.mem_singleton.1 hr'] at hswaps ⊢
        rw [if_pos hswaps] at h
        split at h
        · cases h
          exact le_rfl
        · split_ifs at h with hlonger
          · cases h
            exact le_rfl
          · cases h
            omega

/-- The swap that is chosen for a path is also chosen for every end of the path that it matches. -/
lemma swapFor?_of_suffix {w : Text} (h : swapFor? rs p = some r) (hw : w <:+ p)
    (hr : r.fromExt <:+ w) : swapFor? rs w = some r := by
  have hsame : ∀ r' ∈ rs, r'.swaps w = r'.swaps p := by
    intro r' hr'
    rw [Bool.eq_iff_iff]
    constructor
    · intro hswaps
      obtain ⟨hne, hsuffix⟩ := swaps_iff.1 hswaps
      exact swaps_iff.2 ⟨hne, hsuffix.trans hw⟩
    · intro hswaps
      obtain ⟨hne, hsuffix⟩ := swaps_iff.1 hswaps
      have hle := (length_le_of_swapFor? h hr' hswaps).trans hr.length_le
      exact swaps_iff.2 ⟨hne, List.suffix_of_suffix_length_le hsuffix hw hle⟩
  rw [← h, swapFor?, swapFor?]
  refine List.foldl_ext _ _ _ fun best r' hr' => ?_
  rw [hsame r' hr']

/-! ### Renaming twice -/

/-- Rules of which none writes the end of an extension that is swapped, unless another swap is
chosen wherever the rest of that extension stands before. -/
def Repeatable (rs : RenameRules) : Prop :=
  ∀ r ∈ rs, ∀ r' ∈ rs, r.toExt <:+ r'.fromExt →
    swapFor? rs (Text.trimEnd r'.fromExt r.toExt ++ r.fromExt) ≠ some r

instance (rs : RenameRules) : Decidable (Repeatable rs) :=
  inferInstanceAs (Decidable (∀ r ∈ rs, ∀ r' ∈ rs, _ → _))

/-- A text without a slash begins with no leading text that ends with one. -/
lemma not_prefix_of_no_slash {lead : Text} (hlead : Text.endsWith lead "/" = true)
    (hp : Byte.slash ∉ p) : ¬ lead <+: p := by
  intro hpre
  have hslash : [Byte.slash] <:+ lead := Text.endsWith_iff.1 hlead
  exact hp (hpre.subset (hslash.subset List.mem_cons_self))

/-- Where leading texts end with a slash and extensions hold none, leading texts do not meet what is
written, and only the extensions have to be compared. -/
lemma forall_apply_apply_eq_iff (h : flaw? rs = none)
    (hlead : ∀ r ∈ rs, r.strip = [] ∨ Text.endsWith r.strip "/" = true)
    (hext : ∀ r ∈ rs, Byte.slash ∉ r.fromExt ∧ Byte.slash ∉ r.toExt) :
    (∀ p, apply rs (apply rs p) = apply rs p) ↔ Repeatable rs := by
  have htarget := (checked_of_flaw?_eq_none h).1
  simp only [apply_apply_eq_iff_undisturbed h]
  constructor
  · intro hall r hr r' hr' hsuffix hswap
    obtain ⟨x, hx⟩ := hsuffix
    rw [← hx, Text.trimEnd_append] at hswap
    have hne := (swaps_iff.1 (swapFor?_eq_some hswap).2).1
    have hfree : Byte.slash ∉ x ++ r.fromExt := by
      have hfrom := (hext r' hr').1
      rw [← hx, List.mem_append, not_or] at hfrom
      rw [List.mem_append, not_or]
      exact ⟨hfrom.1, (hext r hr).1⟩
    -- the path to try has no slash, so nothing is stripped from it
    have hself : stripAll rs (x ++ r.fromExt) = x ++ r.fromExt :=
      stripAll_eq_self fun r₁ hr₁ hne₁ =>
        not_prefix_of_no_slash ((hlead r₁ hr₁).resolve_left hne₁) hfree
    have hpath := hall (x ++ r.fromExt) r x (hself.symm ▸ hswap) hself
    by_cases hnil : x = []
    · -- what is written would itself be swapped, which the check refuses
      rw [hnil, List.nil_append] at hx
      have hne' : r'.fromExt ≠ [] := hx ▸ htarget r hr hne
      exact (checked_of_flaw?_eq_none h).2 r hr r' hr' hne hne' (hx ▸ List.suffix_refl _)
    · exact hpath.swap r' hr' x hnil hx.symm (List.suffix_refl x)
  · intro hrep p r body hswap hbody
    obtain ⟨hmem, hmatch⟩ := swapFor?_eq_some hswap
    refine ⟨fun r' hr' x hx hfrom hsuffix => ?_, fun r' hr' y hy hstrip hpre => ?_⟩
    · refine hrep r hmem r' hr' ⟨x, hfrom.symm⟩ ?_
      rw [hfrom, Text.trimEnd_append]
      refine swapFor?_of_suffix hswap ?_ (List.suffix_append _ _)
      rw [hbody]
      exact List.suffix_append_self_iff.2 hsuffix
    · -- a leading text that reaches into the extension would end with a slash that stands in it
      have hend : Text.endsWith r'.strip "/" = true :=
        (hlead r' hr').resolve_left (hstrip ▸ List.append_ne_nil_of_right_ne_nil _ hy)
      have hslash : Byte.slash ∈ y := by
        obtain ⟨init, last, rfl⟩ := List.eq_nil_or_concat' y |>.resolve_left hy
        obtain ⟨front, hfront⟩ := Text.endsWith_iff.1 hend
        rw [hstrip, slash_text, ← List.append_assoc] at hfront
        rw [(List.append_singleton_inj.1 hfront).2]
        simp
      exact (hext r hmem).2 (hpre.subset hslash)

/-- **Renaming twice.** For a rule list that is not refused, a renamed path is not changed by
renaming it again exactly if no rule matches what the swap wrote together with the stem. All
renamed paths are such if no extension that is written ends one that is swapped or begins with an
end of a leading text. Where leading texts end with a slash and extensions hold none, they are such
exactly if the rules are repeatable. -/
theorem apply_apply_eq_iff (h : flaw? rs = none) :
    (∀ p, apply rs (apply rs p) = apply rs p
      ↔ ∀ r body, swapFor? rs (stripAll rs p) = some r → stripAll rs p = body ++ r.fromExt →
        Undisturbed rs body r)
    ∧ (Settled rs →
      (∀ r ∈ rs, ∀ r' ∈ rs, r.fromExt ≠ [] → ∀ y, y ≠ [] → y <:+ r'.strip → ¬ y <+: r.toExt) →
        ∀ p, apply rs (apply rs p) = apply rs p)
    ∧ ((∀ r ∈ rs, r.strip = [] ∨ Text.endsWith r.strip "/" = true) →
      (∀ r ∈ rs, Byte.slash ∉ r.fromExt ∧ Byte.slash ∉ r.toExt) →
        ((∀ p, apply rs (apply rs p) = apply rs p) ↔ Repeatable rs)) := by
  refine ⟨apply_apply_eq_iff_undisturbed h, fun hsettled hleads p => ?_,
    forall_apply_apply_eq_iff h⟩
  rw [apply_apply_eq_iff_undisturbed h]
  intro r body hswap hbody
  obtain ⟨hmem, hmatch⟩ := swapFor?_eq_some hswap
  have hne := (swaps_iff.1 hmatch).1
  refine ⟨fun r' hr' x hx hfrom _ => ?_, fun r' hr' y hy hstrip => ?_⟩
  · have hne' : r'.fromExt ≠ [] := hfrom ▸ List.append_ne_nil_of_left_ne_nil hx _
    exact (hsettled r hmem r' hr' hne hne').2 ⟨x, hfrom.symm⟩
  · exact hleads r hmem r' hr' hne y hy ⟨body, hstrip.symm⟩

/-- An extension that is written may end one that is swapped, if a third rule takes the paths in
which the rest of it stands before. -/
theorem apply_apply_eq_iff_minified :
    ∃ rs : RenameRules, flaw? rs = none
      ∧ rs = [.swapping ".ts" ".js", .swapping ".min.js" ".mjs", .swapping ".min.ts" ".mjs"]
      ∧ ¬ Settled rs ∧ ∀ p, apply rs (apply rs p) = apply rs p := by
  have hflaw : flaw? [.swapping ".ts" ".js", .swapping ".min.js" ".mjs",
      .swapping ".min.ts" ".mjs"] = none := by decide +kernel
  obtain ⟨-, -, hall⟩ := apply_apply_eq_iff hflaw
  refine ⟨_, hflaw, rfl, fun hsettled => ?_,
    (hall (by decide +kernel) (by decide +kernel)).2 (by decide +kernel)⟩
  have hwritten := hsettled (.swapping ".ts" ".js") (by simp) (.swapping ".min.js" ".mjs") (by simp)
    (by decide) (by decide)
  exact hwritten.2 (by decide)

/-- Two lists that are not refused rename their own output: the one swaps what it wrote together
with the end of the stem, the other strips it together with the whole stem. -/
theorem exists_apply_apply_ne :
    (flaw? [.swapping ".d.ts" ".ts"] = none
      ∧ apply [.swapping ".d.ts" ".ts"] (apply [.swapping ".d.ts" ".ts"] "a.d.d.ts")
        ≠ apply [.swapping ".d.ts" ".ts"] "a.d.d.ts")
    ∧ flaw? [.stripping "a.js", .swapping ".ts" ".js"] = none
      ∧ apply [.stripping "a.js", .swapping ".ts" ".js"]
          (apply [.stripping "a.js", .swapping ".ts" ".js"] "a.ts")
        ≠ apply [.stripping "a.js", .swapping ".ts" ".js"] "a.ts" := by
  decide +kernel

end RenameRules

end MiniProgram
