import MiniProgram.Proofs.RenameRules.Repetition

/-!
The order of rename rules.

Leading texts are stripped in the order of the rules, so that order matters among the rules that
strip. Of the swaps that match a path the one with the longest extension is chosen; as the
extensions that match are ends of one path, two of the same length are the same. So where no two
rules swap the same extension, the choice depends on which rules there are and not on their order.

* `stripAll_congr`: stripping asks for the rules that strip, in their order.
* `Wins`: the swap with the longest extension of those that match.
* `swapFor?_eq_some_iff`: the chosen swap is the one that wins.
* `apply_reordered`: **the most specific extension wins**, wherever in the list its rule stands.
-/

namespace MiniProgram

namespace RenameRules

variable {rs rs' : RenameRules} {q : Text} {r r' : RenameRule}

/-- Rules of which no two swap the same extension. -/
def Distinct (rs : RenameRules) : Prop :=
  ((rs.filter (·.fromExt ≠ [])).map (·.fromExt)).Nodup

instance (rs : RenameRules) : Decidable (Distinct rs) :=
  inferInstanceAs (Decidable (List.Nodup _))

/-- The same rules in another order, in which those that strip keep theirs. -/
structure Reordered (rs rs' : RenameRules) : Prop where
  perm : rs.Perm rs'
  strip : rs.filter (·.strip ≠ []) = rs'.filter (·.strip ≠ [])

/-- A rule that swaps the extension of a path, with a longer extension than any other rule that
does. -/
structure Wins (rs : RenameRules) (q : Text) (r : RenameRule) : Prop where
  mem : r ∈ rs
  swaps : r.swaps q = true
  longest : ∀ r' ∈ rs, r'.swaps q = true → r' ≠ r → r'.fromExt.length < r.fromExt.length

/-! ### Stripping -/

lemma stripOnce_filter (rs : RenameRules) (p : Text) :
    stripOnce (rs.filter (·.strip ≠ [])) p = stripOnce rs p := by
  rw [stripOnce, stripOnce, List.foldl_filter]
  refine List.foldl_ext _ _ _ fun q r _ => ?_
  by_cases hstrip : r.strip = [] <;> simp [hstrip]

/-- Stripping asks for the rules that strip, in their order. -/
lemma stripAll_congr (h : rs.filter (·.strip ≠ []) = rs'.filter (·.strip ≠ [])) (p : Text) :
    stripAll rs' p = stripAll rs p := by
  have honce : ∀ p, stripOnce rs' p = stripOnce rs p := fun p => by
    rw [← stripOnce_filter rs', ← h, stripOnce_filter]
  fun_induction stripAll rs p with
  | case1 p hlt ih => rw [stripAll, honce, if_pos hlt, ih]
  | case2 p hlt => rw [stripAll, honce, if_neg hlt]

/-! ### The swap that wins -/

/-- Two rules that swap the extension of one path and are equally long swap the same extension. -/
lemma fromExt_eq_of_length_eq (h : r.swaps q = true) (h' : r'.swaps q = true)
    (hlength : r'.fromExt.length = r.fromExt.length) : r'.fromExt = r.fromExt := by
  obtain ⟨-, hsuffix⟩ := swaps_iff.1 h
  obtain ⟨-, hsuffix'⟩ := swaps_iff.1 h'
  exact (List.suffix_of_suffix_length_le hsuffix' hsuffix hlength.le).eq_of_length hlength

/-- Where no two rules swap the same extension, a rule that swaps is told by its extension. -/
lemma Distinct.eq_of_fromExt (h : Distinct rs) (hr : r ∈ rs) (hne : r.fromExt ≠ [])
    (hr' : r' ∈ rs) (heq : r'.fromExt = r.fromExt) : r' = r := by
  refine List.inj_on_of_nodup_map h ?_ ?_ heq
  · exact List.mem_filter.2 ⟨hr', by simpa [heq] using hne⟩
  · exact List.mem_filter.2 ⟨hr, by simpa using hne⟩

/-- Only one rule wins. -/
lemma Wins.eq (h : Wins rs q r) (h' : Wins rs q r') : r' = r := by
  by_contra hne
  exact (h.longest r' h'.mem h'.swaps hne).asymm (h'.longest r h.mem h.swaps (Ne.symm hne))

lemma wins_congr (h : rs.Perm rs') : Wins rs' q r ↔ Wins rs q r := by
  constructor
  · rintro ⟨hmem, hswaps, hlongest⟩
    exact ⟨h.mem_iff.2 hmem, hswaps, fun r' hr' => hlongest r' (h.mem_iff.1 hr')⟩
  · rintro ⟨hmem, hswaps, hlongest⟩
    exact ⟨h.mem_iff.1 hmem, hswaps, fun r' hr' => hlongest r' (h.mem_iff.2 hr')⟩

lemma wins_of_swapFor? (hdistinct : Distinct rs) (h : swapFor? rs q = some r) : Wins rs q r := by
  obtain ⟨hmem, hswaps⟩ := swapFor?_eq_some h
  refine ⟨hmem, hswaps, fun r' hr' hswaps' hne => ?_⟩
  refine (length_le_of_swapFor? h hr' hswaps').lt_of_ne fun hlength => hne ?_
  have heq := fromExt_eq_of_length_eq hswaps hswaps' hlength
  exact hdistinct.eq_of_fromExt hmem (swaps_iff.1 hswaps).1 hr' heq

/-- The swap that is chosen is the one that wins. -/
theorem swapFor?_eq_some_iff (hdistinct : Distinct rs) : swapFor? rs q = some r ↔ Wins rs q r := by
  refine ⟨wins_of_swapFor? hdistinct, fun h => ?_⟩
  cases hswap : swapFor? rs q with
  | none =>
      have hnone := swapFor?_eq_none_iff.1 hswap r h.mem
      rw [h.swaps] at hnone
      cases hnone
  | some r' => rw [h.eq (wins_of_swapFor? hdistinct hswap)]

/-! ### Reordering -/

lemma Distinct.perm (h : Distinct rs) (hperm : rs.Perm rs') : Distinct rs' :=
  ((hperm.filter _).map _).nodup_iff.1 h

lemma swapFor?_congr (hdistinct : Distinct rs) (h : rs.Perm rs') (q : Text) :
    swapFor? rs' q = swapFor? rs q := by
  refine Option.ext fun r => ?_
  rw [swapFor?_eq_some_iff (hdistinct.perm h), swapFor?_eq_some_iff hdistinct, wins_congr h]

/-- **The most specific extension wins.** Where no two rules swap the same extension, a path is
renamed in the same way by every reordering of the rules in which those that strip keep their order:
what can be stripped is stripped, then the rule with the longest extension that matches swaps it. -/
theorem apply_reordered (hdistinct : Distinct rs) (h : Reordered rs rs') (p : Text) :
    apply rs' p = apply rs p
    ∧ (∀ r, swapFor? rs (stripAll rs p) = some r ↔ Wins rs (stripAll rs p) r)
    ∧ ((∃ r body, Wins rs (stripAll rs p) r ∧ stripAll rs p = body ++ r.fromExt
          ∧ apply rs p = body ++ r.toExt)
      ∨ (∀ r ∈ rs, r.swaps (stripAll rs p) = false) ∧ apply rs p = stripAll rs p) := by
  refine ⟨?_, fun r => swapFor?_eq_some_iff hdistinct, ?_⟩
  · simp only [apply, stripAll_congr h.strip, swapFor?_congr hdistinct h.perm]
  · by_cases hp : p = []
    · subst hp
      have hstrip := stripAll_eq_self (final_nil rs).strip
      rw [hstrip]
      exact Or.inr ⟨(final_nil rs).swap, by simp [apply]⟩
    · cases hswap : swapFor? rs (stripAll rs p) with
      | none => exact Or.inr ⟨swapFor?_eq_none_iff.1 hswap, apply_of_none hswap hp⟩
      | some r =>
          obtain ⟨body, hbody, happly⟩ := apply_of_some hswap hp
          exact Or.inl ⟨r, body, wins_of_swapFor? hdistinct hswap, hbody, happly⟩

/-- Rules with the one for declarations behind the one for scripts. -/
def declarationsLast : RenameRules :=
  [.swapping ".ts" ".js", .stripping "src/", .swapping ".d.ts" ".types", .stripping "demo/"]

/-- Rules with the one for declarations in front of the one for scripts. -/
def declarationsFirst : RenameRules :=
  [.stripping "src/", .swapping ".d.ts" ".types", .swapping ".ts" ".js", .stripping "demo/"]

/-- The extension of a declaration wins over that of a script, in front of it and behind it. -/
theorem apply_reordered_declarations :
    Distinct declarationsLast ∧ Reordered declarationsLast declarationsFirst
      ∧ apply declarationsLast "src/demo/src/a.d.ts" = "a.types"
      ∧ apply declarationsFirst "src/demo/src/a.d.ts" = "a.types"
      ∧ Wins declarationsLast "a.d.ts" (.swapping ".d.ts" ".types") := by
  have hdistinct : Distinct declarationsLast := by decide
  have hreordered : Reordered declarationsLast declarationsFirst := ⟨by decide, by decide⟩
  obtain ⟨hsame, hchosen, -⟩ := apply_reordered hdistinct hreordered "src/demo/src/a.d.ts"
  have happly : apply declarationsLast "src/demo/src/a.d.ts" = "a.types" := by decide +kernel
  have hstrip : stripAll declarationsLast "src/demo/src/a.d.ts" = "a.d.ts" := by decide +kernel
  have hswap : swapFor? declarationsLast "a.d.ts" = some (.swapping ".d.ts" ".types") := by
    decide +kernel
  rw [hstrip] at hchosen
  exact ⟨hdistinct, hreordered, happly, hsame.trans happly, (hchosen _).1 hswap⟩

end RenameRules

end MiniProgram
