import MiniProgram.Proofs.Failure
import MiniProgram.Proofs.RenameRules

/-!
The final form of a renamed path.

A path is in final form if no rule applies to it any more. Leading texts are stripped until none
matches; what could still go wrong is the swap afterwards, which might write a new extension that
makes a leading text or another extension match. It does not where leading texts end with a slash
and no extension that is written agrees at its end with one that is swapped.

* `stripAll_append`: an extension takes no part in stripping.
* `swapFor?_eq_none_iff`, `swapFor?_append`: which swap is chosen.
* `apply_eq_self`, `final_apply`: a path in final form stays as it is, and renaming leads to one.
* `apply_append`: how a path with a given extension is renamed.
* `renamed_final`: the rules of every accepted project are well formed and lead to final forms.
-/

namespace MiniProgram

namespace RenameRules

open MiniProgram.Path

variable {rs : RenameRules} {p q e : Text} {r : RenameRule}

/-- A path to which no rule applies any more. -/
structure Final (rs : RenameRules) (q : Text) : Prop where
  strip : ∀ r ∈ rs, r.strip ≠ [] → ¬ r.strip <+: q
  swap : ∀ r ∈ rs, r.swaps q = false

/-- Rules in which no extension that is written ends like one that is swapped, whichever of the two
is the longer. -/
def Settled (rs : RenameRules) : Prop :=
  ∀ r ∈ rs, ∀ r' ∈ rs, r.fromExt ≠ [] → r'.fromExt ≠ [] →
    ¬ r'.fromExt <:+ r.toExt ∧ ¬ r.toExt <:+ r'.fromExt

/-! ### Stripping -/

/-- A leading text that ends with a slash does not reach into an extension. -/
lemma lead_prefix_append_iff {lead : Text} (hlead : Text.endsWith lead "/" = true)
    (he : Byte.slash ∉ e) : lead <+: q ++ e ↔ lead <+: q := by
  refine ⟨fun h => ?_, fun h => h.trans (List.prefix_append q e)⟩
  rcases List.prefix_or_prefix_of_prefix h (List.prefix_append q e) with hq | ⟨x, rfl⟩
  · exact hq
  · have hx : x <+: e := (List.prefix_append_right_inj q).1 h
    obtain ⟨front, hfront⟩ := Text.endsWith_iff.1 hlead
    rcases List.eq_nil_or_concat x with rfl | ⟨init, last, rfl⟩
    · simp
    · rw [List.concat_eq_append, slash_text, ← List.append_assoc] at hfront
      obtain ⟨-, rfl⟩ := List.append_singleton_inj.1 hfront
      exact absurd (hx.subset (by simp)) he

lemma trimStart_append_of_slash {lead : Text} (hlead : Text.endsWith lead "/" = true)
    (he : Byte.slash ∉ e) : Text.trimStart (q ++ e) lead = Text.trimStart q lead ++ e := by
  by_cases h : lead <+: q
  · obtain ⟨rest, rfl⟩ := h
    rw [List.append_assoc, Text.trimStart_append, Text.trimStart_append]
  · rw [Text.trimStart_eq_self h,
      Text.trimStart_eq_self (mt (lead_prefix_append_iff hlead he).1 h)]

lemma stripOnce_cons (r : RenameRule) (rs : RenameRules) (p : Text) :
    stripOnce (r :: rs) p = stripOnce rs (if r.strip = [] then p else Text.trimStart p r.strip) :=
  rfl

lemma stripOnce_append (hrs : ∀ r ∈ rs, r.strip = [] ∨ Text.endsWith r.strip "/" = true)
    (he : Byte.slash ∉ e) (q : Text) : stripOnce rs (q ++ e) = stripOnce rs q ++ e := by
  induction rs generalizing q with
  | nil => rfl
  | cons r rs ih =>
      have hrest : ∀ r ∈ rs, r.strip = [] ∨ Text.endsWith r.strip "/" = true :=
        fun r' hr' => hrs r' (by simp [hr'])
      rw [stripOnce_cons, stripOnce_cons]
      split_ifs with hstrip
      · exact ih hrest q
      · rw [trimStart_append_of_slash ((hrs r (by simp)).resolve_left hstrip) he]
        exact ih hrest _

/-- An extension takes no part in stripping. -/
theorem stripAll_append (hrs : ∀ r ∈ rs, r.strip = [] ∨ Text.endsWith r.strip "/" = true)
    (he : Byte.slash ∉ e) (q : Text) : stripAll rs (q ++ e) = stripAll rs q ++ e := by
  fun_induction stripAll rs q with
  | case1 q hlt ih =>
      rw [stripAll, stripOnce_append hrs he, if_pos (by simpa using hlt)]
      exact ih
  | case2 q hlt =>
      rw [stripAll, stripOnce_append hrs he, if_neg (by simpa using hlt)]

lemma length_trimStart_le (p lead : Text) : (Text.trimStart p lead).length ≤ p.length := by
  by_cases h : lead <+: p
  · obtain ⟨rest, rfl⟩ := h
    simp
  · rw [Text.trimStart_eq_self h]

lemma length_stripOnce_le (rs : RenameRules) (p : Text) :
    (stripOnce rs p).length ≤ p.length := by
  induction rs generalizing p with
  | nil => exact le_rfl
  | cons r rs ih =>
      rw [stripOnce_cons]
      refine (ih _).trans ?_
      split_ifs
      · exact le_rfl
      · exact length_trimStart_le p r.strip

/-- A pass over the rules that makes a path no shorter has met no leading text. -/
lemma not_prefix_of_length_stripOnce (h : ¬ (stripOnce rs p).length < p.length) :
    ∀ r ∈ rs, r.strip ≠ [] → ¬ r.strip <+: p := by
  induction rs with
  | nil => simp
  | cons r rs ih =>
      rw [stripOnce_cons] at h
      have hr : r.strip ≠ [] → ¬ r.strip <+: p := by
        rintro hne ⟨rest, rfl⟩
        rw [if_neg hne, Text.trimStart_append] at h
        have hle := length_stripOnce_le rs rest
        have hpos := List.length_pos_of_ne_nil hne
        rw [List.length_append] at h
        omega
      -- so the first rule has left the path as it is
      have hkeep : (if r.strip = [] then p else Text.trimStart p r.strip) = p := by
        split_ifs with hnil
        · rfl
        · exact Text.trimStart_eq_self (hr hnil)
      rw [hkeep] at h
      intro r' hr'
      rcases List.mem_cons.1 hr' with rfl | hr'
      · exact hr
      · exact ih h r' hr'

/-- Nothing can be stripped from a stripped path. -/
lemma not_prefix_stripAll (rs : RenameRules) (p : Text) :
    ∀ r ∈ rs, r.strip ≠ [] → ¬ r.strip <+: stripAll rs p := by
  fun_induction stripAll rs p with
  | case1 p hlt ih => exact ih
  | case2 p hlt => exact not_prefix_of_length_stripOnce hlt

lemma stripAll_eq_self (h : ∀ r ∈ rs, r.strip ≠ [] → ¬ r.strip <+: p) : stripAll rs p = p := by
  have honce : stripOnce rs p = p := by
    induction rs with
    | nil => rfl
    | cons r rs ih =>
        have hkeep : (if r.strip = [] then p else Text.trimStart p r.strip) = p := by
          split_ifs with hnil
          · rfl
          · exact Text.trimStart_eq_self (h r (by simp) hnil)
        rw [stripOnce_cons, hkeep]
        exact ih fun r' hr' => h r' (by simp [hr'])
  rw [stripAll, honce, if_neg (lt_irrefl _)]

/-! ### Swapping -/

lemma swaps_iff : r.swaps p = true ↔ r.fromExt ≠ [] ∧ r.fromExt <:+ p := by
  rw [RenameRule.swaps, Bool.and_eq_true, decide_eq_true_iff, Text.endsWith_iff]

/-- No swap is chosen only where none matches. -/
theorem swapFor?_eq_none_iff : swapFor? rs p = none ↔ ∀ r ∈ rs, r.swaps p = false := by
  constructor
  · intro h
    induction rs using List.reverseRecOn with
    | nil => simp
    | append_singleton rs r ih =>
        rw [swapFor?, List.foldl_concat, ← swapFor?] at h
        by_cases hr : r.swaps p = true
        · rw [if_pos hr] at h
          split at h
          · cases h
          · split_ifs at h
        · rw [if_neg hr] at h
          intro r' hr'
          rcases List.mem_append.1 hr' with hr' | hr'
          · exact ih h r' hr'
          · rw [List.mem_singleton.1 hr']
            exact eq_false_of_ne_true hr
  · intro h
    cases hswap : swapFor? rs p with
    | none => rfl
    | some r =>
        obtain ⟨hmem, hmatch⟩ := swapFor?_eq_some hswap
        rw [h r hmem] at hmatch
        cases hmatch

/-- Where no other extension that is swapped ends like that of a rule, the rule is chosen for every
path with its extension. -/
lemma swapFor?_append (hr : r ∈ rs) (hne : r.fromExt ≠ [])
    (hapart : ∀ r' ∈ rs, r'.fromExt ≠ [] → r'.fromExt <:+ r.fromExt ∨ r.fromExt <:+ r'.fromExt →
      r' = r) (q : Text) : swapFor? rs (q ++ r.fromExt) = some r := by
  have hswaps : r.swaps (q ++ r.fromExt) = true := swaps_iff.2 ⟨hne, List.suffix_append _ _⟩
  cases hswap : swapFor? rs (q ++ r.fromExt) with
  | none =>
      rw [swapFor?_eq_none_iff.1 hswap r hr] at hswaps
      cases hswaps
  | some r' =>
      obtain ⟨hmem, hmatch⟩ := swapFor?_eq_some hswap
      obtain ⟨hne', hsuffix⟩ := swaps_iff.1 hmatch
      rw [hapart r' hmem hne'
        (List.suffix_or_suffix_of_suffix hsuffix (List.suffix_append _ _))]

lemma apply_of_none (h : swapFor? rs (stripAll rs p) = none) (hp : p ≠ []) :
    apply rs p = stripAll rs p := by
  simp only [apply, if_neg hp, h]

lemma apply_of_some (h : swapFor? rs (stripAll rs p) = some r) (hp : p ≠ []) :
    ∃ body, stripAll rs p = body ++ r.fromExt ∧ apply rs p = body ++ r.toExt := by
  obtain ⟨-, body, hbody⟩ := swaps_iff.1 (swapFor?_eq_some h).2
  refine ⟨body, hbody.symm, ?_⟩
  simp only [apply, if_neg hp, h]
  rw [← hbody, Text.trimEnd_append]

/-! ### Final forms -/

lemma final_nil (rs : RenameRules) : Final rs [] := by
  refine ⟨fun r _ hne hpre => hne (List.prefix_nil.1 hpre), fun r _ => ?_⟩
  by_contra hswap
  obtain ⟨hne, hsuffix⟩ := swaps_iff.1 (eq_true_of_ne_false hswap)
  exact hne (List.suffix_nil.1 hsuffix)

/-- A path in final form stays as it is. -/
theorem apply_eq_self (h : Final rs q) : apply rs q = q := by
  by_cases hq : q = []
  · simp [apply, hq]
  · have hstrip := stripAll_eq_self h.strip
    rw [apply_of_none _ hq, hstrip]
    rw [hstrip, swapFor?_eq_none_iff]
    exact h.swap

/-- **Renaming leads to a final form**, for rules that strip whole directories and swap extensions
for others that are not swapped again. -/
theorem final_apply (hrs : Tidy rs) (hsettled : Settled rs) (p : Text) : Final rs (apply rs p) := by
  by_cases hp : p = []
  · rw [apply, if_pos hp]
    exact final_nil rs
  have hstrip := not_prefix_stripAll rs p
  cases hswap : swapFor? rs (stripAll rs p) with
  | none =>
      rw [apply_of_none hswap hp]
      exact ⟨hstrip, swapFor?_eq_none_iff.1 hswap⟩
  | some r =>
      obtain ⟨body, hbody, happly⟩ := apply_of_some hswap hp
      obtain ⟨hmem, hmatch⟩ := swapFor?_eq_some hswap
      obtain ⟨hne, -⟩ := swaps_iff.1 hmatch
      obtain ⟨hfrom, hto, -⟩ := hrs.swap_ext r hmem hne
      rw [hbody] at hstrip
      rw [happly]
      refine ⟨fun r' hr' hne' hpre => hstrip r' hr' hne' ?_, fun r' hr' => ?_⟩
      · -- a leading text lies within the body, whichever extension follows it
        have hlead := (hrs.strip_slash r' hr').resolve_left hne'
        rw [lead_prefix_append_iff hlead hto] at hpre
        exact (lead_prefix_append_iff hlead hfrom).2 hpre
      · by_contra hagain
        obtain ⟨hne', hsuffix⟩ := swaps_iff.1 (eq_true_of_ne_false hagain)
        obtain ⟨hshort, hlong⟩ := hsettled r hmem r' hr' hne hne'
        rcases List.suffix_or_suffix_of_suffix hsuffix (List.suffix_append body r.toExt) with h | h
        · exact hshort h
        · exact hlong h

/-- How a path with the extension of a rule is renamed. -/
theorem apply_append (hrs : Tidy rs) (hr : r ∈ rs) (hne : r.fromExt ≠ [])
    (hapart : ∀ r' ∈ rs, r'.fromExt ≠ [] → r'.fromExt <:+ r.fromExt ∨ r.fromExt <:+ r'.fromExt →
      r' = r) (q : Text) : apply rs (q ++ r.fromExt) = stripAll rs q ++ r.toExt := by
  obtain ⟨hfrom, -, -⟩ := hrs.swap_ext r hr hne
  have hstrip := stripAll_append hrs.strip_slash hfrom q
  obtain ⟨body, hbody, happly⟩ := apply_of_some (p := q ++ r.fromExt)
    (hstrip ▸ swapFor?_append hr hne hapart (stripAll rs q))
    (List.append_ne_nil_of_right_ne_nil q hne)
  rw [hstrip, List.append_cancel_right_eq] at hbody
  rw [happly, hbody]

/-- Settled rules that are well formed one by one are well formed together. -/
lemma flaw?_eq_none (hrule : ∀ r ∈ rs, ruleFlaw? r = none) (hsettled : Settled rs)
    (htarget : ∀ r ∈ rs, r.toExt ≠ [] → r.fromExt ≠ []) : flaw? rs = none := by
  rw [flaw?, Option.or_eq_none_iff, List.findSome?_eq_none_iff, List.findSome?_eq_none_iff]
  refine ⟨hrule, fun r hr => ?_⟩
  rw [rematch?]
  split_ifs with hto
  · rfl
  · rw [Option.map_eq_none_iff, List.find?_eq_none]
    intro other hother hswaps
    obtain ⟨hne, hsuffix⟩ := swaps_iff.1 hswaps
    exact (hsettled r hr other hother (htarget r hr hto) hne).1 hsuffix

/-! ### The standard rules -/

lemma mem_standard {leads : List Text} :
    r ∈ standard leads ↔ (∃ lead ∈ leads, lead ≠ [] ∧ r = .stripping lead) ∨ r ∈ standardSwaps := by
  rw [standard, List.mem_append, List.mem_map]
  refine or_congr_left (exists_congr fun lead => ?_)
  rw [List.mem_filter, and_assoc, decide_eq_true_iff, eq_comm (a := r)]

/-- The swaps among the standard rules. -/
lemma mem_standardSwaps_of_fromExt {leads : List Text} (h : r ∈ standard leads)
    (hne : r.fromExt ≠ []) : r ∈ standardSwaps := by
  rcases mem_standard.1 h with ⟨lead, -, -, rfl⟩ | h
  · exact absurd rfl hne
  · exact h

lemma settled_standard (leads : List Text) : Settled (standard leads) := by
  have hswaps : ∀ r ∈ standardSwaps, ∀ r' ∈ standardSwaps,
      ¬ r'.fromExt <:+ r.toExt ∧ ¬ r.toExt <:+ r'.fromExt := by decide
  intro r hr r' hr' hne hne'
  exact hswaps r (mem_standardSwaps_of_fromExt hr hne) r' (mem_standardSwaps_of_fromExt hr' hne')

lemma flaw?_standard (leads : List Text) : flaw? (standard leads) = none := by
  have hswaps : ∀ r ∈ standardSwaps, ruleFlaw? r = none ∧ r.fromExt ≠ [] := by decide
  refine flaw?_eq_none (fun r hr => ?_) (settled_standard leads) fun r hr hto => ?_
  · rcases mem_standard.1 hr with ⟨lead, -, hlead, rfl⟩ | hr
    · simp [ruleFlaw?, RenameRule.stripping, hlead]
    · exact (hswaps r hr).1
  · rcases mem_standard.1 hr with ⟨lead, -, -, rfl⟩ | hr
    · exact absurd rfl hto
    · exact (hswaps r hr).2

/-- No two extensions that the standard rules swap end alike. -/
lemma eq_of_suffix_standard {leads : List Text} (hr : r ∈ standardSwaps) :
    ∀ r' ∈ standard leads, r'.fromExt ≠ [] →
      r'.fromExt <:+ r.fromExt ∨ r.fromExt <:+ r'.fromExt → r' = r := by
  have hswaps : ∀ r ∈ standardSwaps, ∀ r' ∈ standardSwaps,
      r'.fromExt <:+ r.fromExt ∨ r.fromExt <:+ r'.fromExt → r' = r := by decide
  exact fun r' hr' hne => hswaps r hr r' (mem_standardSwaps_of_fromExt hr' hne)

end RenameRules

namespace Project

open MiniProgram.Path

/-- **Renaming in a project leads to a final form.** The rules of an accepted project are well
formed. A renamed path begins neither with the sandbox prefix nor with the source directory, has
none of the extensions that are swapped, and is not changed by renaming it again; a plain path is
renamed to a plain path. -/
theorem renamed_final {root : Text} {f : ProjectFile} {o : Overrides} {project : Project}
    (h : resolve root f o = .ok project) :
    project.renameRules.flaw? = none
    ∧ ∀ p, (project.sandboxPrefix ≠ [] →
        Text.startsWith (project.renameRules.apply p) project.sandboxPrefix = false)
      ∧ Text.startsWith (project.renameRules.apply p) (project.sourceDir ++ "/") = false
      ∧ (∀ e ∈ ([".less", ".css", ".ts", ".tsx"] : List Text),
        Text.endsWith (project.renameRules.apply p) e = false)
      ∧ project.renameRules.apply (project.renameRules.apply p) = project.renameRules.apply p
      ∧ (IsPlain p → IsPlain (project.renameRules.apply p)) := by
  have hrs := tidy_renameRules (resolve_checked h).2
  refine ⟨RenameRules.flaw?_standard _, fun p => ?_⟩
  have hfinal := RenameRules.final_apply hrs (RenameRules.settled_standard _) p
  have hlead : ∀ lead ∈ [project.sandboxPrefix, project.sourceDir ++ "/"], lead ≠ [] →
      Text.startsWith (project.renameRules.apply p) lead = false := by
    intro lead hmem hne
    rw [← Bool.not_eq_true, Text.startsWith_iff]
    exact hfinal.strip (.stripping lead)
      (RenameRules.mem_standard.2 (Or.inl ⟨lead, hmem, hne, rfl⟩)) hne
  have hexts : ∀ e ∈ ([".less", ".css", ".ts", ".tsx"] : List Text),
      ∃ r ∈ RenameRules.standardSwaps, r.fromExt = e ∧ e ≠ [] := by decide
  refine ⟨hlead _ (by simp), hlead _ (by simp) (by simp [slash_text]), fun e he => ?_,
    RenameRules.apply_eq_self hfinal, RenameRules.isPlain_apply hrs⟩
  obtain ⟨r, hr, rfl, hne⟩ := hexts e he
  have hswap := hfinal.swap r (RenameRules.mem_standard.2 (Or.inr hr))
  rw [← Bool.not_eq_true, RenameRules.swaps_iff] at hswap
  rw [← Bool.not_eq_true, Text.endsWith_iff]
  exact fun hsuffix => hswap ⟨hne, hsuffix⟩

/-- The two leading texts in turn, and an extension under the one that is swapped. -/
theorem renamed_final_interleaved :
    ∃ project, resolve "/proj" { ProjectFile.empty with sandboxPrefix := some "demo/" }
        ⟨false, [], .one⟩ = .ok project
      ∧ project.renameRules.flaw? = none
      ∧ project.renameRules.apply "src/demo/src/demo/pages/a.css.tsx" = "pages/a.css.js"
      ∧ project.renameRules.apply "pages/a.css.js" = "pages/a.css.js"
      ∧ IsPlain "pages/a.css.js" := by
  have happly : (resolve "/proj" { ProjectFile.empty with sandboxPrefix := some "demo/" }
      ⟨false, [], .one⟩).map
        (fun project => project.renameRules.apply "src/demo/src/demo/pages/a.css.tsx")
        = .ok "pages/a.css.js" := by decide +kernel
  obtain ⟨project, hproject, hrenamed⟩ := map_eq_ok.1 happly
  obtain ⟨hflaw, hfinal⟩ := renamed_final hproject
  obtain ⟨-, -, -, hagain, hplain⟩ := hfinal "src/demo/src/demo/pages/a.css.tsx"
  rw [hrenamed] at hagain hplain
  exact ⟨project, hproject, hflaw, hrenamed, hagain, hplain (by decide +kernel)⟩

end Project

end MiniProgram
