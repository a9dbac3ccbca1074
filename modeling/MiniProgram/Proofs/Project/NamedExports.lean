import MiniProgram.Project
import MiniProgram.Proofs.Keyed
import MiniProgram.Proofs.Text.Order

/-!
The named exports of a project and the order in which its project file names the modules.

The modules are named by paths, and each path is brought to its normal form when it is taken over.
Two spellings of one path then meet, and what is taken over last stands. The order in which the
entries are taken over is not settled by the project file, so it must not matter.

* `lookup_resolveExports`: what the exports of a module come to.
* `resolve_withExports`: the order has no other effect on a project.
* `namedExports_order_iff`: **the order does not matter** exactly if all spellings of one path are
  given the same names.
* `exists_namedExports_order_ne`: two spellings with different names.
-/

namespace MiniProgram

open MiniProgram.Path

variable {named order : List (Text × List Text)} {entry : Text × List Text} {k : Text}

/-- The project file with its named exports enumerated in some order. -/
def ProjectFile.withExports (f : ProjectFile) (named : List (Text × List Text)) : ProjectFile :=
  { f with namedExports := some named }

namespace Project

/-! ### Entries by their normal path -/

/-- The entries for a module, under whatever spelling of its path. -/
def spellings (named : List (Text × List Text)) (k : Text) : List (Text × List Text) :=
  named.filter fun entry => normalize entry.1 = k

lemma mem_spellings : entry ∈ spellings named k ↔ entry ∈ named ∧ normalize entry.1 = k := by
  simp [spellings]

/-- Whether all spellings of one path are given the same names. -/
def SpellingsAgree (named : List (Text × List Text)) : Prop :=
  ∀ a ∈ named, ∀ b ∈ named, normalize a.1 = normalize b.1 → a.2.Perm b.2

instance (named : List (Text × List Text)) : Decidable (SpellingsAgree named) :=
  inferInstanceAs
    (Decidable (∀ a ∈ named, ∀ b ∈ named, normalize a.1 = normalize b.1 → a.2.Perm b.2))

lemma lookup_resolveExports_concat (named : List (Text × List Text)) (entry : Text × List Text)
    (k : Text) :
    (resolveExports (named ++ [entry])).lookup k
      = if k = normalize entry.1 then some (Text.sort entry.2)
        else (resolveExports named).lookup k := by
  rw [resolveExports, List.foldl_concat]
  exact lookup_upsert (resolveExports named) (normalize entry.1) (Text.sort entry.2) k

/-- The exports of a module are the names, in ascending order, of its last entry. -/
theorem lookup_resolveExports (named : List (Text × List Text)) (k : Text) :
    (resolveExports named).lookup k
      = (spellings named k).getLast?.map fun entry => Text.sort entry.2 := by
  -- by induction on the entries from the right, as the last one is taken over last
  induction named using List.reverseRecOn with
  | nil => rfl
  | append_singleton named entry ih =>
      rw [lookup_resolveExports_concat, spellings, List.filter_append]
      by_cases hk : normalize entry.1 = k
      · rw [if_pos hk.symm, List.filter_cons_of_pos (by simpa using hk), List.filter_nil,
          List.getLast?_concat]
        rfl
      · rw [if_neg (Ne.symm hk), List.filter_cons_of_neg (by simpa using hk), List.filter_nil,
          List.append_nil]
        exact ih

/-! ### Names in ascending order -/

lemma sort_eq_iff_perm {xs ys : List Text} : Text.sort xs = Text.sort ys ↔ xs.Perm ys := by
  have hx : (Text.sort xs).Perm xs := List.mergeSort_perm xs _
  have hy : (Text.sort ys).Perm ys := List.mergeSort_perm ys _
  constructor
  · intro h
    exact hx.symm.trans (h ▸ hy)
  · intro h
    have hperm : (Text.sort xs).Perm (Text.sort ys) := hx.trans (h.trans hy.symm)
    refine hperm.eq_of_pairwise (fun a b _ _ hab hba => ?_) (Text.pairwise_mergeSort_key id xs)
      (Text.pairwise_mergeSort_key id ys)
    rw [Text.le, decide_eq_true_iff] at hab hba
    exact List.le_antisymm hab hba

/-- Where the spellings agree, the exports are those of any entry for the module. -/
lemma lookup_resolveExports_of_agree (h : SpellingsAgree named) (hmem : entry ∈ named) :
    (resolveExports named).lookup (normalize entry.1) = some (Text.sort entry.2) := by
  have hne : spellings named (normalize entry.1) ≠ [] :=
    List.ne_nil_of_mem (mem_spellings.2 ⟨hmem, rfl⟩)
  obtain ⟨hlast, hpath⟩ := mem_spellings.1 (List.getLast_mem hne)
  rw [lookup_resolveExports, List.getLast?_eq_getLast_of_ne_nil hne, Option.map_some,
    sort_eq_iff_perm.2 (h _ hlast _ hmem hpath)]

/-! ### Orders of the entries -/

/-- Where the spellings agree, every order leads to the same exports. -/
lemma lookup_resolveExports_perm (h : SpellingsAgree named) (horder : order.Perm named) (k : Text) :
    (resolveExports order).lookup k = (resolveExports named).lookup k := by
  have horder' : SpellingsAgree order := fun a ha b hb =>
    h a (horder.mem_iff.1 ha) b (horder.mem_iff.1 hb)
  by_cases hk : ∃ entry ∈ named, normalize entry.1 = k
  · obtain ⟨entry, hmem, rfl⟩ := hk
    rw [lookup_resolveExports_of_agree h hmem,
      lookup_resolveExports_of_agree horder' (horder.mem_iff.2 hmem)]
  · have hnone (l : List (Text × List Text)) (hl : l.Perm named) :
        (resolveExports l).lookup k = none := by
      have hnil : spellings l k = [] := List.filter_eq_nil_iff.2 fun entry hmem heq =>
        hk ⟨entry, hl.mem_iff.1 hmem, of_decide_eq_true heq⟩
      rw [lookup_resolveExports, hnil, List.getLast?_nil, Option.map_none]
    rw [hnone order horder, hnone named (List.Perm.refl named)]

/-- Every entry is the last one of some order. -/
lemma exists_order (hmem : entry ∈ named) :
    ∃ order, order.Perm named
      ∧ (resolveExports order).lookup (normalize entry.1) = some (Text.sort entry.2) := by
  refine ⟨named.erase entry ++ [entry], ?_, ?_⟩
  · exact List.perm_append_comm.trans (List.perm_cons_erase hmem).symm
  · rw [lookup_resolveExports_concat, if_pos rfl]

/-- Of the settings that are resolved, the order of the named exports decides the exports only; in
particular it does not decide whether the settings are accepted. -/
lemma resolve_withExports (root : Text) (f : ProjectFile) (o : Overrides)
    (named order : List (Text × List Text)) :
    resolve root (f.withExports order) o
      = (resolve root (f.withExports named) o).map fun p =>
        { p with exports := resolveExports order } := by
  unfold resolve ProjectFile.withExports
  dsimp only
  -- the checks see nothing of the exports
  generalize flaw? root _ _ _ _ _ _ _ = flaw
  cases flaw with
  | none => rfl
  | some flaw => rfl

/-- **The order of the named exports.** For a project file that is accepted with its named exports
enumerated in one order, every order is accepted, and the projects differ in the exports alone. The
exports of all modules are the same for every order exactly if the project file gives the same names
to all spellings of one path. -/
theorem namedExports_order_iff {root : Text} {f : ProjectFile} {o : Overrides} {p : Project}
    (h : resolve root (f.withExports named) o = .ok p) :
    (∀ order, ∃ q, resolve root (f.withExports order) o = .ok q
      ∧ { q with exports := p.exports } = p)
    ∧ ((∀ order q, order.Perm named → resolve root (f.withExports order) o = .ok q →
        ∀ module, q.namedExports module = p.namedExports module)
      ↔ SpellingsAgree named) := by
  have hexports : p.exports = resolveExports named := by
    have hself := resolve_withExports root f o named named
    rw [h] at hself
    exact congrArg Project.exports (Except.ok.inj hself)
  have hresolve (order : List (Text × List Text)) :
      resolve root (f.withExports order) o = .ok { p with exports := resolveExports order } := by
    rw [resolve_withExports root f o named order, h]
    rfl
  refine ⟨fun order => ⟨_, hresolve order, rfl⟩, fun hsame a ha b hb hpath => ?_, ?_⟩
  · -- each of the two entries comes last in an order of its own
    have hlast {entry : Text × List Text} (hmem : entry ∈ named) :
        p.namedExports entry.1 = Text.sort entry.2 := by
      obtain ⟨order, horder, hlookup⟩ := exists_order hmem
      rw [← hsame order _ horder (hresolve order), namedExports, hlookup, Option.getD_some]
    rw [← sort_eq_iff_perm, ← hlast ha, ← hlast hb, namedExports, namedExports, hpath]
  · rintro hagree order q horder hq module
    obtain rfl := Except.ok.inj ((hresolve order).symm.trans hq)
    rw [namedExports, namedExports, hexports, lookup_resolveExports_perm hagree horder]

/-- Two spellings of one path are given the same names, in different orders. -/
theorem namedExports_order_iff_respelled :
    ∃ p, resolve "/proj" (ProjectFile.empty.withExports
        [("a.js", ["x", "y"]), ("./lib/../a.js", ["y", "x"]), ("b.js", [])])
        ⟨false, [], .one⟩ = .ok p
      ∧ ∀ order q, order.Perm [("a.js", ["x", "y"]), ("./lib/../a.js", ["y", "x"]), ("b.js", [])] →
        resolve "/proj" (ProjectFile.empty.withExports order) ⟨false, [], .one⟩ = .ok q →
        ∀ module, q.namedExports module = p.namedExports module := by
  refine ⟨_, rfl, (namedExports_order_iff rfl).2.2 ?_⟩
  decide

/-- Two spellings of one path are given different names: the one that is taken over last stands. -/
theorem exists_namedExports_order_ne :
    ∃ named order : List (Text × List Text), order.Perm named ∧ (named.map Prod.fst).Nodup
      ∧ ∃ p q, resolve "/proj" (ProjectFile.empty.withExports named) ⟨false, [], .one⟩ = .ok p
        ∧ resolve "/proj" (ProjectFile.empty.withExports order) ⟨false, [], .one⟩ = .ok q
        ∧ p.namedExports "a.js" = ["x"] ∧ q.namedExports "a.js" = ["y"] := by
  refine ⟨[("a.js", ["y"]), ("lib/../a.js", ["x"])], [("lib/../a.js", ["x"]), ("a.js", ["y"])],
    List.Perm.swap _ _ _, by decide, _, _, rfl, rfl, ?_, ?_⟩
  · decide +kernel
  · decide +kernel

end Project

end MiniProgram
