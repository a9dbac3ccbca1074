import MiniProgram.Proofs.Script.Retargeting.Pass

/-!
What a script refers to after all passes.

Each pass retargets the references of its form and leaves those of the others; so after all three
every reference names what it is retargeted to. A specifier that is dropped is named no more, unless
a re-export names it or another specifier is retargeted to it.

* `Retargeting.before`: the script that a pass starts from.
* `Retargeting.specs_run`: **what the references name after all passes.**
* `Retargeting.dropped_mem_scanImports`: which dropped specifiers the scan still finds.
-/

namespace MiniProgram

namespace Script

namespace Retargeting

/-- The script that the pass of a form starts from. -/
def before (f : Text → Retarget) (code : Text) : ReferenceForm → Text
  | .importing => code
  | .exporting => after f .importing code
  | .requiring => after f .exporting (after f .importing code)

variable {f : Text → Retarget} {code spec : Text}

lemma retargetImports_eq (f : Text → Retarget) (code : Text) :
    retargetImports f code = after f .requiring (before f code .requiring) := by
  simp only [retargetImports, run, ReferenceForm.all, List.foldl_cons, List.foldl_nil, pass_code]
  rfl

/-- **What the references name after all passes.** -/
theorem specs_run (h : ∀ form, Apart f form (before f code form)) (form : ReferenceForm) :
    (references form (retargetImports f code)).map (·.spec)
      = ((references form code).map (·.spec)).filterMap (landed f form) := by
  have himport := (h .importing).specs_pass
  have hexport := (h .exporting).specs_pass
  have hrequire := (h .requiring).specs_pass
  rw [retargetImports_eq, hrequire]
  simp only [before] at himport hexport ⊢
  cases form with
  | importing => rw [if_neg (by decide), hexport, if_neg (by decide), himport, if_pos rfl]
  | exporting => rw [if_neg (by decide), hexport, if_pos rfl, himport, if_neg (by decide)]
  | requiring => rw [if_pos rfl, hexport, if_neg (by decide), himport, if_neg (by decide)]

/-- What the scan finds after all passes. -/
lemma mem_scanImports_retargetImports (h : ∀ form, Apart f form (before f code form)) :
    spec ∈ scanImports (retargetImports f code)
      ↔ ∃ form, ∃ ref ∈ references form code, landed f form ref.spec = some spec := by
  simp only [mem_scanImports_iff_references, specs_run h, List.mem_filterMap, List.mem_map,
    exists_exists_and_eq_and]

/-- **Dropped specifiers.** The scan still finds one only if a re-export names it, or if another
specifier that is found in the script is retargeted to it. -/
theorem dropped_mem_scanImports (h : ∀ form, Apart f form (before f code form))
    (hdrop : f spec = .drop) :
    spec ∈ scanImports (retargetImports f code)
      ↔ (∃ ref ∈ references .exporting code, ref.spec = spec)
        ∨ ∃ other ∈ scanImports code, f other = .replace spec := by
  rw [mem_scanImports_retargetImports h]
  constructor
  · rintro ⟨form, ref, href, hlanded⟩
    rw [landed] at hlanded
    split at hlanded
    · rename_i new hnew
      cases hlanded
      exact Or.inr
        ⟨ref.spec, mem_scanImports_iff_references.2 ⟨form, List.mem_map_of_mem href⟩, hnew⟩
    · split_ifs at hlanded with hform
      subst hform
      exact Or.inl ⟨ref, href, Option.some.inj hlanded⟩
  · rintro (⟨ref, href, rfl⟩ | ⟨other, hother, hnew⟩)
    · exact ⟨.exporting, ref, href, by rw [landed, hdrop]; rfl⟩
    · obtain ⟨form, hother⟩ := mem_scanImports_iff_references.1 hother
      obtain ⟨ref, href, rfl⟩ := List.mem_map.1 hother
      exact ⟨form, ref, href, by rw [landed, hnew]⟩

end Retargeting

end Script

end MiniProgram
