import Mathlib.Tactic
import MiniProgram.Pipeline.Order

/-!
Which pipelines are in order.

The check looks at the first stage of a role, the last stage and the number of stages of a role;
what it is to establish speaks about all stages and all pairs of them. Both say the same, whatever
roles are repeated, because a stage of one sort comes before all stages of another sort as soon as
it comes before the first of them.

* `Precedes`, `WellOrdered`: what it means to be in order, by the places of the stages.
* `firstOf_eq_some`: the first stage with a role stands before all others with it.
* `lateStage?_eq_none_iff`, `extFlaw?_eq_none_iff`, `cleanFlaw?_eq_none_iff`,
  `emitFlaw?_eq_none_iff`, `repeatedName?_eq_none_iff`: what each part of the check establishes.
* `flaw?_eq_none_iff_wellOrdered`: the check accepts exactly the pipelines that are in order.
-/

namespace MiniProgram

namespace Pipeline

/-! ### Being in order -/

/-- Every stage of one sort stands before every stage of another. -/
def Precedes (stages : List StageInfo) (first second : StageInfo → Prop) : Prop :=
  ∀ (i j : ℕ) s t, stages[i]? = some s → stages[j]? = some t → first s → second t → i < j

/-- A stage, other than one that renames, that works on files with an extension that is renamed. -/
def ConsumesRenamed (rules : RenameRules) (s : StageInfo) : Prop :=
  s.role ≠ .rename ∧ ∃ ext ∈ s.consumes, rules.changesExt ext = true

/-- A pipeline in order. -/
structure WellOrdered (stages : List StageInfo) (dev : Bool) (rules : RenameRules) : Prop where
  /-- There is a stage. -/
  nonempty : stages ≠ []
  /-- No two stages share a name. -/
  distinct : (stages.map (·.name)).Nodup
  /-- The first stage and no other cleans; in a development build none does. -/
  cleaned : ∀ i s, stages[i]? = some s → (s.role = .clean ↔ dev = false ∧ i = 0)
  /-- The last stage and no other emits. -/
  emitted : ∀ i s, stages[i]? = some s → (s.role = .emit ↔ i + 1 = stages.length)
  /-- Imports are resolved and packages wrapped before components are built. -/
  resolved : Precedes stages (fun s => s.role = .resolve ∨ s.role = .interop)
    fun s => s.role = .component
  /-- What works on a renamed extension needs a stage that renames it. -/
  renamed : (∃ s ∈ stages, ConsumesRenamed rules s) → ∃ s ∈ stages, s.role = .rename
  /-- A renamed extension is worked on before it is renamed. -/
  consumed : Precedes stages (ConsumesRenamed rules) fun s => s.role = .rename
  /-- Content is changed before modules are stripped. -/
  stripped : Precedes stages (fun s => s.role.isContent = true) fun s => s.role = .strip

variable {stages : List StageInfo} {dev : Bool} {rules : RenameRules} {role : Role}

/-! ### The first stage of a role -/

lemma firstOf_eq_none_iff : firstOf role stages = none ↔ ∀ s ∈ stages, s.role ≠ role := by
  rw [firstOf, List.find?_eq_none]
  constructor
  · intro h s hs
    obtain ⟨i, hi⟩ := List.mem_iff_getElem?.1 hs
    simpa using h (s, i) (List.mem_zipIdx_iff_getElem?.2 hi)
  · intro h x hx
    simpa using h x.1 (List.mem_of_getElem? (List.mem_zipIdx_iff_getElem?.1 hx))

/-- The first stage with a role stands before all others with it. -/
lemma firstOf_eq_some {s : StageInfo} {i : ℕ} (h : firstOf role stages = some (s, i)) :
    stages[i]? = some s ∧ s.role = role ∧ ∀ j t, stages[j]? = some t → t.role = role → i ≤ j := by
  rw [firstOf, List.find?_eq_some_iff_getElem] at h
  obtain ⟨hrole, k, hk, hat, hbefore⟩ := h
  rw [List.getElem_zipIdx, Nat.zero_add, Prod.mk.injEq] at hat
  obtain ⟨hs, rfl⟩ := hat
  rw [List.length_zipIdx] at hk
  refine ⟨?_, by simpa using hrole, fun j t ht hrole' => ?_⟩
  · rw [List.getElem?_eq_getElem hk, hs]
  · by_contra hlt
    obtain ⟨hj, rfl⟩ := List.getElem?_eq_some_iff.1 ht
    have hnot := hbefore j (by omega)
    rw [List.getElem_zipIdx] at hnot
    simp [hrole'] at hnot

/-! ### The parts of the check -/

/-- No stage of a sort runs after the first stage with a role only if all of them run before every
stage with it; the sort must not include stages with the role. -/
lemma lateStage?_eq_none_iff {isKind : StageInfo → Bool}
    (hkind : ∀ s, isKind s = true → s.role ≠ role) :
    lateStage? isKind role stages = none
      ↔ Precedes stages (fun s => isKind s = true) fun s => s.role = role := by
  cases hfirst : firstOf role stages with
  | none =>
      have hnone := firstOf_eq_none_iff.1 hfirst
      simp only [lateStage?, hfirst]
      exact ⟨fun _ i j s t _ ht _ hrole => absurd hrole (hnone t (List.mem_of_getElem? ht)),
        fun _ => rfl⟩
  | some found =>
      obtain ⟨before, i⟩ := found
      obtain ⟨hat, hrole, hleast⟩ := firstOf_eq_some hfirst
      have hnone : lateStage? isKind role stages = none
          ↔ ∀ x ∈ stages.zipIdx, ¬ (isKind x.1 && decide (i < x.2)) = true := by
        have hlate : lateStage? isKind role stages
            = (stages.zipIdx.find? fun x => isKind x.1 && decide (i < x.2)).map
              fun x => .mustPrecede x.1.name before.name := by
          simp only [lateStage?, hfirst]
          exact (Option.map_eq_bind ..).symm
        rw [hlate, Option.map_eq_none_iff, List.find?_eq_none]
      rw [hnone]
      constructor
      · intro h j k s t hs ht hisKind hrole'
        have hle := hleast k t ht hrole'
        have hj : ¬ i < j := by simpa [hisKind] using h (s, j) (List.mem_zipIdx_iff_getElem?.2 hs)
        -- a stage of the sort has another role than the first stage found
        have hne : j ≠ i := by
          rintro rfl
          rw [hat, Option.some.injEq] at hs
          exact hkind s hisKind (hs ▸ hrole)
        omega
      · rintro h ⟨s, j⟩ hx hlate
        rw [List.mem_zipIdx_iff_getElem?] at hx
        simp only [Bool.and_eq_true, decide_eq_true_iff] at hlate
        have hlt := h j i s before hx hat hlate.1 hrole
        omega

lemma changedExt?_eq_none_iff {s : StageInfo} :
    changedExt? rules s = none ↔ ¬ ConsumesRenamed rules s := by
  rw [changedExt?, ConsumesRenamed]
  split_ifs with hrole
  · simp [hrole]
  · simp [hrole]

/-- No stage meets a renamed extension only if each that works on one runs before every stage that
renames, and there is such a stage. -/
lemma extFlaw?_eq_none_iff :
    stages.zipIdx.findSome? (extFlaw? rules (firstOf .rename stages)) = none
      ↔ ((∃ s ∈ stages, ConsumesRenamed rules s) → ∃ s ∈ stages, s.role = .rename)
        ∧ Precedes stages (ConsumesRenamed rules) fun s => s.role = .rename := by
  -- stage by stage: one that works on a renamed extension comes before the first that renames
  have hstage : stages.zipIdx.findSome? (extFlaw? rules (firstOf .rename stages)) = none
      ↔ ∀ j s, stages[j]? = some s → ConsumesRenamed rules s →
        ∃ r i, firstOf .rename stages = some (r, i) ∧ j ≤ i := by
    rw [List.findSome?_eq_none_iff]
    have hone : ∀ s j, extFlaw? rules (firstOf .rename stages) (s, j) = none
        ↔ (ConsumesRenamed rules s → ∃ r i, firstOf .rename stages = some (r, i) ∧ j ≤ i) := by
      intro s j
      rw [extFlaw?]
      cases hext : changedExt? rules s with
      | none => simp [changedExt?_eq_none_iff.1 hext]
      | some ext =>
          have hchanged : ConsumesRenamed rules s := by
            by_contra hnot
            rw [changedExt?_eq_none_iff.2 hnot] at hext
            cases hext
          cases firstOf .rename stages with
          | none => simp [hchanged]
          | some found =>
              obtain ⟨r, i⟩ := found
              simp [hchanged]
    exact ⟨fun h j s hs => (hone s j).1 (h (s, j) (List.mem_zipIdx_iff_getElem?.2 hs)),
      fun h x hx => (hone x.1 x.2).2 (h x.2 x.1 (List.mem_zipIdx_iff_getElem?.1 hx))⟩
  rw [hstage]
  constructor
  · refine fun h => ⟨?_, fun j k s t hs ht hchanged hrole => ?_⟩
    · rintro ⟨s, hs, hchanged⟩
      obtain ⟨j, hj⟩ := List.mem_iff_getElem?.1 hs
      obtain ⟨r, i, hfirst, -⟩ := h j s hj hchanged
      obtain ⟨hat, hrole, -⟩ := firstOf_eq_some hfirst
      exact ⟨r, List.mem_of_getElem? hat, hrole⟩
    · obtain ⟨r, i, hfirst, hle⟩ := h j s hs hchanged
      obtain ⟨hat, hrole', hleast⟩ := firstOf_eq_some hfirst
      have hik := hleast k t ht hrole
      -- a renaming stage is none of those that work on a renamed extension
      have hne : j ≠ i := by
        rintro rfl
        rw [hat, Option.some.injEq] at hs
        exact hchanged.1 (hs ▸ hrole')
      omega
  · rintro ⟨hexists, hprecedes⟩ j s hs hchanged
    cases hfirst : firstOf .rename stages with
    | none =>
        obtain ⟨r, hr, hrole⟩ := hexists ⟨s, List.mem_of_getElem? hs, hchanged⟩
        exact absurd hrole (firstOf_eq_none_iff.1 hfirst r hr)
    | some found =>
        obtain ⟨r, i⟩ := found
        obtain ⟨hat, hrole, -⟩ := firstOf_eq_some hfirst
        exact ⟨r, i, rfl, (hprecedes j i s r hs hat hchanged hrole).le⟩

lemma repeatedName?_eq_none_iff {seen : List Text} :
    repeatedName? seen stages = none
      ↔ (∀ s ∈ stages, s.name ∉ seen) ∧ (stages.map (·.name)).Nodup := by
  induction stages generalizing seen with
  | nil => simp [repeatedName?]
  | cons s rest ih =>
      rw [repeatedName?]
      split_ifs with hseen
      · rw [List.contains_iff_mem] at hseen
        simp [hseen]
      · rw [List.contains_iff_mem] at hseen
        rw [ih, List.map_cons, List.nodup_cons, List.forall_mem_cons]
        constructor
        · rintro ⟨hrest, hnodup⟩
          refine ⟨⟨hseen, fun t ht hmem => hrest t ht (by simp [hmem])⟩, ?_, hnodup⟩
          intro hmem
          obtain ⟨t, ht, heq⟩ := List.mem_map.1 hmem
          exact hrest t ht (by simp [heq])
        · rintro ⟨⟨-, hrest⟩, hnew, hnodup⟩
          refine ⟨fun t ht hmem => ?_, hnodup⟩
          rcases List.mem_cons.1 hmem with heq | hmem
          · exact hnew (heq ▸ List.mem_map_of_mem ht)
          · exact hrest t ht hmem

/-- A property of the places of a list, read off its first element and the others. -/
lemma forall_getElem?_cons {P : ℕ → StageInfo → Prop} {s : StageInfo} :
    (∀ i t, (s :: stages)[i]? = some t → P i t)
      ↔ P 0 s ∧ ∀ i t, stages[i]? = some t → P (i + 1) t := by
  constructor
  · intro h
    exact ⟨h 0 s rfl, fun i t ht => h (i + 1) t (by simpa using ht)⟩
  · rintro ⟨hzero, hsucc⟩ i t ht
    cases i with
    | zero =>
        cases ht
        exact hzero
    | succ i => exact hsucc i t (by simpa using ht)

lemma forall_getElem?_iff_forall_mem {P : StageInfo → Prop} :
    (∀ (i : ℕ) t, stages[i]? = some t → P t) ↔ ∀ t ∈ stages, P t := by
  constructor
  · intro h t ht
    obtain ⟨i, hi⟩ := List.mem_iff_getElem?.1 ht
    exact h i t hi
  · exact fun h i t ht => h t (List.mem_of_getElem? ht)

lemma cleanFlaw?_eq_none_iff (hne : stages ≠ []) :
    cleanFlaw? dev stages = none
      ↔ ∀ i s, stages[i]? = some s → (s.role = .clean ↔ dev = false ∧ i = 0) := by
  have hcount : ∀ l : List StageInfo, (l.filter fun s => decide (s.role = .clean)).length = 0
      ↔ ∀ s ∈ l, s.role ≠ .clean := by
    simp
  cases dev with
  | true =>
      have hnone : cleanFlaw? true stages = none ↔ ∀ s ∈ stages, s.role ≠ .clean := by
        rw [← hcount, ← Nat.le_zero, ← not_lt]
        simp only [cleanFlaw?, if_true]
        split_ifs with hpos
        · simp [hpos]
        · simp [hpos]
      rw [hnone, ← forall_getElem?_iff_forall_mem]
      simp
  | false =>
      cases stages with
      | nil => exact absurd rfl hne
      | cons s rest =>
          have hnone : cleanFlaw? false (s :: rest) = none
              ↔ s.role = .clean ∧ ∀ s ∈ rest, s.role ≠ .clean := by
            rw [← hcount]
            by_cases hrole : s.role = .clean
            · simp [cleanFlaw?, hrole]
            · simp [cleanFlaw?, hrole]
          rw [hnone, forall_getElem?_cons, ← forall_getElem?_iff_forall_mem]
          simp

lemma emitFlaw?_eq_none_iff (hne : stages ≠ []) :
    emitFlaw? stages = none
      ↔ ∀ i s, stages[i]? = some s → (s.role = .emit ↔ i + 1 = stages.length) := by
  -- the last stage is split off: it emits, and none of those before it does
  obtain ⟨init, last, rfl⟩ : ∃ init last, stages = init ++ [last] :=
    ⟨_, _, (List.dropLast_append_getLast hne).symm⟩
  have hnone : emitFlaw? (init ++ [last]) = none
      ↔ last.role = .emit ∧ init.filter (fun s => decide (s.role = .emit)) = [] := by
    rw [emitFlaw?, List.getLast?_concat, List.filter_append]
    by_cases hlast : last.role = .emit
    · cases hinit : init.filter fun s => decide (s.role = .emit) with
      | nil => simp [hlast]
      | cons s rest => cases rest <;> simp [hlast]
    · cases hinit : init.filter fun s => decide (s.role = .emit) with
      | nil => simp [hlast]
      | cons s rest => cases rest <;> simp [hlast]
  rw [hnone, List.filter_eq_nil_iff]
  constructor
  · rintro ⟨hlast, hinit⟩ i s hs
    obtain ⟨hi, hs⟩ := List.getElem?_eq_some_iff.1 hs
    rw [List.length_append, List.length_singleton] at hi ⊢
    by_cases hlt : i < init.length
    · rw [List.getElem_append_left hlt] at hs
      have hnot := hinit s (hs ▸ List.getElem_mem hlt)
      simp only [decide_eq_true_iff] at hnot
      exact iff_of_false hnot (by omega)
    · obtain rfl : i = init.length := by omega
      rw [List.getElem_concat_length rfl] at hs
      exact iff_of_true (hs ▸ hlast) rfl
  · intro h
    refine ⟨(h init.length last (by simp)).2 (by simp), fun s hs => ?_⟩
    obtain ⟨i, hi, hs⟩ := List.getElem_of_mem hs
    have hat : (init ++ [last])[i]? = some s := by
      rw [List.getElem?_append_left hi, List.getElem?_eq_getElem hi, hs]
    simp only [decide_eq_true_iff, h i s hat, List.length_append, List.length_singleton]
    omega

/-! ### The whole check -/

lemma precedes_resolved_iff :
    lateStage? (fun s => s.role = .resolve || s.role = .interop) .component stages = none
      ↔ Precedes stages (fun s => s.role = .resolve ∨ s.role = .interop)
        fun s => s.role = .component := by
  rw [lateStage?_eq_none_iff]
  · simp [Precedes]
  · intro s hs hrole
    simp [hrole] at hs

lemma precedes_stripped_iff :
    lateStage? (·.role.isContent) .strip stages = none
      ↔ Precedes stages (fun s => s.role.isContent = true) fun s => s.role = .strip := by
  refine lateStage?_eq_none_iff fun s hs hrole => ?_
  rw [hrole] at hs
  cases hs

lemma flaw?_eq_none_iff : flaw? stages dev rules = none ↔ WellOrdered stages dev rules := by
  rw [flaw?]
  split_ifs with hne
  · exact ⟨fun h => (nomatch h), fun h => absurd hne h.nonempty⟩
  simp only [Option.or_eq_none_iff]
  rw [repeatedName?_eq_none_iff, cleanFlaw?_eq_none_iff hne, emitFlaw?_eq_none_iff hne,
    precedes_resolved_iff, extFlaw?_eq_none_iff, precedes_stripped_iff]
  constructor
  · rintro ⟨⟨-, hnames⟩, hclean, hemit, hresolved, ⟨hrenamed, hconsumed⟩, hstripped⟩
    exact ⟨hne, hnames, hclean, hemit, hresolved, hrenamed, hconsumed, hstripped⟩
  · intro h
    exact ⟨⟨by simp, h.distinct⟩, h.cleaned, h.emitted, h.resolved, ⟨h.renamed, h.consumed⟩,
      h.stripped⟩

/-- **The order check** accepts exactly the pipelines that are in order, and whatever it refuses is
refused as a violation of the order. -/
theorem flaw?_eq_none_iff_wellOrdered (stages : List StageInfo) (dev : Bool) (rules : RenameRules) :
    (flaw? stages dev rules = none ↔ WellOrdered stages dev rules)
    ∧ ((∃ flaw, flaw? stages dev rules = some flaw ∧ flaw.failure.fault = .stageOrder)
      ↔ ¬ WellOrdered stages dev rules) := by
  refine ⟨flaw?_eq_none_iff, ?_⟩
  rw [← flaw?_eq_none_iff, ← ne_eq, Option.ne_none_iff_exists']
  exact exists_congr fun flaw => and_iff_left rfl

end Pipeline

end MiniProgram
