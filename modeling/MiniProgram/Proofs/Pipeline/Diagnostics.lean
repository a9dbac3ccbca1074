import MiniProgram.Proofs.Graph.Run
import MiniProgram.Proofs.Pipeline

/-!
The diagnostics of a run.

A filter only decides which diagnostics are told; what the stages do does not depend on it. And all
that stages report are warnings: what goes wrong for good ends the run as a failure.

* `Step.through`, `runFrom_eq`: a run under a filter is the run that tells everything, with the
  diagnostics of each step filtered.
* `Outcome.Warns`, `Stage.Warns`: outcomes and stages that report nothing but warnings.
* `warns_of_make`, `severity_of_mem_runFrom`: **the stages of a build only warn.**
-/

namespace MiniProgram

namespace Pipeline

/-! ### Filters -/

/-- The filter that lets everything through. -/
def allPass : DiagnosticFilter := .ofCodes []

lemma passes_allPass (d : Diagnostic) : allPass.passes d = true := by
  cases h : d.severity <;> simp [DiagnosticFilter.passes, h, allPass, DiagnosticFilter.ofCodes,
    DiagnosticFilter.suppresses, Text.sortUnique, Text.sort]

/-- A step with the diagnostics that a filter lets through. -/
def Step.through (filter : DiagnosticFilter) (s : Step) : Step :=
  { s with diagnostics := s.diagnostics.filter filter.passes }

variable {filter : DiagnosticFilter} {calledOff : Option ℕ}

lemma runStage_eq (filter : DiagnosticFilter) (s : Stage) (state : State) :
    runStage filter s state = (runStage allPass s state).through filter := by
  have hall (ds : List Diagnostic) : ds.filter allPass.passes = ds :=
    List.filter_eq_self.2 fun d _ => passes_allPass d
  simp only [runStage, hall]
  cases (s.start.getD .ok) state.fs with
  | error f => rfl
  | ok fs =>
      dsimp only
      split <;> rfl

/-- **What a run does is independent of the filter**, which only takes diagnostics out of its
steps. -/
theorem runFrom_eq (filter : DiagnosticFilter) (calledOff : Option ℕ) (state : State)
    (stages : List Stage) :
    (runFrom filter calledOff state stages).steps
        = (runFrom allPass calledOff state stages).steps.map (Step.through filter)
      ∧ (runFrom filter calledOff state stages).fs = (runFrom allPass calledOff state stages).fs
      ∧ (runFrom filter calledOff state stages).result
        = (runFrom allPass calledOff state stages).result := by
  induction stages generalizing calledOff state with
  | nil => exact ⟨rfl, rfl, rfl⟩
  | cons s stages ih =>
      rw [runFrom, runFrom, runStage_eq filter]
      split_ifs
      · exact ⟨rfl, rfl, rfl⟩
      · have hresult : ((runStage allPass s state).through filter).result
            = (runStage allPass s state).result := rfl
        simp only [hresult]
        cases hr : (runStage allPass s state).result with
        | error f => exact ⟨rfl, rfl, rfl⟩
        | ok next =>
            obtain ⟨hsteps, hfs, hres⟩ := ih (calledOff.map Nat.pred) next
            exact ⟨congrArg _ hsteps, hfs, hres⟩

end Pipeline

/-! ### Outcomes that only warn -/

namespace Outcome

variable {α β σ : Type}

/-- All that is reported on the way to a result is a warning. -/
def Warns (x : Outcome α) : Prop := ∀ d ∈ x.diagnostics, d.severity = .warning

lemma warns_of (r : Except Failure α) : (of r).Warns := fun _ hd => (nomatch hd)

lemma warns_ok (a : α) : (ok a).Warns := warns_of _

lemma warns_fail (f : Failure) : (fail f : Outcome α).Warns := warns_of _

/-- One warning, and any result. -/
lemma warns_warning (code module message : Text) (r : Except Failure α) :
    (⟨[.warning code module message], r⟩ : Outcome α).Warns := by
  intro d hd
  rw [List.mem_singleton.1 hd]
  rfl

lemma Warns.bind {x : Outcome α} {f : α → Outcome β} (hx : x.Warns) (hf : ∀ a, (f a).Warns) :
    (x >>= f).Warns := by
  change (Outcome.bind x f).Warns
  rw [Outcome.bind]
  split
  · intro d hd
    rcases List.mem_append.1 hd with hd | hd
    · exact hx d hd
    · exact hf _ d hd
  · exact hx

lemma warns_foldlM {f : σ → α → Outcome σ} (hf : ∀ s a, (f s a).Warns) (xs : List α) (s : σ) :
    (xs.foldlM f s).Warns := by
  induction xs generalizing s with
  | nil => exact warns_ok s
  | cons x xs ih =>
      rw [List.foldlM_cons]
      exact (hf s x).bind ih

end Outcome

open Outcome

lemma HostPolicy.warns_apply (p : HostPolicy) (module : Text) (usages : List Script.Usage) :
    (p.apply module usages).Warns := by
  refine (warns_foldlM (fun ps u => ?_) usages _).bind fun _ => warns_ok _
  rw [applyUsage]
  split
  · refine warns_foldlM (fun ps prop => ?_) _ _
    rw [applyProp]
    split_ifs
    · exact warns_ok _
    · split
      · exact warns_fail _
      · exact warns_warning _ _ _ _
      · exact warns_warning _ _ _ _
  · dsimp only
    split_ifs
    · exact warns_fail _
    · exact warns_warning _ _ _ _

namespace Content

lemma warns_interop (project : Project) (m : Module) : (interop project m).Warns := by
  rw [interop]
  split
  · exact warns_ok _
  · split
    · exact warns_fail _
    · exact warns_ok _

lemma warns_readHost (policy : HostPolicy) (hostModule : Text) (m : Module) :
    (readHost policy hostModule m).Warns := by
  rw [readHost]
  split
  · exact warns_ok _
  · exact (policy.warns_apply _ _).bind fun _ => warns_ok _

lemma warns_transpile (transformer : Transformer) (m : Module) :
    (transpile transformer m).Warns := by
  refine (warns_of _).bind fun result => ?_
  dsimp only
  split
  · exact (warns_warning _ _ _ _).bind fun _ => warns_ok _
  · exact warns_ok _

lemma warns_wrapEntry (runtimeModule : Text) (m : Module) : (wrapEntry runtimeModule m).Warns := by
  simp only [wrapEntry]
  split
  · exact warns_warning _ _ _ _
  · exact warns_ok _

end Content

namespace Graph

variable (r : Resolver) (kindOf : Text → EntryKind)

lemma warns_follow (id : Text) (state : List Import × Walk) (spec : Text) :
    (follow r kindOf id state spec).Warns := by
  unfold follow
  dsimp only
  split
  · split_ifs
    · exact warns_fail _
    · exact warns_warning _ _ _ _
  · split_ifs
    · exact warns_ok _
    · split
      · exact warns_fail _
      · exact warns_ok _

lemma warns_visit (w : Walk) (id : Text) : (visit r kindOf w id).Warns := by
  rw [visit]
  dsimp only
  split_ifs
  · exact warns_ok _
  · exact (warns_foldlM (warns_follow r kindOf _) _ _).bind fun _ => warns_ok _

lemma warns_walk : ∀ w o, walk r kindOf w = some o → o.Warns := by
  refine walk.partial_correctness r kindOf _ ?_
  intro go ih w o hgo
  obtain ⟨bundle, queue, seen⟩ := w
  cases queue with
  | nil =>
      cases hgo
      exact warns_ok _
  | cons id queue =>
      have hvisited := warns_visit r kindOf ⟨bundle, queue, seen⟩ id
      simp only at hgo
      split at hgo
      · cases hgo
        exact hvisited
      · rename_i w _
        obtain ⟨rest, hrest, hgo⟩ := Option.bind_eq_some_iff.1 hgo
        cases hgo
        intro d hd
        rcases List.mem_append.1 hd with hd | hd
        · exact hvisited d hd
        · exact ih w rest hrest d hd

lemma warns_complete (b : Bundle) : (complete r kindOf b).Warns := by
  rw [complete]
  cases hwalk : walk r kindOf (Walk.start b) with
  | none => exact warns_fail _
  | some o => exact warns_walk r kindOf _ o hwalk

lemma warns_walkWithin (visits : ℕ) (w : Walk) : (walkWithin r kindOf visits w).Warns := by
  induction visits generalizing w with
  | zero =>
      rw [walkWithin]
      split
      · exact warns_ok _
      · exact warns_fail _
  | succ visits ih =>
      rw [walkWithin]
      split
      · exact warns_ok _
      · exact (warns_visit r kindOf _ _).bind ih

lemma warns_completeWithin (visits : Option ℕ) (b : Bundle) :
    (completeWithin visits r kindOf b).Warns := by
  cases visits with
  | none => exact warns_complete r kindOf b
  | some visits => exact warns_walkWithin r kindOf visits _

end Graph

namespace Layout

lemma warns_linkAll (b : Bundle) : (linkAll b).Warns := by
  rw [linkAll]
  split
  · exact warns_fail _
  · exact warns_ok _

lemma warns_stripAll (b : Bundle) : (stripAll b).Warns := by
  rw [stripAll]
  split
  · exact warns_fail _
  · exact warns_ok _

end Layout

/-! ### Stages that only warn -/

namespace Stage

variable {deps : Deps} {s : Stage}

/-- A stage whose transform and finish only warn. -/
structure Warns (s : Stage) : Prop where
  transform : ∀ f, s.transform = some f → ∀ m, (f m).Warns
  finish : ∀ f, s.finish = some f → ∀ fs b, (f fs b).Warns

/-- A stage that only transforms modules, and only warns then. -/
lemma warns_of_transform {f : Module → Outcome Module} (ht : s.transform = some f)
    (hf : s.finish = none) (h : ∀ m, (f m).Warns) : s.Warns := by
  refine ⟨fun g hg => ?_, fun g hg => ?_⟩
  · rw [ht] at hg
    cases hg
    exact h
  · rw [hf] at hg
    cases hg

/-- A stage that only acts on the bundle, and only warns then. -/
lemma warns_of_finish {f : FileSystem → Bundle → Outcome Bundle} (ht : s.transform = none)
    (hf : s.finish = some f) (h : ∀ fs b, (f fs b).Warns) : s.Warns := by
  refine ⟨fun g hg => ?_, fun g hg => ?_⟩
  · rw [ht] at hg
    cases hg
  · rw [hf] at hg
    cases hg
    exact h

lemma warns_clean (h : Stage.clean deps = .ok s) : s.Warns := by
  obtain ⟨project, -, h⟩ := bind_eq_ok.1 h
  obtain ⟨-, -, h⟩ := bind_eq_ok.1 h
  cases h
  exact ⟨fun _ hf => (nomatch hf), fun _ hf => (nomatch hf)⟩

lemma warns_progress (h : Stage.progress deps = .ok s) : s.Warns := by
  cases h
  refine ⟨fun f hf m => ?_, fun f hf fs b => ?_⟩
  · cases hf
    exact warns_ok m
  · cases hf
    exact warns_ok b

lemma warns_resolve (h : Stage.resolve deps = .ok s) : s.Warns := by
  obtain ⟨project, -, h⟩ := bind_eq_ok.1 h
  obtain ⟨-, -, h⟩ := bind_eq_ok.1 h
  cases h
  exact warns_of_finish rfl rfl fun fs b => Graph.warns_completeWithin _ _ _ b

lemma warns_commonjs (h : Stage.commonjs deps = .ok s) : s.Warns := by
  obtain ⟨project, -, h⟩ := bind_eq_ok.1 h
  cases h
  exact warns_of_transform rfl rfl (Content.warns_interop project)

lemma warns_script (h : Stage.script deps = .ok s) : s.Warns := by
  obtain ⟨project, -, h⟩ := bind_eq_ok.1 h
  obtain ⟨registry, -, h⟩ := bind_eq_ok.1 h
  obtain ⟨transformer, -, h⟩ := bind_eq_ok.1 h
  obtain ⟨platform, -, h⟩ := bind_eq_ok.1 h
  cases h
  exact warns_of_transform rfl rfl fun m =>
    (Content.warns_readHost _ _ m).bind (Content.warns_transpile transformer)

lemma warns_page (h : Stage.page deps = .ok s) : s.Warns := by
  obtain ⟨project, -, h⟩ := bind_eq_ok.1 h
  cases h
  exact warns_of_transform rfl rfl (Content.warns_wrapEntry project.runtimeModule)

lemma warns_style (h : Stage.style deps = .ok s) : s.Warns := by
  obtain ⟨project, -, h⟩ := bind_eq_ok.1 h
  cases h
  exact warns_of_transform rfl rfl fun m => warns_ok _

lemma warns_rename (h : Stage.rename deps = .ok s) : s.Warns := by
  obtain ⟨project, -, h⟩ := bind_eq_ok.1 h
  cases hflaw : project.renameRules.flaw? with
  | some flaw =>
      simp only [hflaw] at h
      cases h
  | none =>
      simp only [hflaw] at h
      cases h
      refine ⟨fun f hf m => ?_, fun f hf fs b => ?_⟩
      · cases hf
        exact warns_ok _
      · cases hf
        exact Layout.warns_linkAll b

lemma warns_strip (h : Stage.strip deps = .ok s) : s.Warns := by
  cases h
  exact warns_of_finish rfl rfl fun fs b => Layout.warns_stripAll b

lemma warns_template (h : Stage.template deps = .ok s) : s.Warns := by
  obtain ⟨project, -, h⟩ := bind_eq_ok.1 h
  obtain ⟨catalog, -, h⟩ := bind_eq_ok.1 h
  obtain ⟨registry, -, h⟩ := bind_eq_ok.1 h
  obtain ⟨platform, -, h⟩ := bind_eq_ok.1 h
  cases h
  exact warns_of_finish rfl rfl fun fs b => warns_of _

end Stage

/-! ### Runs that only warn -/

namespace Pipeline

open Stage

variable {filter : DiagnosticFilter} {deps : Deps} {s : Stage} {state : State}

/-- **All makers make stages that only warn.** -/
theorem warns_of_make {name : Text} (h : make makers deps name = .ok s) : s.Warns := by
  obtain ⟨maker, hl, hs⟩ := make_eq_ok h
  obtain ⟨front, back, hsplit, -⟩ := List.lookup_eq_some_iff.1 hl
  have hmem : (name, maker) ∈ makers := by simp [hsplit]
  simp only [makers, List.mem_cons, Prod.mk.injEq, List.not_mem_nil, or_false] at hmem
  rcases hmem with ⟨-, rfl⟩ | ⟨-, rfl⟩ | ⟨-, rfl⟩ | ⟨-, rfl⟩ | ⟨-, rfl⟩ | ⟨-, rfl⟩ | ⟨-, rfl⟩
    | ⟨-, rfl⟩ | ⟨-, rfl⟩ | ⟨-, rfl⟩
  · exact warns_clean hs
  · exact warns_progress hs
  · exact warns_resolve hs
  · exact warns_commonjs hs
  · exact warns_script hs
  · exact warns_page hs
  · exact warns_style hs
  · exact warns_rename hs
  · exact warns_strip hs
  · exact warns_template hs

lemma warns_transformAll {f : Module → Outcome Module} (hf : ∀ m, (f m).Warns) (b : Bundle) :
    (transformAll s f b).Warns := by
  intro d hd
  obtain ⟨o, ho, hd⟩ := List.mem_flatMap.1 hd
  obtain ⟨m, -, rfl⟩ := List.mem_map.1 ho
  exact hf m d hd

/-- What the transform of a stage makes of a bundle. -/
def transformBundle (s : Stage) (b : Bundle) : Outcome Bundle :=
  match s.transform with
  | some f => transformAll s f b
  | none => .ok b

/-- What a stage does with a bundle in the end. -/
def finishBundle (s : Stage) (fs : FileSystem) (b : Bundle) : Outcome Bundle :=
  match s.finish with
  | some f => f fs b
  | none => .ok b

lemma warns_transformBundle (hs : s.Warns) (b : Bundle) : (transformBundle s b).Warns := by
  rw [transformBundle]
  split
  · rename_i f hf
    exact warns_transformAll (hs.transform f hf) b
  · exact warns_ok b

lemma warns_finishBundle (hs : s.Warns) (fs : FileSystem) (b : Bundle) :
    (finishBundle s fs b).Warns := by
  rw [finishBundle]
  split
  · rename_i f hf
    exact hs.finish f hf fs b
  · exact warns_ok b

/-- A step of a stage that only warns tells nothing but warnings. -/
lemma severity_of_mem_runStage (hs : s.Warns) {d : Diagnostic}
    (hd : d ∈ (runStage filter s state).diagnostics) : d.severity = .warning := by
  -- a filter takes diagnostics away and a stage puts its name on them
  have hshown : ∀ ds : List Diagnostic, (∀ d ∈ ds, d.severity = .warning) →
      d ∈ (ds.map (·.inStage s.name)).filter filter.passes → d.severity = .warning := by
    intro ds hds hd
    obtain ⟨d', hd', rfl⟩ := List.mem_map.1 (List.mem_filter.1 hd).1
    rw [Diagnostic.inStage]
    split_ifs <;> exact hds d' hd'
  have htransform := warns_transformBundle hs state.bundle
  rw [runStage] at hd
  cases hstart : (s.start.getD .ok) state.fs with
  | error f =>
      rw [hstart] at hd
      cases hd
  | ok fs =>
      simp only [hstart] at hd
      split at hd
      · exact hshown _ htransform hd
      · refine hshown _ (fun d hd => ?_) hd
        rcases List.mem_append.1 hd with hd | hd
        · exact htransform d hd
        · exact warns_finishBundle hs _ _ d hd

/-- **A run of stages that only warn tells nothing but warnings.** -/
theorem severity_of_mem_runFrom {stages : List Stage} (hs : ∀ s ∈ stages, s.Warns)
    {calledOff : Option ℕ} {step : Step}
    (hstep : step ∈ (runFrom filter calledOff state stages).steps)
    {d : Diagnostic} (hd : d ∈ step.diagnostics) : d.severity = .warning := by
  induction stages generalizing calledOff state with
  | nil => cases hstep
  | cons s stages ih =>
      have hhead := hs s List.mem_cons_self
      rw [runFrom] at hstep
      split_ifs at hstep
      · cases hstep
      · dsimp only at hstep
        split at hstep
        · rw [List.mem_singleton.1 hstep] at hd
          exact severity_of_mem_runStage hhead hd
        · rcases List.mem_cons.1 hstep with rfl | hstep
          · exact severity_of_mem_runStage hhead hd
          · exact ih (fun s' hs' => hs s' (List.mem_cons_of_mem s hs')) hstep

end Pipeline

end MiniProgram
