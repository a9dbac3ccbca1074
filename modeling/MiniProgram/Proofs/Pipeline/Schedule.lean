import MiniProgram.Proofs.Pipeline

/-!
The transforms of a stage, in any order.

The modules a stage includes are transformed at the same time, and nothing is known about the order
in which the transforms come to an end. What they give is collected by place: each module of the
bundle has a slot for its result and one for its warnings, which stay empty if the stage leaves the
module out, and only the failure that comes first is kept. When all have come to an end the warnings
are reported slot by slot, and the results are put into the bundle unless there was a failure.

* `Progress`, `Progress.complete`: what has been collected, and the end of one transform.
* `Collected.complete`, `collected_runAll`: what has been collected after some transforms, slot by
  slot.
* `meets_phase`: what the transforms come to, whatever their order.
* `transforms_in_any_order`: the warnings and the bundle are the same for every order, and so is
  whether there is a failure; a stage takes bundle order.
-/

namespace MiniProgram

namespace Pipeline

/-! ### Collecting -/

/-- A module to be transformed and its place in the bundle. -/
abbrev Job := Module × ℕ

/-- The modules a stage transforms with their places, in bundle order. -/
def jobs (s : Stage) (b : Bundle) : List Job :=
  b.modules.zipIdx.filter fun j => !j.1.seed && s.includes j.1.modulePath

/-- What the transforms of a stage have given so far: for each place of the bundle the module and
the warnings, and the failure that came first. -/
structure Progress where
  results : List (Option Module)
  warnings : List (List Diagnostic)
  failure : Option Failure

/-- What is collected before any transform has come to its end. -/
def Progress.start (b : Bundle) : Progress :=
  ⟨List.replicate b.size none, List.replicate b.size [], none⟩

variable (s : Stage) (f : Module → Outcome Module)

/-- One transform comes to its end. A failure leaves the result out and gives way to one before
it. -/
def Progress.complete (p : Progress) (j : Job) : Progress :=
  let outcome := transformOne s f j.1
  let warnings := p.warnings.set j.2 (outcome.diagnostics.map (·.inStage s.name))
  match outcome.result with
  | .ok m => { p with results := p.results.set j.2 (some m), warnings := warnings }
  | .error e => { p with failure := p.failure.or (some e), warnings := warnings }

/-- The transforms of some modules come to their ends, one after the other. -/
def runAll (b : Bundle) (order : List Job) : Progress :=
  order.foldl (Progress.complete s f) (Progress.start b)

/-- What the transforms of a stage come to: the warnings handed on, the bundle, and the failure if
there was one. -/
structure Phase where
  warnings : List Diagnostic
  bundle : Bundle
  failure : Option Failure

/-- The transforms of a stage, coming to their ends in some order. The bundle takes the results only
if none failed. -/
def phase (b : Bundle) (order : List Job) : Phase :=
  let p := runAll s f b order
  { warnings := p.warnings.flatten
    bundle := if p.failure.isNone then (p.results.filterMap id).foldl Bundle.put b else b
    failure := p.failure }

/-! ### Slot by slot -/

/-- Writing the slot at the place of an element changes what is kept for that element. -/
lemma set_map_zipIdx {α β : Type} [DecidableEq α] {xs : List α} {x : α} {i : ℕ}
    (h : (x, i) ∈ xs.zipIdx) (g : α × ℕ → β) (y : β) :
    (xs.zipIdx.map g).set i y = xs.zipIdx.map fun z => if z = (x, i) then y else g z := by
  have hx : xs[i]? = some x := List.mem_zipIdx_iff_getElem?.1 h
  obtain ⟨hi, rfl⟩ := List.getElem?_eq_some_iff.1 hx
  refine List.ext_getElem (by simp) fun k hk _ => ?_
  have hlt : k < xs.length := by simpa using hk
  rw [List.getElem_set, List.getElem_map, List.getElem_map, List.getElem_zipIdx, Nat.zero_add]
  by_cases hik : i = k
  · subst hik
    simp
  · have hne : (xs[k], k) ≠ (xs[i], i) := fun heq => hik (Prod.ext_iff.1 heq).2.symm
    rw [if_neg hik, if_neg hne]

variable {s f} {b : Bundle} {order : List Job} {j : Job}

/-- A module is transformed if it is in the bundle and the stage includes it. -/
lemma mem_jobs_iff {z : Job} (hz : z ∈ b.modules.zipIdx) :
    z ∈ jobs s b ↔ (!z.1.seed && s.includes z.1.modulePath) = true := by
  rw [jobs, List.mem_filter]
  exact and_iff_right hz

lemma map_fst_jobs : (jobs s b).map (·.1) = included s b := by
  conv_rhs => rw [included, ← List.zipIdx_map_fst 0 b.modules, List.filter_map]
  rfl

/-- What has been collected after some transforms: the results and the warnings of those that came
to their ends, each in its slot, and the first failure among them. -/
structure Collected (s : Stage) (f : Module → Outcome Module) (b : Bundle) (order : List Job)
    (p : Progress) : Prop where
  results : p.results = b.modules.zipIdx.map fun z =>
    if z ∈ order then (f z.1).result.toOption else none
  warnings : p.warnings = b.modules.zipIdx.map fun z =>
    if z ∈ order then (f z.1).diagnostics.map (·.inStage s.name) else []
  failure : p.failure = order.findSome? fun z => failure? (transformOne s f z.1).result

lemma collected_start : Collected s f b [] (Progress.start b) := by
  refine ⟨?_, ?_, rfl⟩ <;> simp [Progress.start, Bundle.size, List.map_const']

/-- The end of one more transform. -/
lemma Collected.complete {p : Progress} (hp : Collected s f b order p)
    (hj : j ∈ b.modules.zipIdx) : Collected s f b (order ++ [j]) (p.complete s f j) := by
  have hwarnings : p.warnings.set j.2 ((f j.1).diagnostics.map (·.inStage s.name))
      = b.modules.zipIdx.map fun z =>
        if z ∈ order ++ [j] then (f z.1).diagnostics.map (·.inStage s.name) else [] := by
    rw [hp.warnings, set_map_zipIdx hj]
    refine List.map_congr_left fun z _ => ?_
    by_cases hz : z = j <;> simp [hz]
  rw [Progress.complete]
  cases hres : (f j.1).result with
  | ok m =>
      simp only [transformOne, hres, Except.mapError]
      refine ⟨?_, hwarnings, ?_⟩
      · rw [hp.results, set_map_zipIdx hj]
        refine List.map_congr_left fun z _ => ?_
        by_cases hz : z = j <;> simp [hz, hres, Except.toOption]
      · simp [hp.failure, transformOne, hres, Except.mapError, failure?]
  | error e =>
      simp only [transformOne, hres, Except.mapError]
      refine ⟨?_, hwarnings, ?_⟩
      · rw [hp.results]
        refine List.map_congr_left fun z _ => ?_
        by_cases hz : z = j <;> simp [hz, hres, Except.toOption]
      · simp [hp.failure, transformOne, hres, Except.mapError, failure?]

/-- After some transforms their results and warnings are in their slots. -/
theorem collected_runAll (h : ∀ j ∈ order, j ∈ b.modules.zipIdx) :
    Collected s f b order (runAll s f b order) := by
  induction order using List.reverseRecOn with
  | nil => exact collected_start
  | append_singleton order j ih =>
      rw [runAll, List.foldl_concat]
      exact (ih fun k hk => h k (by simp [hk])).complete (h j (by simp))

/-! ### Any order -/

lemma collected_of_perm (h : order.Perm (jobs s b)) :
    Collected s f b order (runAll s f b order) :=
  collected_runAll fun _ hj => (List.mem_filter.1 (h.mem_iff.1 hj)).1

/-- If the modules to be transformed have all been, the slots that are filled are those of the
included modules. -/
lemma slots_of_perm {β : Type} (h : order.Perm (jobs s b)) (g : Module → β) (d : β) :
    (b.modules.zipIdx.map fun z => if z ∈ order then g z.1 else d)
      = b.modules.map fun m => if !m.seed && s.includes m.modulePath then g m else d := by
  conv_rhs => rw [← List.zipIdx_map_fst 0 b.modules, List.map_map]
  refine List.map_congr_left fun z hz => ?_
  simp only [h.mem_iff, mem_jobs_iff hz, Function.comp_apply]

/-- The warnings come in bundle order. -/
lemma warnings_phase (h : order.Perm (jobs s b)) :
    (phase s f b order).warnings
      = (included s b).flatMap fun m => (f m).diagnostics.map (·.inStage s.name) := by
  have hp : Collected s f b order _ := collected_of_perm h
  rw [phase, hp.warnings,
    slots_of_perm h fun m => (f m).diagnostics.map (·.inStage s.name), ← List.flatMap_def,
    flatMap_ite, included]

/-- There is a failure if a transform of an included module fails. -/
lemma failure_phase_eq_none_iff (h : order.Perm (jobs s b)) :
    (phase s f b order).failure = none ↔ ∀ m ∈ included s b, ∃ m', (f m).result = .ok m' := by
  have hp : Collected s f b order _ := collected_of_perm h
  rw [phase, hp.failure, List.findSome?_eq_none_iff, ← map_fst_jobs]
  simp only [failure?_eq_none_iff, transformOne_eq_ok, List.forall_mem_map, h.mem_iff]

/-- Without a failure the bundle takes what the transforms gave. -/
lemma bundle_phase (h : order.Perm (jobs s b)) (hnone : (phase s f b order).failure = none) :
    (phase s f b order).bundle = ((included s b).map (transformed f)).foldl Bundle.put b := by
  have hp : Collected s f b order _ := collected_of_perm h
  have hnone' : (runAll s f b order).failure = none := hnone
  have hresults : (runAll s f b order).results.filterMap id
      = (included s b).map (transformed f) := by
    rw [hp.results, slots_of_perm h fun m => (f m).result.toOption, List.filterMap_map,
      Function.id_comp, ← List.filterMap_filter, ← List.filterMap_eq_map]
    refine List.filterMap_congr fun m hm => ?_
    obtain ⟨m', hm'⟩ := (failure_phase_eq_none_iff h).1 hnone m hm
    rw [Function.comp_apply, transformed_of_ok hm', hm']
    rfl
  rw [phase, hnone', hresults]
  rfl

/-- With a failure the bundle stays as it was. -/
lemma bundle_phase_of_failure {e : Failure} (hsome : (phase s f b order).failure = some e) :
    (phase s f b order).bundle = b := by
  have hsome' : (runAll s f b order).failure = some e := hsome
  rw [phase, hsome']
  rfl

/-- The failure is that of the module whose transform was the first to fail. -/
lemma failure_phase_eq_some (h : order.Perm (jobs s b)) {e : Failure}
    (hsome : (phase s f b order).failure = some e) :
    ∃ front m back, order.map (·.1) = front ++ m :: back
      ∧ (∀ m' ∈ front, ∃ m'', (f m').result = .ok m'')
      ∧ ∃ cause, (f m).result = .error cause ∧ e = cause.atStage s.name m.id := by
  have hp : Collected s f b order _ := collected_of_perm h
  have hsome' : (runAll s f b order).failure = some e := hsome
  rw [hp.failure, List.findSome?_eq_some_iff] at hsome'
  obtain ⟨front, j, back, rfl, hj, hfront⟩ := hsome'
  refine ⟨front.map (·.1), j.1, back.map (·.1), by simp, ?_, ?_⟩
  · intro m' hm'
    obtain ⟨k, hk, rfl⟩ := List.mem_map.1 hm'
    obtain ⟨m'', hm''⟩ := failure?_eq_none_iff.1 (hfront k hk)
    exact ⟨m'', transformOne_eq_ok.1 hm''⟩
  · rw [failure?_eq_some_iff, transformOne] at hj
    cases hres : (f j.1).result with
    | ok m' => simp [hres, Except.mapError] at hj
    | error cause =>
        simp only [hres, Except.mapError, Except.error.injEq] at hj
        exact ⟨cause, rfl, hj.symm⟩

/-- What the transforms of a stage are to come to. -/
structure Phase.Meets (s : Stage) (f : Module → Outcome Module) (b : Bundle) (p : Phase) :
    Prop where
  /-- The warnings of the modules follow each other in bundle order. -/
  warnings : p.warnings
    = (included s b).flatMap fun m => (f m).diagnostics.map (·.inStage s.name)
  /-- If no transform fails, the included modules are replaced where they stand, and nothing else
  changes. -/
  committed : (∀ m ∈ included s b, ∃ m', (f m).result = .ok m') →
    p.failure = none ∧ p.bundle.ids = b.ids ∧ p.bundle.files = b.files
      ∧ List.Forall₂ (fun m m' =>
          if m.seed = false ∧ s.includes m.modulePath = true then (f m).result = .ok m'
          else m' = m) b.modules p.bundle.modules
  /-- If a transform fails, the bundle stays as it was, and the failure names the stage and a module
  whose transform failed. -/
  failed : (∃ m ∈ included s b, ∃ cause, (f m).result = .error cause) →
    p.bundle = b ∧ ∃ m ∈ included s b, ∃ cause, (f m).result = .error cause
      ∧ p.failure = some (cause.atStage s.name m.id)

/-- Whatever order the transforms come to their ends in, they come to what they are to. -/
theorem meets_phase (hf : ∀ m m', (f m).result = .ok m' → m'.id = m.id)
    (h : order.Perm (jobs s b)) : (phase s f b order).Meets s f b where
  warnings := warnings_phase h
  committed := by
    intro hok
    have hnone := (failure_phase_eq_none_iff h).2 hok
    have hmodules : (phase s f b order).bundle.modules = b.modules.map fun m =>
        if !m.seed && s.includes m.modulePath then transformed f m else m := by
      rw [bundle_phase h hnone]
      exact Bundle.modules_foldl_put (transformed_id hf)
    refine ⟨hnone, ?_, ?_, ?_⟩
    · rw [Bundle.ids, hmodules, List.map_map, Bundle.ids]
      refine List.map_congr_left fun m _ => ?_
      rw [Function.comp_apply]
      split_ifs
      · exact transformed_id hf m
      · rfl
    · rw [bundle_phase h hnone, Bundle.files_foldl_put]
    · rw [hmodules, List.forall₂_map_right_iff, List.forall₂_same]
      intro m hm
      by_cases hin : (!m.seed && s.includes m.modulePath) = true
      · -- only a module that the stage includes has a job
        obtain ⟨m', hm'⟩ := hok m (List.mem_filter.2 ⟨hm, hin⟩)
        rw [if_pos hin, if_pos (by simpa using hin), hm', transformed_of_ok hm']
      · rw [if_neg hin, if_neg (by simpa using hin)]
  failed := by
    rintro ⟨m, hm, cause, hcause⟩
    cases hfail : (phase s f b order).failure with
    | none =>
        obtain ⟨m', hm'⟩ := (failure_phase_eq_none_iff h).1 hfail m hm
        rw [hm'] at hcause
        cases hcause
    | some e =>
        obtain ⟨front, m', back, horder, -, cause', hcause', rfl⟩ := failure_phase_eq_some h hfail
        refine ⟨bundle_phase_of_failure hfail, m', ?_, cause', hcause', rfl⟩
        rw [← map_fst_jobs, ← (h.map _).mem_iff, horder]
        simp

/-! ### The order that is taken -/

/-- What a phase comes to as a result. -/
def Phase.result (p : Phase) : Except Failure Bundle :=
  match p.failure with
  | some e => .error e
  | none => .ok p.bundle

/-- The modules of a stage are transformed in bundle order. -/
theorem transformAll_result :
    (transformAll s f b).result = (phase s f b (jobs s b)).result := by
  have hperm : (jobs s b).Perm (jobs s b) := .refl _
  have hp : Collected s f b _ _ := collected_of_perm hperm
  cases hfail : (phase s f b (jobs s b)).failure with
  | none =>
      rw [Phase.result, hfail, transformAll_eq_ok]
      refine ⟨fun m hm => ?_, (bundle_phase hperm hfail).symm⟩
      obtain ⟨m', hm'⟩ := (failure_phase_eq_none_iff hperm).1 hfail m hm
      rw [hm', transformed_of_ok hm']
  | some e =>
      have hfirst : (included s b).findSome? (fun m => failure? (transformOne s f m).result)
          = some e := by
        rw [← map_fst_jobs, List.findSome?_map]
        exact hp.failure.symm.trans hfail
      simp only [transformAll, Phase.result, hfail, List.mapM_map, Function.comp_def]
      rw [mapM_eq_findSome?, hfirst]
      rfl

lemma transformAll_diagnostics :
    (transformAll s f b).diagnostics.map (·.inStage s.name)
      = (phase s f b (jobs s b)).warnings := by
  rw [warnings_phase (.refl _), transformAll, List.flatMap_map, List.map_flatMap]
  rfl

/-- What a stage comes to after its transforms: a failure among them ends it, and else it finishes
with the bundle they leave. -/
def Phase.step (filter : DiagnosticFilter) (s : Stage) (fs : FileSystem) (n : ℕ) (p : Phase) :
    Step :=
  match p.failure with
  | some e => ⟨s.name, n, p.warnings.filter filter.passes, .error e⟩
  | none =>
    let finished := s.finish.elim (.ok p.bundle) fun g => g fs p.bundle
    { stage := s.name
      transformed := n
      diagnostics := (p.warnings ++ finished.diagnostics.map (·.inStage s.name)).filter
        filter.passes
      result := (finished.result.mapError (·.atStage s.name [])).map fun b => ⟨fs, b⟩ }

/-- A stage that has started runs its transforms in bundle order. -/
theorem runStage_eq_step {filter : DiagnosticFilter} {state : State} {fs : FileSystem}
    (hs : s.transform = some f) (hstart : (s.start.getD .ok) state.fs = .ok fs) :
    runStage filter s state = (phase s f state.bundle (jobs s state.bundle)).step filter s fs
      (included s state.bundle).length := by
  have hresult := transformAll_result (s := s) (f := f) (b := state.bundle)
  have hdiagnostics := transformAll_diagnostics (s := s) (f := f) (b := state.bundle)
  rw [runStage, Phase.step]
  simp only [hs, hstart, hresult, Option.isSome_some, if_true]
  cases hfail : (phase s f state.bundle (jobs s state.bundle)).failure with
  | some e => simp only [Phase.result, hfail, hdiagnostics]
  | none =>
      simp only [Phase.result, hfail, List.map_append, hdiagnostics]
      cases s.finish <;> rfl

/-- The transforms of a stage come to the same whatever order they come to their ends in: the
warnings in bundle order; all results in the bundle if none fails, and none of them if one does,
with a failure that names the stage and a module that failed. The stage itself takes bundle order,
in which that module is the first to fail. -/
theorem transforms_in_any_order (filter : DiagnosticFilter) (state : State) {fs : FileSystem}
    (hf : ∀ m m', (f m).result = .ok m' → m'.id = m.id) (hs : s.transform = some f)
    (hstart : (s.start.getD .ok) state.fs = .ok fs) (h : order.Perm (jobs s state.bundle)) :
    (phase s f state.bundle order).Meets s f state.bundle
    ∧ (let inBundleOrder := phase s f state.bundle (jobs s state.bundle)
      (phase s f state.bundle order).warnings = inBundleOrder.warnings
      ∧ (phase s f state.bundle order).bundle = inBundleOrder.bundle
      ∧ (phase s f state.bundle order).failure.isSome = inBundleOrder.failure.isSome
      ∧ (∀ e, inBundleOrder.failure = some e →
          ∃ front m back, included s state.bundle = front ++ m :: back
            ∧ (∀ m' ∈ front, ∃ m'', (f m').result = .ok m'')
            ∧ ∃ cause, (f m).result = .error cause ∧ e = cause.atStage s.name m.id)
      ∧ runStage filter s state
          = inBundleOrder.step filter s fs (included s state.bundle).length) := by
  have hperm : (jobs s state.bundle).Perm (jobs s state.bundle) := .refl _
  have hnone : (phase s f state.bundle order).failure = none
      ↔ (phase s f state.bundle (jobs s state.bundle)).failure = none := by
    rw [failure_phase_eq_none_iff h, failure_phase_eq_none_iff hperm]
  refine ⟨meets_phase hf h, ?_, ?_, ?_, ?_, runStage_eq_step hs hstart⟩
  · rw [warnings_phase h, warnings_phase hperm]
  · cases hfail : (phase s f state.bundle order).failure with
    | none => rw [bundle_phase h hfail, bundle_phase hperm (hnone.1 hfail)]
    | some e =>
        obtain ⟨e', he'⟩ := Option.ne_none_iff_exists'.1 (mt hnone.2 (by simp [hfail]))
        rw [bundle_phase_of_failure hfail, bundle_phase_of_failure he']
  · rw [Bool.eq_iff_iff, Option.isSome_iff_ne_none, Option.isSome_iff_ne_none, not_iff_not]
    exact hnone
  · intro e he
    rw [← map_fst_jobs]
    exact failure_phase_eq_some hperm he

/-- Warns about every module and accepts one of them. -/
def choose (m : Module) : Outcome Module where
  diagnostics := [.warning "SEEN" m.id "seen"]
  result :=
    if m.id = ("b.js" : Text) then .ok { m with content := "done" } else .error (.plain "refused")

/-- The stage that chooses. -/
def choosing : Stage := { Stage.idle "choose" .transform with transform := some choose }

/-- A state with a seed and three modules. -/
def fourModules : State :=
  ⟨⟨.memory .empty, false⟩, .ofModules [{ Module.ofSource "seed.js" [] with seed := true },
    .ofSource "a.js" [], .ofSource "b.js" [], .ofSource "c.js" []]⟩

theorem transforms_in_any_order_reversed :
    let order := (jobs choosing fourModules.bundle).reverse
    order.map (·.1.id) = ["c.js", "b.js", "a.js"]
      ∧ (phase choosing choose fourModules.bundle order).Meets choosing choose fourModules.bundle
      ∧ (phase choosing choose fourModules.bundle order).warnings.map (·.module)
        = ["a.js", "b.js", "c.js"]
      ∧ (phase choosing choose fourModules.bundle order).failure.map (·.message)
        = some "stage choose: c.js: refused"
      ∧ (runStage .standard choosing fourModules).result.mapError (·.message)
        = .error "stage choose: a.js: refused" := by
  have hf : ∀ m m', (choose m).result = .ok m' → m'.id = m.id := by
    intro m m' h
    simp only [choose] at h
    split at h
    · cases h
      rfl
    · cases h
  obtain ⟨hmeets, hwarnings, -, -, -, hstep⟩ := transforms_in_any_order .standard fourModules hf
    rfl rfl (List.reverse_perm (jobs choosing fourModules.bundle))
  refine ⟨by decide +kernel, hmeets, ?_, by decide +kernel, ?_⟩
  · rw [hwarnings]
    decide +kernel
  · rw [hstep]
    decide +kernel

end Pipeline

end MiniProgram
