import MiniProgram.Pipeline
import MiniProgram.Proofs.Bundle
import MiniProgram.Proofs.Failure

/-!
Pipelines that succeed, traced to their parts.

* `make_eq_ok`, `mapM_make_of_assemble`: where the stages of a build come from.
* `runStage_eq_ok`, `runFrom_cons_eq_ok`: a run that succeeds is a row of steps that do, and a step
  is a start, a transform and a finish.
* `transformAll_eq_ok`: the transforms of a stage succeed if all of them do.
* `modules_of_transformAll`: a transform that cannot fail changes the included modules where they
  stand.
-/

namespace MiniProgram

/-- A part that a stage needs is there. -/
lemma Deps.eq_some_of_need {α : Type} {stage part : Text} {x : Option α} {a : α}
    (h : need stage part x = .ok a) : x = some a := by
  cases x with
  | none => cases h
  | some a' =>
      cases h
      rfl

/-- The project a stage needs is the one it is made from. -/
lemma Deps.needProject_eq_ok {deps : Deps} {project project' : Project} {stage : Text}
    (hp : deps.project = some project) (h : deps.needProject stage = .ok project') :
    project = project' := by
  rw [needProject, hp] at h
  cases h
  rfl

namespace Pipeline

/-! ### Making stages -/

/-- A stage comes from the maker under its name. -/
lemma make_eq_ok {deps : Deps} {name : Text} {s : Stage} (h : make makers deps name = .ok s) :
    ∃ maker, makers.lookup name = some maker ∧ maker deps = .ok s := by
  rw [make] at h
  cases hl : makers.lookup name with
  | none => rw [hl] at h; cases h
  | some maker =>
      rw [hl] at h
      obtain ⟨s', hs', h⟩ := bind_eq_ok.1 h
      rw [withContext_eq_ok] at hs'
      split at h
      · cases h
        exact ⟨maker, rfl, hs'⟩
      · cases h

/-- A stage with a known maker comes from it. -/
lemma maker_eq_ok {deps : Deps} {name : Text} {maker : StageMaker} {s : Stage}
    (hmaker : makers.lookup name = some maker) (h : make makers deps name = .ok s) :
    maker deps = .ok s := by
  obtain ⟨maker', hmaker', hs⟩ := make_eq_ok h
  rw [hmaker] at hmaker'
  cases hmaker'
  exact hs

/-- The stages of a build are made one for each name. -/
lemma mapM_make_of_assemble {dev : Bool} {deps : Deps} {project : Project} {stages : List Stage}
    (hp : deps.project = some project) (h : assemble dev deps = .ok stages) :
    (names dev).mapM (make makers deps) = .ok stages := by
  rw [assemble, assembleWith, hp] at h
  obtain ⟨made, hmade, h⟩ := bind_eq_ok.1 h
  split at h
  · cases h
  · cases h
    exact hmade

/-! ### Running stages -/

variable {filter : DiagnosticFilter} {s : Stage} {state next : State}

/-- A step that succeeds: the start, the transform and the finish of the stage do, as far as it has
them. -/
lemma runStage_eq_ok (h : (runStage filter s state).result = .ok next) :
    ∃ b, (s.start.getD .ok) state.fs = .ok next.fs
      ∧ (s.transform.elim (.ok state.bundle) fun f => transformAll s f state.bundle).result = .ok b
      ∧ (s.finish.elim (.ok b) fun f => f next.fs b).result = .ok next.bundle := by
  rw [runStage] at h
  cases hstart : (s.start.getD .ok) state.fs with
  | error f =>
      rw [hstart] at h
      cases h
  | ok fs =>
      simp only [hstart] at h
      split at h
      · cases h
      · rename_i b hb
        obtain ⟨b', hb', rfl⟩ := map_eq_ok.1 h
        rw [mapError_eq_ok] at hb'
        refine ⟨b, rfl, ?_, ?_⟩
        · cases ht : s.transform with
          | none => simpa only [ht, Option.elim_none] using hb
          | some f => simpa only [ht, Option.elim_some] using hb
        · cases hf : s.finish with
          | none => simpa only [hf, Option.elim_none] using hb'
          | some f => simpa only [hf, Option.elim_some] using hb'

/-- A run succeeds if its first stage does and then the others do. -/
lemma runFrom_cons_eq_ok {rest : List Stage} {b : Bundle} :
    (runFrom filter none state (s :: rest)).result = .ok b
      ↔ ∃ next, (runStage filter s state).result = .ok next
        ∧ (runFrom filter none next rest).result = .ok b := by
  rw [runFrom]
  simp only [reduceCtorEq, if_false, Option.map_none]
  cases hstep : (runStage filter s state).result with
  | error f => simp
  | ok next => simp

/-- **A run that may be called off** either is, after a leading part of the steps it would have
taken, or it is the whole run. -/
theorem runFrom_cases (filter : DiagnosticFilter) (calledOff : Option ℕ) (state : State)
    (stages : List Stage) :
    ((runFrom filter calledOff state stages).result = .error .canceled
        ∧ (runFrom filter calledOff state stages).steps
          <+: (runFrom filter none state stages).steps)
      ∨ runFrom filter calledOff state stages = runFrom filter none state stages := by
  induction stages generalizing calledOff state with
  | nil => exact Or.inr rfl
  | cons s stages ih =>
      rw [runFrom, runFrom]
      by_cases hoff : calledOff = some 0
      · rw [if_pos hoff]
        exact Or.inl ⟨rfl, List.nil_prefix⟩
      simp only [hoff, reduceCtorEq, if_false, Option.map_none]
      cases hstep : (runStage filter s state).result with
      | error f => exact Or.inr rfl
      | ok next =>
          rcases ih (calledOff.map Nat.pred) next with ⟨hresult, hsteps⟩ | hsame
          · exact Or.inl ⟨hresult, List.cons_prefix_cons.2 ⟨rfl, hsteps⟩⟩
          · exact Or.inr (by simp only [hsame])

/-- A run that succeeds was not called off. -/
lemma runFrom_of_ok {calledOff : Option ℕ} {stages : List Stage} {b : Bundle}
    (h : (runFrom filter calledOff state stages).result = .ok b) :
    (runFrom filter none state stages).result = .ok b := by
  rcases runFrom_cases filter calledOff state stages with ⟨hoff, -⟩ | hsame
  · rw [hoff] at h
    cases h
  · exact hsame ▸ h

/-! ### Transforming modules -/

/-- What a transform makes of a module, the module itself where it fails. -/
def transformed (f : Module → Outcome Module) (m : Module) : Module :=
  (f m).result.toOption.getD m

lemma transformed_of_ok {f : Module → Outcome Module} {m m' : Module}
    (h : (f m).result = .ok m') : transformed f m = m' := by
  simp [transformed, h, Except.toOption]

lemma transformed_id {f : Module → Outcome Module}
    (hf : ∀ m m', (f m).result = .ok m' → m'.id = m.id) (m : Module) :
    (transformed f m).id = m.id := by
  cases h : (f m).result with
  | error e => simp [transformed, h, Except.toOption]
  | ok m' => rw [transformed_of_ok h, hf m m' h]

@[simp] lemma transformOne_eq_ok {f : Module → Outcome Module} {m m' : Module} :
    (transformOne s f m).result = .ok m' ↔ (f m).result = .ok m' := mapError_eq_ok

/-- The transforms of a stage succeed if all of them do, and what they give is put back. -/
lemma transformAll_eq_ok {f : Module → Outcome Module} {b b' : Bundle} :
    (transformAll s f b).result = .ok b'
      ↔ (∀ m ∈ included s b, (f m).result = .ok (transformed f m))
        ∧ ((included s b).map (transformed f)).foldl Bundle.put b = b' := by
  simp only [transformAll, map_eq_ok, List.mapM_map, Function.comp_def]
  have hall (hok : ∀ m ∈ included s b, (f m).result = .ok (transformed f m)) :
      (included s b).mapM (fun m => (transformOne s f m).result)
        = .ok ((included s b).map (transformed f)) :=
    mapM_eq_ok fun m hm => transformOne_eq_ok.2 (hok m hm)
  constructor
  · rintro ⟨ms, hms, rfl⟩
    have hok : ∀ m ∈ included s b, (f m).result = .ok (transformed f m) := by
      intro m hm
      obtain ⟨m', hm'⟩ := exists_of_mapM_eq_ok hms hm
      have hm' := transformOne_eq_ok.1 hm'
      rw [hm', transformed_of_ok hm']
    rw [hall hok] at hms
    cases hms
    exact ⟨hok, rfl⟩
  · rintro ⟨hok, rfl⟩
    exact ⟨_, hall hok, rfl⟩

/-- Transforms that keep identifiers change the included modules where they stand. -/
lemma modules_transformAll {f : Module → Outcome Module}
    (hf : ∀ m m', (f m).result = .ok m' → m'.id = m.id) {b b' : Bundle}
    (h : (transformAll s f b).result = .ok b') :
    b'.modules = b.modules.map fun m =>
      if !m.seed && s.includes m.modulePath then transformed f m else m := by
  obtain ⟨-, rfl⟩ := transformAll_eq_ok.1 h
  exact Bundle.modules_foldl_put (transformed_id hf)

/-- A transform that cannot fail and keeps identifiers changes the included modules where they
stand. -/
lemma modules_of_transformAll {f : Module → Outcome Module} {g : Module → Module}
    (hf : ∀ m, f m = .ok (g m)) (hg : ∀ m, (g m).id = m.id) {b b' : Bundle}
    (h : (transformAll s f b).result = .ok b') :
    b'.modules = b.modules.map fun m => if !m.seed && s.includes m.modulePath then g m else m := by
  have hres : ∀ m, (f m).result = .ok (g m) := fun m => by rw [hf m]; rfl
  have hid : ∀ m m', (f m).result = .ok m' → m'.id = m.id := by
    intro m m' hm'
    rw [hres m] at hm'
    cases hm'
    exact hg m
  rw [modules_transformAll hid h]
  simp only [fun m => transformed_of_ok (hres m)]

end Pipeline

end MiniProgram
