import MiniProgram.Build
import MiniProgram.Proofs.FileSystem.Memory
import MiniProgram.Proofs.Pipeline
import MiniProgram.Proofs.Project.OutputDirectory

/-!
What a build does to files in memory.

Of all stages only the one that cleans touches files, and it runs first; the output is laid out
after the last stage. So a build is: empty the output directory, or not, and then store files below
it one after the other.

* `KeepsFiles`, `runFrom_fs`: stages that leave the files alone one by one do so in a row.
* `keepsFiles_of_make`: all stages of a build except `clean` leave the files alone.
* `writeFiles_memory`: writing stores a leading part of the files, all of it if it succeeds.
* `run_memory`: a build as an emptying that may take place and a number of files laid out.
-/

namespace MiniProgram

/-! ### Stages and files -/

namespace Stage

variable {d : Deps} {s : Stage}

/-- A stage that leaves the files alone before it starts. -/
def KeepsFiles (s : Stage) : Prop :=
  ∀ fs fs', (s.start.getD .ok) fs = .ok fs' → fs' = fs

/-- The making of a stage that leaves the files alone, should it succeed. -/
def MakesKeeper (x : Except Failure Stage) : Prop := ∀ s, x = .ok s → s.KeepsFiles

/-- Without a start, nothing is done to the files. -/
lemma makesKeeper_idle (h : s.start = none) : MakesKeeper (.ok s) := by
  intro s' hs' fs fs' hfs
  cases hs'
  rw [h] at hfs
  cases hfs
  rfl

/-- What a stage is made from does not matter for what it does to the files. -/
lemma makesKeeper_bind {α : Type} {x : Except Failure α} {f : α → Except Failure Stage}
    (h : ∀ a, MakesKeeper (f a)) : MakesKeeper (x >>= f) := by
  intro s hs
  obtain ⟨a, -, ha⟩ := bind_eq_ok.1 hs
  exact h a s ha

lemma makesKeeper_progress : MakesKeeper (progress d) := by
  intro s hs fs fs' hfs
  cases hs
  cases hfs
  rfl

lemma makesKeeper_rename : MakesKeeper (rename d) := by
  refine makesKeeper_bind fun project => ?_
  cases hflaw : project.renameRules.flaw? with
  | some flaw => simp only [hflaw]; exact fun s hs => (nomatch hs)
  | none => simp only [hflaw]; exact makesKeeper_idle rfl

end Stage

namespace Pipeline

open Stage

/-- Every maker but the one that cleans makes a stage that leaves the files alone. -/
lemma makesKeeper_of_mem {name : Text} {maker : StageMaker} (h : (name, maker) ∈ makers)
    (hname : name ≠ ("clean" : Text)) (d : Deps) : MakesKeeper (maker d) := by
  simp only [makers, List.mem_cons, Prod.mk.injEq, List.not_mem_nil, or_false] at h
  rcases h with ⟨rfl, rfl⟩ | ⟨-, rfl⟩ | ⟨-, rfl⟩ | ⟨-, rfl⟩ | ⟨-, rfl⟩ | ⟨-, rfl⟩ | ⟨-, rfl⟩
    | ⟨-, rfl⟩ | ⟨-, rfl⟩ | ⟨-, rfl⟩
  · exact absurd rfl hname
  · exact makesKeeper_progress
  · exact makesKeeper_bind fun _ => makesKeeper_bind fun _ => makesKeeper_idle rfl
  · exact makesKeeper_bind fun _ => makesKeeper_idle rfl
  · exact makesKeeper_bind fun _ => makesKeeper_bind fun _ => makesKeeper_bind fun _ =>
      makesKeeper_bind fun _ => makesKeeper_idle rfl
  · exact makesKeeper_bind fun _ => makesKeeper_idle rfl
  · exact makesKeeper_bind fun _ => makesKeeper_idle rfl
  · exact makesKeeper_rename
  · exact makesKeeper_idle rfl
  · exact makesKeeper_bind fun _ => makesKeeper_bind fun _ => makesKeeper_bind fun _ =>
      makesKeeper_bind fun _ => makesKeeper_idle rfl

lemma keepsFiles_of_make {deps : Deps} {name : Text} {s : Stage}
    (h : make makers deps name = .ok s) (hname : name ≠ ("clean" : Text)) : s.KeepsFiles := by
  obtain ⟨maker, hl, hs⟩ := make_eq_ok h
  have hmem : (name, maker) ∈ makers := by
    obtain ⟨front, back, hsplit, -⟩ := List.lookup_eq_some_iff.1 hl
    rw [hsplit]
    simp
  exact makesKeeper_of_mem hmem hname deps s hs

/-- The stages of a build: all leave the files alone, but before a production build there is one
that empties the output directory. -/
lemma assemble_eq_ok {dev : Bool} {deps : Deps} {project : Project} {stages : List Stage}
    (hp : deps.project = some project) (h : assemble dev deps = .ok stages) :
    (dev = true ∧ ∀ s ∈ stages, s.KeepsFiles)
    ∨ (dev = false ∧ ∃ s rest, stages = s :: rest ∧ Stage.clean deps = .ok s
      ∧ ∀ s ∈ rest, s.KeepsFiles) := by
  have hrest : ∀ name ∈ names true, name ≠ ("clean" : Text) := by decide
  have hmade := mapM_make_of_assemble hp h
  cases dev with
  | true =>
      refine Or.inl ⟨rfl, fun s hs => ?_⟩
      obtain ⟨name, hname, hmk⟩ := exists_of_mem_mapM hmade hs
      exact keepsFiles_of_make hmk (hrest name hname)
  | false =>
      have hnames : names false = ("clean" : Text) :: names true := by decide
      rw [hnames] at hmade
      obtain ⟨s, rest, rfl, hs, hr⟩ := mapM_cons_eq_ok hmade
      refine Or.inr ⟨rfl, s, rest, rfl, ?_, fun s' hs' => ?_⟩
      · obtain ⟨maker, hl, hs⟩ := make_eq_ok hs
        cases hl
        exact hs
      · obtain ⟨name, hname, hmk⟩ := exists_of_mem_mapM hr hs'
        exact keepsFiles_of_make hmk (hrest name hname)

/-! ### Runs and files -/

variable {filter : DiagnosticFilter} {calledOff : Option ℕ}

/-- A step of a stage that leaves the files alone. -/
lemma runStage_fs {s : Stage} (hs : s.KeepsFiles) {state next : State}
    (h : (runStage filter s state).result = .ok next) : next.fs = state.fs := by
  obtain ⟨b, hstart, -, -⟩ := runStage_eq_ok h
  exact hs state.fs next.fs hstart

/-- Stages that leave the files alone do so in a row. -/
theorem runFrom_fs {stages : List Stage} (hs : ∀ s ∈ stages, s.KeepsFiles) (state : State) :
    (runFrom filter calledOff state stages).fs = state.fs := by
  induction stages generalizing calledOff state with
  | nil => rfl
  | cons s stages ih =>
      rw [runFrom]
      split_ifs
      · rfl
      · cases hr : (runStage filter s state).result with
        | error f => simp only [hr]
        | ok next =>
            simp only [hr]
            rw [ih (fun s' hs' => hs s' (by simp [hs'])), runStage_fs (hs s (by simp)) hr]

/-- The stage that cleans removes the output directory, and nothing else happens in it. -/
lemma runStage_clean (filter : DiagnosticFilter) {deps : Deps} {project : Project} {s : Stage}
    (hp : deps.project = some project) (h : Stage.clean deps = .ok s) (m : Memory) (locked : Bool)
    (b : Bundle) :
    (locked = false → (runStage filter s ⟨⟨.memory m, locked⟩, b⟩).result
      = .ok ⟨⟨.memory (m.removeAll project.outDir), locked⟩, b⟩)
    ∧ (locked = true → ∃ f, (runStage filter s ⟨⟨.memory m, locked⟩, b⟩).result = .error f) := by
  obtain ⟨project', hp', h⟩ := bind_eq_ok.1 h
  obtain ⟨-, -, h⟩ := bind_eq_ok.1 h
  obtain rfl := Deps.needProject_eq_ok hp hp'
  cases h
  refine ⟨?_, ?_⟩
  · rintro rfl
    rfl
  · rintro rfl
    exact ⟨_, rfl⟩

/-- Whether a run empties the output directory: a production run does, if the file system lets it
and the run is not called off at once. -/
def cleans (dev locked : Bool) (calledOff : Option ℕ) : Bool :=
  !dev && !locked && calledOff ≠ some 0

/-- The files after the stages of a build: those of the output directory are gone if it was to be
emptied and could be. A production run that does not empty it fails. -/
lemma run_fs (filter : DiagnosticFilter) (calledOff : Option ℕ) {dev : Bool} {deps : Deps}
    {project : Project} {stages : List Stage} (hp : deps.project = some project)
    (h : assemble dev deps = .ok stages) (m : Memory) (locked : Bool) (seed : List Module) :
    (run filter calledOff stages ⟨.memory m, locked⟩ seed).fs
        = ⟨.memory (if cleans dev locked calledOff then m.removeAll project.outDir else m), locked⟩
      ∧ (dev = false → cleans dev locked calledOff = false →
        ∃ f, (run filter calledOff stages ⟨.memory m, locked⟩ seed).result = .error f) := by
  rcases assemble_eq_ok hp h with ⟨rfl, hall⟩ | ⟨rfl, s, rest, rfl, hclean, hall⟩
  · exact ⟨runFrom_fs hall _, fun hdev => by cases hdev⟩
  · obtain ⟨hopen, hbusy⟩ := runStage_clean filter hp hclean m locked
      (Bundle.ofModules seed)
    by_cases hoff : calledOff = some 0
    · -- the stage that cleans is not started
      simp [run, runFrom, cleans, hoff]
    cases locked with
    | true =>
        obtain ⟨f, hf⟩ := hbusy rfl
        simp [run, runFrom, cleans, hoff, hf]
    | false => simp [run, runFrom, cleans, hoff, hopen rfl, runFrom_fs hall]

end Pipeline

/-! ### Writing -/

namespace Output

open Memory MiniProgram.Path

/-- Stores one file below the output directory. -/
def layOut (outDir : Text) (m : Memory) (a : Asset) : Memory :=
  m.put (key (join [outDir, a.path])) a.content

lemma writeFile_memory (outDir : Text) (m : Memory) (locked : Bool) (a : Asset) :
    (outputFlaw? a.path = none →
      writeFile outDir ⟨.memory m, locked⟩ a = .ok ⟨.memory (layOut outDir m a), locked⟩)
    ∧ (outputFlaw? a.path ≠ none → ∃ f, writeFile outDir ⟨.memory m, locked⟩ a = .error f) := by
  cases hflaw : outputFlaw? a.path with
  | none =>
      refine ⟨fun _ => ?_, fun h => absurd rfl h⟩
      rw [writeFile, hflaw]
      rfl
  | some flaw =>
      refine ⟨fun h => (nomatch h), fun _ => ?_⟩
      rw [writeFile, hflaw]
      exact ⟨_, rfl⟩

/-- Writing stores the files one after the other up to the first whose path is refused. -/
theorem writeFiles_memory (outDir : Text) (locked : Bool) (written : List Text) (m : Memory)
    (files : List Asset) :
    ∃ stored rest, files = stored ++ rest
      ∧ (∀ a ∈ stored, outputFlaw? a.path = none)
      ∧ (writeFiles outDir written ⟨.memory m, locked⟩ files).paths
        = written.reverse ++ stored.map (·.path)
      ∧ (writeFiles outDir written ⟨.memory m, locked⟩ files).fs
        = ⟨.memory (stored.foldl (layOut outDir) m), locked⟩ := by
  induction files generalizing written m with
  | nil => exact ⟨[], [], rfl, by simp, by simp [writeFiles], rfl⟩
  | cons a files ih =>
      obtain ⟨hok, herr⟩ := writeFile_memory outDir m locked a
      by_cases hflaw : outputFlaw? a.path = none
      · obtain ⟨stored, rest, rfl, hnone, hpaths, hfs⟩ := ih (a.path :: written) (layOut outDir m a)
        refine ⟨a :: stored, rest, rfl, ?_, ?_, ?_⟩
        · simpa using ⟨hflaw, hnone⟩
        · rw [writeFiles, hok hflaw]
          simp only [hpaths]
          simp
        · rw [writeFiles, hok hflaw]
          simp only [hfs]
          rfl
      · obtain ⟨f, hf⟩ := herr hflaw
        refine ⟨[], a :: files, rfl, by simp, ?_, ?_⟩
        · rw [writeFiles, hf]
          simp
        · rw [writeFiles, hf]
          rfl

/-- Writing succeeds if no path is refused. -/
lemma failure_writeFiles_memory (outDir : Text) (locked : Bool) (written : List Text) (m : Memory)
    {files : List Asset} (h : ∀ a ∈ files, outputFlaw? a.path = none) :
    (writeFiles outDir written ⟨.memory m, locked⟩ files).failure = none := by
  induction files generalizing written m with
  | nil => rfl
  | cons a files ih =>
      rw [writeFiles, (writeFile_memory outDir m locked a).1 (h a (by simp))]
      exact ih _ _ fun a' ha' => h a' (by simp [ha'])

/-- What is stored after files were laid out: a file where one was laid out, and elsewhere what was
there before. -/
lemma get?_foldl_layOut (outDir : Text) (m : Memory) (stored : List Asset) (k : Text) :
    (k ∈ stored.map (fun a => key (join [outDir, a.path])) →
      ∃ a ∈ stored, key (join [outDir, a.path]) = k
        ∧ (stored.foldl (layOut outDir) m).get? k = some a.content)
    ∧ (k ∉ stored.map (fun a => key (join [outDir, a.path])) →
      (stored.foldl (layOut outDir) m).get? k = m.get? k) := by
  induction stored using List.reverseRecOn with
  | nil => simp
  | append_singleton stored a ih =>
      rw [List.foldl_concat, layOut, get?_put]
      by_cases hk : k = key (join [outDir, a.path])
      · rw [if_pos hk]
        exact ⟨fun _ => ⟨a, by simp, hk.symm, rfl⟩, fun hnot => absurd (by simp [hk]) hnot⟩
      · rw [if_neg hk]
        rw [List.map_append, List.mem_append]
        refine ⟨fun hmem => ?_, fun hnot => ih.2 fun hmem => hnot (Or.inl hmem)⟩
        obtain ⟨a', ha', hkey, hget⟩ := ih.1 (hmem.resolve_right (by simpa using hk))
        exact ⟨a', by simp [ha'], hkey, hget⟩

end Output

/-! ### Builds -/

namespace Build

variable {tools : Tools} {input : Input} {file : Except FileError Text} {fs : FileSystem}

/-- The bundle a build comes to before anything is written. -/
def bundled (tools : Tools) (input : Input) (file : Except FileError Text) (fs : FileSystem) :
    Except Failure Bundle := do
  let p ← plan tools input file fs
  (Pipeline.run .standard input.calledOff.stages p.stages fs
    [p.catalog.seed [p.project.runtimeModule]]).result

/-- Whether a build empties the output directory: a production build does once it is planned, if
the file system lets it and the build is not called off before its first stage. -/
def empties (tools : Tools) (input : Input) (file : Except FileError Text) (fs : FileSystem) :
    Bool :=
  Pipeline.cleans input.dev fs.locked input.calledOff.stages && (plan tools input file fs).isOk

/-- A development build empties nothing. -/
lemma empties_of_dev (h : input.dev = true) : empties tools input file fs = false := by
  simp [empties, Pipeline.cleans, h]

/-- The parts of a plan. -/
lemma plan_eq_ok {p : Plan} (h : plan tools input file fs = .ok p) :
    settings input file = .ok p.project ∧ discover fs p.project = .ok p.catalog
      ∧ ∃ deps : Deps, deps.project = some p.project
        ∧ Pipeline.assemble input.dev deps = .ok p.stages := by
  obtain ⟨project, hproject, h⟩ := bind_eq_ok.1 h
  obtain ⟨catalog, hcatalog, h⟩ := bind_eq_ok.1 h
  obtain ⟨stages, hstages, h⟩ := bind_eq_ok.1 h
  rw [withContext_eq_ok] at hproject hstages
  cases h
  exact ⟨hproject, hcatalog, _, rfl, hstages⟩

/-- **A build in memory**: the output directory is emptied or not, and then files are stored below
it, those that the result names as written. -/
theorem run_memory (tools : Tools) {project : Project} (hset : settings input file = .ok project)
    (m : Memory) (locked : Bool) :
    ∃ stored : List Asset, (∀ a ∈ stored, Path.outputFlaw? a.path = none)
      ∧ (run tools input file ⟨.memory m, locked⟩).written = stored.map (·.path)
      ∧ (run tools input file ⟨.memory m, locked⟩).fs
        = ⟨.memory (stored.foldl (Output.layOut project.outDir)
            (if empties tools input file ⟨.memory m, locked⟩
              then m.removeAll project.outDir else m)), locked⟩
      ∧ (input.dev = false → (run tools input file ⟨.memory m, locked⟩).succeeded = true →
        empties tools input file ⟨.memory m, locked⟩ = true)
      ∧ ∀ a ∈ stored, ∃ b, bundled tools input file ⟨.memory m, locked⟩ = .ok b
        ∧ a ∈ Output.files b := by
  cases hplan : plan tools input file ⟨.memory m, locked⟩ with
  | error f =>
      -- without a plan nothing is emptied and nothing is stored
      have hempties : empties tools input file ⟨.memory m, locked⟩ = false := by
        rw [empties, hplan]
        simp [Except.isOk, Except.toBool]
      refine ⟨[], by simp, ?_, ?_, ?_, by simp⟩ <;> simp [run, hplan, hempties, Result.succeeded]
  | ok p =>
      obtain ⟨hproject, -, deps, hdeps, hstages⟩ := plan_eq_ok hplan
      rw [hset] at hproject
      cases hproject
      have hempties : empties tools input file ⟨.memory m, locked⟩
          = Pipeline.cleans input.dev locked input.calledOff.stages := by
        rw [empties, hplan]
        exact Bool.and_true _
      -- the stages empty the directory or leave the files as they are
      obtain ⟨hbase, hstopped⟩ := Pipeline.run_fs .standard input.calledOff.stages hdeps hstages m
        locked [p.catalog.seed [p.project.runtimeModule]]
      rw [← hempties] at hbase hstopped
      set ran := Pipeline.run .standard input.calledOff.stages p.stages ⟨.memory m, locked⟩
        [p.catalog.seed [p.project.runtimeModule]] with hran
      cases hres : ran.result with
      | error f =>
          refine ⟨[], by simp, ?_, ?_, ?_, by simp⟩
          · -- the run of the stages failed: nothing is written
            simp [run, hplan, carryOut, ← hran, hres]
          · simp [run, hplan, carryOut, ← hran, hres, hbase]
          · simp [run, hplan, carryOut, ← hran, hres, Result.succeeded]
      | ok b =>
          -- a prefix of the bundle's files is stored, up to the first that is refused
          obtain ⟨stored, rest, hsplit, hnone, hpaths, hstored⟩ := Output.writeFiles_memory
            p.project.outDir locked [] (if empties tools input file ⟨.memory m, locked⟩
              then m.removeAll p.project.outDir else m) (Output.files b)
          refine ⟨stored, hnone, ?_, ?_, ?_, ?_⟩
          · simp [run, hplan, carryOut, ← hran, hres, hbase, Output.write, hpaths]
          · simp [run, hplan, carryOut, ← hran, hres, hbase, Output.write, hstored]
          · -- a production run that does not empty the output directory comes to no bundle
            intro hdev _
            by_contra hkept
            obtain ⟨f, hf⟩ := hstopped hdev (eq_false_of_ne_true hkept)
            rw [hres] at hf
            cases hf
          · have hbundled : bundled tools input file ⟨.memory m, locked⟩ = .ok b := by
              rw [bundled, hplan]
              exact hres
            exact fun a ha => ⟨b, hbundled, by simp [hsplit, ha]⟩

end Build

end MiniProgram
