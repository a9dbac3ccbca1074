import MiniProgram.Proofs.Graph.Run
import MiniProgram.Proofs.Path.Clean
import MiniProgram.Proofs.Pipeline

/-!
What the stages of a build leave as it is.

Before stylesheets are converted no stage touches where a module is written or what is written
beside it: the graph is completed with modules as they are read, and contents are changed in place.
So what holds of sources and depends only on the file holds of every module up to there. Until the
last stage nothing is emitted.

* `Module.SameFile`, `Module.Stable`: changes of content, and conditions they do not touch.
* `Stage.Keeps`, `keeps_of_make`: the stages up to the entries keep such conditions.
* `exists_of_runFrom_append`: what stages keep one by one is kept by a row of them.
* `split_of_assemble`: the stages of a build, the last four by name.
-/

namespace MiniProgram

open MiniProgram.Path

/-! ### Modules as files -/

/-- Two states of a module that are the same file, written to the same place with the same assets;
what it holds may have changed. -/
structure Module.SameFile (m m' : Module) : Prop where
  id : m'.id = m.id
  path : m'.path = m.path
  kind : m'.kind = m.kind
  renamed : m'.renamed = m.renamed
  assets : m'.assets = m.assets

/-- A condition that holds of modules as they are read and does not depend on what they hold. -/
structure Module.Stable (P : Module → Prop) : Prop where
  same : ∀ {m m'}, P m → m.SameFile m' → P m'
  source : ∀ id content, P (.ofSource id content)
  blank : P .blank

/-- A module as it is read: at its own path in normal form, and without assets. -/
structure Module.Fresh (m : Module) : Prop where
  path_eq : m.path = m.id
  normal : normalize m.id = m.id
  kind_iff : m.kind = .styleModule ↔ ext m.id = (".less" : Text)
  renamed : m.renamed = false
  assets : m.assets = []

lemma ModuleKind.ofPath_eq_styleModule_iff {p : Text} :
    ofPath p = .styleModule ↔ ext (normalize p) = (".less" : Text) := by
  rw [ofPath]
  by_cases hless : ext (normalize p) = (".less" : Text)
  · simp only [hless, iff_true]
    decide
  · simp only [hless, if_false, iff_false]
    split_ifs <;> simp

lemma Module.stable_fresh : Stable Fresh where
  same hm h := by
    refine ⟨?_, ?_, ?_, ?_, ?_⟩
    · rw [h.path, h.id, hm.path_eq]
    · rw [h.id, hm.normal]
    · rw [h.kind, h.id, hm.kind_iff]
    · rw [h.renamed, hm.renamed]
    · rw [h.assets, hm.assets]
  source id content := by
    refine ⟨rfl, normalize_idem id, ?_, rfl, rfl⟩
    exact ModuleKind.ofPath_eq_styleModule_iff.trans (by rw [normalize_idem]; rfl)
  blank := ⟨rfl, by decide, by decide, rfl, rfl⟩

/-- The module that imports the entries, from which a build starts, is such a module. -/
lemma Catalog.fresh_seed (c : Catalog) (extra : List Text) : (c.seed extra).Fresh :=
  Module.stable_fresh.same (Module.stable_fresh.source seedId []) ⟨rfl, rfl, rfl, rfl, rfl⟩

/-- A condition stays stable under an assumption. -/
lemma Module.Stable.imp {P : Module → Prop} (h : Stable P) (q : Prop) :
    Stable fun m => q → P m where
  same hm hsame hq := h.same (hm hq) hsame
  source id content _ := h.source id content
  blank _ := h.blank

/-! ### Changes of content -/

namespace Content

variable {m m' : Module}

lemma sameFile_interop {project : Project} (h : (interop project m).result = .ok m') :
    m.SameFile m' := by
  rw [interop] at h
  split at h
  · cases h
    exact ⟨rfl, rfl, rfl, rfl, rfl⟩
  · split at h
    · cases h
    · cases h
      exact ⟨rfl, rfl, rfl, rfl, rfl⟩

lemma sameFile_readHost {policy : HostPolicy} {hostModule : Text}
    (h : (readHost policy hostModule m).result = .ok m') : m.SameFile m' := by
  rw [readHost] at h
  split at h
  · cases h
    exact ⟨rfl, rfl, rfl, rfl, rfl⟩
  · obtain ⟨host, -, h⟩ := Outcome.bind_result_eq_ok.1 h
    cases h
    exact ⟨rfl, rfl, rfl, rfl, rfl⟩

lemma sameFile_transpile {transformer : Transformer}
    (h : (transpile transformer m).result = .ok m') : m.SameFile m' := by
  obtain ⟨result, -, h⟩ := Outcome.bind_result_eq_ok.1 h
  dsimp only at h
  split at h
  · obtain ⟨-, -, h⟩ := Outcome.bind_result_eq_ok.1 h
    cases h
    exact ⟨rfl, rfl, rfl, rfl, rfl⟩
  · cases h
    exact ⟨rfl, rfl, rfl, rfl, rfl⟩

lemma sameFile_wrapEntry {runtimeModule : Text}
    (h : (wrapEntry runtimeModule m).result = .ok m') : m.SameFile m' := by
  simp only [wrapEntry] at h
  split at h
  · cases h
    exact ⟨rfl, rfl, rfl, rfl, rfl⟩
  · cases h
    exact ⟨rfl, rfl, rfl, rfl, rfl⟩

end Content

lemma Module.SameFile.trans {m₁ m₂ m₃ : Module} (h : m₁.SameFile m₂) (h' : m₂.SameFile m₃) :
    m₁.SameFile m₃ :=
  ⟨h'.id.trans h.id, h'.path.trans h.path, h'.kind.trans h.kind, h'.renamed.trans h.renamed,
    h'.assets.trans h.assets⟩

/-! ### Completing the graph -/

namespace Graph

variable {P : Module → Prop} {r : Resolver} {kindOf : Text → EntryKind} {b b' : Bundle}

/-- What is kept while the graph is completed: a condition on the modules, and the files that were
emitted. -/
structure Holds (P : Module → Prop) (files : List Asset) (s : Moment) : Prop where
  modules : ∀ m ∈ s.walk.bundle.modules, P m
  scan : ∀ c, s.scan = some c → P c.module
  files : s.walk.bundle.files = files

lemma Holds.step (hP : Module.Stable P) {files : List Asset} {s s' : Moment}
    (h : Holds P files s) (hstep : Step r kindOf s s') : Holds P files s' := by
  cases hstep with
  | take taken b id queue seen =>
      refine ⟨h.modules, fun c hc => ?_, h.files⟩
      obtain ⟨m, rfl, -, rfl⟩ := opened_eq_some hc
      cases hget : b.get? id with
      | none => exact hP.blank
      | some m => exact h.modules m (Bundle.get?_eq_some_iff.1 hget).1
  | follow taken m spec specs hfollow =>
      have hscan : P m := h.scan _ rfl
      rcases follow_eq_ok hfollow with
        ⟨-, -, -, rfl⟩ | ⟨found, -, -, ⟨-, rfl⟩ | ⟨-, content, -, rfl⟩⟩
      · exact ⟨h.modules, fun c hc => by cases hc; exact hscan, h.files⟩
      · exact ⟨h.modules, fun c hc => by cases hc; exact hscan, h.files⟩
      · refine ⟨fun m' hm' => ?_, fun c hc => by cases hc; exact hscan, ?_⟩
        · rcases Bundle.eq_or_mem_of_mem_put hm' with rfl | hm'
          · exact hP.same (hP.source found content) ⟨rfl, rfl, rfl, rfl, rfl⟩
          · exact h.modules m' hm'
        · exact (Bundle.files_put _ _).trans h.files
  | close taken m imports w =>
      refine ⟨fun m' hm' => ?_, fun c hc => (nomatch hc), ?_⟩
      · rcases Bundle.eq_or_mem_of_mem_put hm' with rfl | hm'
        · exact hP.same (h.scan _ rfl) ⟨rfl, rfl, rfl, rfl, rfl⟩
        · exact h.modules m' hm'
      · exact (Bundle.files_put _ _).trans h.files

/-- Completing the graph keeps what is stable, and emits nothing. -/
theorem holds_complete (hP : Module.Stable P) (hb : ∀ m ∈ b.modules, P m)
    (h : (complete r kindOf b).result = .ok b') :
    (∀ m ∈ b'.modules, P m) ∧ b'.files = b.files := by
  obtain ⟨s, hpass, -, -, rfl⟩ := complete_eq_ok h
  have hs : Holds P b.files s := by
    clear h
    induction hpass with
    | refl => exact ⟨hb, fun c hc => (nomatch hc), rfl⟩
    | tail _ hstep ih => exact ih.step hP hstep
  exact ⟨hs.modules, hs.files⟩

end Graph

/-! ### Stages -/

namespace Stage

open Pipeline

variable {P : Module → Prop} {deps : Deps} {s : Stage}

/-- A stage that keeps a condition on modules and emits nothing. -/
def Keeps (P : Module → Prop) (s : Stage) : Prop :=
  ∀ filter state next, (runStage filter s state).result = .ok next →
    (∀ m ∈ state.bundle.modules, P m) →
      (∀ m ∈ next.bundle.modules, P m) ∧ next.bundle.files = state.bundle.files

/-- A stage keeps what its transform and its finish keep. -/
lemma keeps_of (htransform : ∀ f, s.transform = some f →
      ∀ m m', (f m).result = .ok m' → P m → P m')
    (hfinish : ∀ g, s.finish = some g → ∀ fs b b', (g fs b).result = .ok b' →
      (∀ m ∈ b.modules, P m) → (∀ m ∈ b'.modules, P m) ∧ b'.files = b.files) : s.Keeps P := by
  intro filter state next hrun hP
  obtain ⟨b, -, ht, hf⟩ := runStage_eq_ok hrun
  -- after the transforms: every module is one of before, or what a transform made of it
  have hb : (∀ m ∈ b.modules, P m) ∧ b.files = state.bundle.files := by
    cases hs : s.transform with
    | none =>
        rw [hs] at ht
        cases ht
        exact ⟨hP, rfl⟩
    | some f =>
        rw [hs] at ht
        obtain ⟨hok, rfl⟩ := transformAll_eq_ok.1 ht
        refine ⟨fun m hm => ?_, Bundle.files_foldl_put _ _⟩
        rcases Bundle.mem_of_mem_foldl_put hm with hm | hm
        · obtain ⟨old, hold, rfl⟩ := List.mem_map.1 hm
          exact htransform f hs old _ (hok old hold) (hP old (List.mem_filter.1 hold).1)
        · exact hP m hm
  cases hs : s.finish with
  | none =>
      rw [hs] at hf
      cases hf
      exact hb
  | some g =>
      rw [hs] at hf
      obtain ⟨hmodules, hfiles⟩ := hfinish g hs _ _ _ hf hb.1
      exact ⟨hmodules, hfiles.trans hb.2⟩

/-- A stage that only changes contents keeps what does not depend on them. -/
lemma keeps_of_sameFile (hP : Module.Stable P) {f : Module → Outcome Module}
    (ht : s.transform = some f) (hfin : s.finish = none)
    (h : ∀ m m', (f m).result = .ok m' → m.SameFile m') : s.Keeps P := by
  refine keeps_of (fun g hg m m' hm' hm => ?_) fun g hg => ?_
  · rw [ht] at hg
    cases hg
    exact hP.same hm (h m m' hm')
  · rw [hfin] at hg
    cases hg

lemma keeps_clean (h : Stage.clean deps = .ok s) : s.Keeps P := by
  obtain ⟨project, -, h⟩ := bind_eq_ok.1 h
  obtain ⟨-, -, h⟩ := bind_eq_ok.1 h
  cases h
  exact keeps_of (fun _ hf => (nomatch hf)) fun _ hg => (nomatch hg)

lemma keeps_progress (h : Stage.progress deps = .ok s) : s.Keeps P := by
  cases h
  refine keeps_of (fun f hf m m' hm' hm => ?_) fun g hg fs b b' hb' hb => ?_
  · cases hf
    cases hm'
    exact hm
  · cases hg
    cases hb'
    exact ⟨hb, rfl⟩

lemma keeps_resolve (hP : Module.Stable P) (h : Stage.resolve deps = .ok s) : s.Keeps P := by
  obtain ⟨project, -, h⟩ := bind_eq_ok.1 h
  obtain ⟨-, -, h⟩ := bind_eq_ok.1 h
  cases h
  refine keeps_of (fun _ hf => (nomatch hf)) fun g hg fs b b' hb' hb => ?_
  cases hg
  exact Graph.holds_complete hP hb (Graph.complete_of_completeWithin hb')

lemma keeps_commonjs (hP : Module.Stable P) (h : Stage.commonjs deps = .ok s) : s.Keeps P := by
  obtain ⟨project, -, h⟩ := bind_eq_ok.1 h
  cases h
  exact keeps_of_sameFile hP rfl rfl fun m m' => Content.sameFile_interop

lemma keeps_script (hP : Module.Stable P) (h : Stage.script deps = .ok s) : s.Keeps P := by
  obtain ⟨project, -, h⟩ := bind_eq_ok.1 h
  obtain ⟨registry, -, h⟩ := bind_eq_ok.1 h
  obtain ⟨transformer, -, h⟩ := bind_eq_ok.1 h
  obtain ⟨platform, -, h⟩ := bind_eq_ok.1 h
  cases h
  refine keeps_of_sameFile hP rfl rfl fun m m' hm' => ?_
  obtain ⟨read, hread, hm'⟩ := Outcome.bind_result_eq_ok.1 hm'
  exact (Content.sameFile_readHost hread).trans (Content.sameFile_transpile hm')

lemma keeps_page (hP : Module.Stable P) (h : Stage.page deps = .ok s) : s.Keeps P := by
  obtain ⟨project, -, h⟩ := bind_eq_ok.1 h
  cases h
  exact keeps_of_sameFile hP rfl rfl fun m m' => Content.sameFile_wrapEntry

end Stage

/-! ### Rows of stages -/

namespace Pipeline

open Stage

variable {P : Module → Prop} {deps : Deps} {s : Stage}

/-- The names of the stages before stylesheets are converted. -/
def early : List Text := ["clean", "progress", "resolve", "commonjs", "script", "page"]

/-- **The early stages keep what is stable.** -/
theorem keeps_of_make (hP : Module.Stable P) {name : Text} (hname : name ∈ early)
    (h : make makers deps name = .ok s) : s.Keeps P := by
  obtain ⟨maker, hl, hs⟩ := make_eq_ok h
  simp only [early, List.mem_cons, List.not_mem_nil, or_false] at hname
  rcases hname with rfl | rfl | rfl | rfl | rfl | rfl <;> cases hl
  · exact keeps_clean hs
  · exact keeps_progress hs
  · exact keeps_resolve hP hs
  · exact keeps_commonjs hP hs
  · exact keeps_script hP hs
  · exact keeps_page hP hs

/-- What stages keep one by one is kept when they run in a row. -/
theorem exists_of_runFrom_append {filter : DiagnosticFilter} {front rest : List Stage}
    (hkeeps : ∀ s ∈ front, s.Keeps P) {state : State} {b : Bundle}
    (hstate : ∀ m ∈ state.bundle.modules, P m)
    (h : (runFrom filter none state (front ++ rest)).result = .ok b) :
    ∃ mid : State, (∀ m ∈ mid.bundle.modules, P m) ∧ mid.bundle.files = state.bundle.files
      ∧ (runFrom filter none mid rest).result = .ok b := by
  induction front generalizing state with
  | nil => exact ⟨state, hstate, rfl, h⟩
  | cons s front ih =>
      rw [List.cons_append] at h
      obtain ⟨next, hstep, h⟩ := runFrom_cons_eq_ok.1 h
      obtain ⟨hnext, hfiles⟩ := hkeeps s (by simp) filter state next hstep hstate
      obtain ⟨mid, hmid, hmidFiles, h⟩ := ih (fun s' hs' => hkeeps s' (by simp [hs'])) hnext h
      exact ⟨mid, hmid, hmidFiles.trans hfiles, h⟩

/-- The stages of a build: the early ones, then those that convert stylesheets, lay the bundle out
and emit. -/
lemma split_of_assemble {dev : Bool} {project : Project} {stages : List Stage}
    (hp : deps.project = some project) (h : assemble dev deps = .ok stages) :
    ∃ front s₁ s₂ s₃ s₄, stages = front ++ [s₁, s₂, s₃, s₄]
      ∧ (∀ s ∈ front, ∃ name ∈ early, make makers deps name = .ok s)
      ∧ Stage.style deps = .ok s₁ ∧ Stage.rename deps = .ok s₂ ∧ Stage.strip deps = .ok s₃
      ∧ Stage.template deps = .ok s₄ := by
  have hnames : ∃ front : List Text,
      names dev = front ++ (["style", "rename", "strip", "template"] : List Text)
        ∧ ∀ name ∈ front, name ∈ early := by
    cases dev with
    | true => exact ⟨early.tail, by decide, by decide⟩
    | false => exact ⟨early, by decide, by decide⟩
  obtain ⟨front, hfront, hearly⟩ := hnames
  have hmade := mapM_make_of_assemble hp h
  rw [hfront, List.mapM_append] at hmade
  obtain ⟨made, hmade₁, hmade⟩ := bind_eq_ok.1 hmade
  obtain ⟨last, hlast, hmade⟩ := bind_eq_ok.1 hmade
  cases hmade
  obtain ⟨s₁, _, rfl, h₁, hlast⟩ := mapM_cons_eq_ok hlast
  obtain ⟨s₂, _, rfl, h₂, hlast⟩ := mapM_cons_eq_ok hlast
  obtain ⟨s₃, _, rfl, h₃, hlast⟩ := mapM_cons_eq_ok hlast
  obtain ⟨s₄, _, rfl, h₄, hlast⟩ := mapM_cons_eq_ok hlast
  cases hlast
  refine ⟨made, s₁, s₂, s₃, s₄, rfl, fun s hs => ?_, maker_eq_ok rfl h₁, maker_eq_ok rfl h₂,
    maker_eq_ok rfl h₃, maker_eq_ok rfl h₄⟩
  obtain ⟨name, hname, hmk⟩ := exists_of_mem_mapM hmade₁ hs
  exact ⟨name, hearly name hname, hmk⟩

end Pipeline

end MiniProgram
