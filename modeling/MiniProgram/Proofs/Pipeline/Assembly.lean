import MiniProgram.Proofs.Pipeline
import MiniProgram.Proofs.RenameRules.FinalForm

/-!
When the stages of a build can be made.

Making the stages may fail for many reasons: a part that a stage needs is missing, the platform is
not known, the rename rules are flawed, the stages are not in order. Given all parts, only the
platform decides: the rename rules of a project are never flawed, and the stages have names, roles
and extensions that do not depend on the settings, in an order that suits any rename rules.

* `infos`, `makes_of_platform`: on a known platform every stage can be made, and what it is put in
  order by does not depend on the settings.
* `flaw?_infos`: the fixed order is right, in development and in production, whatever is renamed.
* `exists_assemble`, `exists_platform_of_assemble`: the stages can be made exactly if the platform
  is known.
-/

namespace MiniProgram

namespace Pipeline

/-! ### The stages as they are put in order -/

/-- What the stages of a production build are put in order by. -/
def orderInfos : List StageInfo := [
  ⟨"clean", .clean, []⟩, ⟨"progress", .report, []⟩, ⟨"resolve", .resolve, []⟩,
  ⟨"commonjs", .interop, [".js", ".cjs"]⟩, ⟨"script", .component, Content.scriptExts⟩,
  ⟨"page", .component, Content.scriptExts⟩, ⟨"style", .style, Content.styleExts⟩,
  ⟨"rename", .rename, []⟩, ⟨"strip", .strip, []⟩, ⟨"template", .emit, []⟩]

/-- What the stages of a build are put in order by; a development build does not clean. -/
def infos (dev : Bool) : List StageInfo :=
  orderInfos.filter fun s => !(dev && s.name = ("clean" : Text))

lemma map_name_infos (dev : Bool) : (infos dev).map (·.name) = names dev := by
  cases dev <;> decide

/-- What comes to a stage that is put in order in a given way. -/
def Makes (info : StageInfo) (x : Except Failure Stage) : Prop :=
  ∃ s : Stage, x = .ok s ∧ s.toStageInfo = info

lemma makes_bind {α : Type} {info : StageInfo} {x : Except Failure α} {a : α}
    {f : α → Except Failure Stage} (hx : x = .ok a) (h : Makes info (f a)) :
    Makes info (x >>= f) := by
  rw [hx]
  exact h

/-- A stage with a maker is made by it. -/
lemma makes_make {deps : Deps} {info : StageInfo} {maker : StageMaker}
    (hmaker : makers.lookup info.name = some maker) (h : Makes info (maker deps)) :
    Makes info (make makers deps info.name) := by
  obtain ⟨s, hs, rfl⟩ := h
  rw [make, hmaker]
  refine makes_bind (withContext_eq_ok.2 hs) ?_
  rw [if_pos rfl]
  exact ⟨s, rfl, rfl⟩

/-- The parts that the stages are made from, with none missing. -/
def allParts (project : Project) (catalog : Catalog) (registry : Registry)
    (transformer : Transformer) (visits : Option ℕ) : Deps :=
  ⟨some project, some catalog, some registry, true, some transformer, visits⟩

variable {project : Project} {catalog : Catalog} {registry : Registry} {transformer : Transformer}
  {visits : Option ℕ}

/-- On a known platform every stage can be made. -/
lemma makes_of_platform {platform : Platform}
    (h : registry.platform project.platform = .ok platform) {info : StageInfo}
    (hinfo : info ∈ orderInfos) :
    Makes info (make makers (allParts project catalog registry transformer visits) info.name) := by
  have hplatform : (registry.platform project.platform).mapError (·.failure) = .ok platform :=
    mapError_eq_ok.2 h
  have hrules : project.renameRules.flaw? = none := RenameRules.flaw?_standard _
  -- Scripts and templates look components up and need the platform; renaming checks its rules.
  simp only [orderInfos, List.mem_cons, List.not_mem_nil, or_false] at hinfo
  rcases hinfo with rfl | rfl | rfl | rfl | rfl | rfl | rfl | rfl | rfl | rfl
  · exact ⟨_, rfl, rfl⟩
  · exact ⟨_, rfl, rfl⟩
  · exact ⟨_, rfl, rfl⟩
  · exact ⟨_, rfl, rfl⟩
  · refine makes_make rfl (makes_bind rfl (makes_bind rfl (makes_bind rfl ?_)))
    exact makes_bind hplatform ⟨_, rfl, rfl⟩
  · exact ⟨_, rfl, rfl⟩
  · exact ⟨_, rfl, rfl⟩
  · refine makes_make rfl (makes_bind rfl ?_)
    simp only [hrules]
    exact ⟨_, rfl, rfl⟩
  · exact ⟨_, rfl, rfl⟩
  · refine makes_make rfl (makes_bind rfl (makes_bind rfl (makes_bind rfl ?_)))
    exact makes_bind hplatform ⟨_, rfl, rfl⟩

/-! ### The order of the stages -/

/-- A stage meets no renamed extension if it works on none or runs before the renaming. -/
lemma extFlaw?_eq_none {rules : RenameRules} {rename : StageInfo × ℕ} {s : StageInfo × ℕ}
    (h : s.1.consumes = [] ∨ s.2 ≤ rename.2) : extFlaw? rules (some rename) s = none := by
  rw [extFlaw?]
  cases hext : changedExt? rules s.1 with
  | none => rfl
  | some ext =>
      rcases h with hnone | hle
      · simp [changedExt?, hnone] at hext
      · exact if_neg (by omega)

/-- The stages of a build are in order, whatever is renamed. -/
lemma flaw?_infos (dev : Bool) (rules : RenameRules) : flaw? (infos dev) dev rules = none := by
  have hrename : ∃ rename, firstOf .rename (infos dev) = some rename
      ∧ ∀ s ∈ (infos dev).zipIdx, s.1.consumes = [] ∨ s.2 ≤ rename.2 := by
    cases dev with
    | true => exact ⟨(⟨"rename", .rename, []⟩, 6), by decide⟩
    | false => exact ⟨(⟨"rename", .rename, []⟩, 7), by decide⟩
  obtain ⟨rename, hrename, hbefore⟩ := hrename
  have hext : (infos dev).zipIdx.findSome? (extFlaw? rules (firstOf .rename (infos dev)))
      = none := by
    rw [hrename, List.findSome?_eq_none_iff]
    exact fun s hs => extFlaw?_eq_none (hbefore s hs)
  have hne : infos dev ≠ [] := by cases dev <;> decide
  rw [flaw?, if_neg hne, hext]
  cases dev <;> decide

/-! ### Assembly -/

/-- On a known platform the stages of a build can be made, and they are those with the names of the
fixed order. -/
lemma exists_assemble {platform : Platform} (h : registry.platform project.platform = .ok platform)
    (dev : Bool) :
    ∃ stages, assemble dev (allParts project catalog registry transformer visits) = .ok stages
      ∧ stages.map (·.name) = names dev := by
  have hmakes : ∀ info ∈ infos dev,
      Makes info (make makers (allParts project catalog registry transformer visits) info.name) :=
    fun info hinfo => makes_of_platform h (List.mem_of_mem_filter hinfo)
  have : Nonempty Stage := ⟨Stage.idle [] .clean⟩
  choose! made hmade hinfo using hmakes
  have hinfos : ((infos dev).map made).map Stage.toStageInfo = infos dev := by
    rw [List.map_map]
    exact (List.map_congr_left hinfo).trans (List.map_id _)
  have hstages : (names dev).mapM
        (make makers (allParts project catalog registry transformer visits))
      = .ok ((infos dev).map made) := by
    rw [← map_name_infos, List.mapM_map]
    exact mapM_eq_ok hmade
  refine ⟨(infos dev).map made, bind_eq_ok.2 ⟨_, hstages, ?_⟩, ?_⟩
  · rw [hinfos, flaw?_infos]
    rfl
  · rw [← map_name_infos]
    conv_rhs => rw [← hinfos, List.map_map]
    rfl

/-- The stages of a build can be made only if the platform is known. -/
lemma exists_platform_of_assemble {dev : Bool} {stages : List Stage}
    (h : assemble dev (allParts project catalog registry transformer visits) = .ok stages) :
    ∃ platform, registry.platform project.platform = .ok platform := by
  have hmem : ("script" : Text) ∈ names dev := by cases dev <;> decide
  obtain ⟨s, hs⟩ := exists_of_mapM_eq_ok (mapM_make_of_assemble rfl h) hmem
  have hscript : Stage.script (allParts project catalog registry transformer visits) = .ok s :=
    maker_eq_ok rfl hs
  obtain ⟨_, hproject, hscript⟩ := bind_eq_ok.1 hscript
  obtain ⟨_, hregistry, hscript⟩ := bind_eq_ok.1 hscript
  obtain ⟨_, -, hscript⟩ := bind_eq_ok.1 hscript
  obtain ⟨platform, hplatform, -⟩ := bind_eq_ok.1 hscript
  cases hproject
  cases hregistry
  exact ⟨platform, mapError_eq_ok.1 hplatform⟩

end Pipeline

end MiniProgram
