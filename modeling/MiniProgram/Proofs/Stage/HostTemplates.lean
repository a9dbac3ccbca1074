import MiniProgram.Proofs.Registry
import MiniProgram.Proofs.Text.Order
import MiniProgram.Stage.Emit

/-!
The templates of host components in the base template.

What the modules of a bundle render is gathered into one template for each component: first the
attributes the platform has for it, then the names that modules pass through to it beside them.

* `Prescribed`: the template of a component as the modules' usages prescribe it.
* `hostTemplates_congr`: the templates depend on what is rendered and passed through as sets only.
* `hostTemplates_of_load`: on a platform of a loaded registry, the base template has the prescribed
  template of every component that is rendered, in the order of the components' names.
-/

namespace MiniProgram

namespace Emit

variable {p : Platform} {c : Component} {ms ms' : List Module} {name native : Text}

/-! ### What modules render -/

/-- Whether some module renders a component. -/
def Renders (ms : List Module) (component : Text) : Prop :=
  ∃ m ∈ ms, ∃ h ∈ m.host, h.component = component

/-- Whether some module passes a name through to a component. -/
def PassesThrough (ms : List Module) (component native : Text) : Prop :=
  ∃ m ∈ ms, ∃ h ∈ m.host, h.component = component ∧ native ∈ h.passthrough

/-- Modules that render the same components and pass the same names through to them, in whatever
order and however spread over the modules. -/
structure SameUsages (ms ms' : List Module) : Prop where
  renders : ∀ component, Renders ms component ↔ Renders ms' component
  passesThrough : ∀ component native,
    PassesThrough ms component native ↔ PassesThrough ms' component native

lemma mem_usedComponents : name ∈ usedComponents ms ↔ Renders ms name := by
  simp [usedComponents, Renders]

lemma mem_passedThrough : native ∈ passedThrough ms name ↔ PassesThrough ms name native := by
  simp [passedThrough, PassesThrough, and_assoc]

/-- What is rendered and passed through is listed alike for the same usages. -/
theorem hostTemplates_congr (h : SameUsages ms ms') :
    hostTemplates p ms = hostTemplates p ms' := by
  have hused : usedComponents ms = usedComponents ms' :=
    Text.eq_of_pairwise_lt (Text.pairwise_sortUnique _) (Text.pairwise_sortUnique _) fun name => by
      rw [mem_usedComponents, mem_usedComponents, h.renders]
  have hpassed : ∀ name, passedThrough ms name = passedThrough ms' name := fun name =>
    Text.eq_of_pairwise_lt (Text.pairwise_sortUnique _) (Text.pairwise_sortUnique _)
      fun native => by rw [mem_passedThrough, mem_passedThrough, h.passesThrough]
  have htemplate : hostTemplate ms = hostTemplate ms' := by
    funext c
    rw [hostTemplate, hostTemplate, hpassed]
  rw [hostTemplates, hostTemplates, hused, htemplate]

/-! ### One template -/

/-- The template of a component as the usages of some modules prescribe it: the attributes of the
component in the order of their declaration, then in ascending order the names that are passed
through to it and are not among them. No attribute stands twice. -/
structure Prescribed (ms : List Module) (c : Component) (t : HostTemplate) : Prop where
  tag_eq : t.tag = c.tag
  attrs_eq : ∃ extra, t.attrs = c.props ++ extra ∧ extra.Pairwise (· < ·)
    ∧ ∀ native, native ∈ extra ↔ PassesThrough ms c.name native ∧ native ∉ c.props
  nodup : t.attrs.Nodup

/-- A component whose native names differ gets the prescribed template. -/
lemma prescribed_hostTemplate (h : c.props.Nodup) (ms : List Module) :
    Prescribed ms c (hostTemplate ms c) := by
  have hmem : ∀ native, native ∈ (passedThrough ms c.name).filter (fun n => !c.hasNative n)
      ↔ PassesThrough ms c.name native ∧ native ∉ c.props := by
    intro native
    rw [List.mem_filter, mem_passedThrough, Bool.not_eq_true', ← Bool.not_eq_true,
      Component.hasNative_iff]
  have hsorted : ((passedThrough ms c.name).filter fun n => !c.hasNative n).Pairwise (· < ·) :=
    (Text.pairwise_sortUnique _).sublist List.filter_sublist
  refine ⟨rfl, ⟨_, rfl, hsorted, hmem⟩, ?_⟩
  refine List.nodup_append'.2 ⟨h, hsorted.imp fun hlt heq => ?_, fun native hprop hextra => ?_⟩
  · exact List.lt_irrefl _ (heq ▸ hlt)
  · exact ((hmem native).1 hextra).2 hprop

/-! ### All templates -/

/-- The components a bundle renders, as the platform has them. -/
def renderedComponents (p : Platform) (ms : List Module) : List Component :=
  (usedComponents ms).filterMap p.component?

lemma hostTemplates_eq_map (p : Platform) (ms : List Module) :
    hostTemplates p ms = (renderedComponents p ms).map (hostTemplate ms) :=
  List.map_filterMap.symm

/-- The rendered components come in the order of their names, each once. -/
lemma pairwise_renderedComponents (p : Platform) (ms : List Module) :
    (renderedComponents p ms).Pairwise fun c d => c.name < d.name := by
  refine List.pairwise_filterMap.2 ((Text.pairwise_sortUnique _).imp ?_)
  intro x y hlt c hc d hd
  have hname : ∀ {n : Text} {e : Component}, p.component? n = some e → e.name = n :=
    fun he => by simpa using List.find?_some he
  rwa [hname hc, hname hd]

lemma mem_renderedComponents (h : (p.components.map (·.name)).Nodup) :
    c ∈ renderedComponents p ms ↔ c ∈ p.components ∧ Renders ms c.name := by
  rw [renderedComponents, List.mem_filterMap]
  simp only [mem_usedComponents, Platform.component?, find?_key_eq_some_iff h]
  constructor
  · rintro ⟨name, hrenders, hc, rfl⟩
    exact ⟨hc, hrenders⟩
  · rintro ⟨hc, hrenders⟩
    exact ⟨c.name, hrenders, hc, rfl⟩

variable {files : List (Text × Text)} {r : Registry}

/-- **The host templates of a bundle.** On a platform of a loaded registry, the base template of
every bundle has a template for each component that is rendered and that the platform has, once and
in the order of the components' names, and each is the prescribed one. Bundles with the same usages
have the same templates. -/
theorem hostTemplates_of_load (hload : Registry.load files = .ok r)
    (hplatform : r.platform name = .ok p) (b : Bundle) :
    (∃ components : List Component, components.Pairwise (fun c d => c.name < d.name)
      ∧ (∀ c, c ∈ components ↔ c ∈ p.components ∧ Renders b.modules c.name)
      ∧ List.Forall₂ (Prescribed b.modules) components (hostTemplates p b.modules))
    ∧ ∀ b' : Bundle, SameUsages b.modules b'.modules →
      hostTemplates p b.modules = hostTemplates p b'.modules := by
  have hsound := Registry.sound_of_load hload
  obtain ⟨hp, -⟩ := hsound.platform_eq_ok_iff.1 hplatform
  refine ⟨⟨renderedComponents p b.modules, pairwise_renderedComponents p b.modules,
    fun c => mem_renderedComponents (hsound.components_nodup p hp), ?_⟩,
    fun b' => hostTemplates_congr⟩
  rw [hostTemplates_eq_map, List.forall₂_map_right_iff, List.forall₂_same]
  intro c hc
  have hc' := ((mem_renderedComponents (hsound.components_nodup p hp)).1 hc).1
  exact prescribed_hostTemplate (hsound.aliases p hp c hc').natives_nodup b.modules

/-- A module that renders some host components. -/
def rendering (id : Text) (host : List HostUsage) : Module :=
  { Module.ofSource id [] with host := host }

/-- Usages of two modules: a component with names of its own and beside them, and one that the
platform does not have. -/
def spreadBundle : Bundle :=
  .ofModules [rendering "a.js" [⟨"Map", []⟩, ⟨"View", ["aria", "class"]⟩],
    rendering "b.js" [⟨"View", ["id"]⟩]]

/-- The same usages in one module. -/
def gatheredBundle : Bundle :=
  .ofModules [rendering "c.js" [⟨"View", ["id", "class", "aria"]⟩, ⟨"Map", []⟩]]

lemma modules_spread : spreadBundle.modules
    = [rendering "a.js" [⟨"Map", []⟩, ⟨"View", ["aria", "class"]⟩],
      rendering "b.js" [⟨"View", ["id"]⟩]] := by
  decide

lemma sameUsages_spread : SameUsages spreadBundle.modules gatheredBundle.modules := by
  have hgathered : gatheredBundle.modules
      = [rendering "c.js" [⟨"View", ["id", "class", "aria"]⟩, ⟨"Map", []⟩]] := by decide
  rw [modules_spread, hgathered]
  refine ⟨fun component => ?_, fun component native => ?_⟩
  · simp only [Renders, rendering, List.exists_mem_cons_iff, List.not_mem_nil, false_and,
      exists_false, or_false]
    tauto
  · simp only [PassesThrough, rendering, List.exists_mem_cons_iff, List.not_mem_nil, false_and,
      and_false, exists_false, or_false, false_or]
    simp only [List.mem_cons, List.not_mem_nil, or_false]
    tauto

/-- The platform of the table. -/
def viewPlatform : Platform := ⟨"mini", "bind", ".axml", [], [Registry.viewComponent]⟩

lemma hostTemplates_spread : hostTemplates viewPlatform spreadBundle.modules
    = [⟨"view", ["hover-class", "class", "bindtap", "aria", "id"]⟩] := by
  have hused : usedComponents spreadBundle.modules = ["Map", "View"] := by
    rw [modules_spread, usedComponents, Text.sortUnique, Text.sort,
      List.mergeSort_of_pairwise (by decide +kernel)]
    decide
  have hpassed : passedThrough spreadBundle.modules Registry.viewComponent.name
      = ["aria", "class", "id"] := by
    rw [modules_spread, passedThrough, Text.sortUnique, Text.sort,
      List.mergeSort_of_pairwise (by decide +kernel)]
    decide
  have hrendered : renderedComponents viewPlatform spreadBundle.modules
      = [Registry.viewComponent] := by
    rw [renderedComponents, hused]
    decide
  rw [hostTemplates_eq_map, hrendered, List.map_singleton, hostTemplate, hpassed]
  decide

/-- The general case at usages spread over two modules and gathered in one. -/
theorem hostTemplates_of_load_view :
    ∃ r, Registry.load [("mini.yaml", Registry.viewTable)] = .ok r
      ∧ r.platform "mini" = .ok viewPlatform
      ∧ (∃ components, List.Forall₂ (Prescribed spreadBundle.modules) components
        [⟨"view", ["hover-class", "class", "bindtap", "aria", "id"]⟩])
      ∧ hostTemplates viewPlatform gatheredBundle.modules
        = [⟨"view", ["hover-class", "class", "bindtap", "aria", "id"]⟩] := by
  have hload : Registry.load [("mini.yaml", Registry.viewTable)] = .ok ⟨[viewPlatform]⟩ := by
    decide +kernel
  have hplatform : (Registry.mk [viewPlatform]).platform "mini" = .ok viewPlatform := by decide
  obtain ⟨⟨components, -, -, hprescribed⟩, hsame⟩ :=
    hostTemplates_of_load hload hplatform spreadBundle
  refine ⟨_, hload, hplatform, ⟨components, ?_⟩, ?_⟩
  · rwa [hostTemplates_spread] at hprescribed
  · rw [← hsame gatheredBundle sameUsages_spread, hostTemplates_spread]

end Emit

end MiniProgram
