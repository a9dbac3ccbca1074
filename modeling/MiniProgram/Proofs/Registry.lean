import MiniProgram.Proofs.Platform.Table
import MiniProgram.Registry

/-!
Registries that are read from tables, and the answers they give.

* `register_eq_ok_iff`: a platform is added exactly if its name is new.
* `exists_parse_of_load`, `sound_of_load`: the platforms of a loaded registry are those of its
  tables, and platforms, components, props and native names can be told apart.
* `FirstMissing`, `lookup_eq_error_iff`: a lookup fails for the first name that is missing.
* `aliases_and_lookup_of_load`: what holds of every component of a loaded registry, and what every
  lookup in it gives.
-/

namespace MiniProgram

namespace Registry

variable {r r' : Registry} {p : Platform} {c : Component} {files : List (Text × Text)}

/-! ### Loading -/

/-- A platform is added exactly if its name is new. -/
lemma register_eq_ok_iff :
    r.register p = .ok r' ↔ (∀ q ∈ r.platforms, q.name ≠ p.name) ∧ r' = ⟨r.platforms ++ [p]⟩ := by
  rw [register, ← not_any_key_iff]
  split_ifs with hany
  · exact ⟨fun h => (nomatch h), fun h => absurd hany h.1⟩
  · exact ⟨fun h => by cases h; exact ⟨hany, rfl⟩, fun h => by rw [h.2]⟩

lemma registerFile_eq_ok {file : Text × Text} (h : r.registerFile file = .ok r') :
    ∃ p, Platform.parse file.2 = .ok p ∧ r.register p = .ok r' := by
  rw [registerFile, mapError_eq_ok] at h
  exact bind_eq_ok.1 h

/-- The platforms of a loaded registry have names of their own. -/
lemma names_nodup_of_load (h : load files = .ok r) : (r.platforms.map (·.name)).Nodup := by
  refine foldlM_invariant (P := fun r : Registry => (r.platforms.map (·.name)).Nodup) ?_
    (by simp [empty]) h
  intro r file r' hnames hfile
  obtain ⟨p, -, hp⟩ := registerFile_eq_ok hfile
  obtain ⟨hnew, rfl⟩ := register_eq_ok_iff.1 hp
  exact nodup_map_append_singleton_iff.2 ⟨hnames, hnew⟩

/-- Each platform of a loaded registry is that of one of the tables. -/
lemma exists_parse_of_load (h : load files = .ok r) :
    ∀ p ∈ r.platforms, ∃ file ∈ files, isTableName file.1 = true
      ∧ Platform.parse file.2 = .ok p := by
  refine foldlM_invariant_of_mem (P := fun r : Registry => ∀ p ∈ r.platforms, ∃ file ∈ files,
    isTableName file.1 = true ∧ Platform.parse file.2 = .ok p) ?_ (by simp [empty]) h
  intro r file hfile r' hr hstep q hq
  rw [List.mem_mergeSort, List.mem_filter] at hfile
  obtain ⟨p, hparse, hp⟩ := registerFile_eq_ok hstep
  obtain ⟨-, rfl⟩ := register_eq_ok_iff.1 hp
  rcases List.mem_append.1 hq with hq | hq
  · exact hr q hq
  · rw [List.mem_singleton] at hq
    rw [hq]
    exact ⟨file, hfile.1, hfile.2, hparse⟩

/-- **A registry in which every name leads to one thing**: platforms, the components of a platform
and the aliases of a component can be told apart. -/
structure Sound (r : Registry) : Prop where
  platforms_nodup : (r.platforms.map (·.name)).Nodup
  components_nodup : ∀ p ∈ r.platforms, (p.components.map (·.name)).Nodup
  aliases : ∀ p ∈ r.platforms, ∀ c ∈ p.components, Component.Sound c.aliases

lemma sound_of_load (h : load files = .ok r) : r.Sound where
  platforms_nodup := names_nodup_of_load h
  components_nodup p hp := by
    obtain ⟨file, -, -, hparse⟩ := exists_parse_of_load h p hp
    exact (Platform.fits_of_parse hparse).names_nodup
  aliases p hp := by
    obtain ⟨file, -, -, hparse⟩ := exists_parse_of_load h p hp
    exact (Platform.fits_of_parse hparse).sound

/-! ### Looking up -/

variable {platform component prop native : Text}

lemma Sound.platform_eq_ok_iff (h : r.Sound) :
    r.platform platform = .ok p ↔ p ∈ r.platforms ∧ p.name = platform := by
  rw [← find?_key_eq_some_iff h.platforms_nodup, Registry.platform]
  cases r.platforms.find? (·.name = platform) with
  | none => exact ⟨fun h => (nomatch h), fun h => (nomatch h)⟩
  | some q => rw [Except.ok.injEq, Option.some.injEq]

lemma platform_eq_error_iff {f : LookupFlaw} :
    r.platform platform = .error f
      ↔ f = .unknownPlatform platform ∧ ∀ p ∈ r.platforms, p.name ≠ platform := by
  rw [← find?_key_eq_none_iff, Registry.platform]
  cases r.platforms.find? (·.name = platform) with
  | none => simp [eq_comm]
  | some q => exact ⟨fun h => (nomatch h), fun h => (nomatch h.2)⟩

lemma Sound.component_eq_ok_iff (h : r.Sound) :
    r.component platform component = .ok c
      ↔ ∃ p ∈ r.platforms, p.name = platform ∧ c ∈ p.components ∧ c.name = component := by
  simp only [Registry.component, bind_eq_ok, h.platform_eq_ok_iff, and_assoc]
  refine exists_congr fun p => and_congr_right fun hp => and_congr_right fun _ => ?_
  rw [← find?_key_eq_some_iff (h.components_nodup p hp), ← Platform.component?]
  cases p.component? component with
  | none => exact ⟨fun h => (nomatch h), fun h => (nomatch h)⟩
  | some d => exact ⟨fun h => by cases h; rfl, fun h => by cases h; rfl⟩

lemma Sound.component_eq_error_iff (h : r.Sound) {f : LookupFlaw} :
    r.component platform component = .error f
      ↔ r.platform platform = .error f
        ∨ ∃ p ∈ r.platforms, p.name = platform ∧ f = .unsupportedComponent component platform
          ∧ ∀ c ∈ p.components, c.name ≠ component := by
  simp only [Registry.component, bind_eq_error, h.platform_eq_ok_iff, and_assoc]
  refine or_congr_right (exists_congr fun p => and_congr_right fun _ => and_congr_right ?_)
  rintro rfl
  rw [← find?_key_eq_none_iff, ← Platform.component?]
  cases p.component? component with
  | none => exact ⟨fun h => by cases h; exact ⟨rfl, rfl⟩, fun h => by rw [h.1]; rfl⟩
  | some d => exact ⟨fun h => (nomatch h), fun h => (nomatch h.2)⟩

/-- **A lookup in a sound registry** gives the native name of each alias, and nothing else. -/
lemma Sound.lookup_eq_ok_iff (h : r.Sound) :
    r.lookup platform component prop = .ok native
      ↔ ∃ p ∈ r.platforms, p.name = platform ∧ ∃ c ∈ p.components, c.name = component
        ∧ ∃ a ∈ c.aliases, a.prop = prop ∧ a.native = native := by
  constructor
  · intro hlookup
    obtain ⟨c, hcomponent, hlookup⟩ := bind_eq_ok.1 hlookup
    obtain ⟨p, hp, hpname, hc, hcname⟩ := h.component_eq_ok_iff.1 hcomponent
    refine ⟨p, hp, hpname, c, hc, hcname,
      (Component.lookup?_eq_some_iff (h.aliases p hp c hc)).1 ?_⟩
    split at hlookup <;> cases hlookup
    assumption
  · rintro ⟨p, hp, hpname, c, hc, hcname, halias⟩
    refine bind_eq_ok.2 ⟨c, h.component_eq_ok_iff.2 ⟨p, hp, hpname, hc, hcname⟩, ?_⟩
    rw [(Component.lookup?_eq_some_iff (h.aliases p hp c hc)).2 halias]
    rfl

/-- **The first of three names that is missing**, as the flaw that says so. -/
inductive FirstMissing (r : Registry) (platform component prop : Text) : LookupFlaw → Prop where
  | platform (missing : ∀ p ∈ r.platforms, p.name ≠ platform) :
    FirstMissing r platform component prop (.unknownPlatform platform)
  | component {p : Platform} (hp : p ∈ r.platforms) (platform_eq : p.name = platform)
    (missing : ∀ c ∈ p.components, c.name ≠ component) :
    FirstMissing r platform component prop (.unsupportedComponent component platform)
  | prop {p : Platform} {c : Component} (hp : p ∈ r.platforms) (platform_eq : p.name = platform)
    (hc : c ∈ p.components) (component_eq : c.name = component)
    (missing : ∀ a ∈ c.aliases, a.prop ≠ prop) :
    FirstMissing r platform component prop (.unrecognizedProp component prop platform)

/-- **A lookup fails** exactly for the first name that is missing. -/
lemma Sound.lookup_eq_error_iff (h : r.Sound) {f : LookupFlaw} :
    r.lookup platform component prop = .error f ↔ r.FirstMissing platform component prop f := by
  constructor
  · intro hlookup
    rcases bind_eq_error.1 hlookup with hcomponent | ⟨c, hcomponent, hlookup⟩
    · rcases h.component_eq_error_iff.1 hcomponent with
        hplatform | ⟨p, hp, hpname, rfl, hmissing⟩
      · obtain ⟨rfl, hmissing⟩ := platform_eq_error_iff.1 hplatform
        exact .platform hmissing
      · exact .component hp hpname hmissing
    · obtain ⟨p, hp, hpname, hc, hcname⟩ := h.component_eq_ok_iff.1 hcomponent
      split at hlookup <;> cases hlookup
      exact .prop hp hpname hc hcname (Component.lookup?_eq_none_iff.1 (by assumption))
  · intro hmissing
    refine bind_eq_error.2 ?_
    cases hmissing with
    | platform missing =>
        exact .inl (h.component_eq_error_iff.2 (.inl (platform_eq_error_iff.2 ⟨rfl, missing⟩)))
    | component hp hpname missing =>
        exact .inl (h.component_eq_error_iff.2 (.inr ⟨_, hp, hpname, rfl, missing⟩))
    | prop hp hpname hc hcname missing =>
        refine .inr ⟨_, h.component_eq_ok_iff.2 ⟨_, hp, hpname, hc, hcname⟩, ?_⟩
        rw [Component.lookup?_eq_none_iff.2 missing]
        rfl

/-! ### Loaded registries -/

/-- **Loaded registries.** Whatever tables are accepted: the props of a component are distinct and
not empty; its native names are distinct, not empty and without a forbidden byte; the native names
are those of the declared props of one of the tables, in the order of declaration; `hasNative` tells
the native names, and a lookup under the names of the platform and the component gives just the
aliases. Every other lookup fails for the first of its names that is missing. -/
theorem aliases_and_lookup_of_load (h : load files = .ok r) :
    (∀ p ∈ r.platforms, ∀ c ∈ p.components,
      (c.aliases.map (·.prop)).Nodup ∧ (∀ a ∈ c.aliases, a.prop ≠ [])
      ∧ c.props.Nodup ∧ (∀ n ∈ c.props, n ≠ [] ∧ ∀ b ∈ n, b ∉ Component.forbidden)
      ∧ (∃ file ∈ files, isTableName file.1 = true ∧ Platform.parse file.2 = .ok p
        ∧ ∃ specs, (c.name, specs) ∈ Platform.declared file.2
          ∧ c.aliases = specs.map (Component.aliasOf p.bindingMarker)
          ∧ c.props = specs.map fun s => (Component.aliasOf p.bindingMarker s).native)
      ∧ (∀ n, c.hasNative n = true ↔ n ∈ c.props)
      ∧ ∀ prop native, r.lookup p.name c.name prop = .ok native
        ↔ ∃ a ∈ c.aliases, a.prop = prop ∧ a.native = native)
    ∧ ∀ platform component prop f, r.lookup platform component prop = .error f
      ↔ r.FirstMissing platform component prop f := by
  have hsound := sound_of_load h
  refine ⟨fun p hp c hc => ?_, fun _ _ _ _ => hsound.lookup_eq_error_iff⟩
  have haliases := hsound.aliases p hp c hc
  refine ⟨haliases.props_nodup, haliases.prop_ne_nil, haliases.natives_nodup, ?_, ?_,
    fun _ => Component.hasNative_iff, fun prop native => ?_⟩
  · intro n hn
    obtain ⟨a, ha, rfl⟩ := List.mem_map.1 hn
    exact ⟨haliases.native_ne_nil a ha, haliases.native_allowed a ha⟩
  · obtain ⟨file, hfile, hname, hparse⟩ := exists_parse_of_load h p hp
    obtain ⟨specs, hspecs, hc⟩ := (Platform.fits_of_parse hparse).exists_declared hc
    refine ⟨file, hfile, hname, hparse, specs, hspecs, hc, ?_⟩
    rw [Component.props, hc, List.map_map]
    rfl
  · rw [hsound.lookup_eq_ok_iff]
    constructor
    · -- the names lead back to this platform and this component
      rintro ⟨q, hq, hqname, d, hd, hdname, halias⟩
      obtain rfl := List.inj_on_of_nodup_map hsound.platforms_nodup hq hp hqname
      obtain rfl := List.inj_on_of_nodup_map (hsound.components_nodup q hq) hd hc hdname
      exact halias
    · intro halias
      exact ⟨p, hp, rfl, c, hc, rfl, halias⟩

/-- A table whose component has a prop of each kind: one named by the casing rules, one with a
native name of its own, and a handler. -/
def viewTable : Text :=
  "platform: mini\nbindingMarker: bind\ncomponents:\n  View:\n    tag: view\n    props:\n"
    ++ "      hoverClass:\n      className: class\n      onTap: ~\n"

/-- The component of the table. -/
def viewComponent : Component :=
  ⟨"View", "view", [⟨"hoverClass", "hover-class", false⟩, ⟨"className", "class", false⟩,
    ⟨"onTap", "bindtap", true⟩]⟩

theorem aliases_and_lookup_of_load_view :
    ∃ r : Registry, load [("mini.yaml", viewTable)] = .ok r
      ∧ (∃ p ∈ r.platforms, p.name = "mini" ∧ viewComponent ∈ p.components)
      ∧ viewComponent.props = ["hover-class", "class", "bindtap"] ∧ viewComponent.props.Nodup
      ∧ Platform.declared viewTable
        = [(("View" : Text), [⟨"hoverClass", []⟩, ⟨"className", "class"⟩, ⟨"onTap", []⟩])]
      ∧ r.lookup "mini" "View" "onTap" = .ok "bindtap"
      ∧ r.lookup "mini" "View" "bindtap" = .error (.unrecognizedProp "View" "bindtap" "mini") := by
  have hload : load [("mini.yaml", viewTable)]
      = .ok ⟨[⟨"mini", "bind", ".axml", [], [viewComponent]⟩]⟩ := by decide +kernel
  obtain ⟨hcomponents, hmissing⟩ := aliases_and_lookup_of_load hload
  obtain ⟨-, -, hnodup, -, -, -, hlookup⟩ :=
    hcomponents _ List.mem_cons_self viewComponent List.mem_cons_self
  refine ⟨_, hload, ⟨_, List.mem_cons_self, rfl, List.mem_cons_self⟩, by decide +kernel, hnodup,
    by decide +kernel, (hlookup "onTap" "bindtap").2 (by decide +kernel), ?_⟩
  exact (hmissing "mini" "View" "bindtap" _).2
    (.prop List.mem_cons_self rfl List.mem_cons_self rfl (by decide +kernel))

end Registry

end MiniProgram
