import MiniProgram.Platform
import MiniProgram.Proofs.Platform.Component

/-!
What a table that can be read says of its platform.

* `Platform.declared`: the components a document lists and their props, in the order of the
  document, without a look at what makes a table malformed.
* `Platform.addComponent_eq_ok`: what an accepted entry of a table adds.
* `Platform.Fits`, `Platform.fits_of_parse`: the platform that is read has distinct components with
  sound aliases, just those of the declared props, each in its place.
-/

namespace MiniProgram

namespace Platform

/-! ### What a document lists -/

/-- The prop that an entry of a mapping declares; where it has null, the casing rules decide. -/
def specOf : Yaml.Node × Yaml.Node → PropSpec
  | (k, v) => ⟨k.text, if v.isNull then [] else v.text⟩

/-- The props that a component lists. -/
def declaredProps (root v : Yaml.Node) : List PropSpec :=
  match (Yaml.mapping (componentShape root) root (root.size + 1) ([], none) v).result with
  | .ok (_, some (.mapping _ entries)) => entries.map specOf
  | _ => []

/-- **The declared components** of a table, each with its declared props. -/
def declared (t : Text) : List (Text × List PropSpec) :=
  match Yaml.decode TableFile.shape ⟨[], [], [], [], none, none⟩ t with
  | .ok ⟨_, _, _, _, some root, some (.mapping _ entries)⟩ =>
    entries.map fun (k, v) => (k.text, declaredProps root v)
  | _ => []

/-! ### Reading it -/

variable {f : TableFile} {root k v : Yaml.Node} {components components' : List Component}

/-- Props that are accepted are those a mapping lists. -/
lemma propSpecs_eq_ok {component : Text} {props : Option Yaml.Node} {specs : List PropSpec}
    (h : propSpecs component props = .ok specs) :
    ∃ header entries, props = some (.mapping header entries) ∧ specs = entries.map specOf := by
  unfold propSpecs at h
  split at h
  case h_2 => cases h
  case h_1 header entries =>
    refine ⟨header, entries, rfl, eq_map_of_mapM_eq_ok ?_ h⟩
    rintro ⟨k, v⟩ spec hspec
    dsimp only at hspec
    split at hspec
    · cases hspec
      rfl
    · cases hspec

/-- **An accepted entry** of a table adds one component, with a new name and the aliases of the
props it lists. -/
lemma addComponent_eq_ok (h : addComponent f root components (k, v) = .ok components') :
    ∃ c : Component, components' = components ++ [c] ∧ (∀ d ∈ components, d.name ≠ c.name)
      ∧ c.name = k.text ∧ Component.Sound c.aliases
      ∧ c.aliases = (declaredProps root v).map (Component.aliasOf f.bindingMarker) := by
  rw [addComponent] at h
  obtain ⟨⟨tag, props⟩, hread, h⟩ := bind_eq_ok.1 h
  obtain ⟨specs, hspecs, h⟩ := bind_eq_ok.1 h
  rw [mapError_eq_ok] at hread
  obtain ⟨header, entries, rfl, rfl⟩ := propSpecs_eq_ok hspecs
  split_ifs at h with hany
  · cases h
  · obtain ⟨c, hc, h⟩ := bind_eq_ok.1 h
    cases h
    rw [mapError_eq_ok, Component.ofSpecs_eq_ok_iff] at hc
    obtain ⟨-, -, hsound, rfl⟩ := hc
    refine ⟨_, rfl, not_any_key_iff.1 hany, rfl, hsound, ?_⟩
    rw [declaredProps, hread]

/-- **What holds of a platform read from a table**: its components have names of their own and
sound aliases, and component by component these are the aliases of the declared props. -/
structure Fits (p : Platform) (t : Text) : Prop where
  names_nodup : (p.components.map (·.name)).Nodup
  sound : ∀ c ∈ p.components, Component.Sound c.aliases
  declared : p.components.map (fun c => (c.name, c.aliases))
    = (declared t).map fun d => (d.1, d.2.map (Component.aliasOf p.bindingMarker))

lemma Fits.exists_declared {p : Platform} {t : Text} (h : p.Fits t) {c : Component}
    (hc : c ∈ p.components) :
    ∃ specs, (c.name, specs) ∈ Platform.declared t
      ∧ c.aliases = specs.map (Component.aliasOf p.bindingMarker) := by
  have hmem : (c.name, c.aliases) ∈ p.components.map fun c => (c.name, c.aliases) :=
    List.mem_map_of_mem hc
  rw [h.declared] at hmem
  obtain ⟨⟨name, specs⟩, hdeclared, heq⟩ := List.mem_map.1 hmem
  obtain ⟨rfl, haliases⟩ := Prod.mk.inj heq
  exact ⟨specs, hdeclared, haliases.symm⟩

/-- The entries of a table, one after the other. -/
lemma foldlM_addComponent_eq_ok {entries : List (Yaml.Node × Yaml.Node)}
    (h : entries.foldlM (addComponent f root) components = .ok components')
    (hnames : (components.map (·.name)).Nodup)
    (hsound : ∀ c ∈ components, Component.Sound c.aliases) :
    (components'.map (·.name)).Nodup ∧ (∀ c ∈ components', Component.Sound c.aliases)
      ∧ components'.map (fun c => (c.name, c.aliases))
        = components.map (fun c => (c.name, c.aliases)) ++ entries.map fun e =>
          (e.1.text, (declaredProps root e.2).map (Component.aliasOf f.bindingMarker)) := by
  induction entries generalizing components with
  | nil =>
      rw [List.foldlM_nil] at h
      cases h
      exact ⟨hnames, hsound, by simp⟩
  | cons e entries ih =>
      rw [List.foldlM_cons] at h
      obtain ⟨next, hnext, h⟩ := bind_eq_ok.1 h
      obtain ⟨c, rfl, hnew, hname, hc, haliases⟩ := addComponent_eq_ok hnext
      obtain ⟨hnames', hsound', hmap⟩ := ih h (nodup_map_append_singleton_iff.2 ⟨hnames, hnew⟩)
        (by simpa [or_imp, forall_and] using ⟨hsound, hc⟩)
      refine ⟨hnames', hsound', ?_⟩
      rw [hmap, List.map_append, List.map_singleton, List.append_assoc, List.singleton_append,
        List.map_cons, hname, haliases]

/-- **A table that is read** fits its platform. -/
theorem fits_of_parse {t : Text} {p : Platform} (h : parse t = .ok p) : p.Fits t := by
  rw [parse] at h
  obtain ⟨f, hf, h⟩ := bind_eq_ok.1 h
  rw [mapError_eq_ok] at hf
  by_cases hplatform : f.platform = []
  · rw [if_pos hplatform] at h
    cases h
  by_cases hmarker : f.bindingMarker = []
  · rw [if_neg hplatform, if_pos hmarker] at h
    cases h
  rw [if_neg hplatform, if_neg hmarker] at h
  dsimp only at h
  split at h
  case h_2 => cases h
  case h_1 root header entries hroot hcomponents =>
    obtain ⟨components, hrun, h⟩ := bind_eq_ok.1 h
    cases h
    obtain ⟨hnames, hsound, hmap⟩ := foldlM_addComponent_eq_ok hrun (by simp) (by simp)
    have hdeclared : declared t = entries.map fun e => (e.1.text, declaredProps root e.2) := by
      obtain ⟨_, _, _, _, _, _⟩ := f
      cases hroot
      cases hcomponents
      rw [declared, hf]
    refine ⟨hnames, hsound, ?_⟩
    rw [hmap, hdeclared, List.map_map]
    rfl

end Platform

end MiniProgram
