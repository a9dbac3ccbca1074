import MiniProgram.Platform.Component
import MiniProgram.Proofs.Failure
import MiniProgram.Proofs.Keyed
import MiniProgram.Proofs.Text.Quoted

/-!
Which components can be made.

* `Casing.native_ne_nil`: no native name that the casing rules make of a prop is empty.
* `Component.Sound`, `Component.sound_append_singleton_iff`: aliases told apart by their props and
  by their native names, and what one more alias has to bring.
* `Component.addSpec_eq_ok_iff`, `Component.foldlM_addSpec_eq_ok_iff`: one declared prop, and then a
  list of them, is accepted exactly if the aliases stay sound; none is left out or moved.
* `Component.ofSpecs_eq_ok_iff`: a component is made exactly of declared props with sound aliases.
* `Component.lookup?_eq_some_iff`: such a component knows exactly its aliases.
-/

namespace MiniProgram

/-! ### Names that are not empty -/

namespace Text

lemma encode_ne_nil (c : Nat) : Rune.encode c ≠ [] := by
  simp only [Rune.encode]
  split_ifs <;> simp

lemma ofRunes_ne_nil {cs : List Nat} (h : cs ≠ []) : ofRunes cs ≠ [] := by
  obtain ⟨c, rest, rfl⟩ := List.exists_cons_of_ne_nil h
  simp [ofRunes, encode_ne_nil]

lemma runes_ne_nil {t : Text} (h : t ≠ []) : runes t ≠ [] := by
  intro hnil
  refine h ?_
  rw [← flatMap_snd_runeSpans t, List.map_eq_nil_iff.1 hnil, List.flatMap_nil]

end Text

namespace Casing

lemma kebabFrom_ne_nil {prev : Option Nat} {cs : List Nat} (h : cs ≠ []) :
    kebabFrom prev cs ≠ [] := by
  obtain ⟨c, rest, rfl⟩ := List.exists_cons_of_ne_nil h
  rw [kebabFrom]
  split_ifs <;> simp

/-- The name of an event is not empty, so a handler is bound under a name even without a marker. -/
lemma eventBinding_ne_nil {marker prop : Text} (h : isEventProp prop = true) :
    eventBinding marker prop ≠ [] := by
  have htail : Text.trimStart prop "on" ≠ [] := by
    unfold isEventProp at h
    split at h
    · exact List.cons_ne_nil _ _
    · cases h
  have hlower : Text.toLower (Text.trimStart prop "on") ≠ [] :=
    Text.ofRunes_ne_nil (by simpa using Text.runes_ne_nil htail)
  simp [eventBinding, hlower]

/-- The casing rules give every prop a native name. -/
lemma native_ne_nil {marker prop : Text} (h : prop ≠ []) : native marker prop ≠ [] := by
  rw [native]
  split_ifs with hevent
  · exact eventBinding_ne_nil hevent
  · exact Text.ofRunes_ne_nil (kebabFrom_ne_nil (Text.runes_ne_nil h))

end Casing

/-! ### Sound aliases -/

namespace Component

variable {name tag marker : Text} {aliases aliases' : List PropAlias} {specs : List PropSpec}

lemma isNativeName_iff {native : Text} :
    isNativeName native = true ↔ ∀ b ∈ native, b ∉ forbidden := by
  simp [isNativeName, Text.includesAny]

/-- **Aliases that can be told apart**: no two have the same prop or the same native name, no name
is empty, and no native name holds a byte that would end an attribute. -/
structure Sound (aliases : List PropAlias) : Prop where
  props_nodup : (aliases.map (·.prop)).Nodup
  prop_ne_nil : ∀ a ∈ aliases, a.prop ≠ []
  natives_nodup : (aliases.map (·.native)).Nodup
  native_ne_nil : ∀ a ∈ aliases, a.native ≠ []
  native_allowed : ∀ a ∈ aliases, ∀ b ∈ a.native, b ∉ forbidden

lemma sound_nil : Sound [] := by
  constructor <;> simp

/-- What one more alias has to bring. -/
lemma sound_append_singleton_iff {a : PropAlias} :
    Sound (aliases ++ [a]) ↔ Sound aliases ∧ a.prop ≠ [] ∧ (∀ b ∈ aliases, b.prop ≠ a.prop)
      ∧ a.native ≠ [] ∧ (∀ b ∈ a.native, b ∉ forbidden)
      ∧ ∀ b ∈ aliases, b.native ≠ a.native := by
  have hforall : ∀ P : PropAlias → Prop,
      (∀ b ∈ aliases ++ [a], P b) ↔ (∀ b ∈ aliases, P b) ∧ P a := by
    intro P
    simp only [List.mem_append, List.mem_singleton, or_imp, forall_and, forall_eq]
  constructor
  · rintro ⟨hprops, hprop, hnatives, hnative, hallowed⟩
    rw [nodup_map_append_singleton_iff] at hprops hnatives
    rw [hforall] at hprop hnative hallowed
    exact ⟨⟨hprops.1, hprop.1, hnatives.1, hnative.1, hallowed.1⟩, hprop.2, hprops.2, hnative.2,
      hallowed.2, hnatives.2⟩
  · rintro ⟨h, hprop, hprops, hnative, hallowed, hnatives⟩
    exact ⟨nodup_map_append_singleton_iff.2 ⟨h.props_nodup, hprops⟩,
      (hforall _).2 ⟨h.prop_ne_nil, hprop⟩,
      nodup_map_append_singleton_iff.2 ⟨h.natives_nodup, hnatives⟩,
      (hforall _).2 ⟨h.native_ne_nil, hnative⟩, (hforall _).2 ⟨h.native_allowed, hallowed⟩⟩

/-- The front of sound aliases is sound. -/
lemma Sound.of_append (h : Sound (aliases ++ aliases')) : Sound aliases := by
  induction aliases' using List.reverseRecOn with
  | nil => simpa using h
  | append_singleton rest a ih =>
      rw [← List.append_assoc] at h
      exact ih (sound_append_singleton_iff.1 h).1

/-! ### Making a component -/

@[simp] lemma prop_aliasOf (marker : Text) (spec : PropSpec) :
    (aliasOf marker spec).prop = spec.prop := rfl

lemma aliasOf_native_ne_nil {spec : PropSpec} (h : spec.prop ≠ []) :
    (aliasOf marker spec).native ≠ [] := by
  rw [aliasOf]
  split_ifs with hoverride
  · exact Casing.native_ne_nil h
  · exact hoverride

/-- **One declared prop** is accepted exactly if the aliases stay sound with its own. -/
lemma addSpec_eq_ok_iff (h : Sound aliases) {spec : PropSpec} :
    addSpec name marker aliases spec = .ok aliases'
      ↔ aliases' = aliases ++ [aliasOf marker spec] ∧ Sound aliases' := by
  simp only [addSpec]
  constructor
  · intro hok
    split_ifs at hok with hempty hprop hname
    cases hshared : aliases.find? (·.native = (aliasOf marker spec).native) with
    | some other => rw [hshared] at hok; cases hok
    | none =>
        rw [hshared] at hok
        cases hok
        rw [Bool.not_eq_true', Bool.not_eq_false, isNativeName_iff] at hname
        exact ⟨rfl, sound_append_singleton_iff.2 ⟨h, hempty, not_any_key_iff.1 hprop,
          aliasOf_native_ne_nil hempty, hname, find?_key_eq_none_iff.1 hshared⟩⟩
  · rintro ⟨rfl, hsound⟩
    obtain ⟨-, hempty, hprop, -, hname, hshared⟩ := sound_append_singleton_iff.1 hsound
    rw [prop_aliasOf] at hempty
    simp only [prop_aliasOf] at hprop
    rw [if_neg hempty, if_neg (not_any_key_iff.2 hprop),
      if_neg (by simpa using isNativeName_iff.2 hname), find?_key_eq_none_iff.2 hshared]

/-- **Some declared props** are accepted exactly if their aliases are sound; the aliases stand in
the order of declaration. -/
lemma foldlM_addSpec_eq_ok_iff (h : Sound aliases) :
    specs.foldlM (addSpec name marker) aliases = .ok aliases'
      ↔ aliases' = aliases ++ specs.map (aliasOf marker) ∧ Sound aliases' := by
  induction specs generalizing aliases with
  | nil =>
      rw [List.foldlM_nil, List.map_nil, List.append_nil]
      exact ⟨fun hok => by cases hok; exact ⟨rfl, h⟩, fun ⟨heq, _⟩ => by rw [heq]; rfl⟩
  | cons spec specs ih =>
      rw [List.foldlM_cons, bind_eq_ok, List.map_cons, List.append_cons]
      constructor
      · rintro ⟨next, hnext, hrest⟩
        obtain ⟨rfl, hsound⟩ := (addSpec_eq_ok_iff h).1 hnext
        exact (ih hsound).1 hrest
      · rintro ⟨rfl, hsound⟩
        -- the aliases up to this prop are a front of all, so that its step does not fail either
        have hnext := hsound.of_append
        exact ⟨_, (addSpec_eq_ok_iff h).2 ⟨rfl, hnext⟩, (ih hnext).2 ⟨rfl, hsound⟩⟩

/-- **The components that can be made**: those with a name and with declared props whose aliases are
sound. Nothing is declared in vain, and nothing changes its place. -/
theorem ofSpecs_eq_ok_iff {c : Component} :
    ofSpecs name tag marker specs = .ok c
      ↔ name ≠ [] ∧ specs ≠ [] ∧ Sound (specs.map (aliasOf marker))
        ∧ c = ⟨name, if tag = [] then Casing.kebab name else tag, specs.map (aliasOf marker)⟩ := by
  rw [ofSpecs]
  by_cases hname : name = []
  · rw [if_pos hname]
    exact ⟨fun h => (nomatch h), fun h => absurd hname h.1⟩
  by_cases hspecs : specs = []
  · rw [if_neg hname, if_pos hspecs]
    exact ⟨fun h => (nomatch h), fun h => absurd hspecs h.2.1⟩
  rw [if_neg hname, if_neg hspecs]
  simp only [bind_eq_ok, foldlM_addSpec_eq_ok_iff sound_nil, List.nil_append]
  constructor
  · rintro ⟨_, ⟨rfl, hsound⟩, hc⟩
    cases hc
    exact ⟨hname, hspecs, hsound, rfl⟩
  · rintro ⟨-, -, hsound, rfl⟩
    exact ⟨_, ⟨rfl, hsound⟩, rfl⟩

/-! ### Questions to a component -/

lemma hasNative_iff {c : Component} {native : Text} :
    c.hasNative native = true ↔ native ∈ c.props := by
  simp [hasNative, props]

/-- A component with sound aliases finds the native name of a prop exactly in its aliases. -/
lemma lookup?_eq_some_iff {c : Component} (h : Sound c.aliases) {prop native : Text} :
    c.lookup? prop = some native ↔ ∃ a ∈ c.aliases, a.prop = prop ∧ a.native = native := by
  simp only [lookup?, Option.map_eq_some_iff, find?_key_eq_some_iff h.props_nodup, and_assoc]

lemma lookup?_eq_none_iff {c : Component} {prop : Text} :
    c.lookup? prop = none ↔ ∀ a ∈ c.aliases, a.prop ≠ prop := by
  simp [lookup?]

end Component

end MiniProgram
