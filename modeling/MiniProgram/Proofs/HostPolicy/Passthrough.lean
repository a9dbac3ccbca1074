import MiniProgram.Proofs.Casing
import MiniProgram.Proofs.HostPolicy
import MiniProgram.Proofs.Script.Attributes

/-!
The names that are passed through.

A prop that a platform does not know is passed through to the template of its component under a name
that the casing rules make of it, and the template writes the name as it is. Props are read from a
script, which may hold anything, but what is read are names of attributes; so no script can end an
attribute or a tag of the template.

* `isNativeName_of_isAttributeName`: a name of an attribute may stand in a template.
* `passthrough_isNativeName`: **no script breaks a template.**
-/

namespace MiniProgram

namespace HostPolicy

open Component (isNativeName)

/-- A name of an attribute may stand in a template. -/
lemma isNativeName_of_isAttributeName {name : Text} (h : Script.IsAttributeName name) :
    isNativeName name = true := by
  have hother : ∀ b ∈ Component.forbidden, Script.isAttributeByte b = false := by decide
  rw [Component.isNativeName_iff]
  exact fun b hb hmem => absurd (h.2 b hb) (by simp [hother b hmem])

/-- A component that is rendered and that the platform has is listed. -/
lemma exists_host {p : HostPolicy} {us : List Script.Usage} {u : Script.Usage} (hu : u ∈ us)
    (h : (p.platform.component? u.component).isSome = true) :
    ∃ host ∈ p.hosts us, host.component = u.component := by
  have hkey := ((p.noted_passed us).mem_keys_iff u.component).2 ⟨h, u, hu, rfl⟩
  obtain ⟨entry, hentry, hcomponent⟩ := List.mem_map.1 hkey
  exact ⟨⟨entry.1, Text.sortUnique entry.2⟩,
    List.mem_map.2 ⟨entry, List.mem_mergeSort.2 hentry, rfl⟩, hcomponent⟩

/-- **No script breaks a template.** Under a marker that may itself stand in a template, whatever
the script, its local names and the platform's components: reading the markup gives host components,
and each name passed through to one of them is not empty and holds no byte that would end an
attribute. No prop is held back for that: each one that the platform does not know is passed through
under the name that the casing rules make of it. -/
theorem passthrough_isNativeName {platform : Platform}
    (hmarker : isNativeName platform.bindingMarker = true) (module : Text)
    (locals : Script.Locals) (code : Text) :
    ∃ hosts, (apply ⟨platform, .passthrough⟩ module (Script.jsxUsages locals code)).result
        = .ok hosts
      ∧ (∀ host ∈ hosts, ∀ name ∈ host.passthrough, name ≠ [] ∧ isNativeName name = true)
      ∧ ∀ u ∈ Script.jsxUsages locals code, ∀ c, platform.component? u.component = some c →
        ∀ prop ∈ u.props, isUnknown c prop = true → ∃ host ∈ hosts, host.component = u.component
          ∧ Casing.native platform.bindingMarker prop ∈ host.passthrough := by
  have hlenient : UnknownProps.passthrough ≠ .strict := by decide
  refine ⟨hosts ⟨platform, .passthrough⟩ (Script.jsxUsages locals code), ?_, ?_, ?_⟩
  · rw [apply_eq_report, report_of_ne_strict hlenient]
  · intro host hhost name hname
    obtain ⟨-, -, -, hpassed⟩ := mem_hosts_iff.1 hhost
    obtain ⟨-, prop, hmiss, rfl⟩ := (hpassed name).1 hname
    obtain ⟨-, -, -, u, hu, -, hprop⟩ := mem_misses_iff.1 hmiss
    have hattribute := Script.isAttributeName_of_mem_jsxUsages hu hprop
    exact ⟨Casing.native_ne_nil hattribute.ne_nil,
      Casing.isNativeName_native hmarker (isNativeName_of_isAttributeName hattribute)⟩
  · intro u hu c hc prop hprop hunknown
    obtain ⟨host, hhost, hcomponent⟩ :=
      @exists_host ⟨platform, .passthrough⟩ _ u hu (by simp [hc])
    obtain ⟨-, -, -, hpassed⟩ := mem_hosts_iff.1 hhost
    refine ⟨host, hhost, hcomponent, (hpassed _).2 ⟨rfl, prop, ?_, rfl⟩⟩
    exact mem_misses_iff.2 ⟨c, hcomponent ▸ hc, hunknown, u, hu, hcomponent.symm, hprop⟩

/-- A tag with values that hold quotes and brackets, and a handler that the platform does not
know. -/
def bracketedTag : Text := "<T key='<b>' onLongTap=\x7b() => \">\"\x7d selectable/>"

theorem passthrough_isNativeName_text :
    isNativeName textPlatform.bindingMarker = true
      ∧ (apply ⟨textPlatform, .passthrough⟩ "page.tsx"
          (Script.jsxUsages [("T", "Text")] bracketedTag)).result
        = .ok [⟨"Text", ["bindlongtap"]⟩]
      ∧ isNativeName "bindlongtap" = true := by
  have hmarker : isNativeName textPlatform.bindingMarker = true := by decide
  have hlisted : (apply ⟨textPlatform, .passthrough⟩ "page.tsx"
      (Script.jsxUsages [("T", "Text")] bracketedTag)).result
      = .ok [⟨"Text", ["bindlongtap"]⟩] := by decide +kernel
  obtain ⟨hosts, hhosts, hnames, -⟩ :=
    passthrough_isNativeName hmarker "page.tsx" [("T", "Text")] bracketedTag
  obtain rfl : [⟨"Text", ["bindlongtap"]⟩] = hosts := Except.ok.inj (hlisted.symm.trans hhosts)
  exact ⟨hmarker, hlisted, (hnames _ List.mem_cons_self _ List.mem_cons_self).2⟩

end HostPolicy

end MiniProgram
