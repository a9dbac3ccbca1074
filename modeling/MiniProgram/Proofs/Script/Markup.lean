import Mathlib.Tactic
import MiniProgram.Script.Markup

/-!
Which opening tags are listed.

The usages of host components are to be those of every opening tag in a script. The search lists
a tag and goes on behind it, so a tag that stands inside another opening tag, in the value of an
attribute, is not looked at.

* `usageAt?`, `allUsages`: the usage at each place of a script, and those at all places.
* `Spans`: a place that lies inside an opening tag.
* `mem_tagsFrom_iff`: a tag is listed exactly if no listed tag spans it.
* `jsxUsages_complete_iff`: every usage is listed exactly if no tag spans another.
* `jsxUsages_omits_nested`: a tag in the value of an attribute is not listed.
-/

namespace MiniProgram

namespace Script

/-! ### Tags at places -/

/-- The usage with which a text begins, if it begins with an opening tag of a host component. -/
def usageAtHead? (locals : Locals) : Text → Option Usage
  | [] => none
  | b :: t =>
    if b = Byte.less then
      (locals.find? (t.takeWhile isTagByte)).map fun component =>
        ⟨component, (scanAttrs (t.dropWhile isTagByte)).1⟩
    else none

/-- The length of the opening tag with which a text begins, up to and with the `>`. -/
def tagLength : Text → ℕ
  | [] => 0
  | _ :: t => t.length - ((scanAttrs (t.dropWhile isTagByte)).2.drop 1).length + 1

variable {locals : Locals} {code t : Text} {b : UInt8} {position skip i k : ℕ}

/-- The usage at a place of a script. -/
def usageAt? (locals : Locals) (code : Text) (k : ℕ) : Option Usage :=
  usageAtHead? locals (code.drop k)

/-- The usages at all places of a script, in their order. -/
def allUsages (locals : Locals) (code : Text) : List Usage :=
  (List.range code.length).filterMap (usageAt? locals code)

/-- Whether an opening tag of a host component stands at a place. -/
def OpensTag (locals : Locals) (code : Text) (k : ℕ) : Prop :=
  (usageAt? locals code k).isSome = true

/-- Whether a place lies inside the opening tag at an earlier one. -/
def Spans (code : Text) (i k : ℕ) : Prop := i < k ∧ k < i + tagLength (code.drop i)

lemma usagesFrom_cons (locals : Locals) (b : UInt8) (t : Text) :
    usagesFrom locals 0 (b :: t) = match usageAtHead? locals (b :: t) with
      | some u => u :: usagesFrom locals (tagLength (b :: t) - 1) t
      | none => usagesFrom locals 0 t := by
  rw [usagesFrom, usageAtHead?]
  split_ifs
  · cases locals.find? (t.takeWhile isTagByte) <;> rfl
  · rfl

/-! ### The places of the listed tags -/

/-- The places of the tags that are listed from the rest of a script, the next `skip` bytes of which
belong to a tag already listed. -/
def tagsFrom (locals : Locals) : (position skip : ℕ) → Text → List ℕ
  | _, _, [] => []
  | position, skip + 1, _ :: t => tagsFrom locals (position + 1) skip t
  | position, 0, b :: t =>
    if (usageAtHead? locals (b :: t)).isSome then
      position :: tagsFrom locals (position + 1) (tagLength (b :: t) - 1) t
    else tagsFrom locals (position + 1) 0 t

lemma drop_succ_of_drop (h : code.drop position = b :: t) : code.drop (position + 1) = t := by
  rw [← List.tail_drop, h, List.tail_cons]

/-- The listed usages are those at the places of the listed tags. -/
lemma usagesFrom_eq_filterMap (h : code.drop position = t) :
    usagesFrom locals skip t
      = (tagsFrom locals position skip t).filterMap (usageAt? locals code) := by
  induction t generalizing position skip with
  | nil => rfl
  | cons b t ih =>
      have hnext := drop_succ_of_drop h
      cases skip with
      | succ skip => rw [usagesFrom, tagsFrom, ih hnext]
      | zero =>
          have hat : usageAt? locals code position = usageAtHead? locals (b :: t) := by
            rw [usageAt?, h]
          rw [usagesFrom_cons, tagsFrom]
          cases hhead : usageAtHead? locals (b :: t) with
          | none => simp [ih hnext]
          | some u => simp [ih hnext, hat, hhead]

/-- Tags are listed from where the search goes on. -/
lemma le_of_mem_tagsFrom (hk : k ∈ tagsFrom locals position skip t) : position + skip ≤ k := by
  induction t generalizing position skip with
  | nil => cases hk
  | cons b t ih =>
      cases skip with
      | succ skip =>
          have := ih hk
          omega
      | zero =>
          rw [tagsFrom] at hk
          split_ifs at hk
          · rcases List.mem_cons.1 hk with rfl | hk
            · exact le_rfl
            · have := ih hk
              omega
          · have := ih hk
            omega

/-- Tags are listed in their order. -/
lemma pairwise_tagsFrom (locals : Locals) (position skip : ℕ) (t : Text) :
    (tagsFrom locals position skip t).Pairwise (· < ·) := by
  induction t generalizing position skip with
  | nil => exact List.Pairwise.nil
  | cons b t ih =>
      cases skip with
      | succ skip => exact ih _ _
      | zero =>
          rw [tagsFrom]
          split_ifs
          · refine List.pairwise_cons.2 ⟨fun k hk => ?_, ih _ _⟩
            have := le_of_mem_tagsFrom hk
            omega
          · exact ih _ _

lemma not_opensTag_of_length_le (h : code.length ≤ k) : ¬ OpensTag locals code k := by
  rw [OpensTag, usageAt?, List.drop_eq_nil_of_le h]
  simp [usageAtHead?]

/-- A tag is listed exactly if no listed tag spans it. -/
lemma mem_tagsFrom_iff (h : code.drop position = t) :
    k ∈ tagsFrom locals position skip t
      ↔ position + skip ≤ k ∧ OpensTag locals code k
        ∧ ∀ i ∈ tagsFrom locals position skip t, ¬ Spans code i k := by
  induction t generalizing position skip with
  | nil =>
      have hlength : code.length ≤ position := List.drop_eq_nil_iff.1 h
      refine iff_of_false List.not_mem_nil fun hk => ?_
      exact not_opensTag_of_length_le (by omega) hk.2.1
  | cons b t ih =>
      have hnext := drop_succ_of_drop h
      cases skip with
      | succ skip =>
          rw [tagsFrom, ih hnext]
          have : position + 1 + skip = position + (skip + 1) := by omega
          rw [this]
      | zero =>
          have hopens : OpensTag locals code position
              ↔ (usageAtHead? locals (b :: t)).isSome = true := by
            rw [OpensTag, usageAt?, h]
          rw [tagsFrom]
          split_ifs with htag
          · -- The tag itself is listed, and what it spans is passed over with it.
            have hspans : Spans code position k
                ↔ position < k ∧ k < position + 1 + (tagLength (b :: t) - 1) := by
              rw [Spans, h, tagLength]
              omega
            have hbehind : ∀ i ∈ tagsFrom locals (position + 1) (tagLength (b :: t) - 1) t,
                position < i := fun i hi => by
              have := le_of_mem_tagsFrom hi
              omega
            rw [List.mem_cons, List.forall_mem_cons, ih hnext, hspans]
            by_cases hself : k = position
            · subst hself
              have hnone : ∀ i ∈ tagsFrom locals (k + 1) (tagLength (b :: t) - 1) t,
                  ¬ Spans code i k := fun i hi hspan => hspan.1.asymm (hbehind i hi)
              exact iff_of_true (Or.inl rfl) ⟨le_rfl, hopens.2 htag, by omega, hnone⟩
            · rw [or_iff_right hself]
              constructor
              · rintro ⟨hle, hk, hnone⟩
                exact ⟨by omega, hk, by omega, hnone⟩
              · rintro ⟨hle, hk, hspan, hnone⟩
                exact ⟨by omega, hk, hnone⟩
          · -- No tag opens here, so nothing is passed over.
            rw [ih hnext]
            constructor
            · rintro ⟨hle, hk, hnone⟩
              exact ⟨by omega, hk, hnone⟩
            · rintro ⟨hle, hk, hnone⟩
              have hne : k ≠ position := by
                rintro rfl
                exact htag (hopens.1 hk)
              exact ⟨by omega, hk, hnone⟩

/-! ### The listed usages -/

/-- All places of opening tags, in their order. -/
def allTags (locals : Locals) (code : Text) : List ℕ :=
  (List.range code.length).filter fun k => (usageAt? locals code k).isSome

lemma mem_allTags : k ∈ allTags locals code ↔ OpensTag locals code k := by
  rw [allTags, List.mem_filter, List.mem_range]
  refine and_iff_right_of_imp fun hk => ?_
  by_contra hlt
  exact not_opensTag_of_length_le (by omega) hk

lemma allUsages_eq (locals : Locals) (code : Text) :
    allUsages locals code = (allTags locals code).filterMap (usageAt? locals code) := by
  rw [allTags, List.filterMap_filter, allUsages]
  refine List.filterMap_congr fun k _ => ?_
  cases usageAt? locals code k <;> rfl

lemma pairwise_allTags (locals : Locals) (code : Text) :
    (allTags locals code).Pairwise (· < ·) :=
  List.pairwise_lt_range.sublist List.filter_sublist

/-- Places of tags are as many as their usages. -/
lemma length_filterMap_usageAt {places : List ℕ} (h : ∀ k ∈ places, OpensTag locals code k) :
    (places.filterMap (usageAt? locals code)).length = places.length := by
  rw [List.length_filterMap_eq_countP]
  exact List.countP_eq_length.2 h

/-- **Which usages are listed.** The listed tags are those that no listed tag spans, in the order in
which they stand. These are all opening tags of host components exactly if no such tag spans
another. -/
theorem jsxUsages_complete_iff (locals : Locals) (code : Text) :
    (∃ listed : List ℕ, listed.Pairwise (· < ·)
      ∧ (∀ k, k ∈ listed ↔ OpensTag locals code k ∧ ∀ i ∈ listed, ¬ Spans code i k)
      ∧ jsxUsages locals code = listed.filterMap (usageAt? locals code))
    ∧ (jsxUsages locals code = allUsages locals code
      ↔ ∀ i k, OpensTag locals code i → OpensTag locals code k → ¬ Spans code i k) := by
  set listed := tagsFrom locals 0 0 code with hlisted
  have hsorted : listed.Pairwise (· < ·) := pairwise_tagsFrom locals 0 0 code
  have hmem : ∀ k, k ∈ listed ↔ OpensTag locals code k ∧ ∀ i ∈ listed, ¬ Spans code i k := by
    intro k
    rw [hlisted, mem_tagsFrom_iff List.drop_zero, and_iff_right (Nat.zero_le k)]
  have husages : jsxUsages locals code = listed.filterMap (usageAt? locals code) :=
    usagesFrom_eq_filterMap List.drop_zero
  refine ⟨⟨listed, hsorted, hmem, husages⟩, fun h i k hi hk hspan => ?_, fun h => ?_⟩
  · -- As many tags are listed as there are, so all of them are.
    have hsub : listed ⊆ allTags locals code := fun k hk => mem_allTags.2 ((hmem k).1 hk).1
    have hlength : (allTags locals code).length = listed.length := by
      rw [← length_filterMap_usageAt fun k hk => mem_allTags.1 hk, ← allUsages_eq, ← h, husages,
        length_filterMap_usageAt fun k hk => ((hmem k).1 hk).1]
    have hnodup : listed.Nodup := hsorted.imp fun hlt => hlt.ne
    have hperm : listed.Perm (allTags locals code) :=
      (hnodup.subperm hsub).perm_of_length_le hlength.le
    have hall {k : ℕ} (hk : OpensTag locals code k) : k ∈ listed :=
      hperm.mem_iff.2 (mem_allTags.2 hk)
    exact ((hmem k).1 (hall hk)).2 i (hall hi) hspan
  · have hsame : listed = allTags locals code := by
      refine hsorted.eq_of_mem_iff (pairwise_allTags locals code) fun k => ?_
      rw [hmem, mem_allTags, and_iff_left_iff_imp]
      exact fun hk i hi => h i k ((hmem i).1 hi).1 hk
    rw [husages, hsame, allUsages_eq]

/-- A tag in the value of an attribute of another tag is not listed. -/
theorem jsxUsages_omits_nested :
    jsxUsages [("View", "View"), ("Text", "Text")] "<View render={<Text bold/>}>"
        = [⟨"View", ["render"]⟩]
      ∧ allUsages [("View", "View"), ("Text", "Text")] "<View render={<Text bold/>}>"
        = [⟨"View", ["render"]⟩, ⟨"Text", ["bold"]⟩] := by
  decide

end Script

end MiniProgram
