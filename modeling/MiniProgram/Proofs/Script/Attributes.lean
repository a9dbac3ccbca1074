import MiniProgram.Proofs.Script.Markup
import MiniProgram.Proofs.Text.Search

/-!
What the scan of an opening tag takes for names of attributes.

A name begins with a byte of an identifier and goes on with such bytes, hyphens and colons. The scan
of a tag keeps this of the name it is reading, and lists names that it has read to their ends;
quotes, braces and whatever stands between them belong to no name.

* `IsAttributeName`: what a name of an attribute looks like.
* `tagStep_sound`, `isAttributeName_of_mem_scanAttrsFrom`: a step of the scan, and then the scan.
* `isAttributeName_of_mem_jsxUsages`: **every listed attribute has such a name**, whatever the
  script holds.
-/

namespace MiniProgram

namespace Script

variable {locals : Locals} {code name t : Text} {s : TagState} {depth : ℕ} {b : UInt8} {u : Usage}

/-- A name of an attribute: a byte of an identifier, and bytes that continue an attribute name. -/
def IsAttributeName (name : Text) : Prop :=
  name.head?.any Byte.isIdent = true ∧ ∀ b ∈ name, isAttributeByte b = true

namespace IsAttributeName

lemma ne_nil (h : IsAttributeName name) : name ≠ [] := by
  rintro rfl
  cases h.1

lemma singleton (hb : Byte.isIdent b = true) : IsAttributeName [b] := by
  refine ⟨hb, fun c hc => ?_⟩
  rw [List.mem_singleton.1 hc, isAttributeByte, hb]
  rfl

/-- A name goes on. -/
lemma concat (h : IsAttributeName name) (hb : isAttributeByte b = true) :
    IsAttributeName (name ++ [b]) := by
  obtain ⟨c, rest, rfl⟩ := List.exists_cons_of_ne_nil h.ne_nil
  refine ⟨h.1, fun d hd => ?_⟩
  rcases List.mem_append.1 hd with hd | hd
  · exact h.2 d hd
  · rw [List.mem_singleton.1 hd]
    exact hb

end IsAttributeName

/-- What the scan has read of a name is one. -/
def TagState.Sound (s : TagState) : Prop := ∀ name ∈ s.finished, IsAttributeName name

lemma sound_of_finished_eq_nil (h : s.finished = []) : s.Sound := fun name hname => by
  rw [h] at hname
  cases hname

lemma sound_name {bytes : Text} :
    (TagState.name bytes).Sound ↔ IsAttributeName bytes.reverse := List.forall_mem_singleton

/-- A name is begun with a byte of an identifier. -/
lemma tagStep_sound (depth : ℕ) (b : UInt8) : (tagStep depth b).1.Sound := by
  rw [tagStep]
  split_ifs with _ _ _ hname
  · exact sound_of_finished_eq_nil rfl
  · exact sound_of_finished_eq_nil rfl
  · exact sound_of_finished_eq_nil rfl
  · rw [Bool.and_eq_true] at hname
    exact sound_name.2 (IsAttributeName.singleton hname.2)
  · exact sound_of_finished_eq_nil rfl

lemma isAttributeName_of_mem_scanAttrsFrom (hs : s.Sound)
    (h : name ∈ (scanAttrsFrom s depth t).1) : IsAttributeName name := by
  induction t generalizing s depth with
  | nil =>
      rw [scanAttrsFrom] at h
      exact hs name h
  | cons b t ih =>
      cases s with
      | between =>
          rw [scanAttrsFrom] at h
          split_ifs at h
          · cases h
          · exact ih (tagStep_sound depth b) h
      | literal q =>
          rw [scanAttrsFrom] at h
          split_ifs at h
          · exact ih (sound_of_finished_eq_nil rfl) h
          · exact ih (sound_of_finished_eq_nil rfl) h
          · exact ih (sound_of_finished_eq_nil rfl) h
      | escaped q =>
          rw [scanAttrsFrom] at h
          exact ih (sound_of_finished_eq_nil rfl) h
      | name bytes =>
          rw [scanAttrsFrom] at h
          split_ifs at h with hbyte
          · refine ih (sound_name.2 ?_) h
            rw [List.reverse_cons]
            exact (sound_name.1 hs).concat hbyte
          · exact hs name h
          · rcases List.mem_cons.1 h with rfl | h
            · exact sound_name.1 hs
            · exact ih (tagStep_sound depth b) h

/-- A listed usage is read from the head of some part of the script. -/
lemma exists_usageAtHead?_of_mem_jsxUsages (h : u ∈ jsxUsages locals code) :
    ∃ t, usageAtHead? locals t = some u := by
  rw [jsxUsages, usagesFrom_eq_filterMap List.drop_zero, List.mem_filterMap] at h
  obtain ⟨k, -, hk⟩ := h
  exact ⟨code.drop k, hk⟩

/-- **Every listed attribute has the name of one**, whatever the script holds and whatever its local
names are bound to. -/
theorem isAttributeName_of_mem_jsxUsages (h : u ∈ jsxUsages locals code) (hname : name ∈ u.props) :
    IsAttributeName name := by
  obtain ⟨t, ht⟩ := exists_usageAtHead?_of_mem_jsxUsages h
  obtain _ | ⟨b, t⟩ := t
  · cases ht
  rw [usageAtHead?] at ht
  split_ifs at ht
  obtain ⟨component, -, rfl⟩ := Option.map_eq_some_iff.1 ht
  exact isAttributeName_of_mem_scanAttrsFrom (sound_of_finished_eq_nil rfl) hname

end Script

end MiniProgram
