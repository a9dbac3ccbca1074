import Mathlib.Data.List.Pairwise
import MiniProgram.Text.Search

/-!
Edits of a text: spans of it, each with what is put in its place.

Edits that stand one behind the other can be made all at once, or one by one from the last to the
first. What stands between them is kept.

* `Search.splice_eq_take_append`: what stands before all edits is kept.
* `Search.splice_cons`: the first edit is made after all others.
* `Search.exists_stretches`: a text as the stretches that are kept and the spans between them.
-/

namespace MiniProgram

namespace Search

variable {edits : List (ℕ × ℕ × Text)} {position start length k : ℕ} {new t : Text}

/-! ### One behind the other -/

/-- Edits that stand one behind the other. -/
def Ascending (edits : List (ℕ × ℕ × Text)) : Prop :=
  edits.Pairwise fun e e' => e.1 + e.2.1 ≤ e'.1

lemma ascending_cons :
    Ascending ((start, length, new) :: edits)
      ↔ (∀ e ∈ edits, start + length ≤ e.1) ∧ Ascending edits := List.pairwise_cons

/-- What stands before all edits is kept. -/
lemma splice_eq_take_append (h : ∀ e ∈ edits, position + k ≤ e.1) (t : Text) :
    splice position edits t = t.take k ++ splice (position + k) edits (t.drop k) := by
  cases edits with
  | nil => rw [splice, splice, List.take_append_drop]
  | cons e edits =>
      obtain ⟨start, length, new⟩ := e
      have hstart : position + k ≤ start := h _ List.mem_cons_self
      have hkept : start - position = k + (start - (position + k)) := by omega
      rw [splice, splice, hkept, List.take_add, List.drop_drop]
      simp only [List.append_assoc, Nat.add_assoc]

/-- A text with one edit made. -/
lemma splice_singleton (start length : ℕ) (new t : Text) :
    splice 0 [(start, length, new)] t = t.take start ++ (new ++ t.drop (start + length)) := by
  rw [splice, splice, Nat.sub_zero, List.append_assoc]

/-- The first of several edits may be made when all others are made: they leave its place alone. -/
lemma splice_cons (h : ∀ e ∈ edits, start + length ≤ e.1) (hfits : start + length ≤ t.length) :
    splice 0 ((start, length, new) :: edits) t
      = splice 0 [(start, length, new)] (splice 0 edits t) := by
  have hkept : splice 0 edits t
      = t.take (start + length) ++ splice (start + length) edits (t.drop (start + length)) := by
    have hbehind : ∀ e ∈ edits, 0 + (start + length) ≤ e.1 := by simpa using h
    rw [splice_eq_take_append hbehind, Nat.zero_add]
  have hlength : (t.take (start + length)).length = start + length := List.length_take_of_le hfits
  rw [splice_singleton, hkept, List.drop_left' hlength,
    List.take_append_of_le_length (by omega), List.take_take, Nat.min_eq_left (by omega), splice,
    Nat.sub_zero, List.append_assoc]

/-! ### Stretches -/

/-- A stretch of a text that is kept, what stands behind it, and what is put in the place of
that. -/
structure Stretch (β : Type) where
  kept : List β
  old : List β
  new : List β

namespace Stretch

variable {β : Type}

/-- The text that stretches stand for, with what follows the last. -/
def source (stretches : List (Stretch β)) (rest : List β) : List β :=
  (stretches.flatMap fun s => s.kept ++ s.old) ++ rest

/-- The text in which the old parts of the stretches are replaced. -/
def target (stretches : List (Stretch β)) (rest : List β) : List β :=
  (stretches.flatMap fun s => s.kept ++ s.new) ++ rest

variable (s : Stretch β) (stretches : List (Stretch β)) (rest : List β)

@[simp] lemma source_nil : source [] rest = rest := rfl

@[simp] lemma target_nil : target [] rest = rest := rfl

@[simp] lemma source_cons :
    source (s :: stretches) rest = s.kept ++ (s.old ++ source stretches rest) := by
  simp [source]

@[simp] lemma target_cons :
    target (s :: stretches) rest = s.kept ++ (s.new ++ target stretches rest) := by
  simp [target]

/-- The edits that replace the old parts of stretches, the first of which begins at a position. -/
def toEdits : (position : ℕ) → List (Stretch UInt8) → List (ℕ × ℕ × Text)
  | _, [] => []
  | position, s :: stretches =>
    (position + s.kept.length, s.old.length, s.new)
      :: toEdits (position + s.kept.length + s.old.length) stretches

/-- The spans of the old parts of stretches, the first of which begins at a position. -/
def spans : (position : ℕ) → List (Stretch β) → List (ℕ × ℕ)
  | _, [] => []
  | position, s :: stretches =>
    (position + s.kept.length, s.old.length)
      :: spans (position + s.kept.length + s.old.length) stretches

/-- A stretch whose old part has been replaced. -/
def made : Stretch β := ⟨s.kept, s.new, s.new⟩

lemma source_map_made : source (stretches.map made) rest = target stretches rest := by
  induction stretches with
  | nil => rfl
  | cons s stretches ih => rw [List.map_cons, source_cons, ih, target_cons, made]

/-- The old parts of stretches are what their edits take out of the text. -/
lemma map_old (pre : Text) (stretches : List (Stretch UInt8)) (rest : Text) :
    stretches.map (·.old)
      = (toEdits pre.length stretches).map fun e =>
        ((pre ++ source stretches rest).drop e.1).take e.2.1 := by
  induction stretches generalizing pre with
  | nil => rfl
  | cons s stretches ih =>
      have hkept : (pre ++ s.kept).length = pre.length + s.kept.length := List.length_append
      have hold : (pre ++ s.kept ++ s.old).length = pre.length + s.kept.length + s.old.length := by
        rw [List.length_append, hkept]
      have hsplit : pre ++ source (s :: stretches) rest
          = pre ++ s.kept ++ (s.old ++ source stretches rest) := by
        rw [source_cons, List.append_assoc]
      rw [List.map_cons, ih (pre ++ s.kept ++ s.old), hold, toEdits, List.map_cons, hsplit,
        List.drop_left' hkept, List.take_left, List.append_assoc (pre ++ s.kept)]

end Stretch

/-- **Edits as stretches.** A text is made of the spans of its edits and of the stretches between
them; the edits put new parts in the place of the spans, and each stretch is kept. -/
lemma exists_stretches (hedits : Ascending edits) (hfrom : ∀ e ∈ edits, position ≤ e.1)
    (hto : ∀ e ∈ edits, e.1 + e.2.1 ≤ position + t.length) :
    ∃ stretches rest, Stretch.toEdits position stretches = edits
      ∧ Stretch.source stretches rest = t
      ∧ Stretch.target stretches rest = splice position edits t := by
  induction edits generalizing position t with
  | nil => exact ⟨[], t, rfl, rfl, rfl⟩
  | cons e edits ih =>
      obtain ⟨start, length, new⟩ := e
      obtain ⟨hbehind, hedits⟩ := ascending_cons.1 hedits
      have hstart : position ≤ start := hfrom _ List.mem_cons_self
      have hend : start + length ≤ position + t.length := hto _ List.mem_cons_self
      obtain ⟨stretches, rest, hspans, hsource, htarget⟩ := ih hedits hbehind
        (t := t.drop (start - position + length)) fun e he => by
          have := hto e (List.mem_cons_of_mem _ he)
          rw [List.length_drop]
          omega
      have hkept : (t.take (start - position)).length = start - position :=
        List.length_take_of_le (by omega)
      have hold : ((t.drop (start - position)).take length).length = length :=
        List.length_take_of_le (by rw [List.length_drop]; omega)
      refine ⟨⟨t.take (start - position), (t.drop (start - position)).take length, new⟩
        :: stretches, rest, ?_, ?_, ?_⟩
      · rw [Stretch.toEdits, hkept, hold, Nat.add_sub_cancel' hstart, hspans]
      · rw [Stretch.source_cons, hsource, ← List.drop_drop, List.take_append_drop,
          List.take_append_drop]
      · rw [Stretch.target_cons, htarget, splice, List.append_assoc]

end Search

end MiniProgram
