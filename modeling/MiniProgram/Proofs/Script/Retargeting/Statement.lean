import MiniProgram.Proofs.Script.Marked

/-!
One statement and what retargeting makes of it.

A statement whose reference gets another specifier is a statement of the same form again. What is
left of one that is dropped, the default binding or an empty object, holds no end of a reference.

* `Retargeting.landed`: what a reference names afterwards.
* `Retargeting.Piece`: a stretch of a script that is kept and the statement behind it, with its
  edit.
* `Retargeting.Sound.specs_restated`: **a statement after its edit** names what its reference is
  retargeted to.
-/

namespace MiniProgram

namespace Script

open Text Marked

namespace Retargeting

variable {f : Text → Retarget} {form : ReferenceForm}

/-! ### What a reference names afterwards -/

/-- What a reference names after retargeting, or nothing if it is dropped. A re-export is never
dropped. -/
def landed (f : Text → Retarget) (form : ReferenceForm) (spec : Text) : Option Text :=
  match f spec with
  | .replace new => some new
  | .drop => if form = .exporting then some spec else none

/-- A reference calls for no edit if it names the same afterwards. -/
lemma edit?_eq_none_iff {code : Text} {hit : Hit Quoted} :
    edit? f form code hit = none
      ↔ landed f form (referenceAt code hit).spec = some (referenceAt code hit).spec := by
  rw [edit?, landed]
  cases f (referenceAt code hit).spec with
  | replace spec =>
      simp only [editFor?]
      split_ifs with h
      · simp [h]
      · simp [h]
  | drop =>
      cases form with
      | importing => simp [editFor?]
      | exporting => simp [editFor?]
      | requiring => simp [editFor?]

/-! ### What is left of a dropped statement -/

lemma isIdent_of_mem_defaultBinding {statement name : Text}
    (h : defaultBinding? statement = some name) : ∀ b ∈ name, Byte.isIdent b = true := by
  obtain ⟨spaced, -, h⟩ := Option.bind_eq_some_iff.1 h
  obtain ⟨-, h⟩ := Option.ite_none_left_eq_some.1 h
  obtain rfl := Option.some.inj h
  exact fun b hb => List.mem_takeWhile_imp hb

/-- The binding that is kept holds no end of a reference, and behind it a word may start. -/
lemma keptBinding_inert (statement : Text) :
    (∀ b ∈ keptBinding statement, endsReference b = false)
      ∧ atWordStart (keptBinding statement).getLast? = true := by
  rw [keptBinding]
  cases h : defaultBinding? statement with
  | none => exact ⟨nofun, rfl⟩
  | some name =>
      constructor
      · intro b hb
        rcases List.mem_append.1 hb with hb | hb
        · rcases List.mem_append.1 hb with hb | hb
          · exact (by decide : ∀ b ∈ ("var " : Text), endsReference b = false) b hb
          · exact endsReference_of_isIdent (isIdent_of_mem_defaultBinding h b hb)
        · exact (by decide : ∀ b ∈ (" = \x7b\x7d" : Text), endsReference b = false) b hb
      · rw [List.getLast?_append_of_ne_nil _ (by decide)]
        rfl

/-! ### Statements -/

/-- A stretch of a script that is kept and the statement of a reference behind it, with its edit:
where in the statement the edit begins, how many bytes it takes and what is put in their place. -/
structure Piece where
  kept : Marked
  statement : Marked
  found : Quoted
  start : ℕ
  length : ℕ
  new : Text

namespace Piece

variable (p : Piece)

/-- The match at the statement, in the statement. -/
def hit : Hit Quoted := ⟨0, p.statement.length, p.found⟩

/-- The statement after its edit. -/
def restated : Marked :=
  p.statement.take p.start ++ (ofText p.new ++ p.statement.drop (p.start + p.length))

/-- The stretch of the script, with the statement after its edit. -/
def stretch : Search.Stretch (UInt8 × UInt8) := ⟨p.kept, p.statement, p.restated⟩

/-- What the reference names. -/
def spec : Text := (referenceAt p.statement.raw p.hit).spec

end Piece

/-- The statement is one of the form, where a word may start, and the edit is its edit. -/
structure Sound (f : Text → Retarget) (form : ReferenceForm) (p : Piece) : Prop where
  covers : form.Covers p.statement.masked p.found
  word : atWordStart p.kept.masked.getLast? = true
  edit : edit? f form p.statement.raw p.hit = some (p.start, p.length, p.new)

variable {p : Piece}

/-- A text that is one reference names its specifier only. -/
lemma specs_of_covers {z : Marked} {q : Quoted} (h : form.Covers z.masked q) :
    specs form z = [(referenceAt z.raw ⟨0, z.length, q⟩).spec] := by
  rw [specs, Search.hits_eq_singleton (takes_pattern form) h.ne_nil h, length_masked,
    List.map_singleton]

/-- A text without an end of a reference names nothing. -/
lemma specs_ofText {t : Text} (h : ∀ b ∈ t, endsReference b = false) (form : ReferenceForm) :
    specs form (ofText t) = [] := by
  have hread := hitsFrom_map_spec form.pattern (ofText t).raw none 0 0 (ofText t).masked
  rw [masked_ofText, readFrom_eq_nil h] at hread
  rw [specs, masked_ofText]
  exact hread

namespace Sound

lemma fits (h : Sound f form p) : Fits p.statement.raw p.hit where
  spec := by
    have := h.covers.lead_add_length_le
    rwa [length_masked] at this
  statement := by rw [length_raw, Piece.hit, Nat.zero_add]

/-- The edit stays inside the statement. -/
lemma within (h : Sound f form p) : p.start + p.length ≤ p.statement.length := by
  have := (edit?_within h.fits h.edit).2
  rwa [Piece.hit, Nat.zero_add] at this

lemma length_restated (h : Sound f form p) :
    p.restated.length = p.statement.length - p.length + p.new.length := by
  have hwithin := h.within
  have hnew : (ofText p.new).length = p.new.length := List.length_map _
  rw [Piece.restated, List.length_append, List.length_append, List.length_take, List.length_drop,
    hnew]
  omega

/-- The statement names its specifier. -/
lemma specs_statement (h : Sound f form p) : specs form p.statement = [p.spec] :=
  specs_of_covers h.covers

/-- What is left of a dropped statement. -/
lemma exists_left (h : Sound f form p) (hdrop : f p.spec = .drop) :
    p.restated = ofText p.new ∧ form ≠ .exporting ∧ (∀ b ∈ p.new, endsReference b = false)
      ∧ atWordStart p.new.getLast? = true := by
  rcases edit?_eq_some h.edit with ⟨hreplace, -⟩ | ⟨-, hform, hstart, hlength, hnew⟩
  · rw [Piece.spec] at hdrop
    rw [hdrop] at hreplace
    cases hreplace
  · have hrestated : p.restated = ofText p.new := by
      rw [Piece.restated, hstart, hlength, Piece.hit, List.take_zero, List.nil_append, Nat.zero_add,
        List.drop_length, List.append_nil]
    refine ⟨hrestated, hform, ?_⟩
    rcases hnew with hnew | hnew <;> rw [hnew]
    · exact keptBinding_inert _
    · exact ⟨by decide, by decide⟩

/-- The statement with another specifier. -/
lemma exists_respelled (h : Sound f form p) (hdrop : f p.spec ≠ .drop) :
    f p.spec = .replace p.new ∧ p.new ≠ p.spec ∧ (IsSpec p.new →
      form.Covers p.restated.masked ⟨p.found.lead, p.new⟩
        ∧ (referenceAt p.restated.raw ⟨0, p.restated.length, ⟨p.found.lead, p.new⟩⟩).spec
          = p.new) := by
  rcases edit?_eq_some h.edit with ⟨hreplace, hne, hstart, hlength⟩ | ⟨hdrop', -⟩
  · refine ⟨hreplace, hne, fun hspec => ?_⟩
    have hinside := h.covers.lead_add_length_le
    rw [length_masked] at hinside
    have hstart : p.start = p.found.lead := by rw [hstart, Piece.hit, Nat.zero_add]
    have hlength : p.length = p.found.spec.length := by
      rw [hlength, referenceAt, Piece.hit]
      dsimp only
      rw [Nat.zero_add, List.length_take, List.length_drop, length_raw]
      omega
    constructor
    · rw [Piece.restated, masked_append, masked_append, masked_take, masked_drop, masked_ofText,
        hstart, hlength]
      exact h.covers.respell hspec
    · have htake : (raw (p.statement.take p.start)).length = p.found.lead := by
        rw [length_raw, List.length_take, hstart]
        omega
      rw [referenceAt, Piece.restated, raw_append, raw_append, raw_ofText]
      dsimp only
      rw [Nat.zero_add, List.drop_left' htake, List.take_left]
  · exact absurd hdrop' hdrop

/-- **A statement after its edit** names what its reference is retargeted to, and behind it a word
may start. -/
theorem specs_restated (h : Sound f form p)
    (hspec : ∀ new, f p.spec = .replace new → new = p.spec ∨ IsSpec new) :
    specs form p.restated = (landed f form p.spec).toList
      ∧ atWordStart p.restated.masked.getLast? = true := by
  by_cases hdrop : f p.spec = .drop
  · obtain ⟨hrestated, hform, hinert, hword⟩ := h.exists_left hdrop
    rw [hrestated, landed, hdrop, masked_ofText]
    exact ⟨by simp [specs_ofText hinert, hform], hword⟩
  · obtain ⟨hreplace, hne, hrespelled⟩ := h.exists_respelled hdrop
    obtain ⟨hcovers, hnew⟩ := hrespelled ((hspec _ hreplace).resolve_left hne)
    rw [specs_of_covers hcovers, hnew, landed, hreplace]
    exact ⟨rfl, hcovers.wordStart⟩

end Sound

end Retargeting

end Script

end MiniProgram
