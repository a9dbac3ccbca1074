import MiniProgram.Proofs.Script.Replacement
import MiniProgram.Proofs.Text.Splice

/-!
Retargeting the references of a script.

Each pass looks for one form, reads the references from the last to the first and edits the script
at once. An edit leaves alone what stands before its statement, so every reference is found where it
was and reads as it did; the pass comes to the edits of all references made at once in the script it
starts from.

* `Retargeting.edits`: the edits of one form.
* `Retargeting.pass_eq`: one pass.
* `Retargeting.retargeting_at_once`: **all edits of a pass are made at once**, and a callback that
  changes nothing changes nothing and is asked about what the scan finds.
-/

namespace MiniProgram

namespace Script

/-- What the scan lists are the specifiers of the references of all forms. -/
lemma mem_scanImports_iff_references {spec code : Text} :
    spec ∈ scanImports code ↔ ∃ form, spec ∈ (references form code).map (·.spec) := by
  simp only [map_spec_references, mem_scanImports]

namespace Retargeting

variable (f : Text → Retarget) {form : ReferenceForm} {code : Text} {hit : Hit Quoted}
  {hits : List (Hit Quoted)}

/-! ### Edits -/

/-- The edit that the reference at a match calls for. -/
def edit? (form : ReferenceForm) (code : Text) (hit : Hit Quoted) : Option (ℕ × ℕ × Text) :=
  let ref := referenceAt code hit
  editFor? code form ref (f ref.spec)

/-- The edits that the references of one form call for, from left to right. -/
def edits (form : ReferenceForm) (code : Text) : List (ℕ × ℕ × Text) :=
  (formHits form code).filterMap (edit? f form code)

/-- The edits of one form are what becomes of its references. -/
lemma edits_eq_references (form : ReferenceForm) (code : Text) :
    edits f form code
      = (references form code).filterMap fun ref => editFor? code form ref (f ref.spec) := by
  rw [references, List.filterMap_map]
  rfl

/-- A match that lies in a text, with its specifier inside it. -/
structure Fits (code : Text) (hit : Hit Quoted) : Prop where
  spec : hit.found.lead + hit.found.spec.length ≤ hit.length
  statement : hit.start + hit.length ≤ code.length

lemma fits_of_mem_formHits (h : hit ∈ formHits form code) : Fits code hit where
  spec := (spec_within h).1
  statement := by
    have := Search.end_le_of_mem_hitsFrom (takes_pattern form) h
    rwa [Nat.zero_add, length_maskComments] at this

variable {f} in
/-- What an edit is: another specifier in the place of the old one, or what is left of a statement
that is dropped. -/
lemma edit?_eq_some {start length : ℕ} {new : Text}
    (h : edit? f form code hit = some (start, length, new)) :
    (f (referenceAt code hit).spec = .replace new ∧ new ≠ (referenceAt code hit).spec
        ∧ start = hit.start + hit.found.lead ∧ length = (referenceAt code hit).spec.length)
      ∨ (f (referenceAt code hit).spec = .drop ∧ form ≠ .exporting ∧ start = hit.start
        ∧ length = hit.length
        ∧ (new = keptBinding ((code.drop hit.start).take hit.length) ∨ new = "\x7b\x7d")) := by
  cases hf : f (referenceAt code hit).spec with
  | replace spec =>
      simp only [edit?, hf, editFor?] at h
      split_ifs at h with heq
      cases h
      exact Or.inl ⟨rfl, heq, rfl, rfl⟩
  | drop =>
      simp only [edit?, hf, editFor?, referenceAt_start, referenceAt_length] at h
      cases form with
      | importing => cases h; exact Or.inr ⟨rfl, nofun, rfl, rfl, Or.inl rfl⟩
      | exporting => cases h
      | requiring => cases h; exact Or.inr ⟨rfl, nofun, rfl, rfl, Or.inr rfl⟩

variable {f} in
/-- An edit stays inside the statement of its reference. -/
lemma edit?_within {start length : ℕ} {new : Text} (hfits : Fits code hit)
    (h : edit? f form code hit = some (start, length, new)) :
    hit.start ≤ start ∧ start + length ≤ hit.start + hit.length := by
  have hspec := hfits.spec
  rcases edit?_eq_some h with ⟨-, -, rfl, rfl⟩ | ⟨-, -, rfl, rfl, -⟩
  · have := List.length_take_le hit.found.spec.length (code.drop (hit.start + hit.found.lead))
    simp only [referenceAt]
    omega
  · exact ⟨le_rfl, le_rfl⟩

/-- The edits of matches that do not overlap stand one behind the other, from where the first match
starts to where the last one ends. -/
lemma ascending_edits (hpair : hits.Pairwise fun a b => a.start + a.length ≤ b.start)
    (hfits : ∀ hit ∈ hits, Fits code hit) :
    Search.Ascending (hits.filterMap (edit? f form code)) := by
  rw [Search.Ascending, List.pairwise_filterMap]
  refine hpair.imp_of_mem fun {a b} ha hb hle => ?_
  rintro ⟨start, length, new⟩ hedit ⟨start', length', new'⟩ hedit'
  have := edit?_within (hfits a ha) hedit
  have := edit?_within (hfits b hb) hedit'
  dsimp only
  omega

/-! ### A pass -/

/-- A part of a text depends on the text only up to the end of the part. -/
lemma take_drop_congr {t t' : Text} {n start length : ℕ} (h : t'.take n = t.take n)
    (hle : start + length ≤ n) : (t'.drop start).take length = (t.drop start).take length := by
  have hsub : ∀ u : Text, (u.drop start).take length = ((u.take n).drop start).take length := by
    intro u
    rw [List.drop_take, List.take_take, Nat.min_eq_left (by omega)]
  rw [hsub t', hsub t, h]

variable {code' : Text}

/-- A reference depends on the script only up to the end of its statement. -/
lemma referenceAt_congr (hfits : Fits code hit)
    (h : code'.take (hit.start + hit.length) = code.take (hit.start + hit.length)) :
    referenceAt code' hit = referenceAt code hit := by
  have hspec := hfits.spec
  rw [referenceAt, referenceAt, take_drop_congr h (by omega)]

/-- So does its edit. -/
lemma edit?_congr (form : ReferenceForm) (hfits : Fits code hit)
    (h : code'.take (hit.start + hit.length) = code.take (hit.start + hit.length)) :
    edit? f form code' hit = edit? f form code hit := by
  rw [edit?, edit?, referenceAt_congr hfits h]
  cases f (referenceAt code hit).spec with
  | replace spec => rfl
  | drop =>
      cases form with
      | importing =>
          simp only [editFor?, referenceAt_start, referenceAt_length, take_drop_congr h le_rfl]
      | exporting => rfl
      | requiring => rfl

/-- What a match names moves along with it. -/
lemma spec_referenceAt_shift (t u : Text) (hit : Hit Quoted) :
    (referenceAt (t ++ u) (Search.shift t.length hit)).spec = (referenceAt u hit).spec := by
  simp only [referenceAt, Search.shift]
  rw [Nat.add_right_comm, Nat.add_comm _ t.length, ← List.drop_drop, List.drop_left]

/-- An edit moves along with its reference. -/
lemma edit?_shift (form : ReferenceForm) (t u : Text) (hit : Hit Quoted) :
    edit? f form (t ++ u) (Search.shift t.length hit)
      = (edit? f form u hit).map fun e => (t.length + e.1, e.2) := by
  rw [edit?, edit?, spec_referenceAt_shift]
  cases f (referenceAt u hit).spec with
  | replace spec =>
      simp only [editFor?, spec_referenceAt_shift]
      split_ifs with h
      · rfl
      · simp only [referenceAt, Search.shift, Option.map_some]
        congr 2
        omega
  | drop =>
      cases form with
      | importing =>
          simp only [editFor?, referenceAt_start, referenceAt_length, Search.shift, Option.map_some]
          rw [Nat.add_comm, ← List.drop_drop, List.drop_left]
      | exporting => rfl
      | requiring =>
          simp only [editFor?, referenceAt_start, referenceAt_length, Search.shift, Option.map_some]
          rw [Nat.add_comm]

/-- A step makes the edit of its reference and asks about it. -/
lemma step_eq (hit : Hit Quoted) (s : Retargeting) :
    step f form hit s = ⟨Search.splice 0 (edit? f form s.code hit).toList s.code,
      s.asked ++ [(referenceAt s.code hit).spec]⟩ := rfl

/-- The references at matches that do not overlap, retargeted one by one from the last to the first:
that comes to all their edits made at once. -/
lemma foldr_step (hpair : hits.Pairwise fun a b => a.start + a.length ≤ b.start)
    (hfits : ∀ hit ∈ hits, Fits code hit) (asked : List Text) :
    hits.foldr (step f form) ⟨code, asked⟩
      = ⟨Search.splice 0 (hits.filterMap (edit? f form code)) code,
        asked ++ (hits.map fun hit => (referenceAt code hit).spec).reverse⟩ := by
  induction hits with
  | nil => simp [Search.splice]
  | cons hit hits ih =>
      obtain ⟨hbehind, hpair⟩ := List.pairwise_cons.1 hpair
      obtain ⟨hhit, hfits⟩ := List.forall_mem_cons.1 hfits
      have hlater : ∀ e ∈ hits.filterMap (edit? f form code), hit.start + hit.length ≤ e.1 := by
        intro e he
        obtain ⟨later, hlater, hedit⟩ := List.mem_filterMap.1 he
        exact (hbehind later hlater).trans (edit?_within (hfits later hlater) hedit).1
      -- the later edits leave the statement and what stands before it alone
      have hkept : (Search.splice 0 (hits.filterMap (edit? f form code)) code).take
          (hit.start + hit.length) = code.take (hit.start + hit.length) := by
        rw [Search.splice_eq_take_append (k := hit.start + hit.length) (by simpa using hlater),
          List.take_left' (List.length_take_of_le hhit.statement)]
      rw [List.foldr_cons, ih hpair hfits, step_eq]
      dsimp only
      rw [referenceAt_congr hhit hkept, edit?_congr f form hhit hkept, List.map_cons,
        List.reverse_cons, List.append_assoc, List.filterMap_cons]
      refine congrArg (Retargeting.mk · _) ?_
      cases hedit : edit? f form code hit with
      | none => simp [Search.splice]
      | some e =>
          obtain ⟨start, length, new⟩ := e
          obtain ⟨-, hend⟩ := edit?_within hhit hedit
          exact (Search.splice_cons (fun e he => hend.trans (hlater e he))
            (hend.trans hhit.statement)).symm

/-- **One pass.** All edits of the form are made at once in the script the pass starts from, and its
references are asked about from the last to the first. -/
theorem pass_eq (s : Retargeting) (form : ReferenceForm) :
    s.pass f form
      = ⟨Search.splice 0 (edits f form s.code) s.code,
        s.asked ++ ((references form s.code).map (·.spec)).reverse⟩ := by
  rw [references, List.map_map]
  exact foldr_step f (Search.pairwise_hitsFrom form.pattern none 0 0 (maskComments s.code))
    (fun hit hhit => fits_of_mem_formHits hhit) s.asked

@[simp] lemma pass_code (s : Retargeting) (form : ReferenceForm) :
    (s.pass f form).code = Search.splice 0 (edits f form s.code) s.code := by
  rw [pass_eq]

/-! ### Nothing changed -/

/-- Where every specifier is kept no reference calls for an edit. -/
lemma edits_replace (form : ReferenceForm) (code : Text) : edits .replace form code = [] := by
  rw [edits_eq_references, List.filterMap_eq_nil_iff]
  exact fun ref _ => if_pos rfl

/-- Where every specifier is kept a pass changes nothing. -/
lemma pass_replace (s : Retargeting) (form : ReferenceForm) :
    s.pass .replace form
      = ⟨s.code, s.asked ++ ((references form s.code).map (·.spec)).reverse⟩ := by
  rw [pass_eq, edits_replace, Search.splice]

/-- **Retargeting at once.** Whatever the callback, each pass makes the edits of its form all at
once in the script it starts from: they stand one behind the other, and what lies between them is
kept. If the callback keeps every specifier, the script stays as it is, and the specifiers asked
about are those that the scan lists. -/
theorem retargeting_at_once (f : Text → Retarget) (code : Text) :
    (∀ (s : Retargeting) (form : ReferenceForm),
      (s.pass f form).code = Search.splice 0 (edits f form s.code) s.code
        ∧ ∃ stretches rest, Search.Stretch.toEdits 0 stretches = edits f form s.code
          ∧ Search.Stretch.source stretches rest = s.code
          ∧ Search.Stretch.target stretches rest = (s.pass f form).code)
      ∧ retargetImports .replace code = code
      ∧ ∀ spec, spec ∈ retargetQueries .replace code ↔ spec ∈ scanImports code := by
  refine ⟨fun s form => ⟨pass_code f s form, ?_⟩, ?_, fun spec => ?_⟩
  · rw [pass_code]
    have hfits : ∀ hit ∈ formHits form s.code, Fits s.code hit :=
      fun hit hhit => fits_of_mem_formHits hhit
    refine Search.exists_stretches (ascending_edits f ?_ hfits) (fun _ _ => Nat.zero_le _) ?_
    · exact Search.pairwise_hitsFrom form.pattern none 0 0 (maskComments s.code)
    · intro e he
      obtain ⟨hit, hhit, hedit⟩ := List.mem_filterMap.1 he
      have hend := (edit?_within (hfits hit hhit) hedit).2.trans (hfits hit hhit).statement
      rwa [Nat.zero_add]
  · simp only [retargetImports, run, ReferenceForm.all, List.foldl_cons, List.foldl_nil,
      pass_replace]
  · rw [mem_scanImports_iff_references]
    simp only [retargetQueries, run, ReferenceForm.all, List.foldl_cons, List.foldl_nil,
      pass_replace, List.nil_append, List.mem_append, List.mem_reverse]
    constructor
    · rintro ((h | h) | h)
      exacts [⟨_, h⟩, ⟨_, h⟩, ⟨_, h⟩]
    · rintro ⟨form, h⟩
      cases form with
      | importing => exact Or.inl (Or.inl h)
      | exporting => exact Or.inl (Or.inr h)
      | requiring => exact Or.inr h

end Retargeting

end Script

end MiniProgram
