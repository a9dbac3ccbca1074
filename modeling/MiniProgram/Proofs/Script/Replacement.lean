import MiniProgram.Proofs.Script.Scan
import MiniProgram.Proofs.Text.Parts

/-!
The references of a script in which one part is replaced.

A reference is recognised by its own bytes, so one that lies outside the part that is replaced
stays, and is moved along with what follows the part. New references can only come in where they
meet the new part, and where none of the others runs over its ends, the scan finds the same
specifiers in the same order.

* `Replacement.forall₂_outside`: **the references outside the part stay.**
* `Replacement.scanImports_eq_of_forall₂`: references that all stay give the same scan.
* `Replacement.scanImports_result`, `Replacement.mem_scanImports_source`: a part without references,
  and a part with references in it.
-/

namespace MiniProgram

namespace Script

open Text

/-! ### Places of references -/

/-- Whether two spans share a position. -/
def Meets (start length start' length' : ℕ) : Prop :=
  start < start' + length' ∧ start' < start + length

instance (start length start' length' : ℕ) : Decidable (Meets start length start' length') :=
  inferInstanceAs (Decidable (_ ∧ _))

/-- Where the specifier of a match starts. -/
def specStart (hit : Hit Quoted) : ℕ := hit.start + hit.found.lead

/-- The place of the specifier of a match and what a text has there. -/
def siteOf (t : Text) (hit : Hit Quoted) : ℕ × Text :=
  (specStart hit, (t.drop (specStart hit)).take hit.found.spec.length)

/-- The matches of a form in a script outside comments. -/
def formHits (form : ReferenceForm) (code : Text) : List (Hit Quoted) :=
  Search.hits form.pattern (maskComments code)

/-- The specifiers of all forms with their places. -/
def sites (code : Text) : List (ℕ × Text) :=
  ReferenceForm.all.flatMap fun form => (formHits form code).map (siteOf code)

lemma takes_pattern (form : ReferenceForm) : Search.Takes form.pattern form.Covers :=
  fun _ _ _ _ => pattern_eq_some

/-- The specifier of a match lies inside it. -/
lemma spec_within {form : ReferenceForm} {before : Option UInt8} {position skip : ℕ} {t : Text}
    {hit : Hit Quoted} (h : hit ∈ Search.hitsFrom form.pattern before position skip t) :
    hit.found.lead + hit.found.spec.length ≤ hit.length ∧ 0 < hit.found.spec.length := by
  obtain ⟨before', t', hfound⟩ := Search.exists_of_mem_hitsFrom h
  obtain ⟨-, text, -, -, hlength, hcovers⟩ := pattern_eq_some.1 hfound
  exact ⟨hlength ▸ hcovers.lead_add_length_le, List.length_pos_iff.2 hcovers.isSpec.1⟩

/-- A reference ends, in the script too, with its closing quote or its parenthesis. -/
lemma exists_last_of_mem_references {form : ReferenceForm} {code : Text} {ref : Reference}
    (h : ref ∈ references form code) :
    ∃ b, code[ref.start + (ref.length - 1)]? = some b ∧ endsReference b = true
      ∧ 0 < ref.length := by
  obtain ⟨hit, hhit, rfl⟩ := List.mem_map.1 h
  obtain ⟨pre, u, hmask, hstart, hfound⟩ := Search.exists_split_of_mem_hitsFrom hhit
  obtain ⟨-, text, rest, rfl, hlength, hcovers⟩ := pattern_eq_some.1 hfound
  obtain ⟨init, e, rfl, he⟩ := hcovers.exists_last
  have hindex : hit.start + (hit.length - 1) = pre.length + init.length := by
    rw [hstart, hlength, List.length_append, List.length_singleton]
    omega
  have hmasked : (maskComments code)[pre.length + init.length]? = some e := by
    rw [hmask, List.getElem?_append_right (by omega), Nat.add_sub_cancel_left, List.append_assoc,
      List.getElem?_append_right (le_refl _), Nat.sub_self]
    rfl
  rw [maskComments_eq_maskFrom, maskFrom, List.getElem?_map, Option.map_eq_some_iff] at hmasked
  obtain ⟨⟨b, class'⟩, hbyte, hmasked⟩ := hmasked
  have hcode : code[pre.length + init.length]? = some b := by
    conv_lhs => rw [← map_fst_classifyFrom .code code]
    rw [List.getElem?_map, hbyte, Option.map_some]
  rw [referenceAt_start, referenceAt_length, hindex]
  refine ⟨b, hcode, ?_, ?_⟩
  · -- masked, a byte stays or becomes a space, and a reference ends with none
    rcases maskByte_eq_or b class' with heq | heq
    · rwa [← heq, hmasked]
    · rw [← hmasked, heq] at he
      cases he
  · rw [hlength]
    simp

/-- The scan lists the specifiers by their places. -/
lemma scanImports_eq (code : Text) :
    scanImports code
      = (((sites code).mergeSort fun a b => a.1 ≤ b.1).map Prod.snd).eraseDups := by
  have hsites : sites code = (ReferenceForm.all.flatMap (references · code)).map
      fun ref => (ref.specStart, ref.spec) := by
    rw [sites, List.map_flatMap]
    refine List.flatMap_congr fun form _ => ?_
    rw [references, List.map_map]
    rfl
  rw [scanImports, hsites,
    ← List.map_mergeSort (r := fun a b : Reference => decide (a.specStart ≤ b.specStart))
      (fun _ _ _ _ => rfl), List.map_map]
  rfl

lemma mem_scanImports_iff {spec code : Text} :
    spec ∈ scanImports code
      ↔ ∃ form, ∃ hit ∈ formHits form code, (siteOf code hit).2 = spec := by
  rw [scanImports_eq, List.mem_eraseDups, List.mem_map]
  simp only [List.mem_mergeSort, sites, List.mem_flatMap, List.mem_map]
  constructor
  · rintro ⟨_, ⟨form, -, hit, hhit, rfl⟩, rfl⟩
    exact ⟨form, hit, hhit, rfl⟩
  · rintro ⟨form, hit, hhit, rfl⟩
    exact ⟨_, ⟨form, by cases form <;> decide, hit, hhit, rfl⟩, rfl⟩

/-! ### References and spans -/

/-- No match of a form runs over an end of a span. -/
def NoneAcross (form : ReferenceForm) (code : Text) (start length : ℕ) : Prop :=
  ∀ hit ∈ formHits form code, Meets hit.start hit.length start length →
    start ≤ hit.start ∧ hit.start + hit.length ≤ start + length

/-- No reference of a script meets a span. -/
def NoneMeets (code : Text) (start length : ℕ) : Prop :=
  ∀ form, ∀ ref ∈ references form code, ¬ Meets ref.start ref.length start length

lemma NoneMeets.not_meets {form : ReferenceForm} {code : Text} {start length : ℕ}
    (h : NoneMeets code start length) :
    ∀ hit ∈ formHits form code, ¬ Meets hit.start hit.length start length := by
  have h := h form
  rwa [references, List.forall_mem_map] at h

lemma NoneMeets.noneAcross {code : Text} {start length : ℕ} (h : NoneMeets code start length)
    (form : ReferenceForm) : NoneAcross form code start length :=
  fun hit hhit hmeets => absurd hmeets (h.not_meets hit hhit)

/-- What the references of a form that meet a span name. -/
lemma exists_reference_iff {form : ReferenceForm} {code spec : Text} {start length : ℕ} :
    (∃ ref ∈ references form code, Meets ref.start ref.length start length ∧ ref.spec = spec)
      ↔ ∃ hit ∈ formHits form code, Meets hit.start hit.length start length
        ∧ (siteOf code hit).2 = spec := by
  rw [references]
  simp only [List.mem_map, exists_exists_and_eq_and]
  rfl

/-! ### Replacing a part -/

/-- A script in which one part is replaced: what stands before the part, the part, what is put in
its place, and what follows. -/
structure Replacement where
  pre : Text
  old : Text
  new : Text
  post : Text

/-- A part that completes no mark of a comment, and behind which a word may start. -/
structure CutsClean (part : Text) : Prop where
  ne_nil : part ≠ []
  slash : part.head? ≠ some Byte.slash
  star : part.head? ≠ some Byte.star
  wordStart : atWordStart part.getLast? = true

namespace Replacement

variable (c : Replacement)

/-- The script before the replacement. -/
def source : Text := c.pre ++ (c.old ++ c.post)

/-- The script after the replacement. -/
def result : Text := c.pre ++ (c.new ++ c.post)

/-- What follows the part is masked as before. -/
def MaskedAlike : Prop :=
  (maskComments c.result).drop (c.pre.length + c.new.length)
    = (maskComments c.source).drop (c.pre.length + c.old.length)

/-- The same match before and after the replacement: its specifier stands before the part, or behind
it and is moved along. -/
def Moved (hit hit' : Hit Quoted) : Prop :=
  hit'.found.spec.length = hit.found.spec.length ∧ 0 < hit.found.spec.length
    ∧ (specStart hit + hit.found.spec.length ≤ c.pre.length ∧ specStart hit' = specStart hit
      ∨ c.pre.length + c.old.length ≤ specStart hit
        ∧ specStart hit' + c.old.length = specStart hit + c.new.length)

/-- Where a place comes to lie. -/
def move (place : ℕ) : ℕ :=
  if place < c.pre.length then place else place + c.new.length - c.old.length

variable {c} {form : ReferenceForm} {hit hit' : Hit Quoted}

/-- The specifier of a match that stays is the same. -/
lemma Moved.siteOf_eq (h : c.Moved hit hit') :
    siteOf c.result hit' = Prod.map c.move id (siteOf c.source hit) := by
  obtain ⟨hspec, hpos, ⟨hbefore, hstart⟩ | ⟨hbehind, hstart⟩⟩ := h
  · have hmove : c.move (specStart hit) = specStart hit := if_pos (by omega)
    rw [siteOf, siteOf, Prod.map_apply, hmove, hstart, hspec, source, result,
      List.drop_append_of_le_length (by omega), List.drop_append_of_le_length (by omega),
      List.take_append_of_le_length (by rw [List.length_drop]; omega),
      List.take_append_of_le_length (by rw [List.length_drop]; omega)]
    rfl
  · obtain ⟨k, hk⟩ := Nat.exists_eq_add_of_le hbehind
    have hk' : specStart hit' = c.pre.length + c.new.length + k := by omega
    have hmove : c.move (specStart hit) = specStart hit' := by
      rw [move, if_neg (by omega)]
      omega
    have hsource : c.source.drop (specStart hit) = c.post.drop k := by
      rw [hk, source, ← List.drop_drop, ← List.append_assoc, ← List.length_append, List.drop_left]
    have hresult : c.result.drop (specStart hit') = c.post.drop k := by
      rw [hk', result, ← List.drop_drop, ← List.append_assoc, ← List.length_append, List.drop_left]
    rw [siteOf, siteOf, Prod.map_apply, hmove, hspec, hsource, hresult]
    rfl

lemma map_siteOf_of_forall₂ {hits hits' : List (Hit Quoted)} (h : List.Forall₂ c.Moved hits hits') :
    hits'.map (siteOf c.result) = (hits.map (siteOf c.source)).map (Prod.map c.move id) := by
  induction h with
  | nil => rfl
  | cons hmoved _ ih => rw [List.map_cons, List.map_cons, List.map_cons, hmoved.siteOf_eq, ih]

/-- No place of a specifier that stays lies in the part. -/
lemma place_of_forall₂ {hits hits' : List (Hit Quoted)} (h : List.Forall₂ c.Moved hits hits') :
    ∀ hit ∈ hits, specStart hit < c.pre.length
      ∨ c.pre.length + c.old.length ≤ specStart hit := by
  induction h with
  | nil => nofun
  | cons hmoved _ ih =>
      refine List.forall_mem_cons.2 ⟨?_, ih⟩
      obtain ⟨-, hpos, ⟨hbefore, -⟩ | ⟨hbehind, -⟩⟩ := hmoved
      · exact Or.inl (by omega)
      · exact Or.inr hbehind

/-- **References that all stay.** The scan finds the same specifiers in the same order. -/
theorem scanImports_eq_of_forall₂
    (h : ∀ form, List.Forall₂ c.Moved (formHits form c.source) (formHits form c.result)) :
    scanImports c.result = scanImports c.source := by
  have hsites : sites c.result = (sites c.source).map (Prod.map c.move id) := by
    rw [sites, sites, List.map_flatMap]
    exact List.flatMap_congr fun form _ => map_siteOf_of_forall₂ (h form)
  have hplace : ∀ site ∈ sites c.source,
      site.1 < c.pre.length ∨ c.pre.length + c.old.length ≤ site.1 := by
    intro site hsite
    obtain ⟨form, -, hsite⟩ := List.mem_flatMap.1 hsite
    obtain ⟨hit, hhit, rfl⟩ := List.mem_map.1 hsite
    exact place_of_forall₂ (h form) hit hhit
  have horder : ∀ a ∈ sites c.source, ∀ b ∈ sites c.source,
      decide (a.1 ≤ b.1) = decide ((Prod.map c.move id a).1 ≤ (Prod.map c.move id b).1) := by
    intro a ha b hb
    have hmove : a.1 ≤ b.1 ↔ c.move a.1 ≤ c.move b.1 := by
      have hpa := hplace a ha
      have hpb := hplace b hb
      rw [move, move]
      split_ifs <;> omega
    exact decide_eq_decide.2 hmove
  rw [scanImports_eq, scanImports_eq, hsites, ← List.map_mergeSort horder, List.map_map]
  rfl

/-! ### References outside the part -/

/-- The last byte of a masked part begins no word, if that of the part does not. -/
lemma atWordStart_take_maskFrom {part : Text} (h : atWordStart part.getLast? = true) (s : Lexer)
    (u : Text) : atWordStart ((maskFrom s (part ++ u)).take part.length).getLast? = true := by
  induction part generalizing s with
  | nil => rfl
  | cons b part ih =>
      rw [List.cons_append, maskFrom_cons, List.length_cons, List.take_succ_cons]
      cases part with
      | nil =>
          rcases maskByte_eq_or b (s.step b ([] ++ u).head?).2 with heq | heq <;>
            rw [List.length_nil, List.take_zero, heq]
          · exact h
          · rfl
      | cons d part =>
          have ih := ih (by rwa [List.getLast?_cons_cons] at h) (s.step b (d :: part ++ u).head?).1
          rw [List.cons_append, maskFrom_cons, List.length_cons, List.take_succ_cons] at ih ⊢
          rwa [List.getLast?_cons_cons]

/-- A masked script around a part of it. -/
lemma exists_masked_part {part : Text} (h : CutsClean part) (pre post : Text) :
    ∃ m, maskComments (pre ++ (part ++ post))
        = maskFrom .code pre
          ++ (m ++ (maskComments (pre ++ (part ++ post))).drop (pre.length + part.length))
      ∧ m.length = part.length ∧ atWordStart m.getLast? = true := by
  have hhead : (part ++ post).head? = part.head? := List.head?_append_of_ne_nil _ h.ne_nil
  have hmask : maskComments (pre ++ (part ++ post))
      = maskFrom .code pre ++ maskFrom (Lexer.over .code pre) (part ++ post) := by
    rw [maskComments_eq_maskFrom]
    exact maskFrom_append (hhead ▸ h.slash) (hhead ▸ h.star) _ _
  refine ⟨(maskFrom (Lexer.over .code pre) (part ++ post)).take part.length, ?_, by simp,
    atWordStart_take_maskFrom h.wordStart _ _⟩
  have hdrop : (maskComments (pre ++ (part ++ post))).drop (pre.length + part.length)
      = (maskFrom (Lexer.over .code pre) (part ++ post)).drop part.length := by
    rw [hmask, ← List.drop_drop, ← length_maskFrom .code pre, List.drop_left]
  rw [hdrop, List.take_append_drop, hmask]

/-- The matches outside a part that none of them runs over an end of: those before it and those
behind it. -/
lemma filter_outside {form : ReferenceForm} {x m y : Text} (hne : m ≠ [])
    (hword : atWordStart m.getLast? = true)
    (hcross : ∀ hit ∈ Search.hits form.pattern (x ++ (m ++ y)),
      Meets hit.start hit.length x.length m.length →
        x.length ≤ hit.start ∧ hit.start + hit.length ≤ x.length + m.length) :
    (Search.hits form.pattern (x ++ (m ++ y))).filter
        (fun hit => ¬ Meets hit.start hit.length x.length m.length)
      = Search.hits form.pattern x
        ++ (Search.hits form.pattern y).map (Search.shift (x.length + m.length)) := by
  have hr := takes_pattern form
  -- the search in three parts, cut at both ends of the middle one
  have hx : Search.hits form.pattern (x ++ (m ++ y)) = Search.hits form.pattern x
      ++ Search.hitsFrom form.pattern (x.getLast?.or none) x.length 0 (m ++ y) := by
    rw [Search.hits, Search.hitsFrom_append hr (Nat.zero_le _), Nat.zero_add]
    · rfl
    · intro hit hhit hstart
      have := hcross hit hhit
      rw [Meets] at this
      omega
  have hm : Search.hitsFrom form.pattern (x.getLast?.or none) x.length 0 (m ++ y)
      = Search.hitsFrom form.pattern (x.getLast?.or none) x.length 0 m
        ++ (Search.hits form.pattern y).map (Search.shift (x.length + m.length)) := by
    rw [Search.hitsFrom_append hr (Nat.zero_le _)]
    · have hstart : atWordStart (m.getLast?.or (x.getLast?.or none)) = atWordStart none := by
        rw [List.getLast?_eq_getLast_of_ne_nil hne] at hword ⊢
        exact hword
      rw [Search.hits, ← Search.hitsFrom_shift, Nat.zero_add, Search.hitsFrom_congr hr hstart]
    · intro hit hhit hstart
      have hle := Search.le_start_of_mem_hitsFrom hhit
      have := hcross hit (hx ▸ List.mem_append_right _ hhit)
      rw [Meets] at this
      omega
  -- the filter drops the matches of the middle part and keeps the others
  rw [hx, hm, List.filter_append, List.filter_append, List.filter_eq_self.2,
    List.filter_eq_nil_iff.2, List.filter_eq_self.2, List.nil_append]
  · intro hit hhit
    obtain ⟨hit, -, rfl⟩ := List.mem_map.1 hhit
    refine decide_eq_true ?_
    simp only [Meets, Search.shift]
    omega
  · intro hit hhit
    have hle := Search.le_start_of_mem_hitsFrom hhit
    have hend := Search.end_le_of_mem_hitsFrom hr hhit
    have hwithin := spec_within hhit
    rw [decide_eq_true_eq, Meets]
    omega
  · intro hit hhit
    have hend := Search.end_le_of_mem_hitsFrom hr hhit
    rw [decide_eq_true_eq, Meets]
    omega

/-- A match that ends before the part stays. -/
lemma moved_before {before : Option UInt8} {position skip : ℕ} {t : Text}
    (h : hit ∈ Search.hitsFrom form.pattern before position skip t)
    (hend : hit.start + hit.length ≤ c.pre.length) : c.Moved hit hit := by
  obtain ⟨hspec, hpos⟩ := spec_within h
  refine ⟨rfl, hpos, Or.inl ⟨?_, rfl⟩⟩
  rw [specStart]
  omega

/-- The matches behind the part stay. -/
lemma forall₂_behind (before : Option UInt8) (skip : ℕ) (y : Text) :
    List.Forall₂ c.Moved
      ((Search.hitsFrom form.pattern before 0 skip y).map
        (Search.shift (c.pre.length + c.old.length)))
      ((Search.hitsFrom form.pattern before 0 skip y).map
        (Search.shift (c.pre.length + c.new.length))) := by
  rw [List.forall₂_map_left_iff, List.forall₂_map_right_iff]
  refine List.forall₂_same.2 fun hit hhit => ⟨rfl, (spec_within hhit).2, Or.inr ?_⟩
  simp only [specStart, Search.shift]
  omega

/-- **References outside the part.** Where no reference runs over an end of the part, old or new,
the references outside it stay. -/
theorem forall₂_outside (hold : CutsClean c.old) (hnew : CutsClean c.new) (hmask : c.MaskedAlike)
    (hsource : NoneAcross form c.source c.pre.length c.old.length)
    (hresult : NoneAcross form c.result c.pre.length c.new.length) :
    List.Forall₂ c.Moved
      ((formHits form c.source).filter
        fun hit => ¬ Meets hit.start hit.length c.pre.length c.old.length)
      ((formHits form c.result).filter
        fun hit => ¬ Meets hit.start hit.length c.pre.length c.new.length) := by
  obtain ⟨m, hm, hmlength, hmword⟩ := exists_masked_part hold c.pre c.post
  obtain ⟨m', hm', hmlength', hmword'⟩ := exists_masked_part hnew c.pre c.post
  rw [← source] at hm
  rw [← result, hmask] at hm'
  set x := maskFrom .code c.pre
  set y := (maskComments c.source).drop (c.pre.length + c.old.length)
  have hx : x.length = c.pre.length := length_maskFrom _ _
  have hne : m ≠ [] := List.length_pos_iff.1 (hmlength ▸ List.length_pos_iff.2 hold.ne_nil)
  have hne' : m' ≠ [] := List.length_pos_iff.1 (hmlength' ▸ List.length_pos_iff.2 hnew.ne_nil)
  rw [NoneAcross, formHits, hm, ← hx, ← hmlength] at hsource
  rw [NoneAcross, formHits, hm', ← hx, ← hmlength'] at hresult
  rw [formHits, formHits, hm, hm', ← hx, ← hmlength, ← hmlength', filter_outside hne hmword hsource,
    filter_outside hne' hmword' hresult]
  refine List.rel_append ?_ ?_
  · refine List.forall₂_same.2 fun hit hhit => moved_before hhit ?_
    have hend := Search.end_le_of_mem_hitsFrom (takes_pattern form) hhit
    omega
  · rw [hx, hmlength, hmlength']
    exact forall₂_behind none 0 y

/-! ### The scan -/

/-- **A part without references.** Where no reference meets the part, old or new, the scan finds the
same specifiers in the same order. -/
theorem scanImports_result (hold : CutsClean c.old) (hnew : CutsClean c.new) (hmask : c.MaskedAlike)
    (hsource : NoneMeets c.source c.pre.length c.old.length)
    (hresult : NoneMeets c.result c.pre.length c.new.length) :
    scanImports c.result = scanImports c.source := by
  refine scanImports_eq_of_forall₂ fun form => ?_
  have h := forall₂_outside hold hnew hmask (hsource.noneAcross form) (hresult.noneAcross form)
  rwa [List.filter_eq_self.2 fun hit hhit => decide_eq_true (hsource.not_meets hit hhit),
    List.filter_eq_self.2 fun hit hhit => decide_eq_true (hresult.not_meets hit hhit)] at h

/-- **A part with references in it.** Where no reference runs over an end of the part and none meets
the new part, the scan finds in the script what it finds in the result, and what the references in
the part name. -/
theorem mem_scanImports_source (hold : CutsClean c.old) (hnew : CutsClean c.new)
    (hmask : c.MaskedAlike) (hsource : ∀ form, NoneAcross form c.source c.pre.length c.old.length)
    (hresult : NoneMeets c.result c.pre.length c.new.length) (spec : Text) :
    spec ∈ scanImports c.source
      ↔ spec ∈ scanImports c.result ∨ ∃ form, ∃ ref ∈ references form c.source,
        Meets ref.start ref.length c.pre.length c.old.length ∧ ref.spec = spec := by
  have hkept : ∀ form, (∃ hit ∈ formHits form c.result, (siteOf c.result hit).2 = spec)
      ↔ ∃ hit ∈ formHits form c.source, ¬ Meets hit.start hit.length c.pre.length c.old.length
        ∧ (siteOf c.source hit).2 = spec := by
    intro form
    have h := map_siteOf_of_forall₂ (forall₂_outside hold hnew hmask (hsource form)
      (hresult.noneAcross form))
    rw [List.filter_eq_self.2 fun hit hhit => decide_eq_true (hresult.not_meets hit hhit)] at h
    have hspecs := congrArg (spec ∈ ·.map Prod.snd) h
    simpa only [List.map_map, List.mem_map, List.mem_filter, decide_eq_true_eq, and_assoc,
      Function.comp_apply, Prod.map_snd, id_eq, eq_iff_iff] using hspecs
  simp only [mem_scanImports_iff, hkept, exists_reference_iff, ← exists_or]
  refine exists_congr fun form => exists_congr fun hit => ?_
  rw [← and_or_left, ← or_and_right, and_iff_right (Decidable.not_or_of_imp id)]

end Replacement

end Script

end MiniProgram
