import MiniProgram.Proofs.Script.Retargeting

/-!
Scripts with their masked bytes, read part by part.

The references of a script are found in the masked script and named by the script itself. Where both
are kept side by side the specifiers of a script are a function of one text, and where no reference
runs over the ends of its parts they are those of the parts.

* `Marked`: a text byte by byte, each with what masking makes of it; `Marked.specs`: the specifiers
  in it.
* `Marked.specs_part`: a text cut before and behind a part.
* `Marked.specs_source`: **a text cut into stretches**; `Marked.specs_old_eq_nil`: parts that no
  reference meets.
-/

namespace MiniProgram

namespace Script

open Search (Stretch)

/-- A text byte by byte, each byte after what masking makes of it. -/
abbrev Marked := List (UInt8 × UInt8)

namespace Marked

/-- The masked text. -/
def masked (z : Marked) : Text := z.map Prod.fst

/-- The text itself. -/
def raw (z : Marked) : Text := z.map Prod.snd

/-- A text without comments. -/
def ofText (t : Text) : Marked := t.map fun b => (b, b)

/-- A script. -/
def ofCode (code : Text) : Marked := (maskComments code).zip code

/-- The specifiers of one form in a text, from left to right. -/
def specs (form : ReferenceForm) (z : Marked) : List Text :=
  (Search.hits form.pattern z.masked).map fun hit => (referenceAt z.raw hit).spec

variable {form : ReferenceForm} {z kept part rest : Marked} {position : ℕ} {hit : Hit Quoted}

/-! ### The two texts -/

@[simp] lemma masked_append (z z' : Marked) : (z ++ z').masked = z.masked ++ z'.masked :=
  List.map_append

@[simp] lemma raw_append (z z' : Marked) : (z ++ z').raw = z.raw ++ z'.raw := List.map_append

lemma masked_take (n : ℕ) (z : Marked) : masked (z.take n) = z.masked.take n := List.map_take

lemma masked_drop (n : ℕ) (z : Marked) : masked (z.drop n) = z.masked.drop n := List.map_drop

@[simp] lemma length_masked (z : Marked) : z.masked.length = z.length := List.length_map _

@[simp] lemma length_raw (z : Marked) : z.raw.length = z.length := List.length_map _

@[simp] lemma masked_ofText (t : Text) : (ofText t).masked = t := by
  rw [masked, ofText, List.map_map]
  exact List.map_id t

@[simp] lemma raw_ofText (t : Text) : (ofText t).raw = t := by
  rw [raw, ofText, List.map_map]
  exact List.map_id t

@[simp] lemma masked_ofCode (code : Text) : (ofCode code).masked = maskComments code :=
  List.map_fst_zip (length_maskComments code).le

@[simp] lemma raw_ofCode (code : Text) : (ofCode code).raw = code :=
  List.map_snd_zip (length_maskComments code).ge

/-- The specifiers of a script are those of its references. -/
lemma specs_ofCode (form : ReferenceForm) (code : Text) :
    specs form (ofCode code) = (references form code).map (·.spec) := by
  rw [specs, masked_ofCode, raw_ofCode, references, List.map_map]
  rfl

/-! ### Parts -/

/-- A match in the masked text lies in the text. -/
lemma fits_of_mem_hits (h : hit ∈ Search.hits form.pattern z.masked) :
    Retargeting.Fits z.raw hit where
  spec := (spec_within h).1
  statement := by
    have := Search.end_le_of_mem_hitsFrom (takes_pattern form) h
    rwa [Nat.zero_add, length_masked, ← length_raw] at this

/-- What a match names does not depend on what follows. -/
lemma spec_append (h : Retargeting.Fits z.raw hit) (t : Text) :
    (referenceAt (z.raw ++ t) hit).spec = (referenceAt z.raw hit).spec := by
  rw [Retargeting.referenceAt_congr h (List.take_append_of_le_length h.statement)]

/-- Where a word may start at both ends of a part and every match that meets the part lies in it. -/
structure Cut (form : ReferenceForm) (kept part rest : Marked) : Prop where
  keptWord : Text.atWordStart kept.masked.getLast? = true
  partWord : Text.atWordStart part.masked.getLast? = true
  inside : ∀ hit ∈ Search.hits form.pattern (kept ++ (part ++ rest)).masked,
    Meets hit.start hit.length kept.length part.length →
      kept.length ≤ hit.start ∧ hit.start + hit.length ≤ kept.length + part.length

/-- The matches around a cut. -/
lemma Cut.hits_eq (h : Cut form kept part rest) :
    Search.hits form.pattern (kept ++ (part ++ rest)).masked
      = Search.hits form.pattern kept.masked
        ++ ((Search.hits form.pattern part.masked).map (Search.shift kept.length)
          ++ (Search.hits form.pattern rest.masked).map
            (Search.shift (kept.length + part.length))) := by
  have hinside := h.inside
  simp only [masked_append, Meets, and_imp] at hinside ⊢
  have := Search.hits_part (takes_pattern form) h.keptWord h.partWord (t := rest.masked)
  simp only [length_masked] at this
  exact this hinside

/-- The specifiers around a cut. -/
lemma Cut.specs_eq (h : Cut form kept part rest) :
    specs form (kept ++ (part ++ rest))
      = specs form kept ++ (specs form part ++ specs form rest) := by
  have hkept : ∀ hit ∈ Search.hits form.pattern kept.masked,
      (referenceAt (kept.raw ++ (part.raw ++ rest.raw)) hit).spec
        = (referenceAt kept.raw hit).spec :=
    fun hit hhit => spec_append (fits_of_mem_hits hhit) _
  have hpart : ∀ hit ∈ Search.hits form.pattern part.masked,
      (referenceAt (kept.raw ++ (part.raw ++ rest.raw)) (Search.shift kept.length hit)).spec
        = (referenceAt part.raw hit).spec := by
    intro hit hhit
    rw [← length_raw kept, Retargeting.spec_referenceAt_shift]
    exact spec_append (fits_of_mem_hits hhit) _
  have hrest : ∀ hit ∈ Search.hits form.pattern rest.masked,
      (referenceAt (kept.raw ++ (part.raw ++ rest.raw))
        (Search.shift (kept.length + part.length) hit)).spec = (referenceAt rest.raw hit).spec := by
    intro hit _
    rw [← List.append_assoc, ← raw_append, ← List.length_append, ← length_raw,
      Retargeting.spec_referenceAt_shift]
  rw [specs, h.hits_eq, raw_append, raw_append, List.map_append, List.map_append, List.map_map,
    List.map_map]
  exact congrArg₂ (· ++ ·) (List.map_congr_left hkept)
    (congrArg₂ (· ++ ·) (List.map_congr_left hpart) (List.map_congr_left hrest))

/-- A text cut around one of its matches. -/
lemma exists_cut_of_hits_eq {before behind : List (Hit Quoted)}
    (h : Search.hits form.pattern z.masked = before ++ hit :: behind) :
    ∃ kept part rest : Marked, z = kept ++ (part ++ rest)
      ∧ hit = ⟨kept.length, part.length, hit.found⟩
      ∧ Text.atWordStart kept.masked.getLast? = true ∧ form.Covers part.masked hit.found
      ∧ Search.hits form.pattern kept.masked = before
      ∧ (Search.hits form.pattern rest.masked).map (Search.shift (kept.length + part.length))
        = behind := by
  obtain ⟨u, v, w, hz, hhit, hword, hcovers, hbefore, hbehind⟩ :=
    Search.hits_eq_append_cons (takes_pattern form) (fun _ _ h => ⟨h.ne_nil, h.wordStart⟩) h
  obtain ⟨kept, z', rfl, rfl, hz'⟩ := List.map_eq_append_iff.1 hz
  obtain ⟨part, rest, rfl, rfl, rfl⟩ := List.map_eq_append_iff.1 hz'
  simp only [List.length_map] at hhit hbehind
  exact ⟨kept, part, rest, rfl, hhit, hword, hcovers, hbefore, hbehind⟩

/-! ### Stretches -/

/-- A stretch at whose ends a word may start. -/
structure Clean (s : Stretch (UInt8 × UInt8)) : Prop where
  kept : Text.atWordStart (masked s.kept).getLast? = true
  old : Text.atWordStart (masked s.old).getLast? = true

variable {stretches : List (Stretch (UInt8 × UInt8))} {s : Stretch (UInt8 × UInt8)}

/-- Every match of a form that meets one of the old parts lies in it. -/
def Inside (form : ReferenceForm) (position : ℕ) (stretches : List (Stretch (UInt8 × UInt8)))
    (rest : Marked) : Prop :=
  ∀ span ∈ Stretch.spans position stretches,
    ∀ hit ∈ Search.hits form.pattern (masked (Stretch.source stretches rest)),
      Meets (position + hit.start) hit.length span.1 span.2 →
        span.1 ≤ position + hit.start ∧ position + hit.start + hit.length ≤ span.1 + span.2

/-- No match of a form meets one of the old parts. -/
def Outside (form : ReferenceForm) (position : ℕ) (stretches : List (Stretch (UInt8 × UInt8)))
    (rest : Marked) : Prop :=
  ∀ span ∈ Stretch.spans position stretches,
    ∀ hit ∈ Search.hits form.pattern (masked (Stretch.source stretches rest)),
      ¬ Meets (position + hit.start) hit.length span.1 span.2

lemma Outside.inside (h : Outside form position stretches rest) :
    Inside form position stretches rest :=
  fun span hspan hit hhit hmeets => absurd hmeets (h span hspan hit hhit)

/-- The first stretch is cut off. -/
lemma Inside.cut (h : Inside form position (s :: stretches) rest) (hs : Clean s) :
    Cut form s.kept s.old (Stretch.source stretches rest) where
  keptWord := hs.kept
  partWord := hs.old
  inside := by
    intro hit hhit hmeets
    rw [← Stretch.source_cons] at hhit
    have := h _ List.mem_cons_self hit hhit
    rw [Meets] at hmeets this
    dsimp only at this
    omega

/-- A match behind the first stretch is one of the whole text. -/
lemma Cut.mem_hits {tail : Marked} (h : Cut form kept part tail)
    (hhit : hit ∈ Search.hits form.pattern tail.masked) :
    Search.shift (kept.length + part.length) hit
      ∈ Search.hits form.pattern (kept ++ (part ++ tail)).masked := by
  rw [h.hits_eq]
  exact List.mem_append_right _ (List.mem_append_right _ (List.mem_map_of_mem hhit))

lemma Inside.tail (h : Inside form position (s :: stretches) rest) (hs : Clean s) :
    Inside form (position + s.kept.length + s.old.length) stretches rest := by
  intro span hspan hit hhit hmeets
  have hmem := (h.cut hs).mem_hits hhit
  rw [← Stretch.source_cons] at hmem
  have := h span (List.mem_cons_of_mem _ hspan) _ hmem
  simp only [Search.shift, Meets] at this hmeets
  omega

lemma Outside.tail (h : Outside form position (s :: stretches) rest) (hs : Clean s) :
    Outside form (position + s.kept.length + s.old.length) stretches rest := by
  intro span hspan hit hhit hmeets
  have hmem := (h.inside.cut hs).mem_hits hhit
  rw [← Stretch.source_cons] at hmem
  have := h span (List.mem_cons_of_mem _ hspan) _ hmem
  simp only [Search.shift, Meets] at this hmeets
  omega

/-- **A text in stretches.** Where no match runs over an end of an old part, the specifiers are
those of the parts one after the other. -/
theorem specs_source (hclean : ∀ s ∈ stretches, Clean s)
    (h : Inside form position stretches rest) :
    specs form (Stretch.source stretches rest)
      = (stretches.flatMap fun s => specs form s.kept ++ specs form s.old) ++ specs form rest := by
  induction stretches generalizing position with
  | nil => rfl
  | cons s stretches ih =>
      obtain ⟨hs, hclean⟩ := List.forall_mem_cons.1 hclean
      rw [Stretch.source_cons, (h.cut hs).specs_eq, ih hclean (h.tail hs), List.flatMap_cons]
      simp only [List.append_assoc]

/-- In parts that no match meets nothing is named. -/
lemma specs_old_eq_nil (hclean : ∀ s ∈ stretches, Clean s)
    (h : Outside form position stretches rest) : ∀ s ∈ stretches, specs form s.old = [] := by
  induction stretches generalizing position with
  | nil => nofun
  | cons s stretches ih =>
      obtain ⟨hs, hclean⟩ := List.forall_mem_cons.1 hclean
      refine List.forall_mem_cons.2 ⟨?_, ih hclean (h.tail hs)⟩
      rw [specs, List.map_eq_nil_iff, List.eq_nil_iff_forall_not_mem]
      intro hit hhit
      have hend := Search.end_le_of_mem_hitsFrom (takes_pattern form) hhit
      have hwithin := spec_within hhit
      have hmem : Search.shift s.kept.length hit
          ∈ Search.hits form.pattern (masked (Stretch.source (s :: stretches) rest)) := by
        rw [Stretch.source_cons, (h.inside.cut hs).hits_eq]
        exact List.mem_append_right _ (List.mem_append_left _ (List.mem_map_of_mem hhit))
      refine h _ List.mem_cons_self _ hmem ?_
      simp only [Search.shift, Meets, length_masked] at hend ⊢
      omega

end Marked

end Script

end MiniProgram
