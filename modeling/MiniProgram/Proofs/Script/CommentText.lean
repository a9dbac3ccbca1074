import MiniProgram.Proofs.Script.Masking
import MiniProgram.Proofs.Script.Retargeting

/-!
What comments say and what the scan finds.

References are looked for in the masked script, so two scripts that masking makes the same have
their references at the same places. What a reference names is read from the script itself, and
there the two differ only inside comments: the scan depends on what a comment says exactly where the
comment stands between the quotes of a specifier. The lexer takes a specifier for part of a string
literal unless its opening quote ends a literal or a template ends in it, and no comment stands in a
literal.

* `getElem?_of_not_inComment`: outside comments two scripts that mask alike have the same bytes.
* `references_eq_iff`: when two such scripts have the same references.
* `scanImports_eq_of_mask_eq`: **the scan does not depend on what comments say**, unless a comment
  stands between the quotes of a specifier.
-/

namespace MiniProgram

namespace Script

variable {code code' : Text} {form : ReferenceForm} {hit : Hit Quoted} {i : ℕ}

/-! ### Bytes of comments and literals -/

/-- A position inside a comment of a script. -/
def InComment (code : Text) (i : ℕ) : Prop :=
  ((classify code)[i]?).map Prod.snd = some .comment

/-- A position inside a string literal of a script. -/
def InLiteral (code : Text) (i : ℕ) : Prop :=
  ((classify code)[i]?).map Prod.snd = some .literal

instance (code : Text) (i : ℕ) : Decidable (InLiteral code i) :=
  inferInstanceAs (Decidable (_ = _))

/-- Outside comments a byte is that of the masked script. -/
lemma getElem?_of_not_inComment (h : ¬ InComment code i) :
    code[i]? = (maskComments code)[i]? := by
  rw [getElem?_maskComments, getElem?_classify]
  rw [InComment] at h
  cases hp : (classify code)[i]? with
  | none => rfl
  | some p =>
      rw [hp, Option.map_some, Option.some_inj] at h
      exact congrArg some (maskByte_of_ne_comment h).symm

/-- Of a byte of a script the masked script tells whether it stands in a literal. -/
lemma inLiteral_maskComments_iff : InLiteral (maskComments code) i ↔ InLiteral code i := by
  rw [InLiteral, InLiteral, classify_maskComments, List.getElem?_map, Option.map_map]
  cases (classify code)[i]? with
  | none => rfl
  | some p =>
      obtain ⟨b, c⟩ := p
      cases c <;> simp [maskClass, ByteClass.masked]

lemma InLiteral.not_inComment (h : InLiteral code i) : ¬ InComment code i := by
  rw [InLiteral] at h
  rw [InComment, h]
  exact nofun

/-! ### Specifiers -/

/-- A position of the specifier of a reference. -/
def Reference.Spells (ref : Reference) (i : ℕ) : Prop :=
  ref.specStart ≤ i ∧ i < ref.specStart + ref.spec.length

/-- Where a comment stands between the quotes of a specifier, in one script or in the other, the two
read the same. -/
def SpecCommentsAgree (code code' : Text) : Prop :=
  ∀ form, ∀ ref ∈ references form code, ∀ i, ref.Spells i →
    InComment code i ∨ InComment code' i → code[i]? = code'[i]?

/-- Every specifier stands in a string literal. -/
def SpecsInLiterals (code : Text) : Prop :=
  ∀ form, ∀ ref ∈ references form code, ∀ k < ref.spec.length, InLiteral code (ref.specStart + k)

instance (code : Text) : Decidable (SpecsInLiterals code) :=
  inferInstanceAs (Decidable (∀ form, ∀ ref ∈ references form code, ∀ k < ref.spec.length, _))

/-- Two texts have the same part at a place exactly if they have the same bytes there. -/
lemma take_drop_eq_iff {t t' : Text} {start length : ℕ} :
    (t.drop start).take length = (t'.drop start).take length
      ↔ ∀ i, start ≤ i → i < start + length → t[i]? = t'[i]? := by
  constructor
  · intro h i hstart hend
    have hbyte := congrArg (·[i - start]?) h
    have hlt : i - start < length := by omega
    simpa only [List.getElem?_take_of_lt hlt, List.getElem?_drop, Nat.add_sub_cancel' hstart]
      using hbyte
  · intro h
    refine List.ext_getElem? fun k => ?_
    by_cases hk : k < length
    · rw [List.getElem?_take_of_lt hk, List.getElem?_take_of_lt hk, List.getElem?_drop,
        List.getElem?_drop]
      exact h _ (by omega) (by omega)
    · rw [List.getElem?_take_eq_none (by omega), List.getElem?_take_eq_none (by omega)]

/-- The specifier at a match is as long as the match tells. -/
lemma length_spec_referenceAt (h : hit ∈ formHits form code) :
    (referenceAt code hit).spec.length = hit.found.spec.length := by
  obtain ⟨hspec, hstatement⟩ := Retargeting.fits_of_mem_formHits h
  simp only [referenceAt, List.length_take, List.length_drop]
  omega

/-- What two scripts name at a match is the same exactly if they have the same bytes there. -/
lemma referenceAt_eq_iff (h : hit ∈ formHits form code) :
    referenceAt code hit = referenceAt code' hit
      ↔ ∀ i, (referenceAt code hit).Spells i → code[i]? = code'[i]? := by
  have hspells : ∀ i, (referenceAt code hit).Spells i ↔ hit.start + hit.found.lead ≤ i
      ∧ i < hit.start + hit.found.lead + hit.found.spec.length := by
    intro i
    rw [Reference.Spells, length_spec_referenceAt h]
    rfl
  simp only [hspells, and_imp]
  rw [← take_drop_eq_iff, referenceAt, referenceAt, Reference.mk.injEq]
  simp only [true_and]

/-! ### Two scripts that mask alike -/

/-- **The same references.** Two scripts that mask alike have the same references exactly if the
comments between the quotes of specifiers read the same. -/
theorem references_eq_iff (hmask : maskComments code = maskComments code') :
    (∀ form, references form code = references form code') ↔ SpecCommentsAgree code code' := by
  have hhits : ∀ form, formHits form code' = formHits form code := by
    intro form
    rw [formHits, formHits, hmask]
  have hbytes : ∀ i, ¬ (InComment code i ∨ InComment code' i) → code[i]? = code'[i]? := by
    intro i h
    rw [not_or] at h
    rw [getElem?_of_not_inComment h.1, getElem?_of_not_inComment h.2, hmask]
  have hsame : ∀ form, references form code = references form code'
      ↔ ∀ hit ∈ formHits form code, referenceAt code hit = referenceAt code' hit := by
    intro form
    rw [references, references, ← formHits, ← formHits, hhits]
    exact List.map_inj_left
  refine forall_congr' fun form => ?_
  rw [hsame, references, List.forall_mem_map]
  refine forall₂_congr fun hit hhit => ?_
  rw [referenceAt_eq_iff hhit]
  refine forall₂_congr fun i _ => ⟨fun h _ => h, fun h => ?_⟩
  by_cases hcomment : InComment code i ∨ InComment code' i
  · exact h hcomment
  · exact hbytes i hcomment

/-- Where every specifier stands in a literal no comment does, whatever the comments say. -/
lemma SpecsInLiterals.agree (h : SpecsInLiterals code)
    (hmask : maskComments code = maskComments code') : SpecCommentsAgree code code' := by
  intro form ref href i hspells hcomment
  have hliteral : InLiteral code i := by
    obtain ⟨k, rfl⟩ := Nat.exists_eq_add_of_le hspells.1
    exact h form ref href k (Nat.add_lt_add_iff_left.1 hspells.2)
  have hliteral' : InLiteral code' i := by
    rwa [← inLiteral_maskComments_iff, ← hmask, inLiteral_maskComments_iff]
  rcases hcomment with hcomment | hcomment
  · exact absurd hcomment hliteral.not_inComment
  · exact absurd hcomment hliteral'.not_inComment

/-- **What comments say.** Of two scripts that mask alike the references are the same exactly if the
comments between the quotes of specifiers read the same, and then the scan lists the same
specifiers. So it does whatever the comments say, if every specifier of the one script stands in a
string literal. -/
theorem scanImports_eq_of_mask_eq {code code' : Text}
    (hmask : maskComments code = maskComments code') :
    ((∀ form, references form code = references form code') ↔ SpecCommentsAgree code code')
      ∧ (SpecCommentsAgree code code' → scanImports code = scanImports code')
      ∧ (SpecsInLiterals code → scanImports code = scanImports code') := by
  have hscan : SpecCommentsAgree code code' → scanImports code = scanImports code' := by
    intro hagree
    simp only [scanImports, (references_eq_iff hmask).2 hagree]
  exact ⟨references_eq_iff hmask, hscan, fun hliterals => hscan (hliterals.agree hmask)⟩

/-- Two scripts with the same statements and other comments, one of which holds an import. -/
theorem scanImports_eq_of_mask_eq_page :
    ∃ code code' : Text, code = "import a /* or './x' */ from './a'; // one\nlet b = require(\"b\")"
      ∧ code' = "import a /*import 'y'*/ from './a'; // two\nlet b = require(\"b\")"
      ∧ maskComments code = maskComments code'
      ∧ scanImports code = scanImports code' :=
  ⟨_, _, rfl, rfl, by decide +kernel,
    (scanImports_eq_of_mask_eq (by decide +kernel)).2.2 (by decide +kernel)⟩

/-- A comment can be named as a specifier: the quote that ends a literal is taken for one that opens
a specifier, behind the word `import` at the end of the literal. -/
theorem exists_scanImports_ne_of_mask_eq :
    ∃ code code' : Text, maskComments code = maskComments code'
      ∧ scanImports code ≠ scanImports code' := by
  refine ⟨"let words = [\"import\"/* a */, \"b\"];", "let words = [\"import\"/* c */, \"b\"];",
    by decide +kernel, ?_⟩
  have hmem : ("/* a */, " : Text) ∈ scanImports "let words = [\"import\"/* a */, \"b\"];" :=
    mem_scanImports_iff_references.2 ⟨.importing, by decide +kernel⟩
  have hnone : ∀ form, ("/* a */, " : Text)
      ∉ (references form "let words = [\"import\"/* c */, \"b\"];").map (·.spec) := by
    decide +kernel
  intro heq
  obtain ⟨form, hform⟩ := mem_scanImports_iff_references.1 (heq ▸ hmem)
  exact hnone form hform

end Script

end MiniProgram
