import MiniProgram.Proofs.Script.Lexer
import MiniProgram.Proofs.Script.Reference

/-!
The scan of a script, part by part.

The specifiers a script refers to are found in the masked script and read from the script itself.
`readFrom` walks over both at once, so that the scan of a script can be followed over its parts: a
part that begins no reference is passed over, a reference is read and left behind, and a part that
holds no end of a reference changes nothing about what stands before it.

* `mem_scanImports`: the scan lists what `readFrom` reads for some form.
* `readFrom_pass`, `readFrom_covers`, `readFrom_append`: the three ways over a part.
* `readFrom_append_of_local`: a part in which nothing depends on what follows.
* `scanImports_of_importing`: a script of imports is scanned in its order.
-/

namespace MiniProgram

namespace Script

open Text

/-! ### Reading -/

/-- The specifiers that a search of the masked text finds, read from the text itself; the next
`skip` bytes belong to a match already read. -/
def readFrom (r : Recognizer Quoted) : (before : Option UInt8) → (skip : Nat) →
    (masked t : Text) → List Text
  | _, _, [], _ => []
  | _, skip + 1, b :: masked, t => readFrom r (some b) skip masked t.tail
  | before, 0, b :: masked, t =>
    match r before (b :: masked) with
    | some (n, q) =>
      (t.drop q.lead).take q.spec.length :: readFrom r (some b) (n - 1) masked t.tail
    | none => readFrom r (some b) 0 masked t.tail

section ReadFrom

variable {r : Recognizer Quoted} {before : Option UInt8} {n : Nat} {q : Quoted} {b : UInt8}
  {masked t : Text}

@[simp] lemma readFrom_nil (r : Recognizer Quoted) (before : Option UInt8) (skip : Nat) (t : Text) :
    readFrom r before skip [] t = [] := by
  rw [readFrom]

@[simp] lemma readFrom_succ_cons (r : Recognizer Quoted) (before : Option UInt8) (skip : Nat)
    (b : UInt8) (masked t : Text) :
    readFrom r before (skip + 1) (b :: masked) t = readFrom r (some b) skip masked t.tail := by
  rw [readFrom]

lemma readFrom_cons_of_none (h : r before (b :: masked) = none) :
    readFrom r before 0 (b :: masked) t = readFrom r (some b) 0 masked t.tail := by
  rw [readFrom, h]

lemma readFrom_cons_of_some (h : r before (b :: masked) = some (n, q)) :
    readFrom r before 0 (b :: masked) t
      = (t.drop q.lead).take q.spec.length :: readFrom r (some b) (n - 1) masked t.tail := by
  rw [readFrom, h]

end ReadFrom

lemma hitsFrom_map_spec (r : Recognizer Quoted) (code : Text) (before : Option UInt8)
    (position skip : Nat) (masked : Text) :
    ((Search.hitsFrom r before position skip masked).map fun hit =>
      (code.drop (hit.start + hit.found.lead)).take hit.found.spec.length)
      = readFrom r before skip masked (code.drop position) := by
  induction masked generalizing before position skip with
  | nil => rw [Search.hitsFrom_nil, readFrom_nil, List.map_nil]
  | cons b masked ih =>
      cases skip with
      | succ skip => rw [Search.hitsFrom_succ_cons, readFrom_succ_cons, ih, List.tail_drop]
      | zero =>
          cases hfound : r before (b :: masked) with
          | none =>
              rw [Search.hitsFrom_cons_of_none hfound, readFrom_cons_of_none hfound, ih,
                List.tail_drop]
          | some found =>
              rw [Search.hitsFrom_cons_of_some hfound, readFrom_cons_of_some hfound, List.map_cons,
                ih, List.tail_drop, List.drop_drop]

/-- The specifiers of the references of one form are what is read for it. -/
lemma map_spec_references (form : ReferenceForm) (code : Text) :
    (references form code).map (·.spec)
      = readFrom form.pattern none 0 (maskFrom .code code) code := by
  rw [references, List.map_map, ← maskComments_eq_maskFrom]
  exact hitsFrom_map_spec form.pattern code none 0 0 (maskComments code)

/-- The scan lists what is read for some form. -/
lemma mem_scanImports {spec code : Text} :
    spec ∈ scanImports code
      ↔ ∃ form : ReferenceForm,
        spec ∈ readFrom form.pattern none 0 (maskFrom .code code) code := by
  rw [scanImports, List.mem_eraseDups, List.mem_map]
  simp only [List.mem_mergeSort, List.mem_flatMap, ← map_spec_references, List.mem_map]
  constructor
  · rintro ⟨ref, ⟨form, -, href⟩, hspec⟩
    exact ⟨form, ref, href, hspec⟩
  · rintro ⟨form, ref, href, hspec⟩
    exact ⟨ref, ⟨form, by cases form <;> decide, href⟩, hspec⟩

/-! ### References at a position -/

/-- A byte with which a reference may end. -/
def endsReference (b : UInt8) : Bool := Byte.isQuote b || b == Byte.closeParen

lemma isWord_of_endsReference {b : UInt8} (h : endsReference b = true) : Byte.isWord b = false := by
  rcases Bool.or_eq_true_iff.1 h with h | h
  · exact isWord_of_isQuote h
  · rw [eq_of_beq h]
    rfl

lemma endsReference_of_isIdent {b : UInt8} (h : Byte.isIdent b = true) :
    endsReference b = false := by
  have hparen : b ≠ Byte.closeParen := Byte.ne_of_class h rfl
  simp [endsReference, hparen, Byte.isQuote_eq_false rfl rfl h]

/-- A byte behind which a word may start, at the end of a text. -/
lemma atWordStart_concat {t : Text} {b : UInt8} (hb : Byte.isWord b = false) :
    atWordStart (t ++ [b]).getLast? = true := by
  rw [List.getLast?_concat]
  simp [atWordStart, hb]

namespace ReferenceForm.Covers

variable {form : ReferenceForm} {text : Text} {q : Quoted}

/-- A reference ends with its closing quote or its parenthesis. -/
lemma exists_last (h : form.Covers text q) :
    ∃ init e, text = init ++ [e] ∧ endsReference e = true := by
  obtain ⟨clause, o, e, close, -, -, -, he, hclose, rfl, -⟩ := h
  have hquote : endsReference e = true := by simp [endsReference, he]
  cases form with
  | importing =>
      obtain rfl := hclose
      exact ⟨ReferenceForm.importing.keyword ++ (clause ++ o :: q.spec), e, by simp, hquote⟩
  | exporting =>
      obtain rfl := hclose
      exact ⟨ReferenceForm.exporting.keyword ++ (clause ++ o :: q.spec), e, by simp, hquote⟩
  | requiring =>
      obtain ⟨ws, -, rfl⟩ := hclose
      exact ⟨ReferenceForm.requiring.keyword ++ (clause ++ o :: (q.spec ++ e :: ws)),
        Byte.closeParen, by simp, rfl⟩

/-- The specifier stands in the reference at its place. -/
lemma take_drop (h : form.Covers text q) (rest : Text) :
    ((text ++ rest).drop q.lead).take q.spec.length = q.spec := by
  obtain ⟨clause, o, e, close, -, -, -, -, -, rfl, hlead⟩ := h
  have hsplit : form.keyword ++ (clause ++ o :: (q.spec ++ e :: close)) ++ rest
      = (form.keyword ++ clause ++ [o]) ++ (q.spec ++ (e :: close ++ rest)) := by simp
  have hlength : q.lead = (form.keyword ++ clause ++ [o]).length := by
    simp only [hlead, List.length_append, List.length_singleton]
  rw [hsplit, hlength, List.drop_left, List.take_left]

/-- The specifier ends before the reference does. -/
lemma lead_add_length_le (h : form.Covers text q) : q.lead + q.spec.length ≤ text.length := by
  obtain ⟨clause, o, e, close, -, -, -, -, -, rfl, hlead⟩ := h
  simp only [hlead, List.length_append, List.length_cons]
  omega

lemma isSpec (h : form.Covers text q) : IsSpec q.spec := by
  obtain ⟨_, _, _, _, -, hspec, -⟩ := h
  exact hspec

lemma ne_nil (h : form.Covers text q) : text ≠ [] := by
  obtain ⟨init, e, rfl, -⟩ := h.exists_last
  simp

/-- Behind a reference a word may start. -/
lemma wordStart (h : form.Covers text q) : atWordStart text.getLast? = true := by
  obtain ⟨init, e, rfl, he⟩ := h.exists_last
  exact atWordStart_concat (isWord_of_endsReference he)

/-- A reference with another specifier. -/
lemma respell {spec : Text} (h : form.Covers text q) (hspec : IsSpec spec) :
    form.Covers (text.take q.lead ++ (spec ++ text.drop (q.lead + q.spec.length)))
      ⟨q.lead, spec⟩ := by
  obtain ⟨clause, o, e, close, hclause, -, ho, he, hclose, rfl, hlead⟩ := h
  have hsplit : form.keyword ++ (clause ++ o :: (q.spec ++ e :: close))
      = (form.keyword ++ (clause ++ [o])) ++ (q.spec ++ e :: close) := by simp
  have hlength : q.lead = (form.keyword ++ (clause ++ [o])).length := by
    simp only [hlead, List.length_append, List.length_singleton, Nat.add_assoc]
  refine ⟨clause, o, e, close, hclause, hspec, ho, he, hclose, ?_, hlead⟩
  rw [hsplit, hlength, List.take_left, ← List.drop_drop, List.drop_left, List.drop_left]
  simp

end ReferenceForm.Covers

variable {form : ReferenceForm} {before before' : Option UInt8} {t u masked : Text}

/-- A form asks of the byte before only whether a word may start after it. -/
lemma pattern_congr (h : atWordStart before = atWordStart before') (t : Text) :
    form.pattern before t = form.pattern before' t := by
  refine Option.ext fun ⟨n, q⟩ => ?_
  rw [pattern_eq_some, pattern_eq_some, h]

/-- A form is recognised only where its keyword stands as a word. -/
lemma exists_keyword {found : Nat × Quoted} (h : form.pattern before t = some found) :
    atWordStart before = true ∧ ∃ rest, t = form.keyword ++ rest
      ∧ (form ≠ .requiring → atWordEnd rest = true) := by
  obtain ⟨hbefore, _, rest, rfl, -, clause, o, e, close, hclause, -, ho, -, -, rfl, -⟩ :=
    pattern_eq_some.1 h
  refine ⟨hbefore, clause ++ o :: (found.2.spec ++ e :: close) ++ rest, by simp, fun hform => ?_⟩
  rw [List.append_assoc, List.cons_append, atWordEnd_append_cons (isWord_of_isQuote ho)]
  cases form with
  | importing => exact hclause.wordEnd
  | exporting => exact hclause.wordEnd
  | requiring => exact absurd rfl hform

lemma pattern_eq_none_of_not_isPrefix (h : ¬ form.keyword <+: t) :
    form.pattern before t = none := by
  rw [Option.eq_none_iff_forall_ne_some]
  intro found hfound
  obtain ⟨-, rest, rfl, -⟩ := exists_keyword hfound
  exact h (List.prefix_append _ _)

lemma pattern_cons_eq_none {b : UInt8} (h : b ∉ form.keyword.head?) (t : Text) :
    form.pattern before (b :: t) = none := by
  refine pattern_eq_none_of_not_isPrefix fun hprefix => h ?_
  cases form <;> exact congrArg some (List.cons_prefix_cons.1 hprefix).1

/-- Text without an end of a reference does not change what is recognised before it. -/
lemma pattern_append (hu : ∀ b ∈ u, endsReference b = false) (before : Option UInt8) (t : Text) :
    form.pattern before (t ++ u) = form.pattern before t := by
  refine Option.ext fun ⟨n, q⟩ => ?_
  rw [pattern_eq_some, pattern_eq_some]
  refine and_congr_right fun _ => ⟨?_, ?_⟩
  · rintro ⟨text, rest, heq, hn, hcovers⟩
    rcases List.append_eq_append_iff.1 heq with ⟨tail, rfl, hrest⟩ | ⟨rest', rfl, -⟩
    · -- the reference would run on into the added text, which holds no end of one
      rcases List.eq_nil_or_concat' tail with rfl | ⟨tail', b, rfl⟩
      · exact ⟨t, [], by simp, by simpa using hn, by simpa using hcovers⟩
      · obtain ⟨init, e, hlast, he⟩ := hcovers.exists_last
        rw [← List.append_assoc] at hlast
        obtain rfl : b = e := List.singleton_inj.1 (List.append_inj_right' hlast rfl)
        rw [hu b (by simp [hrest])] at he
        cases he
    · exact ⟨text, rest', rfl, hn, hcovers⟩
  · rintro ⟨text, rest, rfl, hn, hcovers⟩
    exact ⟨text, rest ++ u, by simp, hn, hcovers⟩

/-! ### Over a part -/

/-- Inside a match already read nothing is read. -/
lemma readFrom_skip (r : Recognizer Quoted) (before : Option UInt8) (part masked t : Text) :
    readFrom r before part.length (part ++ masked) (part ++ t)
      = readFrom r (part.getLast?.or before) 0 masked t := by
  induction part generalizing before with
  | nil => rfl
  | cons b part ih =>
      rw [List.length_cons, List.cons_append, List.cons_append, readFrom_succ_cons, List.tail_cons,
        ih]
      cases part with
      | nil => rfl
      | cons c part => rfl

/-- A part at none of whose bytes the pattern is recognised is passed over. -/
lemma readFrom_pass {r : Recognizer Quoted} {part masked : Text}
    (h : ∀ w, w <:+ part → w ≠ [] → ∀ before, r before (w ++ masked) = none)
    (before : Option UInt8) (t : Text) :
    readFrom r before 0 (part ++ masked) (part ++ t)
      = readFrom r (part.getLast?.or before) 0 masked t := by
  induction part generalizing before with
  | nil => rfl
  | cons b part ih =>
      have hnone := h (b :: part) (List.suffix_refl _) (by simp) before
      rw [List.cons_append] at hnone
      rw [List.cons_append, List.cons_append, readFrom_cons_of_none hnone, List.tail_cons,
        ih fun w hw => h w (hw.trans (List.suffix_cons b part))]
      cases part with
      | nil => rfl
      | cons c part => rfl

/-- A reference at the head of a text is read and left behind. -/
lemma readFrom_covers {text : Text} {q : Quoted} (h : form.Covers text q)
    (hbefore : atWordStart before = true) (masked t : Text) :
    readFrom form.pattern before 0 (text ++ masked) (text ++ t)
      = q.spec :: readFrom form.pattern text.getLast? 0 masked t := by
  have hfound : form.pattern before (text ++ masked) = some (text.length, q) :=
    pattern_eq_some.2 ⟨hbefore, text, masked, rfl, rfl, h⟩
  have hspec := h.take_drop t
  obtain ⟨b, text, rfl⟩ := List.exists_cons_of_ne_nil h.ne_nil
  rw [List.cons_append] at hfound hspec
  rw [List.cons_append, List.cons_append, readFrom_cons_of_some hfound, hspec, List.length_cons,
    Nat.add_sub_cancel, List.tail_cons, readFrom_skip]
  cases text with
  | nil => rfl
  | cons c text => rfl

/-- What is read depends on the byte before only through the start of a word. -/
lemma readFrom_congr (h : atWordStart before = atWordStart before') (masked t : Text) :
    readFrom form.pattern before 0 masked t = readFrom form.pattern before' 0 masked t := by
  cases masked with
  | nil => rfl
  | cons b masked => rw [readFrom, readFrom, pattern_congr h]

/-- In text without an end of a reference nothing is read. -/
lemma readFrom_eq_nil (hu : ∀ b ∈ u, endsReference b = false) (before : Option UInt8) (skip : Nat)
    (t : Text) : readFrom form.pattern before skip u t = [] := by
  induction u generalizing before skip t with
  | nil => rw [readFrom_nil]
  | cons b u ih =>
      have hu' : ∀ c ∈ u, endsReference c = false := fun c hc => hu c (List.mem_cons_of_mem b hc)
      cases skip with
      | succ skip => rw [readFrom_succ_cons, ih hu']
      | zero =>
          have hnone : form.pattern before (b :: u) = none := by
            rw [← List.nil_append (b :: u), pattern_append hu]
            exact pattern_eq_none_of_not_isPrefix (by cases form <;> decide)
          rw [readFrom_cons_of_none hnone, ih hu']

/-- Where what follows a part changes nothing about what is recognised in the part, the part and
what follows are read one after the other. -/
lemma readFrom_append_of_local {masked u : Text}
    (h : ∀ w, w <:+ masked → w ≠ [] → ∀ before,
      form.pattern before (w ++ u) = form.pattern before w)
    (before : Option UInt8) (skip : Nat) {t : Text} (hlength : masked.length = t.length)
    (t' : Text) :
    readFrom form.pattern before skip (masked ++ u) (t ++ t')
      = readFrom form.pattern before skip masked t
        ++ readFrom form.pattern (masked.getLast?.or before) (skip - masked.length) u t' := by
  induction masked generalizing before skip t with
  | nil =>
      obtain rfl : t = [] := List.eq_nil_of_length_eq_zero hlength.symm
      rfl
  | cons b masked ih =>
      obtain ⟨c, t, rfl⟩ : ∃ c t₁, t = c :: t₁ := by
        cases t with
        | nil => cases hlength
        | cons c t => exact ⟨c, t, rfl⟩
      have ih := fun before skip => ih (fun w hw => h w (hw.trans (List.suffix_cons b masked)))
        before skip (t := t) (by simpa using hlength)
      have hlast : (b :: masked).getLast?.or before = masked.getLast?.or (some b) := by
        cases masked with
        | nil => rfl
        | cons d masked => rfl
      cases skip with
      | succ skip =>
          rw [List.cons_append, List.cons_append, readFrom_succ_cons, readFrom_succ_cons,
            List.tail_cons, ih, hlast, List.length_cons, Nat.add_sub_add_right]
          rfl
      | zero =>
          -- what is found here is found without what follows, so it lies within the part
          have hsame := h (b :: masked) (List.suffix_refl _) (List.cons_ne_nil _ _) before
          rw [List.cons_append] at hsame
          rw [List.cons_append, List.cons_append, hlast, Nat.zero_sub]
          cases hfound : form.pattern before (b :: masked) with
          | none =>
              rw [readFrom_cons_of_none (hsame.trans hfound), readFrom_cons_of_none hfound,
                List.tail_cons, List.tail_cons, ih, Nat.zero_sub]
          | some found =>
              obtain ⟨n, q⟩ := found
              obtain ⟨-, text, rest, htext, rfl, hcovers⟩ := pattern_eq_some.1 hfound
              have hfits : text.length ≤ masked.length + 1 := by
                rw [← List.length_cons, htext, List.length_append]
                exact Nat.le_add_right _ _
              have hskip : text.length - 1 - masked.length = 0 := by omega
              have hinside : q.lead + q.spec.length ≤ (c :: t).length := by
                rw [← hlength, List.length_cons]
                exact hcovers.lead_add_length_le.trans hfits
              have hspec : ((c :: (t ++ t')).drop q.lead).take q.spec.length
                  = ((c :: t).drop q.lead).take q.spec.length := by
                rw [← List.cons_append, List.drop_append_of_le_length (by omega),
                  List.take_append_of_le_length (by rw [List.length_drop]; omega)]
              rw [readFrom_cons_of_some (hsame.trans hfound), readFrom_cons_of_some hfound, hspec,
                List.tail_cons, List.tail_cons, ih, hskip, List.cons_append]

/-- Text without an end of a reference changes nothing about what is read before it. -/
lemma readFrom_append (hu : ∀ b ∈ u, endsReference b = false) (before : Option UInt8) (skip : Nat)
    {masked t : Text} (hlength : masked.length = t.length) (t' : Text) :
    readFrom form.pattern before skip (masked ++ u) (t ++ t')
      = readFrom form.pattern before skip masked t := by
  rw [readFrom_append_of_local (fun w _ _ before => pattern_append hu before w) before skip hlength,
    readFrom_eq_nil hu, List.append_nil]

/-- What is read from a text that is not masked may stand between quotes. -/
lemma isSpec_of_mem_readFrom {before : Option UInt8} {skip : Nat} {spec : Text}
    (h : spec ∈ readFrom form.pattern before skip t t) : IsSpec spec := by
  induction t generalizing before skip with
  | nil => rw [readFrom_nil] at h; cases h
  | cons b t ih =>
      cases skip with
      | succ skip => rw [readFrom_succ_cons, List.tail_cons] at h; exact ih h
      | zero =>
          cases hfound : form.pattern before (b :: t) with
          | none => rw [readFrom_cons_of_none hfound, List.tail_cons] at h; exact ih h
          | some found =>
              obtain ⟨n, q⟩ := found
              obtain ⟨-, text, rest, htext, -, hcovers⟩ := pattern_eq_some.1 hfound
              rw [readFrom_cons_of_some hfound, List.tail_cons] at h
              rcases List.mem_cons.1 h with rfl | h
              · rw [htext, hcovers.take_drop]
                exact hcovers.isSpec
              · exact ih h

/-! ### The order of the scan -/

/-- The specifiers of one form are found from left to right. -/
lemma pairwise_references (form : ReferenceForm) (code : Text) :
    (references form code).Pairwise fun a b => a.specStart ≤ b.specStart := by
  rw [references, List.pairwise_map]
  refine (Search.pairwise_hitsFrom form.pattern none 0 0 (maskComments code)).imp_of_mem ?_
  intro a b ha _ hle
  obtain ⟨before, t, hfound⟩ := Search.exists_of_mem_hitsFrom ha
  obtain ⟨-, text, -, -, hlength, hcovers⟩ := pattern_eq_some.1 hfound
  have := hcovers.lead_add_length_le
  dsimp only [referenceAt]
  omega

/-- A script in which only imports are found: the scan lists them in their order. -/
lemma scanImports_of_importing {code : Text}
    (h : ∀ form : ReferenceForm, form ≠ .importing →
      readFrom form.pattern none 0 (maskFrom .code code) code = []) :
    scanImports code
      = (readFrom ReferenceForm.importing.pattern none 0 (maskFrom .code code) code).eraseDups := by
  have hnone : ∀ form, form ≠ .importing → references form code = [] := by
    intro form hform
    have hread := h form hform
    rwa [← map_spec_references, List.map_eq_nil_iff] at hread
  have hall : ReferenceForm.all.flatMap (references · code) = references .importing code := by
    simp [ReferenceForm.all, hnone .exporting, hnone .requiring]
  rw [scanImports, hall, ← map_spec_references,
    List.mergeSort_of_pairwise ((pairwise_references .importing code).imp (by simp))]

end Script

end MiniProgram
