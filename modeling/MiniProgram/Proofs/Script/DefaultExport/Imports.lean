import MiniProgram.Proofs.Script.DefaultExport
import MiniProgram.Proofs.Script.Inert

/-!
Default exports and imports.

When the default export of a script is bound to a local name, its statement is replaced and every
other byte stays. The references of the script are kept wherever none of them meets the statement;
`export default` may even stand in the clause of an import.

* `inert_exportDefault`, `inert_valueBinding`: `export default` and what it becomes are inert.
* `scanImports_bindDefaultExport`: **what binding the default export does to the imports.**
-/

namespace MiniProgram

namespace Script

open Text

/-! ### `export default` and its binding are inert -/

/-- Nothing is recognised at a word that neither continues a keyword nor is continued by one. -/
lemma pattern_eq_none_of_word {form : ReferenceForm} {word : Text}
    (h : ¬ form.keyword <+: word ∧ ¬ word <+: form.keyword) (before : Option UInt8) (t : Text) :
    form.pattern before (word ++ t) = none := by
  refine pattern_eq_none_of_not_isPrefix fun hprefix => ?_
  rcases List.prefix_or_prefix_of_prefix hprefix (List.prefix_append word t) with hk | hk
  · exact h.1 hk
  · exact h.2 hk

lemma pattern_eq_none_of_space {form : ReferenceForm} {b : UInt8} (hb : Byte.isSpace b = true)
    (before : Option UInt8) (t : Text) : form.pattern before (b :: t) = none := by
  refine pattern_cons_eq_none (fun hmem => ?_) t
  have hkeyword : form.keyword.head?.any Byte.isSpace = false := by cases form <;> rfl
  rw [Option.mem_def.1 hmem, Option.any_some, hb] at hkeyword
  cases hkeyword

/-- No reference begins in a text none of whose ends continues a keyword or is continued by one. -/
lemma noneBegins_of_tails {t : Text}
    (h : ∀ form : ReferenceForm, ∀ w ∈ t.tails, w ≠ [] →
      ¬ form.keyword <+: w ∧ ¬ w <+: form.keyword) (y : Text) : NoneBegins t y :=
  fun form before w hw hne =>
    pattern_eq_none_of_word (h form w ((List.mem_tails _ _).2 hw) hne) before y

/-- What `export default` becomes is inert. -/
lemma inert_valueBinding : Inert valueBinding where
  clauseBytes := by decide
  braces := by decide
  head := ⟨99, rfl, rfl⟩
  tail := ⟨"const __mini_entry ", 61, 32, [], rfl, rfl, by decide, nofun, rfl⟩
  words := ⟨[], 99, "onst", 32, "__mini_entry ", 61, " ", rfl, rfl, rfl, rfl⟩
  keyword := by
    intro form
    cases form <;> decide
  inside := noneBegins_of_tails (by intro form; cases form <;> decide)

/-- `export default` begins no re-export. -/
lemma pattern_exportDefault {form : ReferenceForm} {u : Text} (hu : Blank u)
    (before : Option UInt8) (t : Text) :
    form.pattern before ("export" ++ (u ++ ("default" ++ t))) = none := by
  cases form with
  | importing => exact pattern_eq_none_of_word (by decide) before _
  | requiring => exact pattern_eq_none_of_word (by decide) before _
  | exporting =>
      rw [Option.eq_none_iff_forall_ne_some]
      rintro ⟨n, q⟩ h
      obtain ⟨-, clause, tail, heq, hclause, -⟩ := exportPattern_eq_some.1 h
      have heq := List.append_cancel_left heq
      -- behind the white space a clause goes on with a star or a brace
      have hstart : ∀ {u' : Text} {b : UInt8} {t' : Text}, Blank u' → Byte.isSpace b = false →
          u ++ ("default" ++ t) = u' ++ b :: t' → b = 100 := by
        intro u' b t' hu' hb h
        have hrest := (append_cons_inj hu hu' (b := 100) (by rfl) hb h).2
        exact (List.cons.inj hrest).1.symm
      cases hclause with
      | all hu' => exact absurd (hstart hu' rfl (by simpa using heq)) (by decide)
      | named hu' => exact absurd (hstart hu' rfl (by simpa using heq)) (by decide)
      | list hu' => exact absurd (hstart hu' rfl (by simpa using heq)) (by decide)

lemma NoneBegins.cons {b : UInt8} {t y : Text}
    (hb : ∀ (form : ReferenceForm) before, form.pattern before (b :: (t ++ y)) = none)
    (ht : NoneBegins t y) : NoneBegins (b :: t) y := by
  intro form before w hw hne
  rcases List.suffix_cons_iff.1 hw with rfl | hw
  · exact hb form before
  · exact ht form before w hw hne

lemma NoneBegins.append {t u y : Text} (ht : NoneBegins t (u ++ y)) (hu : NoneBegins u y) :
    NoneBegins (t ++ u) y := by
  intro form before w hw hne
  rcases suffix_append_cases hw with hw | ⟨t', ht', rfl⟩
  · exact hu form before w hw hne
  · cases t' with
    | nil => exact hu form before u (List.suffix_refl u) hne
    | cons b t' =>
        rw [List.append_assoc]
        exact ht form before _ ht' (List.cons_ne_nil b t')

lemma noneBegins_blank {u : Text} (hu : Blank u) (y : Text) : NoneBegins u y := by
  intro form before w hw hne
  obtain ⟨b, w, rfl⟩ := List.exists_cons_of_ne_nil hne
  exact pattern_eq_none_of_space (hu b (hw.subset List.mem_cons_self)) before _

/-- In `export` with `default` behind it no reference begins. -/
lemma noneBegins_export {u : Text} (hu : Blank u) (t : Text) :
    NoneBegins "export" (u ++ ("default" ++ t)) :=
  NoneBegins.cons (fun _ before => pattern_exportDefault hu before t)
    (noneBegins_of_tails (by intro form; cases form <;> decide) _)

lemma isClauseByte_of_blank {t : Text} (ht : Blank t) : ∀ b ∈ t, isClauseByte b = true := by
  intro b hb
  have hsemicolon : b ≠ Byte.semicolon := Byte.ne_of_class (ht b hb) rfl
  simp [isClauseByte, quoteFree_of_blank ht b hb, hsemicolon]

lemma not_mem_of_blank {t : Text} {b : UInt8} (ht : Blank t) (hb : Byte.isSpace b = false) :
    b ∉ t := by
  intro hmem
  rw [ht b hmem] at hb
  cases hb

/-- `export default` with white space behind it is inert. -/
lemma inert_exportDefault {u v : Text} (hu : Blank u) (hune : u ≠ []) (hv : Blank v)
    (hvne : v ≠ []) : Inert ("export" ++ (u ++ ("default" ++ v))) where
  clauseBytes := List.forall_mem_append.2 ⟨by decide, List.forall_mem_append.2
    ⟨isClauseByte_of_blank hu, List.forall_mem_append.2 ⟨by decide, isClauseByte_of_blank hv⟩⟩⟩
  braces := by
    simp only [List.mem_append, not_or]
    exact ⟨⟨by decide, not_mem_of_blank hu rfl, by decide, not_mem_of_blank hv rfl⟩,
      by decide, not_mem_of_blank hu rfl, by decide, not_mem_of_blank hv rfl⟩
  head := ⟨101, rfl, rfl⟩
  tail := by
    rcases List.eq_nil_or_concat' v with rfl | ⟨ws, c, rfl⟩
    · exact absurd rfl hvne
    · refine ⟨("export" : Text) ++ (u ++ ("defaul" : Text)), 116, c, ws, ?_, rfl, by decide,
        fun b hb => hv b (List.mem_append_left _ hb), hv c (by simp)⟩
      have hword : ("default" : Text) = ("defaul" : Text) ++ [116] := rfl
      rw [hword]
      simp
  words := by
    obtain ⟨c, u, rfl⟩ := List.exists_cons_of_ne_nil hune
    have hexport : ("export" : Text) = 101 :: ("xport" : Text) := rfl
    have hdefault : ("default" : Text) = 100 :: 101 :: ("fault" : Text) := rfl
    refine ⟨[], 101, "xport", c, u ++ [100], 101, ("fault" : Text) ++ v, ?_, rfl,
      hu c List.mem_cons_self, rfl⟩
    rw [hexport, hdefault]
    simp
  keyword := by
    intro form k hk hne hprefix
    -- two bytes decide: they are a prefix of `export`, and no keyword goes on with those
    have hshort : k.take 2 <+: ("export" : Text) :=
      List.prefix_of_prefix_length_le hprefix (List.prefix_append _ _) (by
        have hlength : ("export" : Text).length = 6 := rfl
        rw [List.length_take, hlength]
        omega)
    have hkeyword : ∀ form : ReferenceForm, ∀ k ∈ form.keyword.tail.tails, k ≠ [] →
        ¬ k.take 2 <+: ("export" : Text) := by
      intro form
      cases form <;> decide
    exact hkeyword form k hk hne hshort
  inside := by
    intro y
    have hexport : NoneBegins "export" (u ++ ("default" ++ v) ++ y) := by
      rw [List.append_assoc, List.append_assoc]
      exact noneBegins_export hu (v ++ y)
    have hdefault : NoneBegins "default" (v ++ y) :=
      noneBegins_of_tails (by intro form; cases form <;> decide) _
    exact hexport.append ((noneBegins_blank hu _).append (hdefault.append (noneBegins_blank hv y)))

/-! ### The statement and what it becomes -/

/-- What an export list with a default becomes. -/
lemma exists_of_bindInList? {items new : Text} (h : bindInList? items = some new) :
    ∃ exports name : Text, (exports = [] ∨ ∃ t, exports = ("export \x7b " : Text) ++ t)
      ∧ new = exports ++ "\nconst " ++ entryBinding ++ " = " ++ name ++ ";" := by
  rw [bindInList?] at h
  split at h
  · cases h
  · rename_i kept name _
    refine ⟨_, name, ?_, (Option.some.inj h).symm⟩
    split
    · exact Or.inl rfl
    · exact Or.inr ⟨_, List.append_assoc _ _ _⟩

lemma isWord_of_isTrailing {b : UInt8} (hb : isTrailing b = true) : Byte.isWord b = false := by
  rcases Bool.or_eq_true_iff.1 hb with hb | hb
  · exact isWord_of_isSpace hb
  · rw [eq_of_beq hb]
    rfl

lemma cutsClean_of_head? {part : Text} {b : UInt8} (hhead : part.head? = some b)
    (hslash : b ≠ Byte.slash) (hstar : b ≠ Byte.star) (hlast : atWordStart part.getLast? = true) :
    CutsClean part where
  ne_nil := by
    rintro rfl
    cases hhead
  slash := by simpa [hhead] using hslash
  star := by simpa [hhead] using hstar
  wordStart := hlast

namespace Rebinds

variable {old new : Text}

lemma cutsClean_old (h : Rebinds old new) : CutsClean old := by
  cases h with
  | @value u v hu hune hv hvne =>
      refine cutsClean_of_head? (b := 101) rfl (by decide) (by decide) ?_
      rcases List.eq_nil_or_concat' v with rfl | ⟨v, b, rfl⟩
      · exact absurd rfl hvne
      · simp only [← List.append_assoc]
        exact atWordStart_concat (isWord_of_isSpace (hv b (by simp)))
  | @list head items w _ hhead hw hnew =>
      obtain ⟨-, u, -, rfl⟩ := hhead
      refine cutsClean_of_head? (b := 101) rfl (by decide) (by decide) ?_
      rcases List.eq_nil_or_concat' w with rfl | ⟨w, b, rfl⟩
      · have hsplit :
            ("export" : Text) ++ (u ++ Byte.openBrace :: (items ++ [Byte.closeBrace])) ++ []
              = (("export" : Text) ++ (u ++ Byte.openBrace :: items)) ++ [Byte.closeBrace] := by
          simp
        rw [hsplit]
        exact atWordStart_concat (by rfl)
      · rw [← List.append_assoc]
        exact atWordStart_concat (isWord_of_isTrailing (hw b (by simp)))

lemma cutsClean_new (h : Rebinds old new) : CutsClean new := by
  cases h with
  | value => exact cutsClean_of_head? (b := 99) rfl (by decide) (by decide) (by decide)
  | list _ _ hnew =>
      obtain ⟨exports, name, rfl | ⟨t, rfl⟩, rfl⟩ := exists_of_bindInList? hnew
      · exact cutsClean_of_head? (b := 10) rfl (by decide) (by decide) (atWordStart_concat (by rfl))
      · exact cutsClean_of_head? (b := 101) rfl (by decide) (by decide)
          (atWordStart_concat (by rfl))

/-- A statement that becomes the binding of a value is inert, and plain code. -/
lemma inert_of_value (h : Rebinds old valueBinding) : Inert old ∧ Lexer.Reads .code old .code := by
  generalize hnew : valueBinding = new at h
  cases h with
  | @value u v hu hune hv hvne =>
      have hword : ∀ word : Text, (∀ b ∈ word, b ≠ Byte.slash ∧ opensLiteral b = false) →
          Lexer.Reads .code word .code := fun _ => .code
      exact ⟨inert_exportDefault hu hune hv hvne, (hword "export" (by decide)).append
        ((reads_blank hu).append ((hword "default" (by decide)).append (reads_blank hv)))⟩
  | list _ _ hlist =>
      -- what a list becomes begins otherwise
      obtain ⟨exports, name, rfl | ⟨t, rfl⟩, hsplit⟩ := exists_of_bindInList? hlist
      · cases (congrArg List.head? (hnew.trans hsplit))
      · cases (congrArg List.head? (hnew.trans hsplit))

end Rebinds

/-! ### Plain code -/

/-- A position of plain code, outside comments and literals. -/
def InCode (code : Text) (position : ℕ) : Prop :=
  ((classify code)[position]?).map Prod.snd = some .plain

instance (code : Text) (position : ℕ) : Decidable (InCode code position) :=
  inferInstanceAs (Decidable (_ = _))

lemma eq_code_of_step {s : Lexer} {b : UInt8} {next : Option UInt8}
    (h : (s.step b next).2 = .plain) (hb : b ≠ Byte.newline) : s = .code := by
  cases s with
  | code => rfl
  | line => simp [Lexer.step, hb] at h
  | literal q =>
      simp only [Lexer.step] at h
      split_ifs at h
  | opening isBlock => cases h
  | block => cases h
  | closing => cases h
  | escaped q => cases h

/-- In front of a word of plain code the lexer is in plain code. -/
lemma over_eq_code {pre part post : Text} (hpart : CutsClean part)
    (hhead : part.head? ≠ some Byte.newline) (h : InCode (pre ++ (part ++ post)) pre.length) :
    Lexer.over .code pre = .code := by
  have hsame : (part ++ post).head? = part.head? := List.head?_append_of_ne_nil _ hpart.ne_nil
  rw [InCode, classify, classifyFrom_append (hsame ▸ hpart.slash) (hsame ▸ hpart.star),
    List.getElem?_append_right (by simp), length_classifyFrom, Nat.sub_self] at h
  obtain ⟨b, part, rfl⟩ := List.exists_cons_of_ne_nil hpart.ne_nil
  exact eq_code_of_step (Option.some.inj h) (by simpa using hhead)

/-! ### The imports of a script whose default export is bound -/

/-- What follows the statement of a default export is masked as before. -/
def DefaultExport.MaskedAlike (e : DefaultExport) (code : Text) : Prop :=
  (maskComments (e.bind code)).drop (e.start + e.new.length)
    = (maskComments code).drop (e.start + e.length)

instance (e : DefaultExport) (code : Text) : Decidable (e.MaskedAlike code) :=
  inferInstanceAs (Decidable (_ = _))

/-- A script with a default export, as one in which a part is replaced. -/
lemma exists_replacement {code : Text} {e : DefaultExport} (h : defaultExport? code = some e) :
    ∃ c : Replacement, c.source = code ∧ e = ⟨c.pre.length, c.old.length, c.new⟩
      ∧ e.bind code = c.result ∧ Rebinds c.old c.new := by
  obtain ⟨pre, old, post, rfl, hstart, hlength, hrebinds⟩ := exists_of_defaultExport? h
  refine ⟨⟨pre, old, e.new, post⟩, rfl, ?_, ?_, hrebinds⟩
  · rw [← hstart, ← hlength]
  · rw [DefaultExport.bind, hstart, hlength, List.take_left, ← List.drop_drop, List.drop_left,
      List.drop_left]
    rfl

/-- What is cut cleanly may be cut further on. -/
lemma CutsClean.append {part tail : Text} (h : CutsClean part)
    (htail : atWordStart tail.getLast? = true) : CutsClean (part ++ tail) := by
  obtain ⟨b, part', rfl⟩ := List.exists_cons_of_ne_nil h.ne_nil
  refine ⟨by simp, h.slash, h.star, ?_⟩
  rcases List.eq_nil_or_concat' tail with rfl | ⟨t, d, rfl⟩
  · rw [List.append_nil]
    exact h.wordStart
  · rw [List.getLast?_concat] at htail
    rw [← List.append_assoc, List.getLast?_concat, htail]

namespace Replacement

variable {c : Replacement}

/-- The same replacement with the first bytes of what follows taken into the part. -/
def extend (c : Replacement) (k : ℕ) : Replacement :=
  ⟨c.pre, c.old ++ c.post.take k, c.new ++ c.post.take k, c.post.drop k⟩

@[simp] lemma source_extend (c : Replacement) (k : ℕ) : (c.extend k).source = c.source := by
  simp [extend, source]

@[simp] lemma result_extend (c : Replacement) (k : ℕ) : (c.extend k).result = c.result := by
  simp [extend, result]

lemma MaskedAlike.extend (h : c.MaskedAlike) (k : ℕ) : (c.extend k).MaskedAlike := by
  have hdrop := congrArg (List.drop (c.post.take k).length) h
  rw [MaskedAlike, source_extend, result_extend]
  simpa [Replacement.extend, List.drop_drop, Nat.add_assoc] using hdrop

/-- What follows the part, up to the end of a reference that begins with it: a word may start behind
it. -/
lemma atWordStart_take_post {form : ReferenceForm} {ref : Reference}
    (href : ref ∈ references form c.source) (hstart : ref.start = c.pre.length) {k : ℕ}
    (hk : ref.length = c.old.length + k) :
    (c.post.take k).length = k ∧ atWordStart (c.post.take k).getLast? = true := by
  obtain ⟨b, hlast, hends, hpos⟩ := exists_last_of_mem_references href
  have hsource : c.source = c.pre ++ c.old ++ c.post := by rw [source, List.append_assoc]
  have hfits : k ≤ c.post.length := by
    have := (List.getElem?_eq_some_iff.1 hlast).1
    rw [hsource, List.length_append, List.length_append] at this
    omega
  have htake : (c.post.take k).length = k := by
    rw [List.length_take]
    omega
  refine ⟨htake, ?_⟩
  -- the last byte of the reference, a quote or parenthesis, lies in the part or behind it
  rcases List.eq_nil_or_concat' (c.post.take k) with hnil | ⟨t, d, hconcat⟩
  · rw [hnil]
    rfl
  · have hlong := congrArg List.length hconcat
    rw [htake, List.length_append, List.length_singleton] at hlong
    have hindex : ref.start + (ref.length - 1) = (c.pre ++ c.old ++ t).length := by
      rw [List.length_append, List.length_append]
      omega
    have hsplit : c.source = (c.pre ++ c.old ++ t) ++ d :: c.post.drop k := by
      rw [hsource]
      conv_lhs => rw [← List.take_append_drop k c.post, hconcat]
      simp
    rw [hsplit, hindex, List.getElem?_append_right (le_refl _), Nat.sub_self] at hlast
    obtain rfl : d = b := Option.some.inj hlast
    rw [hconcat]
    exact atWordStart_concat (isWord_of_endsReference hends)

/-- **A re-export that begins with the part** is lost with it, and nothing else is. -/
lemma mem_scanImports_reexport (hold : CutsClean c.old) (hnew : CutsClean c.new)
    (hmask : c.MaskedAlike) {form : ReferenceForm} {ref : Reference}
    (href : ref ∈ references form c.source) (hstart : ref.start = c.pre.length)
    (hlength : c.old.length ≤ ref.length)
    (honly : ∀ form', ∀ ref' ∈ references form' c.source,
      Meets ref'.start ref'.length ref.start ref.length → ref' = ref)
    (hresult : NoneMeets c.result c.pre.length (c.new.length + (ref.length - c.old.length)))
    (spec : Text) :
    spec ∈ scanImports c.source ↔ spec ∈ scanImports c.result ∨ spec = ref.spec := by
  obtain ⟨k, hk⟩ := Nat.exists_eq_add_of_le hlength
  rw [hk, Nat.add_sub_cancel_left] at hresult
  -- the part is taken up to the end of the reference, which then lies in it
  obtain ⟨htake, htail⟩ := atWordStart_take_post href hstart hk
  have hextend : (c.extend k).old.length = ref.length := by
    rw [extend, List.length_append, htake, hk]
  have hextend' : (c.extend k).new.length = c.new.length + k := by
    rw [extend, List.length_append, htake]
  have hacross : ∀ form', NoneAcross form' c.source c.pre.length (c.extend k).old.length := by
    intro form' hit hhit hmeets
    have honly := honly form'
    rw [references, List.forall_mem_map] at honly
    rw [hextend, ← hstart] at hmeets ⊢
    have heq := honly hit hhit hmeets
    have hhstart : hit.start = ref.start := congrArg Reference.start heq
    have hhlength : hit.length = ref.length := congrArg Reference.length heq
    omega
  have h := (c.extend k).mem_scanImports_source (hold.append htail) (hnew.append htail)
    (hmask.extend k) (by rwa [source_extend]) (by rwa [result_extend, hextend']) spec
  rw [source_extend, result_extend] at h
  rw [h]
  refine or_congr_right ⟨?_, ?_⟩
  · rintro ⟨form', ref', href', hmeets, rfl⟩
    rw [hextend] at hmeets
    rw [honly form' ref' href' (hstart ▸ hmeets)]
  · rintro rfl
    refine ⟨form, ref, href, ?_, rfl⟩
    obtain ⟨-, -, -, hpos⟩ := exists_last_of_mem_references href
    rw [hextend, hstart, Meets]
    exact ⟨Nat.lt_add_of_pos_right hpos, Nat.lt_add_of_pos_right hpos⟩

end Replacement

/-- The scan of a script whose references come in their order. -/
lemma scanImports_of_pairwise {code : Text} (h : (sites code).Pairwise fun a b => a.1 ≤ b.1) :
    scanImports code = ((sites code).map Prod.snd).eraseDups := by
  rw [scanImports_eq, List.mergeSort_of_pairwise (by simpa using h)]

/-- **What binding the default export does to the imports.** The statement of the default export is
replaced. For `export default` in plain code the scan finds the same specifiers in the same order,
exactly if it finds the binding in none; for any statement it does if what follows is masked as
before and no reference meets the statement or what it becomes. A re-export that begins with the
statement is lost, and nothing else is. -/
theorem scanImports_bindDefaultExport {code : Text} {e : DefaultExport}
    (h : defaultExport? code = some e) :
    bindDefaultExport code = some (e.bind code)
      ∧ (e.new = valueBinding → InCode code e.start →
        (∀ spec ∈ scanImports code, ¬ valueBinding <:+: spec) →
          (scanImports (e.bind code) = scanImports code
            ↔ ∀ spec ∈ scanImports (e.bind code), ¬ valueBinding <:+: spec))
      ∧ (e.MaskedAlike code → NoneMeets code e.start e.length →
        NoneMeets (e.bind code) e.start e.new.length →
          scanImports (e.bind code) = scanImports code)
      ∧ (e.MaskedAlike code → ∀ form, ∀ ref ∈ references form code,
        ref.start = e.start → e.length ≤ ref.length →
        (∀ form', ∀ ref' ∈ references form' code,
          Meets ref'.start ref'.length ref.start ref.length → ref' = ref) →
        NoneMeets (e.bind code) e.start (e.new.length + (ref.length - e.length)) →
          ∀ spec,
            spec ∈ scanImports code ↔ spec ∈ scanImports (e.bind code) ∨ spec = ref.spec) := by
  obtain ⟨c, rfl, he, hbind, hrebinds⟩ := exists_replacement h
  have hold := hrebinds.cutsClean_old
  have hnew := hrebinds.cutsClean_new
  rw [DefaultExport.MaskedAlike, hbind]
  subst he
  refine ⟨by rw [bindDefaultExport_eq, h, Option.map_some, hbind], fun hvalue hcode hfree => ?_,
    fun hmask hsource hresult => c.scanImports_result hold hnew hmask hsource hresult,
    fun hmask form ref href hstart hlength honly hresult =>
      c.mem_scanImports_reexport hold hnew hmask href hstart hlength honly hresult⟩
  dsimp only at hvalue hcode
  rw [hvalue] at hrebinds
  -- for a value, statement and binding are inert and are read as code
  obtain ⟨hinert, hreads⟩ := hrebinds.inert_of_value
  have hword : c.old.head? ≠ some Byte.newline := by
    obtain ⟨b, hb, hword⟩ := hinert.head
    rw [hb]
    exact fun h => Byte.ne_of_class hword rfl (Option.some.inj h)
  have hpre : Lexer.over .code c.pre = .code := over_eq_code hold hword hcode
  have hreads' : Lexer.Reads .code valueBinding .code := .code (by decide)
  rw [← hvalue] at hreads' ⊢
  refine ⟨fun heq => ?_, c.scanImports_inert hinert ?_ ?_ hpre hreads hreads'⟩
  · rw [heq, hvalue]
    exact hfree
  · exact hvalue ▸ inert_valueBinding
  · rw [hvalue]
    decide

/-- The general case at a script for each of its parts. -/
theorem scanImports_bindDefaultExport_scripts :
    scanImports ((DefaultExport.mk 21 15 valueBinding).bind
          "import a from './a';\nexport default a;\n")
        = scanImports "import a from './a';\nexport default a;\n"
      ∧ scanImports ((DefaultExport.mk 14 27 "export \x7b y \x7d;\nconst __mini_entry = X;").bind
          "import './a';\nexport \x7b X as default, y \x7d;\n")
        = scanImports "import './a';\nexport \x7b X as default, y \x7d;\n"
      ∧ ∀ spec, spec ∈ scanImports "export \x7b X as default \x7d from './m';\n"
          ↔ spec ∈ scanImports ((DefaultExport.mk 0 24 "\nconst __mini_entry = X;").bind
            "export \x7b X as default \x7d from './m';\n") ∨ spec = "./m" := by
  refine ⟨?_, ?_, ?_⟩
  · obtain ⟨-, hvalue, -, -⟩ := scanImports_bindDefaultExport
      (by decide +kernel : defaultExport? "import a from './a';\nexport default a;\n"
        = some ⟨21, 15, valueBinding⟩)
    refine (hvalue rfl (by decide +kernel) ?_).2 ?_
    · rw [scanImports_of_pairwise (by decide +kernel)]
      decide +kernel
    · rw [scanImports_of_pairwise (by decide +kernel)]
      decide +kernel
  · obtain ⟨-, -, hlist, -⟩ := scanImports_bindDefaultExport
      (by decide +kernel : defaultExport? "import './a';\nexport \x7b X as default, y \x7d;\n"
        = some ⟨14, 27, "export \x7b y \x7d;\nconst __mini_entry = X;"⟩)
    refine hlist (by decide +kernel) ?_ ?_ <;>
    · intro form
      cases form <;> decide +kernel
  · obtain ⟨-, -, -, hreexport⟩ := scanImports_bindDefaultExport
      (by decide +kernel : defaultExport? "export \x7b X as default \x7d from './m';\n"
        = some ⟨0, 24, "\nconst __mini_entry = X;"⟩)
    refine hreexport (by decide +kernel) .exporting ⟨0, 34, 30, "./m"⟩ (by decide +kernel) rfl
      (by decide) ?_ ?_
    · intro form
      cases form <;> decide +kernel
    · intro form
      cases form <;> decide +kernel

/-- **Imports can change.** Of a re-export the specifier is lost; an export list in a comment opens
a new line, and what follows it is read; and a specifier with `export default` in it is altered. -/
theorem exists_scanImports_bindDefaultExport_ne :
    (∃ code out, bindDefaultExport code = some out
        ∧ scanImports code = ["./m"] ∧ scanImports out = [])
      ∧ (∃ code out, bindDefaultExport code = some out
        ∧ scanImports code = [] ∧ scanImports out = ["./m"])
      ∧ ∃ code out, bindDefaultExport code = some out
        ∧ scanImports code = ["./export default x"]
        ∧ scanImports out = ["./const __mini_entry = x"] := by
  have hscan : ∀ {code : Text} {specs : List Text},
      (sites code).Pairwise (fun a b => a.1 ≤ b.1) →
        ((sites code).map Prod.snd).eraseDups = specs → scanImports code = specs := by
    intro code specs h hspecs
    rw [scanImports_of_pairwise h, hspecs]
  refine ⟨⟨"export \x7b X as default \x7d from './m';\n", "\nconst __mini_entry = X;from './m';\n",
      by decide +kernel, hscan ?_ ?_, hscan ?_ ?_⟩,
    ⟨"// export \x7b X as default \x7d import './m'\n",
      "// \nconst __mini_entry = X;import './m'\n", by decide +kernel, hscan ?_ ?_, hscan ?_ ?_⟩,
    ⟨"import './export default x';\n", "import './const __mini_entry = x';\n",
      by decide +kernel, hscan ?_ ?_, hscan ?_ ?_⟩⟩ <;>
  decide +kernel

end Script

end MiniProgram
