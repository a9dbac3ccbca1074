import MiniProgram.Proofs.Script.Scan
import MiniProgram.Script.Interop

/-!
Tidy scripts, in which calls of `require` are found with comments masked as they are found without.

A script is tidy if every call of `require` with a string stands in plain code, its string is a
literal between equal quotes without escapes and no comment follows it, and no `import` or `export`
stands outside comments. Comments may hold anything but such a call.

* `isTidy`: the condition, which can be computed.
* `requirePattern_maskFrom`: in a tidy script masking changes nothing about calls of `require`.
* `mem_scanImports_of_isTidy`: **the scan of a tidy script finds what the script requires.**
-/

namespace MiniProgram

namespace Script

open Text

/-! ### The condition -/

/-- Whether a test holds at every position of a text, given the state of the lexer there and the
byte before. -/
def everywhere (p : Lexer → Option UInt8 → Text → Bool) : Lexer → Option UInt8 → Text → Bool
  | _, _, [] => true
  | s, before, b :: t => p s before (b :: t) && everywhere p (s.step b t.head?).1 (some b) t

/-- Whether a literal between equal quotes without escapes begins a text, and no comment follows
it. -/
def isPlainArgument (t : Text) : Bool :=
  match quotedSpec? t with
  | some (spec, rest) =>
    t[0]? == t[spec.length + 1]? && !spec.contains Byte.backslash
      && (skipSpace rest).head? != some Byte.slash
  | none => false

/-- Whether the argument of a call of `require` can be read alike with comments masked: a string is
a plain literal in code, and anything else begins with no comment, unless a comment holds the
call. -/
def isTidyArgument (s : Lexer) (argument : Text) : Bool :=
  if argument.head?.any Byte.isQuote then s == .code && isPlainArgument argument
  else s.inComment || argument.head? != some Byte.slash

/-- Whether a script is tidy at a position. -/
def isTidyAt (s : Lexer) (before : Option UInt8) (t : Text) : Bool :=
  (afterWord? "require(" before t).all (fun rest => isTidyArgument s (skipSpace rest))
    && (s.inComment || !((afterWord? "import" before t).any atWordEnd
      || (afterWord? "export" before t).any atWordEnd))

/-- Whether a script is tidy. -/
def isTidy (code : Text) : Bool := everywhere isTidyAt .code none code

/-! ### Positions -/

variable {p : Lexer → Option UInt8 → Text → Bool} {s s' : Lexer} {before before' : Option UInt8}
  {b : UInt8} {t u : Text} {n : Nat} {q : Quoted}

lemma everywhere_cons :
    everywhere p s before (b :: t) = true
      ↔ p s before (b :: t) = true ∧ everywhere p (s.step b t.head?).1 (some b) t = true := by
  rw [everywhere, Bool.and_eq_true]

lemma everywhere_mono {p' : Lexer → Option UInt8 → Text → Bool}
    (hp : ∀ s before t, p s before t = true → p' s before t = true)
    (h : everywhere p s before t = true) : everywhere p' s before t = true := by
  induction t generalizing s before with
  | nil => rfl
  | cons b t ih =>
      obtain ⟨hhere, hrest⟩ := everywhere_cons.1 h
      exact everywhere_cons.2 ⟨hp _ _ _ hhere, ih hrest⟩

/-- What holds everywhere in a text holds everywhere in what follows a part of it. -/
lemma everywhere_of_reads (hreads : Lexer.Reads s t s')
    (h : everywhere p s before (t ++ u) = true) :
    everywhere p s' (t.getLast?.or before) u = true := by
  induction hreads generalizing before with
  | nil => exact h
  | @cons s _ _ b t step rest ih =>
      obtain ⟨-, h⟩ := everywhere_cons.1 h
      rw [(step _).1] at h
      have := ih h
      cases t with
      | nil => exact this
      | cons c t => exact this

lemma isPlainArgument_iff :
    isPlainArgument t = true
      ↔ ∃ o spec rest, Byte.isQuote o = true ∧ IsSpec spec ∧ Byte.backslash ∉ spec
        ∧ (skipSpace rest).head? ≠ some Byte.slash ∧ t = o :: (spec ++ o :: rest) := by
  constructor
  · intro h
    rw [isPlainArgument] at h
    split at h
    · rename_i spec rest hfound
      obtain ⟨hspec, o, e, ho, -, rfl⟩ := quotedSpec?_eq_some.1 hfound
      simp only [Bool.and_eq_true, beq_iff_eq, bne_iff_ne, Bool.not_eq_true',
        List.contains_eq_mem, decide_eq_false_iff_not] at h
      obtain ⟨⟨hquotes, hescape⟩, hcomment⟩ := h
      obtain rfl : o = e := by simpa using hquotes
      exact ⟨o, spec, rest, ho, hspec, hescape, hcomment, rfl⟩
    · cases h
  · rintro ⟨o, spec, rest, ho, hspec, hescape, hcomment, rfl⟩
    rw [isPlainArgument, quotedSpec?_eq_some.2 ⟨hspec, o, o, ho, ho, rfl⟩]
    simp [hescape, hcomment]

/-- The call of `require` with a given literal, as far as it can be recognised. -/
lemma requirePattern_literal (hbefore : atWordStart before = true) {ws spec : Text} {o : UInt8}
    (hws : Blank ws) (ho : Byte.isQuote o = true) (hspec : IsSpec spec) (rest : Text) :
    requirePattern before ("require(" ++ (ws ++ o :: (spec ++ o :: rest)))
      = if (skipSpace rest).head? = some Byte.closeParen then
          some (("require(" ++ (ws ++ o :: (spec ++ o :: rest)) : Text).length
            - ((skipSpace rest).length - 1), ⟨("require(" ++ ws : Text).length + 1, spec⟩)
        else none := by
  rw [requirePattern_eq, afterWord?_eq_some.2 ⟨hbefore, rfl⟩, Option.bind_some,
    skipSpace_append_cons hws (isSpace_of_isQuote ho),
    quotedSpec?_eq_some.2 ⟨hspec, o, o, ho, ho, rfl⟩, Option.bind_some]
  have hlead : ("require(" ++ (ws ++ o :: (spec ++ o :: rest)) : Text).length
      - (o :: (spec ++ o :: rest)).length + 1 = ("require(" ++ ws : Text).length + 1 := by
    simp only [List.length_append]
    omega
  simp only [hlead]
  cases skipSpace rest with
  | nil => rfl
  | cons c tail =>
      by_cases hc : c = Byte.closeParen
      · subst hc
        rfl
      · rw [if_neg (by simpa using hc)]
        split
        · rename_i h
          exact absurd (List.cons.inj h).1 hc
        · rfl

/-- Inside a literal the bytes of a specifier without escapes keep the state. -/
lemma step_literal {spec : Text} {o : UInt8} (ho : Byte.isQuote o = true) (hspec : IsSpec spec)
    (hescape : Byte.backslash ∉ spec) (hb : b ∈ spec) (next : Option UInt8) :
    (Lexer.literal o).step b next = (.literal o, .literal) := by
  obtain ⟨-, hline⟩ := isInner_iff.1 (hspec.2 b hb)
  have hne : b ≠ o := Byte.ne_of_class (hspec.2 b hb) (isInner_of_isQuote ho)
  have hplain : b ≠ Byte.backslash := by
    rintro rfl
    exact hescape hb
  simp [Lexer.step, endsLiteral, hne, hplain, hline]

/-- A call of `require` is read outside comments up to the end of a plain literal. -/
lemma reads_require {ws spec : Text} {o : UInt8} (hws : Blank ws) (ho : Byte.isQuote o = true)
    (hspec : IsSpec spec) (hescape : Byte.backslash ∉ spec) :
    Lexer.Reads .code ("require(" ++ (ws ++ o :: (spec ++ [o]))) .code := by
  have hword : Lexer.Reads .code "require(" .code := .code (by decide)
  have hbody : Lexer.Reads (.literal o) spec (.literal o) := by
    refine .of_forall fun b hb next => ?_
    rw [step_literal ho hspec hescape hb]
    exact ⟨rfl, nofun⟩
  exact hword.append ((reads_blank hws).append (.quoted ho hbody))

/-! ### Masking in a tidy script -/

lemma isTidyAt_iff :
    isTidyAt s before t = true
      ↔ (∀ rest, afterWord? "require(" before t = some rest →
          isTidyArgument s (skipSpace rest) = true)
        ∧ (s.inComment = false → ∀ rest, afterWord? "import" before t = some rest
          ∨ afterWord? "export" before t = some rest → atWordEnd rest = false) := by
  rw [isTidyAt, Bool.and_eq_true, Option.all_eq_true]
  refine and_congr Iff.rfl ?_
  cases s.inComment with
  | true => simp
  | false =>
      simp only [Bool.false_or, Bool.not_eq_true', Bool.or_eq_false_iff, Option.any_eq_false,
        forall_const, or_imp, forall_and]

/-- Where a comment holds a position, no form is recognised in the masked script. -/
lemma pattern_maskFrom_of_inComment {form : ReferenceForm} (hs : s.inComment = true)
    (masked : Option UInt8) (t : Text) : form.pattern masked (maskFrom s t) = none := by
  cases t with
  | nil => exact pattern_eq_none_of_not_isPrefix (by rw [maskFrom_nil]; cases form <;> decide)
  | cons b t =>
      rw [maskFrom_cons]
      refine pattern_cons_eq_none ?_ _
      rcases Lexer.maskByte_of_inComment hs b t.head? with h | h <;> rw [h] <;>
        cases form <;> decide

/-- An argument that begins with no quote is no specifier. -/
lemma quotedSpec?_eq_none (h : t.head?.any Byte.isQuote = false) : quotedSpec? t = none := by
  rw [Option.eq_none_iff_forall_ne_some]
  rintro ⟨spec, rest⟩ hfound
  obtain ⟨-, o, e, ho, -, rfl⟩ := quotedSpec?_eq_some.1 hfound
  rw [List.head?_cons, Option.any_some, ho] at h
  cases h

/-- Outside comments a word stands in the masked script where it stands in the script. -/
lemma exists_afterWord?_maskFrom {masked : Option UInt8} {word : Text}
    (hword : ∀ b ∈ word, b ≠ Byte.slash ∧ b ≠ Byte.space) (hbeside : Beside s before masked t)
    (hs : s.inComment = false) :
    ∃ s', s'.inComment = false
      ∧ afterWord? word masked (maskFrom s t) = (afterWord? word before t).map (maskFrom s') := by
  obtain ⟨s', hs', hmask⟩ := exists_after?_maskFrom hword hs t
  refine ⟨s', hs', ?_⟩
  rw [afterWord?, afterWord?, hbeside.wordStart hs, hmask]
  cases atWordStart before with
  | true => rfl
  | false => rfl

/-- A call of `require` in a tidy script stands in code, and its argument is a plain literal. -/
lemma exists_call (htidy : isTidyAt s before t = true)
    (h : requirePattern before t = some (n, q)) :
    s = .code ∧ ∃ text rest, t = text ++ rest ∧ n = text.length ∧ text ≠ []
      ∧ text.getLast? = some Byte.closeParen ∧ Lexer.Reads .code text .code := by
  obtain ⟨hstart, _, rest, rfl, rfl, ws, o, e, _, hws, hspec, ho, he, ⟨ws', hws', rfl⟩, rfl, -⟩ :=
    requirePattern_eq_some.1 h
  obtain ⟨hrequire, -⟩ := isTidyAt_iff.1 htidy
  have hargument := hrequire (ws ++ o :: (q.spec ++ e :: (ws' ++ Byte.closeParen :: rest)))
    (afterWord?_eq_some.2 ⟨hstart, by simp [ReferenceForm.keyword]⟩)
  rw [skipSpace_append_cons hws (isSpace_of_isQuote ho), isTidyArgument, List.head?_cons,
    Option.any_some, ho, if_pos rfl, Bool.and_eq_true, beq_iff_eq, isPlainArgument_iff] at hargument
  obtain ⟨rfl, o', spec, tail, ho', hspec', hescape, -, harg⟩ := hargument
  -- the two readings of the argument agree, so its quotes are equal
  obtain ⟨rfl, harg⟩ := List.cons.inj harg
  obtain ⟨rfl, hclose⟩ := append_cons_inj hspec.2 hspec'.2 (isInner_of_isQuote he)
    (isInner_of_isQuote ho') harg
  obtain ⟨rfl, -⟩ := List.cons.inj hclose
  have hsplit : ReferenceForm.requiring.keyword
      ++ (ws ++ e :: (q.spec ++ e :: (ws' ++ [Byte.closeParen])))
      = (("require(" ++ (ws ++ e :: (q.spec ++ [e]))) ++ ws') ++ [Byte.closeParen] := by
    simp [ReferenceForm.keyword]
  refine ⟨rfl, _, rest, rfl, rfl, by simp, ?_, ?_⟩
  · rw [hsplit, List.getLast?_concat]
  · rw [hsplit]
    exact ((reads_require hws he hspec hescape).append (reads_blank hws')).append
      (.code (by decide))

/-- In a tidy script masking changes nothing about calls of `require`. -/
lemma requirePattern_maskFrom {masked : Option UInt8} (hbeside : Beside s before masked t)
    (htidy : isTidyAt s before t = true) :
    requirePattern masked (maskFrom s t) = requirePattern before t := by
  cases hs : s.inComment with
  | true =>
      -- a tidy script has no call in a comment, and nothing is found in what is masked
      have hnone : requirePattern before t = none := by
        rw [Option.eq_none_iff_forall_ne_some]
        rintro ⟨n, q⟩ hfound
        obtain ⟨rfl, -⟩ := exists_call htidy hfound
        cases hs
      have hmask : ReferenceForm.requiring.pattern masked (maskFrom s t) = none :=
        pattern_maskFrom_of_inComment hs masked t
      exact hmask.trans hnone.symm
  | false =>
      have hword : ∀ b ∈ ("require(" : Text), b ≠ Byte.slash ∧ b ≠ Byte.space := by decide
      obtain ⟨s', hs', hmask⟩ := exists_afterWord?_maskFrom hword hbeside hs
      cases hafter : afterWord? "require(" before t with
      | none =>
          rw [requirePattern_eq, requirePattern_eq, hmask, hafter, Option.map_none,
            Option.bind_none, Option.bind_none]
      | some rest =>
          have hargument := (isTidyAt_iff.1 htidy).1 rest hafter
          rw [isTidyArgument] at hargument
          split at hargument
          · -- the literal is not masked, and what follows it begins alike
            rw [Bool.and_eq_true, beq_iff_eq, isPlainArgument_iff] at hargument
            obtain ⟨rfl, o, spec, tail, ho, hspec, hescape, hslash, harg⟩ := hargument
            obtain ⟨hstart, rfl⟩ := afterWord?_eq_some.1 hafter
            obtain ⟨ws, hws, hrest⟩ := exists_blank_append rest
            obtain ⟨s'', hs'', hskip⟩ := exists_skipSpace_maskFrom (s := .code) rfl hslash
            have hsplit : ∀ u : Text, ("require(" : Text) ++ (ws ++ o :: (spec ++ o :: u))
                = ("require(" ++ (ws ++ o :: (spec ++ [o]))) ++ u := by simp
            rw [harg] at hrest
            rw [hrest, hsplit, (reads_require hws ho hspec hescape).maskFrom_append, ← hsplit,
              ← hsplit, requirePattern_literal hstart hws ho hspec,
              requirePattern_literal ((hbeside.wordStart rfl).trans hstart) hws ho hspec, hskip,
              head?_maskFrom hs'' hslash, length_maskFrom]
            simp only [List.length_append, List.length_cons, length_maskFrom]
          · -- no string is the argument of the call, in the script or in the masked script
            rename_i hquote
            rw [Bool.not_eq_true] at hquote
            rw [hs, Bool.false_or, bne_iff_ne] at hargument
            obtain ⟨s'', hs'', hskip⟩ := exists_skipSpace_maskFrom hs' hargument
            have hquote' : (maskFrom s'' (skipSpace rest)).head?.any Byte.isQuote = false := by
              rwa [head?_maskFrom hs'' hargument]
            rw [requirePattern_eq, requirePattern_eq, hmask, hafter, Option.map_some,
              Option.bind_some, Option.bind_some, hskip, quotedSpec?_eq_none hquote,
              quotedSpec?_eq_none hquote', Option.bind_none, Option.bind_none]

/-- In a tidy script no `import` and no `export` is recognised. -/
lemma pattern_maskFrom {form : ReferenceForm} (hform : form ≠ .requiring) {masked : Option UInt8}
    (hbeside : Beside s before masked t) (htidy : isTidyAt s before t = true) :
    form.pattern masked (maskFrom s t) = none := by
  obtain ⟨-, hwords⟩ := isTidyAt_iff.1 htidy
  cases hs : s.inComment with
  | true => exact pattern_maskFrom_of_inComment hs masked t
  | false =>
      rw [Option.eq_none_iff_forall_ne_some]
      intro found hfound
      obtain ⟨hstart, rest, hrest, hend⟩ := exists_keyword hfound
      have hplain : ∀ b ∈ form.keyword, b ≠ Byte.slash ∧ b ≠ Byte.space := by cases form <;> decide
      obtain ⟨s', hs', hmask⟩ := exists_afterWord?_maskFrom hplain hbeside hs
      rw [afterWord?_eq_some.2 ⟨hstart, hrest⟩, eq_comm, Option.map_eq_some_iff] at hmask
      obtain ⟨y, hfound, rfl⟩ := hmask
      -- the word ends in the script where it ends in the masked script
      have hend' : atWordEnd y = true := by
        by_contra hword
        rw [atWordEnd, Bool.not_eq_true, Bool.not_eq_false', Option.any_eq_true] at hword
        obtain ⟨b, hb, hword⟩ := hword
        have hne : y.head? ≠ some Byte.slash := by
          rw [hb]
          rintro ⟨⟩
          cases hword
        have := hend hform
        rw [atWordEnd, head?_maskFrom hs' hne, hb, Option.any_some, hword] at this
        cases this
      have hnot : atWordEnd y = false := by
        cases form with
        | importing => exact hwords hs y (Or.inl hfound)
        | exporting => exact hwords hs y (Or.inr hfound)
        | requiring => exact absurd rfl hform
      rw [hend'] at hnot
      cases hnot

/-- What is read in the masked script is what a search of the script itself finds. -/
lemma readFrom_requiring {masked : Option UInt8} (hbeside : Beside s before masked t)
    (htidy : everywhere isTidyAt s before t = true) (position skip : Nat) :
    readFrom requirePattern masked skip (maskFrom s t) t
      = (Search.hitsFrom requirePattern before position skip t).map (·.found.spec) := by
  induction t generalizing s before masked position skip with
  | nil => rw [maskFrom_nil, readFrom_nil, Search.hitsFrom_nil, List.map_nil]
  | cons b t ih =>
      obtain ⟨hhere, hrest⟩ := everywhere_cons.1 htidy
      have ih := fun position skip => ih hbeside.step hrest position skip
      have hfound := requirePattern_maskFrom hbeside hhere
      rw [maskFrom_cons] at hfound ⊢
      cases skip with
      | succ skip =>
          rw [readFrom_succ_cons, Search.hitsFrom_succ_cons, List.tail_cons, ih (position + 1)]
      | zero =>
          cases hcall : requirePattern before (b :: t) with
          | none =>
              rw [readFrom_cons_of_none (hfound.trans hcall), Search.hitsFrom_cons_of_none hcall,
                List.tail_cons, ih (position + 1)]
          | some found =>
              obtain ⟨n, q⟩ := found
              obtain ⟨-, text, rest, htext, -, hcovers⟩ := requirePattern_eq_some.1 hcall
              rw [readFrom_cons_of_some (hfound.trans hcall), Search.hitsFrom_cons_of_some hcall,
                List.tail_cons, ih (position + 1), List.map_cons, htext, hcovers.take_drop]

/-- By the other forms nothing is read. -/
lemma readFrom_of_ne_requiring {form : ReferenceForm} (hform : form ≠ .requiring)
    {masked : Option UInt8} (hbeside : Beside s before masked t)
    (htidy : everywhere isTidyAt s before t = true) :
    readFrom form.pattern masked 0 (maskFrom s t) t = [] := by
  induction t generalizing s before masked with
  | nil => rw [maskFrom_nil, readFrom_nil]
  | cons b t ih =>
      obtain ⟨hhere, hrest⟩ := everywhere_cons.1 htidy
      have hnone := pattern_maskFrom hform hbeside hhere
      rw [maskFrom_cons] at hnone ⊢
      rw [readFrom_cons_of_none hnone]
      exact ih hbeside.step hrest

/-- **The scan of a tidy script** finds exactly what the script requires. -/
lemma mem_scanImports_of_isTidy {code : Text} (h : isTidy code = true) (spec : Text) :
    spec ∈ scanImports code ↔ spec ∈ requiredSpecs code := by
  have hbeside : Beside .code none none code := ⟨fun h => (nomatch h), fun _ => rfl⟩
  have hrequire := readFrom_requiring hbeside h 0 0
  rw [mem_scanImports, requiredSpecs, List.mem_eraseDups, Search.hits, ← hrequire]
  constructor
  · rintro ⟨form, hspec⟩
    by_cases hform : form = .requiring
    · rwa [hform] at hspec
    · rw [readFrom_of_ne_requiring hform hbeside h] at hspec
      cases hspec
  · exact fun hspec => ⟨.requiring, hspec⟩

end Script

end MiniProgram
