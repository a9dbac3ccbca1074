import MiniProgram.Proofs.Script.Tidy
import MiniProgram.Proofs.Script.Wrapper

/-!
Wrapping a script and its dependencies.

Wrapping hoists the specifiers that a search of the script itself finds, while the scan of a script
looks with comments masked, and it writes each specifier anew between double quotes.

* `everywhere_isQuietAt_replaceFrom`: a tidy script is left tidy and without calls when its calls
  are replaced.
* `mem_scanImports_wrapCommonJS`: **the dependencies of a wrapped script** are the specifiers that
  are hoisted, as they are spelled, and those of the script with its calls replaced; for a tidy
  script whose specifiers are spelled as they are, they are the dependencies of the script.
* `exists_mem_scanImports_wrapCommonJS`: a call in a comment gives the wrapped script a dependency
  that the script does not have.
-/

namespace MiniProgram

namespace Script

open Text

/-! ### Replaced calls -/

section Replaced

variable {f : Quoted → Text} {s : Lexer} {before before' : Option UInt8} {b : UInt8} {t : Text}

/-- Every call is replaced by a binding. -/
def Binds (f : Quoted → Text) : Prop := ∀ q, ∃ n, f q = requireBinding n

lemma exists_binding (hf : Binds f) (q : Quoted) :
    ∃ name, f q = Byte.underscore :: name ∧ ∀ b ∈ f q, Byte.isWord b = true := by
  obtain ⟨n, hn⟩ := hf q
  exact ⟨_, hn, fun b hb => isWord_of_mem_requireBinding (hn ▸ hb)⟩

lemma requirePattern_eq_none_of_isWord (hb : Byte.isWord b = true) (t : Text) :
    requirePattern (some b) t = none := by
  rw [Option.eq_none_iff_forall_ne_some]
  rintro ⟨n, q⟩ hfound
  have hstart := (requirePattern_eq_some.1 hfound).1
  rw [atWordStart, Option.any_some, hb] at hstart
  cases hstart

lemma requirePattern_cons_eq_none (hb : b ≠ 114) (before : Option UInt8) (t : Text) :
    requirePattern before (b :: t) = none := by
  have hhead : b ∉ ReferenceForm.requiring.keyword.head? := by
    rintro ⟨⟩
    exact hb rfl
  exact pattern_cons_eq_none hhead t

lemma step_code_of_isWord (hb : Byte.isWord b = true) (next : Option UInt8) :
    Lexer.code.step b next = (.code, .plain) := by
  have hslash : b ≠ Byte.slash := Byte.ne_of_class hb rfl
  have hback : b ≠ Byte.backquote := Byte.ne_of_class hb rfl
  simp [Lexer.step, opensLiteral, hslash, hback, Byte.isQuote_eq_false rfl rfl hb]

/-- The first byte of the text with its calls replaced: an underscore where a call stood. -/
lemma head?_replaceFrom (hf : Binds f) (before : Option UInt8) (t : Text) :
    (Search.replaceFrom requirePattern f before 0 t).head? = t.head?
      ∨ (Search.replaceFrom requirePattern f before 0 t).head? = some Byte.underscore
        ∧ t.head? = some 114 := by
  cases t with
  | nil => exact Or.inl rfl
  | cons b t =>
      cases hfound : requirePattern before (b :: t) with
      | none =>
          rw [Search.replaceFrom_cons_of_none hfound]
          exact Or.inl rfl
      | some found =>
          obtain ⟨n, q⟩ := found
          obtain ⟨name, hname, -⟩ := exists_binding hf q
          refine Or.inr ⟨?_, ?_⟩
          · rw [Search.replaceFrom_cons_of_some hfound, hname, List.cons_append, List.head?_cons]
          · obtain ⟨-, _, rest, htext, -, _, _, _, _, -, -, -, -, -, rfl, -⟩ :=
              requirePattern_eq_some.1 hfound
            rw [htext]
            rfl

lemma head?_replaceFrom_iff (hf : Binds f) (before : Option UInt8) (t : Text) {c : UInt8}
    (hc : c ≠ Byte.underscore ∧ c ≠ 114) :
    (Search.replaceFrom requirePattern f before 0 t).head? = some c ↔ t.head? = some c := by
  rcases head?_replaceFrom hf before t with h | ⟨h, h'⟩
  · rw [h]
  · rw [h, h', Option.some.injEq, Option.some.injEq]
    exact ⟨fun h => absurd h.symm hc.1, fun h => absurd h.symm hc.2⟩

/-- A word is found in the text with its calls replaced only where it is found in the text. -/
lemma exists_after?_of_replaceFrom {word : Text} (hne : word ≠ [])
    (hword : ∀ b ∈ word.dropLast, Byte.isWord b = true) (hkept : requirePattern before t = none)
    {y : Text} (h : after? word (Search.replaceFrom requirePattern f before 0 t) = some y) :
    ∃ x, after? word t = some x
      ∧ y = Search.replaceFrom requirePattern f word.getLast? 0 x := by
  induction word generalizing before t with
  | nil => exact absurd rfl hne
  | cons a word ih =>
      cases t with
      | nil => cases h
      | cons b t =>
          rw [Search.replaceFrom_cons_of_none hkept, after?] at h
          split at h
          · rename_i hab
            subst hab
            cases word with
            | nil =>
                cases h
                exact ⟨t, by simp [after?], rfl⟩
            | cons c word =>
                have ha : Byte.isWord a = true := hword a (by simp)
                have hword' : ∀ b ∈ (c :: word).dropLast, Byte.isWord b = true :=
                  fun b hb => hword b (by simp [hb])
                obtain ⟨x, hx, hy⟩ := ih (by simp) hword' (requirePattern_eq_none_of_isWord ha t) h
                exact ⟨x, by simpa [after?] using hx, hy⟩
          · cases h

/-- White space stands in the text with its calls replaced as in the text. -/
lemma exists_skipSpace_replaceFrom (hf : Binds f) (before : Option UInt8) (t : Text) :
    ∃ last, skipSpace (Search.replaceFrom requirePattern f before 0 t)
      = Search.replaceFrom requirePattern f last 0 (skipSpace t) := by
  induction t generalizing before with
  | nil => exact ⟨before, rfl⟩
  | cons b t ih =>
      by_cases hb : Byte.isSpace b = true
      · have hne : b ≠ 114 := Byte.ne_of_class hb rfl
        obtain ⟨last, hlast⟩ := ih (some b)
        refine ⟨last, ?_⟩
        rw [Search.replaceFrom_cons_of_none (requirePattern_cons_eq_none hne before t)]
        simpa [skipSpace, hb] using hlast
      · rw [Bool.not_eq_true] at hb
        refine ⟨before, ?_⟩
        rw [skipSpace_cons hb]
        rcases head?_replaceFrom hf before (b :: t) with h | ⟨h, -⟩
        · exact skipSpace_of_head? h hb
        · exact skipSpace_of_head? h (by rfl)

/-- Inside a plain literal no call is replaced. -/
lemma replaceFrom_literal {spec rest : Text} {o : UInt8}
    (hstep : ∀ b ∈ spec, ∀ next, (Lexer.literal o).step b next = (.literal o, .literal))
    (htidy : everywhere isTidyAt (.literal o) before (spec ++ rest) = true) :
    Search.replaceFrom requirePattern f before 0 (spec ++ rest)
      = spec ++ Search.replaceFrom requirePattern f (spec.getLast?.or before) 0 rest := by
  induction spec generalizing before with
  | nil => rfl
  | cons b spec ih =>
      obtain ⟨hhere, hrest⟩ := everywhere_cons.1 htidy
      have hkept : requirePattern before (b :: (spec ++ rest)) = none := by
        rw [Option.eq_none_iff_forall_ne_some]
        rintro ⟨n, q⟩ hfound
        cases (exists_call hhere hfound).1
      rw [hstep b List.mem_cons_self] at hrest
      rw [List.cons_append, Search.replaceFrom_cons_of_none hkept,
        ih (fun c hc => hstep c (List.mem_cons_of_mem b hc)) hrest]
      cases spec with
      | nil => rfl
      | cons c spec => rfl

/-- The plain literal after `require(` is kept, and what follows it has its calls replaced. -/
lemma skipSpace_replaceFrom_of_plain (hf : Binds f) {x spec rest : Text} {o : UInt8}
    (htidy : everywhere isTidyAt .code before ("require(" ++ x) = true)
    (ho : Byte.isQuote o = true) (hspec : IsSpec spec) (hescape : Byte.backslash ∉ spec)
    (harg : skipSpace x = o :: (spec ++ o :: rest)) :
    skipSpace (Search.replaceFrom requirePattern f (some Byte.openParen) 0 x)
      = o :: (spec ++ o :: Search.replaceFrom requirePattern f (some o) 0 rest) := by
  have hletter : o ≠ 114 := Byte.ne_of_class ho rfl
  obtain ⟨ws, hws, hx⟩ := exists_blank_append x
  obtain ⟨last, hskip⟩ := exists_skipSpace_replaceFrom hf (some Byte.openParen) x
  rw [harg] at hx hskip
  have hinside : everywhere isTidyAt (.literal o) (some o) (spec ++ o :: rest) = true := by
    have hreads : Lexer.Reads .code ("require(" ++ ws ++ [o]) (.literal o) :=
      (Lexer.Reads.append (.code (by decide)) (reads_blank hws)).append (.opening ho)
    have hsplit : "require(" ++ x = ("require(" ++ ws ++ [o]) ++ (spec ++ o :: rest) := by
      simp [hx]
    rw [hsplit] at htidy
    have := everywhere_of_reads hreads htidy
    rwa [List.getLast?_concat] at this
  rw [hskip, Search.replaceFrom_cons_of_none (requirePattern_cons_eq_none hletter _ _),
    replaceFrom_literal (fun b hb => step_literal ho hspec hescape hb) hinside,
    Search.replaceFrom_cons_of_none (requirePattern_cons_eq_none hletter _ _)]

/-- Whether a position is tidy and no call stands there. -/
def isQuietAt (s : Lexer) (before : Option UInt8) (t : Text) : Bool :=
  isTidyAt s before t && (requirePattern before t).isNone

/-- What follows `require(` is as tidy with its calls replaced, and no call unless it was one. -/
lemma isTidyArgument_replaceFrom (hf : Binds f) {x : Text} (hstart : atWordStart before = true)
    (htidy : everywhere isTidyAt s before ("require(" ++ x) = true)
    (hkept : requirePattern before ("require(" ++ x) = none)
    (hstart' : atWordStart before' = true) :
    isTidyArgument s
      (skipSpace (Search.replaceFrom requirePattern f (some Byte.openParen) 0 x)) = true
    ∧ requirePattern before'
      ("require(" ++ Search.replaceFrom requirePattern f (some Byte.openParen) 0 x) = none := by
  have hhere : isTidyAt s before ("require(" ++ x) = true := (everywhere_cons.1 htidy).1
  have hargument := (isTidyAt_iff.1 hhere).1 x (afterWord?_eq_some.2 ⟨hstart, rfl⟩)
  rw [isTidyArgument] at hargument
  split at hargument
  · rw [Bool.and_eq_true, beq_iff_eq, isPlainArgument_iff] at hargument
    obtain ⟨rfl, o, spec, rest, ho, hspec, hescape, hslash, harg⟩ := hargument
    -- the argument is a string, which stays, and behind it nothing becomes a closing parenthesis
    have hliteral := skipSpace_replaceFrom_of_plain hf htidy ho hspec hescape harg
    obtain ⟨last', hskip'⟩ := exists_skipSpace_replaceFrom hf (some o) rest
    have hhead : ∀ c, c ≠ Byte.underscore ∧ c ≠ 114 → (skipSpace rest).head? ≠ some c →
        (skipSpace (Search.replaceFrom requirePattern f (some o) 0 rest)).head? ≠ some c := by
      intro c hc hne
      rwa [hskip', Ne, head?_replaceFrom_iff hf last' _ hc]
    have hparen : (skipSpace rest).head? ≠ some Byte.closeParen := by
      obtain ⟨ws, hws, hx⟩ := exists_blank_append x
      rw [hx, harg, requirePattern_literal hstart hws ho hspec] at hkept
      exact fun hparen => by rw [if_pos hparen] at hkept; cases hkept
    generalize Search.replaceFrom requirePattern f (some Byte.openParen) 0 x = y at hliteral ⊢
    generalize Search.replaceFrom requirePattern f (some o) 0 rest = rest' at hliteral hhead
    refine ⟨?_, ?_⟩
    · rw [hliteral, isTidyArgument, List.head?_cons, Option.any_some, ho, if_pos rfl,
        Bool.and_eq_true, isPlainArgument_iff]
      exact ⟨rfl, o, spec, rest', ho, hspec, hescape, hhead _ (by decide) hslash, rfl⟩
    · obtain ⟨ws', hws', hy⟩ := exists_blank_append y
      rw [hy, hliteral, requirePattern_literal hstart' hws' ho hspec,
        if_neg (hhead _ (by decide) hparen)]
  · -- the argument is no string, and the replacement begins with no quote either
    rename_i hquote
    rw [Bool.not_eq_true] at hquote
    obtain ⟨last, hskip⟩ := exists_skipSpace_replaceFrom hf (some Byte.openParen) x
    generalize Search.replaceFrom requirePattern f (some Byte.openParen) 0 x = y at hskip ⊢
    have hquote' : (skipSpace y).head?.any Byte.isQuote = false := by
      rw [hskip]
      rcases head?_replaceFrom hf last (skipSpace x) with h | ⟨h, -⟩
      · rwa [h]
      · rw [h]
        rfl
    refine ⟨?_, ?_⟩
    · rw [isTidyArgument, if_neg (by rw [hquote']; decide)]
      rw [Bool.or_eq_true, bne_iff_ne] at hargument ⊢
      refine hargument.imp_right fun hslash => ?_
      rwa [hskip, Ne, head?_replaceFrom_iff hf last _ (by decide)]
    · rw [requirePattern_eq, afterWord?_eq_some.2 ⟨hstart', rfl⟩, Option.bind_some,
        quotedSpec?_eq_none hquote', Option.bind_none]

/-- Behind a byte of a word the calls after it are replaced from the next byte on. -/
lemma atWordEnd_replaceFrom (hb : Byte.isWord b = true) (x : Text) :
    atWordEnd (Search.replaceFrom requirePattern f (some b) 0 x) = atWordEnd x := by
  cases x with
  | nil => rw [Search.replaceFrom_nil]
  | cons c x =>
      rw [Search.replaceFrom_cons_of_none (requirePattern_eq_none_of_isWord hb _)]
      rfl

section Kept

variable (hkept : requirePattern before (b :: t) = none)
  (hstart : atWordStart before' = true → atWordStart before = true)
include hkept hstart

/-- A word stands with the calls replaced only where it stands in the text. -/
lemma exists_afterWord?_of_replaceFrom {word y : Text} (hne : word ≠ [])
    (hbytes : ∀ b ∈ word.dropLast, Byte.isWord b = true)
    (h : afterWord? word before' (Search.replaceFrom requirePattern f before 0 (b :: t)) = some y) :
    ∃ x, afterWord? word before (b :: t) = some x
      ∧ y = Search.replaceFrom requirePattern f word.getLast? 0 x := by
  obtain ⟨hstart', hy⟩ := afterWord?_eq_some.1 h
  obtain ⟨x, hx, hxy⟩ := exists_after?_of_replaceFrom hne hbytes hkept (after?_eq_some.2 hy)
  exact ⟨x, afterWord?_eq_some.2 ⟨hstart hstart', after?_eq_some.1 hx⟩, hxy⟩

/-- A position that is no call stays tidy when the calls after it are replaced. -/
lemma isQuietAt_replaceFrom (hf : Binds f) (htidy : everywhere isTidyAt s before (b :: t) = true) :
    isQuietAt s before' (b :: Search.replaceFrom requirePattern f (some b) 0 t) = true := by
  rw [← Search.replaceFrom_cons_of_none hkept]
  -- a word that is found after the replacement was there before it
  have hrequire : ∀ y, afterWord? "require(" before'
      (Search.replaceFrom requirePattern f before 0 (b :: t)) = some y →
      isTidyArgument s (skipSpace y) = true
      ∧ requirePattern before' (Search.replaceFrom requirePattern f before 0 (b :: t)) = none := by
    intro y hy
    obtain ⟨x, hx, hxy⟩ :=
      exists_afterWord?_of_replaceFrom hkept hstart (by decide) (by decide) hy
    obtain ⟨hstart', hbody⟩ := afterWord?_eq_some.1 hy
    obtain ⟨hbefore, htext⟩ := afterWord?_eq_some.1 hx
    have hlast : ("require(" : Text).getLast? = some Byte.openParen := by decide
    rw [hlast] at hxy
    rw [htext] at htidy hkept
    rw [hbody, hxy]
    exact isTidyArgument_replaceFrom hf hbefore htidy hkept hstart'
  have hwords : s.inComment = false → ∀ y,
      (afterWord? "import" before' (Search.replaceFrom requirePattern f before 0 (b :: t)) = some y
      ∨ afterWord? "export" before'
          (Search.replaceFrom requirePattern f before 0 (b :: t)) = some y) →
      atWordEnd y = false := by
    intro hs y hy
    have hnot := (isTidyAt_iff.1 (everywhere_cons.1 htidy).1).2 hs
    rcases hy with hy | hy
    · obtain ⟨x, hx, rfl⟩ :=
        exists_afterWord?_of_replaceFrom hkept hstart (by decide) (by decide) hy
      exact (atWordEnd_replaceFrom (b := 116) (by rfl) x).trans (hnot x (Or.inl hx))
    · obtain ⟨x, hx, rfl⟩ :=
        exists_afterWord?_of_replaceFrom hkept hstart (by decide) (by decide) hy
      exact (atWordEnd_replaceFrom (b := 116) (by rfl) x).trans (hnot x (Or.inr hx))
  rw [isQuietAt, Bool.and_eq_true, isTidyAt_iff, Option.isNone_iff_eq_none]
  refine ⟨⟨fun y hy => (hrequire y hy).1, hwords⟩, ?_⟩
  cases hafter : afterWord? "require(" before'
      (Search.replaceFrom requirePattern f before 0 (b :: t)) with
  | none => rw [requirePattern_eq, hafter, Option.bind_none]
  | some y => exact (hrequire y hafter).2

end Kept

/-- Where none of the three words stands, all is quiet. -/
lemma isQuietAt_of_none (hrequire : afterWord? "require(" before t = none)
    (himport : afterWord? "import" before t = none)
    (hexport : afterWord? "export" before t = none) : isQuietAt s before t = true := by
  simp [isQuietAt, isTidyAt, requirePattern_eq, hrequire, himport, hexport]

/-- The rest of a word in code is quiet. -/
lemma everywhere_isQuietAt_word {name : Text} (hname : ∀ b ∈ name, Byte.isWord b = true)
    (h : ∀ last, atWordStart last = false → everywhere isQuietAt .code last t = true)
    (hbefore : atWordStart before = false) :
    everywhere isQuietAt .code before (name ++ t) = true := by
  induction name generalizing before with
  | nil => exact h before hbefore
  | cons b name ih =>
      obtain ⟨hb, hname⟩ := List.forall_mem_cons.1 hname
      have hnone : ∀ word, afterWord? word before (b :: (name ++ t)) = none := by
        intro word
        rw [afterWord?, hbefore]
        rfl
      rw [List.cons_append, everywhere_cons, step_code_of_isWord hb]
      refine ⟨isQuietAt_of_none (hnone _) (hnone _) (hnone _), ih hname ?_⟩
      rw [atWordStart, Option.any_some, hb]
      rfl

/-- A word in code that begins with an underscore is quiet. -/
lemma everywhere_isQuietAt_binding {name : Text} (hname : ∀ b ∈ name, Byte.isWord b = true)
    (h : ∀ last, atWordStart last = false → everywhere isQuietAt .code last t = true)
    (before : Option UInt8) :
    everywhere isQuietAt .code before (Byte.underscore :: (name ++ t)) = true := by
  have hnone : ∀ word, Byte.underscore ∉ word.head? → word ≠ [] →
      afterWord? word before (Byte.underscore :: (name ++ t)) = none := by
    intro word hhead hne
    obtain ⟨a, word, rfl⟩ := List.exists_cons_of_ne_nil hne
    have ha : a ≠ Byte.underscore := by
      rintro rfl
      exact hhead rfl
    rw [afterWord?, after?, if_neg ha, ite_self]
  rw [everywhere_cons]
  exact ⟨isQuietAt_of_none (hnone _ (by decide) (by decide)) (hnone _ (by decide) (by decide))
    (hnone _ (by decide) (by decide)), everywhere_isQuietAt_word hname h (by rfl)⟩

/-- **Replaced calls.** A tidy text is left tidy and without calls when its calls are replaced. -/
theorem everywhere_isQuietAt_replaceFrom (hf : Binds f)
    (htidy : everywhere isTidyAt s before t = true)
    (hstart : atWordStart before' = true → atWordStart before = true) :
    everywhere isQuietAt s before' (Search.replaceFrom requirePattern f before 0 t) = true := by
  induction hn : t.length using Nat.strong_induction_on generalizing s before before' t with
  | _ n ih =>
    cases t with
    | nil => rfl
    | cons b t =>
        cases hfound : requirePattern before (b :: t) with
        | none =>
            have hquiet := isQuietAt_replaceFrom hfound hstart hf htidy
            -- the lexer looks one byte ahead, and no replacement brings a slash or a star there
            have hstep : s.step b (Search.replaceFrom requirePattern f (some b) 0 t).head?
                = s.step b t.head? :=
              s.step_congr (head?_replaceFrom_iff hf _ _ (by decide))
                (head?_replaceFrom_iff hf _ _ (by decide)) b
            rw [Search.replaceFrom_cons_of_none hfound, everywhere_cons, hstep]
            exact ⟨hquiet, ih t.length (by simp [← hn]) (everywhere_cons.1 htidy).2 id rfl⟩
        | some found =>
            obtain ⟨n, q⟩ := found
            -- a call is replaced as a whole, and the text behind it goes on in code
            obtain ⟨rfl, text, rest, htext, rfl, hne, hlast, hreads⟩ :=
              exists_call (everywhere_cons.1 htidy).1 hfound
            obtain ⟨name, hname, hbytes⟩ := exists_binding hf q
            rw [htext] at htidy hfound ⊢
            rw [Search.replaceFrom_append_of_some hne hfound, hname, hlast]
            have hrest := everywhere_of_reads hreads htidy
            rw [hlast, Option.some_or] at hrest
            rw [hname] at hbytes
            rw [List.cons_append]
            refine everywhere_isQuietAt_binding (List.forall_mem_cons.1 hbytes).2 ?_ before'
            intro last hword
            refine ih rest.length ?_ hrest (fun _ => rfl) rfl
            rw [← hn, htext, List.length_append]
            have := List.length_pos_iff.2 hne
            omega

end Replaced

/-! ### Dependencies of a wrapped script -/

/-- In a quiet text a search finds no call. -/
lemma hitsFrom_eq_nil_of_isQuietAt {s : Lexer} {before : Option UInt8} {t : Text}
    (h : everywhere isQuietAt s before t = true) (position : Nat) :
    Search.hitsFrom requirePattern before position 0 t = [] := by
  induction t generalizing s before position with
  | nil => rw [Search.hitsFrom_nil]
  | cons b t ih =>
      obtain ⟨hhere, hrest⟩ := everywhere_cons.1 h
      rw [isQuietAt, Bool.and_eq_true, Option.isNone_iff_eq_none] at hhere
      rw [Search.hitsFrom_cons_of_none hhere.2, ih hrest (position + 1)]

/-- A tidy script whose calls are replaced refers to nothing. -/
lemma not_mem_scanImports_bindCalls {source : Text} (h : isTidy source = true) (spec : Text) :
    spec ∉ scanImports (bindCalls source) := by
  have hbinds : Binds fun q => requireBinding ((requiredSpecs source).idxOf q.spec) :=
    fun q => ⟨_, rfl⟩
  have hquiet : everywhere isQuietAt .code none (bindCalls source) = true :=
    everywhere_isQuietAt_replaceFrom hbinds h id
  have htidy : isTidy (bindCalls source) = true :=
    everywhere_mono (fun _ _ _ hat => (Bool.and_eq_true_iff.1 hat).1) hquiet
  rw [mem_scanImports_of_isTidy htidy, requiredSpecs, Search.hits,
    hitsFrom_eq_nil_of_isQuietAt hquiet]
  exact List.not_mem_nil

/-- **The dependencies of a wrapped script.** The scan of a wrapped script finds the spelling of
every specifier that was hoisted, and what it finds in the script with its calls replaced. For a
tidy script these are the dependencies of the script as they are spelled, and the same dependencies
if each of them is spelled as it is. -/
theorem mem_scanImports_wrapCommonJS {source wrapped : Text} {names : List Text}
    (h : wrapCommonJS source names = .ok wrapped) :
    (∀ spec, spec ∈ scanImports wrapped
      ↔ spec ∈ (requiredSpecs source).map spelled ∨ spec ∈ scanImports (bindCalls source))
    ∧ (isTidy source = true →
      (∀ spec, spec ∈ scanImports wrapped ↔ spec ∈ (scanImports source).map spelled)
      ∧ ((∀ spec ∈ scanImports source, spelled spec = spec) →
        ∀ spec, spec ∈ scanImports wrapped ↔ spec ∈ scanImports source)) := by
  refine ⟨mem_scanImports_wrapped h, fun htidy => ?_⟩
  have hspelled : ∀ spec, spec ∈ scanImports wrapped ↔ spec ∈ (scanImports source).map spelled := by
    intro spec
    rw [mem_scanImports_wrapped h, or_iff_left (not_mem_scanImports_bindCalls htidy spec)]
    simp only [List.mem_map, mem_scanImports_of_isTidy htidy]
  refine ⟨hspelled, fun hsame spec => ?_⟩
  rw [hspelled, List.map_congr_left hsame, List.map_id']

/-- A script that requires one specifier twice and another once, and whose comments hold an import
and a call without a string. -/
def commentedScript : Text :=
  "// import p from 'q'\nvar a = require('a'), b = require( \"./b\" );\n"
    ++ "/* require(name) */ exports.c = a || require('a');\n"

/-- Wrapping this script keeps its dependencies. -/
theorem mem_scanImports_wrapCommonJS_commentedScript :
    isCommonJS commentedScript = true ∧ isTidy commentedScript = true
    ∧ requiredSpecs commentedScript = [("a" : Text), "./b"]
    ∧ ∃ wrapped, wrapCommonJS commentedScript [("c" : Text)] = .ok wrapped
      ∧ ∀ spec, spec ∈ scanImports wrapped ↔ spec ∈ scanImports commentedScript := by
  have htidy : isTidy commentedScript = true := by decide +kernel
  have hspelled : ∀ spec ∈ requiredSpecs commentedScript, spelled spec = spec := by decide +kernel
  obtain ⟨wrapped, hwrapped⟩ :
      ∃ wrapped, wrapCommonJS commentedScript [("c" : Text)] = .ok wrapped := ⟨_, rfl⟩
  refine ⟨by decide +kernel, htidy, by decide +kernel, wrapped, hwrapped, ?_⟩
  exact ((mem_scanImports_wrapCommonJS hwrapped).2 htidy).2 fun spec hspec =>
    hspelled spec ((mem_scanImports_of_isTidy htidy spec).1 hspec)

/-- A call in a comment, and a specifier with a backslash: wrapping adds to the first script a
dependency that it does not have, and gives the second another in the place of its own. -/
theorem exists_mem_scanImports_wrapCommonJS :
    (isCommonJS "// require('gone')\nmodule.exports = 1;\n" = true
      ∧ ∃ wrapped, wrapCommonJS "// require('gone')\nmodule.exports = 1;\n" [] = .ok wrapped
        ∧ ("gone" : Text) ∈ scanImports wrapped
        ∧ scanImports "// require('gone')\nmodule.exports = 1;\n" = [])
    ∧ (isCommonJS "module.exports = require('a\\b');\n" = true
      ∧ ∃ wrapped, wrapCommonJS "module.exports = require('a\\b');\n" [] = .ok wrapped
        ∧ scanImports wrapped = [("a\\\\b" : Text)]
        ∧ scanImports "module.exports = require('a\\b');\n" = [("a\\b" : Text)]) := by
  refine ⟨⟨by decide +kernel, _, rfl, by decide +kernel, by decide +kernel⟩,
    ⟨by decide +kernel, _, rfl, by decide +kernel, by decide +kernel⟩⟩

end Script

end MiniProgram
