import MiniProgram.Proofs.Script.Masking

/-!
The keyword `this` at the top level of a script.

The search for the keyword makes its own way over comments and literals: it looks for the end of
each and passes over it at once. The lexer goes byte by byte. The two keep step: where the lexer is
inside a comment or literal, the search has left to skip just what remains of it (`Lexer.pending?`).

* `Lexer.pending?_cons`: one step of the lexer is one byte less to skip.
* `thisFrom_pending`: **the search on its own way finds what the classes of the lexer tell.**
* `thisAmong_maskFrom`: in the masked script the classes tell the same.
* `topLevelThis_maskComments`: the search does not depend on comments.
-/

namespace MiniProgram

namespace Script

open Text

/-- Whether the keyword `this` occurs in plain code outside every pair of braces, `depth` of which
are open, told from the classes of the bytes. -/
def thisAmong : (depth : ℕ) → (before : Option UInt8) → List (UInt8 × ByteClass) → Bool
  | _, _, [] => false
  | depth, before, (b, c) :: rest =>
    if c ≠ .plain then thisAmong depth (some b) rest
    else if b = Byte.openBrace then thisAmong (depth + 1) (some b) rest
    else if b = Byte.closeBrace then thisAmong (depth - 1) (some b) rest
    else if depth = 0 && isThis before (((b, c) :: rest).map Prod.fst) then true
    else thisAmong depth (some b) rest

variable {depth : ℕ} {before before' : Option UInt8} {b : UInt8} {c : ByteClass} {t : Text}
  {rest : List (UInt8 × ByteClass)} {s : Lexer}

/-! ### What is left to skip -/

namespace Lexer

/-- How many bytes of a text the comment or literal at its head still takes; `none` for a comment
that is not closed. -/
def pending? : Lexer → Text → Option ℕ
  | code, _ => some 0
  | opening false, t | line, t => some (lineLength t)
  | opening true, t => blockLength? t
  | block, t => (cut? "*/" t).map fun (inside, _) => inside.length + 2
  | closing, _ => some 1
  | literal q, t => some (literalLength q false t)
  | escaped q, t => some (literalLength q true t)

/-- Inside a comment mark, its second byte comes next. -/
def MarkAhead : Lexer → Text → Prop
  | opening false, t | closing, t => t.head? = some Byte.slash
  | opening true, t => t.head? = some Byte.star
  | _, _ => True

lemma MarkAhead.step (s : Lexer) (b : UInt8) (t : Text) : (s.step b t.head?).1.MarkAhead t := by
  cases s with
  | code =>
      rcases step_code_cases b t.head? with
        ⟨hline, hstep⟩ | ⟨hblock, hstep⟩ | ⟨-, -, ⟨-, hstep⟩ | ⟨-, hstep⟩⟩ <;> rw [hstep]
      · exact hline.2
      · exact hblock.2
      · trivial
      · trivial
  | opening isBlock => cases isBlock <;> trivial
  | line => simp only [Lexer.step]; split <;> trivial
  | block =>
      simp only [Lexer.step]
      split_ifs with hclose
      · rw [Bool.and_eq_true, decide_eq_true_eq, decide_eq_true_eq] at hclose
        exact hclose.2
      · trivial
  | closing => trivial
  | literal q => simp only [Lexer.step]; split_ifs <;> trivial
  | escaped q => trivial

end Lexer

lemma lineLength_cons (hb : b ≠ Byte.newline) (t : Text) :
    lineLength (b :: t) = lineLength t + 1 := by
  simp [lineLength, hb]

lemma lineLength_newline (t : Text) : lineLength (Byte.newline :: t) = 1 := rfl

/-- The end of a block comment stands here, or is looked for behind this byte. -/
lemma cut?_blockEnd (b : UInt8) (t : Text) :
    (cut? "*/" (b :: t)).map (fun (inside, _) => inside.length + 2)
      = if b = Byte.star ∧ t.head? = some Byte.slash then some 2
        else (cut? "*/" t).map fun (inside, _) => inside.length + 3 := by
  rw [cut?]
  split
  · rename_i rest hafter
    rw [after?_eq_some] at hafter
    obtain ⟨rfl, rfl⟩ := List.cons.inj hafter
    rfl
  · rename_i hafter
    rw [if_neg, Option.map_map]
    · rfl
    · rintro ⟨rfl, hhead⟩
      obtain ⟨rest, rfl⟩ := List.head?_eq_some_iff.1 hhead
      have hmark : after? "*/" (Byte.star :: Byte.slash :: rest) = some rest := rfl
      exact Option.some_ne_none _ (hmark.symm.trans hafter)

/-- **One step.** Inside a comment or literal, a byte of it is one byte less to skip. -/
lemma Lexer.pending?_cons (hs : s ≠ .code) (h : s.MarkAhead (b :: t)) :
    s.pending? (b :: t) = ((s.step b t.head?).1.pending? t).map (· + 1) := by
  cases s with
  | code => exact absurd rfl hs
  | opening isBlock =>
      cases isBlock with
      | false =>
          obtain rfl : b = Byte.slash := by simpa [MarkAhead] using h
          exact congrArg some (lineLength_cons (by decide) t)
      | true =>
          rw [step, if_pos rfl, pending?, pending?, blockLength?, Option.map_map]
          rfl
  | line =>
      by_cases hb : b = Byte.newline
      · subst hb
        exact congrArg some (lineLength_newline t)
      · simp only [pending?, step, if_neg hb, Option.map_some, lineLength_cons hb]
  | block =>
      rw [pending?, cut?_blockEnd, step]
      split_ifs with hhead hclose hclose
      · rfl
      · simp [hhead] at hclose
      · simp [hhead] at hclose
      · rw [pending?, Option.map_map]
        rfl
  | closing => rfl
  | literal q =>
      simp only [pending?, literalLength, step]
      split_ifs <;> rfl
  | escaped q => rfl

/-! ### The search and the lexer -/

lemma thisFrom_nil (depth skip : ℕ) (before : Option UInt8) :
    thisFrom depth skip before [] = false := by
  cases skip <;> rfl

/-- The search at a byte that no comment or literal holds. -/
lemma thisFrom_cons (depth : ℕ) (before : Option UInt8) (b : UInt8) (t : Text) :
    thisFrom depth 0 before (b :: t)
      = if (Lexer.step b t.head? .code).2 ≠ .plain then
          ((Lexer.step b t.head? .code).1.pending? t).elim false fun n =>
            thisFrom depth n (some b) t
        else if b = Byte.openBrace then thisFrom (depth + 1) 0 (some b) t
        else if b = Byte.closeBrace then thisFrom (depth - 1) 0 (some b) t
        else if depth = 0 && isThis before (b :: t) then true
        else thisFrom depth 0 (some b) t := by
  rw [thisFrom]
  simp only [Bool.and_eq_true, decide_eq_true_eq]
  rcases Lexer.step_code_cases b t.head? with
    ⟨hline, hstep⟩ | ⟨hblock, hstep⟩ | ⟨hline, hblock, ⟨hquote, hstep⟩ | ⟨hquote, hstep⟩⟩
  · rw [if_pos hline, hstep, if_pos nofun]
    rfl
  · have hline : ¬ (b = Byte.slash ∧ t.head? = some Byte.slash) := by
      rw [hblock.2]
      exact fun h => absurd h.2 (by decide)
    rw [if_neg hline, if_pos hblock, hstep, if_pos nofun, Lexer.pending?]
    cases blockLength? t <;> rfl
  · rw [if_neg hline, if_neg hblock, if_pos hquote, hstep, if_pos nofun]
    rfl
  · rw [if_neg hline, if_neg hblock, hquote, hstep]
    rfl

/-- A byte that says nothing about braces and the keyword: it is outside plain code, or a blank. -/
def Passed (b : UInt8) (c : ByteClass) : Prop := c ≠ .plain ∨ b = Byte.newline ∨ b = Byte.space

lemma thisAmong_cons_of_passed (h : Passed b c) :
    thisAmong depth before ((b, c) :: rest) = thisAmong depth (some b) rest := by
  by_cases hc : c ≠ .plain
  · rw [thisAmong, if_pos hc]
  · have hblank := h.resolve_left hc
    have hthis : isThis before (b :: rest.map Prod.fst) = false := by
      have hafter : after? "this" (b :: rest.map Prod.fst) = none := by
        rw [Option.eq_none_iff_forall_ne_some]
        intro u hu
        obtain rfl : b = 116 := (List.cons.inj (after?_eq_some.1 hu)).1
        rcases hblank with hblank | hblank <;> cases hblank
      simp [isThis, hafter]
    have hbraces : b ≠ Byte.openBrace ∧ b ≠ Byte.closeBrace := by
      rcases hblank with rfl | rfl <;> decide
    rw [thisAmong, if_neg hc, if_neg hbraces.1, if_neg hbraces.2, List.map_cons, hthis,
      Bool.and_false, if_neg Bool.false_ne_true]

/-- Over plain code the classes are asked for braces and for the keyword. -/
lemma thisAmong_cons_plain (depth : ℕ) (before : Option UInt8) (b : UInt8) (t : Text) :
    thisAmong depth before ((b, .plain) :: classifyFrom s t)
      = if b = Byte.openBrace then thisAmong (depth + 1) (some b) (classifyFrom s t)
        else if b = Byte.closeBrace then thisAmong (depth - 1) (some b) (classifyFrom s t)
        else if depth = 0 && isThis before (b :: t) then true
        else thisAmong depth (some b) (classifyFrom s t) := by
  rw [thisAmong, if_neg (by simp), List.map_cons, map_fst_classifyFrom]

/-- Inside a comment or literal no byte is plain code, but the newline behind a line comment. -/
lemma Lexer.step_passed (hs : s ≠ .code) (b : UInt8) (next : Option UInt8) :
    Passed b (s.step b next).2 := by
  cases s with
  | code => exact absurd rfl hs
  | line =>
      by_cases hb : b = Byte.newline
      · exact Or.inr (Or.inl hb)
      · exact Or.inl (by simp [step, hb])
  | opening isBlock => exact Or.inl (by simp [step])
  | block => exact Or.inl (by simp [step])
  | closing => exact Or.inl (by simp [step])
  | literal q => exact Or.inl (by simp only [step]; split_ifs <;> simp)
  | escaped q => exact Or.inl (by simp [step])

/-- **The two ways.** Wherever the lexer is, the search with what is left to skip finds the keyword
exactly if the classes of the lexer tell it; in a comment that is not closed they tell none. -/
theorem thisFrom_pending (h : s.MarkAhead t) :
    ((s.pending? t).elim false fun n => thisFrom depth n before t)
      = thisAmong depth before (classifyFrom s t) := by
  induction t generalizing s depth before with
  | nil =>
      cases s.pending? [] with
      | none => rfl
      | some n => exact thisFrom_nil depth n before
  | cons b t ih =>
      have ih : ∀ depth, ((s.step b t.head?).1.pending? t).elim false
            (fun n => thisFrom depth n (some b) t)
          = thisAmong depth (some b) (classifyFrom (s.step b t.head?).1 t) :=
        fun _ => ih (.step s b t)
      rw [classifyFrom_cons]
      by_cases hs : s = .code
      · subst hs
        rw [Lexer.pending?, Option.elim_some, thisFrom_cons]
        by_cases hplain : (Lexer.step b t.head? .code).2 = .plain
        · have hstate := Lexer.state_of_plain hplain
          rw [if_neg (not_not.2 hplain), hplain, hstate, thisAmong_cons_plain]
          rw [hstate] at ih
          simp only [← ih, Lexer.pending?, Option.elim_some]
        · rw [if_pos hplain, thisAmong_cons_of_passed (Or.inl hplain), ih]
      · rw [Lexer.pending?_cons hs h, thisAmong_cons_of_passed (Lexer.step_passed hs b t.head?),
          ← ih]
        cases (s.step b t.head?).1.pending? t <;> rfl

/-! ### In the masked script -/

/-- Outside comments it is the same in the masked script whether an identifier runs on. -/
lemma any_isIdent_head?_maskFrom (hs : s.inComment = false) (t : Text) :
    (maskFrom s t).head?.any Byte.isIdent = t.head?.any Byte.isIdent := by
  by_cases ht : t.head? = some Byte.slash
  · rcases head?_maskFrom_eq_or s t with h | h
    · rw [h]
    · rw [h, ht]
      rfl
  · rw [head?_maskFrom hs ht]

/-- Outside comments the keyword stands in the masked script where it stands in the script. -/
lemma isThis_maskFrom (hs : s.inComment = false)
    (hbefore : before'.any Byte.isIdent = before.any Byte.isIdent) (t : Text) :
    isThis before' (maskFrom s t) = isThis before t := by
  obtain ⟨s', hs', hafter⟩ := exists_after?_maskFrom
    (by decide : ∀ b ∈ ("this" : Text), b ≠ Byte.slash ∧ b ≠ Byte.space) hs t
  rw [isThis, isThis, hbefore, hafter]
  cases after? "this" t with
  | none => rfl
  | some u => simp only [Option.map_some, any_isIdent_head?_maskFrom hs' u]

/-- Behind a comment neither the byte that ends it nor the blank in its place is one of an
identifier. -/
lemma any_isIdent_maskByte (h : s.MarkAhead (b :: t))
    (hs : (s.step b t.head?).1.inComment = false) :
    (some (maskByte (b, (s.step b t.head?).2))).any Byte.isIdent = (some b).any Byte.isIdent := by
  by_cases hclass : (s.step b t.head?).2 = .comment
  · obtain rfl := Lexer.eq_closing_of_step hclass hs
    obtain rfl : b = Byte.slash := by simpa [Lexer.MarkAhead] using h
    rfl
  · rw [maskByte_of_ne_comment hclass]

/-- What says nothing in the script says nothing in the masked script. -/
lemma Passed.masked (h : Passed b c) : Passed (maskByte (b, c)) c.masked := by
  cases c with
  | plain => exact Or.inr (h.resolve_left (fun hc => hc rfl))
  | literal => exact Or.inl nofun
  | comment =>
      refine Or.inr ?_
      by_cases hb : b = Byte.newline
      · exact Or.inl (by simp [maskByte, hb])
      · exact Or.inr (by simp [maskByte, hb])

/-- **The masked script.** The classes of the masked script tell the keyword where those of the
script do. The byte before matters outside comments only. -/
theorem thisAmong_maskFrom (h : s.MarkAhead t)
    (hbefore : s.inComment = false → before'.any Byte.isIdent = before.any Byte.isIdent) :
    thisAmong depth before' (classifyFrom s.masked (maskFrom s t))
      = thisAmong depth before (classifyFrom s t) := by
  induction t generalizing s depth before before' with
  | nil => rfl
  | cons b t ih =>
      have ih : ∀ depth, thisAmong depth (some (maskByte (b, (s.step b t.head?).2)))
            (classifyFrom (s.step b t.head?).1.masked (maskFrom (s.step b t.head?).1 t))
          = thisAmong depth (some b) (classifyFrom (s.step b t.head?).1 t) :=
        fun _ => ih (.step s b t) (any_isIdent_maskByte h)
      by_cases hpass : Passed b (s.step b t.head?).2
      · rw [maskFrom_cons, classifyFrom_cons, classifyFrom_cons, Lexer.step_masked,
          thisAmong_cons_of_passed hpass.masked, thisAmong_cons_of_passed hpass, ih]
      · -- a byte of plain code, which the masked script has as well
        obtain rfl : s = .code := by
          by_contra hs
          exact hpass (Lexer.step_passed hs b t.head?)
        have hplain : (Lexer.step b t.head? .code).2 = .plain := by
          by_contra hplain
          exact hpass (Or.inl hplain)
        have hthis := isThis_maskFrom (s := .code) rfl (hbefore rfl) (b :: t)
        have hkept : maskByte (b, .plain) = b := rfl
        have hclass : ByteClass.plain.masked = .plain := rfl
        rw [maskFrom_cons, hplain, hkept] at hthis
        rw [maskFrom_cons, classifyFrom_cons, classifyFrom_cons, Lexer.step_masked, hplain, hkept,
          hclass, thisAmong_cons_plain, thisAmong_cons_plain, hthis]
        rw [hplain, hkept] at ih
        simp only [ih]

/-- **The keyword and comments.** The search makes its own way over comments and literals and comes
to what the lexer tells, by which the script is masked; so it does not depend on comments. -/
theorem topLevelThis_maskComments (code : Text) :
    topLevelThis code = thisAmong 0 none (classify code)
      ∧ topLevelThis (maskComments code) = topLevelThis code := by
  have hclasses : ∀ t, topLevelThis t = thisAmong 0 none (classify t) :=
    fun t => thisFrom_pending (s := .code) trivial
  refine ⟨hclasses code, ?_⟩
  rw [hclasses, hclasses]
  exact thisAmong_maskFrom (s := .code) trivial fun _ => rfl

end Script

end MiniProgram
