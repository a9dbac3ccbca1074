import MiniProgram.Proofs.Text.Search
import MiniProgram.Script.Lexer

/-!
The lexer on parts of a script.

Masking goes byte by byte and hands its state on (`maskFrom`), and a byte of code is left as it is
unless a comment holds it. A part of a script that opens no comment can therefore be taken off a
masked script, and what follows is masked from the state the part leads to (`Lexer.Reads`).

* `Lexer.step_congr`: a step looks at the following byte for the second byte of a comment mark only.
* `Lexer.Reads.maskFrom_append`: a part that is read outside comments is not masked.
* `maskFrom_append`: masking two parts of a script one after the other.
* `Beside.step`: where a word may start in the script, it may in the masked script.
* `exists_after?_maskFrom`, `exists_skipSpace_maskFrom`: outside comments a word is found in the
  masked script where it is found in the script, and so is the end of white space.
-/

namespace MiniProgram

namespace Script

open Text

/-! ### Masking from a state -/

/-- The rest of a script as it is masked from a given state of the lexer on. -/
def maskFrom (s : Lexer) (t : Text) : Text := (classifyFrom s t).map maskByte

lemma maskComments_eq_maskFrom (code : Text) : maskComments code = maskFrom .code code := rfl

@[simp] lemma maskFrom_nil (s : Lexer) : maskFrom s [] = [] := rfl

lemma maskFrom_cons (s : Lexer) (b : UInt8) (t : Text) :
    maskFrom s (b :: t) =
      maskByte (b, (s.step b t.head?).2) :: maskFrom (s.step b t.head?).1 t := rfl

@[simp] lemma length_maskFrom (s : Lexer) (t : Text) : (maskFrom s t).length = t.length := by
  induction t generalizing s with
  | nil => rfl
  | cons b t ih => simp [maskFrom_cons, ih]

lemma length_maskComments (code : Text) : (maskComments code).length = code.length :=
  length_maskFrom .code code

lemma classifyFrom_cons (s : Lexer) (b : UInt8) (t : Text) :
    classifyFrom s (b :: t)
      = (b, (s.step b t.head?).2) :: classifyFrom (s.step b t.head?).1 t := rfl

/-- The bytes that are classified are those of the text. -/
lemma map_fst_classifyFrom (s : Lexer) (t : Text) : (classifyFrom s t).map Prod.fst = t := by
  induction t generalizing s with
  | nil => rfl
  | cons b t ih => rw [classifyFrom, List.map_cons, ih]

@[simp] lemma length_classifyFrom (s : Lexer) (t : Text) :
    (classifyFrom s t).length = t.length := by
  rw [← List.length_map Prod.fst, map_fst_classifyFrom]

lemma maskByte_of_ne_comment {b : UInt8} {c : ByteClass} (h : c ≠ .comment) :
    maskByte (b, c) = b := by
  simp [maskByte, h]

lemma maskByte_eq_or (b : UInt8) (c : ByteClass) :
    maskByte (b, c) = b ∨ maskByte (b, c) = Byte.space := by
  by_cases h : c = .comment ∧ b ≠ Byte.newline
  · exact Or.inr (if_pos h)
  · exact Or.inl (if_neg h)

/-- Masking brings no byte into a script but the space. -/
lemma mem_or_eq_space_of_mem_maskFrom {s : Lexer} {t : Text} {b : UInt8} (h : b ∈ maskFrom s t) :
    b ∈ t ∨ b = Byte.space := by
  induction t generalizing s with
  | nil => cases h
  | cons a t ih =>
      rw [maskFrom_cons, List.mem_cons] at h
      rcases h with h | h
      · rcases maskByte_eq_or a (s.step a t.head?).2 with heq | heq
        · exact Or.inl (h.trans heq ▸ List.mem_cons_self)
        · exact Or.inr (h.trans heq)
      · exact (ih h).imp_left (List.mem_cons_of_mem a)

/-! ### Single steps -/

namespace Lexer

/-- Whether the lexer is inside a comment or one of its marks. -/
def inComment : Lexer → Bool
  | opening _ | line | block | closing => true
  | code | literal _ | escaped _ => false

/-- A step asks of the following byte only whether it is a slash or a star. -/
lemma step_congr {next next' : Option UInt8}
    (hslash : next = some Byte.slash ↔ next' = some Byte.slash)
    (hstar : next = some Byte.star ↔ next' = some Byte.star) (b : UInt8) (s : Lexer) :
    s.step b next = s.step b next' := by
  cases s <;> simp [step, hslash, hstar]

/-- Outside comments every byte but a slash is kept, and no comment is entered over it. -/
lemma step_of_ne_slash {s : Lexer} (hs : s.inComment = false) {b : UInt8} (hb : b ≠ Byte.slash)
    (next : Option UInt8) :
    (s.step b next).2 ≠ .comment ∧ (s.step b next).1.inComment = false := by
  cases s with
  | code =>
      simp only [step, hb, decide_false, Bool.false_and, Bool.false_eq_true, if_false]
      split <;> simp [inComment]
  | literal q =>
      simp only [step]
      split
      · simp [inComment]
      · split <;> simp [inComment]
  | escaped q => simp [step, inComment]
  | opening _ => cases hs
  | line => cases hs
  | block => cases hs
  | closing => cases hs

/-- Inside a comment a byte is masked, unless it is a newline. -/
lemma maskByte_of_inComment {s : Lexer} (hs : s.inComment = true) (b : UInt8)
    (next : Option UInt8) :
    maskByte (b, (s.step b next).2) = Byte.space
      ∨ maskByte (b, (s.step b next).2) = Byte.newline := by
  by_cases hb : b = Byte.newline
  · rcases maskByte_eq_or b (s.step b next).2 with h | h
    · exact Or.inr (h.trans hb)
    · exact Or.inl h
  · have hstep : (s.step b next).2 = .comment := by
      cases s <;> simp_all [step, inComment]
    exact Or.inl (by simp [maskByte, hstep, hb])

/-- The mark that ends a block comment is entered only where its second byte follows. -/
lemma next_eq_slash_of_step_eq_closing {s : Lexer} {b : UInt8} {next : Option UInt8}
    (h : (s.step b next).1 = .closing) : next = some Byte.slash := by
  cases s with
  | block =>
      simp only [step] at h
      split_ifs at h with hclose
      · rw [Bool.and_eq_true, decide_eq_true_eq, decide_eq_true_eq] at hclose
        exact hclose.2
  | closing => cases h
  | escaped q => cases h
  | code => simp only [step] at h; split_ifs at h
  | opening b => simp only [step] at h; split_ifs at h
  | line => simp only [step] at h; split_ifs at h
  | literal q => simp only [step] at h; split_ifs at h

/-- A comment is left over one of its own bytes only by the mark that ends a block comment. -/
lemma eq_closing_of_step {s : Lexer} {b : UInt8} {next : Option UInt8}
    (hclass : (s.step b next).2 = .comment) (hs : (s.step b next).1.inComment = false) :
    s = .closing := by
  cases s with
  | closing => rfl
  | escaped q => cases hclass
  | code => simp only [step] at hclass hs; split_ifs at hclass hs <;> simp_all [inComment]
  | opening isBlock => cases isBlock <;> cases hs
  | line => simp only [step] at hclass hs; split_ifs at hclass hs; simp_all [inComment]
  | block => simp only [step] at hs; split_ifs at hs; all_goals cases hs
  | literal q => simp only [step] at hclass; split_ifs at hclass

end Lexer

/-! ### Parts outside comments -/

/-- The lexer comes from one state to another over a text, whatever follows it, and takes no byte of
it for part of a comment. -/
inductive Lexer.Reads : Lexer → Text → Lexer → Prop
  | nil (s : Lexer) : Reads s [] s
  | cons {s s' s'' : Lexer} {b : UInt8} {t : Text}
      (step : ∀ next, (s.step b next).1 = s' ∧ (s.step b next).2 ≠ .comment)
      (rest : Reads s' t s'') : Reads s (b :: t) s''

namespace Lexer.Reads

variable {s s' s'' : Lexer} {t u : Text}

lemma append (h : Reads s t s') (h' : Reads s' u s'') : Reads s (t ++ u) s'' := by
  induction h with
  | nil => exact h'
  | cons step rest ih => exact .cons step (ih h')

/-- A part that is read outside comments is not masked. -/
lemma maskFrom_append (h : Reads s t s') (u : Text) :
    maskFrom s (t ++ u) = t ++ maskFrom s' u := by
  induction h with
  | nil => rfl
  | @cons s _ _ b t step rest ih =>
      obtain ⟨hs, hc⟩ := step (t ++ u).head?
      rw [List.cons_append, maskFrom_cons, maskByte_of_ne_comment hc, hs, ih, List.cons_append]

/-- A text whose every byte keeps the state. -/
lemma of_forall (h : ∀ b ∈ t, ∀ next, (s.step b next).1 = s ∧ (s.step b next).2 ≠ .comment) :
    Reads s t s := by
  induction t with
  | nil => exact .nil s
  | cons b t ih =>
      exact .cons (h b List.mem_cons_self) (ih fun c hc => h c (List.mem_cons_of_mem b hc))

/-- A text of code without slashes and quotes. -/
lemma code (h : ∀ b ∈ t, b ≠ Byte.slash ∧ opensLiteral b = false) : Reads .code t .code := by
  refine of_forall fun b hb next => ?_
  obtain ⟨hslash, hquote⟩ := h b hb
  simp [step, hslash, hquote]

/-- A quote opens a literal. -/
lemma opening {q : UInt8} (hq : Byte.isQuote q = true) : Reads .code [q] (.literal q) := by
  have hslash : q ≠ Byte.slash := Byte.ne_of_class hq rfl
  exact .cons (fun next => by simp [step, opensLiteral, hq, hslash]) (.nil _)

/-- A whole literal: what is between its quotes leads from the state of the literal back to it. -/
lemma quoted {q : UInt8} (hq : Byte.isQuote q = true) (h : Reads (.literal q) t (.literal q)) :
    Reads .code (q :: (t ++ [q])) .code := by
  have hescape : q ≠ Byte.backslash := Byte.ne_of_class hq rfl
  have hclose : Reads (.literal q) [q] .code :=
    .cons (fun next => by simp [step, endsLiteral, hescape]) (.nil _)
  exact (opening hq).append (h.append hclose)

end Lexer.Reads

/-- White space is plain code. -/
lemma reads_blank {ws : Text} (hws : Blank ws) : Lexer.Reads .code ws .code := by
  refine .code fun b hb => ⟨Byte.ne_of_class (hws b hb) rfl, ?_⟩
  have hback : b ≠ Byte.backquote := Byte.ne_of_class (hws b hb) rfl
  have hquote : Byte.isQuote b = false := Byte.isQuote_eq_false rfl rfl (hws b hb)
  simp [opensLiteral, hquote, hback]

/-! ### Masking in two parts -/

/-- The state after a text behind which no comment mark is completed. -/
def Lexer.over (s : Lexer) : Text → Lexer
  | [] => s
  | b :: t => (s.step b t.head?).1.over t

/-- A script is classified in two parts, if the second does not complete a comment mark. -/
lemma classifyFrom_append {u : Text} (hslash : u.head? ≠ some Byte.slash)
    (hstar : u.head? ≠ some Byte.star) (s : Lexer) (t : Text) :
    classifyFrom s (t ++ u) = classifyFrom s t ++ classifyFrom (s.over t) u := by
  induction t generalizing s with
  | nil => rfl
  | cons b t ih =>
      have hstep : s.step b (t ++ u).head? = s.step b t.head? := by
        cases t with
        | nil => exact s.step_congr (by simp [hslash]) (by simp [hstar]) b
        | cons c t => rfl
      rw [List.cons_append, classifyFrom, classifyFrom, hstep]
      simp only [ih, Lexer.over, List.cons_append]

/-- A script is masked in two parts, if the second does not complete a comment mark. -/
lemma maskFrom_append {u : Text} (hslash : u.head? ≠ some Byte.slash)
    (hstar : u.head? ≠ some Byte.star) (s : Lexer) (t : Text) :
    maskFrom s (t ++ u) = maskFrom s t ++ maskFrom (s.over t) u := by
  rw [maskFrom, classifyFrom_append hslash hstar, List.map_append, maskFrom, maskFrom]

/-! ### The byte before a position -/

variable {s : Lexer} {t : Text}

/-- What the byte before a position has in common in a script and in the masked script: unless a
comment holds the position, a word may start in both or in neither. The lexer is at the second byte
of a mark that ends a comment only where that byte stands. -/
structure Beside (s : Lexer) (before masked : Option UInt8) (t : Text) : Prop where
  closing : s = .closing → t.head? = some Byte.slash
  wordStart : s.inComment = false → atWordStart masked = atWordStart before

lemma Beside.step {before masked : Option UInt8} {b : UInt8} (h : Beside s before masked (b :: t)) :
    Beside (s.step b t.head?).1 (some b) (some (maskByte (b, (s.step b t.head?).2))) t where
  closing := Lexer.next_eq_slash_of_step_eq_closing
  wordStart := by
    intro hs
    by_cases hclass : (s.step b t.head?).2 = .comment
    · -- the byte is the slash that ends a comment, after which a word may start as after a space
      have hslash := h.closing (Lexer.eq_closing_of_step hclass hs)
      obtain rfl : b = Byte.slash := by simpa using hslash
      rw [hclass]
      rfl
    · rw [maskByte_of_ne_comment hclass]

lemma beside_start (t : Text) : Beside .code none none t := ⟨nofun, fun _ => rfl⟩

/-! ### Words and white space outside comments -/

/-- Outside comments the first byte is kept, unless it is a slash. -/
lemma head?_maskFrom (hs : s.inComment = false) (ht : t.head? ≠ some Byte.slash) :
    (maskFrom s t).head? = t.head? := by
  cases t with
  | nil => rfl
  | cons b t =>
      have hb : b ≠ Byte.slash := by simpa using ht
      rw [maskFrom_cons, maskByte_of_ne_comment (Lexer.step_of_ne_slash hs hb _).1]
      rfl

/-- Outside comments a word is found in the masked script where it is found in the script. -/
lemma exists_after?_maskFrom {word : Text} (hword : ∀ b ∈ word, b ≠ Byte.slash ∧ b ≠ Byte.space)
    (hs : s.inComment = false) (t : Text) :
    ∃ s', s'.inComment = false
      ∧ Text.after? word (maskFrom s t) = (Text.after? word t).map (maskFrom s') := by
  induction word generalizing s t with
  | nil => exact ⟨s, hs, rfl⟩
  | cons a word ih =>
      obtain ⟨ha, hword⟩ := List.forall_mem_cons.1 hword
      cases t with
      | nil => exact ⟨s, hs, rfl⟩
      | cons b t =>
          by_cases hab : a = b
          · -- a byte of the word is no slash, so it is kept and the lexer stays outside comments
            subst hab
            obtain ⟨hc, hs'⟩ := Lexer.step_of_ne_slash hs ha.1 t.head?
            obtain ⟨s', hs', h⟩ := ih hword hs' t
            refine ⟨s', hs', ?_⟩
            rw [maskFrom_cons, maskByte_of_ne_comment hc]
            simpa [Text.after?] using h
          · refine ⟨s, hs, ?_⟩
            have hne : a ≠ maskByte (b, (s.step b t.head?).2) := by
              rcases maskByte_eq_or b (s.step b t.head?).2 with h | h <;> rw [h]
              · exact hab
              · exact ha.2
            simp [maskFrom_cons, Text.after?, hab, hne]

/-- Outside comments the white space in front of a script is that of the masked script, unless a
slash follows it. -/
lemma exists_skipSpace_maskFrom (hs : s.inComment = false)
    (ht : (Text.skipSpace t).head? ≠ some Byte.slash) :
    ∃ s', s'.inComment = false
      ∧ Text.skipSpace (maskFrom s t) = maskFrom s' (Text.skipSpace t) := by
  induction t generalizing s with
  | nil => exact ⟨s, hs, rfl⟩
  | cons b t ih =>
      by_cases hb : Byte.isSpace b = true
      · have hslash : b ≠ Byte.slash := Byte.ne_of_class hb rfl
        obtain ⟨hc, hs'⟩ := Lexer.step_of_ne_slash hs hslash t.head?
        have hskip : Text.skipSpace (b :: t) = Text.skipSpace t := by simp [Text.skipSpace, hb]
        rw [hskip] at ht ⊢
        obtain ⟨s', hs', h⟩ := ih hs' ht
        refine ⟨s', hs', ?_⟩
        rw [maskFrom_cons, maskByte_of_ne_comment hc]
        simpa [Text.skipSpace, hb] using h
      · have hskip : Text.skipSpace (b :: t) = b :: t := by simp [Text.skipSpace, hb]
        rw [hskip] at ht ⊢
        have hslash : b ≠ Byte.slash := by simpa using ht
        refine ⟨s, hs, ?_⟩
        rw [maskFrom_cons, maskByte_of_ne_comment (Lexer.step_of_ne_slash hs hslash _).1]
        simp [Text.skipSpace, hb]

end Script

end MiniProgram
