import MiniProgram.Proofs.Script.Lexer

/-!
What masking does to a script.

The lexer runs over a masked script as it ran over the script: where it was in a comment it is now
in plain code, over blanks that lead it nowhere, and everywhere else it is in the same state. The
one thing to see is that no blank makes a comment mark out of the byte before it.

* `Lexer.step_code_cases`: what a step over plain code may be.
* `Lexer.step_masked`: one step over the masked script.
* `classify_maskComments`: the second run passes through the same states, so that the bytes of
  comments have become plain code and the others are of the same class.
* `maskComments_blanks_comments`: **masking blanks the bytes of comments and nothing else**, and a
  second masking changes nothing.
-/

namespace MiniProgram

namespace Script

/-! ### One step -/

namespace Lexer

/-- The state over the masked script where the script has a given one: a comment is plain code. -/
def masked : Lexer → Lexer
  | opening _ | line | block | closing => code
  | s => s

lemma masked_of_inComment {s : Lexer} (h : s.inComment = true) : s.masked = code := by
  cases s <;> first | rfl | cases h

lemma masked_of_not_inComment {s : Lexer} (h : s.inComment = false) : s.masked = s := by
  cases s <;> first | rfl | cases h

/-- Inside a comment the lexer stays in it or comes back to plain code, over a comment byte or over
the newline behind it. -/
lemma step_of_inComment {s : Lexer} (hs : s.inComment = true) (b : UInt8) (next : Option UInt8) :
    (s.step b next).1.masked = code ∧ (s.step b next).2 ≠ .literal := by
  cases s with
  | opening isBlock => cases isBlock <;> simp [step, masked]
  | line => simp only [step]; split <;> simp [masked]
  | block => simp only [step]; split <;> simp [masked]
  | closing => simp [step, masked]
  | code => cases hs
  | literal q => cases hs
  | escaped q => cases hs

/-- A blank leaves plain code as it is, whatever follows. -/
lemma step_code_blank {b : UInt8} (h : b = Byte.space ∨ b = Byte.newline) (next : Option UInt8) :
    code.step b next = (code, .plain) := by
  rcases h with rfl | rfl <;> rfl

/-- A slash in plain code is left there unless it opens a comment. -/
lemma step_code_slash (next : Option UInt8) :
    code.step Byte.slash next
      = if next = some Byte.slash then (opening false, .comment)
        else if next = some Byte.star then (opening true, .comment) else (code, .plain) := by
  have hquote : opensLiteral Byte.slash = false := rfl
  simp [step, hquote]

/-- In plain code the lexer enters a comment or a literal, or stays. -/
lemma step_code_cases (b : UInt8) (next : Option UInt8) :
    ((b = Byte.slash ∧ next = some Byte.slash) ∧ code.step b next = (opening false, .comment))
      ∨ ((b = Byte.slash ∧ next = some Byte.star) ∧ code.step b next = (opening true, .comment))
      ∨ (¬ (b = Byte.slash ∧ next = some Byte.slash) ∧ ¬ (b = Byte.slash ∧ next = some Byte.star)
        ∧ (opensLiteral b = true ∧ code.step b next = (literal b, .literal)
          ∨ opensLiteral b = false ∧ code.step b next = (code, .plain))) := by
  by_cases hb : b = Byte.slash
  · subst hb
    rw [step_code_slash]
    split_ifs with hline hblock
    · exact Or.inl ⟨⟨rfl, hline⟩, rfl⟩
    · exact Or.inr (Or.inl ⟨⟨rfl, hblock⟩, rfl⟩)
    · exact Or.inr (Or.inr ⟨fun h => hline h.2, fun h => hblock h.2, Or.inr ⟨rfl, rfl⟩⟩)
  · refine Or.inr (Or.inr ⟨fun h => hb h.1, fun h => hb h.1, ?_⟩)
    cases hquote : opensLiteral b with
    | true => exact Or.inl ⟨rfl, by simp [step, hb, hquote]⟩
    | false => exact Or.inr ⟨rfl, by simp [step, hb, hquote]⟩

/-- A byte of plain code leads from plain code to plain code. -/
lemma state_of_plain {b : UInt8} {next : Option UInt8} (h : (code.step b next).2 = .plain) :
    (code.step b next).1 = code := by
  rcases step_code_cases b next with
    ⟨-, hstep⟩ | ⟨-, hstep⟩ | ⟨-, -, ⟨-, hstep⟩ | ⟨-, hstep⟩⟩ <;> rw [hstep] at h ⊢ <;> cases h

/-- Only a slash in plain code is told by the byte that follows. -/
lemma step_next {s : Lexer} (hs : s.inComment = false) {b : UInt8}
    (h : ¬ (s = code ∧ b = Byte.slash)) (next next' : Option UInt8) :
    s.step b next = s.step b next' := by
  cases s with
  | code =>
      have hb : b ≠ Byte.slash := fun hb => h ⟨rfl, hb⟩
      simp [step, hb]
  | literal q => rfl
  | escaped q => rfl
  | opening isBlock => cases hs
  | line => cases hs
  | block => cases hs
  | closing => cases hs

/-- Any byte but a slash in plain code is kept, and no comment is entered over it. -/
lemma step_kept {s : Lexer} (hs : s.inComment = false) {b : UInt8}
    (h : ¬ (s = code ∧ b = Byte.slash)) (next : Option UInt8) :
    (s.step b next).2 ≠ .comment ∧ (s.step b next).1.inComment = false := by
  cases s with
  | code => exact step_of_ne_slash hs (fun hb => h ⟨rfl, hb⟩) next
  | literal q => simp only [step]; split_ifs <;> simp [inComment]
  | escaped q => simp [step, inComment]
  | opening isBlock => cases hs
  | line => cases hs
  | block => cases hs
  | closing => cases hs

end Lexer

/-- The class of a byte in the masked script, where the script has a given one. -/
def ByteClass.masked : ByteClass → ByteClass
  | .comment => .plain
  | c => c

lemma ByteClass.masked_of_ne_comment {c : ByteClass} (h : c ≠ .comment) : c.masked = c := by
  cases c <;> first | rfl | exact absurd rfl h

lemma ByteClass.masked_of_ne_literal {c : ByteClass} (h : c ≠ .literal) : c.masked = .plain := by
  cases c <;> first | rfl | exact absurd rfl h

lemma ByteClass.masked_ne_comment (c : ByteClass) : c.masked ≠ .comment := by
  cases c <;> decide

/-- The first byte of a masked text is that of the text or a space. -/
lemma head?_maskFrom_eq_or (s : Lexer) (t : Text) :
    (maskFrom s t).head? = t.head? ∨ (maskFrom s t).head? = some Byte.space := by
  cases t with
  | nil => exact Or.inl rfl
  | cons b t =>
      rw [maskFrom_cons, List.head?_cons, List.head?_cons]
      exact (maskByte_eq_or b _).imp (congrArg some) (congrArg some)

/-- A slash that opens no comment in the script opens none in the masked script. -/
lemma head?_maskFrom_ne {t : Text} {b : UInt8} (hb : b ≠ Byte.space) (ht : t.head? ≠ some b)
    (s : Lexer) : (maskFrom s t).head? ≠ some b := by
  rcases head?_maskFrom_eq_or s t with h | h <;> rw [h]
  · exact ht
  · exact fun heq => hb (Option.some.inj heq).symm

/-- **One step over the masked script**: it leads to the masked state, and the byte is of the masked
class. -/
lemma Lexer.step_masked (s : Lexer) (b : UInt8) (t : Text) :
    s.masked.step (maskByte (b, (s.step b t.head?).2)) (maskFrom (s.step b t.head?).1 t).head?
      = ((s.step b t.head?).1.masked, (s.step b t.head?).2.masked) := by
  by_cases hs : s.inComment = true
  · obtain ⟨hstate, hclass⟩ := step_of_inComment hs b t.head?
    rw [masked_of_inComment hs, step_code_blank (maskByte_of_inComment hs b t.head?), hstate,
      ByteClass.masked_of_ne_literal hclass]
  · rw [Bool.not_eq_true] at hs
    by_cases hslash : s = .code ∧ b = Byte.slash
    · obtain ⟨rfl, rfl⟩ := hslash
      rw [step_code_slash]
      split_ifs with hline hblock
      · rfl
      · rfl
      · have hline' := head?_maskFrom_ne (by decide) hline .code
        have hblock' := head?_maskFrom_ne (by decide) hblock .code
        change code.step Byte.slash (maskFrom .code t).head? = (code, .plain)
        rw [step_code_slash, if_neg hline', if_neg hblock']
    · obtain ⟨hclass, hstate⟩ := step_kept hs hslash t.head?
      rw [maskByte_of_ne_comment hclass, masked_of_not_inComment hs, masked_of_not_inComment hstate,
        ByteClass.masked_of_ne_comment hclass]
      exact step_next hs hslash _ _

/-! ### The second run -/

/-- A byte with its class, as the masked script has them. -/
def maskClass (p : UInt8 × ByteClass) : UInt8 × ByteClass := (maskByte p, p.2.masked)

lemma classifyFrom_maskFrom (s : Lexer) (t : Text) :
    classifyFrom s.masked (maskFrom s t) = (classifyFrom s t).map maskClass := by
  induction t generalizing s with
  | nil => rfl
  | cons b t ih =>
      rw [maskFrom_cons, classifyFrom_cons, Lexer.step_masked, classifyFrom_cons, List.map_cons, ih,
        maskClass]

/-- **The second run.** The bytes of comments have become plain code, the others are of the same
class. -/
theorem classify_maskComments (code : Text) :
    classify (maskComments code) = (classify code).map maskClass :=
  classifyFrom_maskFrom .code code

lemma maskByte_maskClass (p : UInt8 × ByteClass) : maskByte (maskClass p) = maskByte p :=
  maskByte_of_ne_comment p.2.masked_ne_comment

/-! ### Position by position -/

lemma getElem?_maskComments (code : Text) (i : ℕ) :
    (maskComments code)[i]? = (classify code)[i]?.map maskByte := by
  rw [maskComments, List.getElem?_map]

lemma getElem?_classify (code : Text) (i : ℕ) :
    code[i]? = (classify code)[i]?.map Prod.fst := by
  conv_lhs => rw [← map_fst_classifyFrom .code code]
  rw [List.getElem?_map]
  rfl

/-- A newline is kept, and none is made. -/
lemma maskByte_eq_newline_iff (p : UInt8 × ByteClass) :
    maskByte p = Byte.newline ↔ p.1 = Byte.newline := by
  obtain ⟨b, c⟩ := p
  rw [maskByte]
  split
  · rename_i h
    exact iff_of_false (by decide) h.2
  · rfl

/-- **What masking does.** A masked script has the length of the script and its newlines; a byte is
kept or has become a space, and it is kept outside comments; no comment is left, and a second
masking changes nothing. -/
theorem maskComments_blanks_comments (code : Text) :
    (maskComments code).length = code.length
      ∧ (∀ i : ℕ, (maskComments code)[i]? = some Byte.newline ↔ code[i]? = some Byte.newline)
      ∧ (∀ i : ℕ, (maskComments code)[i]? = code[i]?
        ∨ i < code.length ∧ (maskComments code)[i]? = some Byte.space)
      ∧ (∀ (i : ℕ) b c, (classify code)[i]? = some (b, c) → c ≠ .comment →
        (maskComments code)[i]? = some b)
      ∧ (∀ p ∈ classify (maskComments code), p.2 ≠ .comment)
      ∧ maskComments (maskComments code) = maskComments code := by
  refine ⟨length_maskComments code, fun i => ?_, fun i => ?_, fun i b c h hc => ?_, ?_, ?_⟩
  · rw [getElem?_maskComments, getElem?_classify, Option.map_eq_some_iff, Option.map_eq_some_iff]
    simp only [maskByte_eq_newline_iff]
  · rw [getElem?_maskComments, getElem?_classify]
    cases h : (classify code)[i]? with
    | none => exact Or.inl rfl
    | some p =>
        have hi : i < code.length := by
          rw [← length_classifyFrom .code code]
          exact (List.getElem?_eq_some_iff.1 h).1
        exact (maskByte_eq_or p.1 p.2).imp (congrArg some) fun heq => ⟨hi, congrArg some heq⟩
  · rw [getElem?_maskComments, h, Option.map_some, maskByte_of_ne_comment hc]
  · rw [classify_maskComments, List.forall_mem_map]
    exact fun p _ => p.2.masked_ne_comment
  · rw [maskComments, classify_maskComments, List.map_map, maskComments]
    exact List.map_congr_left fun p _ => maskByte_maskClass p

end Script

end MiniProgram
