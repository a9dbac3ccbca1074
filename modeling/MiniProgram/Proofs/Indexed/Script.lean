import MiniProgram.Proofs.Indexed.Reading
import MiniProgram.Proofs.Script.TopLevelThis

/-!
Comments and the keyword `this`, by position.

Masking goes over a script and blanks the comments of a copy of it; the search for the keyword goes
over the same comments and literals and blanks nothing. A round of either jumps from the byte that
opens a comment or literal to the one behind its end. The lexer is then back in plain code, and how
far the jump goes is what it has pending (`Lexer.pending?`).

* `Lexer.shown`, `maskFrom_code_cons`: what masking makes of a comment or literal as a whole.
* `step_code_cases_of_drop`: what may stand at a position, and where it ends.
* `blank_comment`, `blank_line`: blanking a part of a buffer.
* `maskRound_of_drop`, `thisRound_of_drop`: what a round does.
* `maskComments_eq`: **masking by position is masking.**
* `topLevelThis_eq`: **the search by position is the search.**
-/

namespace MiniProgram

open Text

/-! ### Over a comment or literal -/

namespace Script

variable {s : Lexer} {b : UInt8} {t : Text}

/-- A byte of a comment as masking leaves it. -/
def blankByte (b : UInt8) : UInt8 := if b = Byte.newline then b else Byte.space

namespace Lexer

/-- What masking makes of the bytes that the lexer goes over in a state. -/
def shown (s : Lexer) (b : UInt8) : UInt8 := if s.inComment then blankByte b else b

lemma maskByte_step (hs : s ≠ code) (b : UInt8) (next : Option UInt8) :
    maskByte (b, (s.step b next).2) = s.shown b := by
  by_cases hb : b = Byte.newline
  · subst hb
    simp [maskByte, shown, blankByte]
  · cases s with
    | code => exact absurd rfl hs
    | literal q => simp only [step]; split_ifs <;> rfl
    | escaped q => rfl
    | opening isBlock => simp [maskByte, step, shown, inComment, blankByte, hb]
    | line => simp [maskByte, step, shown, inComment, blankByte, hb]
    | block => simp [maskByte, step, shown, inComment, blankByte, hb]
    | closing => simp [maskByte, step, shown, inComment, blankByte, hb]

/-- Inside a comment the lexer stays in one, and inside a literal in one, until it is back in plain
code. -/
lemma shown_step (hs : s ≠ code) (hs' : (s.step b t.head?).1 ≠ code) :
    (s.step b t.head?).1.shown = s.shown := by
  have hkind : (s.step b t.head?).1.inComment = s.inComment := by
    revert hs'
    cases s with
    | code => exact absurd rfl hs
    | opening isBlock => cases isBlock <;> simp [step, inComment]
    | line => simp only [step]; split_ifs <;> simp [inComment]
    | block => simp only [step]; split_ifs <;> simp [inComment]
    | closing => simp [step]
    | literal q => simp only [step]; split_ifs <;> simp [inComment]
    | escaped q => simp [step, inComment]
  funext c
  rw [shown, shown, hkind]

end Lexer

/-- Over what is pending the lexer masks all bytes alike, and behind it goes on in plain code. -/
lemma maskFrom_pending (hs : s ≠ .code) (h : s.MarkAhead t) :
    maskFrom s t = (s.pending? t).elim (t.map s.shown) fun n =>
      (t.take n).map s.shown ++ maskFrom .code (t.drop n) := by
  induction t generalizing s with
  | nil => cases s.pending? [] <;> simp
  | cons b t ih =>
      rw [maskFrom_cons, Lexer.maskByte_step hs, Lexer.pending?_cons hs h]
      by_cases hs' : (s.step b t.head?).1 = .code
      · rw [hs', Lexer.pending?]
        rfl
      · rw [ih hs' (.step s b t), Lexer.shown_step hs hs']
        cases (s.step b t.head?).1.pending? t <;> rfl

/-- In plain code a byte is masked together with the comment or literal that it opens. -/
lemma maskFrom_code_cons (b : UInt8) (t : Text) {s : Lexer}
    (hs : (Lexer.step b t.head? .code).1 = s) :
    maskFrom .code (b :: t) = (s.pending? t).elim ((b :: t).map s.shown) fun n =>
      (b :: t.take n).map s.shown ++ maskFrom .code (t.drop n) := by
  have hbyte : maskByte (b, (Lexer.step b t.head? .code).2) = s.shown b := by
    subst hs
    rcases Lexer.step_code_cases b t.head? with
      ⟨⟨rfl, -⟩, hstep⟩ | ⟨⟨rfl, -⟩, hstep⟩ | ⟨-, -, ⟨-, hstep⟩ | ⟨-, hstep⟩⟩ <;> rw [hstep] <;> rfl
  have hahead : s.MarkAhead t := hs ▸ Lexer.MarkAhead.step .code b t
  rw [maskFrom_cons, hbyte, hs]
  by_cases hcode : s = .code
  · subst hcode
    rfl
  · rw [maskFrom_pending hcode hahead]
    cases s.pending? t <;> rfl

end Script

namespace Indexed

open Script (Lexer blankByte maskFrom lineLength thisFrom isThis)

variable {code t : Text} {b : UInt8} {i n depth : ℕ}

/-! ### What stands at a position -/

/-- At a position of plain code a comment of either kind begins, or a literal, or a plain byte
stands; and where the comment or literal ends. -/
lemma step_code_cases_of_drop (h : code.drop i = b :: t) :
    ((b = Byte.slash ∧ code[i + 1]? = some Byte.slash)
        ∧ Lexer.step b t.head? .code = (.opening false, .comment))
      ∨ (¬ (b = Byte.slash ∧ code[i + 1]? = some Byte.slash)
        ∧ (b = Byte.slash ∧ code[i + 1]? = some Byte.star)
        ∧ blockEnd code i = some ((Script.blockLength? t).map (i + ·))
        ∧ Lexer.step b t.head? .code = (.opening true, .comment))
      ∨ (¬ (b = Byte.slash ∧ code[i + 1]? = some Byte.slash)
        ∧ ¬ (b = Byte.slash ∧ code[i + 1]? = some Byte.star)
        ∧ ((Script.opensLiteral b = true
            ∧ literalEnd code i = some (i + Script.literalLength b false t)
            ∧ Lexer.step b t.head? .code = (.literal b, .literal))
          ∨ (Script.opensLiteral b = false ∧ Lexer.step b t.head? .code = (.code, .plain)))) := by
  rw [getElem?_succ_of_drop h]
  rcases Lexer.step_code_cases b t.head? with
    ⟨hline, hstep⟩ | ⟨hblock, hstep⟩ | ⟨hline, hblock, ⟨hquote, hstep⟩ | ⟨hquote, hstep⟩⟩
  · exact Or.inl ⟨hline, hstep⟩
  · have hline : ¬ (b = Byte.slash ∧ t.head? = some Byte.slash) := by
      rw [hblock.2]
      exact fun h => absurd h.2 (by decide)
    have ht : t ≠ [] := by
      rintro rfl
      exact absurd hblock.2 (by simp)
    exact Or.inr (Or.inl ⟨hline, hblock, blockEnd_of_drop h ht, hstep⟩)
  · exact Or.inr (Or.inr ⟨hline, hblock, Or.inl ⟨hquote, literalEnd_of_drop h, hstep⟩⟩)
  · exact Or.inr (Or.inr ⟨hline, hblock, Or.inr ⟨hquote, hstep⟩⟩)

/-! ### Masking -/

/-- Blanks a number of bytes of a buffer from a position on, newlines apart. -/
def blank : (n k : ℕ) → Text → Option Text
  | 0, _, buf => some buf
  | n + 1, k, buf => do
    let b ← buf[k]?
    blank n (k + 1) (if b = Byte.newline then buf else buf.set k Byte.space)

/-- One round of masking: a comment is blanked in the buffer and passed over, a literal is passed
over. -/
def maskRound (code : Text) (i : ℕ) (b : UInt8) (buf : Text) : Option (Next Text Text) := do
  if b = Byte.slash && code[i + 1]? = some Byte.slash then
    let line := (← from? code i).takeWhile (· ≠ Byte.newline)
    let buf ← blank line.length i buf
    return .on (i + line.length + 1) buf
  else if b = Byte.slash && code[i + 1]? = some Byte.star then
    match ← blockEnd code i with
    | some stop =>
      let buf ← blank (stop + 1 - i) i buf
      return .on (stop + 1) buf
    | none =>
      let buf ← blank (code.length - i) i buf
      return .done buf
  else if Script.opensLiteral b then
    let stop ← literalEnd code i
    return .on (stop + 1) buf
  else return .on (i + 1) buf

/-- Goes over a script from a position on and blanks its comments in a buffer. -/
def maskLoop (code : Text) (i : ℕ) (buf : Text) : Option Text :=
  loop code (maskRound code) (fun _ buf => some buf) i buf

/-- A script with its comments blanked in a copy of it. -/
def maskComments (code : Text) : Option Text := maskLoop code 0 code

/-- A part of a buffer is blanked in its place. -/
lemma blank_eq (front part rest : Text) :
    blank part.length front.length (front ++ (part ++ rest))
      = some (front ++ (part.map blankByte ++ rest)) := by
  induction part generalizing front with
  | nil => rfl
  | cons b part ih =>
      have hbyte : (front ++ (b :: part ++ rest))[front.length]? = some b := by
        rw [List.getElem?_append_right le_rfl]
        simp
      have hset : (if b = Byte.newline then front ++ (b :: part ++ rest)
          else (front ++ (b :: part ++ rest)).set front.length Byte.space)
            = front ++ [blankByte b] ++ (part ++ rest) := by
        by_cases hb : b = Byte.newline <;> simp [blankByte, hb]
      have hrest := ih (front ++ [blankByte b])
      rw [List.length_append, List.length_singleton] at hrest
      rw [List.length_cons, blank, hbyte]
      simp only [Option.bind_eq_bind, Option.bind_some]
      rw [hset, hrest]
      simp

/-- A byte is blanked together with the bytes behind it that are part of the same comment. -/
lemma blank_comment (masked : Text) (b : UInt8) (h : n ≤ t.length) :
    blank (n + 1) masked.length (masked ++ b :: t)
      = some (masked ++ ((b :: t.take n).map blankByte ++ t.drop n)) := by
  have hblank := blank_eq masked (b :: t.take n) (t.drop n)
  rwa [List.cons_append, List.take_append_drop, List.length_cons, List.length_take_of_le h]
    at hblank

/-- The newline that ends a line is the same blanked or not. -/
lemma map_take_lineLength (t : Text) :
    (t.take (t.takeWhile (· ≠ Byte.newline)).length).map blankByte
        ++ t.drop (t.takeWhile (· ≠ Byte.newline)).length
      = (t.take (lineLength t)).map blankByte ++ t.drop (lineLength t) := by
  induction t with
  | nil => rfl
  | cons b t ih =>
      by_cases hb : b = Byte.newline
      · subst hb
        rfl
      · rw [Script.lineLength_cons hb, List.takeWhile_cons_of_pos (by simpa using hb),
          List.length_cons, List.take_succ_cons, List.drop_succ_cons, List.take_succ_cons,
          List.drop_succ_cons, List.map_cons, List.map_cons, List.cons_append, List.cons_append, ih]

/-- A line comment is blanked up to its newline. -/
lemma blank_line (masked : Text) (b : UInt8) (t : Text) :
    blank (lineLength t) masked.length (masked ++ b :: t)
      = some (masked ++ ((b :: t.take (lineLength t)).map blankByte ++ t.drop (lineLength t))) := by
  have hle := (List.takeWhile_prefix (l := t) (· ≠ Byte.newline)).length_le
  have hblank := blank_comment masked b hle
  rwa [List.map_cons, List.cons_append, map_take_lineLength] at hblank

/-- How far a line goes on in which a slash opens a comment. -/
lemma length_takeWhile_line (hb : b = Byte.slash) (t : Text) :
    ((b :: t).takeWhile (· ≠ Byte.newline)).length = lineLength t := by
  subst hb
  rfl

/-- A round goes behind the comment or literal that a byte opens; a comment that is not closed is
the last. -/
lemma maskRound_of_drop (h : code.drop i = b :: t) {masked : Text} (hmasked : masked.length = i)
    {s : Lexer} (hs : (Lexer.step b t.head? .code).1 = s) :
    maskRound code i b (masked ++ b :: t)
      = some ((s.pending? t).elim (.done (masked ++ (b :: t).map s.shown)) fun n =>
        .on (i + 1 + n) (masked ++ ((b :: t.take n).map s.shown ++ t.drop n))) := by
  have hlength := length_eq_of_drop h
  subst hmasked
  rw [maskRound]
  simp only [Option.bind_eq_bind, Bool.and_eq_true, decide_eq_true_eq]
  -- a line comment, a block comment, a literal, or a byte of code
  rcases step_code_cases_of_drop h with
    ⟨hline, hstep⟩ | ⟨hline, hblock, hend, hstep⟩
      | ⟨hline, hblock, ⟨hquote, hend, hstep⟩ | ⟨hquote, hstep⟩⟩ <;>
    rw [hstep] at hs <;> subst hs
  · rw [if_pos hline, from?_eq (by omega), h]
    simp only [Option.bind_some]
    rw [length_takeWhile_line hline.1, blank_line, Option.bind_some, Lexer.pending?,
      Option.elim_some, Nat.add_right_comm]
    rfl
  · rw [if_neg hline, if_pos hblock, hend, Lexer.pending?, Option.bind_some]
    cases hclosed : Script.blockLength? t with
    | none =>
        have hblank := blank_comment masked b (le_refl t.length)
        rw [List.take_length, List.drop_length, List.append_nil] at hblank
        have hrest : code.length - masked.length = t.length + 1 := by omega
        rw [Option.map_none]
        dsimp only
        rw [hrest, hblank]
        rfl
    | some n =>
        have hrest : masked.length + n + 1 - masked.length = n + 1 := by omega
        rw [Option.map_some, Option.elim_some, Nat.add_right_comm masked.length 1]
        dsimp only
        rw [hrest, blank_comment masked b (blockLength?_le hclosed)]
        rfl
  · have hshown : (Lexer.literal b).shown = id := rfl
    rw [if_neg hline, if_neg hblock, if_pos hquote, hend, Option.bind_some, Lexer.pending?,
      Option.elim_some, Nat.add_right_comm, hshown, List.map_id, List.cons_append,
      List.take_append_drop]
    rfl
  · rw [if_neg hline, if_neg hblock, hquote, if_neg Bool.false_ne_true, Lexer.pending?]
    rfl

/-- Masking by position, from a position on. -/
lemma maskLoop_eq (i : ℕ) {masked : Text} (hmasked : i ≤ code.length → masked.length = i) :
    maskLoop code i (masked ++ code.drop i) = some (masked ++ maskFrom .code (code.drop i)) := by
  induction i using upward code generalizing masked with
  | behind i hi =>
      rw [maskLoop, loop_of_length_le hi, List.drop_eq_nil_of_le hi]
      rfl
  | step i b t h ih =>
      have hlength := length_eq_of_drop h
      have hfront := hmasked (by omega)
      have hround := maskRound_of_drop h hfront rfl
      rw [h, Script.maskFrom_code_cons b t rfl, maskLoop]
      cases hpending : (Lexer.step b t.head? .code).1.pending? t with
      | none =>
          rw [hpending] at hround
          exact loop_of_done h hround
      | some n =>
          rw [hpending] at hround
          have hpart : i + 1 + n ≤ code.length →
              (masked ++ (b :: t.take n).map (Lexer.step b t.head? .code).1.shown).length
                = i + 1 + n := fun hle => by
            rw [List.length_append, List.length_map, List.length_cons,
              List.length_take_of_le (by omega), hfront, Nat.add_comm n, Nat.add_assoc]
          have hrest := ih (i + 1 + n) (by omega) hpart
          rw [drop_of_drop h, List.append_assoc, List.append_assoc] at hrest
          exact (loop_of_on h hround).trans hrest

/-- **Masking by position is masking**: the loop ends, and no byte outside the script or the buffer
is asked for. -/
theorem maskComments_eq (code : Text) : maskComments code = some (Script.maskComments code) :=
  @maskLoop_eq code 0 [] fun _ => rfl

/-! ### The keyword `this` -/

/-- The byte before a position, if there is one. -/
def before? (code : Text) (i : ℕ) : Option (Option UInt8) :=
  if i = 0 then some none
  else do
    let k ← back? i
    let b ← code[k]?
    return some b

/-- Whether `this` stands as a word at a position. -/
def isThisAt (code : Text) (i : ℕ) : Option Bool := do
  let rest ← from? code i
  let before ← before? code i
  return startsWith rest "this" && !before.any Byte.isIdent && !code[i + 4]?.any Byte.isIdent

/-- One round of the search, inside `depth` pairs of braces: a comment or literal is passed over,
and a brace counted. -/
def thisRound (code : Text) (i : ℕ) (b : UInt8) (depth : ℕ) : Option (Next ℕ Bool) := do
  if b = Byte.slash && code[i + 1]? = some Byte.slash then
    let stop ← runEnd (· ≠ Byte.newline) code i
    return .on (stop + 1) depth
  else if b = Byte.slash && code[i + 1]? = some Byte.star then
    match ← blockEnd code i with
    | some stop => return .on (stop + 1) depth
    | none => return .done false
  else if Script.opensLiteral b then
    let stop ← literalEnd code i
    return .on (stop + 1) depth
  else if b = Byte.openBrace then return .on (i + 1) (depth + 1)
  else if b = Byte.closeBrace then return .on (i + 1) (depth - 1)
  else
    let found ← isThisAt code i
    return if depth = 0 && found then .done true else .on (i + 1) depth

/-- Goes over a script from a position on, inside `depth` pairs of braces, to the keyword. -/
def thisLoop (code : Text) (i depth : ℕ) : Option Bool :=
  loop code (thisRound code) (fun _ _ => some false) i depth

/-- Whether the keyword `this` stands outside braces, strings and comments. -/
def topLevelThis (code : Text) : Option Bool := thisLoop code 0 0

lemma getLast?_take_succ (h : code.drop i = b :: t) : (code.take (i + 1)).getLast? = some b := by
  rw [List.take_add_one, getElem?_of_drop h, Option.toList_some, List.getLast?_concat]

lemma before?_eq (h : i ≤ code.length) : before? code i = some (code.take i).getLast? := by
  cases i with
  | zero => rfl
  | succ i =>
      have hbyte : code[i]? = some code[i] := List.getElem?_eq_getElem h
      simp [before?, back?, List.getLast?_take, hbyte]

lemma isThisAt_of_drop (h : code.drop i = b :: t) :
    isThisAt code i = some (isThis (code.take i).getLast? (b :: t)) := by
  have hlength := length_eq_of_drop h
  have hword : ∀ before, isThis before (b :: t) = (startsWith (b :: t) "this"
      && !before.any Byte.isIdent && !code[i + 4]?.any Byte.isIdent) := by
    intro before
    rw [isThis]
    cases hafter : after? "this" (b :: t) with
    | none =>
        have hstart : startsWith (b :: t) "this" = false := by
          rw [← Bool.not_eq_true, startsWith_iff]
          rintro ⟨u, hu⟩
          rw [after?_eq_some.2 hu.symm] at hafter
          cases hafter
        rw [hstart, Bool.and_false, Bool.false_and, Bool.false_and]
    | some u =>
        have hu := after?_eq_some.1 hafter
        have hstart : startsWith (b :: t) "this" = true := startsWith_iff.2 ⟨u, hu.symm⟩
        have hnext : code[i + 4]? = u.head? := by
          rw [← List.head?_drop, ← List.drop_drop, h, hu]
          rfl
        rw [hstart, hnext, Bool.true_and]
  rw [isThisAt, from?_eq (by omega), before?_eq (by omega), h, hword]
  rfl

/-- A round goes behind the comment or literal that a byte opens. -/
lemma thisRound_of_drop (h : code.drop i = b :: t) (depth : ℕ) :
    thisRound code i b depth
      = some (if (Lexer.step b t.head? .code).2 ≠ .plain then
          ((Lexer.step b t.head? .code).1.pending? t).elim (.done false) fun n =>
            .on (i + 1 + n) depth
        else if b = Byte.openBrace then .on (i + 1) (depth + 1)
        else if b = Byte.closeBrace then .on (i + 1) (depth - 1)
        else if depth = 0 && isThis (code.take i).getLast? (b :: t) then .done true
        else .on (i + 1) depth) := by
  have hlength := length_eq_of_drop h
  have hcomment : Script.ByteClass.comment ≠ .plain := by decide
  have hliteral : Script.ByteClass.literal ≠ .plain := by decide
  have hplain : ¬ Script.ByteClass.plain ≠ .plain := by decide
  rw [thisRound]
  simp only [Option.bind_eq_bind, Bool.and_eq_true, decide_eq_true_eq]
  rcases step_code_cases_of_drop h with
    ⟨hline, hstep⟩ | ⟨hline, hblock, hend, hstep⟩
      | ⟨hline, hblock, ⟨hquote, hend, hstep⟩ | ⟨hquote, hstep⟩⟩
  · rw [if_pos hline, hstep, if_pos hcomment, runEnd_eq, h, length_takeWhile_line hline.1,
      Option.bind_some, Nat.add_right_comm]
    rfl
  · rw [if_neg hline, if_pos hblock, hstep, if_pos hcomment, hend, Lexer.pending?, Option.bind_some]
    cases Script.blockLength? t with
    | none => rfl
    | some n =>
        rw [Option.map_some, Option.elim_some, Nat.add_right_comm]
        rfl
  · rw [if_neg hline, if_neg hblock, if_pos hquote, hstep, if_pos hliteral, hend, Option.bind_some,
      Nat.add_right_comm]
    rfl
  · rw [if_neg hline, if_neg hblock, hquote, if_neg Bool.false_ne_true, hstep, if_neg hplain,
      isThisAt_of_drop h, Option.bind_some]
    split_ifs <;> rfl

/-- What is skipped is gone over in one go. -/
lemma thisFrom_skip (code : Text) (depth n i : ℕ) :
    thisFrom depth n (code.take i).getLast? (code.drop i)
      = thisFrom depth 0 (code.take (i + n)).getLast? (code.drop (i + n)) := by
  induction n generalizing i with
  | zero => rfl
  | succ n ih =>
      by_cases hi : i < code.length
      · obtain ⟨b, t, h⟩ := exists_drop_eq_cons hi
        have hrest := ih (i + 1)
        rw [getLast?_take_succ h, drop_of_drop h 0, List.drop_zero, Nat.add_right_comm,
          Nat.add_assoc] at hrest
        rw [h, thisFrom, hrest]
      · have hi := Nat.not_lt.1 hi
        rw [List.drop_eq_nil_of_le hi, List.drop_eq_nil_of_le (hi.trans (Nat.le_add_right _ _)),
          Script.thisFrom_nil, Script.thisFrom_nil]

lemma thisFrom_skip_of_drop (h : code.drop i = b :: t) (depth n : ℕ) :
    thisFrom depth n (some b) t
      = thisFrom depth 0 (code.take (i + 1 + n)).getLast? (code.drop (i + 1 + n)) := by
  rw [← thisFrom_skip, getLast?_take_succ h, drop_of_drop h 0, List.drop_zero]

/-- The search by position, from a position on. -/
lemma thisLoop_eq (code : Text) (i depth : ℕ) :
    thisLoop code i depth = some (thisFrom depth 0 (code.take i).getLast? (code.drop i)) := by
  induction i using upward code generalizing depth with
  | behind i hi =>
      rw [thisLoop, loop_of_length_le hi, List.drop_eq_nil_of_le hi, Script.thisFrom_nil]
  | step i b t h ih =>
      have hnext : ∀ depth n,
          thisLoop code (i + 1 + n) depth = some (thisFrom depth n (some b) t) := fun depth n => by
        rw [ih _ (by omega), thisFrom_skip_of_drop h]
      have hround := thisRound_of_drop h depth
      rw [h, Script.thisFrom_cons]
      split_ifs at hround ⊢
      · cases hpending : (Lexer.step b t.head? .code).1.pending? t with
        | none =>
            rw [hpending] at hround
            exact loop_of_done h hround
        | some n =>
            rw [hpending] at hround
            exact (loop_of_on h hround).trans (hnext depth n)
      · exact (loop_of_on h hround).trans (hnext (depth + 1) 0)
      · exact (loop_of_on h hround).trans (hnext (depth - 1) 0)
      · exact loop_of_done h hround
      · exact (loop_of_on h hround).trans (hnext depth 0)

/-- **The search by position is the search**: the loop ends, and no byte outside the script is asked
for. -/
theorem topLevelThis_eq (code : Text) : topLevelThis code = some (Script.topLevelThis code) :=
  thisLoop_eq code 0 0

end Indexed

end MiniProgram
