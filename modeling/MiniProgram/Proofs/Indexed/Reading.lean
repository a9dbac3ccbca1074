import Mathlib.Tactic
import MiniProgram.Proofs.Text.Pieces
import MiniProgram.Script.Lexer

/-!
Reading a text by position.

The scanners go over a text as over a list, of which there is always a rest. Here and in the modules
beside this one they are loops over positions: a round of a loop is given a position and the byte
there, asks for the part of the text between two positions, and says at which position to go on.
What it asks for may be missing, and nothing makes the loop come to an end. So a loop has a value
only if it ends and everything that is asked for stands in the text; that it has the value of the
scanner is what is shown of each.

* `from?`, `slice?`, `back?`: what may be asked for.
* `loop`: a loop over the positions of a text, by its rounds.
* `upward`: induction over the positions of a text, from its end.
* `runEnd_eq`, `literalEnd_of_drop`, `blockEnd_of_drop`: where a run, a literal and a comment end.
* `literalEnd_spec`: **a literal ends in the text**, at or behind the byte that opens it.
-/

namespace MiniProgram

namespace Indexed

open Text

/-! ### Parts of a text -/

/-- The text from a position on, which must not lie behind its end. -/
def from? (t : Text) (i : ℕ) : Option Text := if i ≤ t.length then some (t.drop i) else none

/-- The part of a text between two positions, which must be in order and not lie behind its end. -/
def slice? (t : Text) (i j : ℕ) : Option Text :=
  if i ≤ j ∧ j ≤ t.length then some ((t.drop i).take (j - i)) else none

/-- The position before another, which must not be the first. -/
def back? : ℕ → Option ℕ
  | 0 => none
  | i + 1 => some i

variable {code t : Text} {b : UInt8} {i n : ℕ}

lemma from?_eq (h : i ≤ t.length) : from? t i = some (t.drop i) := if_pos h

/-- Where a part stands, it may be asked for. -/
lemma slice?_of_drop {part rest : Text} (hi : i ≤ t.length) (h : t.drop i = part ++ rest) :
    slice? t i (i + part.length) = some part := by
  have hlength := congrArg List.length h
  rw [List.length_drop, List.length_append] at hlength
  rw [slice?, if_pos ⟨Nat.le_add_right i _, by omega⟩, Nat.add_sub_cancel_left, h, List.take_left]

lemma back?_eq (h : 0 < n) : back? n = some (n - 1) := by
  cases n with
  | zero => cases h
  | succ n => rfl

/-! ### Positions -/

/-- At a position before the end stands a byte. -/
lemma exists_drop_eq_cons (h : i < code.length) : ∃ b t, code.drop i = b :: t :=
  ⟨_, _, List.drop_eq_getElem_cons h⟩

lemma length_eq_of_drop (h : code.drop i = b :: t) : code.length = i + 1 + t.length := by
  have hlength := congrArg List.length h
  rw [List.length_drop, List.length_cons] at hlength
  omega

lemma getElem?_of_drop (h : code.drop i = b :: t) : code[i]? = some b := by
  rw [← List.head?_drop, h, List.head?_cons]

lemma drop_of_drop (h : code.drop i = b :: t) (n : ℕ) : code.drop (i + 1 + n) = t.drop n := by
  rw [← List.drop_drop, ← List.drop_drop, h, List.drop_one, List.tail_cons]

lemma getElem?_succ_of_drop (h : code.drop i = b :: t) : code[i + 1]? = t.head? := by
  rw [← List.head?_drop, ← Nat.add_zero (i + 1), drop_of_drop h, List.drop_zero]

/-- What holds behind the end of a text, and at each position before it if it holds at all further
ones, holds at every position. -/
@[elab_as_elim]
lemma upward {P : ℕ → Prop} (code : Text) (behind : ∀ i, code.length ≤ i → P i)
    (step : ∀ i b t, code.drop i = b :: t → (∀ j, i < j → P j) → P i) (i : ℕ) : P i := by
  induction hrest : code.length - i using Nat.strong_induction_on generalizing i with
  | _ rest ih =>
      by_cases hi : i < code.length
      · obtain ⟨b, t, h⟩ := exists_drop_eq_cons hi
        refine step i b t h fun j hj => ?_
        by_cases hj' : j < code.length
        · exact ih (code.length - j) (by omega) j rfl
        · exact behind j (Nat.not_lt.1 hj')
      · exact behind i (Nat.not_lt.1 hi)

/-! ### Loops -/

/-- What a loop does after a round: it goes on at a position with what it has gathered, or it is
done. -/
inductive Next (σ α : Type) where
  | on (i : ℕ) (s : σ)
  | done (a : α)

/-- Goes over a text from a position on, round by round, and makes its value of what it has gathered
when it comes behind the end. -/
def loop {σ α : Type} (code : Text) (round : ℕ → UInt8 → σ → Option (Next σ α))
    (last : ℕ → σ → Option α) (i : ℕ) (s : σ) : Option α :=
  if i < code.length then do
    let b ← code[i]?
    match ← round i b s with
    | .on j s => (by exact loop code round last : ℕ → σ → Option α) j s
    | .done a => some a
  else last i s
partial_fixpoint

section Loop

variable {σ α : Type} {round : ℕ → UInt8 → σ → Option (Next σ α)} {last : ℕ → σ → Option α}
  {j : ℕ} {s s' : σ} {a : α}

lemma loop_of_length_le (h : code.length ≤ i) : loop code round last i s = last i s := by
  rw [loop, if_neg (Nat.not_lt.2 h)]

lemma loop_of_on (h : code.drop i = b :: t) (hround : round i b s = some (.on j s')) :
    loop code round last i s = loop code round last j s' := by
  have hlength := length_eq_of_drop h
  rw [loop, if_pos (by omega), getElem?_of_drop h, Option.bind_eq_bind, Option.bind_some, hround]
  rfl

lemma loop_of_done (h : code.drop i = b :: t) (hround : round i b s = some (.done a)) :
    loop code round last i s = some a := by
  have hlength := length_eq_of_drop h
  rw [loop, if_pos (by omega), getElem?_of_drop h, Option.bind_eq_bind, Option.bind_some, hround]
  rfl

end Loop

/-! ### Runs -/

/-- One round over a run of bytes of a class. -/
def runRound (p : UInt8 → Bool) (j : ℕ) (b : UInt8) (_ : Unit) : Option (Next Unit ℕ) :=
  some (if p b then .on (j + 1) () else .done j)

/-- Where the run of bytes of a class ends that stands at a position. -/
def runEnd (p : UInt8 → Bool) (t : Text) (j : ℕ) : Option ℕ :=
  loop t (runRound p) (fun j _ => some j) j ()

lemma runEnd_eq (p : UInt8 → Bool) (code : Text) (j : ℕ) :
    runEnd p code j = some (j + ((code.drop j).takeWhile p).length) := by
  induction j using upward code with
  | behind j hj =>
      rw [runEnd, loop_of_length_le hj, List.drop_eq_nil_of_le hj]
      rfl
  | step j b t h ih =>
      rw [h]
      by_cases hb : p b = true
      · have hrest := ih (j + 1) (Nat.lt_succ_self j)
        rw [drop_of_drop h 0, List.drop_zero] at hrest
        rw [runEnd, loop_of_on h (congrArg some (if_pos hb)), List.takeWhile_cons_of_pos hb,
          List.length_cons, ← Nat.add_assoc, Nat.add_right_comm j]
        exact hrest
      · rw [runEnd, loop_of_done h (congrArg some (if_neg hb)), List.takeWhile_cons_of_neg hb]
        rfl

/-- What stands behind a run. -/
lemma drop_length_takeWhile (p : UInt8 → Bool) (t : Text) :
    t.drop (t.takeWhile p).length = t.dropWhile p := by
  induction t with
  | nil => rfl
  | cons b t ih =>
      by_cases hb : p b = true
      · rw [List.takeWhile_cons_of_pos hb, List.dropWhile_cons_of_pos hb, ← ih]
        rfl
      · rw [List.takeWhile_cons_of_neg hb, List.dropWhile_cons_of_neg hb]
        rfl

/-! ### Literals -/

/-- One round of the search for the end of a literal. -/
def literalRound (quote : UInt8) (j : ℕ) (b : UInt8) (_ : Unit) : Option (Next Unit ℕ) :=
  some (if b = Byte.backslash then .on (j + 2) ()
    else if Script.endsLiteral quote b then .done j
    else .on (j + 1) ())

/-- Where the literal ends whose search has come to a position: at the byte that ends it, or at the
last byte of the text. -/
def literalEndFrom (t : Text) (quote : UInt8) (j : ℕ) : Option ℕ :=
  loop t (literalRound quote) (fun _ _ => back? t.length) j ()

/-- Where the literal ends that the byte at a position opens. -/
def literalEnd (t : Text) (i : ℕ) : Option ℕ := do
  let quote ← t[i]?
  literalEndFrom t quote (i + 1)

/-- The search for the end, behind the byte `i`; a byte that a backslash takes with it has been
passed over. -/
lemma literalEndFrom_eq {quote : UInt8} {escaped : Bool} (hi : i < code.length)
    (h : code.drop (i + 1) = t) :
    literalEndFrom code quote (if escaped then i + 2 else i + 1)
      = some (i + Script.literalLength quote escaped t) := by
  fun_induction Script.literalLength quote escaped t generalizing i with
  | case1 escaped =>
      have hlength : code.length = i + 1 := by
        have hle := List.drop_eq_nil_iff.1 h
        omega
      have hbehind : code.length ≤ if escaped then i + 2 else i + 1 := by split_ifs <;> omega
      rw [literalEndFrom, loop_of_length_le hbehind, back?_eq (by omega), hlength]
      rfl
  | case2 b t ih =>
      have hlength := length_eq_of_drop h
      have hrest := ih (by omega) (drop_of_drop h 0)
      simp only [Bool.false_eq_true, if_false] at hrest
      rw [if_pos rfl, hrest, Nat.add_right_comm, Nat.add_assoc]
  | case3 t ih =>
      have hlength := length_eq_of_drop h
      have hrest := ih (by omega) (drop_of_drop h 0)
      rw [if_neg Bool.false_ne_true, literalEndFrom, loop_of_on h (congrArg some (if_pos rfl))]
      exact hrest.trans (by rw [Nat.add_right_comm, Nat.add_assoc])
  | case4 b t hescape hend =>
      have hround : literalRound quote (i + 1) b () = some (.done (i + 1)) := by
        rw [literalRound, if_neg hescape, if_pos hend]
      rw [if_neg Bool.false_ne_true, literalEndFrom, loop_of_done h hround]
  | case5 b t hescape hend ih =>
      have hlength := length_eq_of_drop h
      have hrest := ih (by omega) (drop_of_drop h 0)
      have hround : literalRound quote (i + 1) b () = some (.on (i + 2) ()) := by
        rw [literalRound, if_neg hescape, if_neg hend]
      rw [if_neg Bool.false_ne_true, literalEndFrom, loop_of_on h hround]
      exact hrest.trans (by rw [Nat.add_right_comm, Nat.add_assoc])

lemma literalEnd_of_drop (h : code.drop i = b :: t) :
    literalEnd code i = some (i + Script.literalLength b false t) := by
  have hlength := length_eq_of_drop h
  rw [literalEnd, getElem?_of_drop h]
  exact @literalEndFrom_eq code t i b false (by omega) (drop_of_drop h 0)

/-- A literal that is not closed goes to the end of its text and no further. -/
lemma literalLength_le (quote : UInt8) (escaped : Bool) (t : Text) :
    Script.literalLength quote escaped t ≤ t.length := by
  fun_induction Script.literalLength quote escaped t with
  | case1 => exact le_rfl
  | case2 b t ih => exact Nat.succ_le_succ ih
  | case3 t ih => exact Nat.succ_le_succ ih
  | case4 b t hescape hend => exact Nat.succ_le_succ (Nat.zero_le _)
  | case5 b t hescape hend ih => exact Nat.succ_le_succ ih

/-- **A literal ends in the text**, at or behind the byte that opens it. -/
theorem literalEnd_spec (h : i < code.length) :
    ∃ j, literalEnd code i = some j ∧ Script.literalEnd? code i = some j
      ∧ i ≤ j ∧ j ≤ code.length - 1 := by
  obtain ⟨b, t, hdrop⟩ := exists_drop_eq_cons h
  have hlength := length_eq_of_drop hdrop
  have hle := literalLength_le b false t
  refine ⟨_, literalEnd_of_drop hdrop, ?_, Nat.le_add_right _ _, by omega⟩
  rw [Script.literalEnd?, hdrop]

/-! ### Block comments -/

/-- A block comment that is closed ends in the text. -/
lemma blockLength?_le (h : Script.blockLength? t = some n) : n ≤ t.length := by
  obtain ⟨⟨inside, behind⟩, hcut, rfl⟩ := Option.map_eq_some_iff.1 h
  have hlength := congrArg List.length (append_of_cut? hcut)
  have hmark : ("*/" : Text).length = 2 := rfl
  rw [List.length_drop, List.length_append, List.length_append, hmark] at hlength
  dsimp only
  omega

/-- Where the block comment ends that the byte at a position opens, if it is closed. -/
def blockEnd (t : Text) (i : ℕ) : Option (Option ℕ) := do
  let rest ← from? t (i + 2)
  return (cut? "*/" rest).map fun (inside, _) => i + inside.length + 3

lemma blockEnd_of_drop (h : code.drop i = b :: t) (ht : t ≠ []) :
    blockEnd code i = some ((Script.blockLength? t).map (i + ·)) := by
  have hlength := length_eq_of_drop h
  have hpos := List.length_pos_of_ne_nil ht
  rw [blockEnd, from?_eq (by omega), drop_of_drop h 1, Script.blockLength?, Option.map_map]
  rfl

end Indexed

end MiniProgram
