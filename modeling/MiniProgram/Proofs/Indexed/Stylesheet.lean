import MiniProgram.Proofs.Indexed.Markup
import MiniProgram.Proofs.Indexed.Script
import MiniProgram.Proofs.Stylesheet.Strings

/-!
Scoped classes, by position.

The classes of a stylesheet are renamed in one pass that remembers where the current piece began and
writes the piece when it comes to its end. A string only moves the position, a comment ends the
piece that it stands in; either may come to the last byte of the stylesheet without an end.

* `piecesFrom_literal`, `piecesFrom_comment`: the pieces over a string and over a comment.
* `classNames_eq`: the names in a selector.
* `scopeRound_of_drop`, `written`: what a round does, and what is written of the pieces.
* `scope_eq`: **renaming by position is renaming.**
* `scanners_in_range`: **every scanner ends, and reads within its text.**
-/

namespace MiniProgram

open Text

/-! ### Over a string and over a comment -/

namespace Stylesheet

variable {t : Text}

/-- A string goes to the current piece as a whole. -/
lemma piecesFrom_inString (quote : UInt8) (escaped : Bool) (chunk t : Text) :
    piecesFrom (inString quote escaped) chunk t
      = piecesFrom .outside ((t.take (Script.literalLength quote escaped t)).reverse ++ chunk)
        (t.drop (Script.literalLength quote escaped t)) := by
  have hcons : ∀ b (t : Text) n chunk, ((b :: t).take (n + 1)).reverse ++ chunk
      = (t.take n).reverse ++ b :: chunk := by simp
  fun_induction Script.literalLength quote escaped t generalizing chunk with
  | case1 escaped => cases escaped <;> rfl
  | case2 b t ih =>
      rw [hcons, List.drop_succ_cons, ← ih]
      rfl
  | case3 t ih =>
      rw [hcons, List.drop_succ_cons, ← ih]
      rfl
  | case4 b t hescape hend =>
      rw [inString, if_neg Bool.false_ne_true, piecesFrom, if_neg hescape, if_pos hend]
      rfl
  | case5 b t hescape hend ih =>
      rw [hcons, List.drop_succ_cons, ← ih, inString, if_neg Bool.false_ne_true, piecesFrom,
        if_neg hescape, if_neg hend]

lemma piecesFrom_literal (quote : UInt8) (chunk t : Text) :
    piecesFrom (.literal quote) chunk t
      = piecesFrom .outside ((t.take (Script.literalLength quote false t)).reverse ++ chunk)
        (t.drop (Script.literalLength quote false t)) :=
  piecesFrom_inString quote false chunk t

/-- A comment that is closed ends the piece that it stands in, and one that is not is its end. -/
lemma piecesFrom_comment (chunk t : Text) :
    piecesFrom .comment chunk t
      = ((cut? "*/" t).map fun (inside, _) => inside.length + 2).elim
        [.verbatim (chunk.reverse ++ t)] fun n =>
          .verbatim (chunk.reverse ++ t.take n) :: piecesFrom .outside [] (t.drop n) := by
  induction t generalizing chunk with
  | nil =>
      rw [piecesFrom, List.append_nil]
      rfl
  | cons b t ih =>
      rw [piecesFrom, Script.cut?_blockEnd]
      simp only [Bool.and_eq_true, decide_eq_true_eq]
      split_ifs with hend
      · obtain ⟨rest, rfl⟩ := List.head?_eq_some_iff.1 hend.2
        rw [piecesFrom]
        simp
      · rw [ih]
        cases cut? "*/" t <;> simp

end Stylesheet

namespace Indexed

open Stylesheet (Piece classPattern piecesFrom)

variable {css t chunk : Text} {b : UInt8} {i start : ℕ}

/-! ### Selectors -/

/-- The names of the classes in a selector, each read off the match of a class behind its dot. -/
def classNames (chunk : Text) : Option (List Text) :=
  if (Piece.selector chunk).isScoped then
    (Search.hits classPattern chunk).mapM fun hit => do
      let found ← slice? chunk hit.start (hit.start + hit.length)
      from? found 1
  else some []

lemma mapM_eq_some_map {α β : Type} {f : α → Option β} {g : α → β} {l : List α}
    (h : ∀ a ∈ l, f a = some (g a)) : l.mapM f = some (l.map g) := by
  induction l with
  | nil => rfl
  | cons a l ih =>
      rw [List.mapM_cons, h a List.mem_cons_self, ih fun c hc => h c (List.mem_cons_of_mem a hc)]
      rfl

/-- The names are those that the search finds. -/
lemma classNames_eq (chunk : Text) : classNames chunk = some (Piece.selector chunk).classes := by
  rw [classNames, Piece.classes]
  split_ifs
  · refine mapM_eq_some_map fun hit hhit => ?_
    obtain ⟨pre, u, rfl, hstart, hfound⟩ := Search.exists_split_of_mem_hitsFrom hhit
    obtain ⟨hlength, rest, rfl⟩ := Stylesheet.exists_of_classPattern hfound
    have hslice := slice?_of_drop (t := pre ++ Byte.dot :: (hit.found ++ rest)) (by simp)
      (List.drop_left : _ = (Byte.dot :: hit.found) ++ rest)
    rw [List.length_cons, ← hlength] at hslice
    rw [hstart, Nat.zero_add, hslice]
    rfl
  · rfl

/-! ### Scoping -/

/-- What the pass has come to: where the current piece began, what has been written of the pieces
before it, and the names that have been seen in them. -/
structure Scoping where
  start : ℕ
  out : Text
  names : List Text

/-- One round over a stylesheet: a piece that comes to its end is written with its classes renamed,
and the next one begins. -/
def scopeRound (rename : Text → Text) (css : Text) (i : ℕ) (b : UInt8) (s : Scoping) :
    Option (Next Scoping (Text × List Text)) := do
  if b = Byte.slash && css[i + 1]? = some Byte.star then
    let closed ← blockEnd css i
    let stop ← closed.or (back? css.length)
    let part ← slice? css s.start (stop + 1)
    return .on (stop + 1) ⟨stop + 1, s.out ++ part, s.names⟩
  else if Byte.isQuote b then
    let stop ← literalEnd css i
    return .on (stop + 1) s
  else if b = Byte.openBrace then
    let chunk ← slice? css s.start i
    let found ← classNames chunk
    return .on (i + 1)
      ⟨i + 1, s.out ++ (Piece.selector chunk).scope rename ++ [b], s.names ++ found⟩
  else if b = Byte.closeBrace || b = Byte.semicolon then
    let part ← slice? css s.start (i + 1)
    return .on (i + 1) ⟨i + 1, s.out ++ part, s.names⟩
  else return .on (i + 1) s

/-- What is left of a stylesheet behind its last piece is written as it stands. -/
def scopeLast (css : Text) (_ : ℕ) (s : Scoping) : Option (Text × List Text) :=
  if s.start < css.length then do
    let part ← from? css s.start
    return (s.out ++ part, s.names)
  else some (s.out, s.names)

/-- Goes over a stylesheet from a position on: what has been written in the end, and the names that
have been seen. -/
def scopeLoop (rename : Text → Text) (css : Text) (i : ℕ) (s : Scoping) :
    Option (Text × List Text) :=
  loop css (scopeRound rename css) (scopeLast css) i s

/-- A stylesheet with its classes renamed, and the map from the classes to their new names. -/
def scope (rename : Text → Text) (css : Text) : Option (Text × List (Text × Text)) := do
  let (out, names) ← scopeLoop rename css 0 ⟨0, [], []⟩
  return (out, names.eraseDups.map fun name => (name, rename name))

/-- How many bytes after its first slash a comment takes: one that is not closed takes all. -/
def commentLength (t : Text) : ℕ := (Script.blockLength? t).getD t.length

lemma commentLength_le (t : Text) : commentLength t ≤ t.length := by
  rw [commentLength]
  cases hclosed : Script.blockLength? t with
  | none => exact le_rfl
  | some n => exact blockLength?_le hclosed

/-- A comment that is not closed ends at the last byte. -/
lemma or_back?_of_drop (h : css.drop i = b :: t) :
    ((Script.blockLength? t).map (i + ·)).or (back? css.length) = some (i + commentLength t) := by
  rw [commentLength]
  cases Script.blockLength? t with
  | none =>
      rw [Option.map_none, Option.none_or, length_eq_of_drop h, back?_eq (by omega),
        Nat.add_right_comm, Nat.add_sub_cancel]
      rfl
  | some n => rfl

variable {rename : Text → Text} {out part : Text} {names : List Text} {ps : List Piece}

/-- A round in a piece of which the part `chunk` has been read. -/
lemma scopeRound_of_drop (h : css.drop i = b :: t) (hstart : start + chunk.length = i)
    (hchunk : css.drop start = chunk ++ b :: t) (rename : Text → Text) (out : Text)
    (names : List Text) :
    scopeRound rename css i b ⟨start, out, names⟩
      = some (if b = Byte.slash && t.head? = some Byte.star then
          .on (i + 1 + commentLength t) ⟨i + 1 + commentLength t,
            out ++ (chunk ++ b :: t.take (commentLength t)), names⟩
        else if Byte.isQuote b then
          .on (i + 1 + Script.literalLength b false t) ⟨start, out, names⟩
        else if b = Byte.openBrace then
          .on (i + 1) ⟨i + 1, out ++ (Piece.selector chunk).scope rename ++ [b],
            names ++ (Piece.selector chunk).classes⟩
        else if b = Byte.closeBrace || b = Byte.semicolon then
          .on (i + 1) ⟨i + 1, out ++ (chunk ++ [b]), names⟩
        else .on (i + 1) ⟨start, out, names⟩) := by
  have hlength := length_eq_of_drop h
  -- what is copied is the part that was read with what the round goes over
  have hslice : ∀ n ≤ t.length, slice? css start (i + 1 + n) = some (chunk ++ b :: t.take n) := by
    intro n hn
    have hpart : css.drop start = (chunk ++ b :: t.take n) ++ t.drop n := by
      rw [hchunk, List.append_assoc, List.cons_append, List.take_append_drop]
    have hsize : start + (chunk ++ b :: t.take n).length = i + 1 + n := by
      rw [List.length_append, List.length_cons, List.length_take_of_le hn]
      omega
    rw [← hsize, slice?_of_drop (by omega) hpart]
  have hselector : slice? css start i = some chunk := by
    rw [← hstart, slice?_of_drop (by omega) hchunk]
  rw [scopeRound, getElem?_succ_of_drop h]
  simp only [Option.bind_eq_bind]
  split_ifs with hcomment
  · rw [Bool.and_eq_true, decide_eq_true_eq, decide_eq_true_eq] at hcomment
    have ht : t ≠ [] := by
      rintro rfl
      exact absurd hcomment.2 (by simp)
    rw [blockEnd_of_drop h ht, Option.bind_some, or_back?_of_drop h, Option.bind_some,
      Nat.add_right_comm, hslice _ (commentLength_le t), Option.bind_some]
    rfl
  · rw [literalEnd_of_drop h, Option.bind_some, Nat.add_right_comm]
    rfl
  · rw [hselector, Option.bind_some, classNames_eq, Option.bind_some]
    rfl
  · have hread := hslice 0 (Nat.zero_le _)
    rw [Nat.add_zero] at hread
    rw [hread, Option.bind_some]
    rfl
  · rfl

/-! ### What is written -/

/-- What has been written, and the names that have been seen, once the loop has gone over further
pieces. -/
def written (rename : Text → Text) (out : Text) (names : List Text) (ps : List Piece) :
    Text × List Text :=
  (out ++ ps.flatMap (Piece.scope rename), names ++ ps.flatMap Piece.classes)

lemma written_verbatim :
    written rename out names (.verbatim part :: ps) = written rename (out ++ part) names ps := by
  simp [written, Piece.scope, Piece.classes, Piece.isScoped, Piece.text]

lemma written_selector :
    written rename out names (.selector chunk :: ps)
      = written rename (out ++ (Piece.selector chunk).scope rename)
        (names ++ (Piece.selector chunk).classes) ps := by
  simp [written]

/-- Nothing is written of a last piece that is empty. -/
lemma written_last : written rename out names [.verbatim []] = (out, names) := by
  rw [written_verbatim, List.append_nil]
  simp [written]

/-- A comment is written with the piece that it ends, up to the end of the stylesheet if need be. -/
lemma written_opening (ht : t ≠ []) :
    written rename out names (piecesFrom .opening chunk t)
      = written rename (out ++ (chunk.reverse ++ t.take (commentLength t))) names
        (piecesFrom .outside [] (t.drop (commentLength t))) := by
  obtain ⟨b, t, rfl⟩ := List.exists_cons_of_ne_nil ht
  rw [commentLength, piecesFrom, Stylesheet.piecesFrom_comment, Script.blockLength?, List.drop_one,
    List.tail_cons]
  cases cut? "*/" t with
  | none =>
      rw [Option.map_none, Option.map_none, Option.elim_none, Option.getD_none, List.take_length,
        List.drop_length, piecesFrom, List.reverse_nil, written_last, written_verbatim]
      simp [written]
  | some cut => simp [written_verbatim]

/-- The loop, from a position on; what stands between the beginning of the piece and the position is
the part of the piece that has been read. -/
lemma scopeLoop_eq (i : ℕ) (hi : i ≤ css.length) (hstart : start + chunk.length = i)
    (hchunk : css.drop start = chunk ++ css.drop i) (out : Text) (names : List Text) :
    scopeLoop rename css i ⟨start, out, names⟩
      = some (written rename out names (piecesFrom .outside chunk.reverse (css.drop i))) := by
  induction i using upward css generalizing start chunk out names with
  | behind i hle =>
      obtain rfl : i = css.length := le_antisymm hi hle
      rw [List.drop_length, List.append_nil] at hchunk
      rw [scopeLoop, loop_of_length_le le_rfl, scopeLast, List.drop_length, piecesFrom,
        List.reverse_reverse]
      dsimp only
      rw [from?_eq (by omega), hchunk]
      split_ifs with hlt
      · rw [written_verbatim]
        simp [written]
      · obtain rfl : chunk = [] := List.eq_nil_of_length_eq_zero (by omega)
        rw [written_last]
  | step i b t h ih =>
      have hlength := length_eq_of_drop h
      rw [h] at hchunk ⊢
      -- the loop goes on in the same piece, or begins a new one
      have hwithin : ∀ n ≤ t.length, scopeLoop rename css (i + 1 + n) ⟨start, out, names⟩
          = some (written rename out names
            (piecesFrom .outside ((t.take n).reverse ++ b :: chunk.reverse) (t.drop n))) := by
        intro n hn
        have hsize : start + (chunk ++ b :: t.take n).length = i + 1 + n := by
          rw [List.length_append, List.length_cons, List.length_take_of_le hn]
          omega
        have hpart : css.drop start = (chunk ++ b :: t.take n) ++ css.drop (i + 1 + n) := by
          rw [hchunk, drop_of_drop h, List.append_assoc, List.cons_append, List.take_append_drop]
        rw [ih (i + 1 + n) (by omega) (by omega) hsize hpart, drop_of_drop h]
        simp
      have hnew : ∀ n ≤ t.length, ∀ out names,
          scopeLoop rename css (i + 1 + n) ⟨i + 1 + n, out, names⟩
            = some (written rename out names (piecesFrom .outside [] (t.drop n))) := by
        intro n hn out names
        rw [ih (i + 1 + n) (by omega) (by omega) (Nat.add_zero _) (List.nil_append _).symm,
          drop_of_drop h]
        rfl
      have hround := scopeRound_of_drop h hstart hchunk rename out names
      rw [piecesFrom]
      split_ifs at hround ⊢ with hcomment
      · have ht : t ≠ [] := by
          rintro rfl
          simp at hcomment
        rw [written_opening ht, List.reverse_cons, List.reverse_reverse, List.append_assoc]
        exact (loop_of_on h hround).trans (hnew _ (commentLength_le t) _ _)
      · rw [Stylesheet.piecesFrom_literal]
        exact (loop_of_on h hround).trans (hwithin _ (literalLength_le b false t))
      · rw [List.reverse_reverse, written_selector, written_verbatim]
        exact (loop_of_on h hround).trans (hnew 0 (Nat.zero_le _) _ _)
      · rw [List.reverse_cons, List.reverse_reverse, written_verbatim]
        exact (loop_of_on h hround).trans (hnew 0 (Nat.zero_le _) _ _)
      · exact (loop_of_on h hround).trans (hwithin 0 (Nat.zero_le _))

/-- **Renaming by position is renaming**: the loop ends, and no byte or part outside the stylesheet
or outside a selector in it is asked for. -/
theorem scope_eq (rename : Text → Text) (css : Text) :
    scope rename css = some (Stylesheet.scope rename css, Stylesheet.classMap rename css) := by
  have hloop := @scopeLoop_eq css [] 0 rename 0 (Nat.zero_le _) rfl rfl [] []
  rw [scope, hloop]
  rfl

/-! ### The scanners -/

/-- **Every scanner ends, and reads within its text**, whatever the text: literals, comments and
tags may be left open in it, and a backslash may be its last byte. A literal ends at a position of
the text, at or behind the one that opens it. The scan of a tag ends no earlier than it starts, at a
`>` or at the end of the text. Of the scanners that go over the whole text none asks for a byte or
for a part that the text does not have, and each comes to the value that it has on lists. -/
theorem scanners_in_range (code : Text) (locals : Script.Locals) (rename : Text → Text) :
    (∀ i < code.length, ∃ j, literalEnd code i = some j ∧ Script.literalEnd? code i = some j
        ∧ i ≤ j ∧ j ≤ code.length - 1)
      ∧ (∀ i ≤ code.length, ∃ attrs stop, scanAttrs code i = some (attrs, stop)
        ∧ Script.scanAttrs (code.drop i) = (attrs, code.drop stop)
        ∧ i ≤ stop ∧ stop ≤ code.length
        ∧ (stop = code.length ∨ code[stop]? = some Byte.greater))
      ∧ maskComments code = some (Script.maskComments code)
      ∧ topLevelThis code = some (Script.topLevelThis code)
      ∧ jsxUsages locals code = some (Script.jsxUsages locals code)
      ∧ scope rename code = some (Stylesheet.scope rename code, Stylesheet.classMap rename code) :=
  ⟨fun _ h => literalEnd_spec h, fun _ h => scanAttrs_spec h, maskComments_eq code,
    topLevelThis_eq code, jsxUsages_eq locals code, scope_eq rename code⟩

/-- A comment, a tag in it and a string in the tag, none of which is closed, and a backslash at the
end. -/
def leftOpen : Text := "/*<a x='\\"

theorem scanners_in_range_leftOpen :
    literalEnd leftOpen 7 = some 8
      ∧ scanAttrs leftOpen 4 = some ([("x" : Text)], 9)
      ∧ maskComments leftOpen = some "         "
      ∧ topLevelThis leftOpen = some false
      ∧ jsxUsages [("a", "view")] leftOpen = some [⟨"view", ["x"]⟩]
      ∧ scope (fun name => name) leftOpen = some (leftOpen, []) := by
  obtain ⟨hliteral, htag, hmask, hthis, husages, hscope⟩ :=
    scanners_in_range leftOpen [("a", "view")] fun name => name
  obtain ⟨j, hj, hend, -⟩ := hliteral 7 (by decide)
  obtain ⟨attrs, stop, hscan, hspec, -, hle, hstop⟩ := htag 4 (by decide)
  refine ⟨?_, ?_, hmask.trans (by decide), hthis.trans (by decide), husages.trans (by decide),
    hscope.trans (by decide)⟩
  · obtain rfl : 8 = j := Option.some.inj (Eq.trans (by decide) hend)
    exact hj
  · have hvalue : Script.scanAttrs (leftOpen.drop 4) = ([("x" : Text)], []) := by decide
    obtain ⟨rfl, hrest⟩ := Prod.ext_iff.1 (hvalue.symm.trans hspec)
    have hlength : leftOpen.length = 9 := rfl
    have hbehind := List.drop_eq_nil_iff.1 hrest.symm
    obtain rfl : stop = 9 := le_antisymm (hlength ▸ hle) (hlength ▸ hbehind)
    exact hscan

end Indexed

end MiniProgram
