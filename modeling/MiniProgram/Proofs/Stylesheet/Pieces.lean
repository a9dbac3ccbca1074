import MiniProgram.Stylesheet.Classes
import MiniProgram.Proofs.Text.Pieces

/-!
The bytes of a stylesheet, marked.

A stylesheet is cut in one pass that knows what each byte stands in and gathers the current piece.
Here the two are taken apart: `marks` tells for each byte what it does to the piece it stands in,
and `piecesOf` gathers the pieces from the marked bytes. The marks of a text do not depend on where
it is cut, and the pieces do not depend on why a byte is marked as it is.

* `pieces_eq`: the pieces of a stylesheet, from its marks.
* `flatMap_text_pieces`: **nothing is lost**, the pieces make up the stylesheet.
* `exists_marksFrom_append`, `exists_piecesOf_append`: a stylesheet in two parts.
* `piecesOf_text`, `exists_piecesOf_eq_cons`: the piece that is being gathered.
-/

namespace MiniProgram

namespace Stylesheet

/-! ### Marks -/

/-- What a byte of a stylesheet does to the piece it stands in: it goes on with it, opens a comment
in it or stands in one, ends it with a comment or a declaration, or closes a selector. -/
inductive Mark where
  | text
  | opens
  | comment
  | closes
  | stop
  | brace
deriving DecidableEq, Repr

/-- One step over a byte, given the byte that follows: what the next byte stands in, and the mark of
the byte. -/
def Place.step (b : UInt8) (next : Option UInt8) : Place → Place × Mark
  | outside =>
    if b = Byte.slash && next = some Byte.star then (opening, .opens)
    else if Byte.isQuote b then (literal b, .text)
    else if b = Byte.openBrace then (outside, .brace)
    else if b = Byte.closeBrace || b = Byte.semicolon then (outside, .stop)
    else (outside, .text)
  | opening => (comment, .comment)
  | comment => (if b = Byte.star && next = some Byte.slash then closing else comment, .comment)
  | closing => (outside, .closes)
  | literal q =>
    if b = Byte.backslash then (escaped q, .text)
    else if Script.endsLiteral q b then (outside, .text)
    else (literal q, .text)
  | escaped q => (literal q, .text)

/-- The bytes of the rest of a stylesheet with the mark of each. -/
def marksFrom : Place → Text → List (UInt8 × Mark)
  | _, [] => []
  | s, b :: t =>
    let (s', mark) := s.step b t.head?
    (b, mark) :: marksFrom s' t

/-- The bytes of a stylesheet with the mark of each. -/
def marks (css : Text) : List (UInt8 × Mark) := marksFrom .outside css

/-- The pieces that marked bytes make, given the bytes of the current one, last first. -/
def piecesOf : (chunk : Text) → List (UInt8 × Mark) → List Piece
  | chunk, [] => [.verbatim chunk.reverse]
  | chunk, (b, .brace) :: marked =>
    .selector chunk.reverse :: .verbatim [b] :: piecesOf [] marked
  | chunk, (b, .stop) :: marked => .verbatim (b :: chunk).reverse :: piecesOf [] marked
  | chunk, (b, .closes) :: marked => .verbatim (b :: chunk).reverse :: piecesOf [] marked
  | chunk, (b, .text) :: marked => piecesOf (b :: chunk) marked
  | chunk, (b, .opens) :: marked => piecesOf (b :: chunk) marked
  | chunk, (b, .comment) :: marked => piecesOf (b :: chunk) marked

lemma piecesFrom_eq (s : Place) (chunk t : Text) :
    piecesFrom s chunk t = piecesOf chunk (marksFrom s t) := by
  induction t generalizing s chunk with
  | nil => cases s <;> rfl
  | cons b t ih =>
      cases s with
      | outside =>
          rw [piecesFrom, marksFrom, Place.step]
          split_ifs <;> simp only [piecesOf, ih]
      | opening => simp only [piecesFrom, marksFrom, Place.step, piecesOf, ih]
      | comment =>
          rw [piecesFrom, marksFrom, Place.step]
          split_ifs <;> simp only [piecesOf, ih]
      | closing => simp only [piecesFrom, marksFrom, Place.step, piecesOf, ih]
      | literal q =>
          rw [piecesFrom, marksFrom, Place.step]
          split_ifs <;> simp only [piecesOf, ih]
      | escaped q => simp only [piecesFrom, marksFrom, Place.step, piecesOf, ih]

/-- The pieces of a stylesheet are those its marks make. -/
theorem pieces_eq (css : Text) : pieces css = piecesOf [] (marks css) := piecesFrom_eq _ _ _

lemma marksFrom_cons (s : Place) (b : UInt8) (t : Text) :
    marksFrom s (b :: t) = (b, (s.step b t.head?).2) :: marksFrom (s.step b t.head?).1 t := rfl

@[simp] lemma map_fst_marksFrom (s : Place) (t : Text) : (marksFrom s t).map Prod.fst = t := by
  induction t generalizing s with
  | nil => rfl
  | cons b t ih => rw [marksFrom_cons, List.map_cons, ih]

/-! ### Nothing is lost -/

lemma flatMap_text_piecesOf (chunk : Text) (marked : List (UInt8 × Mark)) :
    (piecesOf chunk marked).flatMap Piece.text = chunk.reverse ++ marked.map Prod.fst := by
  induction marked generalizing chunk with
  | nil => rfl
  | cons m marked ih =>
      obtain ⟨b, mark⟩ := m
      cases mark <;> simp [piecesOf, Piece.text, ih]

/-- **Nothing is lost**: the pieces of a stylesheet make it up. -/
theorem flatMap_text_pieces (css : Text) : (pieces css).flatMap Piece.text = css := by
  rw [pieces_eq, flatMap_text_piecesOf, marks, map_fst_marksFrom, List.reverse_nil, List.nil_append]

/-! ### A stylesheet in two parts -/

/-- What the byte at a position of the rest of a stylesheet stands in. -/
def placeFrom : Place → Text → ℕ → Place
  | s, _, 0 => s
  | s, [], _ + 1 => s
  | s, b :: t, i + 1 => placeFrom (s.step b t.head?).1 t i

/-- What the byte at a position of a stylesheet stands in. -/
def placeAt (css : Text) (i : ℕ) : Place := placeFrom .outside css i

/-- A stylesheet is marked part by part. -/
lemma exists_marksFrom_append (s : Place) (t u : Text) :
    ∃ marked, marked.map Prod.fst = t
      ∧ marksFrom s (t ++ u) = marked ++ marksFrom (placeFrom s (t ++ u) t.length) u := by
  induction t generalizing s with
  | nil => exact ⟨[], rfl, by cases u <;> rfl⟩
  | cons b t ih =>
      obtain ⟨marked, hmarked, happend⟩ := ih (s.step b (t ++ u).head?).1
      refine ⟨(b, (s.step b (t ++ u).head?).2) :: marked, by rw [List.map_cons, hmarked], ?_⟩
      rw [List.cons_append, marksFrom_cons, happend]
      rfl

/-- Where marked bytes go on, the pieces before the current one are whole. -/
lemma exists_piecesOf_append (chunk : Text) (marked more : List (UInt8 × Mark)) :
    ∃ before chunk', piecesOf chunk (marked ++ more) = before ++ piecesOf chunk' more
      ∧ before.flatMap Piece.text ++ chunk'.reverse = chunk.reverse ++ marked.map Prod.fst := by
  induction marked generalizing chunk with
  | nil => exact ⟨[], chunk, rfl, by simp⟩
  | cons m marked ih =>
      obtain ⟨b, mark⟩ := m
      cases mark with
      | text | opens | comment =>
          obtain ⟨before, chunk', hpieces, htext⟩ := ih (b :: chunk)
          exact ⟨before, chunk', hpieces, by simpa using htext⟩
      | closes | stop =>
          obtain ⟨before, chunk', hpieces, htext⟩ := ih []
          refine ⟨.verbatim (b :: chunk).reverse :: before, chunk', ?_, ?_⟩
          · rw [List.cons_append, piecesOf, hpieces, List.cons_append]
          · simpa [Piece.text] using htext
      | brace =>
          obtain ⟨before, chunk', hpieces, htext⟩ := ih []
          refine ⟨.selector chunk.reverse :: .verbatim [b] :: before, chunk', ?_, ?_⟩
          · rw [List.cons_append, piecesOf, hpieces, List.cons_append, List.cons_append]
          · simpa [Piece.text] using htext

/-- Text is gathered into the current piece. -/
lemma piecesOf_text (chunk part : Text) (marked : List (UInt8 × Mark)) :
    piecesOf chunk (part.map (·, Mark.text) ++ marked)
      = piecesOf (part.reverse ++ chunk) marked := by
  induction part generalizing chunk with
  | nil => rfl
  | cons b part ih =>
      rw [List.map_cons, List.cons_append, piecesOf, ih, List.reverse_cons, List.append_assoc,
        List.singleton_append]

/-- The first piece begins with what was gathered. -/
lemma exists_piecesOf_eq_cons (chunk : Text) (marked : List (UInt8 × Mark)) :
    ∃ p tail after, piecesOf chunk marked = p :: after ∧ p.text = chunk.reverse ++ tail := by
  induction marked generalizing chunk with
  | nil => exact ⟨_, [], _, rfl, (List.append_nil _).symm⟩
  | cons m marked ih =>
      obtain ⟨b, mark⟩ := m
      cases mark with
      | text | opens | comment =>
          obtain ⟨p, tail, after, hpieces, htext⟩ := ih (b :: chunk)
          exact ⟨p, b :: tail, after, hpieces, by simpa using htext⟩
      | closes | stop => exact ⟨_, [b], _, rfl, by simp [Piece.text]⟩
      | brace => exact ⟨_, [], _, rfl, (List.append_nil _).symm⟩

end Stylesheet

end MiniProgram
