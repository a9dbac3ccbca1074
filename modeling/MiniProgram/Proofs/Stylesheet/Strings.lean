import MiniProgram.Proofs.Stylesheet.Classes

/-!
Strings in a stylesheet.

A string in quotes ends no piece, so it stands as a whole in one of them. If that is a selector, the
search for classes runs over the string like over the rest of it: a dot and a name in the value of
an attribute is taken for a class. Quotes have no part in a class, so what is found in a string and
what becomes of it depend on the string alone.

* `StringAt`: a string outside comments, with what stands before and behind it.
* `StringAt.exists_piece`: the piece that a string stands in.
* `scope_stringAt`: **what becomes of a string**. It is left alone, and names no class, exactly if
  it stands in no selector or holds no dot with a name behind it.
* `exists_stringAt_scope_ne`: a string that is changed.
-/

namespace MiniProgram

namespace Stylesheet

variable {front string rest body part : Text} {quote : UInt8} {escaped : Bool} {p : Piece}

/-! ### A string and the piece it stands in -/

/-- A string in quotes that stands in a stylesheet outside comments, with what stands before it and
what stands behind it. -/
structure StringAt (front string rest : Text) : Prop where
  outside : placeAt (front ++ (string ++ rest)) front.length = .outside
  opens : string.head?.any Byte.isQuote = true
  ends : (Script.literalEnd? (front ++ (string ++ rest)) front.length).map (· + 1)
    = some (front.length + string.length)

instance (front string rest : Text) : Decidable (StringAt front string rest) :=
  decidable_of_iff
    (placeAt (front ++ (string ++ rest)) front.length = .outside
      ∧ string.head?.any Byte.isQuote = true
      ∧ (Script.literalEnd? (front ++ (string ++ rest)) front.length).map (· + 1)
        = some (front.length + string.length))
    ⟨fun ⟨outside, opens, ends⟩ => ⟨outside, opens, ends⟩,
      fun h => ⟨h.outside, h.opens, h.ends⟩⟩

/-- What stands inside a string. -/
def inString (quote : UInt8) (escaped : Bool) : Place :=
  if escaped then .escaped quote else .literal quote

/-- A string takes its end with it. -/
lemma literalLength_cons_pos (quote : UInt8) (escaped : Bool) (b : UInt8) (t : Text) :
    0 < Script.literalLength quote escaped (b :: t) := by
  cases escaped with
  | true => rw [Script.literalLength]; exact Nat.succ_pos _
  | false => rw [Script.literalLength]; split_ifs <;> exact Nat.succ_pos _

/-- Inside a string everything up to its end is text, and only at the end of a stylesheet does a
string end otherwise than with its quote or its line. -/
lemma exists_marksFrom_inString
    (h : Script.literalLength quote escaped (body ++ rest) = body.length) :
    ∃ s, marksFrom (inString quote escaped) (body ++ rest)
        = body.map (·, Mark.text) ++ marksFrom s rest
      ∧ (rest = [] ∨ body.getLast?.any (Script.endsLiteral quote) = true) := by
  induction body generalizing escaped with
  | nil =>
      refine ⟨_, rfl, ?_⟩
      cases rest with
      | nil => exact .inl rfl
      | cons b rest => exact absurd h (literalLength_cons_pos quote escaped b rest).ne'
  | cons b body ih =>
      -- what the string goes on with when its byte `b` does not end it
      have hinside : ∀ escaped', Script.literalLength quote escaped' (body ++ rest) = body.length →
          (inString quote escaped).step b (body ++ rest).head? = (inString quote escaped', .text) →
          ∃ s, marksFrom (inString quote escaped) (b :: body ++ rest)
              = (b :: body).map (·, Mark.text) ++ marksFrom s rest
            ∧ (rest = [] ∨ (b :: body).getLast?.any (Script.endsLiteral quote) = true) := by
        intro escaped' hlength hstep
        obtain ⟨s, hmarks, hend⟩ := ih hlength
        refine ⟨s, ?_, hend.imp_right fun hend => ?_⟩
        · rw [List.cons_append, marksFrom_cons, hstep, hmarks]
          rfl
        · obtain ⟨e, he, hquote⟩ := (Option.any_eq_true _ _).1 hend
          rw [List.getLast?_cons, he]
          exact hquote
      rw [List.cons_append] at h
      cases escaped with
      | true =>
          rw [Script.literalLength, List.length_cons, Nat.succ_inj] at h
          exact hinside false h rfl
      | false =>
          rw [Script.literalLength, List.length_cons] at h
          split_ifs at h with hb hend
          · exact hinside true (Nat.succ_inj.1 h) (by simp [inString, Place.step, hb])
          · obtain rfl : body = [] := by simpa using h.symm
            refine ⟨.outside, ?_, .inr hend⟩
            simp [inString, marksFrom, Place.step, hb, hend]
          · exact hinside false (Nat.succ_inj.1 h) (by simp [inString, Place.step, hb, hend])

/-- Neither a quote nor the end of a line has a part in a class. -/
lemma isApart_of_isQuote {b : UInt8} (h : Byte.isQuote b = true) : isApart b = true := by
  rw [Byte.isQuote, Bool.or_eq_true, beq_iff_eq, beq_iff_eq] at h
  rcases h with rfl | rfl <;> decide

lemma isApart_of_endsLiteral {b : UInt8} (hquote : Byte.isQuote quote = true)
    (h : Script.endsLiteral quote b = true) : isApart b = true := by
  rw [Script.endsLiteral, Bool.or_eq_true, Bool.and_eq_true, beq_iff_eq, beq_iff_eq] at h
  rcases h with rfl | ⟨rfl, -⟩
  · exact isApart_of_isQuote hquote
  · decide

/-- Every byte of a string is text, and no class runs over either end of it. -/
lemma StringAt.exists_marks (h : StringAt front string rest) :
    ∃ marked s, marked.map Prod.fst = front
      ∧ marks (front ++ (string ++ rest))
        = marked ++ (string.map (·, Mark.text) ++ marksFrom s rest)
      ∧ string.head?.any isApart = true
      ∧ (rest = [] ∨ string.getLast?.any isApart = true) := by
  obtain ⟨quote, hhead, hquote⟩ := (Option.any_eq_true _ _).1 h.opens
  obtain ⟨body, rfl⟩ := List.head?_eq_some_iff.1 hhead
  have hlength : Script.literalLength quote false (body ++ rest) = body.length := by
    have hends := h.ends
    rw [Script.literalEnd?, List.drop_left, List.cons_append, Option.map_some, List.length_cons,
      Option.some_inj] at hends
    omega
  obtain ⟨s, hmarks, hlast⟩ := exists_marksFrom_inString hlength
  obtain ⟨marked, hmarked, happend⟩ :=
    exists_marksFrom_append .outside front (quote :: body ++ rest)
  have hstep : Place.outside.step quote (body ++ rest).head? = (inString quote false, .text) := by
    have hslash : quote ≠ Byte.slash := by
      rintro rfl
      exact absurd hquote (by decide)
    simp [Place.step, hslash, hquote, inString]
  have hplace : placeFrom .outside (front ++ (quote :: body ++ rest)) front.length = .outside :=
    h.outside
  refine ⟨marked, s, hmarked, ?_, isApart_of_isQuote hquote, hlast.imp_right fun hlast => ?_⟩
  · rw [marks, happend, hplace, List.cons_append, marksFrom_cons, hstep, hmarks]
    rfl
  · obtain ⟨e, he, hend⟩ := (Option.any_eq_true _ _).1 hlast
    rw [List.getLast?_cons, he]
    exact isApart_of_endsLiteral hquote hend

/-! ### Parts of a piece -/

/-- What becomes of a part of a piece. -/
def Piece.scopePart (rename : Text → Text) (p : Piece) (part : Text) : Text :=
  if p.isScoped then Search.replace classPattern (fun name => Byte.dot :: rename name) part
  else part

/-- The classes that a part of a piece names. -/
def Piece.classesOf (p : Piece) (part : Text) : List Text :=
  if p.isScoped then Search.found classPattern part else []

/-- **The piece that a string stands in**, as a whole. What becomes of it, and what it names,
depends on the string alone. -/
theorem StringAt.exists_piece (h : StringAt front string rest) :
    ∃ before p after lead tail, pieces (front ++ (string ++ rest)) = before ++ p :: after
      ∧ p.text = lead ++ (string ++ tail)
      ∧ before.flatMap Piece.text ++ lead = front
      ∧ tail ++ after.flatMap Piece.text = rest
      ∧ (∀ rename, p.scope rename
          = p.scopePart rename lead ++ (p.scopePart rename string ++ p.scopePart rename tail))
      ∧ p.classes = p.classesOf lead ++ (p.classesOf string ++ p.classesOf tail) := by
  obtain ⟨marked, s, hmarked, hmarks, hfirst, hlast⟩ := h.exists_marks
  obtain ⟨before, chunk, hpieces, hbefore⟩ :=
    exists_piecesOf_append [] marked (string.map (·, Mark.text) ++ marksFrom s rest)
  obtain ⟨p, tail, after, hp, htext⟩ :=
    exists_piecesOf_eq_cons (string.reverse ++ chunk) (marksFrom s rest)
  have hall : pieces (front ++ (string ++ rest)) = before ++ p :: after := by
    rw [pieces_eq, hmarks, hpieces, piecesOf_text, hp]
  have hfront : before.flatMap Piece.text ++ chunk.reverse = front := by
    rw [hbefore, hmarked, List.reverse_nil, List.nil_append]
  rw [List.reverse_append, List.reverse_reverse, List.append_assoc] at htext
  refine ⟨before, p, after, chunk.reverse, tail, hall, htext, hfront, ?_, ?_⟩
  · have hcss := flatMap_text_pieces (front ++ (string ++ rest))
    rw [hall, List.flatMap_append, List.flatMap_cons, htext, ← hfront] at hcss
    simpa only [List.append_assoc, List.append_cancel_left_eq] using hcss
  · by_cases hscoped : p.isScoped = true
    · have hend : string.getLast?.any isApart = true := by
        refine hlast.resolve_left ?_
        -- a string that is not closed ends the stylesheet, and so no selector
        rintro rfl
        cases hp
        exact absurd hscoped (by simp [Piece.isScoped])
      have hpart := fun f => stopsAt_classPattern.append_part hfirst hend f chunk.reverse tail
      simp only [Piece.scope, Piece.scopePart, Piece.classesOf, if_pos hscoped, htext,
        classes_eq_found hscoped]
      exact ⟨fun rename => (hpart _).2, (hpart (fun name => name)).1⟩
    · simp only [Piece.scope, Piece.scopePart, Piece.classes, Piece.classesOf, if_neg hscoped,
        htext, implies_true, List.append_nil, and_self]

/-! ### What becomes of a string -/

/-- A text in which nothing but classes is renamed stays as it is under every renaming exactly if it
names no class. -/
lemma forall_replace_eq_self_iff {t : Text} :
    (∀ rename : Text → Text,
        Search.replace classPattern (fun name => Byte.dot :: rename name) t = t)
      ↔ Search.found classPattern t = [] := by
  constructor
  · intro h
    -- a renaming that makes every name longer by a byte
    have hlength := length_replace_classPattern (f := fun name => name ++ [Byte.underscore])
      (k := 1) (fun name => by simp) t
    rw [h] at hlength
    simpa using hlength
  · intro h rename
    conv_rhs => rw [← replace_classPattern_self t]
    exact Search.replace_congr fun name hname => by simp [h] at hname

/-- **What becomes of a string**: it is left alone under every renaming exactly if it stands in no
selector or names no class there, and these are the classes that a stylesheet names on account of
it. -/
theorem scope_stringAt (h : StringAt front string rest) :
    ∃ before p after lead tail, pieces (front ++ (string ++ rest)) = before ++ p :: after
      ∧ p.text = lead ++ (string ++ tail)
      ∧ before.flatMap Piece.text ++ lead = front
      ∧ tail ++ after.flatMap Piece.text = rest
      ∧ (∀ rename, scope rename (front ++ (string ++ rest))
          = (before.flatMap (Piece.scope rename) ++ p.scopePart rename lead)
            ++ (p.scopePart rename string
              ++ (p.scopePart rename tail ++ after.flatMap (Piece.scope rename))))
      ∧ ((∀ rename, p.scopePart rename string = string)
          ↔ (p.isScoped = true → Search.found classPattern string = []))
      ∧ classes (front ++ (string ++ rest))
        = ((before.flatMap Piece.classes ++ p.classesOf lead)
          ++ (p.classesOf string
            ++ (p.classesOf tail ++ after.flatMap Piece.classes))).eraseDups
      ∧ (p.classesOf string = []
          ↔ (p.isScoped = true → Search.found classPattern string = [])) := by
  obtain ⟨before, p, after, lead, tail, hpieces, htext, hfront, hrest, hscope, hclasses⟩ :=
    h.exists_piece
  refine ⟨before, p, after, lead, tail, hpieces, htext, hfront, hrest, fun rename => ?_, ?_, ?_, ?_⟩
  · rw [scope, hpieces, List.flatMap_append, List.flatMap_cons, hscope]
    simp only [List.append_assoc]
  · by_cases hp : p.isScoped = true
    · simp only [Piece.scopePart, if_pos hp]
      rw [forall_replace_eq_self_iff, imp_iff_right hp]
    · simp [Piece.scopePart, hp]
  · rw [classes, hpieces, List.flatMap_append, List.flatMap_cons, hclasses]
    simp only [List.append_assoc]
  · by_cases hp : p.isScoped = true <;> simp [Piece.classesOf, hp]

/-- The value of an attribute without a dot in it. -/
theorem scope_stringAt_attribute :
    StringAt ".a[b=" "\"c\"" "]\x7b\x7d"
    ∧ ∃ before p after lead tail, pieces ".a[b=\"c\"]\x7b\x7d" = before ++ p :: after
      ∧ p.text = lead ++ (("\"c\"" : Text) ++ tail)
      ∧ (∀ rename, p.scopePart rename "\"c\"" = ("\"c\"" : Text))
      ∧ p.classesOf "\"c\"" = [] := by
  have h : StringAt ".a[b=" "\"c\"" "]\x7b\x7d" := by decide +kernel
  obtain ⟨before, p, after, lead, tail, hpieces, htext, -, -, -, hscope, -, hclasses⟩ :=
    scope_stringAt h
  have hfound : Search.found classPattern "\"c\"" = [] := by decide +kernel
  exact ⟨h, before, p, after, lead, tail, hpieces, htext, hscope.2 fun _ => hfound,
    hclasses.2 fun _ => hfound⟩

/-- **A string that is changed**: the name behind the dot in the value of an attribute is taken for
a class, renamed, and listed among the classes. -/
theorem exists_stringAt_scope_ne :
    StringAt "a[href$=" "\".png\"" "]\x7bcolor:red\x7d"
    ∧ scope (fun name => name ++ "_x9") "a[href$=\".png\"]\x7bcolor:red\x7d"
      = "a[href$=\".png_x9\"]\x7bcolor:red\x7d"
    ∧ ¬ ("\".png\"" : Text) <:+: scope (fun name => name ++ "_x9")
        "a[href$=\".png\"]\x7bcolor:red\x7d"
    ∧ classes "a[href$=\".png\"]\x7bcolor:red\x7d" = ["png"] := by
  decide +kernel

end Stylesheet

end MiniProgram
