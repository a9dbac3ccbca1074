import MiniProgram.Proofs.Stylesheet.Classes
import MiniProgram.Proofs.Text.Blank

/-!
Comments in a stylesheet and the classes it names.

A comment ends the piece that it stands in. Of the head of a rule, everything up to its opening
brace and behind the last declaration or rule, only what stands behind the last comment is a
selector; the rest is kept as it stands, with the classes it names. Were the comments spaces, all of
the head would be the selector.

* `uncomment`, `marks_uncomment`: the stylesheet with a space for every comment.
* `heads`, `selectors_eq`: the heads of the rules, and the selectors of a stylesheet and of the same
  without comments.
* `classes_uncomment`: **when comments do not change the classes.** They do not exactly if no head
  names a class before its last comment, and a comment does not part an at-rule from the classes it
  holds.
* `exists_classes_uncomment_ne`: a class that is left out, and one that is taken from an at-rule.
-/

namespace MiniProgram

namespace Stylesheet

variable {s : Place} {t css : Text}

/-! ### Without comments -/

/-- What is left of a marked byte where every comment is a space. -/
def unmark : UInt8 × Mark → Option (UInt8 × Mark)
  | (_, .opens) => some (Byte.space, .text)
  | (_, .comment) => none
  | (_, .closes) => none
  | m => some m

/-- A stylesheet with a space in the place of every comment. -/
def uncomment (css : Text) : Text := ((marks css).filterMap unmark).map Prod.fst

/-- What a byte behind a comment stands in where the comment is a space. -/
def Place.bare : Place → Place
  | opening => outside
  | comment => outside
  | closing => outside
  | s => s

/-- The marks of a stylesheet, without those of comments. -/
def unmarkFrom (s : Place) (t : Text) : List (UInt8 × Mark) := (marksFrom s t).filterMap unmark

/-- A byte that opens no comment is marked whatever follows it. -/
lemma exists_step_outside (b : UInt8) :
    ∃ s mark, s.bare = s ∧ (b = Byte.slash → s = .outside) ∧ unmark (b, mark) = some (b, mark)
      ∧ ∀ next, (b = Byte.slash → next ≠ some Byte.star) →
        Place.outside.step b next = (s, mark) := by
  have hslash : ∀ next, (b = Byte.slash → next ≠ some Byte.star) →
      ¬ (decide (b = Byte.slash) && decide (next = some Byte.star)) = true := by
    intro next hnext
    simpa using hnext
  by_cases hquote : Byte.isQuote b = true
  · refine ⟨.literal b, .text, rfl, ?_, rfl, fun next hnext => ?_⟩
    · rintro rfl
      exact absurd hquote (by decide)
    · rw [Place.step, if_neg (hslash next hnext), if_pos hquote]
  by_cases hbrace : b = Byte.openBrace
  · exact ⟨.outside, .brace, rfl, fun _ => rfl, rfl, fun next hnext => by
      rw [Place.step, if_neg (hslash next hnext), if_neg hquote, if_pos hbrace]⟩
  by_cases hstop : (b = Byte.closeBrace || b = Byte.semicolon) = true
  · exact ⟨.outside, .stop, rfl, fun _ => rfl, rfl, fun next hnext => by
      rw [Place.step, if_neg (hslash next hnext), if_neg hquote, if_neg hbrace, if_pos hstop]⟩
  · exact ⟨.outside, .text, rfl, fun _ => rfl, rfl, fun next hnext => by
      rw [Place.step, if_neg (hslash next hnext), if_neg hquote, if_neg hbrace, if_neg hstop]⟩

/-- The byte that opens a comment becomes a space. -/
lemma unmarkFrom_opens (h : t.head? = some Byte.star) :
    unmarkFrom .outside (Byte.slash :: t) = (Byte.space, .text) :: unmarkFrom .opening t := by
  have hstep : Place.outside.step Byte.slash t.head? = (.opening, .opens) := by
    simp [Place.step, h]
  rw [unmarkFrom, marksFrom_cons, hstep]
  rfl

/-- A byte outside comments stays. -/
lemma unmarkFrom_cons {s s' : Place} {b : UInt8} {mark : Mark}
    (hstep : s.step b t.head? = (s', mark)) (hunmark : unmark (b, mark) = some (b, mark)) :
    unmarkFrom s (b :: t) = (b, mark) :: unmarkFrom s' t := by
  rw [unmarkFrom, marksFrom_cons, hstep, List.filterMap_cons_some hunmark]
  rfl

/-- No comment opens where there was none: a comment is replaced by a byte that is no star. -/
lemma head?_unmarkFrom (h : t.head? ≠ some Byte.star) :
    ((unmarkFrom .outside t).map Prod.fst).head? ≠ some Byte.star := by
  cases t with
  | nil => exact h
  | cons b t =>
      by_cases hopens : b = Byte.slash ∧ t.head? = some Byte.star
      · obtain ⟨rfl, hstar⟩ := hopens
        rw [unmarkFrom_opens hstar]
        exact of_decide_eq_true rfl
      · obtain ⟨s, mark, -, -, hunmark, hstep⟩ := exists_step_outside b
        rw [unmarkFrom_cons (hstep _ fun hb hstar => hopens ⟨hb, hstar⟩) hunmark]
        exact h

/-- The marks of what is left are those that are left. -/
lemma marksFrom_unmarkFrom (s : Place) (t : Text) :
    marksFrom s.bare ((unmarkFrom s t).map Prod.fst) = unmarkFrom s t := by
  induction t generalizing s with
  | nil => cases s <;> rfl
  | cons b t ih =>
      -- a byte that stays keeps its mark if what follows it in the end does not matter
      have hstays : ∀ {s s' : Place} {mark : Mark}, s.bare = s → s'.bare = s' →
          unmark (b, mark) = some (b, mark) → s.step b t.head? = (s', mark) →
          s.step b ((unmarkFrom s' t).map Prod.fst).head? = (s', mark) →
          marksFrom s.bare ((unmarkFrom s (b :: t)).map Prod.fst) = unmarkFrom s (b :: t) := by
        intro s s' mark hs hs' hunmark hstep hstep'
        have hrest := ih s'
        rw [hs'] at hrest
        rw [hs, unmarkFrom_cons hstep hunmark, List.map_cons, marksFrom_cons, hstep', hrest]
      cases s with
      | outside =>
          by_cases hopens : b = Byte.slash ∧ t.head? = some Byte.star
          · obtain ⟨rfl, hstar⟩ := hopens
            rw [unmarkFrom_opens hstar]
            exact congrArg ((Byte.space, Mark.text) :: ·) (ih .opening)
          · obtain ⟨s, mark, hbare, hslash, hunmark, hstep⟩ := exists_step_outside b
            have hnext : b = Byte.slash → t.head? ≠ some Byte.star :=
              fun hb hstar => hopens ⟨hb, hstar⟩
            refine hstays rfl hbare hunmark (hstep _ hnext) (hstep _ fun hb => ?_)
            rw [hslash hb]
            exact head?_unmarkFrom (hnext hb)
      | opening => exact ih .comment
      | comment =>
          rw [unmarkFrom, marksFrom_cons, Place.step]
          split_ifs
          · exact ih .closing
          · exact ih .comment
      | closing => exact ih .outside
      | literal q =>
          obtain ⟨s, hbare, hstep⟩ : ∃ s : Place, s.bare = s
              ∧ ∀ next, (Place.literal q).step b next = (s, .text) := by
            simp only [Place.step]
            split_ifs <;> exact ⟨_, rfl, fun _ => rfl⟩
          exact hstays rfl hbare rfl (hstep _) (hstep _)
      | escaped q => exact congrArg ((b, Mark.text) :: ·) (ih (.literal q))

/-- **Without comments** the rest of a stylesheet is marked as it was. -/
theorem marks_uncomment (css : Text) : marks (uncomment css) = (marks css).filterMap unmark :=
  marksFrom_unmarkFrom .outside css

example : uncomment ".a/* '.b' */'/*.c*/'" = ".a '/*.c*/'" := by decide

/-! ### Heads of rules -/

/-- The head of a rule, which stands between the last declaration or rule and the brace, with a
space in the place of every comment: what stands before its last comment, if it has one, and what
stands behind that. -/
structure Head where
  front : Option Text
  tail : Text
deriving DecidableEq

/-- The head as a whole. -/
def Head.text (h : Head) : Text :=
  match h.front with
  | none => h.tail
  | some t => t ++ Byte.space :: h.tail

/-- The heads that marked bytes make, given the current one. -/
def headsOf : Head → List (UInt8 × Mark) → List Head
  | _, [] => []
  | h, (_, .brace) :: marked => h :: headsOf ⟨none, []⟩ marked
  | _, (_, .stop) :: marked => headsOf ⟨none, []⟩ marked
  | h, (_, .opens) :: marked => headsOf ⟨some h.text, []⟩ marked
  | h, (_, .comment) :: marked => headsOf h marked
  | h, (_, .closes) :: marked => headsOf h marked
  | h, (b, .text) :: marked => headsOf ⟨h.front, h.tail ++ [b]⟩ marked

/-- The heads of the rules of a stylesheet. -/
def heads (css : Text) : List Head := headsOf ⟨none, []⟩ (marks css)

/-- The selector of a piece that is one. -/
def Piece.selector? : Piece → Option Text
  | selector t => some t
  | verbatim _ => none

/-- The selectors of a stylesheet. -/
def selectors (css : Text) : List Text := (pieces css).filterMap Piece.selector?

/-- What the current piece and the tail of the current head have in common: a comment belongs to the
piece alone, and so does what stands before it. -/
def Place.Gathers (chunk tail : Text) : Place → Prop
  | opening => tail = []
  | comment => tail = []
  | closing => tail = []
  | _ => tail = chunk.reverse

/-- The selectors are the tails of the heads. -/
lemma selectors_piecesOf {chunk : Text} {h : Head} (hs : s.Gathers chunk h.tail) :
    (piecesOf chunk (marksFrom s t)).filterMap Piece.selector?
      = (headsOf h (marksFrom s t)).map Head.tail := by
  induction t generalizing s chunk h with
  | nil => cases s <;> rfl
  | cons b t ih =>
      have htext : h.tail = chunk.reverse → h.tail ++ [b] = (b :: chunk).reverse := by
        rintro hchunk
        rw [hchunk, List.reverse_cons]
      rw [marksFrom_cons]
      cases s with
      | outside =>
          rw [Place.step]
          split_ifs
          · exact ih (s := .opening) (h := ⟨some h.text, []⟩) rfl
          · exact ih (htext hs)
          · exact congrArg₂ List.cons hs.symm (ih rfl)
          · exact ih rfl
          · exact ih (htext hs)
      | opening => exact ih (s := .comment) hs
      | comment =>
          rw [Place.step]
          split_ifs
          · exact ih (s := .closing) hs
          · exact ih (s := .comment) hs
      | closing => exact ih (s := .outside) hs
      | literal q =>
          rw [Place.step]
          split_ifs <;> exact ih (htext hs)
      | escaped q => exact ih (s := .literal q) (htext hs)

lemma Head.text_concat (h : Head) (b : UInt8) :
    (⟨h.front, h.tail ++ [b]⟩ : Head).text = h.text ++ [b] := by
  obtain ⟨front, tail⟩ := h
  cases front with
  | none => rfl
  | some t => simp [Head.text]

/-- Without comments every head is all tail. -/
lemma headsOf_unmark (h : Head) (marked : List (UInt8 × Mark)) :
    headsOf ⟨none, h.text⟩ (marked.filterMap unmark)
      = (headsOf h marked).map fun h => ⟨none, h.text⟩ := by
  induction marked generalizing h with
  | nil => rfl
  | cons m marked ih =>
      obtain ⟨b, mark⟩ := m
      cases mark with
      | text =>
          have hnext := ih ⟨h.front, h.tail ++ [b]⟩
          rw [Head.text_concat] at hnext
          exact hnext
      | opens => exact ih ⟨some h.text, []⟩
      | comment | closes => exact ih h
      | stop => exact ih ⟨none, []⟩
      | brace => exact congrArg (⟨none, h.text⟩ :: ·) (ih ⟨none, []⟩)

/-- **The selectors of a stylesheet**: the tails of the heads, and where every comment is a space
the heads as a whole. -/
theorem selectors_eq (css : Text) :
    selectors css = (heads css).map Head.tail
      ∧ selectors (uncomment css) = (heads css).map Head.text := by
  have hselectors : ∀ css, selectors css = (heads css).map Head.tail := by
    intro css
    rw [selectors, pieces_eq]
    exact selectors_piecesOf (s := .outside) rfl
  refine ⟨hselectors css, ?_⟩
  rw [hselectors, heads, marks_uncomment]
  rw [show (⟨none, []⟩ : Head) = ⟨none, (⟨none, []⟩ : Head).text⟩ from rfl, headsOf_unmark,
    List.map_map]
  rfl

/-! ### Classes of heads -/

/-- The classes that a selector names. -/
def selectorClasses (t : Text) : List Text := (Piece.selector t).classes

/-- The classes named in the head of a rule before its last comment. -/
def Head.named (h : Head) : List Text := h.front.elim [] (Search.found classPattern)

/-- A head whose classes comments do not change: where they count, none is named before the last
comment, and none behind it where only one of the head and its tail is an at-rule. -/
def Head.Whole (h : Head) : Prop :=
  ((Piece.selector h.text).isScoped = true → h.named = [])
  ∧ ((Piece.selector h.text).isScoped ≠ (Piece.selector h.tail).isScoped →
      Search.found classPattern h.tail = [])

instance (h : Head) : Decidable h.Whole := inferInstanceAs (Decidable (_ ∧ _))

/-- The classes named in the head of a rule, at-rule or not. -/
lemma Head.found_text (h : Head) :
    Search.found classPattern h.text = h.named ++ Search.found classPattern h.tail := by
  obtain ⟨front, tail⟩ := h
  cases front with
  | none => rfl
  | some t => exact stopsAt_classPattern.found_append_cons (by decide) t tail

/-- The classes of a head and of its tail are the same exactly if comments do not change them. -/
lemma Head.whole_iff (h : Head) : selectorClasses h.tail = selectorClasses h.text ↔ h.Whole := by
  have htext := h.found_text
  rw [selectorClasses, selectorClasses, Piece.classes, Piece.classes, Head.Whole]
  change (if _ then Search.found classPattern h.tail else [])
    = (if _ then Search.found classPattern h.text else []) ↔ _
  rw [htext]
  cases (Piece.selector h.text).isScoped <;> cases (Piece.selector h.tail).isScoped <;> simp

/-- What stands outside selectors names no class. -/
lemma classes_eq (css : Text) :
    classes css = ((selectors css).flatMap selectorClasses).eraseDups := by
  rw [classes, selectors]
  congr 1
  induction pieces css with
  | nil => rfl
  | cons p ps ih =>
      cases p with
      | selector t => exact congrArg (selectorClasses t ++ ·) ih
      | verbatim t => exact ih

lemma mem_classes_iff {name : Text} :
    name ∈ classes css ↔ ∃ t ∈ selectors css, name ∈ selectorClasses t := by
  rw [classes_eq, List.mem_eraseDups, List.mem_flatMap]

/-- Whether a selector is the head of an at-rule depends on what it begins with. -/
lemma isScoped_congr {t u : Text} (h : (Text.trim t).head? = (Text.trim u).head?) :
    (Piece.selector t).isScoped = (Piece.selector u).isScoped := by
  have hat : ∀ t : Text, Text.startsWith t "@" = (t.head? == ("@" : Text).head?) := by
    intro t
    cases t with
    | nil => rfl
    | cons b t => exact Bool.and_true _ |>.trans (Bool.beq_comm ..)
  rw [Piece.isScoped, Piece.isScoped, hat, hat, h]

/-- Blanks and comments in front of a selector change nothing. -/
lemma Head.whole_of_blank {h : Head} (hblank : ∀ t, h.front = some t → Text.trim t = []) :
    h.Whole := by
  obtain ⟨front, tail⟩ := h
  cases front with
  | none => exact ⟨fun _ => rfl, fun hne => absurd rfl hne⟩
  | some t =>
      have ht := hblank t rfl
      have hscoped : (Piece.selector (t ++ Byte.space :: tail)).isScoped
          = (Piece.selector tail).isScoped :=
        isScoped_congr (Text.head?_trim_append_cons (by decide) (by decide) ht tail)
      have hdot : Byte.dot ∉ t := fun hmem =>
        absurd (Text.isBlank_of_trim_eq_nil ht hmem (by decide)) (by decide)
      exact ⟨fun _ => found_eq_nil hdot, fun hne => absurd hscoped hne⟩

/-- **When comments do not change the classes.** A stylesheet names the classes of the tails of its
heads, and with a space for every comment those of the heads as a whole. Rule by rule they are the
same exactly if comments change no head, and then so is the map from classes to new names; in
particular if nothing but blanks and comments stands before the last comment of each head. -/
theorem classes_uncomment (css : Text) :
    (∀ name, name ∈ classes css ↔ ∃ h ∈ heads css, name ∈ selectorClasses h.tail)
    ∧ (∀ name, name ∈ classes (uncomment css)
        ↔ ∃ h ∈ heads css, name ∈ selectorClasses h.text)
    ∧ ((selectors css).map selectorClasses = (selectors (uncomment css)).map selectorClasses
        ↔ ∀ h ∈ heads css, h.Whole)
    ∧ ((∀ h ∈ heads css, h.Whole) →
        ∀ rename, classMap rename css = classMap rename (uncomment css))
    ∧ ∀ h ∈ heads css, (∀ t, h.front = some t → Text.trim t = []) → h.Whole := by
  obtain ⟨hselectors, huncomment⟩ := selectors_eq css
  have hrules : (selectors css).map selectorClasses
      = (selectors (uncomment css)).map selectorClasses ↔ ∀ h ∈ heads css, h.Whole := by
    rw [hselectors, huncomment, List.map_map, List.map_map, List.map_inj_left]
    exact forall₂_congr fun h _ => h.whole_iff
  refine ⟨fun name => ?_, fun name => ?_, hrules, fun hwhole rename => ?_,
    fun h _ => Head.whole_of_blank⟩
  · rw [mem_classes_iff, hselectors]
    simp only [List.mem_map, exists_exists_and_eq_and]
  · rw [mem_classes_iff, huncomment]
    simp only [List.mem_map, exists_exists_and_eq_and]
  · rw [classMap, classMap, classes_eq, classes_eq, List.flatMap_def, List.flatMap_def,
      hrules.2 hwhole]

/-- A comment in front of a selector. -/
theorem classes_uncomment_page :
    heads "/* .b */ .a\x7b\x7d" = [⟨some [], " .a"⟩]
    ∧ (∀ h ∈ heads "/* .b */ .a\x7b\x7d", h.Whole)
    ∧ ∀ rename, classMap rename "/* .b */ .a\x7b\x7d"
      = classMap rename (uncomment "/* .b */ .a\x7b\x7d") := by
  obtain ⟨-, -, -, hmap, hblank⟩ := classes_uncomment "/* .b */ .a\x7b\x7d"
  have hheads : heads "/* .b */ .a\x7b\x7d" = [⟨some [], " .a"⟩] := by decide +kernel
  have hwhole : ∀ h ∈ heads "/* .b */ .a\x7b\x7d", h.Whole := by
    intro h hh
    refine hblank h hh fun t ht => ?_
    rw [hheads, List.mem_singleton] at hh
    subst hh
    cases ht
    rfl
  exact ⟨hheads, hwhole, hmap hwhole⟩

/-- **Classes that a comment changes**: one in front of a comment is left out and keeps its name,
and one in the head of an at-rule that a comment parts from its name is renamed. -/
theorem exists_classes_uncomment_ne :
    classMap (fun name => name ++ "_x9") ".a/*x*/\x7b\x7d" = []
    ∧ classMap (fun name => name ++ "_x9") (uncomment ".a/*x*/\x7b\x7d")
      = ([("a", "a_x9")] : List (Text × Text))
    ∧ scope (fun name => name ++ "_x9") ".a/*x*/\x7b\x7d" = ".a/*x*/\x7b\x7d"
    ∧ classMap (fun name => name ++ "_x9") "@supports/*x*/ selector(.a)\x7b\x7d"
      = ([("a", "a_x9")] : List (Text × Text))
    ∧ classMap (fun name => name ++ "_x9") (uncomment "@supports/*x*/ selector(.a)\x7b\x7d")
      = [] := by
  decide +kernel

end Stylesheet

end MiniProgram
