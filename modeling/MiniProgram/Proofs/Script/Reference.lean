import MiniProgram.Proofs.Text.Quoted
import MiniProgram.Proofs.Text.Search
import MiniProgram.Script.Reference

/-!
The grammar of references.

A reference is written as a keyword and a clause, which its form prescribes, a specifier between two
quotes, and a close. The recognisers of the three forms find exactly what is written so.

* `quotedSpec?_eq_some`: a specifier between quotes.
* `ReferenceForm.Clause`, `ReferenceForm.Close`, `ReferenceForm.Covers`: the grammar.
* `pattern_eq_some`: a form is recognised exactly where a word may start and a text of the grammar
  stands.
-/

namespace MiniProgram

namespace Script

open Text

/-! ### Specifiers -/

/-- A text that may stand as a specifier between quotes. -/
def IsSpec (spec : Text) : Prop := spec ≠ [] ∧ ∀ b ∈ spec, isInner b = true

lemma isInner_of_isQuote {b : UInt8} (h : Byte.isQuote b = true) : isInner b = false := by
  simp [isInner, h]

lemma isSpace_of_isQuote {b : UInt8} (h : Byte.isQuote b = true) : Byte.isSpace b = false := by
  rcases Byte.eq_of_isQuote h with rfl | rfl <;> rfl

lemma isIdent_of_isQuote {b : UInt8} (h : Byte.isQuote b = true) : Byte.isIdent b = false := by
  rcases Byte.eq_of_isQuote h with rfl | rfl <;> rfl

lemma isIdent_of_isSpace {b : UInt8} (h : Byte.isSpace b = true) : Byte.isIdent b = false := by
  have hb : b = Byte.tab ∨ b = Byte.newline ∨ b = Byte.formFeed ∨ b = Byte.carriageReturn
      ∨ b = Byte.space := by simpa [Byte.isSpace, or_assoc] using h
  rcases hb with rfl | rfl | rfl | rfl | rfl <;> rfl

lemma isSpace_of_isIdent {b : UInt8} (h : Byte.isIdent b = true) : Byte.isSpace b = false := by
  by_contra hspace
  rw [Bool.not_eq_false] at hspace
  rw [isIdent_of_isSpace hspace] at h
  cases h

lemma isWord_of_isQuote {b : UInt8} (h : Byte.isQuote b = true) : Byte.isWord b = false := by
  rcases Byte.eq_of_isQuote h with rfl | rfl <;> rfl

lemma atWordEnd_blank_append {u : Text} (hu : Blank u) {b : UInt8} (hb : Byte.isWord b = false)
    (t : Text) : atWordEnd (u ++ b :: t) = true := by
  rw [atWordEnd_append_cons hb]
  cases u with
  | nil => rfl
  | cons c u =>
      have hc := isIdent_of_isSpace (hu c List.mem_cons_self)
      rw [Byte.isIdent, Bool.or_eq_false_iff] at hc
      simp [atWordEnd, hc.1]

/-- What a specifier between quotes looks like. -/
theorem quotedSpec?_eq_some {t spec rest : Text} :
    quotedSpec? t = some (spec, rest)
      ↔ IsSpec spec ∧ ∃ o e, Byte.isQuote o = true ∧ Byte.isQuote e = true
        ∧ t = o :: (spec ++ e :: rest) := by
  have hinner : (fun b => !(Byte.isQuote b || b == Byte.newline)) = isInner := rfl
  constructor
  · intro h
    cases t with
    | nil => cases h
    | cons o t =>
        simp only [quotedSpec?, hinner] at h
        split at h
        · rename_i ho
          split at h
          · rename_i e rest' hdrop
            split at h
            · rename_i hspec
              cases h
              rw [Bool.and_eq_true, decide_eq_true_eq] at hspec
              refine ⟨⟨hspec.1, fun b hb => List.mem_takeWhile_imp hb⟩, o, e, ho, hspec.2, ?_⟩
              rw [← hdrop, List.takeWhile_append_dropWhile]
            · cases h
          · cases h
        · cases h
  · rintro ⟨⟨hne, hspec⟩, o, e, ho, he, rfl⟩
    have hstop := isInner_of_isQuote he
    simp only [quotedSpec?, hinner]
    rw [if_pos ho, takeWhile_append_cons hspec hstop, dropWhile_append_cons hspec hstop]
    simp [hne, he]

/-- A text without straight quotes. -/
def QuoteFree (t : Text) : Prop := ∀ b ∈ t, Byte.isQuote b = false

lemma QuoteFree.append {t u : Text} (ht : QuoteFree t) (hu : QuoteFree u) : QuoteFree (t ++ u) := by
  intro b hb
  rcases List.mem_append.1 hb with hb | hb
  · exact ht b hb
  · exact hu b hb

lemma QuoteFree.cons {b : UInt8} {t : Text} (hb : Byte.isQuote b = false) (ht : QuoteFree t) :
    QuoteFree (b :: t) := List.forall_mem_cons.2 ⟨hb, ht⟩

lemma quoteFree_of_blank {t : Text} (h : Blank t) : QuoteFree t :=
  fun b hb => Byte.isQuote_eq_false rfl rfl (h b hb)

lemma quoteFree_of_forall_isIdent {t : Text} (h : ∀ b ∈ t, Byte.isIdent b = true) :
    QuoteFree t :=
  fun b hb => Byte.isQuote_eq_false rfl rfl (h b hb)

lemma quoteFree_of_isSpec {spec : Text} (h : IsSpec spec) : QuoteFree spec :=
  fun b hb => (isInner_iff.1 (h.2 b hb)).1

/-- A specifier in quotes stands at `t`, after a lead; up to its closing quote `n` bytes are
taken. -/
def SpecAt (lead t : Text) (n : Nat) (q : Quoted) : Prop :=
  IsSpec q.spec ∧ ∃ o e rest, Byte.isQuote o = true ∧ Byte.isQuote e = true
    ∧ t = o :: (q.spec ++ e :: rest) ∧ n = (lead ++ o :: (q.spec ++ [e])).length
    ∧ q.lead = lead.length + 1

lemma matchUpTo_eq_some {lead t : Text} {n : Nat} {q : Quoted} :
    matchUpTo (lead ++ t) t = some (n, q) ↔ SpecAt lead t n q := by
  rw [matchUpTo, Option.map_eq_some_iff]
  constructor
  · rintro ⟨⟨spec, rest⟩, hfound, h⟩
    obtain ⟨hspec, o, e, ho, he, rfl⟩ := quotedSpec?_eq_some.1 hfound
    cases h
    refine ⟨hspec, o, e, rest, ho, he, rfl, ?_, ?_⟩
    · simp only [List.length_append, List.length_cons, List.length_nil]
      omega
    · simp
  · rintro ⟨hspec, o, e, rest, ho, he, rfl, hn, hlead⟩
    refine ⟨(q.spec, rest), quotedSpec?_eq_some.2 ⟨hspec, o, e, ho, he, rfl⟩, ?_⟩
    obtain ⟨l, spec⟩ := q
    simp only [Prod.mk.injEq, Quoted.mk.injEq, and_true]
    subst hn hlead
    constructor
    · simp only [List.length_append, List.length_cons, List.length_nil]
      omega
    · simp

/-! ### The grammar -/

/-- A byte that may stand between `import` and the specifier. -/
def isClauseByte (b : UInt8) : Bool := !(Byte.isQuote b || b == Byte.semicolon)

/-- The text between `import` and the specifier. -/
structure ImportClause (clause : Text) : Prop where
  head : isImportHead clause = true
  wordEnd : atWordEnd clause = true
  bytes : ∀ b ∈ clause, isClauseByte b = true

/-- The text between `export` and the specifier. -/
inductive ExportClause : Text → Prop
  | all {u v w : Text} (hu : Blank u) (hv : Blank v) (hw : Blank w) :
      ExportClause (u ++ Byte.star :: (v ++ ("from" ++ w)))
  | named {u v x name y w : Text} (hu : Blank u) (hv : Blank v) (hx : Blank x) (hxne : x ≠ [])
      (hname : ∀ b ∈ name, Byte.isIdent b = true) (hnamene : name ≠ []) (hy : Blank y)
      (hw : Blank w) :
      ExportClause (u ++ Byte.star :: (v ++ ("as" ++ (x ++ (name ++ (y ++ ("from" ++ w)))))))
  | list {u items v w : Text} (hu : Blank u) (hitems : Byte.closeBrace ∉ items) (hv : Blank v)
      (hw : Blank w) :
      ExportClause (u ++ Byte.openBrace :: (items ++ Byte.closeBrace :: (v ++ ("from" ++ w))))

lemma ExportClause.wordEnd {clause : Text} (h : ExportClause clause) : atWordEnd clause = true := by
  cases h with
  | all hu => exact atWordEnd_blank_append hu (by rfl) _
  | named hu => exact atWordEnd_blank_append hu (by rfl) _
  | list hu => exact atWordEnd_blank_append hu (by rfl) _

namespace ReferenceForm

/-- What holds of every form is decided for the three of them. -/
instance decidableForall (P : ReferenceForm → Prop) [DecidablePred P] :
    Decidable (∀ form, P form) :=
  decidable_of_iff (P .importing ∧ P .exporting ∧ P .requiring)
    ⟨fun h form => by cases form; exacts [h.1, h.2.1, h.2.2], fun h => ⟨h _, h _, h _⟩⟩

/-- The word with which a form begins. -/
def keyword : ReferenceForm → Text
  | importing => "import"
  | exporting => "export"
  | requiring => "require("

/-- What stands between the word of a form and the specifier. -/
def Clause : ReferenceForm → Text → Prop
  | importing => ImportClause
  | exporting => ExportClause
  | requiring => Blank

/-- What follows the specifier. -/
def Close : ReferenceForm → Text → Prop
  | importing | exporting => (· = [])
  | requiring => fun close => ∃ ws, Blank ws ∧ close = ws ++ [Byte.closeParen]

/-- A reference of a form, with its specifier. -/
def Covers (form : ReferenceForm) (text : Text) (q : Quoted) : Prop :=
  ∃ clause o e close, form.Clause clause ∧ IsSpec q.spec ∧ Byte.isQuote o = true
    ∧ Byte.isQuote e = true ∧ form.Close close
    ∧ text = form.keyword ++ (clause ++ o :: (q.spec ++ e :: close))
    ∧ q.lead = (form.keyword ++ clause).length + 1

end ReferenceForm

/-! ### Recognition -/

variable {before : Option UInt8} {t : Text} {n : Nat} {q : Quoted}

/-- A form without a close is found where its keyword, a clause and a specifier stand. -/
lemma exists_covers_iff (form : ReferenceForm) (hclose : form.Close = (· = [])) :
    (∃ text rest, t = text ++ rest ∧ n = text.length ∧ form.Covers text q)
      ↔ ∃ clause tail, t = form.keyword ++ (clause ++ tail) ∧ form.Clause clause
        ∧ SpecAt (form.keyword ++ clause) tail n q := by
  constructor
  · rintro ⟨_, rest, rfl, rfl, clause, o, e, close, hclause, hspec, ho, he, hc, rfl, hlead⟩
    obtain rfl : close = [] := by rwa [hclose] at hc
    exact ⟨clause, o :: (q.spec ++ e :: rest), by simp, hclause, hspec, o, e, rest, ho, he, rfl,
      by simp, hlead⟩
  · rintro ⟨clause, _, rfl, hclause, hspec, o, e, rest, ho, he, rfl, hn, hlead⟩
    exact ⟨form.keyword ++ (clause ++ o :: (q.spec ++ [e])), rest, by simp, by simpa using hn,
      clause, o, e, [], hclause, hspec, ho, he, by rw [hclose], rfl, hlead⟩

lemma importPattern_eq_some :
    importPattern before t = some (n, q)
      ↔ atWordStart before = true ∧ ∃ clause tail, t = "import" ++ (clause ++ tail)
        ∧ ImportClause clause ∧ SpecAt ("import" ++ clause) tail n q := by
  have hdef : importPattern before t = (afterWord? "import" before t).bind fun clause =>
      if atWordEnd clause && isImportHead (clause.takeWhile isClauseByte) then
        matchUpTo t (clause.dropWhile isClauseByte)
      else none := rfl
  rw [hdef, Option.bind_eq_some_iff]
  constructor
  · rintro ⟨after, hafter, h⟩
    obtain ⟨hbefore, rfl⟩ := afterWord?_eq_some.1 hafter
    refine ⟨hbefore, after.takeWhile isClauseByte, after.dropWhile isClauseByte, ?_, ?_⟩
    · rw [List.takeWhile_append_dropWhile]
    · split at h
      · rename_i hhead
        rw [Bool.and_eq_true] at hhead
        have hsplit : ("import" : Text) ++ after
            = ("import" ++ after.takeWhile isClauseByte) ++ after.dropWhile isClauseByte := by
          rw [List.append_assoc, List.takeWhile_append_dropWhile]
        rw [hsplit, matchUpTo_eq_some] at h
        obtain ⟨-, o, e, rest, ho, -, htail, -, -⟩ := id h
        refine ⟨⟨hhead.2, ?_, fun b hb => List.mem_takeWhile_imp hb⟩, h⟩
        rw [← hhead.1, ← atWordEnd_append_cons (isWord_of_isQuote ho), ← htail,
          List.takeWhile_append_dropWhile]
      · cases h
  · rintro ⟨hbefore, clause, tail, rfl, ⟨hhead, hend, hbytes⟩, hspec⟩
    obtain ⟨-, o, e, rest, ho, -, rfl, -, -⟩ := id hspec
    -- the clause ends at the quote, which is no byte of it
    have hstop : isClauseByte o = false := by simp [isClauseByte, ho]
    refine ⟨_, afterWord?_eq_some.2 ⟨hbefore, rfl⟩, ?_⟩
    rw [takeWhile_append_cons hbytes hstop, dropWhile_append_cons hbytes hstop,
      atWordEnd_append_cons (isWord_of_isQuote ho), hend, hhead, if_pos (by rfl),
      ← List.append_assoc, matchUpTo_eq_some]
    exact hspec

lemma requirePattern_eq (before : Option UInt8) (t : Text) :
    requirePattern before t = (afterWord? "require(" before t).bind fun after =>
      (quotedSpec? (skipSpace after)).bind fun (spec, rest) =>
        match skipSpace rest with
        | Byte.closeParen :: rest =>
          some (t.length - rest.length, ⟨t.length - (skipSpace after).length + 1, spec⟩)
        | _ => none := rfl

lemma requirePattern_eq_some :
    requirePattern before t = some (n, q)
      ↔ atWordStart before = true ∧ ∃ text rest, t = text ++ rest ∧ n = text.length
        ∧ ReferenceForm.requiring.Covers text q := by
  rw [requirePattern_eq, Option.bind_eq_some_iff]
  constructor
  · rintro ⟨after, hafter, h⟩
    obtain ⟨hbefore, rfl⟩ := afterWord?_eq_some.1 hafter
    obtain ⟨⟨spec, tail⟩, hfound, h⟩ := Option.bind_eq_some_iff.1 h
    obtain ⟨hspec, o, e, ho, he, harg⟩ := quotedSpec?_eq_some.1 hfound
    obtain ⟨u, hu, hafter⟩ := exists_blank_append after
    obtain ⟨w, hw, htail⟩ := exists_blank_append tail
    rw [harg] at hafter h
    simp only at h
    split at h
    · rename_i rest hrest
      rw [hrest] at htail
      cases h
      refine ⟨hbefore, "require(" ++ (u ++ o :: (spec ++ e :: (w ++ [Byte.closeParen]))), rest, ?_,
        ?_, u, o, e, w ++ [Byte.closeParen], hu, hspec, ho, he, ⟨w, hw, rfl⟩, rfl, ?_⟩
      · simp [hafter, htail]
      · simp only [hafter, htail, List.length_append, List.length_cons, List.length_nil]
        omega
      · simp only [hafter, ReferenceForm.keyword, List.length_append, List.length_cons]
        omega
    · cases h
  · rintro ⟨hbefore, _, rest, rfl, rfl, u, o, e, _, hu, hspec, ho, he, ⟨w, hw, rfl⟩, rfl, hlead⟩
    refine ⟨u ++ o :: (q.spec ++ e :: (w ++ Byte.closeParen :: rest)),
      afterWord?_eq_some.2 ⟨hbefore, by simp [ReferenceForm.keyword]⟩, ?_⟩
    rw [skipSpace_append_cons hu (isSpace_of_isQuote ho),
      quotedSpec?_eq_some.2 ⟨hspec, o, e, ho, he, rfl⟩, Option.bind_some]
    simp only [skipSpace_append_cons hw (show Byte.isSpace Byte.closeParen = false from rfl)]
    obtain ⟨l, spec⟩ := q
    subst hlead
    refine congrArg some (Prod.ext ?_ (congrArg (Quoted.mk · spec) ?_)) <;>
      simp only [List.length_append, List.length_cons, List.length_nil] <;> omega

/-- A `from` and the specifier after it. -/
lemma afterFrom?_bind_eq_some {lead t : Text} :
    (afterFrom? t).bind (matchUpTo (lead ++ t)) = some (n, q)
      ↔ ∃ w tail, Blank w ∧ t = "from" ++ (w ++ tail)
        ∧ SpecAt (lead ++ ("from" ++ w)) tail n q := by
  rw [afterFrom?, Option.bind_eq_some_iff]
  constructor
  · rintro ⟨tail, htail, h⟩
    obtain ⟨after, hafter, rfl⟩ := Option.map_eq_some_iff.1 htail
    obtain ⟨w, hw, heq⟩ := exists_blank_append after
    obtain rfl := after?_eq_some.1 hafter
    have hsplit : lead ++ ("from" ++ after) = (lead ++ ("from" ++ w)) ++ skipSpace after := by
      rw [List.append_assoc, List.append_assoc, ← heq]
    rw [hsplit, matchUpTo_eq_some] at h
    exact ⟨w, skipSpace after, hw, by rw [← heq], h⟩
  · rintro ⟨w, tail, hw, rfl, h⟩
    obtain ⟨-, o, e, rest, ho, -, rfl, -, -⟩ := id h
    refine ⟨o :: (q.spec ++ e :: rest), ?_, ?_⟩
    · rw [after?_eq_some.2 rfl, Option.map_some, skipSpace_append_cons hw (isSpace_of_isQuote ho)]
    · rwa [← List.append_assoc _ w, ← List.append_assoc lead, matchUpTo_eq_some]

lemma skipSpace_append_from {y : Text} (hy : Blank y) (t : Text) :
    skipSpace (y ++ ("from" ++ t)) = "from" ++ t :=
  skipSpace_append_cons hy (by rfl) _

/-- White space or a quote ends a name. -/
lemma exists_not_isIdent {w : Text} {o : UInt8} (hw : Blank w) (ho : Byte.isQuote o = true)
    (rest : Text) : ∃ d r, w ++ o :: rest = d :: r ∧ Byte.isIdent d = false := by
  cases w with
  | nil => exact ⟨o, rest, rfl, isIdent_of_isQuote ho⟩
  | cons d w => exact ⟨d, w ++ o :: rest, rfl, isIdent_of_isSpace (hw d List.mem_cons_self)⟩

lemma namespaceExport?_eq (whole t : Text) :
    namespaceExport? whole t = (after? "as" t).bind fun spaced =>
      let named := skipSpace spaced
      let name := named.takeWhile Byte.isIdent
      let rest := skipSpace (named.dropWhile Byte.isIdent)
      if spaced.length = named.length || name = [] then none
      else ((afterFrom? rest).bind (matchUpTo whole)).or
        (if Text.endsWith name "from" && 4 < name.length then matchUpTo whole rest else none) := rfl

/-- After `as` and white space, all bytes that may stand in a name are taken for the name. -/
lemma namespaceExport?_append {x name : Text} {d : UInt8} (hx : Blank x) (hxne : x ≠ [])
    (hbytes : ∀ b ∈ name, Byte.isIdent b = true) (hne : name ≠ []) (hd : Byte.isIdent d = false)
    (whole rest : Text) :
    namespaceExport? whole ("as" ++ (x ++ (name ++ d :: rest)))
      = ((afterFrom? (skipSpace (d :: rest))).bind (matchUpTo whole)).or
        (if Text.endsWith name "from" && 4 < name.length then
          matchUpTo whole (skipSpace (d :: rest)) else none) := by
  have hskip : skipSpace (x ++ (name ++ d :: rest)) = name ++ d :: rest := by
    obtain ⟨c, name', rfl⟩ := List.exists_cons_of_ne_nil hne
    exact skipSpace_append_cons hx (isSpace_of_isIdent (hbytes c List.mem_cons_self)) _
  have hlength : (x ++ (name ++ d :: rest)).length ≠ (name ++ d :: rest).length := by
    have := List.length_pos_iff.2 hxne
    rw [List.length_append]
    omega
  rw [namespaceExport?_eq, after?_eq_some.2 rfl, Option.bind_some]
  simp only [hskip, hlength, decide_false, Bool.false_or]
  rw [takeWhile_append_cons hbytes hd, dropWhile_append_cons hbytes hd, if_neg (by simpa using hne)]

/-- What a re-export under a name is found by. -/
lemma exists_of_namespaceExport? {lead t : Text}
    (h : namespaceExport? (lead ++ t) t = some (n, q)) :
    ∃ x name y w tail : Text, (Blank x ∧ x ≠ [])
      ∧ ((∀ b ∈ name, Byte.isIdent b = true) ∧ name ≠ []) ∧ Blank y ∧ Blank w
      ∧ t = "as" ++ (x ++ (name ++ (y ++ ("from" ++ (w ++ tail)))))
      ∧ SpecAt (lead ++ ("as" ++ (x ++ (name ++ (y ++ ("from" ++ w)))))) tail n q := by
  rw [namespaceExport?_eq, Option.bind_eq_some_iff] at h
  obtain ⟨spaced, hspaced, h⟩ := h
  obtain rfl := after?_eq_some.1 hspaced
  simp only at h
  obtain ⟨x, hx, hsx⟩ := exists_blank_append spaced
  generalize skipSpace spaced = named at hsx h
  obtain ⟨y, hy, hny⟩ := exists_blank_append (named.dropWhile Byte.isIdent)
  generalize skipSpace (named.dropWhile Byte.isIdent) = rest at hny h
  have hnamed : named = named.takeWhile Byte.isIdent ++ (y ++ rest) := by
    rw [← hny, List.takeWhile_append_dropWhile]
  have hbytes : ∀ b ∈ named.takeWhile Byte.isIdent, Byte.isIdent b = true :=
    fun b hb => List.mem_takeWhile_imp hb
  generalize named.takeWhile Byte.isIdent = name at hnamed hbytes h
  split at h
  · cases h
  · rename_i hcond
    -- white space behind `as`, and a name
    rw [Bool.or_eq_true, decide_eq_true_eq, decide_eq_true_eq, not_or] at hcond
    have hxne : x ≠ [] := by
      rintro rfl
      exact hcond.1 (congrArg List.length hsx)
    have hwhole : lead ++ ("as" ++ spaced)
        = (lead ++ ("as" ++ (x ++ (name ++ y)))) ++ rest := by
      rw [hsx, hnamed]
      simp only [List.append_assoc]
    rw [hwhole] at h
    rcases Option.or_eq_some_iff.1 h with h | ⟨-, h⟩
    · obtain ⟨w, tail, hw, hrest, h⟩ := afterFrom?_bind_eq_some.1 h
      refine ⟨x, name, y, w, tail, ⟨hx, hxne⟩, ⟨hbytes, hcond.2⟩, hy, hw, ?_, ?_⟩
      · rw [hsx, hnamed, hrest]
      · simpa only [List.append_assoc] using h
    · -- the name runs up to `from` without a space between
      split at h
      · rename_i hfrom
        rw [Bool.and_eq_true, decide_eq_true_eq, endsWith_iff] at hfrom
        obtain ⟨⟨name', rfl⟩, hlong⟩ := hfrom
        rw [matchUpTo_eq_some] at h
        refine ⟨x, name', [], y, rest, ⟨hx, hxne⟩, ⟨fun b hb => ?_, ?_⟩, blank_nil, hy, ?_, ?_⟩
        · exact hbytes b (List.mem_append_left _ hb)
        · rintro rfl
          exact absurd hlong (by decide)
        · rw [hsx, hnamed]
          simp only [List.append_assoc, List.nil_append]
        · simpa only [List.append_assoc, List.nil_append] using h
      · cases h

/-- The name and the `from` of a re-export under a name. -/
lemma namespaceExport?_eq_some {lead t : Text} :
    namespaceExport? (lead ++ t) t = some (n, q)
      ↔ ∃ x name y w tail : Text, (Blank x ∧ x ≠ [])
        ∧ ((∀ b ∈ name, Byte.isIdent b = true) ∧ name ≠ []) ∧ Blank y ∧ Blank w
        ∧ t = "as" ++ (x ++ (name ++ (y ++ ("from" ++ (w ++ tail)))))
        ∧ SpecAt (lead ++ ("as" ++ (x ++ (name ++ (y ++ ("from" ++ w)))))) tail n q := by
  refine ⟨exists_of_namespaceExport?, ?_⟩
  rintro ⟨x, name, y, w, tail, ⟨hx, hxne⟩, ⟨hbytes, hne⟩, hy, hw, rfl, h⟩
  cases y with
  | nil =>
      -- the bytes of `from` count as part of the name
      obtain ⟨-, o, e, rest, ho, -, rfl, -, -⟩ := id h
      obtain ⟨d, r, hd, hident⟩ := exists_not_isIdent hw ho (q.spec ++ e :: rest)
      have hglued : ∀ b ∈ name ++ "from", Byte.isIdent b = true := by
        intro b hb
        rcases List.mem_append.1 hb with hb | hb
        · exact hbytes b hb
        · exact (by decide : ∀ b ∈ ("from" : Text), Byte.isIdent b = true) b hb
      have hrun : x ++ (name ++ ([] ++ (("from" : Text) ++ (w ++ o :: (q.spec ++ e :: rest)))))
          = x ++ ((name ++ ("from" : Text)) ++ d :: r) := by
        rw [hd]
        simp
      have hwhole : lead ++ (("as" : Text) ++ (x ++ ((name ++ ("from" : Text)) ++ d :: r)))
          = (lead ++ (("as" : Text) ++ (x ++ (name ++ ([] ++ (("from" : Text) ++ w))))))
            ++ o :: (q.spec ++ e :: rest) := by
        rw [← hd]
        simp
      have hskip : skipSpace (d :: r) = o :: (q.spec ++ e :: rest) := by
        rw [← hd, skipSpace_append_cons hw (isSpace_of_isQuote ho)]
      have hfrom : afterFrom? (o :: (q.spec ++ e :: rest)) = none := by
        rcases Byte.eq_of_isQuote ho with rfl | rfl <;> rfl
      have hlong : (Text.endsWith (name ++ "from") "from"
          && decide (4 < (name ++ ("from" : Text)).length)) = true := by
        have := List.length_pos_iff.2 hne
        rw [Bool.and_eq_true, decide_eq_true_eq, endsWith_iff, List.length_append]
        exact ⟨List.suffix_append _ _, Nat.lt_add_left_iff_pos.2 this⟩
      rw [hrun, namespaceExport?_append hx hxne hglued (by simp [hne]) hident, hskip, hfrom,
        Option.bind_none, Option.none_or, if_pos hlong, hwhole, matchUpTo_eq_some]
      exact h
  | cons c y =>
      have hc : Byte.isIdent c = false := isIdent_of_isSpace (hy c List.mem_cons_self)
      have hwhole : lead ++ ("as" ++ (x ++ (name ++ (c :: y ++ ("from" ++ (w ++ tail))))))
          = (lead ++ ("as" ++ (x ++ (name ++ (c :: y))))) ++ ("from" ++ (w ++ tail)) := by simp
      rw [hwhole, List.cons_append, namespaceExport?_append hx hxne hbytes hne hc,
        ← List.cons_append, skipSpace_append_from hy, Option.or_eq_some_iff]
      exact Or.inl (afterFrom?_bind_eq_some.2 ⟨w, tail, hw, rfl, by simpa using h⟩)

lemma exportPattern_eq (before : Option UInt8) (t : Text) :
    exportPattern before t = (afterWord? "export" before t).bind fun clause =>
      if atWordEnd clause then
        match skipSpace clause with
        | Byte.star :: rest =>
          (namespaceExport? t (skipSpace rest)).or
            ((afterFrom? (skipSpace rest)).bind (matchUpTo t))
        | Byte.openBrace :: rest =>
          match rest.dropWhile (· ≠ Byte.closeBrace) with
          | _ :: rest => (afterFrom? (skipSpace rest)).bind (matchUpTo t)
          | [] => none
        | _ => none
      else none := rfl

lemma exportPattern_star (hbefore : atWordStart before = true) {u : Text} (hu : Blank u)
    (rest : Text) :
    exportPattern before ("export" ++ (u ++ Byte.star :: rest))
      = (namespaceExport? ("export" ++ (u ++ Byte.star :: rest)) (skipSpace rest)).or
        ((afterFrom? (skipSpace rest)).bind
          (matchUpTo ("export" ++ (u ++ Byte.star :: rest)))) := by
  rw [exportPattern_eq, afterWord?_eq_some.2 ⟨hbefore, rfl⟩, Option.bind_some,
    if_pos (atWordEnd_blank_append hu (by rfl) _)]
  simp only [skipSpace_append_cons hu (show Byte.isSpace Byte.star = false from rfl)]
  rfl

lemma exportPattern_list (hbefore : atWordStart before = true) {u items : Text} (hu : Blank u)
    (hitems : Byte.closeBrace ∉ items) (rest : Text) :
    exportPattern before ("export" ++ (u ++ Byte.openBrace :: (items ++ Byte.closeBrace :: rest)))
      = (afterFrom? (skipSpace rest)).bind (matchUpTo
        ("export" ++ (u ++ Byte.openBrace :: (items ++ Byte.closeBrace :: rest)))) := by
  rw [exportPattern_eq, afterWord?_eq_some.2 ⟨hbefore, rfl⟩, Option.bind_some,
    if_pos (atWordEnd_blank_append hu (by rfl) _)]
  simp only [skipSpace_append_cons hu (show Byte.isSpace Byte.openBrace = false from rfl)]
  change (match (items ++ Byte.closeBrace :: rest).dropWhile (· ≠ Byte.closeBrace) with
    | _ :: rest => (afterFrom? (skipSpace rest)).bind _
    | [] => none) = _
  rw [dropWhile_append_cons (forall_ne_of_not_mem hitems) (by rfl)]

/-- What a re-export is found by. -/
lemma exists_of_exportPattern (h : exportPattern before t = some (n, q)) :
    atWordStart before = true ∧ ∃ clause tail, t = "export" ++ (clause ++ tail)
      ∧ ExportClause clause ∧ SpecAt ("export" ++ clause) tail n q := by
  rw [exportPattern_eq, Option.bind_eq_some_iff] at h
  obtain ⟨after, hafter, h⟩ := h
  obtain ⟨hbefore, rfl⟩ := afterWord?_eq_some.1 hafter
  refine ⟨hbefore, ?_⟩
  -- the clause begins with `*` or with a brace, behind white space
  obtain ⟨u, hu, hafter⟩ := exists_blank_append after
  split at h
  · split at h
    · rename_i rest hskip
      obtain ⟨v, hv, hrest⟩ := exists_blank_append rest
      rw [hskip, hrest] at hafter
      have hwhole : ("export" : Text) ++ after
          = ("export" ++ (u ++ Byte.star :: v)) ++ skipSpace rest := by
        rw [hafter]
        simp
      rw [hwhole] at h
      -- `* as name` is tried before `*` alone
      rcases Option.or_eq_some_iff.1 h with h | ⟨-, h⟩
      · obtain ⟨x, name, y, w, tail, ⟨hx, hxne⟩, ⟨hname, hne⟩, hy, hw, hrest, h⟩ :=
          namespaceExport?_eq_some.1 h
        refine ⟨_, tail, ?_, .named hu hv hx hxne hname hne hy hw, by simpa using h⟩
        rw [hafter, hrest]
        simp
      · obtain ⟨w, tail, hw, hrest, h⟩ := afterFrom?_bind_eq_some.1 h
        refine ⟨_, tail, ?_, .all hu hv hw, by simpa using h⟩
        rw [hafter, hrest]
        simp
    · rename_i rest hskip
      split at h
      · rename_i c rest' hdrop
        obtain ⟨items, hitems, hc, rfl⟩ := exists_run_of_dropWhile_eq_cons hdrop
        obtain rfl : c = Byte.closeBrace := by simpa using hc
        obtain ⟨v, hv, hrest⟩ := exists_blank_append rest'
        rw [hskip, hrest] at hafter
        have hwhole : ("export" : Text) ++ after
            = ("export" ++ (u ++ Byte.openBrace :: (items ++ Byte.closeBrace :: v)))
              ++ skipSpace rest' := by
          rw [hafter]
          simp
        rw [hwhole] at h
        obtain ⟨w, tail, hw, hrest, h⟩ := afterFrom?_bind_eq_some.1 h
        refine ⟨_, tail, ?_, .list hu (fun hmem => ?_) hv hw, by simpa using h⟩
        · rw [hafter, hrest]
          simp
        · simpa using hitems _ hmem
      · cases h
    · cases h
  · cases h

/-- The clause of a re-export. -/
lemma exportPattern_eq_some :
    exportPattern before t = some (n, q)
      ↔ atWordStart before = true ∧ ∃ clause tail, t = "export" ++ (clause ++ tail)
        ∧ ExportClause clause ∧ SpecAt ("export" ++ clause) tail n q := by
  refine ⟨exists_of_exportPattern, ?_⟩
  rintro ⟨hbefore, clause, tail, rfl, hclause, h⟩
  cases hclause with
  | @all u v w hu hv hw =>
      have hsplit : (u ++ Byte.star :: (v ++ ("from" ++ w))) ++ tail
          = u ++ Byte.star :: (v ++ ("from" ++ (w ++ tail))) := by simp
      have hwhole : ("export" : Text) ++ (u ++ Byte.star :: (v ++ ("from" ++ (w ++ tail))))
          = ("export" ++ (u ++ Byte.star :: v)) ++ ("from" ++ (w ++ tail)) := by simp
      rw [hsplit, exportPattern_star hbefore hu, skipSpace_append_from hv, hwhole,
        show namespaceExport? _ (("from" : Text) ++ (w ++ tail)) = none from rfl, Option.none_or,
        afterFrom?_bind_eq_some]
      exact ⟨w, tail, hw, rfl, by simpa using h⟩
  | @named u v x name y w hu hv hx hxne hname hne hy hw =>
      set rest := ("as" : Text) ++ (x ++ (name ++ (y ++ ("from" ++ (w ++ tail))))) with hrest
      have hsplit :
          (u ++ Byte.star :: (v ++ ("as" ++ (x ++ (name ++ (y ++ ("from" ++ w))))))) ++ tail
            = u ++ Byte.star :: (v ++ rest) := by simp [hrest]
      have hwhole : ("export" : Text) ++ (u ++ Byte.star :: (v ++ rest))
          = ("export" ++ (u ++ Byte.star :: v)) ++ rest := by simp
      have hskip : skipSpace (v ++ rest) = rest := skipSpace_append_cons hv (by rfl) _
      rw [hsplit, exportPattern_star hbefore hu, hskip, hwhole, Option.or_eq_some_iff]
      exact Or.inl (namespaceExport?_eq_some.2 ⟨x, name, y, w, tail, ⟨hx, hxne⟩, ⟨hname, hne⟩,
        hy, hw, hrest, by simpa using h⟩)
  | @list u items v w hu hitems hv hw =>
      have hsplit :
          (u ++ Byte.openBrace :: (items ++ Byte.closeBrace :: (v ++ ("from" ++ w)))) ++ tail
            = u ++ Byte.openBrace :: (items ++ Byte.closeBrace :: (v ++ ("from" ++ (w ++ tail))))
          := by simp
      have hwhole : ("export" : Text) ++ (u ++ Byte.openBrace :: (items ++ Byte.closeBrace ::
            (v ++ ("from" ++ (w ++ tail)))))
          = ("export" ++ (u ++ Byte.openBrace :: (items ++ Byte.closeBrace :: v)))
            ++ ("from" ++ (w ++ tail)) := by simp
      rw [hsplit, exportPattern_list hbefore hu hitems, skipSpace_append_from hv, hwhole,
        afterFrom?_bind_eq_some]
      exact ⟨w, tail, hw, rfl, by simpa using h⟩

/-- **Recognition.** A form is recognised exactly where a word may start and a reference of the form
stands. -/
theorem pattern_eq_some {form : ReferenceForm} :
    form.pattern before t = some (n, q)
      ↔ atWordStart before = true ∧ ∃ text rest, t = text ++ rest ∧ n = text.length
        ∧ form.Covers text q := by
  cases form with
  | importing =>
      exact importPattern_eq_some.trans (and_congr_right' (exists_covers_iff .importing rfl).symm)
  | exporting =>
      exact exportPattern_eq_some.trans (and_congr_right' (exists_covers_iff .exporting rfl).symm)
  | requiring => exact requirePattern_eq_some

end Script

end MiniProgram
