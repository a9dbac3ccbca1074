import MiniProgram.Proofs.Script.Scan

/-!
Import lines, and what the scan finds in them.

An import line is a lead, a quoted specifier and the end of a statement and of a line. A quote right
before the end of its line opens no specifier, so that no reference begins inside the quotes; of a
specifier without quotes and newlines the scan finds the spelling. A line is read to its end, and
whatever its specifier holds, the next one begins anew.

* `pattern_sealed`: no reference begins before a quote that ends its line.
* `reads_importLines`: import lines are read outside comments, whatever they import.
* `readFrom_importLines`: each line gives the spelling of its specifier, and only as an import.
* `mem_readFrom_importLines`: a line gives the spelling of its specifier whatever stands in the
  other lines.
-/

namespace MiniProgram

namespace Script

open Text

/-! ### Quotes at the end of a line -/

/-- The first closing brace of a text is followed by `from` and a specifier. -/
def FromAfterBrace (t : Text) : Prop :=
  ∃ items v w o spec e rest, Byte.closeBrace ∉ items ∧ Blank v ∧ Blank w ∧ Byte.isQuote o = true
    ∧ Byte.isQuote e = true ∧ IsSpec spec
    ∧ t = items ++ Byte.closeBrace :: (v ++ (("from" : Text) ++ (w ++ o :: (spec ++ e :: rest))))

lemma not_fromAfterBrace_nil : ¬ FromAfterBrace [] := by
  rintro ⟨items, v, w, o, spec, e, rest, -, -, -, -, -, -, h⟩
  exact absurd h (by simp)

lemma quoteFree_from {v w : Text} (hv : Blank v) (hw : Blank w) :
    QuoteFree (v ++ (("from" : Text) ++ w)) :=
  (quoteFree_of_blank hv).append (QuoteFree.append (by unfold QuoteFree; decide)
    (quoteFree_of_blank hw))

/-- A reference has no quote before its specifier, unless it re-exports a list. -/
lemma ReferenceForm.Covers.quoteFree_or {form : ReferenceForm} {text : Text} {q : Quoted}
    (h : form.Covers text q) :
    (∃ lead o e close, QuoteFree lead ∧ Byte.isQuote o = true ∧ Byte.isQuote e = true
      ∧ IsSpec q.spec ∧ text = lead ++ o :: (q.spec ++ e :: close))
    ∨ ∀ rest, FromAfterBrace (text ++ rest) := by
  obtain ⟨clause, o, e, close, hclause, hspec, ho, he, -, rfl, -⟩ := h
  have hfree : QuoteFree clause → ∃ lead o' e' close', QuoteFree lead ∧ Byte.isQuote o' = true
      ∧ Byte.isQuote e' = true ∧ IsSpec q.spec
      ∧ form.keyword ++ (clause ++ o :: (q.spec ++ e :: close))
        = lead ++ o' :: (q.spec ++ e' :: close') := by
    intro hclause
    refine ⟨form.keyword ++ clause, o, e, close, QuoteFree.append ?_ hclause, ho, he, hspec,
      by simp⟩
    unfold QuoteFree
    cases form <;> decide
  -- only the names of a re-exported list may hold a quote
  cases form with
  | importing =>
      refine Or.inl (hfree fun b hb => ?_)
      have hbyte := hclause.bytes b hb
      rw [isClauseByte, Bool.not_eq_true', Bool.or_eq_false_iff] at hbyte
      exact hbyte.1
  | requiring => exact Or.inl (hfree (quoteFree_of_blank hclause))
  | exporting =>
      cases hclause with
      | all hu hv hw =>
          exact Or.inl (hfree ((quoteFree_of_blank hu).append (.cons (by rfl)
            (quoteFree_from hv hw))))
      | @named u v x name y w hu hv hx _ hname _ hy hw =>
          refine Or.inl (hfree ((quoteFree_of_blank hu).append (.cons (by rfl)
            ((quoteFree_of_blank hv).append (.append ?_ ((quoteFree_of_blank hx).append
              ((quoteFree_of_forall_isIdent hname).append (quoteFree_from hy hw))))))))
          unfold QuoteFree
          decide
      | @list u items v w hu hitems hv hw =>
          refine Or.inr fun rest => ⟨"export" ++ (u ++ Byte.openBrace :: items), v, w, o, q.spec, e,
            close ++ rest, ?_, hv, hw, ho, he, hspec, by simp [ReferenceForm.keyword]⟩
          have hblank : Byte.closeBrace ∉ u := fun hmem => absurd (hu _ hmem) (by decide)
          have hword : Byte.closeBrace ∉ ("export" : Text) := by decide
          have hopen : Byte.closeBrace ≠ Byte.openBrace := by decide
          simp [hblank, hitems, hword, hopen]

/-- A text whose first quote ends its line: no specifier is opened there. -/
lemma false_of_sealed {i lead spec y rest : Text} {o e : UInt8} (hi : QuoteFree i)
    (hlead : QuoteFree lead) (ho : Byte.isQuote o = true) (he : Byte.isQuote e = true)
    (hspec : IsSpec spec)
    (h : i ++ Byte.doubleQuote :: Byte.semicolon :: Byte.newline :: y
      = lead ++ o :: (spec ++ e :: rest)) : False := by
  have hi' : ∀ b ∈ i, (!Byte.isQuote b) = true := fun b hb => by rw [hi b hb]; rfl
  have hlead' : ∀ b ∈ lead, (!Byte.isQuote b) = true := fun b hb => by rw [hlead b hb]; rfl
  obtain ⟨-, htail⟩ := append_cons_inj hi' hlead' (by rfl) (by simp [ho]) h
  obtain ⟨-, htail⟩ := List.cons.inj htail
  -- the specifier would hold the newline or be ended by it
  obtain ⟨c, spec, rfl⟩ := List.exists_cons_of_ne_nil hspec.1
  obtain ⟨-, htail⟩ := List.cons.inj htail
  cases spec with
  | nil =>
      obtain ⟨rfl, -⟩ := List.cons.inj htail
      cases he
  | cons d spec =>
      obtain ⟨rfl, -⟩ := List.cons.inj htail
      exact absurd (hspec.2 Byte.newline (by simp)) (by decide)

lemma not_fromAfterBrace_append {i y : Text} (hi : Byte.closeBrace ∉ i) (hy : ¬ FromAfterBrace y) :
    ¬ FromAfterBrace (i ++ y) := by
  rintro ⟨items, v, w, o, spec, e, rest, hitems, hv, hw, ho, he, hspec, h⟩
  rcases List.append_eq_append_iff.1 h with ⟨items', rfl, hy'⟩ | ⟨i', rfl, hi'⟩
  · refine hy ⟨items', v, w, o, spec, e, rest, fun hmem => ?_, hv, hw, ho, he, hspec, hy'⟩
    exact hitems (List.mem_append_right i hmem)
  · cases i' with
    | nil => exact hy ⟨[], v, w, o, spec, e, rest, by simp, hv, hw, ho, he, hspec, hi'.symm⟩
    | cons b i' =>
        obtain ⟨rfl, -⟩ := List.cons.inj hi'
        exact hi (by simp)

lemma not_fromAfterBrace_sealed {i y : Text} (hi : QuoteFree i) (hy : ¬ FromAfterBrace y) :
    ¬ FromAfterBrace (i ++ Byte.doubleQuote :: Byte.semicolon :: Byte.newline :: y) := by
  by_cases hbrace : Byte.closeBrace ∈ i
  · -- the first brace stands before the quote, which opens no specifier
    obtain ⟨i₁, i₂, rfl, hfirst⟩ := List.eq_append_cons_of_mem hbrace
    rintro ⟨items, v, w, o, spec, e, rest, hitems, hv, hw, ho, he, hspec, h⟩
    rw [List.append_assoc, List.cons_append] at h
    obtain ⟨-, htail⟩ := append_cons_inj (forall_ne_of_not_mem hfirst)
      (forall_ne_of_not_mem hitems) (by rfl) (by rfl) h
    have hlead : i₂ ++ Byte.doubleQuote :: Byte.semicolon :: Byte.newline :: y
        = (v ++ (("from" : Text) ++ w)) ++ o :: (spec ++ e :: rest) := by
      rw [(List.cons.inj htail).2]
      simp
    exact false_of_sealed (fun b hb => hi b (by simp [hb])) (quoteFree_from hv hw) ho he hspec hlead
  · have hline : Byte.closeBrace ∉ i ++ [Byte.doubleQuote, Byte.semicolon, Byte.newline] := by
      rw [List.mem_append, not_or]
      exact ⟨hbrace, by decide⟩
    simpa using not_fromAfterBrace_append hline hy

/-- No reference begins before a quote that ends its line. -/
lemma pattern_sealed {form : ReferenceForm} {i y : Text} (hi : QuoteFree i)
    (hy : ¬ FromAfterBrace y) (before : Option UInt8) :
    form.pattern before (i ++ Byte.doubleQuote :: Byte.semicolon :: Byte.newline :: y) = none := by
  rw [Option.eq_none_iff_forall_ne_some]
  intro found hfound
  obtain ⟨-, text, rest, h, -, hcovers⟩ := pattern_eq_some.1 hfound
  rcases hcovers.quoteFree_or with ⟨lead, o, e, close, hlead, ho, he, hspec, rfl⟩ | hbrace
  · rw [List.append_assoc, List.cons_append, List.append_assoc, List.cons_append] at h
    exact false_of_sealed hi hlead ho he hspec h
  · exact not_fromAfterBrace_sealed hi hy (h ▸ hbrace rest)

/-! ### Leads -/

/-- A byte of the lead of an import line: a word byte other than the letter x, or a space. -/
def isLeadByte (b : UInt8) : Bool := (Byte.isWord b || b == Byte.space) && b != 120

/-- What stands before the specifier of an import line: the keyword and a clause. -/
structure ImportLead (lead : Text) : Prop where
  clause : ∃ clause, lead = ReferenceForm.importing.keyword ++ clause ∧ ImportClause clause
  bytes : ∀ b ∈ lead, isLeadByte b = true

lemma ImportLead.quoteFree {lead : Text} (h : ImportLead lead) : QuoteFree lead :=
  fun b hb => Byte.isQuote_eq_false rfl rfl (h.bytes b hb)

/-! ### One line -/

/-- The line that imports a specifier after a lead. -/
def leadLine (lead spec : Text) : Text := lead ++ Text.quote spec ++ ";\n"

variable {form : ReferenceForm} {before : Option UInt8} {lead spec masked t : Text}

lemma leadLine_eq (lead spec : Text) :
    leadLine lead spec = lead ++ Byte.doubleQuote ::
      (spelled spec ++ [Byte.doubleQuote, Byte.semicolon, Byte.newline]) := by
  have hend : (";\n" : Text) = [Byte.semicolon, Byte.newline] := rfl
  simp [leadLine, quote_eq, hend]

lemma getLast?_leadLine (lead spec : Text) :
    (leadLine lead spec).getLast? = some Byte.newline := by
  have hlast : leadLine lead spec = (lead ++ Byte.doubleQuote ::
      (spelled spec ++ [Byte.doubleQuote, Byte.semicolon])) ++ [Byte.newline] := by
    simp [leadLine_eq]
  rw [hlast, List.getLast?_concat]

/-- A specifier between quotes is spelled so that it may stand between quotes. -/
lemma isSpec_spelled (h : IsSpec spec) : IsSpec (spelled spec) := by
  refine ⟨spelled_ne_nil h.1, fun b hb => isInner_iff.2 ⟨?_, ?_⟩⟩
  · by_contra hquote
    rw [Bool.not_eq_false] at hquote
    exact absurd (quoteFree_of_isSpec h b (mem_of_mem_spelled hquote hb)) (by simp [hquote])
  · rintro rfl
    exact (spelling_spelled spec).newline_notMem hb

/-- An import line imports the spelling of its specifier. -/
lemma ImportLead.covers (hlead : ImportLead lead) (h : IsSpec spec) :
    ReferenceForm.importing.Covers
      (lead ++ Byte.doubleQuote :: (spelled spec ++ [Byte.doubleQuote]))
      ⟨lead.length + 1, spelled spec⟩ := by
  obtain ⟨⟨clause, rfl, hclause⟩, -⟩ := hlead
  exact ⟨clause, Byte.doubleQuote, Byte.doubleQuote, [], hclause, isSpec_spelled h, rfl, rfl, rfl,
    by simp, rfl⟩

/-- The spelling of a text is read inside double quotes, from the state of the literal back to
it. -/
lemma reads_of_spelling (h : Spelling t) :
    Lexer.Reads (.literal Byte.doubleQuote) t (.literal Byte.doubleQuote) := by
  induction h with
  | nil => exact .nil _
  | byte hbare rest ih =>
      obtain ⟨hline, hquote, hplain⟩ := isBare_iff.1 hbare
      exact .cons (fun next => by simp [Lexer.step, endsLiteral, hplain, hquote, hline]) ih
  | escape hline rest ih =>
      have hbackslash : ∀ next,
          ((Lexer.literal Byte.doubleQuote).step Byte.backslash next).1 = .escaped Byte.doubleQuote
          ∧ ((Lexer.literal Byte.doubleQuote).step Byte.backslash next).2 ≠ .comment := by
        intro next
        simp [Lexer.step]
      exact .cons hbackslash (.cons (fun next => by simp [Lexer.step]) ih)

/-- An import line is read outside comments. -/
lemma ImportLead.reads (hlead : ImportLead lead) (spec : Text) :
    Lexer.Reads .code (leadLine lead spec) .code := by
  have hcode : ∀ b ∈ lead, b ≠ Byte.slash ∧ opensLiteral b = false := by
    intro b hb
    have hback : b ≠ Byte.backquote := Byte.ne_of_class (hlead.bytes b hb) rfl
    exact ⟨Byte.ne_of_class (hlead.bytes b hb) rfl,
      by simp [opensLiteral, hlead.quoteFree b hb, hback]⟩
  have hend : Lexer.Reads .code [Byte.semicolon, Byte.newline] .code := .code (by decide)
  have hline : leadLine lead spec = lead ++ ((Byte.doubleQuote ::
      (spelled spec ++ [Byte.doubleQuote])) ++ [Byte.semicolon, Byte.newline]) := by
    simp [leadLine_eq]
  rw [hline]
  exact (Lexer.Reads.code hcode).append
    ((Lexer.Reads.quoted (by rfl) (reads_of_spelling (spelling_spelled spec))).append hend)

/-- No reference of another form begins in an import line. -/
lemma ImportLead.pattern (hlead : ImportLead lead) (h : IsSpec spec) (hform : form ≠ .importing)
    (hmasked : ¬ FromAfterBrace masked) {w : Text} (hw : w <:+ leadLine lead spec) (hne : w ≠ [])
    (before : Option UInt8) : form.pattern before (w ++ masked) = none := by
  have hhead : ∀ c ∈ [Byte.doubleQuote, Byte.semicolon, Byte.newline], c ∉ form.keyword.head? := by
    cases form <;> decide
  rw [leadLine_eq] at hw
  rcases suffix_append_cases hw with hw | ⟨lead', hlead', rfl⟩
  · rcases List.suffix_cons_iff.1 hw with rfl | hw
    · exact pattern_cons_eq_none (hhead _ (by decide)) _
    rcases suffix_append_cases hw with hw | ⟨i, hi, rfl⟩
    · obtain ⟨c, w, rfl⟩ := List.exists_cons_of_ne_nil hne
      exact pattern_cons_eq_none (hhead c (hw.subset List.mem_cons_self)) _
    · rw [List.append_assoc]
      have hfree := quoteFree_of_isSpec (isSpec_spelled h)
      exact pattern_sealed (fun b hb => hfree b (hi.subset hb)) hmasked before
  · -- the keyword would have to stand in the lead, which lacks one of its bytes
    refine pattern_eq_none_of_not_isPrefix fun hprefix => ?_
    rw [List.append_assoc, List.cons_append] at hprefix
    have hquote : Byte.doubleQuote ∉ form.keyword := by cases form <;> decide
    have hsub := (prefix_of_prefix_append_cons hprefix hquote).subset
    obtain ⟨b, hb, hlacks⟩ : ∃ b ∈ form.keyword, isLeadByte b = false := by
      cases form with
      | importing => exact absurd rfl hform
      | exporting => exact ⟨120, by decide, rfl⟩
      | requiring => exact ⟨Byte.openParen, by decide, rfl⟩
    exact Byte.ne_of_class (hlead.bytes b (hlead'.subset (hsub hb))) hlacks rfl

/-- One specifier is found in an import line, by its form. -/
lemma ImportLead.readFrom (hlead : ImportLead lead) (h : IsSpec spec)
    (hmasked : ¬ FromAfterBrace masked) :
    readFrom form.pattern none 0 (leadLine lead spec ++ masked) (leadLine lead spec ++ t)
      = (if form = .importing then [spelled spec] else [])
        ++ readFrom form.pattern none 0 masked t := by
  by_cases hform : form = .importing
  · subst hform
    have hline : ∀ u, leadLine lead spec ++ u
        = (lead ++ Byte.doubleQuote :: (spelled spec ++ [Byte.doubleQuote]))
          ++ ([Byte.semicolon, Byte.newline] ++ u) := by
      intro u
      simp [leadLine_eq]
    have hend : ∀ w, w <:+ [Byte.semicolon, Byte.newline] → w ≠ [] → ∀ before,
        ReferenceForm.importing.pattern before (w ++ masked) = none := by
      intro w hw hne before
      obtain ⟨c, w, rfl⟩ := List.exists_cons_of_ne_nil hne
      have hc : ∀ c ∈ [Byte.semicolon, Byte.newline],
          c ∉ ReferenceForm.importing.keyword.head? := by decide
      exact pattern_cons_eq_none (hc c (hw.subset List.mem_cons_self)) _
    rw [hline, hline, readFrom_covers (hlead.covers h) (by rfl), readFrom_pass hend, if_pos rfl]
    exact congrArg (spelled spec :: ·) (readFrom_congr (by rfl) masked t)
  · rw [readFrom_pass (fun w hw hne => hlead.pattern h hform hmasked hw hne), if_neg hform,
      List.nil_append, getLast?_leadLine]
    exact readFrom_congr (by rfl) masked t

lemma ImportLead.not_fromAfterBrace (hlead : ImportLead lead) (h : IsSpec spec)
    (hmasked : ¬ FromAfterBrace masked) : ¬ FromAfterBrace (leadLine lead spec ++ masked) := by
  have hline : leadLine lead spec ++ masked = (lead ++ [Byte.doubleQuote])
      ++ (spelled spec ++ Byte.doubleQuote :: Byte.semicolon :: Byte.newline :: masked) := by
    simp [leadLine_eq]
  have hbrace : Byte.closeBrace ∉ lead ++ [Byte.doubleQuote] := by
    rw [List.mem_append, not_or]
    exact ⟨fun hmem => Byte.ne_of_class (hlead.bytes _ hmem) rfl rfl, by decide⟩
  rw [hline]
  exact not_fromAfterBrace_append hbrace
    (not_fromAfterBrace_sealed (quoteFree_of_isSpec (isSpec_spelled h)) hmasked)

/-- An import is longer than no end of an import line: it would hold the end of the statement before
its specifier, or the end of the line in it. -/
lemma not_prefix_of_covers {text w : Text} {q : Quoted}
    (h : ReferenceForm.importing.Covers text q) (hw : w <:+ leadLine lead spec) (hne : w ≠ []) :
    ¬ w <+: text := by
  intro hprefix
  obtain ⟨clause, o, e, _, hclause, hspec, ho, he, rfl, rfl, -⟩ := h
  have hline : leadLine lead spec = (lead ++ Byte.doubleQuote :: (spelled spec
      ++ [Byte.doubleQuote])) ++ [Byte.semicolon, Byte.newline] := by
    simp [leadLine_eq]
  rw [hline] at hw
  have hsemicolon : Byte.semicolon ∉ ReferenceForm.importing.keyword ++ clause := by
    rw [List.mem_append, not_or]
    exact ⟨by decide, fun hmem => absurd (hclause.bytes _ hmem) (by decide)⟩
  have hnewline : Byte.newline ∉ o :: (q.spec ++ [e]) := by
    have hquote : ∀ {b : UInt8}, Byte.isQuote b = true → Byte.newline ≠ b := fun hb =>
      (Byte.ne_of_class hb rfl).symm
    simp only [List.mem_cons, List.mem_append, List.not_mem_nil, or_false, not_or]
    exact ⟨hquote ho, fun hmem => absurd (hspec.2 _ hmem) (by decide), hquote he⟩
  obtain ⟨rest, hrest⟩ := hprefix
  -- an end of the line is its newline alone or holds the semicolon and the newline
  have hends : w = [Byte.newline] ∨ ∃ w', w = w' ++ [Byte.semicolon, Byte.newline] := by
    rcases suffix_append_cases hw with hw | ⟨w', -, hw⟩
    · rcases List.suffix_cons_iff.1 hw with rfl | hw
      · exact Or.inr ⟨[], rfl⟩
      · have hnil : ¬ w <:+ [] := fun h => hne (List.suffix_nil.1 h)
        exact Or.inl ((List.suffix_cons_iff.1 hw).resolve_right hnil)
    · exact Or.inr ⟨w', hw⟩
  rcases hends with rfl | ⟨w', rfl⟩
  · exact absurd (List.cons.inj hrest).1 (by decide)
  · have hsplit : w' ++ (Byte.semicolon :: Byte.newline :: rest)
        = (ReferenceForm.importing.keyword ++ clause) ++ o :: (q.spec ++ [e]) := by
      simpa using hrest
    -- the semicolon stands before the specifier, or the newline stands in it
    rcases List.append_eq_append_iff.1 hsplit with ⟨a, ha, htail⟩ | ⟨a, -, htail⟩
    · cases a with
      | nil =>
          obtain ⟨hhead, -⟩ := List.cons.inj htail
          exact Byte.ne_of_class ho rfl hhead.symm
      | cons b a =>
          obtain ⟨rfl, -⟩ := List.cons.inj htail
          exact hsemicolon (ha ▸ by simp)
    · exact hnewline (htail ▸ by simp)

/-- An import that begins in an import line does not run on into what follows. -/
lemma pattern_leadLine_append {w : Text} (hw : w <:+ leadLine lead spec) (hne : w ≠ [])
    (before : Option UInt8) (masked : Text) :
    ReferenceForm.importing.pattern before (w ++ masked)
      = ReferenceForm.importing.pattern before w := by
  refine Option.ext fun ⟨n, q⟩ => ?_
  rw [pattern_eq_some, pattern_eq_some]
  refine and_congr_right fun _ => ⟨?_, ?_⟩
  · rintro ⟨text, rest, heq, hn, hcovers⟩
    rcases List.prefix_or_prefix_of_prefix (List.prefix_append w masked)
      (heq ▸ List.prefix_append text rest) with hlong | ⟨rest', rfl⟩
    · exact absurd hlong (not_prefix_of_covers hcovers hw hne)
    · exact ⟨text, rest', rfl, hn, hcovers⟩
  · rintro ⟨text, rest, rfl, hn, hcovers⟩
    exact ⟨text, rest ++ masked, by simp, hn, hcovers⟩

/-! ### Lines -/

/-- Lines that import specifiers, each after its lead. -/
def importLines (lines : List (Text × Text)) : Text :=
  lines.flatMap fun (lead, spec) => leadLine lead spec

variable {lines : List (Text × Text)}

/-- Import lines are read outside comments, whatever they import. -/
lemma reads_importLines (hleads : ∀ line ∈ lines, ImportLead line.1) :
    Lexer.Reads .code (importLines lines) .code := by
  induction lines with
  | nil => exact .nil _
  | cons line lines ih =>
      obtain ⟨hlead, hleads⟩ := List.forall_mem_cons.1 hleads
      exact (hlead.reads line.2).append (ih hleads)

lemma not_fromAfterBrace_importLines (hleads : ∀ line ∈ lines, ImportLead line.1)
    (h : ∀ line ∈ lines, IsSpec line.2) (hmasked : ¬ FromAfterBrace masked) :
    ¬ FromAfterBrace (importLines lines ++ masked) := by
  induction lines with
  | nil => exact hmasked
  | cons line lines ih =>
      obtain ⟨hlead, hleads⟩ := List.forall_mem_cons.1 hleads
      obtain ⟨hspec, h⟩ := List.forall_mem_cons.1 h
      rw [importLines, List.flatMap_cons, List.append_assoc]
      exact hlead.not_fromAfterBrace hspec (ih hleads h)

/-- Each import line gives its specifier, and only as an import. -/
lemma readFrom_importLines (hleads : ∀ line ∈ lines, ImportLead line.1)
    (h : ∀ line ∈ lines, IsSpec line.2) (hmasked : ¬ FromAfterBrace masked) :
    readFrom form.pattern none 0 (importLines lines ++ masked) (importLines lines ++ t)
      = (if form = .importing then lines.map fun line => spelled line.2 else [])
        ++ readFrom form.pattern none 0 masked t := by
  induction lines with
  | nil => simp [importLines]
  | cons line lines ih =>
      obtain ⟨hlead, hleads⟩ := List.forall_mem_cons.1 hleads
      obtain ⟨hspec, h⟩ := List.forall_mem_cons.1 h
      have hrest := not_fromAfterBrace_importLines hleads h hmasked
      have ih := ih hleads h
      rw [importLines] at hrest ih ⊢
      rw [List.flatMap_cons, List.append_assoc, List.append_assoc, hlead.readFrom hspec hrest, ih]
      split <;> simp

/-- A line gives the spelling of its specifier whatever stands in the other lines. -/
lemma mem_readFrom_importLines (hleads : ∀ line ∈ lines, ImportLead line.1)
    (hline : (lead, spec) ∈ lines) (h : IsSpec spec) :
    spelled spec ∈ readFrom ReferenceForm.importing.pattern none 0 (importLines lines)
      (importLines lines) := by
  induction lines with
  | nil => cases hline
  | cons line lines ih =>
      obtain ⟨hlead, hleads⟩ := List.forall_mem_cons.1 hleads
      have hsplit : importLines (line :: lines)
          = leadLine line.1 line.2 ++ importLines lines := List.flatMap_cons
      have hlocal : ∀ w, w <:+ leadLine line.1 line.2 → w ≠ [] → ∀ before,
          ReferenceForm.importing.pattern before (w ++ importLines lines)
            = ReferenceForm.importing.pattern before w :=
        fun w hw hne before => pattern_leadLine_append hw hne before _
      rw [hsplit, readFrom_append_of_local hlocal none 0 rfl, List.mem_append]
      rcases List.mem_cons.1 hline with rfl | hline
      · -- the line by itself
        have hread : readFrom ReferenceForm.importing.pattern none 0 (leadLine lead spec ++ [])
            (leadLine lead spec ++ []) = _ := hlead.readFrom h not_fromAfterBrace_nil
        rw [List.append_nil, if_pos rfl] at hread
        rw [hread]
        exact Or.inl (by simp)
      · refine Or.inr ?_
        have hcongr : ∀ masked t,
            readFrom ReferenceForm.importing.pattern (some Byte.newline) 0 masked t
              = readFrom ReferenceForm.importing.pattern none 0 masked t := readFrom_congr (by rfl)
        rw [Nat.zero_sub, getLast?_leadLine, Option.some_or, hcongr]
        exact ih hleads hline

end Script

end MiniProgram
