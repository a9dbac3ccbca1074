import MiniProgram.Proofs.Script.Replacement

/-!
Parts of a reference that may be exchanged.

The clause of an import may hold almost anything between the keyword and `from`, and so may an
export list. A part that begins with a word and ends in white space, and that neither is nor
completes a piece of the grammar, stands in a clause as well as any other such part. Exchanging one
for the other keeps every reference, unless the part stands in a specifier.

* `Inert`: what is asked of a part.
* `exportClause_cases`: a clause of a re-export is a list or a star with what belongs to it.
* `Inert.clause_iff`: a clause around an inert part does not depend on the part.
* `Inert.in_clause_or_spec`: an inert part of a reference lies in its clause or in its specifier.
* `Inert.pattern_cases`: a reference that an inert part lies in holds it in its clause or in its
  specifier.
* `Inert.pattern_exchange`: what is recognised at a place in front of an inert part.
* `Replacement.forall₂_inert`: **references stay when an inert part is exchanged.**
-/

namespace MiniProgram

namespace Script

open Text

/-! ### Inert parts -/

lemma isWord_of_isSpace {b : UInt8} (h : Byte.isSpace b = true) : Byte.isWord b = false := by
  have hident := isIdent_of_isSpace h
  rw [Byte.isIdent, Bool.or_eq_false_iff] at hident
  exact hident.1

/-- A byte that a re-export of everything may have outside its name. -/
def isStarByte (b : UInt8) : Bool := Byte.isSpace b || b ∈ ("*asfrom" : Text)

/-- No reference begins in a part, whatever stands before it. -/
def NoneBegins (part y : Text) : Prop :=
  ∀ (form : ReferenceForm) before w, w <:+ part → w ≠ [] → form.pattern before (w ++ y) = none

/-- A part that is no piece of the grammar of references: it cannot lie in a keyword, in the close
of a reference or in a re-export of everything, it ends no clause, and no reference begins in it. -/
structure Inert (p : Text) : Prop where
  clauseBytes : ∀ b ∈ p, isClauseByte b = true
  braces : Byte.openBrace ∉ p ∧ Byte.closeBrace ∉ p
  head : ∃ b, p.head? = some b ∧ Byte.isWord b = true
  tail : ∃ (g : Text) (d c : UInt8) (ws : Text), p = g ++ d :: (ws ++ [c]) ∧ Byte.isSpace d = false
    ∧ d ≠ 109 ∧ Blank ws ∧ Byte.isSpace c = true
  words : ∃ (g : Text) (b : UInt8) (v : Text) (c : UInt8) (w : Text) (b' : UInt8) (z : Text),
    p = g ++ b :: (v ++ c :: (w ++ b' :: z)) ∧ isStarByte b = false ∧ Byte.isSpace c = true
      ∧ isStarByte b' = false
  keyword : ∀ form : ReferenceForm, ∀ k ∈ form.keyword.tail.tails, k ≠ [] → ¬ k.take 2 <+: p
  inside : ∀ y, NoneBegins p y

/-- A byte of a text in two parts lies in one of them. -/
lemma byte_cases {l r x y : Text} {b : UInt8} (h : l ++ r = x ++ b :: y) :
    (∃ y', l = x ++ b :: y' ∧ y = y' ++ r) ∨ ∃ x', x = l ++ x' ∧ r = x' ++ b :: y := by
  rcases List.append_eq_append_iff.1 h with ⟨x', rfl, hr⟩ | ⟨y', rfl, hy⟩
  · exact Or.inr ⟨x', rfl, hr⟩
  · cases y' with
    | nil => exact Or.inr ⟨[], by simp, hy.symm⟩
    | cons c y' =>
        obtain ⟨rfl, hy'⟩ := List.cons.inj hy
        exact Or.inl ⟨y', rfl, hy'⟩

/-- A part without a byte lies on one side of it. -/
lemma part_cases {x p y l r : Text} {b : UInt8} (hb : b ∉ p) (hp : p ≠ [])
    (h : x ++ (p ++ y) = l ++ b :: r) :
    (∃ z, l = x ++ (p ++ z) ∧ y = z ++ b :: r) ∨ ∃ a, x = l ++ b :: a ∧ r = a ++ (p ++ y) := by
  rcases List.append_eq_append_iff.1 h with ⟨a, rfl, hp'⟩ | ⟨a, rfl, hl⟩
  · rcases List.append_eq_append_iff.1 hp' with ⟨z, rfl, rfl⟩ | ⟨z, rfl, hz⟩
    · exact Or.inl ⟨z, rfl, rfl⟩
    · -- the part would run over the byte
      cases z with
      | nil => exact Or.inl ⟨[], by simp, hz.symm⟩
      | cons c z =>
          obtain rfl := (List.cons.inj hz).1
          exact absurd (by simp) hb
  · cases a with
    | nil =>
        obtain ⟨c, p, rfl⟩ := List.exists_cons_of_ne_nil hp
        obtain rfl := (List.cons.inj hl).1
        exact absurd List.mem_cons_self hb
    | cons c a =>
        obtain ⟨rfl, hr⟩ := List.cons.inj hl
        exact Or.inr ⟨a, rfl, hr⟩

/-! ### The end of an import clause -/

/-- Whether a text read backwards begins with the word `from`. -/
def backFrom (t : Text) : Bool :=
  ((after? [109, 111, 114, 102] t).map fun before => !before.head?.any Byte.isWord).getD false

/-- Whether a text ends in the word `from`, white space aside. -/
def endsInFrom (t : Text) : Bool := backFrom (t.reverse.dropWhile Byte.isSpace)

/-- A word is found before a byte it does not hold. -/
lemma after?_append_cons {word : Text} {c : UInt8} (hc : c ∉ word) (t u : Text) :
    after? word (t ++ c :: u) = (after? word t).map (· ++ c :: u) := by
  induction word generalizing t with
  | nil => rfl
  | cons a word ih =>
      rw [List.mem_cons, not_or] at hc
      cases t with
      | nil => simp [after?, Ne.symm hc.1]
      | cons b t =>
          rw [List.cons_append, after?, after?, ih hc.2]
          split <;> rfl

/-- White space ends the word. -/
lemma backFrom_append {c : UInt8} (hc : Byte.isSpace c = true) (t u : Text) :
    backFrom (t ++ c :: u) = backFrom t := by
  have hmem : c ∉ ([109, 111, 114, 102] : Text) := by
    have hne := fun b (hb : Byte.isSpace b = false) => Byte.ne_of_class hc hb
    simp [hne 109 rfl, hne 111 rfl, hne 114 rfl, hne 102 rfl]
  have hword := isWord_of_isSpace hc
  rw [backFrom, backFrom, after?_append_cons hmem, Option.map_map]
  congr 2
  funext before
  cases before with
  | nil => simp [hword]
  | cons b before => rfl

lemma isImportHead_eq (t : Text) :
    isImportHead t = ((t.reverse.dropWhile Byte.isSpace).isEmpty
      || backFrom (t.reverse.dropWhile Byte.isSpace)) := by
  rw [isImportHead]
  generalize t.reverse.dropWhile Byte.isSpace = r
  split
  · rfl
  · simp [backFrom, after?]
  · rename_i hempty hfrom
    have hnone : after? [109, 111, 114, 102] r = none := by
      rw [Option.eq_none_iff_forall_ne_some]
      intro before hbefore
      exact hfrom before (after?_eq_some.1 hbefore)
    simpa [backFrom, hnone] using hempty

/-- Behind white space, the end of a clause is decided by what follows. -/
lemma isImportHead_append {d c : UInt8} {ws : Text} (hd : Byte.isSpace d = false) (hm : d ≠ 109)
    (hws : Blank ws) (hc : Byte.isSpace c = true) (g z : Text) :
    isImportHead (g ++ d :: (ws ++ c :: z)) = endsInFrom z := by
  have hreverse : (g ++ d :: (ws ++ c :: z)).reverse
      = z.reverse ++ c :: (ws.reverse ++ d :: g.reverse) := by simp
  have hskip : (c :: (ws.reverse ++ d :: g.reverse)).dropWhile Byte.isSpace = d :: g.reverse := by
    rw [List.dropWhile_cons_of_pos hc,
      dropWhile_append_cons (fun b hb => hws b (List.mem_reverse.1 hb)) hd]
  rw [isImportHead_eq, endsInFrom, hreverse, List.dropWhile_append]
  cases z.reverse.dropWhile Byte.isSpace with
  | nil =>
      simp [hskip, backFrom, after?, Ne.symm hm]
  | cons b t =>
      rw [List.isEmpty_cons, if_neg (by simp), backFrom_append hc]
      rfl

/-! ### Clauses around an inert part -/

lemma isStarByte_of_blank {t : Text} (ht : Blank t) : ∀ b ∈ t, isStarByte b = true :=
  fun b hb => by simp [isStarByte, ht b hb]

lemma isStarByte_from {w : Text} (hw : Blank w) : ∀ b ∈ ("from" : Text) ++ w, isStarByte b = true :=
  List.forall_mem_append.2 ⟨by decide, isStarByte_of_blank hw⟩

/-- A clause of a re-export is a list, or it is a star and what belongs to it around a name. -/
lemma exportClause_cases {clause : Text} (h : ExportClause clause) :
    (∃ l name r : Text, clause = l ++ (name ++ r) ∧ (∀ b ∈ l, isStarByte b = true)
        ∧ (∀ b ∈ name, Byte.isIdent b = true) ∧ ∀ b ∈ r, isStarByte b = true)
      ∨ ∃ u items v w : Text,
        clause = (u ++ Byte.openBrace :: items) ++ Byte.closeBrace :: (v ++ ("from" ++ w))
          ∧ Blank u ∧ Byte.closeBrace ∉ items ∧ Blank v ∧ Blank w := by
  cases h with
  | @all u v w hu hv hw =>
      refine Or.inl ⟨u ++ Byte.star :: (v ++ ("from" ++ w)), [], [], by simp, ?_, nofun, nofun⟩
      exact List.forall_mem_append.2 ⟨isStarByte_of_blank hu, List.forall_mem_cons.2
        ⟨rfl, List.forall_mem_append.2 ⟨isStarByte_of_blank hv, isStarByte_from hw⟩⟩⟩
  | @named u v x name y w hu hv hx hxne hname hne hy hw =>
      refine Or.inl ⟨u ++ Byte.star :: (v ++ ("as" ++ x)), name, y ++ ("from" ++ w), by simp, ?_,
        hname, List.forall_mem_append.2 ⟨isStarByte_of_blank hy, isStarByte_from hw⟩⟩
      exact List.forall_mem_append.2 ⟨isStarByte_of_blank hu, List.forall_mem_cons.2
        ⟨rfl, List.forall_mem_append.2 ⟨isStarByte_of_blank hv,
          List.forall_mem_append.2 ⟨by decide, isStarByte_of_blank hx⟩⟩⟩⟩
  | @list u items v w hu hitems hv hw =>
      exact Or.inr ⟨u, items, v, w, by simp, hu, hitems, hv, hw⟩

/-- What may stand in a clause before and behind an inert part. -/
inductive ClauseAround : ReferenceForm → Text → Text → Prop
  | importing {a z : Text} (hne : a ≠ []) (hend : atWordEnd a = true)
      (ha : ∀ b ∈ a, isClauseByte b = true) (hz : ∀ b ∈ z, isClauseByte b = true)
      (hfrom : endsInFrom z = true) : ClauseAround .importing a z
  | exporting {u i j v w : Text} (hu : Blank u) (hi : Byte.closeBrace ∉ i)
      (hj : Byte.closeBrace ∉ j) (hv : Blank v) (hw : Blank w) :
      ClauseAround .exporting (u ++ Byte.openBrace :: i)
        (j ++ Byte.closeBrace :: (v ++ ("from" ++ w)))

namespace Inert

variable {p p' a z x y : Text} {form : ReferenceForm} {before : Option UInt8}

lemma ne_nil (hp : Inert p) : p ≠ [] := by
  obtain ⟨b, hb, -⟩ := hp.head
  rintro rfl
  cases hb

lemma quoteFree (hp : Inert p) : QuoteFree p := by
  intro b hb
  have := hp.clauseBytes b hb
  simp only [isClauseByte, Bool.not_eq_true', Bool.or_eq_false_iff] at this
  exact this.1

/-- A clause of an import around an inert part. -/
lemma importClause_iff (hp : Inert p) :
    ImportClause (a ++ (p ++ z)) ↔ ClauseAround .importing a z := by
  -- whether the clause ends in `from` is decided behind the part
  have hhead : isImportHead (a ++ (p ++ z)) = endsInFrom z := by
    obtain ⟨g, d, c, ws, rfl, hd, hm, hws, hc⟩ := hp.tail
    have hsplit : a ++ (g ++ d :: (ws ++ [c]) ++ z) = (a ++ g) ++ d :: (ws ++ c :: z) := by simp
    rw [hsplit, isImportHead_append hd hm hws hc]
  obtain ⟨b, p', rfl⟩ := List.exists_cons_of_ne_nil hp.ne_nil
  obtain ⟨b', hb', hword⟩ := hp.head
  obtain rfl : b = b' := by simpa using hb'
  constructor
  · rintro ⟨hfrom, hend, hbytes⟩
    cases a with
    | nil => simp [atWordEnd, hword] at hend
    | cons d a =>
        exact .importing (by simp) (by simpa [atWordEnd] using hend)
          (fun c hc => hbytes c (List.mem_append_left _ hc))
          (fun c hc => hbytes c (List.mem_append_right _ (List.mem_append_right _ hc)))
          (hhead.symm.trans hfrom)
  · rintro ⟨hne, hend, ha, hz, hfrom⟩
    refine ⟨hhead.trans hfrom, ?_, fun c hc => ?_⟩
    · obtain ⟨d, a, rfl⟩ := List.exists_cons_of_ne_nil hne
      exact hend
    · rcases List.mem_append.1 hc with hc | hc
      · exact ha c hc
      · rcases List.mem_append.1 hc with hc | hc
        · exact hp.clauseBytes c hc
        · exact hz c hc

/-- A re-export of everything holds no inert part: what is no piece of it would have to lie in the
name, the white space between included. -/
lemma not_in_star (hp : Inert p) {l name r : Text} (hl : ∀ b ∈ l, isStarByte b = true)
    (hname : ∀ b ∈ name, Byte.isIdent b = true) (hr : ∀ b ∈ r, isStarByte b = true) :
    l ++ (name ++ r) ≠ a ++ (p ++ z) := by
  intro h
  obtain ⟨g, b, v, c, w, b', z', rfl, hb, hc, hb'⟩ := hp.words
  have hfirst : l ++ (name ++ r) = (a ++ g) ++ b :: (v ++ c :: (w ++ b' :: (z' ++ z))) := by
    rw [h]
    simp
  rcases byte_cases hfirst with ⟨y', rfl, -⟩ | ⟨x', -, hrest⟩
  · exact Bool.false_ne_true (hb.symm.trans (hl b (by simp)))
  · have hlast : name ++ r = (x' ++ b :: (v ++ c :: w)) ++ b' :: (z' ++ z) := by
      rw [hrest]
      simp
    rcases byte_cases hlast with ⟨y', rfl, -⟩ | ⟨x'', -, rfl⟩
    · have hident := hname c (by simp)
      rw [isIdent_of_isSpace hc] at hident
      cases hident
    · exact Bool.false_ne_true (hb'.symm.trans (hr b' (by simp)))

/-- An inert part of an export list lies between the braces. -/
lemma around_of_list (hp : Inert p) {u items v w : Text} (hu : Blank u)
    (hitems : Byte.closeBrace ∉ items) (hv : Blank v) (hw : Blank w)
    (h : a ++ (p ++ z)
      = (u ++ Byte.openBrace :: items) ++ Byte.closeBrace :: (v ++ ("from" ++ w))) :
    ClauseAround .exporting a z := by
  rcases part_cases hp.braces.2 hp.ne_nil h with ⟨z', hitems', rfl⟩ | ⟨a', -, hrest⟩
  · rcases part_cases hp.braces.1 hp.ne_nil hitems'.symm with ⟨z'', rfl, -⟩ | ⟨a', rfl, rfl⟩
    · -- white space holds no word
      obtain ⟨b, hb, hword⟩ := hp.head
      rw [isWord_of_isSpace (hu b (by simp [List.mem_of_mem_head? hb]))] at hword
      cases hword
    · simp only [List.mem_append, not_or] at hitems
      exact .exporting hu hitems.1 hitems.2.2 hv hw
  · have hstar : ∀ b ∈ v ++ ("from" ++ w), isStarByte b = true :=
      List.forall_mem_append.2 ⟨isStarByte_of_blank hv, isStarByte_from hw⟩
    have hname : ∀ b ∈ ([] : Text), Byte.isIdent b = true := nofun
    have hrest' : ∀ b ∈ ([] : Text), isStarByte b = true := nofun
    exact absurd (by simpa using hrest) (hp.not_in_star (a := a') (z := z) hstar hname hrest')

/-- A clause of a re-export around an inert part. -/
lemma exportClause_iff (hp : Inert p) :
    ExportClause (a ++ (p ++ z)) ↔ ClauseAround .exporting a z := by
  constructor
  · intro h
    rcases exportClause_cases h with
      ⟨l, name, r, hclause, hl, hname, hr⟩ | ⟨u, items, v, w, hclause, hu, hitems, hv, hw⟩
    · exact absurd hclause.symm (hp.not_in_star hl hname hr)
    · exact hp.around_of_list hu hitems hv hw hclause
  · intro h
    cases h with
    | @exporting u i j v w hu hi hj hv hw =>
        have hitems : Byte.closeBrace ∉ i ++ (p ++ j) := by
          simp only [List.mem_append, not_or]
          exact ⟨hi, hp.braces.2, hj⟩
        have hlist := ExportClause.list hu hitems hv hw
        simpa using hlist

/-- **Clauses.** A clause around an inert part does not depend on the part. -/
lemma clause_iff (hp : Inert p) : form.Clause (a ++ (p ++ z)) ↔ ClauseAround form a z := by
  cases form with
  | importing => exact hp.importClause_iff
  | exporting => exact hp.exportClause_iff
  | requiring =>
      refine iff_of_false (fun h => ?_) nofun
      obtain ⟨b, hb, hword⟩ := hp.head
      rw [isWord_of_isSpace (h b (by simp [List.mem_of_mem_head? hb]))] at hword
      cases hword

/-! ### References that an inert part lies in -/

/-- An inert part behind the start of a reference does not lie in its keyword. -/
lemma exists_clause (hp : Inert p) (hx : x ≠ []) {clause : Text}
    (h : form.keyword ++ clause = x ++ (p ++ z)) :
    ∃ a, x = form.keyword ++ a ∧ clause = a ++ (p ++ z) := by
  rcases List.append_eq_append_iff.1 h with ⟨a, hx', hclause⟩ | ⟨k, hk, hz⟩
  · exact ⟨a, hx', hclause⟩
  · rcases List.eq_nil_or_concat' k with rfl | hne
    · exact ⟨[], by simpa using hk.symm, by simpa using hz.symm⟩
    · have hkne : k ≠ [] := by
        obtain ⟨_, _, rfl⟩ := hne
        simp
      obtain ⟨b, x, rfl⟩ := List.exists_cons_of_ne_nil hx
      have htail : k ∈ form.keyword.tail.tails := by
        rw [hk, List.cons_append, List.tail_cons, List.mem_tails]
        exact List.suffix_append _ _
      have hlong : (k.take 2).length ≤ p.length := by
        obtain ⟨g, d, c, ws, rfl, -⟩ := hp.tail
        simp only [List.length_take, List.length_append, List.length_cons, List.length_nil]
        omega
      have hprefix : k.take 2 <+: p ++ z :=
        hz ▸ (List.take_prefix 2 k).trans (List.prefix_append _ _)
      exact absurd (List.prefix_of_prefix_length_le hprefix (List.prefix_append _ _) hlong)
        (hp.keyword form k htail hkne)

/-- An inert part does not lie in the close of a reference. -/
lemma not_in_close (hp : Inert p) {close rest a : Text} (hclose : form.Close close)
    (h : close ++ rest = a ++ (p ++ y)) : close.length ≤ a.length := by
  by_contra hlt
  rcases List.append_eq_append_iff.1 h with ⟨a', rfl, -⟩ | ⟨c, rfl, hc⟩
  · simp at hlt
  · obtain ⟨b, hb, hword⟩ := hp.head
    have hcne : c ≠ [] := by
      rintro rfl
      simp at hlt
    obtain ⟨b', c, rfl⟩ := List.exists_cons_of_ne_nil hcne
    obtain ⟨b'', p, rfl⟩ := List.exists_cons_of_ne_nil hp.ne_nil
    obtain rfl : b'' = b := by simpa using hb
    obtain rfl : b'' = b' := (List.cons.inj hc).1
    cases form with
    | importing => cases (List.append_eq_nil_iff.1 hclose).2
    | exporting => cases (List.append_eq_nil_iff.1 hclose).2
    | requiring =>
        obtain ⟨ws, hws, hclose⟩ := hclose
        have hmem : b'' ∈ ws ++ [Byte.closeParen] := hclose ▸ by simp
        rcases List.mem_append.1 hmem with hmem | hmem
        · rw [isWord_of_isSpace (hws _ hmem)] at hword
          cases hword
        · rw [List.mem_singleton.1 hmem] at hword
          cases hword

/-- An inert part of a reference lies in its clause or in its specifier. -/
lemma in_clause_or_spec (hp : Inert p) (hx : x ≠ []) {clause spec close rest : Text} {o e : UInt8}
    (ho : Byte.isQuote o = true) (he : Byte.isQuote e = true) (hclose : form.Close close)
    (h : form.keyword ++ (clause ++ o :: (spec ++ e :: close)) ++ rest = x ++ (p ++ y))
    (hn : x.length < (form.keyword ++ (clause ++ o :: (spec ++ e :: close))).length) :
    (∃ a z, x = form.keyword ++ a ∧ clause = a ++ (p ++ z)
        ∧ y = z ++ o :: (spec ++ e :: (close ++ rest)))
      ∨ ∃ a z, x = form.keyword ++ clause ++ o :: a ∧ spec = a ++ (p ++ z)
        ∧ y = z ++ e :: (close ++ rest) := by
  have hquote : ∀ {b}, Byte.isQuote b = true → b ∉ p := fun hb hmem => by
    rw [hp.quoteFree _ hmem] at hb
    cases hb
  have hsplit : x ++ (p ++ y)
      = (form.keyword ++ clause) ++ o :: (spec ++ e :: (close ++ rest)) := by
    rw [← h]
    simp
  rcases part_cases (hquote ho) hp.ne_nil hsplit with ⟨z, hkeyword, rfl⟩ | ⟨a, rfl, hrest⟩
  · obtain ⟨a, rfl, rfl⟩ := hp.exists_clause hx hkeyword
    exact Or.inl ⟨a, z, rfl, rfl, rfl⟩
  · rcases part_cases (hquote he) hp.ne_nil hrest.symm with ⟨z, rfl, rfl⟩ | ⟨a', rfl, hrest'⟩
    · exact Or.inr ⟨a, z, rfl, rfl, rfl⟩
    · have := hp.not_in_close hclose hrest'
      simp only [List.length_append, List.length_cons] at hn
      omega

/-- **References that an inert part lies in.** The part lies in the clause, and any other inert part
may stand there; or it lies in the specifier, and so may any other without a newline. -/
lemma pattern_cases (hp : Inert p) (hp' : Inert p') (hx : x ≠ []) {n : ℕ} {q : Quoted}
    (h : form.pattern before (x ++ (p ++ y)) = some (n, q)) (hn : x.length < n) :
    (∃ k l, n = x.length + p.length + k ∧ q.lead = x.length + p.length + l
        ∧ form.pattern before (x ++ (p' ++ y))
          = some (x.length + p'.length + k, ⟨x.length + p'.length + l, q.spec⟩))
      ∨ (q.lead ≤ x.length ∧ x.length + p.length ≤ q.lead + q.spec.length)
        ∧ ((∀ b ∈ p', isInner b = true) →
          ∃ n' q', form.pattern before (x ++ (p' ++ y)) = some (n', q')
            ∧ q'.lead ≤ x.length ∧ x.length + p'.length ≤ q'.lead + q'.spec.length) := by
  obtain ⟨hbefore, text, rest, heq, rfl, clause, o, e, close, hclause, hspec, ho, he, hclose, rfl,
    hlead⟩ := pattern_eq_some.1 h
  -- the part has no quote in it, so it lies before the specifier or inside it
  rcases hp.in_clause_or_spec hx ho he hclose heq.symm hn with
    ⟨a, z, rfl, rfl, rfl⟩ | ⟨a, z, rfl, hspec', rfl⟩
  · refine Or.inl ⟨z.length + (o :: (q.spec ++ e :: close)).length, z.length + 1, ?_, ?_, ?_⟩
    · simp only [List.length_append]
      omega
    · rw [hlead]
      simp only [List.length_append]
      omega
    · refine pattern_eq_some.2 ⟨hbefore,
        form.keyword ++ ((a ++ (p' ++ z)) ++ o :: (q.spec ++ e :: close)), rest, by simp, ?_,
        a ++ (p' ++ z), o, e, close, hp'.clause_iff.2 (hp.clause_iff.1 hclause), hspec, ho, he,
        hclose, rfl, ?_⟩
      · simp only [List.length_append]
        omega
      · simp only [List.length_append]
        omega
  · refine Or.inr ⟨⟨?_, ?_⟩, fun hinner => ?_⟩
    · rw [hlead]
      simp only [List.length_append, List.length_cons]
      omega
    · rw [hlead, hspec']
      simp only [List.length_append, List.length_cons]
      omega
    · have hbytes := hspec' ▸ hspec.2
      rw [List.forall_mem_append, List.forall_mem_append] at hbytes
      have hbytes' : ∀ b ∈ a ++ (p' ++ z), isInner b = true :=
        List.forall_mem_append.2 ⟨hbytes.1, List.forall_mem_append.2 ⟨hinner, hbytes.2.2⟩⟩
      refine ⟨_, ⟨q.lead, a ++ (p' ++ z)⟩, pattern_eq_some.2 ⟨hbefore,
        form.keyword ++ (clause ++ o :: ((a ++ (p' ++ z)) ++ e :: close)), rest, by simp, rfl,
        clause, o, e, close, hclause, ⟨by simp [hp'.ne_nil], hbytes'⟩, ho, he, hclose, rfl, hlead⟩,
        ?_, ?_⟩
      · rw [hlead]
        simp only [List.length_append, List.length_cons]
        omega
      · rw [hlead]
        simp only [List.length_append, List.length_cons]
        omega

/-- **One place in front of an inert part.** Whichever part follows, the same is recognised there:
nothing, a reference that ends in front of the part, or one that has the part in its clause. Only a
reference with the part in its specifier is excepted. -/
lemma pattern_exchange (hp : Inert p) (hp' : Inert p') (hinner : ∀ b ∈ p', isInner b = true)
    (hx : x ≠ []) (hfree : ∀ n q, form.pattern before (x ++ (p' ++ y)) = some (n, q) →
      ¬ (q.lead ≤ x.length ∧ x.length + p'.length ≤ q.lead + q.spec.length)) :
    (form.pattern before (x ++ (p ++ y)) = none ∧ form.pattern before (x ++ (p' ++ y)) = none)
      ∨ (∃ n q, n ≤ x.length ∧ form.pattern before (x ++ (p ++ y)) = some (n, q)
        ∧ form.pattern before (x ++ (p' ++ y)) = some (n, q))
      ∨ ∃ k l spec, form.pattern before (x ++ (p ++ y))
          = some (x.length + p.length + k, ⟨x.length + p.length + l, spec⟩)
        ∧ form.pattern before (x ++ (p' ++ y))
          = some (x.length + p'.length + k, ⟨x.length + p'.length + l, spec⟩) := by
  -- a match that ends in front of the part is found either way
  have hlocal : ∀ {p p' : Text} {n q}, n ≤ x.length →
      form.pattern before (x ++ (p ++ y)) = some (n, q) →
      form.pattern before (x ++ (p' ++ y)) = some (n, q) := fun hn h =>
    ((takes_pattern form).append_iff hn).2 (((takes_pattern form).append_iff hn).1 h)
  cases hsource : form.pattern before (x ++ (p ++ y)) with
  | none =>
      refine Or.inl ⟨rfl, Option.eq_none_iff_forall_ne_some.2 ?_⟩
      rintro ⟨n, q⟩ hsome
      by_cases hn : n ≤ x.length
      · rw [hlocal hn hsome] at hsource
        cases hsource
      · rcases hp'.pattern_cases hp hx hsome (not_le.1 hn) with ⟨k, l, -, -, hsome'⟩ | ⟨hspec, -⟩
        · rw [hsource] at hsome'
          cases hsome'
        · exact hfree n q hsome hspec
  | some found =>
      obtain ⟨n, q⟩ := found
      by_cases hn : n ≤ x.length
      · exact Or.inr (Or.inl ⟨n, q, hn, rfl, hlocal hn hsource⟩)
      · rcases hp.pattern_cases hp' hx hsource (not_le.1 hn) with
          ⟨k, l, rfl, hlead, hsome⟩ | ⟨-, hspec⟩
        · exact Or.inr (Or.inr ⟨k, l, q.spec, by rw [← hlead], hsome⟩)
        · obtain ⟨n', q', hsome, hheld⟩ := hspec hinner
          exact absurd hheld (hfree n' q' hsome)

lemma atWordStart_behind (hp : Inert p) (x : Text) (before : Option UInt8) :
    atWordStart ((x ++ p).getLast?.or before) = atWordStart none := by
  obtain ⟨g, d, c, ws, rfl, -, -, -, hc⟩ := hp.tail
  have hsplit : x ++ (g ++ d :: (ws ++ [c])) = (x ++ g ++ d :: ws) ++ [c] := by simp
  rw [hsplit, List.getLast?_concat]
  simp [atWordStart, isWord_of_isSpace hc]

end Inert

/-! ### Exchanging an inert part -/

namespace Replacement

variable {c : Replacement} {form : ReferenceForm} {before : Option UInt8} {position : ℕ}

/-- What is recognised at the first byte of a text in two parts is a match. -/
lemma mem_hitsFrom_cons_append {b : UInt8} {x u : Text} {n : ℕ} {q : Quoted}
    (h : form.pattern before ((b :: x) ++ u) = some (n, q)) (position : ℕ) :
    (⟨position, n, q⟩ : Hit Quoted)
      ∈ Search.hitsFrom form.pattern before position 0 (b :: (x ++ u)) := by
  rw [List.cons_append] at h
  rw [Search.hitsFrom_cons_of_some h]
  exact List.mem_cons_self

/-- Where a match takes the part in, the matches behind it stay. -/
lemma forall₂_skip_inert (hold : Inert c.old) (hnew : Inert c.new) (form : ReferenceForm)
    {x : Text} (hx : position + x.length = c.pre.length) (before : Option UInt8) (k : ℕ)
    (y : Text) :
    List.Forall₂ c.Moved
      (Search.hitsFrom form.pattern before position (x.length + c.old.length + k)
        (x ++ (c.old ++ y)))
      (Search.hitsFrom form.pattern before position (x.length + c.new.length + k)
        (x ++ (c.new ++ y))) := by
  have hr := takes_pattern form
  have hskip : ∀ p, Inert p → Search.hitsFrom form.pattern before position (x.length + p.length + k)
      (x ++ (p ++ y)) = (Search.hitsFrom form.pattern none 0 k y).map
        (Search.shift (c.pre.length + p.length)) := by
    intro p hp
    rw [← List.append_assoc, ← List.length_append, Search.hitsFrom_skip,
      Search.hitsFrom_congr hr (hp.atWordStart_behind x before),
      ← Search.hitsFrom_shift, Nat.zero_add, List.length_append, ← Nat.add_assoc, hx]
  rw [hskip _ hold, hskip _ hnew]
  exact forall₂_behind none k y

/-- The specifier of a match holds the new part. -/
def Holds (c : Replacement) (hit : Hit Quoted) : Prop :=
  specStart hit ≤ c.pre.length
    ∧ c.pre.length + c.new.length ≤ specStart hit + hit.found.spec.length

/-- Where the part begins, counted from the match. -/
lemma holds_iff {x : Text} {n : ℕ} {q : Quoted} (hx : position + x.length = c.pre.length) :
    c.Holds ⟨position, n, q⟩
      ↔ q.lead ≤ x.length ∧ x.length + c.new.length ≤ q.lead + q.spec.length := by
  rw [Holds, specStart]
  dsimp only
  omega

/-- **References stay when an inert part is exchanged** for another, unless one of the result holds
the new part in its specifier. -/
theorem forall₂_inert (hold : Inert c.old) (hnew : Inert c.new)
    (hinner : ∀ b ∈ c.new, isInner b = true) {x : Text} {skip : ℕ}
    (hx : position + x.length = c.pre.length) (hskip : skip ≤ x.length) (y : Text)
    (hresult : ∀ hit ∈ Search.hitsFrom form.pattern before position skip (x ++ (c.new ++ y)),
      ¬ c.Holds hit) :
    List.Forall₂ c.Moved
      (Search.hitsFrom form.pattern before position skip (x ++ (c.old ++ y)))
      (Search.hitsFrom form.pattern before position skip (x ++ (c.new ++ y))) := by
  induction x generalizing before position skip with
  | nil =>
      obtain rfl : skip = 0 := by simpa using hskip
      -- no reference begins inside an inert part, so the part itself is passed over on both sides
      have hpass : ∀ p, Inert p → Search.hitsFrom form.pattern before position 0 (p ++ y)
          = Search.hitsFrom form.pattern before position (p.length + 0) (p ++ y) := by
        intro p hp
        rw [Search.hitsFrom_skip,
          Search.hitsFrom_pass fun w hw hne before => hp.inside y form before w hw hne]
      have h := forall₂_skip_inert hold hnew form hx before 0 y
      rw [List.nil_append, List.nil_append, hpass _ hold, hpass _ hnew]
      simpa only [List.nil_append, List.length_nil, Nat.zero_add] using h
  | cons b x ih =>
      have hx' : position + 1 + x.length = c.pre.length := by
        rw [← hx, List.length_cons]
        omega
      rw [List.cons_append] at hresult ⊢
      rw [List.cons_append]
      cases skip with
      | succ skip =>
          rw [Search.hitsFrom_succ_cons] at hresult ⊢
          rw [Search.hitsFrom_succ_cons]
          exact ih hx' (by simpa using hskip) hresult
      | zero =>
          -- a reference found here does not hold the new part, and so the old one is found here
          -- as well
          have hfree : ∀ n q, form.pattern before ((b :: x) ++ (c.new ++ y)) = some (n, q) →
              ¬ (q.lead ≤ (b :: x).length
                ∧ (b :: x).length + c.new.length ≤ q.lead + q.spec.length) :=
            fun n q hsome hheld =>
              hresult _ (mem_hitsFrom_cons_append hsome position) ((holds_iff hx).2 hheld)
          rcases hold.pattern_exchange hnew hinner (List.cons_ne_nil b x) hfree with
            ⟨hsource, hnew'⟩ | ⟨n, q, hn, hsource, hnew'⟩ | ⟨k, l, spec, hsource, hnew'⟩
          · -- nothing is found here on either side
            rw [List.cons_append] at hsource hnew'
            rw [Search.hitsFrom_cons_of_none hnew'] at hresult ⊢
            rw [Search.hitsFrom_cons_of_none hsource]
            exact ih hx' (Nat.zero_le _) hresult
          · -- the reference ends before the part: it is the same one on both sides
            have hmoved := moved_before (c := c) (mem_hitsFrom_cons_append hsource position)
              (by dsimp only; omega)
            rw [List.cons_append] at hsource hnew'
            rw [Search.hitsFrom_cons_of_some hnew'] at hresult ⊢
            rw [Search.hitsFrom_cons_of_some hsource]
            rw [List.length_cons] at hn
            exact .cons hmoved
              (ih hx' (by omega) fun hit hhit => hresult hit (List.mem_cons_of_mem _ hhit))
          · -- the part lies in the clause: only the length of the reference changes
            have hpos := (spec_within (mem_hitsFrom_cons_append hsource position)).2
            rw [List.cons_append] at hsource hnew'
            have hskip : ∀ p : Text, (b :: x).length + p.length + k - 1
                = x.length + p.length + k := by
              intro p
              rw [List.length_cons]
              omega
            rw [Search.hitsFrom_cons_of_some hsource, Search.hitsFrom_cons_of_some hnew', hskip,
              hskip]
            refine .cons ⟨rfl, hpos, Or.inr ?_⟩
              (forall₂_skip_inert hold hnew form hx' (some b) k y)
            simp only [specStart]
            omega

/-- What the specifier of a match holds, it holds in the script too. -/
lemma infix_of_holds {hit : Hit Quoted} (h : c.Holds hit) : c.new <:+: (siteOf c.result hit).2 := by
  obtain ⟨hle, hle'⟩ := h
  have hdrop : c.result.drop (specStart hit)
      = c.pre.drop (specStart hit) ++ (c.new ++ c.post) := by
    rw [result, List.drop_append_of_le_length hle]
  have hlength := List.length_drop (i := specStart hit) (l := c.pre)
  rw [siteOf, hdrop, List.take_append, List.take_of_length_le (by omega), List.take_append,
    List.take_of_length_le (i := _ - _) (by omega)]
  exact ⟨_, _, List.append_assoc _ _ _⟩

/-- **An inert part of plain code.** Where an inert part is exchanged in plain code, the scan finds
the same specifiers in the same order, unless it finds the new part in one. -/
theorem scanImports_inert (hold : Inert c.old) (hnew : Inert c.new)
    (hinner : ∀ b ∈ c.new, isInner b = true) (hpre : Lexer.over .code c.pre = .code)
    (hreads : Lexer.Reads .code c.old .code) (hreads' : Lexer.Reads .code c.new .code)
    (hresult : ∀ spec ∈ scanImports c.result, ¬ c.new <:+: spec) :
    scanImports c.result = scanImports c.source := by
  have hmask : ∀ p, Inert p → Lexer.Reads .code p .code →
      maskComments (c.pre ++ (p ++ c.post))
        = maskFrom .code c.pre ++ (p ++ maskFrom .code c.post) := by
    intro p hp hreads
    obtain ⟨b, hb, hword⟩ := hp.head
    have hhead : (p ++ c.post).head? = some b := by
      rw [List.head?_append_of_ne_nil _ hp.ne_nil, hb]
    have hne : ∀ d, Byte.isWord d = false → (p ++ c.post).head? ≠ some d := by
      intro d hd
      rw [hhead]
      exact fun h => Byte.ne_of_class hword hd (Option.some.inj h)
    rw [maskComments_eq_maskFrom, maskFrom_append (hne _ rfl) (hne _ rfl), hpre,
      hreads.maskFrom_append]
  refine scanImports_eq_of_forall₂ fun form => ?_
  have hsource := hmask c.old hold hreads
  have hafter := hmask c.new hnew hreads'
  rw [← source] at hsource
  rw [← result] at hafter
  rw [formHits, formHits, hsource, hafter]
  refine forall₂_inert hold hnew hinner (by simp) (Nat.zero_le _) _ fun hit hhit hholds => ?_
  refine hresult _ (mem_scanImports_iff.2 ⟨form, hit, ?_, rfl⟩) (infix_of_holds hholds)
  rw [formHits, hafter]
  exact hhit

end Replacement

end Script

end MiniProgram
