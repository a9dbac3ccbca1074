import MiniProgram.Proofs.Number.Decimal
import MiniProgram.Proofs.Text.Replace
import MiniProgram.Stylesheet.Units

/-!
Lengths in responsive units.

A length in `px` is a numeral that no word and no dot runs into, and the word `px` behind it. The
length that is put in its place ends in `rpx`, so that nothing in it is a length in `px`, and since
it begins and ends where the old one did, nothing beside it becomes one. What is found in a
converted stylesheet are therefore the lengths that were left alone.

* `pixelLength_eq_some`: what a length in `px` looks like.
* `pixelLength_cons_replaceFrom_eq_none`: **nothing becomes a length.**
* `found_pxToRpx`: **the lengths that are left**, those whose numbers are out of range.
* `pxToRpx_pxToRpx`: **a stylesheet is converted once.**
-/

namespace MiniProgram

namespace Stylesheet

open Binary64 (IsNumeral)

variable {before : Option UInt8} {t rest number : Text} {b : UInt8} {n : ℕ} {a : Binary64}

/-! ### What a length looks like -/

/-- A byte that runs into a number behind it: a byte of a word, or a dot. -/
def joins (b : UInt8) : Bool := Byte.isWord b || b == Byte.dot

lemma joins_of_isNumeralByte (h : Binary64.isNumeralByte b = true) : joins b = true := by
  rw [Binary64.isNumeralByte, Bool.or_eq_true] at h
  rw [joins, Byte.isWord]
  rcases h with h | h <;> simp [h]

/-- The digits at the head of a text, with a dot and the digits behind it if there is one, and the
rest of the text. -/
def spanNumber (t : Text) : Text × Text :=
  match t.dropWhile Byte.isDigit with
  | Byte.dot :: r =>
    (t.takeWhile Byte.isDigit ++ Byte.dot :: r.takeWhile Byte.isDigit, r.dropWhile Byte.isDigit)
  | rest => (t.takeWhile Byte.isDigit, rest)

lemma pixelLength_eq (before : Option UInt8) (t : Text) :
    pixelLength before t
      = if before.any joins then none
        else if (spanNumber t).1.getLast?.any Byte.isDigit then
          match Text.after? "px" (spanNumber t).2 with
          | some rest =>
            if Text.atWordEnd rest then some ((spanNumber t).1.length + 2, (spanNumber t).1)
            else none
          | none => none
        else none := rfl

lemma spanNumber_of_dot {r : Text} (h : t.dropWhile Byte.isDigit = Byte.dot :: r) :
    spanNumber t = (t.takeWhile Byte.isDigit ++ Byte.dot :: r.takeWhile Byte.isDigit,
      r.dropWhile Byte.isDigit) := by
  rw [spanNumber, h]
  rfl

lemma spanNumber_of_head?_ne (h : (t.dropWhile Byte.isDigit).head? ≠ some Byte.dot) :
    spanNumber t = (t.takeWhile Byte.isDigit, t.dropWhile Byte.isDigit) := by
  rw [spanNumber]
  split
  · rename_i heq
    rw [heq] at h
    exact absurd rfl h
  · rfl

/-- A numeral is read up to the letter behind it. -/
lemma spanNumber_append (h : IsNumeral number) (rest : Text) :
    spanNumber (number ++ ("px" ++ rest)) = (number, "px" ++ rest) := by
  have hletter : Byte.isDigit 112 = false := rfl
  have hunit : ("px" : Text) ++ rest = 112 :: 120 :: rest := rfl
  obtain ⟨whole, point, part, rfl, hwhole, rfl | rfl, -, hpart⟩ := h
  · have hall : ∀ b ∈ whole ++ ([] ++ part), Byte.isDigit b = true := by
      simpa [or_imp, forall_and] using ⟨hwhole, hpart⟩
    have hrest := Text.dropWhile_append_cons hall hletter (120 :: rest)
    have hne : (some 112 : Option UInt8) ≠ some Byte.dot := by decide
    rw [hunit, spanNumber_of_head?_ne (by rw [hrest]; exact hne), hrest,
      Text.takeWhile_append_cons hall hletter]
  · have hsplit : whole ++ ([Byte.dot] ++ part) ++ ("px" ++ rest)
        = whole ++ Byte.dot :: (part ++ 112 :: 120 :: rest) := by simp [hunit]
    have hdot : Byte.isDigit Byte.dot = false := rfl
    rw [hsplit, spanNumber_of_dot (Text.dropWhile_append_cons hwhole hdot _),
      Text.takeWhile_append_cons hwhole hdot, Text.takeWhile_append_cons hpart hletter,
      Text.dropWhile_append_cons hpart hletter]
    rfl

/-- What is read is the head of the text, and a numeral if it ends in a digit. -/
lemma spanNumber_spec (t : Text) :
    (spanNumber t).1 ++ (spanNumber t).2 = t
      ∧ ((spanNumber t).1.getLast?.any Byte.isDigit = true → IsNumeral (spanNumber t).1) := by
  have hdigits : ∀ u : Text, ∀ b ∈ u.takeWhile Byte.isDigit, Byte.isDigit b = true :=
    fun _ _ hb => List.mem_takeWhile_imp hb
  by_cases hdot : (t.dropWhile Byte.isDigit).head? = some Byte.dot
  · obtain ⟨r, hr⟩ := List.head?_eq_some_iff.1 hdot
    rw [spanNumber_of_dot hr]
    constructor
    · rw [List.append_assoc, List.cons_append, List.takeWhile_append_dropWhile, ← hr,
        List.takeWhile_append_dropWhile]
    · intro hlast
      refine ⟨_, [Byte.dot], _, rfl, hdigits t, Or.inr rfl, ?_, hdigits r⟩
      intro hnil
      rw [hnil, List.getLast?_concat] at hlast
      cases hlast
  · rw [spanNumber_of_head?_ne hdot]
    refine ⟨List.takeWhile_append_dropWhile, fun hlast => ?_⟩
    refine ⟨[], [], _, rfl, by simp, Or.inl rfl, ?_, hdigits t⟩
    intro hnil
    rw [hnil] at hlast
    cases hlast

lemma pixelLength_eq_some :
    pixelLength before t = some (n, number)
      ↔ before.any joins = false ∧ IsNumeral number ∧ n = number.length + 2
        ∧ ∃ rest, t = number ++ ("px" ++ rest) ∧ Text.atWordEnd rest = true := by
  rw [pixelLength_eq]
  constructor
  · intro h
    obtain ⟨happend, hnumeral⟩ := spanNumber_spec t
    split_ifs at h with hbefore hlast
    split at h
    · rename_i rest hrest
      split_ifs at h with hend
      cases h
      rw [Text.after?_eq_some] at hrest
      exact ⟨by simpa using hbefore, hnumeral hlast, rfl, rest, by rw [← hrest, happend], hend⟩
    · cases h
  · rintro ⟨hbefore, hnumeral, rfl, rest, rfl, hend⟩
    have hlast : number.getLast?.any Byte.isDigit = true := by
      obtain ⟨whole, point, part, rfl, -, -, hne, hpart⟩ := hnumeral
      rw [← List.append_assoc, List.getLast?_append_of_ne_nil _ hne,
        List.getLast?_eq_some_getLast hne]
      exact hpart _ (List.getLast_mem hne)
    rw [spanNumber_append hnumeral]
    dsimp only
    rw [if_neg (by simp [hbefore]), if_pos hlast, Text.after?_eq_some.2 rfl]
    dsimp only
    rw [if_pos hend]

lemma pixelLength_append (hbefore : before.any joins = false) (hnumeral : IsNumeral number)
    {rest : Text} (hend : Text.atWordEnd rest = true) :
    pixelLength before ((number ++ "px") ++ rest)
      = some ((number ++ ("px" : Text)).length, number) := by
  rw [List.append_assoc, List.length_append]
  exact pixelLength_eq_some.2 ⟨hbefore, hnumeral, rfl, rest, rfl, hend⟩

lemma pixelLength_within (h : pixelLength before t = some (n, number)) :
    0 < n ∧ n ≤ t.length := by
  obtain ⟨-, -, rfl, rest, rfl, -⟩ := pixelLength_eq_some.1 h
  have hunit : ("px" : Text).length = 2 := rfl
  simp only [List.length_append, hunit]
  omega

lemma take_of_pixelLength (h : pixelLength before t = some (n, number)) :
    t.take n = number ++ "px" := by
  obtain ⟨-, -, rfl, rest, rfl, -⟩ := pixelLength_eq_some.1 h
  rw [← List.append_assoc]
  exact List.take_left' (by simp; rfl)

/-! ### Where no length begins -/

/-- Behind a word or a dot no length begins. -/
lemma pixelLength_eq_none_of_joins (hbefore : before.any joins = true) (t : Text) :
    pixelLength before t = none := by
  rw [pixelLength_eq, if_pos hbefore]

/-- A length begins with a digit or a dot. -/
lemma pixelLength_cons_eq_none (hb : Binary64.isNumeralByte b = false) (before : Option UInt8)
    (t : Text) : pixelLength before (b :: t) = none := by
  rw [Option.eq_none_iff_forall_ne_some]
  rintro ⟨n, number⟩ h
  obtain ⟨-, hnumeral, -, rest, ht, -⟩ := pixelLength_eq_some.1 h
  obtain ⟨c, number, rfl⟩ := List.exists_cons_of_ne_nil hnumeral.ne_nil
  obtain ⟨rfl, -⟩ := List.cons.inj ht
  exact absurd (hnumeral.isNumeralByte List.mem_cons_self) (by simp [hb])

/-- The number of a length in `px` has no letter before the unit. -/
lemma pixelLength_letter_eq_none (hletter : (112 : UInt8) ∉ t) (before : Option UInt8)
    (rest : Text) : pixelLength before (t ++ ("rpx" ++ rest)) = none := by
  rw [Option.eq_none_iff_forall_ne_some]
  rintro ⟨n, number⟩ h
  obtain ⟨-, hnumeral, -, tail, ht, -⟩ := pixelLength_eq_some.1 h
  have hnumber : (112 : UInt8) ∉ number := fun hmem => by
    cases hnumeral.isNumeralByte hmem
  have hsplit : t ++ (("rpx" : Text) ++ rest) = (t ++ [114]) ++ 112 :: 120 :: rest := by
    have hunit : ("rpx" : Text) = [114, 112, 120] := rfl
    simp [hunit]
  -- up to the first `p` both are the same
  have hbefore : (112 : UInt8) ∉ t ++ [114] := by simp [hletter]
  obtain ⟨heq, -⟩ := Text.append_cons_inj (Text.forall_ne_of_not_mem hbefore)
    (Text.forall_ne_of_not_mem hnumber) (by rfl) (by rfl) (hsplit.symm.trans ht)
  have hmem : (114 : UInt8) ∈ number := heq ▸ by simp
  cases hnumeral.isNumeralByte hmem

/-- No length begins in one in `rpx`. -/
lemma pixelLength_responsive_eq_none (hletter : (112 : UInt8) ∉ number) {w : Text}
    (hw : w <:+ number ++ "rpx") (hne : w ≠ []) (before : Option UInt8) (rest : Text) :
    pixelLength before (w ++ rest) = none := by
  rcases Text.suffix_append_cases hw with hw | ⟨t, ht, rfl⟩
  · obtain ⟨b, w, rfl⟩ := List.exists_cons_of_ne_nil hne
    have hunit : ∀ b ∈ ("rpx" : Text), Binary64.isNumeralByte b = false := by decide
    exact pixelLength_cons_eq_none (hunit b (hw.subset List.mem_cons_self)) _ _
  · rw [List.append_assoc]
    exact pixelLength_letter_eq_none (fun hmem => hletter (ht.subset hmem)) _ _

/-! ### What stands beside a length -/

variable {f : Text → Text}

/-- A run of bytes that join what stands behind them is kept, and what it is kept from is such a
run. -/
lemma exists_append_of_replaceFrom {w u : Text} (hbefore : before.any joins = true)
    (hw : ∀ b ∈ w, joins b = true)
    (h : Search.replaceFrom pixelLength f before 0 t = w ++ u) :
    ∃ t', t = w ++ t' ∧ (w.getLast?.or before).any joins = true
      ∧ Search.replaceFrom pixelLength f (w.getLast?.or before) 0 t' = u := by
  induction w generalizing before t with
  | nil => exact ⟨t, rfl, hbefore, h⟩
  | cons c w ih =>
      obtain ⟨hc, htail⟩ := List.forall_mem_cons.1 hw
      obtain _ | ⟨b, t⟩ := t
      · cases h
      rw [Search.replaceFrom_cons_of_none (pixelLength_eq_none_of_joins hbefore _),
        List.cons_append] at h
      obtain ⟨rfl, hnext⟩ := List.cons.inj h
      obtain ⟨t', rfl, hlast, hu⟩ := @ih (some b) t hc htail hnext
      rw [Search.getLast?_cons_or]
      exact ⟨t', rfl, hlast, hu⟩

/-- Behind a word no word is made or broken. -/
lemma atWordEnd_replaceFrom (hbefore : before.any joins = true) (t : Text) :
    Text.atWordEnd (Search.replaceFrom pixelLength f before 0 t) = Text.atWordEnd t := by
  cases t with
  | nil => rfl
  | cons b t =>
      rw [Search.replaceFrom_cons_of_none (pixelLength_eq_none_of_joins hbefore _)]
      rfl

/-- **Nothing becomes a length**: where none begins, none does after the conversion of what
follows. -/
lemma pixelLength_cons_replaceFrom_eq_none (h : pixelLength before (b :: t) = none) :
    pixelLength before (b :: Search.replaceFrom pixelLength f (some b) 0 t) = none := by
  rw [Option.eq_none_iff_forall_ne_some]
  rintro ⟨n, number⟩ hfound
  obtain ⟨hbefore, hnumeral, -, rest, heq, hend⟩ := pixelLength_eq_some.1 hfound
  have hjoins : ∀ c ∈ number ++ "px", joins c = true := by
    intro c hc
    rcases List.mem_append.1 hc with hc | hc
    · exact joins_of_isNumeralByte (hnumeral.isNumeralByte hc)
    · exact (by decide : ∀ c ∈ ("px" : Text), joins c = true) c hc
  obtain ⟨c, number, rfl⟩ := List.exists_cons_of_ne_nil hnumeral.ne_nil
  rw [← List.append_assoc, List.cons_append] at heq
  obtain ⟨rfl, hnext⟩ := List.cons.inj heq
  rw [List.cons_append] at hjoins
  obtain ⟨hb, htail⟩ := List.forall_mem_cons.1 hjoins
  have hbyte : (some b).any joins = true := hb
  -- the rest of the length stood there before
  obtain ⟨t', rfl, hlast, hrest⟩ := exists_append_of_replaceFrom hbyte htail hnext
  rw [← hrest, atWordEnd_replaceFrom hlast] at hend
  have hsome : pixelLength before (b :: (number ++ "px" ++ t'))
      = some ((b :: number).length + 2, b :: number) :=
    pixelLength_eq_some.2 ⟨hbefore, hnumeral, rfl, t', by simp, hend⟩
  rw [hsome] at h
  cases h

/-! ### What is left -/

open Search (found)

/-- Whether the number of a length is in range. -/
def inRange (number : Text) : Bool := (Binary64.read? number).isOk

lemma responsiveLength_of_not_inRange (h : inRange number = false) (a : Binary64) :
    responsiveLength a number = number ++ "px" := by
  rw [responsiveLength]
  rw [inRange] at h
  cases hread : Binary64.read? number with
  | error e => rfl
  | ok x => rw [hread] at h; cases h

/-- A length in `rpx` is put in the place of one whose number is in range. -/
lemma exists_responsiveLength (h : inRange number = true) (a : Binary64) :
    ∃ new : Text, (112 : UInt8) ∉ new ∧ responsiveLength a number = new ++ "rpx" := by
  rw [responsiveLength]
  rw [inRange] at h
  cases hread : Binary64.read? number with
  | error e => rw [hread] at h; cases h
  | ok x =>
      refine ⟨_, fun hmem => ?_, rfl⟩
      cases Binary64.isTextByte_of_mem_shortest hmem

/-- What a conversion of the rest of a stylesheet leaves are the lengths that are out of range. -/
lemma map_found_replaceFrom (a : Binary64) (before : Option UInt8) (p q : ℕ) (t : Text) :
    (Search.hitsFrom pixelLength before p 0
        (Search.replaceFrom pixelLength (responsiveLength a) before 0 t)).map (·.found)
      = ((Search.hitsFrom pixelLength before q 0 t).map (·.found)).filter (!inRange ·) := by
  induction hlength : t.length using Nat.strong_induction_on generalizing before p q t with
  | _ k ih =>
      subst hlength
      obtain _ | ⟨b, t⟩ := t
      · rfl
      cases hfound : pixelLength before (b :: t) with
      | none =>
          rw [Search.replaceFrom_cons_of_none hfound,
            Search.hitsFrom_cons_of_none (pixelLength_cons_replaceFrom_eq_none hfound),
            Search.hitsFrom_cons_of_none hfound]
          exact ih t.length (Nat.lt_succ_self _) _ _ _ t rfl
      | some length =>
          obtain ⟨n, number⟩ := length
          obtain ⟨hbefore, hnumeral, -, rest, ht, hend⟩ := pixelLength_eq_some.1 hfound
          have hne : number ++ ("px" : Text) ≠ [] := by simp [hnumeral.ne_nil]
          have hlast : (number ++ ("px" : Text)).getLast? = some 120 :=
            List.getLast?_append_of_ne_nil number (by decide)
          have hpart := @pixelLength_append before number hbefore hnumeral
          have hshorter : rest.length < (b :: t).length := by
            have := List.length_pos_iff.2 hne
            rw [ht, ← List.append_assoc, List.length_append]
            omega
          -- the search goes on behind the unit, in both stylesheets
          have hrest := fun p q => ih rest.length hshorter (some 120) p q rest rfl
          rw [ht, ← List.append_assoc, Search.replaceFrom_append_of_some hne (hpart hend),
            Search.hitsFrom_append_of_some hne (hpart hend), hlast, List.map_cons]
          cases hrange : inRange number with
          | false =>
              have hend' :=
                (@atWordEnd_replaceFrom (some 120) (responsiveLength a) rfl rest).trans hend
              rw [responsiveLength_of_not_inRange hrange,
                Search.hitsFrom_append_of_some hne (hpart hend'), hlast, List.map_cons,
                List.filter_cons_of_pos (by simp [hrange])]
              exact congrArg (List.cons number) (hrest _ _)
          | true =>
              obtain ⟨new, hletter, hnew⟩ := exists_responsiveLength hrange a
              have hlast : (new ++ ("rpx" : Text)).getLast? = some 120 :=
                List.getLast?_append_of_ne_nil new (by decide)
              rw [hnew, Search.hitsFrom_pass fun w hw hne before =>
                  pixelLength_responsive_eq_none hletter hw hne before _,
                hlast, Option.some_or, List.filter_cons_of_neg (by simp [hrange])]
              exact hrest _ _

/-- **The lengths that are left**: in a converted stylesheet those are found whose numbers are out
of range, and no others. -/
theorem found_pxToRpx (a : Binary64) (css : Text) :
    found pixelLength (pxToRpx a css) = (found pixelLength css).filter (!inRange ·) :=
  map_found_replaceFrom a none 0 0 css

/-- What is found are numerals: one whose number is not in range is out of range, not malformed. -/
lemma inRange_eq_false_iff (h : number ∈ found pixelLength t) :
    inRange number = false ↔ Binary64.read? number = .error .outOfRange := by
  obtain ⟨hit, hhit, rfl⟩ := List.mem_map.1 h
  obtain ⟨before, u, hfound⟩ := Search.exists_of_mem_hitsFrom hhit
  obtain ⟨-, hnumeral, -⟩ := pixelLength_eq_some.1 hfound
  have hread := hnumeral.read?_ne_malformed
  rw [inRange]
  generalize Binary64.read? hit.found = r at hread ⊢
  rcases r with (_ | _) | x
  · exact absurd rfl hread
  · exact iff_of_true rfl rfl
  · exact iff_of_false (by rintro ⟨⟩) (by rintro ⟨⟩)

/-- **A stylesheet is converted once.** A second conversion, with whatever factor, changes nothing,
for the lengths that the first leaves are those whose numbers are out of range. And the first
changes nothing but the lengths it finds, each of which is a numeral and its unit. -/
theorem pxToRpx_pxToRpx (a b : Binary64) (css : Text) :
    pxToRpx b (pxToRpx a css) = pxToRpx a css
      ∧ (∀ number, number ∈ found pixelLength (pxToRpx a css)
          ↔ number ∈ found pixelLength css ∧ Binary64.read? number = .error .outOfRange)
      ∧ ∃ stretches rest,
        Search.Stretch.toEdits 0 stretches
            = (Search.hits pixelLength css).map (Search.editOf (responsiveLength a))
          ∧ stretches.map (·.old) = (found pixelLength css).map (· ++ ("px" : Text))
          ∧ Search.Stretch.source stretches rest = css
          ∧ Search.Stretch.target stretches rest = pxToRpx a css := by
  refine ⟨?_, fun number => ?_, ?_⟩
  · have hleft : ∀ number ∈ found pixelLength (pxToRpx a css),
        responsiveLength b number = number ++ "px" := fun number hmem => by
      rw [found_pxToRpx, List.mem_filter, Bool.not_eq_true'] at hmem
      exact responsiveLength_of_not_inRange hmem.2 b
    rw [pxToRpx, Search.replace_congr hleft]
    exact Search.replace_eq_self (fun _ _ _ _ h =>
      ⟨(pixelLength_within h).1, (take_of_pixelLength h).symm⟩) _
  · rw [found_pxToRpx, List.mem_filter, Bool.not_eq_true']
    exact and_congr_right inRange_eq_false_iff
  · obtain ⟨stretches, rest, hedits, hsource, htarget⟩ :=
      Search.exists_stretches_replace (fun _ _ _ _ h => pixelLength_within h) (responsiveLength a)
        css
    exact ⟨stretches, rest, hedits,
      Search.map_old_eq (fun _ _ _ _ h => take_of_pixelLength h) hedits hsource, hsource, htarget⟩

-- A length that another runs into is none, nor is one that a word runs on from.
example : found pixelLength "1px.5px 2.5px a3px 4pxx" = ["1", "2.5"] := by decide

end Stylesheet

end MiniProgram
