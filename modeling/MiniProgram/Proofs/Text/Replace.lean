import MiniProgram.Proofs.Text.Parts
import MiniProgram.Proofs.Text.Splice

/-!
Replacing what a search finds.

What is put in the place of a match depends on the match alone, so a text is left as it is where
each match is replaced by itself, and two replacements that agree on what is found come to the same.
Where a recogniser never runs over a byte of some class, a text may be cut at such a byte.

* `Search.replace_eq_self`, `Search.replace_congr`: what a replacement depends on.
* `Search.length_replace`: how much longer a text becomes.
* `Search.hitsFrom_append_of_some`: a part that is a match.
* `Search.exists_stretches_replace`, `Search.map_old_eq`: **a replacement as edits**, which keep
  what lies between the matches.
* `Search.StopsAt`: recognisers that never run over a byte of a class.
* `Search.StopsAt.found_append_cons`, `Search.StopsAt.replace_append_cons`: **a text cut at such a
  byte.**
* `Search.StopsAt.append_part`: a text cut around a part.
-/

namespace MiniProgram

namespace Search

variable {α : Type} {r : Recognizer α} {f g : α → Text} {before : Option UInt8}
  {position skip n k : ℕ} {t : Text} {a : α}

/-- What a search of a text finds, from left to right. -/
def found (r : Recognizer α) (t : Text) : List α := (hits r t).map (·.found)

/-! ### What a replacement depends on -/

/-- Where every match is replaced by itself, nothing changes. -/
lemma replaceFrom_eq_drop
    (h : ∀ before t n a, r before t = some (n, a) → 0 < n ∧ f a = t.take n) :
    replaceFrom r f before skip t = t.drop skip := by
  induction t generalizing before skip with
  | nil => simp
  | cons b t ih =>
      cases skip with
      | succ skip => rw [replaceFrom_succ_cons, ih, List.drop_succ_cons]
      | zero =>
          cases hfound : r before (b :: t) with
          | none => rw [replaceFrom_cons_of_none hfound, ih, List.drop_zero, List.drop_zero]
          | some found =>
              obtain ⟨n, a⟩ := found
              obtain ⟨hn, hself⟩ := h _ _ _ _ hfound
              obtain ⟨n, rfl⟩ := Nat.exists_eq_succ_of_ne_zero hn.ne'
              rw [replaceFrom_cons_of_some hfound, ih, hself, Nat.succ_sub_one, List.take_succ_cons,
                List.cons_append, List.take_append_drop, List.drop_zero]

lemma replace_eq_self
    (h : ∀ before t n a, r before t = some (n, a) → 0 < n ∧ f a = t.take n) (t : Text) :
    replace r f t = t := replaceFrom_eq_drop h

/-- A replacement depends only on what is put in the place of what is found. -/
lemma replaceFrom_congr (h : ∀ hit ∈ hitsFrom r before position skip t, f hit.found = g hit.found) :
    replaceFrom r f before skip t = replaceFrom r g before skip t := by
  induction t generalizing before position skip with
  | nil => rw [replaceFrom_nil, replaceFrom_nil]
  | cons b t ih =>
      cases skip with
      | succ skip =>
          rw [hitsFrom_succ_cons] at h
          rw [replaceFrom_succ_cons, replaceFrom_succ_cons, ih h]
      | zero =>
          cases hfound : r before (b :: t) with
          | none =>
              rw [hitsFrom_cons_of_none hfound] at h
              rw [replaceFrom_cons_of_none hfound, replaceFrom_cons_of_none hfound, ih h]
          | some found =>
              rw [hitsFrom_cons_of_some hfound, List.forall_mem_cons] at h
              rw [replaceFrom_cons_of_some hfound, replaceFrom_cons_of_some hfound, ← h.1, ih h.2]

lemma replace_congr (h : ∀ a ∈ found r t, f a = g a) : replace r f t = replace r g t :=
  replaceFrom_congr (List.forall_mem_map.1 h)

/-- Where every match becomes longer by the same number of bytes, the text does so once for each
match. -/
lemma length_replaceFrom (hlength : ∀ before t n a, r before t = some (n, a) →
      0 < n ∧ n ≤ t.length ∧ (f a).length = n + k) (hskip : skip ≤ t.length) :
    (replaceFrom r f before skip t).length + skip
      = t.length + (hitsFrom r before position skip t).length * k := by
  induction t generalizing before position skip with
  | nil =>
      obtain rfl : skip = 0 := by simpa using hskip
      simp
  | cons b t ih =>
      cases skip with
      | succ skip =>
          rw [List.length_cons, Nat.succ_le_succ_iff] at hskip
          rw [replaceFrom_succ_cons, hitsFrom_succ_cons, List.length_cons, ← Nat.add_assoc,
            @ih (some b) (position + 1) skip hskip, Nat.add_right_comm]
      | zero =>
          cases hfound : r before (b :: t) with
          | none =>
              have := @ih (some b) (position + 1) 0 (Nat.zero_le _)
              rw [replaceFrom_cons_of_none hfound, hitsFrom_cons_of_none hfound, List.length_cons,
                List.length_cons]
              omega
          | some found =>
              obtain ⟨n, a⟩ := found
              obtain ⟨hn, hle, hlonger⟩ := hlength _ _ _ _ hfound
              rw [List.length_cons] at hle
              have := @ih (some b) (position + 1) (n - 1) (by omega)
              rw [replaceFrom_cons_of_some hfound, hitsFrom_cons_of_some hfound, List.length_append,
                hlonger, List.length_cons, List.length_cons, Nat.succ_mul]
              omega

lemma length_replace (hlength : ∀ before t n a, r before t = some (n, a) →
      0 < n ∧ n ≤ t.length ∧ (f a).length = n + k) (t : Text) :
    (replace r f t).length = t.length + (found r t).length * k := by
  rw [found, List.length_map]
  exact length_replaceFrom hlength (Nat.zero_le t.length)

/-! ### Parts -/

/-- A match that takes a part of the text is found, and the search goes on behind it. -/
lemma hitsFrom_append_of_some {part : Text} (hpart : part ≠ [])
    (h : r before (part ++ t) = some (part.length, a)) (position : ℕ) :
    hitsFrom r before position 0 (part ++ t)
      = ⟨position, part.length, a⟩
        :: hitsFrom r part.getLast? (position + part.length) 0 t := by
  obtain ⟨b, part, rfl⟩ := List.exists_cons_of_ne_nil hpart
  have hskip := hitsFrom_skip r (some b) (position + 1) 0 part t
  rw [Nat.add_zero part.length, ← getLast?_cons_or b part none, Option.or_none,
    Nat.add_right_comm] at hskip
  rw [List.cons_append] at h
  rw [List.cons_append, hitsFrom_cons_of_some h, List.length_cons, Nat.add_sub_cancel,
    ← Nat.add_assoc, hskip]

/-! ### Replacing by edits -/

/-- The edit that puts something in the place of a match. -/
def editOf (f : α → Text) (hit : Hit α) : ℕ × ℕ × Text := (hit.start, hit.length, f hit.found)

section Edits

variable (hwithin : ∀ before t n a, r before t = some (n, a) → 0 < n ∧ n ≤ t.length)
include hwithin

/-- Replacing the matches is making one edit for each of them. -/
lemma splice_hitsFrom (f : α → Text) (hskip : skip ≤ t.length) :
    splice position ((hitsFrom r before position skip t).map (editOf f)) t
      = t.take skip ++ replaceFrom r f before skip t := by
  induction t generalizing before position skip with
  | nil =>
      obtain rfl : skip = 0 := by simpa using hskip
      rfl
  | cons b t ih =>
      have hbehind : ∀ skip, ∀ e ∈ (hitsFrom r (some b) (position + 1) skip t).map (editOf f),
          position + 1 + skip ≤ e.1 := by
        intro skip e he
        obtain ⟨hit, hhit, rfl⟩ := List.mem_map.1 he
        exact le_start_of_mem_hitsFrom hhit
      have hkeep : ∀ skip, splice position
          ((hitsFrom r (some b) (position + 1) skip t).map (editOf f)) (b :: t)
            = b :: splice (position + 1)
              ((hitsFrom r (some b) (position + 1) skip t).map (editOf f)) t := fun skip =>
        splice_eq_take_append (fun e he => (Nat.le_add_right _ _).trans (hbehind skip e he))
          (b :: t)
      cases skip with
      | succ skip =>
          rw [hitsFrom_succ_cons, replaceFrom_succ_cons, hkeep, ih (by simpa using hskip)]
          rfl
      | zero =>
          cases hfound : r before (b :: t) with
          | none =>
              rw [hitsFrom_cons_of_none hfound, replaceFrom_cons_of_none hfound, hkeep,
                ih (Nat.zero_le _)]
              rfl
          | some found =>
              obtain ⟨n, a⟩ := found
              obtain ⟨hn, hle⟩ := hwithin _ _ _ _ hfound
              obtain ⟨n, rfl⟩ := Nat.exists_eq_succ_of_ne_zero hn.ne'
              -- what the edits behind the match make of the text from the second byte on
              have hrest := @ih (some b) (position + 1) n (by simpa using hle)
              rw [splice_eq_take_append (hbehind n)] at hrest
              have hend : position + n.succ = position + 1 + n := by omega
              rw [hitsFrom_cons_of_some hfound, replaceFrom_cons_of_some hfound, Nat.succ_sub_one,
                List.map_cons, editOf, splice, Nat.sub_self, Nat.zero_add, List.drop_succ_cons,
                hend, List.append_cancel_left hrest]
              rfl

/-- **A replacement as edits.** A text is made of its matches and of what lies between them; the
replacement puts something in the place of each match and keeps the rest. -/
theorem exists_stretches_replace (f : α → Text) (t : Text) :
    ∃ stretches rest, Stretch.toEdits 0 stretches = (hits r t).map (editOf f)
      ∧ Stretch.source stretches rest = t ∧ Stretch.target stretches rest = replace r f t := by
  have hreplace : splice 0 ((hits r t).map (editOf f)) t = replace r f t :=
    splice_hitsFrom hwithin f (Nat.zero_le t.length)
  rw [← hreplace]
  refine exists_stretches ?_ (fun _ _ => Nat.zero_le _) ?_
  · exact List.pairwise_map.2 (pairwise_hitsFrom r none 0 0 t)
  · intro e he
    obtain ⟨hit, hhit, rfl⟩ := List.mem_map.1 he
    obtain ⟨pre, u, rfl, hstart, hfound⟩ := exists_split_of_mem_hitsFrom hhit
    have hle := (hwithin _ _ _ _ hfound).2
    simp only [editOf, hstart, List.length_append]
    omega

end Edits

/-- What an edit for a match takes out of the text is what was recognised there. -/
lemma map_old_eq {old : α → Text} {stretches : List (Stretch UInt8)} {rest : Text}
    (hold : ∀ before t n a, r before t = some (n, a) → t.take n = old a)
    (hedits : Stretch.toEdits 0 stretches = (hits r t).map (editOf f))
    (hsource : Stretch.source stretches rest = t) :
    stretches.map (·.old) = (found r t).map old := by
  have hmap := Stretch.map_old [] stretches rest
  rw [List.length_nil, List.nil_append, hedits, hsource] at hmap
  rw [hmap, found, List.map_map, List.map_map]
  refine List.map_congr_left fun hit hhit => ?_
  obtain ⟨pre, u, rfl, hstart, hfound⟩ := exists_split_of_mem_hitsFrom hhit
  have hdrop : (pre ++ u).drop hit.start = u := List.drop_left' (by simpa using hstart.symm)
  simp only [Function.comp_apply, editOf, hdrop]
  exact hold _ _ _ _ hfound

/-! ### Cutting where no match runs on -/

/-- A recogniser that looks at nothing before a position, and never runs over a byte of a class. -/
structure StopsAt (r : Recognizer α) (p : UInt8 → Bool) : Prop where
  within : ∀ {before t n a}, r before t = some (n, a) → 0 < n ∧ n ≤ t.length
  ignores : ∀ before before' t, r before t = r before' t
  stop : ∀ {b}, p b = true → ∀ before t u, r before (t ++ b :: u) = r before t

namespace StopsAt

variable {p : UInt8 → Bool} {b : UInt8} (h : StopsAt r p)
include h

/-- Nothing is recognised at such a byte. -/
lemma eq_none_of_stop (hb : p b = true) (before : Option UInt8) (u : Text) :
    r before (b :: u) = none := by
  rw [← List.nil_append (b :: u), h.stop hb, Option.eq_none_iff_forall_ne_some]
  rintro ⟨n, a⟩ hfound
  obtain ⟨hn, hle⟩ := h.within hfound
  exact absurd hn (Nat.not_lt.2 hle)

lemma hitsFrom_eq (before before' : Option UInt8) (position skip : ℕ) (t : Text) :
    hitsFrom r before position skip t = hitsFrom r before' position skip t := by
  cases t with
  | nil => rw [hitsFrom_nil, hitsFrom_nil]
  | cons b t =>
      cases skip with
      | succ skip => rw [hitsFrom_succ_cons, hitsFrom_succ_cons]
      | zero => rw [hitsFrom, hitsFrom, h.ignores before before']

lemma replaceFrom_eq (f : α → Text) (before before' : Option UInt8) (skip : ℕ) (t : Text) :
    replaceFrom r f before skip t = replaceFrom r f before' skip t := by
  cases t with
  | nil => rw [replaceFrom_nil, replaceFrom_nil]
  | cons b t =>
      cases skip with
      | succ skip => rw [replaceFrom_succ_cons, replaceFrom_succ_cons]
      | zero => rw [replaceFrom, replaceFrom, h.ignores before before']

/-- A search goes on behind the byte as at the start of a text. -/
lemma hitsFrom_append_cons (hb : p b = true) (hskip : skip ≤ t.length) (u : Text) :
    hitsFrom r before position skip (t ++ b :: u)
      = hitsFrom r before position skip t
        ++ hitsFrom r none (position + t.length + 1) 0 u := by
  induction t generalizing before position skip with
  | nil =>
      obtain rfl : skip = 0 := by simpa using hskip
      rw [List.nil_append, hitsFrom_cons_of_none (h.eq_none_of_stop hb before u), hitsFrom_nil,
        List.nil_append]
      exact h.hitsFrom_eq _ _ _ _ _
  | cons c t ih =>
      have hend : position + (c :: t).length + 1 = position + 1 + t.length + 1 := by
        rw [List.length_cons]
        omega
      rw [hend]
      cases skip with
      | succ skip =>
          rw [List.cons_append, hitsFrom_succ_cons, hitsFrom_succ_cons]
          exact ih (by simpa using hskip)
      | zero =>
          -- no match runs over the byte, so what follows it is not looked at
          have hsame : r before (c :: (t ++ b :: u)) = r before (c :: t) :=
            h.stop hb before (c :: t) u
          cases hfound : r before (c :: t) with
          | none =>
              rw [List.cons_append, hitsFrom_cons_of_none (hsame.trans hfound),
                hitsFrom_cons_of_none hfound]
              exact ih (Nat.zero_le _)
          | some found =>
              have hle := (h.within hfound).2
              rw [List.length_cons] at hle
              rw [List.cons_append, hitsFrom_cons_of_some (hsame.trans hfound),
                hitsFrom_cons_of_some hfound, @ih (some c) (position + 1) (found.1 - 1) (by omega),
                List.cons_append]

/-- So does a replacement, which keeps the byte. -/
lemma replaceFrom_append_cons (hb : p b = true) (hskip : skip ≤ t.length) (f : α → Text)
    (u : Text) :
    replaceFrom r f before skip (t ++ b :: u)
      = replaceFrom r f before skip t ++ b :: replace r f u := by
  induction t generalizing before skip with
  | nil =>
      obtain rfl : skip = 0 := by simpa using hskip
      rw [List.nil_append, replaceFrom_cons_of_none (h.eq_none_of_stop hb before u),
        replaceFrom_nil, List.nil_append, replace, h.replaceFrom_eq f (some b) none]
  | cons c t ih =>
      cases skip with
      | succ skip =>
          rw [List.cons_append, replaceFrom_succ_cons, replaceFrom_succ_cons]
          exact ih (by simpa using hskip)
      | zero =>
          have hsame : r before (c :: (t ++ b :: u)) = r before (c :: t) :=
            h.stop hb before (c :: t) u
          cases hfound : r before (c :: t) with
          | none =>
              rw [List.cons_append, replaceFrom_cons_of_none (hsame.trans hfound),
                replaceFrom_cons_of_none hfound, ih (Nat.zero_le _), List.cons_append]
          | some found =>
              have hle := (h.within hfound).2
              rw [List.length_cons] at hle
              rw [List.cons_append, replaceFrom_cons_of_some (hsame.trans hfound),
                replaceFrom_cons_of_some hfound, @ih (some c) (found.1 - 1) (by omega),
                List.append_assoc]

/-- **A text cut at a byte**: what is found before it and what is found behind it. -/
theorem found_append_cons (hb : p b = true) (t u : Text) :
    found r (t ++ b :: u) = found r t ++ found r u := by
  have hshift := hitsFrom_shift r none 0 (0 + t.length + 1) 0 u
  rw [Nat.zero_add] at hshift
  rw [found, hits, h.hitsFrom_append_cons hb (Nat.zero_le _), hshift, List.map_append, List.map_map]
  rfl

theorem replace_append_cons (hb : p b = true) (f : α → Text) (t u : Text) :
    replace r f (t ++ b :: u) = replace r f t ++ b :: replace r f u :=
  h.replaceFrom_append_cons hb (Nat.zero_le _) f u

/-- A text cut before a part that begins with such a byte. -/
lemma append_of_head? {u : Text} (hu : u.head?.any p = true) (f : α → Text) (t : Text) :
    found r (t ++ u) = found r t ++ found r u
      ∧ replace r f (t ++ u) = replace r f t ++ replace r f u := by
  obtain ⟨b, hhead, hb⟩ := (Option.any_eq_true _ _).1 hu
  obtain ⟨u, rfl⟩ := List.head?_eq_some_iff.1 hhead
  have hfound := h.found_append_cons hb [] u
  have hreplace := h.replace_append_cons hb f [] u
  rw [List.nil_append] at hfound hreplace
  rw [h.found_append_cons hb, h.replace_append_cons hb, hfound, hreplace]
  exact ⟨rfl, rfl⟩

/-- A text cut behind a part that ends with such a byte. -/
lemma append_of_getLast? {t : Text} (ht : t.getLast?.any p = true) (f : α → Text) (u : Text) :
    found r (t ++ u) = found r t ++ found r u
      ∧ replace r f (t ++ u) = replace r f t ++ replace r f u := by
  obtain ⟨b, hlast, hb⟩ := (Option.any_eq_true _ _).1 ht
  obtain ⟨t, rfl⟩ := List.getLast?_eq_some_iff.1 hlast
  rw [List.append_assoc, List.singleton_append, h.found_append_cons hb, h.replace_append_cons hb,
    h.found_append_cons hb t [], h.replace_append_cons hb f t []]
  simp [found, hits, replace]

/-- **A text cut around a part** that begins and ends with such a byte. -/
theorem append_part {part : Text} (hfirst : part.head?.any p = true)
    (hlast : part.getLast?.any p = true) (f : α → Text) (t u : Text) :
    found r (t ++ (part ++ u)) = found r t ++ (found r part ++ found r u)
      ∧ replace r f (t ++ (part ++ u))
        = replace r f t ++ (replace r f part ++ replace r f u) := by
  have hhead : (part ++ u).head?.any p = true := by
    obtain ⟨b, hb, hp⟩ := (Option.any_eq_true _ _).1 hfirst
    rw [List.head?_append, hb]
    exact hp
  rw [(h.append_of_head? hhead f t).1, (h.append_of_head? hhead f t).2,
    (h.append_of_getLast? hlast f u).1, (h.append_of_getLast? hlast f u).2]
  exact ⟨rfl, rfl⟩

end StopsAt

end Search

end MiniProgram
