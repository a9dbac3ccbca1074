import Mathlib.Data.List.TakeWhile
import MiniProgram.Proofs.Text.Pieces
import MiniProgram.Text.Search

/-!
Words, white space and runs of bytes at the head of a text, and where a search comes to.

* `Byte.ne_of_class`, `Byte.isQuote_eq_false`: telling bytes apart by their classes.
* `takeWhile_append_cons`, `dropWhile_append_cons`: a run ends at the first byte outside its class.
* `afterWord?_eq_some`: a word is found where it stands and may start.
* `skipSpace_append_cons`, `exists_blank_append`: a text is its leading white space and the rest.
* `Search.Takes`: a recogniser by the grammar of what it takes.
* `Search.hitsFrom_cons_of_none`, `Search.hitsFrom_cons_of_some`: a search at one byte, and with
  them those of a replacement.
* `Search.mem_hitsFrom_cons`: where a match comes from.
* `Search.hitsFrom_eq_nil_congr`, `Search.map_found_hitsFrom`: two recognisers that find the same.
-/

namespace MiniProgram

namespace Byte

variable {p : UInt8 → Bool} {b c : UInt8}

/-- A byte of a class is no byte outside it. -/
lemma ne_of_class (hb : p b = true) (hc : p c = false) : b ≠ c := by
  rintro rfl
  rw [hb] at hc
  cases hc

lemma eq_of_isQuote (h : isQuote b = true) : b = singleQuote ∨ b = doubleQuote := by
  simpa [isQuote] using h

/-- A byte of a class that holds neither of the straight quotes is no quote. -/
lemma isQuote_eq_false (hsingle : p singleQuote = false) (hdouble : p doubleQuote = false)
    (h : p b = true) : isQuote b = false := by
  simp [isQuote, ne_of_class h hsingle, ne_of_class h hdouble]

end Byte

namespace Text

variable {before : Option UInt8} {t ws rest word : Text} {b : UInt8}

/-! ### Runs -/

/-- What holds of every byte of a text is decided by the bytes of the text, one by one. -/
instance decidableForallMem (p : UInt8 → Prop) [DecidablePred p] (t : Text) :
    Decidable (∀ b ∈ t, p b) := List.decidableBAll p t

lemma takeWhile_append_cons {p : UInt8 → Bool} {run : Text} (hrun : ∀ c ∈ run, p c = true)
    (hb : p b = false) (rest : Text) : (run ++ b :: rest).takeWhile p = run := by
  rw [List.takeWhile_append_of_pos hrun, List.takeWhile_cons_of_neg (by simp [hb]),
    List.append_nil]

lemma dropWhile_append_cons {p : UInt8 → Bool} {run : Text} (hrun : ∀ c ∈ run, p c = true)
    (hb : p b = false) (rest : Text) : (run ++ b :: rest).dropWhile p = b :: rest := by
  rw [List.dropWhile_append_of_pos hrun, List.dropWhile_cons_of_neg (by simp [hb])]

/-- Where a run is left off, it has been taken whole. -/
lemma exists_run_of_dropWhile_eq_cons {p : UInt8 → Bool} (h : t.dropWhile p = b :: rest) :
    ∃ run, (∀ c ∈ run, p c = true) ∧ p b = false ∧ t = run ++ b :: rest := by
  refine ⟨t.takeWhile p, fun c hc => List.mem_takeWhile_imp hc, ?_, ?_⟩
  · have hnot := List.head?_dropWhile_not p t
    rwa [h] at hnot
  · rw [← h, List.takeWhile_append_dropWhile]

/-- A text without a byte, as a run of the other bytes. -/
lemma forall_ne_of_not_mem (h : b ∉ t) : ∀ c ∈ t, decide (c ≠ b) = true := by
  intro c hc
  rw [decide_eq_true_eq]
  rintro rfl
  exact h hc

/-- A run and the byte it ends at are determined by the text. -/
lemma append_cons_inj {p : UInt8 → Bool} {run run' : Text} {b' : UInt8} {rest' : Text}
    (hrun : ∀ c ∈ run, p c = true) (hrun' : ∀ c ∈ run', p c = true) (hb : p b = false)
    (hb' : p b' = false) (h : run ++ b :: rest = run' ++ b' :: rest') :
    run = run' ∧ b :: rest = b' :: rest' := by
  constructor
  · rw [← takeWhile_append_cons hrun hb rest, h, takeWhile_append_cons hrun' hb']
  · rw [← dropWhile_append_cons hrun hb rest, h, dropWhile_append_cons hrun' hb']

/-- The end of a text in two parts is an end of the second, or the second after an end of the
first. -/
lemma suffix_append_cases {w t u : Text} (h : w <:+ t ++ u) :
    w <:+ u ∨ ∃ t', t' <:+ t ∧ w = t' ++ u := by
  obtain ⟨v, hv⟩ := h
  rcases List.append_eq_append_iff.1 hv with ⟨t', ht, hw⟩ | ⟨u', -, hu⟩
  · exact Or.inr ⟨t', ⟨v, ht.symm⟩, hw⟩
  · exact Or.inl ⟨u', hu.symm⟩

/-! ### Words -/

/-- A word that stands before a byte it does not hold ends before that byte. -/
lemma prefix_of_prefix_append_cons (h : word <+: t ++ b :: rest) (hb : b ∉ word) : word <+: t := by
  have hlonger : t ++ [b] <+: t ++ b :: rest := ⟨rest, by simp⟩
  rcases List.prefix_or_prefix_of_prefix h hlonger with h | h
  · rcases List.prefix_concat_iff.1 h with rfl | h
    · exact absurd (by simp) hb
    · exact h
  · exact absurd (h.subset (by simp)) hb

lemma afterWord?_eq_some :
    afterWord? word before t = some rest ↔ atWordStart before = true ∧ t = word ++ rest := by
  rw [afterWord?]
  split
  · rename_i h
    simp [h, after?_eq_some]
  · rename_i h
    simp [h]

lemma atWordEnd_append_cons (hb : Byte.isWord b = false) (t rest : Text) :
    atWordEnd (t ++ b :: rest) = atWordEnd t := by
  cases t with
  | nil => simp [atWordEnd, hb]
  | cons c t => rfl

/-! ### White space -/

/-- A text of white space. -/
def Blank (t : Text) : Prop := ∀ b ∈ t, Byte.isSpace b = true

lemma blank_nil : Blank [] := fun _ h => nomatch h

lemma skipSpace_append_cons (h : Blank ws) (hb : Byte.isSpace b = false) (t : Text) :
    skipSpace (ws ++ b :: t) = b :: t :=
  dropWhile_append_cons h hb t

lemma skipSpace_cons (hb : Byte.isSpace b = false) (t : Text) : skipSpace (b :: t) = b :: t :=
  skipSpace_append_cons blank_nil hb t

lemma skipSpace_of_head? (h : t.head? = some b) (hb : Byte.isSpace b = false) :
    skipSpace t = t := by
  cases t with
  | nil => cases h
  | cons c t =>
      obtain rfl : c = b := by simpa using h
      exact skipSpace_cons hb t

/-- A text is its leading white space and the rest. -/
lemma exists_blank_append (t : Text) : ∃ ws, Blank ws ∧ t = ws ++ skipSpace t :=
  ⟨t.takeWhile Byte.isSpace, fun _ hb => List.mem_takeWhile_imp hb,
    List.takeWhile_append_dropWhile.symm⟩

end Text

namespace Search

variable {α : Type} {r : Recognizer α}

/-- A recogniser takes the texts of a grammar, wherever a word may start and whatever follows. -/
def Takes (r : Recognizer α) (grammar : Text → α → Prop) : Prop :=
  ∀ before t n a, r before t = some (n, a) ↔ Text.atWordStart before = true
    ∧ ∃ text rest, t = text ++ rest ∧ n = text.length ∧ grammar text a

/-- What is taken is the beginning of the text. -/
lemma Takes.iff_take {grammar : Text → α → Prop} (h : Takes r grammar) {before : Option UInt8}
    {t : Text} {n : Nat} {a : α} :
    r before t = some (n, a)
      ↔ Text.atWordStart before = true ∧ n ≤ t.length ∧ grammar (t.take n) a := by
  rw [h before t n a]
  refine and_congr_right fun _ => ⟨?_, ?_⟩
  · rintro ⟨text, rest, rfl, rfl, hgrammar⟩
    rw [List.take_left]
    exact ⟨by simp, hgrammar⟩
  · rintro ⟨hn, hgrammar⟩
    exact ⟨t.take n, t.drop n, (List.take_append_drop n t).symm, by simp [hn], hgrammar⟩

/-! ### One byte -/

section OneByte

variable {before : Option UInt8} {position skip n : Nat} {b : UInt8} {t : Text} {a : α}

@[simp] lemma hitsFrom_nil (r : Recognizer α) (before : Option UInt8) (position skip : Nat) :
    hitsFrom r before position skip [] = [] := by
  rw [hitsFrom]

/-- A byte of a match already found is passed over. -/
@[simp] lemma hitsFrom_succ_cons (r : Recognizer α) (before : Option UInt8) (position skip : Nat)
    (b : UInt8) (t : Text) :
    hitsFrom r before position (skip + 1) (b :: t)
      = hitsFrom r (some b) (position + 1) skip t := by
  rw [hitsFrom]

/-- So is a byte at which the pattern is not recognised. -/
lemma hitsFrom_cons_of_none (h : r before (b :: t) = none) :
    hitsFrom r before position 0 (b :: t) = hitsFrom r (some b) (position + 1) 0 t := by
  rw [hitsFrom, h]

/-- Where the pattern is recognised there is a match, and the search goes on behind it. -/
lemma hitsFrom_cons_of_some (h : r before (b :: t) = some (n, a)) :
    hitsFrom r before position 0 (b :: t)
      = ⟨position, n, a⟩ :: hitsFrom r (some b) (position + 1) (n - 1) t := by
  rw [hitsFrom, h]

variable {f : α → Text}

@[simp] lemma replaceFrom_nil (r : Recognizer α) (f : α → Text) (before : Option UInt8)
    (skip : Nat) : replaceFrom r f before skip [] = [] := by
  rw [replaceFrom]

/-- A byte of a match already replaced is dropped. -/
@[simp] lemma replaceFrom_succ_cons (r : Recognizer α) (f : α → Text) (before : Option UInt8)
    (skip : Nat) (b : UInt8) (t : Text) :
    replaceFrom r f before (skip + 1) (b :: t) = replaceFrom r f (some b) skip t := by
  rw [replaceFrom]

/-- A byte at which the pattern is not recognised is kept. -/
lemma replaceFrom_cons_of_none (h : r before (b :: t) = none) :
    replaceFrom r f before 0 (b :: t) = b :: replaceFrom r f (some b) 0 t := by
  rw [replaceFrom, h]

/-- A match is replaced by what it stands for. -/
lemma replaceFrom_cons_of_some (h : r before (b :: t) = some (n, a)) :
    replaceFrom r f before 0 (b :: t) = f a ++ replaceFrom r f (some b) (n - 1) t := by
  rw [replaceFrom, h]

/-- A match is recognised at the head of a text, or it is one of the search behind the first
byte. -/
lemma mem_hitsFrom_cons {hit : Hit α} (h : hit ∈ hitsFrom r before position skip (b :: t)) :
    (skip = 0 ∧ hit.start = position ∧ r before (b :: t) = some (hit.length, hit.found))
      ∨ ∃ skip', skip ≤ skip' + 1 ∧ hit ∈ hitsFrom r (some b) (position + 1) skip' t := by
  cases skip with
  | succ skip => exact Or.inr ⟨skip, le_rfl, by rwa [hitsFrom_succ_cons] at h⟩
  | zero =>
      cases hfound : r before (b :: t) with
      | none =>
          rw [hitsFrom_cons_of_none hfound] at h
          exact Or.inr ⟨0, Nat.zero_le _, h⟩
      | some found =>
          rw [hitsFrom_cons_of_some hfound] at h
          rcases List.mem_cons.1 h with rfl | h
          · exact Or.inl ⟨rfl, rfl, rfl⟩
          · exact Or.inr ⟨_, Nat.zero_le _, h⟩

end OneByte

/-! ### A whole search -/

/-- What a search finds was recognised somewhere. -/
lemma exists_of_mem_hitsFrom {before : Option UInt8} {position skip : Nat} {t : Text} {hit : Hit α}
    (h : hit ∈ hitsFrom r before position skip t) :
    ∃ before' t', r before' t' = some (hit.length, hit.found) := by
  induction t generalizing before position skip with
  | nil => rw [hitsFrom_nil] at h; cases h
  | cons b t ih =>
      rcases mem_hitsFrom_cons h with ⟨-, -, hfound⟩ | ⟨skip', -, h⟩
      · exact ⟨before, b :: t, hfound⟩
      · exact ih h

/-- What a search finds starts behind what it skips. -/
lemma le_start_of_mem_hitsFrom {before : Option UInt8} {position skip : Nat} {t : Text}
    {hit : Hit α} (h : hit ∈ hitsFrom r before position skip t) : position + skip ≤ hit.start := by
  induction t generalizing before position skip with
  | nil => rw [hitsFrom_nil] at h; cases h
  | cons b t ih =>
      rcases mem_hitsFrom_cons h with ⟨rfl, hstart, -⟩ | ⟨skip', hle, h⟩
      · exact hstart.ge
      · have := ih h
        omega

/-- Matches are found from left to right and do not overlap. -/
lemma pairwise_hitsFrom (r : Recognizer α) (before : Option UInt8) (position skip : Nat)
    (t : Text) :
    (hitsFrom r before position skip t).Pairwise fun a b => a.start + a.length ≤ b.start := by
  induction t generalizing before position skip with
  | nil => rw [hitsFrom_nil]; exact .nil
  | cons b t ih =>
      cases skip with
      | succ skip => rw [hitsFrom_succ_cons]; exact ih _ _ _
      | zero =>
          cases hfound : r before (b :: t) with
          | none => rw [hitsFrom_cons_of_none hfound]; exact ih _ _ _
          | some found =>
              rw [hitsFrom_cons_of_some hfound]
              refine List.pairwise_cons.2 ⟨fun hit hhit => ?_, ih _ _ _⟩
              have := le_start_of_mem_hitsFrom hhit
              dsimp only
              omega

/-- Where one recogniser finds something the other does: the one search finds nothing exactly if the
other does. -/
lemma hitsFrom_eq_nil_congr {β : Type} {r' : Recognizer β}
    (h : ∀ before t, (r before t).isSome = (r' before t).isSome) (before : Option UInt8)
    (position : Nat) (t : Text) :
    hitsFrom r before position 0 t = [] ↔ hitsFrom r' before position 0 t = [] := by
  induction t generalizing before position with
  | nil => simp
  | cons b t ih =>
      have hfound := h before (b :: t)
      cases hr : r before (b :: t) with
      | none =>
          rw [hr, Option.isSome_none, eq_comm, Option.isSome_eq_false_iff,
            Option.isNone_iff_eq_none] at hfound
          rw [hitsFrom_cons_of_none hr, hitsFrom_cons_of_none hfound]
          exact ih _ _
      | some found =>
          rw [hr, Option.isSome_some, eq_comm, Option.isSome_iff_exists] at hfound
          obtain ⟨found', hr'⟩ := hfound
          rw [hitsFrom_cons_of_some hr, hitsFrom_cons_of_some hr']
          exact iff_of_false (List.cons_ne_nil _ _) (List.cons_ne_nil _ _)

/-- A recogniser that runs on over bytes at which nothing is recognised finds the same as one that
does not. -/
lemma map_found_hitsFrom {r' : Recognizer α} (stray : UInt8 → Prop)
    (hstray : ∀ b, stray b → ∀ before t, r before (b :: t) = none)
    (hnone : ∀ before t, r before t = none → r' before t = none)
    (hsome : ∀ before t n a, r before t = some (n, a) →
      0 < n ∧ ∃ k, r' before t = some (n + k, a) ∧ ∀ b ∈ (t.drop n).take k, stray b)
    (before : Option UInt8) (position skip k : Nat) {t : Text}
    (h : ∀ b ∈ (t.drop skip).take k, stray b) :
    (hitsFrom r' before position (skip + k) t).map (·.found)
      = (hitsFrom r before position skip t).map (·.found) := by
  induction t generalizing before position skip k with
  | nil => rw [hitsFrom_nil, hitsFrom_nil]
  | cons b t ih =>
      cases skip with
      | succ skip =>
          rw [Nat.succ_add, hitsFrom_succ_cons, hitsFrom_succ_cons]
          exact ih _ _ _ _ h
      | zero =>
          rw [Nat.zero_add]
          cases k with
          | succ k =>
              rw [List.drop_zero, List.take_succ_cons] at h
              obtain ⟨hb, h⟩ := List.forall_mem_cons.1 h
              rw [hitsFrom_succ_cons, hitsFrom_cons_of_none (hstray b hb before t)]
              have := ih (some b) (position + 1) 0 k h
              rwa [Nat.zero_add] at this
          | zero =>
              cases hr : r before (b :: t) with
              | none =>
                  rw [hitsFrom_cons_of_none hr, hitsFrom_cons_of_none (hnone _ _ hr)]
                  exact ih _ _ 0 0 (by simp)
              | some found =>
                  obtain ⟨n, a⟩ := found
                  -- the other match runs on, over bytes that the search would have passed anyway
                  obtain ⟨hn, k, hr', hrun⟩ := hsome _ _ _ _ hr
                  obtain ⟨n, rfl⟩ := Nat.exists_eq_succ_of_ne_zero hn.ne'
                  rw [hitsFrom_cons_of_some hr, hitsFrom_cons_of_some hr', List.map_cons,
                    List.map_cons, Nat.succ_add, Nat.succ_sub_one, Nat.succ_sub_one,
                    ih _ _ _ _ hrun]

/-- Inside a match already replaced nothing is kept. -/
lemma replaceFrom_skip (f : α → Text) (before : Option UInt8) (part t : Text) :
    replaceFrom r f before part.length (part ++ t)
      = replaceFrom r f (part.getLast?.or before) 0 t := by
  induction part generalizing before with
  | nil => rfl
  | cons b part ih =>
      rw [List.length_cons, List.cons_append, replaceFrom_succ_cons, ih]
      cases part with
      | nil => rfl
      | cons c part => rfl

/-- A match that takes a part of the text is replaced by what it stands for. -/
lemma replaceFrom_append_of_some {f : α → Text} {before : Option UInt8} {part t : Text} {a : α}
    (hpart : part ≠ []) (h : r before (part ++ t) = some (part.length, a)) :
    replaceFrom r f before 0 (part ++ t) = f a ++ replaceFrom r f part.getLast? 0 t := by
  obtain ⟨b, part, rfl⟩ := List.exists_cons_of_ne_nil hpart
  rw [List.cons_append] at h
  rw [List.cons_append, replaceFrom_cons_of_some h, List.length_cons, Nat.add_sub_cancel,
    replaceFrom_skip]
  cases part with
  | nil => rfl
  | cons c part => rfl

end Search

end MiniProgram
