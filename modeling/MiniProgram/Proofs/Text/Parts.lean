import MiniProgram.Proofs.Text.Search

/-!
Searching a text part by part.

Where no match runs over a cut, the matches in a text are those in the part before the cut and those
in the part behind it. What stands before a part matters to a search only through whether a word may
start, and where the part stands only through the positions that are reported.

* `Search.exists_split_of_mem_hitsFrom`: where a match stands.
* `Search.hitsFrom_append`: a search in two parts.
* `Search.hitsFrom_congr`, `Search.hitsFrom_shift`: the same part behind something else, and
  elsewhere.
* `Search.hitsFrom_skip`, `Search.hitsFrom_pass`: a part inside a match, and a part without one.
* `Search.hits_append`, `Search.hits_part`: a text cut where a word may start, and one cut before
  and behind a part.
* `Search.hits_eq_append_cons`: a text cut around one of its matches.
-/

namespace MiniProgram

namespace Search

variable {α : Type} {r : Recognizer α} {grammar : Text → α → Prop} {before before' : Option UInt8}
  {position skip n : ℕ} {t u : Text} {a : α} {hit : Hit α}

/-! ### One match -/

lemma Takes.le_length (hr : Takes r grammar) (h : r before t = some (n, a)) : n ≤ t.length :=
  (hr.iff_take.1 h).2.1

/-- What is taken before a cut is taken whatever follows the cut. -/
lemma Takes.append_iff (hr : Takes r grammar) (h : n ≤ t.length) :
    r before (t ++ u) = some (n, a) ↔ r before t = some (n, a) := by
  have hlength : n ≤ (t ++ u).length := by
    rw [List.length_append]
    omega
  rw [hr.iff_take, hr.iff_take, List.take_append_of_le_length h]
  simp only [h, hlength, true_and]

lemma Takes.append (hr : Takes r grammar) (h : r before t = some (n, a)) (u : Text) :
    r before (t ++ u) = some (n, a) :=
  (hr.append_iff (hr.le_length h)).2 h

lemma Takes.congr (hr : Takes r grammar) (h : Text.atWordStart before = Text.atWordStart before')
    (t : Text) : r before t = r before' t := by
  refine Option.ext fun ⟨n, a⟩ => ?_
  rw [hr.iff_take, hr.iff_take, h]

/-- What stands before a text and before what follows its first byte. -/
lemma getLast?_cons_or (b : UInt8) (t : Text) (before : Option UInt8) :
    (b :: t).getLast?.or before = t.getLast?.or (some b) := by
  cases t with
  | nil => rfl
  | cons c t => rfl

/-! ### Where matches lie -/

/-- A match ends within the text. -/
lemma end_le_of_mem_hitsFrom (hr : Takes r grammar) (h : hit ∈ hitsFrom r before position skip t) :
    hit.start + hit.length ≤ position + t.length := by
  induction t generalizing before position skip with
  | nil => rw [hitsFrom_nil] at h; cases h
  | cons b t ih =>
      rcases mem_hitsFrom_cons h with ⟨-, hstart, hfound⟩ | ⟨skip', -, h⟩
      · have := hr.le_length hfound
        omega
      · have := ih h
        rw [List.length_cons]
        omega

/-- A match stands where its pattern is recognised. -/
lemma exists_split_of_mem_hitsFrom (h : hit ∈ hitsFrom r before position skip t) :
    ∃ pre u : Text, t = pre ++ u ∧ hit.start = position + pre.length
      ∧ r (pre.getLast?.or before) u = some (hit.length, hit.found) := by
  induction t generalizing before position skip with
  | nil => rw [hitsFrom_nil] at h; cases h
  | cons b t ih =>
      rcases mem_hitsFrom_cons h with ⟨-, hstart, hfound⟩ | ⟨skip', -, h⟩
      · exact ⟨[], b :: t, rfl, hstart, hfound⟩
      · obtain ⟨pre, u, rfl, hstart, hfound⟩ := ih h
        refine ⟨b :: pre, u, rfl, ?_, by rwa [getLast?_cons_or]⟩
        rw [hstart, List.length_cons]
        omega

/-- Of a part inside a match nothing is found. -/
lemma hitsFrom_skip (r : Recognizer α) (before : Option UInt8) (position k : ℕ) (part t : Text) :
    hitsFrom r before position (part.length + k) (part ++ t)
      = hitsFrom r (part.getLast?.or before) (position + part.length) k t := by
  induction part generalizing before position with
  | nil => simp
  | cons b part ih =>
      rw [List.length_cons, Nat.succ_add, List.cons_append, hitsFrom_succ_cons, ih,
        getLast?_cons_or]
      congr 1
      omega

/-- A part at none of whose bytes anything is recognised is passed over. -/
lemma hitsFrom_pass {part : Text}
    (h : ∀ w, w <:+ part → w ≠ [] → ∀ before, r before (w ++ t) = none) (before : Option UInt8)
    (position : ℕ) :
    hitsFrom r before position 0 (part ++ t)
      = hitsFrom r (part.getLast?.or before) (position + part.length) 0 t := by
  induction part generalizing before position with
  | nil => simp
  | cons b part ih =>
      have hnone := h (b :: part) (List.suffix_refl _) (by simp) before
      rw [List.cons_append] at hnone
      rw [List.cons_append, hitsFrom_cons_of_none hnone, getLast?_cons_or,
        ih fun w hw => h w (hw.trans (List.suffix_cons b part)), List.length_cons,
        Nat.add_right_comm, Nat.add_assoc]

/-! ### The same part elsewhere -/

lemma hitsFrom_congr (hr : Takes r grammar)
    (h : Text.atWordStart before = Text.atWordStart before') (position skip : ℕ) (t : Text) :
    hitsFrom r before position skip t = hitsFrom r before' position skip t := by
  cases t with
  | nil => rw [hitsFrom_nil, hitsFrom_nil]
  | cons b t =>
      cases skip with
      | succ skip => rw [hitsFrom_succ_cons, hitsFrom_succ_cons]
      | zero => rw [hitsFrom, hitsFrom, hr.congr h]

/-- A match elsewhere. -/
def shift (d : ℕ) (hit : Hit α) : Hit α := { hit with start := hit.start + d }

lemma shift_shift (d d' : ℕ) (hit : Hit α) : shift d (shift d' hit) = shift (d + d') hit := by
  rw [shift, shift, shift, Nat.add_assoc, Nat.add_comm d']

lemma hitsFrom_shift (r : Recognizer α) (before : Option UInt8) (position d skip : ℕ) (t : Text) :
    hitsFrom r before (position + d) skip t
      = (hitsFrom r before position skip t).map (shift d) := by
  induction t generalizing before position skip with
  | nil => rw [hitsFrom_nil, hitsFrom_nil, List.map_nil]
  | cons b t ih =>
      have ih := fun skip => ih (some b) (position + 1) skip
      rw [Nat.add_right_comm] at ih
      cases skip with
      | succ skip => rw [hitsFrom_succ_cons, hitsFrom_succ_cons, ih]
      | zero =>
          cases hfound : r before (b :: t) with
          | none => rw [hitsFrom_cons_of_none hfound, hitsFrom_cons_of_none hfound, ih]
          | some found =>
              rw [hitsFrom_cons_of_some hfound, hitsFrom_cons_of_some hfound, List.map_cons, ih,
                shift]

/-! ### Cuts -/

/-- **A search in two parts.** Where no match runs over the cut, the matches are those of the two
parts. -/
theorem hitsFrom_append (hr : Takes r grammar) (hskip : skip ≤ t.length)
    (h : ∀ hit ∈ hitsFrom r before position skip (t ++ u), hit.start < position + t.length →
      hit.start + hit.length ≤ position + t.length) :
    hitsFrom r before position skip (t ++ u)
      = hitsFrom r before position skip t
        ++ hitsFrom r (t.getLast?.or before) (position + t.length) 0 u := by
  induction t generalizing before position skip with
  | nil =>
      obtain rfl : skip = 0 := by simpa using hskip
      simp
  | cons b t ih =>
      have hend : position + 1 + t.length = position + (b :: t).length := by
        rw [List.length_cons]
        omega
      rw [getLast?_cons_or, ← hend]
      rw [← hend] at h
      rw [List.cons_append] at h ⊢
      cases skip with
      | succ skip =>
          rw [hitsFrom_succ_cons] at h ⊢
          rw [hitsFrom_succ_cons]
          exact ih (by simpa using hskip) h
      | zero =>
          cases hfound : r before (b :: (t ++ u)) with
          | none =>
              -- a match of the part alone would be one of the whole text
              have hnone : r before (b :: t) = none := by
                rw [Option.eq_none_iff_forall_ne_some]
                intro found hsome
                have := hr.append hsome u
                rw [List.cons_append, hfound] at this
                cases this
              rw [hitsFrom_cons_of_none hfound] at h ⊢
              rw [hitsFrom_cons_of_none hnone]
              exact ih (Nat.zero_le _) h
          | some found =>
              obtain ⟨n, a⟩ := found
              rw [hitsFrom_cons_of_some hfound] at h ⊢
              -- the match does not run over the cut, so it is one of the part alone
              have hn : n ≤ (b :: t).length := by
                have := h _ List.mem_cons_self (by dsimp only; omega)
                dsimp only at this
                omega
              have hsome : r before (b :: t) = some (n, a) :=
                (hr.append_iff (u := u) hn).1 (by rwa [List.cons_append])
              rw [hitsFrom_cons_of_some hsome, List.cons_append,
                ih (by rw [List.length_cons] at hn; omega)
                  fun hit hhit => h hit (List.mem_cons_of_mem _ hhit)]

/-- A cut behind which a word may start and over which no match runs. -/
lemma hits_append (hr : Takes r grammar) (hword : Text.atWordStart t.getLast? = true)
    (hcut : ∀ hit ∈ hits r (t ++ u), hit.start < t.length → hit.start + hit.length ≤ t.length) :
    hits r (t ++ u) = hits r t ++ (hits r u).map (shift t.length) := by
  have hstart : Text.atWordStart (t.getLast?.or none) = Text.atWordStart none := by
    rw [Option.or_none, hword]
    rfl
  have hcut : ∀ hit ∈ hitsFrom r none 0 0 (t ++ u), hit.start < 0 + t.length →
      hit.start + hit.length ≤ 0 + t.length := by
    rw [Nat.zero_add]
    exact hcut
  rw [hits, hitsFrom_append hr (Nat.zero_le _) hcut, hits, hits, hitsFrom_congr hr hstart,
    ← hitsFrom_shift]

/-- A part of which every match that meets it lies inside: the matches are those before it, those in
it and those behind it. -/
lemma hits_part (hr : Takes r grammar) {kept part : Text}
    (hkept : Text.atWordStart kept.getLast? = true) (hpart : Text.atWordStart part.getLast? = true)
    (hinside : ∀ hit ∈ hits r (kept ++ (part ++ t)),
      hit.start < kept.length + part.length → kept.length < hit.start + hit.length →
        kept.length ≤ hit.start ∧ hit.start + hit.length ≤ kept.length + part.length) :
    hits r (kept ++ (part ++ t))
      = hits r kept ++ ((hits r part).map (shift kept.length)
        ++ (hits r t).map (shift (kept.length + part.length))) := by
  have hfirst : hits r (kept ++ (part ++ t))
      = hits r kept ++ (hits r (part ++ t)).map (shift kept.length) := by
    refine hits_append hr hkept fun hit hhit hlt => ?_
    by_contra hacross
    have := hinside hit hhit (by omega) (by omega)
    omega
  have hsecond : hits r (part ++ t)
      = hits r part ++ (hits r t).map (shift part.length) := by
    refine hits_append hr hpart fun hit hhit hlt => ?_
    have hmem : shift kept.length hit ∈ hits r (kept ++ (part ++ t)) := by
      rw [hfirst]
      exact List.mem_append_right _ (List.mem_map_of_mem hhit)
    have := hinside _ hmem
    simp only [shift] at this
    omega
  have hshift : shift kept.length ∘ shift part.length
      = (shift (kept.length + part.length) : Hit α → Hit α) :=
    funext fun hit => shift_shift kept.length part.length hit
  rw [hfirst, hsecond, List.map_append, List.map_map, hshift]

/-- A text that is all taken is one match. -/
lemma hits_eq_singleton (hr : Takes r grammar) (hne : t ≠ []) (h : grammar t a) :
    hits r t = [⟨0, t.length, a⟩] := by
  obtain ⟨b, t, rfl⟩ := List.exists_cons_of_ne_nil hne
  have hfound : r none (b :: t) = some ((b :: t).length, a) :=
    hr.iff_take.2 ⟨rfl, le_rfl, by rwa [List.take_length]⟩
  have hskip := hitsFrom_skip r (some b) 1 0 t []
  rw [Nat.add_zero, List.append_nil] at hskip
  rw [hits, hitsFrom_cons_of_some hfound, List.length_cons, Nat.add_sub_cancel, Nat.zero_add, hskip,
    hitsFrom_nil]

/-- Two matches are the same or do not overlap. -/
lemma eq_or_disjoint_of_mem_hits {hit' : Hit α} (h : hit ∈ hits r t) (h' : hit' ∈ hits r t) :
    hit = hit' ∨ hit.start + hit.length ≤ hit'.start ∨ hit'.start + hit'.length ≤ hit.start := by
  let Apart (a b : Hit α) : Prop :=
    a = b ∨ a.start + a.length ≤ b.start ∨ b.start + b.length ≤ a.start
  have : Std.Symm Apart := ⟨fun a b h => h.imp Eq.symm Or.symm⟩
  exact List.Pairwise.forall_of_forall (R := Apart) (fun a _ => Or.inl rfl)
    ((pairwise_hitsFrom r none 0 0 t).imp fun h => Or.inr (Or.inl h)) h h'

/-- **A text cut around one of its matches.** What is taken stands where a word may start, and the
other matches are those before it and those behind it. -/
theorem hits_eq_append_cons (hr : Takes r grammar)
    (hgrammar : ∀ text a, grammar text a → text ≠ [] ∧ Text.atWordStart text.getLast? = true)
    {before behind : List (Hit α)} (h : hits r t = before ++ hit :: behind) :
    ∃ kept part rest, t = kept ++ (part ++ rest) ∧ hit = ⟨kept.length, part.length, hit.found⟩
      ∧ Text.atWordStart kept.getLast? = true ∧ grammar part hit.found ∧ hits r kept = before
      ∧ (hits r rest).map (shift (kept.length + part.length)) = behind := by
  have hmem : hit ∈ hits r t := by
    rw [h]
    exact List.mem_append_right _ List.mem_cons_self
  obtain ⟨kept, u, rfl, hstart, hfound⟩ := exists_split_of_mem_hitsFrom hmem
  rw [Nat.zero_add] at hstart
  obtain ⟨hword, part, rest, rfl, hlength, htaken⟩ := (hr _ _ _ _).1 hfound
  rw [Option.or_none] at hword
  obtain ⟨hne, hend⟩ := hgrammar _ _ htaken
  have hpos : 0 < part.length := List.length_pos_iff.2 hne
  have hhit : hit = ⟨kept.length, part.length, hit.found⟩ := by
    rw [← hstart, ← hlength]
  have hpart := hits_part hr hword hend (t := rest) fun hit' hhit' hlt hgt => by
    rcases eq_or_disjoint_of_mem_hits hmem hhit' with rfl | hle | hle <;> omega
  rw [hits_eq_singleton hr hne htaken, List.map_singleton] at hpart
  have hshift : shift kept.length ⟨0, part.length, hit.found⟩ = hit := by
    rw [shift, Nat.zero_add]
    exact hhit.symm
  rw [hshift, h] at hpart
  -- the match stands only once in the list
  have hbefore : hit ∉ hits r kept := fun hmem' => by
    have := end_le_of_mem_hitsFrom hr hmem'
    omega
  have hbehind : hit ∉ (hits r rest).map (shift (kept.length + part.length)) := fun hmem' => by
    obtain ⟨hit', -, heq⟩ := List.mem_map.1 hmem'
    have := congrArg Hit.start heq
    simp only [shift] at this
    omega
  obtain ⟨hkept, -, hrest⟩ := (List.append_cons_inj_of_notMem hbefore hbehind).1 hpart.symm
  exact ⟨kept, part, rest, rfl, hhit, hword, htaken, hkept, hrest⟩

end Search

end MiniProgram
