import Mathlib.Tactic
import MiniProgram.Text.Basic

/-!
Cutting a text into pieces and putting pieces together.

* `split_eq_splitOn`: cutting at a separator is the library's `List.splitOn`, so that its lemmas
  apply: `split_append`, `join_split` and `split_join` are read off them.
* `after?_eq_some`, `trimStart_append`, `trimEnd_append`: an affix is taken off where it stands.
* `startsWith_iff`, `endsWith_iff`: the tests for affixes say that there is one.
* `append_of_cut?`: a text cut at a needle.
-/

namespace MiniProgram

namespace Text

/-! ### Splitting and joining -/

/-- Cutting a text at a separator is splitting the list of its bytes. -/
lemma split_eq_splitOn (sep : UInt8) (t : Text) : split sep t = t.splitOn sep := by
  induction t with
  | nil => rfl
  | cons b t ih =>
      rw [split, List.splitOn_cons_eq_if_modifyHead, ih]
      by_cases hb : b = sep
      · simp [hb]
      · cases hs : t.splitOn sep with
        | nil => exact absurd hs (List.splitOn_ne_nil sep t)
        | cons piece rest => simp [hb]

@[simp] lemma split_nil (sep : UInt8) : split sep [] = [[]] := rfl

lemma split_ne_nil (sep : UInt8) (t : Text) : split sep t ≠ [] := by
  rw [split_eq_splitOn]
  exact List.splitOn_ne_nil sep t

/-- A separator cuts a text in two. -/
lemma split_append (sep : UInt8) (a b : Text) :
    split sep (a ++ sep :: b) = split sep a ++ split sep b := by
  simp only [split_eq_splitOn]
  exact List.splitOn_append_cons_self a b

@[simp] lemma split_cons_self (sep : UInt8) (t : Text) : split sep (sep :: t) = [] :: split sep t :=
  split_append sep [] t

/-- A text without separators is one piece. -/
lemma split_eq_singleton {sep : UInt8} {t : Text} (h : sep ∉ t) : split sep t = [t] := by
  rw [split_eq_splitOn]
  exact List.splitOn_eq_singleton h

/-- The pieces joined by the separator give the text back. -/
lemma join_split (sep : UInt8) (t : Text) : join [sep] (split sep t) = t := by
  rw [split_eq_splitOn]
  exact List.intercalate_splitOn sep

/-- Pieces that hold no separator are found again in the joined text. -/
lemma split_join {sep : UInt8} {pieces : List Text} (hne : pieces ≠ [])
    (hsep : ∀ s ∈ pieces, sep ∉ s) : split sep (join [sep] pieces) = pieces := by
  rw [split_eq_splitOn]
  exact List.splitOn_intercalate sep hsep hne

/-- No piece holds a separator. -/
lemma not_mem_of_mem_split {sep : UInt8} {t s : Text} (h : s ∈ split sep t) : sep ∉ s := by
  induction t generalizing s with
  | nil => simp_all
  | cons b t ih =>
      by_cases hb : b = sep
      · subst hb
        rw [split_cons_self, List.mem_cons] at h
        rcases h with rfl | h
        · exact List.not_mem_nil
        · exact ih h
      · cases hs : split sep t with
        | nil => exact absurd hs (split_ne_nil sep t)
        | cons piece rest =>
            simp only [split, hb, if_false, hs, List.mem_cons] at h
            rcases h with rfl | h
            · have := ih (hs ▸ List.mem_cons_self)
              simp [this, Ne.symm hb]
            · exact ih (hs ▸ List.mem_cons_of_mem piece h)

@[simp] lemma join_nil (sep : Text) : join sep [] = [] := rfl

@[simp] lemma join_singleton (sep s : Text) : join sep [s] = s := List.intercalate_singleton

lemma join_cons {sep s : Text} {pieces : List Text} (h : pieces ≠ []) :
    join sep (s :: pieces) = s ++ sep ++ join sep pieces :=
  List.intercalate_cons_of_ne_nil h

/-- Two runs of pieces are joined by one more separator. -/
lemma join_append {sep : Text} {a b : List Text} (ha : a ≠ []) (hb : b ≠ []) :
    join sep (a ++ b) = join sep a ++ sep ++ join sep b := by
  induction a with
  | nil => exact absurd rfl ha
  | cons s a ih =>
      by_cases h : a = []
      · subst h
        rw [List.singleton_append, join_cons hb, join_singleton]
      · rw [List.cons_append, join_cons (by simp [h]), join_cons h, ih h]
        simp only [List.append_assoc]

/-- Pieces none of which is empty join to the empty text only if there are none. -/
lemma join_eq_nil_iff {sep : Text} {pieces : List Text} (h : ∀ s ∈ pieces, s ≠ []) :
    join sep pieces = [] ↔ pieces = [] := by
  constructor
  · intro hj
    cases pieces with
    | nil => rfl
    | cons s rest =>
        have hs := h s List.mem_cons_self
        cases rest with
        | nil => exact absurd (by simpa using hj) hs
        | cons s' rest =>
            rw [join_cons (by simp), List.append_assoc] at hj
            exact absurd (List.append_eq_nil_iff.1 hj).1 hs
  · rintro rfl
    rfl

/-- What is put behind a text without a separator goes to its last piece. -/
lemma split_concat {sep : UInt8} {t e last : Text} {init : List Text}
    (h : split sep t = init ++ [last]) (he : sep ∉ e) :
    split sep (t ++ e) = init ++ [last ++ e] := by
  have hsep : ∀ s ∈ init ++ [last], sep ∉ s := by
    rw [← h]
    exact fun s hs => not_mem_of_mem_split hs
  have hjoin : t ++ e = join [sep] (init ++ [last ++ e]) := by
    rw [← join_split sep t, h]
    by_cases hne : init = []
    · simp [hne]
    · rw [join_append hne (by simp), join_append hne (by simp)]
      simp
  have hlast : sep ∉ last ++ e := by
    rw [List.mem_append, not_or]
    exact ⟨hsep last (by simp), he⟩
  rw [hjoin, split_join (by simp)]
  intro s hs
  rcases List.mem_append.1 hs with hs | hs
  · exact hsep s (by simp [hs])
  · rwa [List.mem_singleton.1 hs]

/-- The joined text begins with the first byte of its first piece. -/
lemma head?_join {sep : Text} {s : Text} {pieces : List Text} (hs : s ≠ []) :
    (join sep (s :: pieces)).head? = s.head? := by
  cases s with
  | nil => exact absurd rfl hs
  | cons b s => simp [join]

/-- A joined list begins with its first piece. -/
lemma exists_join_cons (sep s : Text) (pieces : List Text) :
    ∃ x, join sep (s :: pieces) = s ++ x := by
  by_cases h : pieces = []
  · exact ⟨[], by simp [h]⟩
  · exact ⟨sep ++ join sep pieces, by rw [join_cons h, List.append_assoc]⟩

/-- Pieces none of which is empty take at least a byte each. -/
lemma length_le_length_join (sep : Text) {pieces : List Text} (h : ∀ s ∈ pieces, s ≠ []) :
    pieces.length ≤ (join sep pieces).length := by
  induction pieces with
  | nil => simp
  | cons s pieces ih =>
      have hs : 0 < s.length := List.length_pos_iff.2 (h s List.mem_cons_self)
      have hrest := ih fun s hs => h s (List.mem_cons_of_mem _ hs)
      by_cases hne : pieces = []
      · subst hne
        simpa using Nat.succ_le_of_lt hs
      · rw [join_cons hne, List.length_append, List.length_append, List.length_cons]
        omega

/-- The bytes of joined pieces are those of the pieces and the separator. -/
lemma eq_or_exists_of_mem_join {sep b : UInt8} {pieces : List Text}
    (hb : b ∈ join [sep] pieces) : b = sep ∨ ∃ s ∈ pieces, b ∈ s := by
  induction pieces with
  | nil => cases hb
  | cons s pieces ih =>
      by_cases hne : pieces = []
      · subst hne
        rw [join_singleton] at hb
        exact Or.inr ⟨s, List.mem_cons_self, hb⟩
      · rw [join_cons hne, List.mem_append, List.mem_append, List.mem_singleton] at hb
        rcases hb with (hb | hb) | hb
        · exact Or.inr ⟨s, List.mem_cons_self, hb⟩
        · exact Or.inl hb
        · exact (ih hb).imp_right fun ⟨s', hs', hb'⟩ => ⟨s', List.mem_cons_of_mem s hs', hb'⟩

lemma mem_join_of_mem {sep b : UInt8} {pieces : List Text} {s : Text} (hs : s ∈ pieces)
    (hb : b ∈ s) : b ∈ join [sep] pieces := by
  obtain ⟨front, back, rfl⟩ := List.append_of_mem hs
  obtain ⟨rest, hrest⟩ := exists_join_cons [sep] s back
  have hmem : b ∈ join [sep] (s :: back) := by
    rw [hrest]
    exact List.mem_append_left _ hb
  by_cases hne : front = []
  · subst hne
    exact hmem
  · rw [join_append hne (List.cons_ne_nil _ _)]
    exact List.mem_append_right _ hmem

lemma mem_of_mem_split {sep b : UInt8} {s t : Text} (hs : s ∈ split sep t) (hb : b ∈ s) :
    b ∈ t := by
  rw [← join_split sep t]
  exact mem_join_of_mem hs hb

/-! ### Affixes -/

lemma startsWith_iff {t lead : Text} : startsWith t lead = true ↔ lead <+: t :=
  List.isPrefixOf_iff_prefix

lemma endsWith_iff {t tail : Text} : endsWith t tail = true ↔ tail <:+ t :=
  List.isSuffixOf_iff_suffix

/-- What follows a leading text is what it has to be put before. -/
lemma after?_eq_some {lead t rest : Text} : after? lead t = some rest ↔ t = lead ++ rest := by
  induction lead generalizing t with
  | nil => simp [after?, eq_comm]
  | cons a lead ih =>
      cases t with
      | nil => simp [after?]
      | cons b t =>
          by_cases h : a = b
          · subst h
            simp [after?, ih]
          · simp [after?, h, Ne.symm h]

/-- What is cut at the first needle was put together around it. -/
lemma append_of_cut? {needle t before behind : Text} (h : cut? needle t = some (before, behind)) :
    t = before ++ (needle ++ behind) := by
  induction t generalizing before with
  | nil =>
      rw [cut?] at h
      split_ifs at h with hneedle
      cases h
      rw [hneedle]
      rfl
  | cons b t ih =>
      rw [cut?] at h
      split at h
      · rename_i rest hafter
        cases h
        rw [List.nil_append]
        exact after?_eq_some.1 hafter
      · obtain ⟨⟨before', behind'⟩, hcut, heq⟩ := Option.map_eq_some_iff.1 h
        cases heq
        rw [ih hcut]
        rfl

@[simp] lemma trimStart_append (lead t : Text) : trimStart (lead ++ t) lead = t := by
  rw [trimStart, after?_eq_some.2 rfl, Option.getD_some]

/-- A text that does not begin with the leading text is left alone. -/
lemma trimStart_eq_self {t lead : Text} (h : ¬ lead <+: t) : trimStart t lead = t := by
  rw [trimStart]
  cases ha : after? lead t with
  | none => rfl
  | some rest => exact absurd ⟨rest, (after?_eq_some.1 ha).symm⟩ h

lemma trimStart_suffix (t lead : Text) : trimStart t lead <:+ t := by
  by_cases h : lead <+: t
  · obtain ⟨rest, rfl⟩ := h
    rw [trimStart_append]
    exact List.suffix_append lead rest
  · rw [trimStart_eq_self h]

@[simp] lemma trimEnd_append (t tail : Text) : trimEnd (t ++ tail) tail = t := by
  rw [trimEnd, if_pos (endsWith_iff.2 (List.suffix_append t tail)), List.length_append,
    Nat.add_sub_cancel, List.take_left]

end Text

end MiniProgram
