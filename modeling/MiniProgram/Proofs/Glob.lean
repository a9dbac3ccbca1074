import Mathlib.Data.List.TakeWhile
import Mathlib.Tactic
import MiniProgram.Glob
import MiniProgram.Proofs.Text.Utf8

/-!
What a glob pattern with one `**` segment and one choice matches.

Behind a `**` segment a match is tried at the start of one segment of the name after the other,
until the rest of the name matches or no segment is left. A choice is settled when it is first
reached, and from then on each alternative is tried on its own, at the same segments.

* `EndsIn`: the last segment of a name is a given word.
* `matchFrom_word`: a word behind `**` matches the names that end in it.
* `matchFrom_choice`: a choice of words matches the names that end in one of them.
* `matchFrom_under`: **a choice of words below a literal directory** matches the names there, at
  any depth, that end in one of the words.
* `accepts_under`: the same of paths, with the fuel that a match has.
* `lead_append_cons`: names are looked up in the directory before the first segment with a meaning.
-/

namespace MiniProgram

namespace Glob

/-! ### Code points that stand for themselves -/

/-- A code point that stands for itself wherever it is in a pattern. -/
structure IsLiteral (c : ℕ) : Prop where
  ne_star : c ≠ star
  ne_question : c ≠ question
  ne_openBracket : c ≠ openBracket
  ne_openBrace : c ≠ openBrace
  ne_closeBrace : c ≠ closeBrace
  ne_backslash : c ≠ backslash

instance (c : ℕ) : Decidable (IsLiteral c) :=
  decidable_of_iff (c ≠ star ∧ c ≠ question ∧ c ≠ openBracket ∧ c ≠ openBrace ∧ c ≠ closeBrace
      ∧ c ≠ backslash)
    ⟨fun ⟨h₁, h₂, h₃, h₄, h₅, h₆⟩ => ⟨h₁, h₂, h₃, h₄, h₅, h₆⟩,
      fun ⟨h₁, h₂, h₃, h₄, h₅, h₆⟩ => ⟨h₁, h₂, h₃, h₄, h₅, h₆⟩⟩

variable {c m depth fuel : ℕ} {start : Bool} {pattern name rest lit : List ℕ} {retry : Retry}

lemma isValidFrom_cons (h : IsLiteral c) (depth : ℕ) (rest : List ℕ) :
    isValidFrom .outside depth (c :: rest) = isValidFrom .outside depth rest := by
  obtain ⟨-, -, h₁, h₂, h₃, h₄⟩ := h
  rw [isValidFrom.eq_def]
  split <;> simp_all

/-- Literal code points in front do not matter for whether a pattern is well formed. -/
lemma isValidFrom_append (h : ∀ c ∈ lit, IsLiteral c) (depth : ℕ) (rest : List ℕ) :
    isValidFrom .outside depth (lit ++ rest) = isValidFrom .outside depth rest := by
  induction lit with
  | nil => rfl
  | cons c lit ih =>
      rw [List.cons_append, isValidFrom_cons (h c List.mem_cons_self),
        ih fun c' hc' => h c' (List.mem_cons_of_mem c hc')]

lemma matchFrom_nil (fuel : ℕ) (start : Bool) (pattern : List ℕ) (retry : Retry) :
    matchFrom (fuel + 1) start pattern [] retry = matchesEmpty (pattern.length + 1) pattern := by
  rw [matchFrom.eq_def]

/-- A literal code point matches itself. -/
lemma matchFrom_same (h : IsLiteral c) :
    matchFrom (fuel + 1) start (c :: rest) (c :: name) retry
      = matchFrom fuel (c = slash) rest name retry := by
  obtain ⟨h₁, h₂, h₃, h₄, h₅, h₆⟩ := h
  rw [matchFrom]
  · simp
  all_goals simp_all

/-- Where a pattern is at its end or asks for another code point, the match is taken up again. -/
lemma matchFrom_stuck (h : pattern = [] ∨ ∃ m rest, pattern = m :: rest ∧ IsLiteral m ∧ m ≠ c) :
    matchFrom (fuel + 1) start pattern (c :: name) retry = match retry.next? with
      | some (start, pattern, name, retry) => matchFrom fuel start pattern name retry
      | none => if isValidFrom .outside 0 pattern then some false else none := by
  rcases h with rfl | ⟨m, rest, rfl, ⟨h₁, h₂, h₃, h₄, h₅, h₆⟩, hne⟩
  · rfl
  · rw [matchFrom]
    · exact if_neg hne
    all_goals simp_all

/-- A literal directory matches itself, and a segment starts behind it. -/
lemma matchFrom_directory (h : ∀ c ∈ lit, IsLiteral c) (fuel : ℕ) (start : Bool)
    (pattern name : List ℕ) (retry : Retry) :
    matchFrom (lit.length + 1 + fuel) start (lit ++ slash :: pattern) (lit ++ slash :: name) retry
      = matchFrom fuel true pattern name retry := by
  induction lit generalizing start with
  | nil =>
      rw [List.length_nil, Nat.zero_add, Nat.add_comm, List.nil_append, List.nil_append,
        matchFrom_same (by decide)]
      rfl
  | cons c lit ih =>
      have hfuel : (c :: lit).length + 1 + fuel = lit.length + 1 + fuel + 1 := by
        rw [List.length_cons]
        omega
      rw [hfuel, List.cons_append, List.cons_append, matchFrom_same (h c List.mem_cons_self),
        ih fun c' hc' => h c' (List.mem_cons_of_mem c hc')]

/-! ### The last segment -/

/-- The last segment of a name is a given word. -/
def EndsIn (word name : List ℕ) : Prop := name = word ∨ slash :: word <:+ name

instance (word name : List ℕ) : Decidable (EndsIn word name) := by
  rw [EndsIn]
  infer_instance

variable {word below segment : List ℕ}

/-- Of a name with several segments, the last is the last of those behind the first. -/
lemma endsIn_append_cons_iff (hword : slash ∉ word) (hsegment : slash ∉ segment) :
    EndsIn word (segment ++ slash :: below) ↔ EndsIn word below := by
  constructor
  · rintro (h | ⟨s, hs⟩)
    · rw [← h] at hword
      simp at hword
    · rcases List.append_eq_append_iff.1 hs with ⟨a, rfl, h⟩ | ⟨a, rfl, h⟩
      · cases a with
        | nil => exact Or.inl (List.cons.inj h).2.symm
        | cons b a =>
            obtain ⟨rfl, -⟩ := List.cons.inj h
            simp at hsegment
      · cases a with
        | nil => exact Or.inl (List.cons.inj h).2
        | cons b a => exact Or.inr ⟨a, (List.cons.inj h).2.symm⟩
  · rintro (rfl | h)
    · exact Or.inr (List.suffix_append _ _)
    · exact Or.inr (h.trans ((List.suffix_cons _ _).trans (List.suffix_append _ _)))

/-- A name of one segment ends in that alone. -/
lemma endsIn_iff_of_not_mem (h : slash ∉ name) : EndsIn word name ↔ name = word := by
  rw [EndsIn, or_iff_left]
  exact fun hsuf => h (hsuf.subset List.mem_cons_self)

/-- A proper beginning of a word does not end in it. -/
lemma not_endsIn_of_length_lt (h : name.length < word.length) : ¬ EndsIn word name := by
  rintro (rfl | hsuf)
  · exact lt_irrefl _ h
  · have hlength := hsuf.length_le
    rw [List.length_cons] at hlength
    omega

/-! ### One word behind a deep segment -/

/-- A match that is taken up again only at the start of a segment. -/
def behindDeep (pattern name : List ℕ) : Retry := ⟨none, some (pattern, name)⟩

/-- Where the name has no further segment, there is no place to try again, and else that is the next
segment. -/
lemma next?_behindDeep (pattern name : List ℕ) :
    (slash ∉ name ∧ (behindDeep pattern name).next? = none)
      ∨ ∃ segment below, name = segment ++ slash :: below ∧ slash ∉ segment
        ∧ (behindDeep pattern name).next?
          = some (true, pattern, below, behindDeep pattern below) := by
  have hsplit := List.takeWhile_append_dropWhile (p := (· ≠ slash)) (l := name)
  have hnot : slash ∉ name.takeWhile (· ≠ slash) := fun h => by
    simpa using List.mem_takeWhile_imp h
  cases hdrop : name.dropWhile (· ≠ slash) with
  | nil =>
      rw [hdrop, List.append_nil] at hsplit
      refine Or.inl ⟨hsplit ▸ hnot, ?_⟩
      simp only [behindDeep, Retry.next?, Retry.descend?, hdrop]
  | cons c below =>
      obtain rfl : c = slash := by
        have hhead := List.head?_dropWhile_not (· ≠ slash) name
        rw [hdrop] at hhead
        simpa using hhead
      rw [hdrop] at hsplit
      refine Or.inr ⟨_, below, hsplit.symm, hnot, ?_⟩
      simp only [behindDeep, Retry.next?, Retry.descend?, hdrop]

/-- A word that does not match here matches if it does at a later segment. -/
lemma matchFrom_retry (result : List ℕ → Bool) (hpattern : isValidFrom .outside 0 pattern = true)
    (hstuck : pattern = [] ∨ ∃ m rest, pattern = m :: rest ∧ IsLiteral m ∧ m ≠ c)
    {whole cur : List ℕ} (hone : slash ∉ cur → result cur = false)
    (hmore : ∀ segment below, cur = segment ++ slash :: below → slash ∉ segment →
      matchFrom fuel true whole below (behindDeep whole below) = some (result below)
        ∧ result cur = result below) :
    matchFrom (fuel + 1) start pattern (c :: name) (behindDeep whole cur) = some (result cur) := by
  rw [matchFrom_stuck hstuck]
  rcases next?_behindDeep whole cur with ⟨hnot, hnext⟩ | ⟨segment, below, hcur, hsegment, hnext⟩
  · rw [hnext, hone hnot]
    simp [hpattern]
  · obtain ⟨hmatch, hresult⟩ := hmore segment below hcur hsegment
    rw [hnext, hresult, ← hmatch]

/-- A literal code point does not match the empty name. -/
lemma matchesEmpty_cons (hc : IsLiteral c) (hne : c ≠ slash)
    (hvalid : isValidFrom .outside 0 (c :: rest) = true) (fuel : ℕ) :
    matchesEmpty (fuel + 1) (c :: rest) = some false := by
  rw [matchesEmpty, if_neg (by simp [hc.ne_star, hne]), if_pos hvalid]
  exact fun body hbrace => hc.ne_openBrace (List.cons.inj hbrace).1

/-- A word: literal code points within one segment. -/
def IsWord (word : List ℕ) : Prop := ∀ c ∈ word, IsLiteral c ∧ c ≠ slash

instance (word : List ℕ) : Decidable (IsWord word) :=
  inferInstanceAs (Decidable (∀ c ∈ word, IsLiteral c ∧ c ≠ slash))

lemma IsWord.slash_notMem (h : IsWord word) : slash ∉ word := fun hmem => (h slash hmem).2 rfl

lemma IsWord.isValidFrom (h : IsWord word) : isValidFrom .outside 0 word = true := by
  have hvalid := isValidFrom_append (fun c hc => (h c hc).1) 0 []
  rwa [List.append_nil] at hvalid

/-- What is left of the fuel is enough for a whole pattern at a later segment. -/
lemma fuel_below {cur : List ℕ} {size todo : ℕ} (hcur : cur = segment ++ slash :: below)
    (hfuel : cur.length * (size + 1) + todo + 1 ≤ fuel + 1) :
    below.length * (size + 1) + size + 1 ≤ fuel := by
  have hlength : below.length + 1 ≤ cur.length := by
    rw [hcur, List.length_append, List.length_cons]
    exact Nat.le_add_left _ _
  have hmul := Nat.mul_le_mul_right (size + 1) hlength
  rw [Nat.add_mul, Nat.one_mul] at hmul
  omega

/-- **A word behind a deep segment** matches the names that end in it. A part of it has been
matched already at the segment where the match stands. -/
theorem matchFrom_word {word : List ℕ} (hword : IsWord word) {fuel : ℕ} {start : Bool}
    {done todo name : List ℕ} (hsplit : word = done ++ todo)
    (hfuel : (done ++ name).length * (word.length + 1) + todo.length + 1 ≤ fuel) :
    matchFrom fuel start todo name (behindDeep word (done ++ name))
      = some (decide (EndsIn word (done ++ name))) := by
  induction fuel generalizing start done todo name with
  | zero => omega
  | succ fuel ih =>
      have htodo : IsWord todo := fun c hc => hword c (by simp [hsplit, hc])
      cases name with
      | nil =>
          rw [matchFrom_nil]
          cases todo with
          | nil => simp [matchesEmpty, hsplit, EndsIn]
          | cons m todo =>
              have hnot : ¬ EndsIn word (done ++ []) := by
                refine not_endsIn_of_length_lt ?_
                rw [hsplit, List.append_nil, List.length_append, List.length_cons]
                omega
              obtain ⟨hm, hne⟩ := htodo m List.mem_cons_self
              simp only [hnot, decide_false]
              exact matchesEmpty_cons hm hne htodo.isValidFrom _
      | cons c name =>
          by_cases hsame : ∃ rest, todo = c :: rest
          · obtain ⟨rest, rfl⟩ := hsame
            have happend : done ++ c :: name = (done ++ [c]) ++ name := by simp
            rw [matchFrom_same (htodo c List.mem_cons_self).1, happend]
            refine ih (by simp [hsplit]) ?_
            rw [← happend]
            rw [List.length_cons] at hfuel
            omega
          · -- the word does not go on with this byte: the match is taken up again further on
            have hstuck : todo = [] ∨ ∃ m rest, todo = m :: rest ∧ IsLiteral m ∧ m ≠ c := by
              cases todo with
              | nil => exact Or.inl rfl
              | cons m rest =>
                  refine Or.inr ⟨m, rest, rfl, (htodo m List.mem_cons_self).1, ?_⟩
                  rintro rfl
                  exact hsame ⟨rest, rfl⟩
            refine matchFrom_retry (fun cur => decide (EndsIn word cur))
              htodo.isValidFrom hstuck (fun hnot => ?_) fun segment below hcur hsegment => ?_
            · rw [decide_eq_false_iff_not, endsIn_iff_of_not_mem hnot, hsplit,
                List.append_cancel_left_eq]
              exact fun h => hsame ⟨name, h.symm⟩
            · refine ⟨ih (List.nil_append word).symm (fuel_below hcur hfuel), ?_⟩
              simp only [hcur, endsIn_append_cons_iff hword.slash_notMem hsegment]

/-! ### A choice of words behind a deep segment -/

/-- Definite answers come to whether one of them is a match. -/
lemma firstMatch_map_some {α : Type} (f : α → Bool) (xs : List α) :
    firstMatch (xs.map fun x => some (f x)) = some (xs.any f) := by
  induction xs with
  | nil => rfl
  | cons x xs ih =>
      rw [firstMatch] at ih
      rw [List.map_cons, firstMatch, List.find?_cons, List.any_cons]
      cases hx : f x with
      | true => simp
      | false => simpa using ih

/-- A choice of words that all begin with a common stem. -/
structure Choice where
  stem : List ℕ
  body : List ℕ
  alts : List (List ℕ)
  closes : alternatives? 0 false body = some (alts, [])
  isWord : ∀ alt ∈ alts, IsWord (stem ++ alt)
  stem_isWord : IsWord stem
  ne_nil : ∀ alt ∈ alts, alt ≠ []
  length_le : ∀ alt ∈ alts, alt.length ≤ body.length
  valid : isValidFrom .outside 0 (openBrace :: body) = true

namespace Choice

variable (q : Choice)

/-- The choice as it is written in a pattern. -/
def choice : List ℕ := openBrace :: q.body

/-- The choice as a pattern. -/
def whole : List ℕ := q.stem ++ q.choice

/-- Whether a name ends in one of the words. -/
def accepts (name : List ℕ) : Bool := q.alts.any fun alt => decide (EndsIn (q.stem ++ alt) name)

variable {q}

lemma accepts_eq_true_iff :
    q.accepts name = true ↔ ∃ alt ∈ q.alts, EndsIn (q.stem ++ alt) name := by
  simp only [accepts, List.any_eq_true, decide_eq_true_iff]

lemma accepts_eq_false_iff :
    q.accepts name = false ↔ ∀ alt ∈ q.alts, ¬ EndsIn (q.stem ++ alt) name := by
  simp only [accepts, List.any_eq_false, decide_eq_true_iff]

/-- A name that is no longer than the stem ends in none of the words. -/
lemma accepts_of_length_le (h : name.length ≤ q.stem.length) : q.accepts name = false := by
  rw [accepts_eq_false_iff]
  intro alt halt
  have hpos := List.length_pos_iff.2 (q.ne_nil alt halt)
  refine not_endsIn_of_length_lt ?_
  rw [List.length_append]
  omega

/-- Of a name with several segments, the first does not matter. -/
lemma accepts_append_cons (hsegment : slash ∉ segment) :
    q.accepts (segment ++ slash :: below) = q.accepts below := by
  rw [Bool.eq_iff_iff, accepts_eq_true_iff, accepts_eq_true_iff]
  exact exists_congr fun alt => and_congr_right fun halt =>
    endsIn_append_cons_iff (q.isWord alt halt).slash_notMem hsegment

/-- A name of one segment that goes on otherwise than the stem ends in none of the words. -/
lemma accepts_of_ne {done todo : List ℕ} (hsplit : q.stem = done ++ m :: todo) (hne : m ≠ c)
    (hnot : slash ∉ done ++ c :: name) : q.accepts (done ++ c :: name) = false := by
  rw [accepts_eq_false_iff]
  intro alt _
  rw [endsIn_iff_of_not_mem hnot, hsplit, List.append_assoc, List.append_cancel_left_eq]
  exact fun h => hne (List.cons.inj h).1.symm

/-- With the choice at hand, each alternative is tried on its own as a word behind the deep
segment. -/
lemma settle_behindDeep (alt name : List ℕ) :
    (behindDeep q.whole name).settle q.choice (alt ++ []) = behindDeep (q.stem ++ alt) name := by
  simp [behindDeep, Retry.settle, whole]

/-- No part of a choice matches the empty name. -/
lemma matchesEmpty_todo {todo : List ℕ} (htodo : IsWord todo) (fuel : ℕ) :
    matchesEmpty (fuel + 2) (todo ++ q.choice) = some false := by
  cases todo with
  | nil =>
      have halts : q.alts.map (fun alt => matchesEmpty (fuel + 1) (alt ++ []))
          = q.alts.map fun _ => some false := by
        refine List.map_congr_left fun alt halt => ?_
        have hword : IsWord alt := fun c hc => q.isWord alt halt c (List.mem_append_right _ hc)
        obtain ⟨m, rest, rfl⟩ := List.exists_cons_of_ne_nil (q.ne_nil alt halt)
        obtain ⟨hm, hne⟩ := hword m List.mem_cons_self
        rw [List.append_nil]
        exact matchesEmpty_cons hm hne hword.isValidFrom fuel
      rw [List.nil_append, choice, matchesEmpty, if_neg (by simp), q.closes]
      dsimp only
      rw [halts, firstMatch_map_some (fun _ => false) q.alts]
      simp
  | cons m todo =>
      obtain ⟨hm, hne⟩ := htodo m List.mem_cons_self
      refine matchesEmpty_cons hm hne ?_ _
      change isValidFrom .outside 0 ((m :: todo) ++ q.choice) = true
      rw [isValidFrom_append fun c hc => (htodo c hc).1]
      exact q.valid

/-- At the choice each alternative is tried on its own. -/
lemma matchFrom_open (start : Bool) (retry : Retry) :
    matchFrom (fuel + 1) start q.choice (c :: name) retry
      = firstMatch (q.alts.map fun alt =>
          matchFrom fuel true (alt ++ []) (c :: name) (retry.settle q.choice (alt ++ []))) := by
  rw [choice, matchFrom.eq_def]
  simp only [q.closes]

/-- Where the stem has been matched, the words are tried one after the other, each with its
alternative to be matched still. -/
lemma matchFrom_stem (start : Bool)
    (hfuel : (q.stem ++ c :: name).length * (q.whole.length + 1) + q.choice.length ≤ fuel) :
    matchFrom (fuel + 1) start q.choice (c :: name) (behindDeep q.whole (q.stem ++ c :: name))
      = some (q.accepts (q.stem ++ c :: name)) := by
  have halts : ∀ alt ∈ q.alts,
      matchFrom fuel true (alt ++ []) (c :: name)
          ((behindDeep q.whole (q.stem ++ c :: name)).settle q.choice (alt ++ []))
        = some (decide (EndsIn (q.stem ++ alt) (q.stem ++ c :: name))) := by
    intro alt halt
    rw [settle_behindDeep, List.append_nil]
    refine matchFrom_word (q.isWord alt halt) rfl ?_
    have hle := q.length_le alt halt
    have hsize : (q.stem ++ alt).length + 1 ≤ q.whole.length + 1 := by
      simp only [whole, choice, List.length_append, List.length_cons]
      omega
    have hmul := Nat.mul_le_mul_left (q.stem ++ c :: name).length hsize
    simp only [choice, List.length_cons] at hfuel
    omega
  rw [matchFrom_open, List.map_congr_left halts, firstMatch_map_some, accepts]

/-- **A choice behind a deep segment** matches the names that end in one of its words. A part of the
stem has been matched already at the segment where the match stands. -/
theorem matchFrom_choice {fuel : ℕ} {start : Bool} {done todo name : List ℕ}
    (hsplit : q.stem = done ++ todo)
    (hfuel : (done ++ name).length * (q.whole.length + 1) + (todo ++ q.choice).length + 1 ≤ fuel) :
    matchFrom fuel start (todo ++ q.choice) name (behindDeep q.whole (done ++ name))
      = some (q.accepts (done ++ name)) := by
  induction fuel generalizing start done todo name with
  | zero => omega
  | succ fuel ih =>
      have htodo : IsWord todo := fun c hc => q.stem_isWord c (by simp [hsplit, hc])
      cases name with
      | nil =>
          have hnot : q.accepts (done ++ []) = false := by
            refine accepts_of_length_le ?_
            rw [hsplit, List.append_nil, List.length_append]
            exact Nat.le_add_right _ _
          have hlength : (todo ++ q.choice).length + 1 = (todo ++ q.body).length + 2 := by
            simp only [choice, List.length_append, List.length_cons]
            omega
          rw [matchFrom_nil, hnot, hlength]
          exact matchesEmpty_todo htodo _
      | cons c name =>
          cases todo with
          | nil =>
              -- the stem is matched, and one of the choices is tried
              obtain rfl : done = q.stem := by rw [hsplit, List.append_nil]
              exact matchFrom_stem start (Nat.le_of_succ_le_succ hfuel)
          | cons m todo =>
              by_cases hsame : m = c
              · subst hsame
                have happend : done ++ m :: name = (done ++ [m]) ++ name := by simp
                rw [List.cons_append, matchFrom_same (htodo m List.mem_cons_self).1, happend]
                refine ih (by simp [hsplit]) ?_
                rw [← happend]
                rw [List.cons_append, List.length_cons] at hfuel
                omega
              · -- the stem does not go on with this byte: the match is taken up again further on
                have hvalid : isValidFrom .outside 0 ((m :: todo) ++ q.choice) = true := by
                  rw [isValidFrom_append fun c hc => (htodo c hc).1]
                  exact q.valid
                refine matchFrom_retry q.accepts hvalid
                  (Or.inr ⟨m, _, List.cons_append, (htodo m List.mem_cons_self).1, hsame⟩)
                  (accepts_of_ne hsplit hsame) fun segment below hcur hsegment => ⟨?_, ?_⟩
                · exact ih (List.nil_append q.stem).symm (fuel_below hcur hfuel)
                · rw [hcur, accepts_append_cons hsegment]

lemma isValidFrom_whole : isValidFrom .outside 0 q.whole = true := by
  rw [whole, isValidFrom_append fun c hc => (q.stem_isWord c hc).1]
  exact q.valid

/-- The pattern of a choice at any depth below a directory. -/
def under (q : Choice) (dir : List ℕ) : List ℕ := dir ++ slash :: star :: star :: slash :: q.whole

variable {dir : List ℕ}

lemma isValidFrom_under (hdir : ∀ c ∈ dir, IsLiteral c) :
    isValidFrom .outside 0 (q.under dir) = true := by
  rw [under, isValidFrom_append hdir]
  exact isValidFrom_whole

/-- **A choice below a literal directory** matches the names there, at any depth, that end in one of
its words. -/
theorem matchFrom_under (hdir : ∀ c ∈ dir, IsLiteral c) {fuel : ℕ} {name : List ℕ}
    (hfuel : name.length * (q.whole.length + 1) + q.whole.length + 1 ≤ fuel) :
    matchFrom (dir.length + 1 + (fuel + 1)) true (q.under dir) (dir ++ slash :: name) ⟨none, none⟩
      = some (q.accepts name) := by
  rw [under, matchFrom_directory hdir]
  cases name with
  | nil =>
      have hnot : q.accepts [] = false := accepts_of_length_le (Nat.zero_le _)
      have hvalid : isValidFrom .outside 0 (star :: star :: slash :: q.whole) = true :=
        isValidFrom_whole
      rw [matchFrom_nil, hnot, matchesEmpty, if_neg (by simp [whole, choice]), if_pos hvalid]
      simp
  | cons c name =>
      exact matchFrom_choice (List.nil_append q.stem).symm hfuel

/-- The fuel of a match is enough to try the choice at every segment. -/
lemma fuel_le (dirs size rest : ℕ) :
    dirs + 2 + (rest * (size + 1) + size + 1)
      ≤ (dirs + (size + 4) + 2) * (dirs + (rest + 1) + 2) * (dirs + (rest + 1) + 2) := by
  have hrest : rest * (size + 1) ≤ (dirs + (size + 4) + 2) * rest := by
    rw [Nat.mul_comm rest]
    exact Nat.mul_le_mul_right rest (by omega)
  have hdirs : dirs + (size + 4) + 2 ≤ (dirs + (size + 4) + 2) * (dirs + 3) :=
    Nat.le_mul_of_pos_right _ (by omega)
  calc dirs + 2 + (rest * (size + 1) + size + 1)
      ≤ (dirs + (size + 4) + 2) * rest + (dirs + (size + 4) + 2) * (dirs + 3) := by omega
    _ = (dirs + (size + 4) + 2) * (dirs + (rest + 1) + 2) := by ring
    _ ≤ _ := Nat.le_mul_of_pos_right _ (by omega)

/-- A path below a literal directory matches a choice there if its rest ends in one of the words. -/
theorem accepts_under {pattern dir : Text}
    (hpattern : Text.runes pattern = q.under (Text.runes dir))
    (hdir : ∀ c ∈ Text.runes dir, IsLiteral c) {name : Text} :
    Glob.accepts pattern (dir ++ Byte.slash :: name) = q.accepts (Text.runes name) := by
  have hpath : Text.runes (dir ++ Byte.slash :: name)
      = Text.runes dir ++ slash :: Text.runes name := Text.runes_append_cons (by decide) dir name
  obtain ⟨more, hmore⟩ := Nat.exists_eq_add_of_le
    (fuel_le (Text.runes dir).length q.whole.length (Text.runes name).length)
  have hfuel : ((q.under (Text.runes dir)).length + 2)
      * ((Text.runes dir ++ slash :: Text.runes name).length + 2)
      * ((Text.runes dir ++ slash :: Text.runes name).length + 2)
        = (Text.runes dir).length + 1 + ((Text.runes name).length * (q.whole.length + 1)
          + q.whole.length + 1 + more + 1) := by
    simp only [under, List.length_append, List.length_cons]
    rw [hmore]
    ring
  simp only [Glob.accepts, hpath, hpattern, hfuel]
  rw [matchFrom_under hdir (Nat.le_add_right _ more)]
  simp

end Choice

/-! ### Looking names up -/

/-- Names are looked up in the directory before the first segment with a meaning. -/
lemma lead_append_cons {dir : Text} (hdir : ∀ b ∈ dir, isSpecial b = false) {b : UInt8}
    (hb : isSpecial b = true) (rest : Text) :
    lead (dir ++ Byte.slash :: b :: rest) = dir ++ [Byte.slash] := by
  have hfront : ∀ c ∈ dir ++ [Byte.slash], (!isSpecial c) = true := by
    rw [List.forall_mem_append]
    exact ⟨fun c hc => by simp [hdir c hc], by decide⟩
  have hsplit : dir ++ Byte.slash :: b :: rest = (dir ++ [Byte.slash]) ++ b :: rest := by simp
  rw [lead, hsplit, List.takeWhile_append_of_pos hfront,
    List.takeWhile_cons_of_neg (by simp [hb]), List.append_nil, List.reverse_append,
    List.reverse_singleton, List.singleton_append, List.dropWhile_cons_of_neg (by simp)]
  simp

end Glob

end MiniProgram
