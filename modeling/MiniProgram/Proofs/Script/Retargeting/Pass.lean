import MiniProgram.Proofs.Script.Retargeting.Statement

/-!
What a script refers to after one pass.

A pass changes the statements of one form. Where the changed statements stand apart from all other
references, in the script and in the result, each names afterwards what it is retargeted to, and
every other reference stays.

* `Retargeting.Move`, `Retargeting.moves`: where the changed statements stand before and after.
* `Retargeting.Apart`: what is asked of a script.
* `Retargeting.exists_pieces`: a script cut at the statements that are changed.
* `Retargeting.Apart.specs_pass`: **what the references name after a pass.**
-/

namespace MiniProgram

namespace Script

open Text Marked
open Search (Stretch)

namespace Retargeting

/-! ### Changed statements -/

/-- A match with the edit of its reference, if it calls for one. -/
def change? (f : Text → Retarget) (form : ReferenceForm) (code : Text) (hit : Hit Quoted) :
    Option (Hit Quoted × (ℕ × ℕ × Text)) :=
  (edit? f form code hit).map fun e => (hit, e)

/-- The matches of one form whose references call for an edit. -/
def changes (f : Text → Retarget) (form : ReferenceForm) (code : Text) :
    List (Hit Quoted × (ℕ × ℕ × Text)) := (formHits form code).filterMap (change? f form code)

/-- Where a statement that is changed stands in a script, and where it comes to stand. -/
structure Move where
  start : ℕ
  length : ℕ
  place : ℕ
  size : ℕ
deriving DecidableEq, Repr

/-- The moves of changed statements, read from a position on that comes to lie at a place. -/
def movesFrom : (position place : ℕ) → List (Hit Quoted × (ℕ × ℕ × Text)) → List Move
  | _, _, [] => []
  | position, place, (hit, (_, length, new)) :: changes =>
    let place := place + (hit.start - position)
    let size := hit.length - length + new.length
    ⟨hit.start, hit.length, place, size⟩
      :: movesFrom (hit.start + hit.length) (place + size) changes

/-- The moves of the statements of one form that are changed. -/
def moves (f : Text → Retarget) (form : ReferenceForm) (code : Text) : List Move :=
  movesFrom 0 0 (changes f form code)

/-- The script after a pass. -/
def after (f : Text → Retarget) (form : ReferenceForm) (code : Text) : Text :=
  Search.splice 0 (edits f form code) code

/-- A specifier that is put in the place of another can be read back. -/
def Readable (spec : Text) : Retarget → Prop
  | .replace new => new = spec ∨ IsSpec new
  | .drop => True

/-- The statements that a pass changes stand apart: no comment is opened or closed by the edits, no
reference of another form meets a changed statement, a reference of the result that meets one of
them is that statement, and specifiers that are put in can be read back. -/
structure Apart (f : Text → Retarget) (form : ReferenceForm) (code : Text) : Prop where
  comments : maskComments (after f form code)
    = Search.splice 0 (edits f form code) (maskComments code)
  source : ∀ move ∈ moves f form code, ∀ form', form' ≠ form → ∀ ref ∈ references form' code,
    ¬ Meets ref.start ref.length move.start move.length
  result : ∀ move ∈ moves f form code, ∀ form', ∀ ref ∈ references form' (after f form code),
    Meets ref.start ref.length move.place move.size →
      form' = form ∧ ref.start = move.place ∧ ref.length = move.size
  readable : ∀ ref ∈ references form code, Readable ref.spec (f ref.spec)

/-! ### Checking the conditions -/

instance (spec : Text) : Decidable (IsSpec spec) := inferInstanceAs (Decidable (_ ∧ _))

instance (spec : Text) : (r : Retarget) → Decidable (Readable spec r)
  | .replace _ => inferInstanceAs (Decidable (_ ∨ _))
  | .drop => inferInstanceAs (Decidable True)

lemma apart_iff {f : Text → Retarget} {form : ReferenceForm} {code : Text} :
    Apart f form code
      ↔ maskComments (after f form code) = Search.splice 0 (edits f form code) (maskComments code)
        ∧ (∀ move ∈ moves f form code, ∀ form', form' ≠ form → ∀ ref ∈ references form' code,
          ¬ Meets ref.start ref.length move.start move.length)
        ∧ (∀ move ∈ moves f form code, ∀ form', ∀ ref ∈ references form' (after f form code),
          Meets ref.start ref.length move.place move.size →
            form' = form ∧ ref.start = move.place ∧ ref.length = move.size)
        ∧ ∀ ref ∈ references form code, Readable ref.spec (f ref.spec) :=
  ⟨fun h => ⟨h.comments, h.source, h.result, h.readable⟩,
    fun ⟨hcomments, hsource, hresult, hreadable⟩ => ⟨hcomments, hsource, hresult, hreadable⟩⟩

instance (f : Text → Retarget) (form : ReferenceForm) (code : Text) :
    Decidable (Apart f form code) := decidable_of_iff' _ apart_iff

variable {f : Text → Retarget} {form form' : ReferenceForm} {code : Text} {z rest : Marked}
  {ps : List Piece} {position place : ℕ}

lemma map_snd_changes (f : Text → Retarget) (form : ReferenceForm) (code : Text) :
    (changes f form code).map Prod.snd = edits f form code := by
  rw [changes, List.map_filterMap, edits]
  refine List.filterMap_congr fun hit _ => ?_
  rw [change?, Option.map_map]
  exact Option.map_id'

/-- A move begins at a match. -/
lemma exists_of_mem_movesFrom {move : Move} {cs : List (Hit Quoted × (ℕ × ℕ × Text))}
    (h : move ∈ movesFrom position place cs) :
    ∃ c ∈ cs, c.1.start = move.start ∧ c.1.length = move.length := by
  induction cs generalizing position place with
  | nil => cases h
  | cons c cs ih =>
      obtain ⟨hit, start, length, new⟩ := c
      rw [movesFrom, List.mem_cons] at h
      rcases h with rfl | h
      · exact ⟨_, List.mem_cons_self, rfl, rfl⟩
      · obtain ⟨c, hc, hmove⟩ := ih h
        exact ⟨c, List.mem_cons_of_mem _ hc, hmove⟩

lemma exists_hit_of_mem_moves {move : Move} (h : move ∈ moves f form code) :
    ∃ hit ∈ formHits form code, hit.start = move.start ∧ hit.length = move.length := by
  obtain ⟨c, hc, hmove⟩ := exists_of_mem_movesFrom h
  obtain ⟨hit, hhit, hchange⟩ := List.mem_filterMap.1 hc
  obtain ⟨e, -, rfl⟩ := Option.map_eq_some_iff.1 hchange
  exact ⟨hit, hhit, hmove⟩

/-! ### Pieces of a script -/

/-- The changes that the pieces of a script stand for, the first of which begins at a position. -/
def Piece.changesFrom : (position : ℕ) → List Piece → List (Hit Quoted × (ℕ × ℕ × Text))
  | _, [] => []
  | position, p :: ps =>
    (Search.shift (position + p.kept.length) p.hit,
        (position + p.kept.length + p.start, p.length, p.new))
      :: changesFrom (position + p.kept.length + p.statement.length) ps

/-- Every reference of a form names the same afterwards. -/
def Unchanged (f : Text → Retarget) (form : ReferenceForm) (z : Marked) : Prop :=
  ∀ spec ∈ specs form z, landed f form spec = some spec

/-- A text none of whose references calls for an edit. -/
lemma unchanged_of_forall (past : Text)
    (h : ∀ hit ∈ Search.hits form.pattern z.masked,
      change? f form (past ++ z.raw) (Search.shift past.length hit) = none) :
    Unchanged f form z := by
  intro spec hspec
  obtain ⟨hit, hhit, rfl⟩ := List.mem_map.1 hspec
  have hnone := h hit hhit
  rw [change?, Option.map_eq_none_iff, edit?_shift, Option.map_eq_none_iff] at hnone
  exact edit?_eq_none_iff.1 hnone

/-- What follows changes nothing about a change. -/
lemma change?_append {past : Text} {hit : Hit Quoted} (hfits : Fits z.raw hit) (t : Text) :
    change? f form (past ++ (z.raw ++ t)) (Search.shift past.length hit)
      = change? f form (past ++ z.raw) (Search.shift past.length hit) := by
  rw [change?, change?, edit?_shift, edit?_shift,
    edit?_congr f form hfits (List.take_append_of_le_length hfits.statement)]

/-- **A script in pieces.** It is cut at the statements that are changed; what lies between them
names the same afterwards. -/
theorem exists_pieces (f : Text → Retarget) (form : ReferenceForm) (past : Text) (z : Marked) :
    ∃ ps rest, Stretch.source (ps.map Piece.stretch) rest = z
      ∧ Piece.changesFrom past.length ps
        = ((Search.hits form.pattern z.masked).map (Search.shift past.length)).filterMap
          (change? f form (past ++ z.raw))
      ∧ (∀ p ∈ ps, Sound f form p ∧ Unchanged f form p.kept) ∧ Unchanged f form rest := by
  generalize hcs : ((Search.hits form.pattern z.masked).map (Search.shift past.length)).filterMap
    (change? f form (past ++ z.raw)) = cs
  rw [List.filterMap_map] at hcs
  induction cs generalizing past z with
  | nil =>
      rw [List.filterMap_eq_nil_iff] at hcs
      exact ⟨[], z, rfl, rfl, nofun, unchanged_of_forall past hcs⟩
  | cons c cs ih =>
      obtain ⟨before, hit, behind, hhits, hbefore, hchange, hbehind⟩ :=
        List.filterMap_eq_cons_iff.1 hcs
      obtain ⟨kept, part, tail, rfl, hhit, hword, hcovers, rfl, rfl⟩ := exists_cut_of_hits_eq hhits
      rw [List.filterMap_map] at hbehind
      simp only [raw_append, Function.comp_apply] at hbefore hchange hbehind
      -- the stretch before the statement
      have hkept : Unchanged f form kept := by
        refine unchanged_of_forall past fun hit hhit => ?_
        rw [← change?_append (fits_of_mem_hits hhit)]
        exact hbefore hit hhit
      -- the statement
      have hshift : Search.shift past.length hit
          = Search.shift (past ++ kept.raw).length ⟨0, part.length, hit.found⟩ := by
        rw [hhit, Search.shift, Search.shift, List.length_append, length_raw]
        dsimp only
        rw [Nat.zero_add, Nat.add_comm]
      have hfits : Fits part.raw ⟨0, part.length, hit.found⟩ := by
        have hle := hcovers.lead_add_length_le
        rw [length_masked] at hle
        exact ⟨hle, by rw [length_raw, Nat.zero_add]⟩
      rw [hshift, ← List.append_assoc, change?_append hfits, change?, edit?_shift,
        Option.map_map] at hchange
      obtain ⟨⟨start, length, new⟩, hedit, rfl⟩ := Option.map_eq_some_iff.1 hchange
      -- what follows it
      have hlength : (past ++ (kept.raw ++ part.raw)).length
          = past.length + (kept.length + part.length) := by simp
      obtain ⟨ps, rest, htail, hcs, hps, hrest⟩ := ih (past ++ (kept.raw ++ part.raw)) tail <| by
        rw [← hbehind, hlength]
        simp only [List.append_assoc, Function.comp_def, Search.shift_shift]
      refine ⟨⟨kept, part, hit.found, start, length, new⟩ :: ps, rest, ?_, ?_, ?_, hrest⟩
      · rw [List.map_cons, Stretch.source_cons, htail]
        rfl
      · rw [hlength, ← Nat.add_assoc] at hcs
        rw [Piece.changesFrom, hcs, List.length_append, length_raw]
        rfl
      · exact List.forall_mem_cons.2 ⟨⟨⟨hcovers, hword, hedit⟩, hkept⟩, hps⟩

/-! ### Moves and edits of pieces -/

section Pieces

variable (hps : ∀ p ∈ ps, Sound f form p)

include hps

/-- The moves of the changes of pieces: from where the statements stand to where they come to
stand. -/
lemma movesFrom_changesFrom (position place : ℕ) :
    (movesFrom position place (Piece.changesFrom position ps)).map (fun m => (m.start, m.length))
        = Stretch.spans position (ps.map Piece.stretch)
      ∧ (movesFrom position place (Piece.changesFrom position ps)).map (fun m => (m.place, m.size))
        = Stretch.spans place ((ps.map Piece.stretch).map Stretch.made) := by
  induction ps generalizing position place with
  | nil => exact ⟨rfl, rfl⟩
  | cons p ps ih =>
      obtain ⟨hp, hps⟩ := List.forall_mem_cons.1 hps
      have hstart : (Search.shift (position + p.kept.length) p.hit).start
          = position + p.kept.length := Nat.zero_add _
      have hlength : (Search.shift (position + p.kept.length) p.hit).length
          = p.statement.length := rfl
      have hplace : place + (position + p.kept.length - position) = place + p.kept.length := by
        rw [Nat.add_sub_cancel_left]
      obtain ⟨hold, hnew⟩ := ih hps (position + p.kept.length + p.statement.length)
        (place + p.kept.length + p.restated.length)
      simp only [Piece.changesFrom, movesFrom, hstart, hlength, hplace, ← hp.length_restated,
        List.map_cons, hold, hnew, Stretch.spans]
      exact ⟨rfl, rfl⟩

/-- The edits of pieces begin behind their position. -/
lemma le_of_mem_changesFrom {e : ℕ × ℕ × Text}
    (h : e ∈ (Piece.changesFrom position ps).map Prod.snd) : position ≤ e.1 := by
  induction ps generalizing position with
  | nil => cases h
  | cons p ps ih =>
      obtain ⟨hp, hps⟩ := List.forall_mem_cons.1 hps
      rw [Piece.changesFrom, List.map_cons, List.mem_cons] at h
      rcases h with rfl | h
      · dsimp only
        omega
      · have := ih hps h
        omega

/-- The edits of pieces, made in the masked text or in the text itself, put the statements after
their edits in the place of the statements. -/
lemma splice_changesFrom {g : UInt8 × UInt8 → UInt8} (hg : ∀ b, g (b, b) = b) :
    Search.splice position ((Piece.changesFrom position ps).map Prod.snd)
        ((Stretch.source (ps.map Piece.stretch) rest).map g)
      = (Stretch.target (ps.map Piece.stretch) rest).map g := by
  induction ps generalizing position with
  | nil => rfl
  | cons p ps ih =>
      obtain ⟨hp, hps⟩ := List.forall_mem_cons.1 hps
      have hwithin := hp.within
      have hnew : (ofText p.new).map g = p.new := by
        rw [ofText, List.map_map]
        exact (List.map_congr_left fun b _ => hg b).trans (List.map_id p.new)
      have hstart : position + p.kept.length + p.start - position
          = (p.kept.map g).length + p.start := by
        rw [List.length_map]
        omega
      have hend : position + p.kept.length + p.start + p.length
          + (p.statement.length - (p.start + p.length))
            = position + p.kept.length + p.statement.length := by omega
      -- the edits of the further pieces lie behind the statement, so it is spliced by its own
      -- edit
      have hbehind : ∀ e ∈ (Piece.changesFrom (position + p.kept.length + p.statement.length)
          ps).map Prod.snd, position + p.kept.length + p.start + p.length
            + (p.statement.length - (p.start + p.length)) ≤ e.1 :=
        fun e he => hend.le.trans (le_of_mem_changesFrom hps he)
      have hleft : ((p.statement.map g).drop (p.start + p.length)).length
          = p.statement.length - (p.start + p.length) := by
        rw [List.length_drop, List.length_map]
      rw [Piece.changesFrom, List.map_cons, List.map_cons, Stretch.source_cons, Stretch.target_cons,
        List.map_append, List.map_append, List.map_append, List.map_append, Search.splice]
      simp only [Piece.stretch, Piece.restated, List.map_append, List.map_take, List.map_drop, hnew]
      rw [hstart, Nat.add_assoc (List.length _), List.take_length_add_append,
        List.drop_length_add_append, List.take_append_of_le_length (by rw [List.length_map]; omega),
        List.drop_append_of_le_length (by rw [List.length_map]; omega),
        Search.splice_eq_take_append hbehind, List.take_left' hleft, List.drop_left' hleft, hend,
        ih hps]
      simp only [List.append_assoc]

end Pieces

/-! ### The pass -/

lemma Unchanged.filterMap (h : Unchanged f form z) :
    (specs form z).filterMap (landed f form) = specs form z := by
  rw [List.filterMap_congr h, List.filterMap_some]

/-- A script and what a pass makes of it, in pieces. -/
structure Pieces (f : Text → Retarget) (form : ReferenceForm) (code : Text) (ps : List Piece)
    (rest : Marked) : Prop where
  source : Stretch.source (ps.map Piece.stretch) rest = ofCode code
  changes : Piece.changesFrom 0 ps = changes f form code
  sound : ∀ p ∈ ps, Sound f form p
  unchanged : ∀ p ∈ ps, Unchanged f form p.kept
  rest : Unchanged f form rest

lemma exists_pieces_code (f : Text → Retarget) (form : ReferenceForm) (code : Text) :
    ∃ ps rest, Pieces f form code ps rest := by
  obtain ⟨ps, rest, hsource, hchanges, hps, hrest⟩ := exists_pieces f form [] (ofCode code)
  refine ⟨ps, rest, hsource, ?_, fun p hp => (hps p hp).1, fun p hp => (hps p hp).2, hrest⟩
  have hshift : Search.shift ([] : Text).length = (id : Hit Quoted → Hit Quoted) := rfl
  rw [hshift, List.map_id, masked_ofCode, raw_ofCode] at hchanges
  exact hchanges

namespace Pieces

variable (h : Pieces f form code ps rest)

include h

lemma target (hcomments : maskComments (after f form code)
      = Search.splice 0 (edits f form code) (maskComments code)) :
    Stretch.target (ps.map Piece.stretch) rest = ofCode (after f form code) := by
  have hsplice : ∀ g : UInt8 × UInt8 → UInt8, (∀ b, g (b, b) = b) →
      Search.splice 0 (edits f form code) ((ofCode code).map g)
        = (Stretch.target (ps.map Piece.stretch) rest).map g := by
    intro g hg
    rw [← h.source, ← map_snd_changes, ← h.changes]
    exact splice_changesFrom h.sound hg
  refine List.zip_of_prod ?_ ?_
  · rw [hcomments, ← hsplice Prod.fst fun _ => rfl]
    exact congrArg (Search.splice 0 _) (masked_ofCode code)
  · rw [← hsplice Prod.snd fun _ => rfl]
    exact congrArg (Search.splice 0 _) (raw_ofCode code)

/-- Every span of a statement is where one of the moves begins. -/
lemma exists_move_of_mem_spans {span : ℕ × ℕ}
    (hspan : span ∈ Stretch.spans 0 (ps.map Piece.stretch)) :
    ∃ move ∈ moves f form code, (move.start, move.length) = span := by
  rw [← (movesFrom_changesFrom h.sound 0 0).1, h.changes] at hspan
  exact List.mem_map.1 hspan

/-- Every span of a statement after its edit is where one of the moves ends. -/
lemma exists_move_of_mem_spans_made {span : ℕ × ℕ}
    (hspan : span ∈ Stretch.spans 0 ((ps.map Piece.stretch).map Stretch.made)) :
    ∃ move ∈ moves f form code, (move.place, move.size) = span := by
  rw [← (movesFrom_changesFrom h.sound 0 0).2, h.changes] at hspan
  exact List.mem_map.1 hspan

lemma clean : ∀ s ∈ ps.map Piece.stretch, Clean s := by
  refine List.forall_mem_map.2 fun p hp => ?_
  exact ⟨(h.sound p hp).word, (h.sound p hp).covers.wordStart⟩

/-- A match of the form that meets a statement is that statement. -/
lemma inside : Inside form 0 (ps.map Piece.stretch) rest := by
  intro span hspan hit hhit hmeets
  obtain ⟨move, hmove, rfl⟩ := h.exists_move_of_mem_spans hspan
  obtain ⟨hit', hhit', hstart, hlength⟩ := exists_hit_of_mem_moves hmove
  rw [h.source, masked_ofCode] at hhit
  simp only [Meets, ← hstart, ← hlength, Nat.zero_add] at hmeets ⊢
  rcases Search.eq_or_disjoint_of_mem_hits hhit hhit' with rfl | hle | hle <;> omega

/-- The statements name their specifiers. -/
lemma specs_code : specs form (ofCode code)
    = (ps.flatMap fun p => specs form p.kept ++ [p.spec]) ++ specs form rest := by
  rw [← h.source, specs_source h.clean h.inside, List.flatMap_map]
  refine congrArg (· ++ _) (List.flatMap_congr fun p hp => ?_)
  exact congrArg (_ ++ ·) (h.sound p hp).specs_statement

end Pieces

namespace Apart

variable (h : Apart f form code)

include h

/-- In the script, no reference of another form meets a changed statement. -/
lemma outside_source (hp : Pieces f form code ps rest) (hform : form' ≠ form) :
    Outside form' 0 (ps.map Piece.stretch) rest := by
  intro span hspan hit hhit
  obtain ⟨move, hmove, rfl⟩ := hp.exists_move_of_mem_spans hspan
  rw [hp.source, masked_ofCode] at hhit
  rw [Nat.zero_add]
  exact h.source move hmove form' hform _ (List.mem_map_of_mem hhit)

/-- In the result, a reference that meets a changed statement is that statement. -/
lemma of_meets (hp : Pieces f form code ps rest) {span : ℕ × ℕ} {hit : Hit Quoted}
    (hspan : span ∈ Stretch.spans 0 ((ps.map Piece.stretch).map Stretch.made))
    (hhit : hit ∈ Search.hits form'.pattern
      (masked (Stretch.source ((ps.map Piece.stretch).map Stretch.made) rest)))
    (hmeets : Meets (0 + hit.start) hit.length span.1 span.2) :
    form' = form ∧ hit.start = span.1 ∧ hit.length = span.2 := by
  obtain ⟨move, hmove, rfl⟩ := hp.exists_move_of_mem_spans_made hspan
  rw [Stretch.source_map_made, hp.target h.comments, masked_ofCode] at hhit
  rw [Nat.zero_add] at hmeets
  exact h.result move hmove form' _ (List.mem_map_of_mem hhit) hmeets

lemma inside_result (hp : Pieces f form code ps rest) (form' : ReferenceForm) :
    Inside form' 0 ((ps.map Piece.stretch).map Stretch.made) rest := by
  intro span hspan hit hhit hmeets
  obtain ⟨-, hstart, hlength⟩ := h.of_meets hp hspan hhit hmeets
  omega

lemma outside_result (hp : Pieces f form code ps rest) (hform : form' ≠ form) :
    Outside form' 0 ((ps.map Piece.stretch).map Stretch.made) rest :=
  fun _ hspan _ hhit hmeets => hform (h.of_meets hp hspan hhit hmeets).1

/-- The statements name what they are retargeted to. -/
lemma specs_restated (hp : Pieces f form code ps rest) : ∀ p ∈ ps,
    specs form p.restated = (landed f form p.spec).toList
      ∧ atWordStart p.restated.masked.getLast? = true := by
  intro p hmem
  refine (hp.sound p hmem).specs_restated fun new hnew => ?_
  have hspec : p.spec ∈ (references form code).map (·.spec) := by
    rw [← specs_ofCode, hp.specs_code]
    exact List.mem_append_left _ (List.mem_flatMap.2 ⟨p, hmem, by simp⟩)
  obtain ⟨ref, href, heq⟩ := List.mem_map.1 hspec
  have hreadable := h.readable ref href
  rwa [heq, hnew] at hreadable

lemma clean_result (hp : Pieces f form code ps rest) :
    ∀ s ∈ (ps.map Piece.stretch).map Stretch.made, Clean s := by
  rw [List.map_map]
  refine List.forall_mem_map.2 fun p hmem => ?_
  exact ⟨(hp.sound p hmem).word, (h.specs_restated hp p hmem).2⟩

/-- **What the references name after a pass.** Those of its form name what they are retargeted to,
without those that are dropped; those of the other forms name the same. -/
theorem specs_pass (form' : ReferenceForm) :
    (references form' (after f form code)).map (·.spec)
      = if form' = form then ((references form code).map (·.spec)).filterMap (landed f form)
        else (references form' code).map (·.spec) := by
  obtain ⟨ps, rest, hp⟩ := exists_pieces_code f form code
  -- the result is cut like the script, with each statement in its new form
  have hresult : specs form' (ofCode (after f form code))
      = ((ps.map Piece.stretch).map Stretch.made).flatMap
          (fun s => specs form' s.kept ++ specs form' s.old) ++ specs form' rest := by
    rw [← hp.target h.comments, ← Stretch.source_map_made]
    exact specs_source (h.clean_result hp) (h.inside_result hp form')
  rw [List.flatMap_map, List.flatMap_map] at hresult
  rw [← specs_ofCode, ← specs_ofCode, ← specs_ofCode, hresult]
  split_ifs with hform
  · subst hform
    rw [hp.specs_code, List.filterMap_append, hp.rest.filterMap, List.filterMap_flatMap]
    refine congrArg (· ++ _) (List.flatMap_congr fun p hmem => ?_)
    have hspec : [p.spec].filterMap (landed f form') = (landed f form' p.spec).toList := by
      rw [List.filterMap_cons]
      cases landed f form' p.spec <;> rfl
    rw [List.filterMap_append, (hp.unchanged p hmem).filterMap, hspec]
    exact congrArg (_ ++ ·) (h.specs_restated hp p hmem).1
  · have hout := h.outside_source hp hform
    have hold := specs_old_eq_nil hp.clean hout
    have hnew := specs_old_eq_nil (h.clean_result hp) (h.outside_result hp hform)
    rw [← hp.source, specs_source hp.clean hout.inside, List.flatMap_map]
    refine congrArg (· ++ _) (List.flatMap_congr fun p hmem => congrArg (_ ++ ·) ?_)
    rw [hold _ (List.mem_map_of_mem hmem),
      hnew _ (List.mem_map_of_mem (List.mem_map_of_mem hmem))]

end Apart

end Retargeting

end Script

end MiniProgram
