import MiniProgram.Proofs.Indexed.Reading
import MiniProgram.Proofs.Script.Markup

/-!
Opening tags, by position.

The search for opening tags hands the position behind the name of a tag to the scan of its
attributes, and goes on behind the position where that scan ends. The scan itself jumps over
literals and attribute names, and steps back by one at the end of a name.

* `scanAttrsFrom_between_cons`: the scan over a literal or name as a whole.
* `scanAttrsFrom_rest`: the scan ends at a `>` or at the end of the text.
* `attrsRound_of_drop`, `usagesRound_of_less`: what a round does.
* `scanAttrs_spec`: **the scan by position is the scan**, and where it ends.
* `jsxUsages_eq`: **the search by position is the search.**
-/

namespace MiniProgram

/-! ### Over a literal and over a name -/

namespace Script

variable {t : Text} {quote : UInt8}

lemma scanAttrsFrom_inLiteral (quote : UInt8) (escaped : Bool) (depth : ℕ) (t : Text) :
    scanAttrsFrom (if escaped then .escaped quote else .literal quote) depth t
      = scanAttrsFrom .between depth (t.drop (literalLength quote escaped t)) := by
  fun_induction literalLength quote escaped t with
  | case1 escaped => cases escaped <;> rfl
  | case2 b t ih => exact ih
  | case3 t ih =>
      rw [if_neg Bool.false_ne_true, scanAttrsFrom, if_pos rfl]
      exact ih
  | case4 b t hescape hend =>
      rw [if_neg Bool.false_ne_true, scanAttrsFrom, if_neg hescape, if_pos hend]
      rfl
  | case5 b t hescape hend ih =>
      rw [if_neg Bool.false_ne_true, scanAttrsFrom, if_neg hescape, if_neg hend]
      exact ih

/-- The scan over a literal goes on behind it. -/
lemma scanAttrsFrom_literal (quote : UInt8) (depth : ℕ) (t : Text) :
    scanAttrsFrom (.literal quote) depth t
      = scanAttrsFrom .between depth (t.drop (literalLength quote false t)) :=
  scanAttrsFrom_inLiteral quote false depth t

/-- The scan over an attribute name lists it and goes on behind it. -/
lemma scanAttrsFrom_name (bytes t : Text) :
    scanAttrsFrom (.name bytes) 0 t
      = ((bytes.reverse ++ t.takeWhile isAttributeByte)
          :: (scanAttrsFrom .between 0 (t.dropWhile isAttributeByte)).1,
        (scanAttrsFrom .between 0 (t.dropWhile isAttributeByte)).2) := by
  induction t generalizing bytes with
  | nil => simp [scanAttrsFrom, TagState.finished]
  | cons b t ih =>
      rw [scanAttrsFrom]
      by_cases hb : isAttributeByte b = true
      · rw [if_pos hb, ih, List.takeWhile_cons_of_pos hb, List.dropWhile_cons_of_pos hb]
        simp
      · rw [if_neg hb, List.takeWhile_cons_of_neg hb, List.dropWhile_cons_of_neg hb,
          List.append_nil, scanAttrsFrom, decide_eq_true rfl, Bool.true_and]
        simp only [decide_eq_true_eq]
        split_ifs <;> rfl

/-- Between attributes the scan goes on behind the literal or name that a byte opens. -/
lemma scanAttrsFrom_between_cons (depth : ℕ) (b : UInt8) (t : Text) :
    scanAttrsFrom .between depth (b :: t)
      = if opensLiteral b then
          scanAttrsFrom .between depth (t.drop (literalLength b false t))
        else if b = Byte.openBrace then scanAttrsFrom .between (depth + 1) t
        else if b = Byte.closeBrace then scanAttrsFrom .between (depth - 1) t
        else if 0 < depth then scanAttrsFrom .between depth t
        else if b = Byte.greater then ([], b :: t)
        else if Byte.isIdent b then
          ((b :: t.takeWhile isAttributeByte)
              :: (scanAttrsFrom .between depth (t.dropWhile isAttributeByte)).1,
            (scanAttrsFrom .between depth (t.dropWhile isAttributeByte)).2)
        else scanAttrsFrom .between depth t := by
  rw [scanAttrsFrom, tagStep]
  by_cases hgreater : b = Byte.greater
  · subst hgreater
    cases depth <;> rfl
  · rw [if_neg (by simp [hgreater]), if_neg hgreater]
    cases depth with
    | zero =>
        rw [if_neg (lt_irrefl 0), decide_eq_true rfl, Bool.true_and]
        split_ifs
        · exact scanAttrsFrom_literal b 0 t
        · rfl
        · rfl
        · exact scanAttrsFrom_name [b] t
        · rfl
    | succ depth =>
        rw [if_pos depth.succ_pos, decide_eq_false depth.succ_ne_zero, Bool.false_and,
          if_neg Bool.false_ne_true]
        split_ifs
        · exact scanAttrsFrom_literal b (depth + 1) t
        · rfl
        · rfl
        · rfl

/-- The scan ends at the `>` that ends the tag, or at the end of the text. -/
lemma scanAttrsFrom_rest (s : TagState) (depth : ℕ) (t : Text) :
    (scanAttrsFrom s depth t).2 <:+ t
      ∧ ∀ c ∈ (scanAttrsFrom s depth t).2.head?, c = Byte.greater := by
  induction t generalizing s depth with
  | nil =>
      rw [scanAttrsFrom]
      exact ⟨List.suffix_rfl, nofun⟩
  | cons b t ih =>
      have hnext := fun s depth => (ih s depth).imp_left (·.trans (List.suffix_cons b t))
      have hhere : b = Byte.greater →
          b :: t <:+ b :: t ∧ ∀ c ∈ (b :: t).head?, c = Byte.greater := by
        rintro rfl
        exact ⟨List.suffix_rfl, fun c hc => (Option.some.inj hc).symm⟩
      cases s with
      | between =>
          rw [scanAttrsFrom]
          split_ifs with hend
          · rw [Bool.and_eq_true, decide_eq_true_eq, decide_eq_true_eq] at hend
            exact hhere hend.2
          · exact hnext _ _
      | literal quote =>
          rw [scanAttrsFrom]
          split_ifs <;> exact hnext _ _
      | escaped quote =>
          rw [scanAttrsFrom]
          exact hnext _ _
      | name bytes =>
          rw [scanAttrsFrom]
          split_ifs with hbyte hend
          · exact hnext _ _
          · exact hhere hend
          · exact hnext _ _

/-- What a listed tag takes is passed over in one go. -/
lemma usagesFrom_skip (locals : Locals) (n : ℕ) (t : Text) :
    usagesFrom locals n t = usagesFrom locals 0 (t.drop n) := by
  induction t generalizing n with
  | nil => cases n <;> rfl
  | cons b t ih =>
      cases n with
      | zero => rfl
      | succ n => rw [usagesFrom, ih, List.drop_succ_cons]

end Script

namespace Indexed

open Script (Locals Usage TagState scanAttrsFrom isAttributeByte isTagByte usagesFrom)

variable {code t : Text} {b : UInt8} {i depth : ℕ}

/-! ### Attributes -/

/-- One round of the scan, inside `depth` braces: a literal is passed over, a name outside braces is
listed, and a `>` there ends the scan. -/
def attrsRound (code : Text) (i : ℕ) (b : UInt8) :
    ℕ × List Text → Option (Next (ℕ × List Text) (List Text × ℕ))
  | (depth, attrs) => do
    if Script.opensLiteral b then
      let stop ← literalEnd code i
      return .on (stop + 1) (depth, attrs)
    else if b = Byte.openBrace then return .on (i + 1) (depth + 1, attrs)
    else if b = Byte.closeBrace then return .on (i + 1) (depth - 1, attrs)
    else if 0 < depth then return .on (i + 1) (depth, attrs)
    else if b = Byte.greater then return .done (attrs, i)
    else if Byte.isIdent b then
      let stop ← runEnd isAttributeByte code i
      let name ← slice? code i stop
      let last ← back? stop
      return .on (last + 1) (depth, attrs ++ [name])
    else return .on (i + 1) (depth, attrs)

/-- Goes over an opening tag from a position on, inside `depth` braces, and lists the attribute
names in it: the list, and the position where the tag ends. -/
def attrsLoop (code : Text) (i depth : ℕ) (attrs : List Text) : Option (List Text × ℕ) :=
  loop code (attrsRound code) (fun i state => some (state.2, i)) i (depth, attrs)

/-- The attribute names from a position on, and where the opening tag ends. -/
def scanAttrs (code : Text) (i : ℕ) : Option (List Text × ℕ) := attrsLoop code i 0 []

/-- A round goes behind the literal or name that a byte opens. -/
lemma attrsRound_of_drop (h : code.drop i = b :: t) (depth : ℕ) (attrs : List Text) :
    attrsRound code i b (depth, attrs)
      = some (if Script.opensLiteral b then
          .on (i + 1 + Script.literalLength b false t) (depth, attrs)
        else if b = Byte.openBrace then .on (i + 1) (depth + 1, attrs)
        else if b = Byte.closeBrace then .on (i + 1) (depth - 1, attrs)
        else if 0 < depth then .on (i + 1) (depth, attrs)
        else if b = Byte.greater then .done (attrs, i)
        else if Byte.isIdent b then
          .on (i + 1 + (t.takeWhile isAttributeByte).length)
            (depth, attrs ++ [b :: t.takeWhile isAttributeByte])
        else .on (i + 1) (depth, attrs)) := by
  have hlength := length_eq_of_drop h
  rw [attrsRound]
  split_ifs with hliteral hopen hclose hdepth hgreater hident
  · rw [literalEnd_of_drop h, Option.bind_eq_bind, Option.bind_some, Nat.add_right_comm]
    rfl
  · rfl
  · rfl
  · rfl
  · rfl
  · -- the name is read whole, and the loop goes on behind its last byte
    have hbyte : isAttributeByte b = true := by simp [isAttributeByte, hident]
    have hname : code.drop i
        = (b :: t.takeWhile isAttributeByte) ++ t.dropWhile isAttributeByte := by
      rw [h, List.cons_append, List.takeWhile_append_dropWhile]
    simp only [Option.bind_eq_bind]
    rw [runEnd_eq, h, List.takeWhile_cons_of_pos hbyte, Option.bind_some,
      slice?_of_drop (by omega) hname, Option.bind_some, List.length_cons, ← Nat.add_assoc,
      back?_eq (Nat.succ_pos _), Option.bind_some, Nat.succ_sub_one, Nat.add_right_comm]
    rfl
  · rfl

/-- The scan by position, from a position on. -/
lemma attrsLoop_eq (i : ℕ) (hi : i ≤ code.length) (depth : ℕ) (attrs : List Text) :
    attrsLoop code i depth attrs
      = some (attrs ++ (scanAttrsFrom .between depth (code.drop i)).1,
        code.length - (scanAttrsFrom .between depth (code.drop i)).2.length) := by
  induction i using upward code generalizing depth attrs with
  | behind i hle =>
      obtain rfl : i = code.length := le_antisymm hi hle
      rw [attrsLoop, loop_of_length_le le_rfl, List.drop_length, scanAttrsFrom]
      simp [TagState.finished]
  | step i b t h ih =>
      have hlength := length_eq_of_drop h
      have hnext : ∀ n ≤ t.length, ∀ depth attrs, attrsLoop code (i + 1 + n) depth attrs
          = some (attrs ++ (scanAttrsFrom .between depth (t.drop n)).1,
            code.length - (scanAttrsFrom .between depth (t.drop n)).2.length) :=
        fun n hn depth attrs => by rw [ih _ (by omega) (by omega), drop_of_drop h]
      have hround := attrsRound_of_drop h depth attrs
      rw [h, Script.scanAttrsFrom_between_cons]
      split_ifs at hround ⊢
      · exact (loop_of_on h hround).trans (hnext _ (literalLength_le b false t) depth attrs)
      · exact (loop_of_on h hround).trans (hnext 0 (Nat.zero_le _) (depth + 1) attrs)
      · exact (loop_of_on h hround).trans (hnext 0 (Nat.zero_le _) (depth - 1) attrs)
      · exact (loop_of_on h hround).trans (hnext 0 (Nat.zero_le _) depth attrs)
      · rw [attrsLoop, loop_of_done h hround, List.append_nil, List.length_cons, hlength,
          Nat.add_right_comm, Nat.add_assoc, Nat.add_sub_cancel]
      · have hle := (List.takeWhile_prefix (l := t) isAttributeByte).length_le
        have hrest := hnext _ hle depth (attrs ++ [b :: t.takeWhile isAttributeByte])
        rw [drop_length_takeWhile, List.append_assoc] at hrest
        exact (loop_of_on h hround).trans hrest
      · exact (loop_of_on h hround).trans (hnext 0 (Nat.zero_le _) depth attrs)

/-- **The scan by position is the scan**: from any position of a script on it ends, and at a
position that is no earlier, where either a `>` stands or the script ends. -/
theorem scanAttrs_spec (h : i ≤ code.length) :
    ∃ attrs stop, scanAttrs code i = some (attrs, stop)
      ∧ Script.scanAttrs (code.drop i) = (attrs, code.drop stop)
      ∧ i ≤ stop ∧ stop ≤ code.length
      ∧ (stop = code.length ∨ code[stop]? = some Byte.greater) := by
  obtain ⟨hsuffix, hend⟩ := Script.scanAttrsFrom_rest .between 0 (code.drop i)
  have hrest := List.suffix_iff_eq_drop.1 (hsuffix.trans (List.drop_suffix i code))
  have hle := hsuffix.length_le
  rw [List.length_drop] at hle
  refine ⟨_, _, attrsLoop_eq i h 0 [], Prod.ext rfl hrest, by omega, Nat.sub_le _ _, ?_⟩
  rw [hrest, List.head?_drop] at hend
  cases hbyte : code[code.length - (scanAttrsFrom .between 0 (code.drop i)).2.length]? with
  | none => exact Or.inl (le_antisymm (Nat.sub_le _ _) (List.getElem?_eq_none_iff.1 hbyte))
  | some c => exact Or.inr (congrArg some (hend c hbyte))

/-! ### Opening tags -/

/-- One round of the search: where a tag of a host component opens, its attributes are scanned and
the tag is passed over. -/
def usagesRound (locals : Locals) (code : Text) (i : ℕ) (b : UInt8) (found : List Usage) :
    Option (Next (List Usage) (List Usage)) := do
  if b = Byte.less then
    let stop ← runEnd isTagByte code (i + 1)
    let name ← slice? code (i + 1) stop
    match locals.find? name with
    | some component =>
      let (props, last) ← scanAttrs code stop
      return .on (last + 1) (found ++ [⟨component, props⟩])
    | none => return .on (i + 1) found
  else return .on (i + 1) found

/-- Goes over a script from a position on and lists the opening tags of host components. -/
def usagesLoop (locals : Locals) (code : Text) (i : ℕ) (found : List Usage) :
    Option (List Usage) :=
  loop code (usagesRound locals code) (fun _ found => some found) i found

/-- The opening tags of host components in a script. -/
def jsxUsages (locals : Locals) (code : Text) : Option (List Usage) := usagesLoop locals code 0 []

/-- Where a tag opens, its name is read whole. -/
lemma usagesRound_of_less (h : code.drop i = b :: t) (hb : b = Byte.less) (locals : Locals)
    (found : List Usage) :
    usagesRound locals code i b found = match locals.find? (t.takeWhile isTagByte) with
      | some component => (scanAttrs code (i + 1 + (t.takeWhile isTagByte).length)).map
          fun (props, last) => .on (last + 1) (found ++ [⟨component, props⟩])
      | none => some (.on (i + 1) found) := by
  have hlength := length_eq_of_drop h
  have hrest : code.drop (i + 1) = t := drop_of_drop h 0
  have hname : code.drop (i + 1) = t.takeWhile isTagByte ++ t.dropWhile isTagByte := by
    rw [hrest, List.takeWhile_append_dropWhile]
  rw [usagesRound, if_pos hb]
  simp only [Option.bind_eq_bind]
  rw [runEnd_eq, hrest, Option.bind_some, slice?_of_drop (by omega) hname, Option.bind_some]
  cases locals.find? (t.takeWhile isTagByte) with
  | none => rfl
  | some component => exact (Option.map_eq_bind).symm

/-- Behind a tag that ends at a position the search goes on at the next. -/
lemma usagesFrom_of_drop {stop : ℕ} (h : code.drop i = b :: t) (hstop : i < stop)
    (locals : Locals) :
    usagesFrom locals (t.length - ((code.drop stop).drop 1).length) t
      = usagesFrom locals 0 (code.drop (stop + 1)) := by
  have hnext : i + 1 + (stop - i) = stop + 1 := by omega
  have hsuffix : code.drop (stop + 1) <:+ t := by
    rw [← hnext, drop_of_drop h]
    exact List.drop_suffix _ _
  rw [List.drop_drop, Script.usagesFrom_skip, ← List.suffix_iff_eq_drop.1 hsuffix]

/-- The search by position, from a position on. -/
lemma usagesLoop_eq (locals : Locals) (i : ℕ) (found : List Usage) :
    usagesLoop locals code i found = some (found ++ usagesFrom locals 0 (code.drop i)) := by
  induction i using upward code generalizing found with
  | behind i hi =>
      rw [usagesLoop, loop_of_length_le hi, List.drop_eq_nil_of_le hi, usagesFrom, List.append_nil]
  | step i b t h ih =>
      have hlength := length_eq_of_drop h
      have hnext := ih (i + 1) (Nat.lt_succ_self i) found
      rw [drop_of_drop h 0, List.drop_zero] at hnext
      rw [h, usagesFrom]
      by_cases hb : b = Byte.less
      · have hround := usagesRound_of_less h hb locals found
        rw [if_pos hb]
        cases hcomponent : locals.find? (t.takeWhile isTagByte) with
        | none =>
            rw [hcomponent] at hround
            exact (loop_of_on h hround).trans hnext
        | some component =>
            have hle := (List.takeWhile_prefix (l := t) isTagByte).length_le
            have hstart : i + 1 + (t.takeWhile isTagByte).length ≤ code.length := by omega
            -- the search goes on behind the tag, whose attributes may hold others
            obtain ⟨props, stop, hscan, hspec, hlo, hhi, -⟩ := scanAttrs_spec hstart
            have hbehind : code.drop (i + 1 + (t.takeWhile isTagByte).length)
                = t.dropWhile isTagByte := by rw [drop_of_drop h, drop_length_takeWhile]
            have hrest := ih (stop + 1) (by omega) (found ++ [⟨component, props⟩])
            rw [hcomponent, hscan] at hround
            rw [hbehind] at hspec
            rw [List.append_assoc, ← usagesFrom_of_drop h (by omega)] at hrest
            dsimp only
            rw [hspec]
            exact (loop_of_on h hround).trans hrest
      · rw [if_neg hb, ← hnext]
        exact loop_of_on h (if_neg hb)

/-- **The search by position is the search**: the loop ends, and no byte or part outside the script
is asked for. -/
theorem jsxUsages_eq (locals : Locals) (code : Text) :
    jsxUsages locals code = some (Script.jsxUsages locals code) :=
  usagesLoop_eq locals 0 []

end Indexed

end MiniProgram
