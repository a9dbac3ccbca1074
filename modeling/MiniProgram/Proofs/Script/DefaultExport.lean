import MiniProgram.Proofs.Text.Parts
import MiniProgram.Script.DefaultExport

/-!
The statements that are looked at for a default export.

Both patterns run on over white space, and a list also over a semicolon, behind what makes it the
statement it is. Whether a script has a default export is decided by the head of each statement
alone: `export default` with one byte of white space, and an export list up to its closing brace.

* `exportDefaultHead_takes`, `exportListHead_takes`: the heads.
* `exportDefaultPattern_eq_map`, `exportListPattern_eq_map`: a statement is its head and what the
  pattern runs on over.
* `isSome_bindDefaultExport`: a default export is found exactly if some `export default` is, or some
  list with a default.
-/

namespace MiniProgram

namespace Script

open Text

variable {before : Option UInt8} {t : Text} {n : ℕ}

/-! ### Export of a value -/

/-- `export default` and one byte of white space. -/
def exportDefaultHead : Recognizer Unit := fun before t => do
  let spaced ← Text.afterWord? "export" before t
  let word := Text.skipSpace spaced
  match ← Text.after? "default" word with
  | b :: rest =>
    if word.length ≠ spaced.length && Byte.isSpace b then some (t.length - rest.length, ())
    else none
  | [] => none

/-- The text of a head of `export default`. -/
def IsDefaultHead (text : Text) : Prop :=
  ∃ (u : Text) (b : UInt8), Blank u ∧ u ≠ [] ∧ Byte.isSpace b = true
    ∧ text = "export" ++ (u ++ ("default" ++ [b]))

lemma exportDefaultHead_eq (before : Option UInt8) (t : Text) :
    exportDefaultHead before t = (afterWord? "export" before t).bind fun spaced =>
      (after? "default" (skipSpace spaced)).bind fun after =>
        match after with
        | b :: rest =>
          if (skipSpace spaced).length ≠ spaced.length && Byte.isSpace b then
            some (t.length - rest.length, ())
          else none
        | [] => none := rfl

lemma exportDefaultPattern_eq (before : Option UInt8) (t : Text) :
    exportDefaultPattern before t = (afterWord? "export" before t).bind fun spaced =>
      (after? "default" (skipSpace spaced)).bind fun rest =>
        if (skipSpace spaced).length = spaced.length || (skipSpace rest).length = rest.length then
          none
        else some (t.length - (skipSpace rest).length, ()) := rfl

/-- What white space a text begins with shows in its length. -/
lemma exists_of_length_skipSpace_ne (h : (skipSpace t).length ≠ t.length) :
    ∃ u, Blank u ∧ u ≠ [] ∧ t = u ++ skipSpace t := by
  obtain ⟨u, hu, heq⟩ := exists_blank_append t
  refine ⟨u, hu, ?_, heq⟩
  rintro rfl
  exact h (congrArg List.length heq).symm

lemma exportDefaultHead_takes :
    Search.Takes exportDefaultHead fun text _ => IsDefaultHead text := by
  intro before t n a
  rw [exportDefaultHead_eq, Option.bind_eq_some_iff]
  constructor
  · rintro ⟨spaced, hspaced, h⟩
    obtain ⟨hbefore, rfl⟩ := afterWord?_eq_some.1 hspaced
    obtain ⟨after, hafter, h⟩ := Option.bind_eq_some_iff.1 h
    have hword := after?_eq_some.1 hafter
    cases after with
    | nil => cases h
    | cons b rest =>
        simp only at h
        split at h
        · rename_i hcond
          simp only [ne_eq, Bool.and_eq_true, decide_eq_true_eq] at hcond
          obtain ⟨u, hu, hune, heq⟩ := exists_of_length_skipSpace_ne hcond.1
          cases h
          refine ⟨hbefore, "export" ++ (u ++ ("default" ++ [b])), rest, ?_, ?_, u, b, hu, hune,
            hcond.2, rfl⟩
          · rw [heq, hword]
            simp
          · rw [heq, hword]
            simp only [List.length_append, List.length_cons, List.length_nil]
            omega
        · cases h
  · rintro ⟨hbefore, _, rest, rfl, rfl, u, b, hu, hune, hb, rfl⟩
    have hskip : skipSpace (u ++ ("default" ++ b :: rest)) = "default" ++ b :: rest :=
      skipSpace_append_cons hu (by rfl) _
    have hne : (skipSpace (u ++ ("default" ++ b :: rest))).length
        ≠ (u ++ ("default" ++ b :: rest)).length := by
      have := List.length_pos_iff.2 hune
      rw [hskip]
      simp only [List.length_append, List.length_cons]
      omega
    refine ⟨u ++ ("default" ++ b :: rest), afterWord?_eq_some.2 ⟨hbefore, by simp⟩, ?_⟩
    rw [hskip] at hne ⊢
    rw [after?_eq_some.2 rfl, Option.bind_some]
    simp only [ne_eq, hne, not_false_eq_true, decide_true, hb, Bool.and_self, if_true]
    simp only [List.length_append, List.length_cons, List.length_nil]
    exact congrArg some (Prod.ext (by dsimp only; omega) rfl)

/-- An export of a value is its head and the white space behind it. -/
lemma exportDefaultPattern_eq_map (before : Option UInt8) (t : Text) :
    exportDefaultPattern before t
      = (exportDefaultHead before t).map fun head =>
        (t.length - (skipSpace (t.drop head.1)).length, ()) := by
  rw [exportDefaultPattern_eq, exportDefaultHead_eq, Option.map_bind]
  refine Option.bind_congr fun spaced hspaced => ?_
  obtain ⟨-, rfl⟩ := afterWord?_eq_some.1 hspaced
  rw [Function.comp_apply, Option.map_bind]
  refine Option.bind_congr fun after hafter => ?_
  have hword := after?_eq_some.1 hafter
  cases after with
  | nil => simp [skipSpace]
  | cons b rest =>
      have hsuffix : rest <:+ ("export" : Text) ++ spaced := by
        refine ((List.suffix_cons b rest).trans ?_).trans (List.suffix_append _ _)
        refine (List.suffix_append ("default" : Text) _).trans ?_
        rw [← hword]
        exact List.dropWhile_suffix _
      have hrest := (List.suffix_iff_eq_drop.1 hsuffix).symm
      -- the byte behind `default` may itself be white space
      by_cases hb : Byte.isSpace b = true
      · have hskip : skipSpace (b :: rest) = skipSpace rest := by simp [skipSpace, hb]
        have hne : (skipSpace rest).length ≠ (b :: rest).length :=
          (Nat.lt_succ_of_le (List.dropWhile_suffix _).length_le).ne
        by_cases hlength : (skipSpace spaced).length = spaced.length
        · simp [hlength]
        · rw [if_neg (by simpa [hskip, hlength] using hne)]
          simp only [Function.comp_apply]
          rw [if_pos (by simp [hb, hlength]), Option.map_some, hskip, hrest]
      · have hskip : skipSpace (b :: rest) = b :: rest := by simp [skipSpace, hb]
        simp [hskip, hb]

/-! ### Export lists -/

/-- A list in braces and what follows it. -/
lemma braced?_eq_some {items rest : Text} :
    braced? t = some (items, rest)
      ↔ Byte.closeBrace ∉ items ∧ t = Byte.openBrace :: (items ++ Byte.closeBrace :: rest) := by
  constructor
  · intro h
    unfold braced? at h
    split at h
    · split at h
      · rename_i c _ hdrop
        cases h
        obtain ⟨run, hrun, hc, rfl⟩ := exists_run_of_dropWhile_eq_cons hdrop
        obtain rfl : c = Byte.closeBrace := by simpa using hc
        rw [takeWhile_append_cons hrun hc]
        exact ⟨fun hmem => by simpa using hrun _ hmem, rfl⟩
      · cases h
    · cases h
  · rintro ⟨hitems, rfl⟩
    have hrun := forall_ne_of_not_mem hitems
    have hstop : decide (Byte.closeBrace ≠ Byte.closeBrace) = false := rfl
    refine (braced?.eq_1 _).trans ?_
    rw [takeWhile_append_cons hrun hstop, dropWhile_append_cons hrun hstop]

/-- An export list up to its closing brace; finds the list. -/
def exportListHead : Recognizer Text := fun before t => do
  let (items, rest) ← braced? (Text.skipSpace (← Text.afterWord? "export" before t))
  some (t.length - rest.length, items)

/-- The text of an export list up to its closing brace. -/
def IsListHead (text items : Text) : Prop :=
  Byte.closeBrace ∉ items
    ∧ ∃ u, Blank u ∧ text = "export" ++ (u ++ Byte.openBrace :: (items ++ [Byte.closeBrace]))

lemma exportListHead_eq (before : Option UInt8) (t : Text) :
    exportListHead before t = (afterWord? "export" before t).bind fun spaced =>
      (braced? (skipSpace spaced)).bind fun list => some (t.length - list.2.length, list.1) := rfl

lemma exportListPattern_eq (before : Option UInt8) (t : Text) :
    exportListPattern before t = (afterWord? "export" before t).bind fun spaced =>
      (braced? (skipSpace spaced)).bind fun list =>
        some (t.length - (trimStart (skipSpace list.2) ";").length, list.1) := rfl

lemma exportListHead_takes : Search.Takes exportListHead IsListHead := by
  intro before t n items
  rw [exportListHead_eq, Option.bind_eq_some_iff]
  constructor
  · rintro ⟨spaced, hspaced, h⟩
    obtain ⟨hbefore, rfl⟩ := afterWord?_eq_some.1 hspaced
    obtain ⟨⟨items, rest⟩, hlist, h⟩ := Option.bind_eq_some_iff.1 h
    obtain ⟨hitems, hbraced⟩ := braced?_eq_some.1 hlist
    obtain ⟨u, hu, hspaced⟩ := exists_blank_append spaced
    rw [hbraced] at hspaced
    cases h
    refine ⟨hbefore, "export" ++ (u ++ Byte.openBrace :: (items ++ [Byte.closeBrace])), rest, ?_,
      ?_, hitems, u, hu, rfl⟩
    · simp [hspaced]
    · simp only [hspaced, List.length_append, List.length_cons, List.length_nil]
      omega
  · rintro ⟨hbefore, _, rest, rfl, rfl, hitems, u, hu, rfl⟩
    refine ⟨u ++ Byte.openBrace :: (items ++ Byte.closeBrace :: rest),
      afterWord?_eq_some.2 ⟨hbefore, by simp⟩, ?_⟩
    rw [skipSpace_append_cons hu (by rfl), braced?_eq_some.2 ⟨hitems, rfl⟩, Option.bind_some]
    simp only [List.length_append, List.length_cons, List.length_nil]
    exact congrArg some (Prod.ext (by dsimp only; omega) rfl)

/-- An export list is its head, the white space behind it and a semicolon. -/
lemma exportListPattern_eq_map (before : Option UInt8) (t : Text) :
    exportListPattern before t
      = (exportListHead before t).map fun head =>
        (t.length - (trimStart (skipSpace (t.drop head.1)) ";").length, head.2) := by
  rw [exportListPattern_eq, exportListHead_eq, Option.map_bind]
  refine Option.bind_congr fun spaced hspaced => ?_
  obtain ⟨-, rfl⟩ := afterWord?_eq_some.1 hspaced
  rw [Function.comp_apply, Option.map_bind]
  refine Option.bind_congr fun list hlist => ?_
  have hbraced := (braced?_eq_some.1 hlist).2
  have hsuffix : list.2 <:+ ("export" : Text) ++ spaced := by
    refine List.IsSuffix.trans ?_ (List.suffix_append _ _)
    refine List.IsSuffix.trans ?_ (List.dropWhile_suffix Byte.isSpace)
    rw [← skipSpace, hbraced]
    exact ((List.suffix_cons _ _).trans (List.suffix_append _ _)).trans (List.suffix_cons _ _)
  rw [Function.comp_apply, Option.map_some, ← List.suffix_iff_eq_drop.1 hsuffix]

/-! ### Whether there is a default export -/

/-- A byte that a list runs on over. -/
def isTrailing (b : UInt8) : Bool := Byte.isSpace b || b == Byte.semicolon

/-- What a list runs on over. -/
lemma exists_trailing (t : Text) :
    ∃ w, (∀ b ∈ w, isTrailing b = true) ∧ t = w ++ trimStart (skipSpace t) ";" := by
  obtain ⟨w, hw, ht⟩ := exists_blank_append t
  have hblank : ∀ b ∈ w, isTrailing b = true := fun b hb => by simp [isTrailing, hw b hb]
  by_cases hprefix : (";" : Text) <+: skipSpace t
  · obtain ⟨rest, hrest⟩ := hprefix
    rw [← hrest] at ht ⊢
    refine ⟨w ++ ";", fun b hb => ?_, by rw [trimStart_append, List.append_assoc, ← ht]⟩
    rcases List.mem_append.1 hb with hb | hb
    · exact hblank b hb
    · obtain rfl : b = Byte.semicolon := List.mem_singleton.1 hb
      rfl
  · exact ⟨w, hblank, by rw [trimStart_eq_self hprefix, ← ht]⟩

/-- What a list runs on over begins no list. -/
lemma exportListHead_cons_eq_none {b : UInt8} (hb : isTrailing b = true) (before : Option UInt8)
    (t : Text) : exportListHead before (b :: t) = none := by
  rw [Option.eq_none_iff_forall_ne_some]
  rintro ⟨n, items⟩ h
  obtain ⟨-, _, rest, heq, -, -, u, -, rfl⟩ := (exportListHead_takes _ _ _ _).1 h
  obtain rfl : b = 101 := (List.cons.inj heq).1
  cases hb

/-- The lists are found by their heads. -/
lemma map_found_exportLists (code : Text) :
    (Search.hits exportListPattern code).map (·.found)
      = (Search.hits exportListHead code).map (·.found) := by
  refine Search.map_found_hitsFrom (isTrailing · = true)
    (fun b hb before t => exportListHead_cons_eq_none hb before t) (fun before t h => ?_)
    (fun before t n items h => ?_) none 0 0 0 (by simp)
  · rw [exportListPattern_eq_map, h, Option.map_none]
  · obtain ⟨-, text, rest, rfl, rfl, -, u, -, rfl⟩ := (exportListHead_takes _ _ _ _).1 h
    refine ⟨List.length_pos_iff.2 (by simp), ?_⟩
    obtain ⟨w, hw, hrest⟩ := exists_trailing rest
    refine ⟨w.length, ?_, ?_⟩
    · rw [exportListPattern_eq_map, h, Option.map_some, List.drop_left]
      have := congrArg List.length hrest
      rw [List.length_append] at this ⊢
      exact congrArg some (Prod.ext (by dsimp only; omega) rfl)
    · rw [List.drop_left, hrest, List.take_left]
      exact hw

/-- Whether one of the items of an export list is exported as default. -/
def exportsDefault (items : Text) : Bool := (bindInList? items).isSome

/-- A default export is found exactly if a head of `export default` is, or else a list with a
default. -/
theorem isSome_bindDefaultExport (code : Text) :
    (bindDefaultExport code).isSome = true
      ↔ Search.hits exportDefaultHead code ≠ []
        ∨ ∃ hit ∈ Search.hits exportListHead code, exportsDefault hit.found = true := by
  have hvalue : Search.hits exportDefaultPattern code = []
      ↔ Search.hits exportDefaultHead code = [] :=
    Search.hitsFrom_eq_nil_congr (fun before t => by
      rw [exportDefaultPattern_eq_map, Option.isSome_map]) none 0 code
  have hlists : (∃ hit ∈ Search.hits exportListPattern code, exportsDefault hit.found = true)
      ↔ ∃ hit ∈ Search.hits exportListHead code, exportsDefault hit.found = true := by
    have hmap : ∀ hits : List (Hit Text), (∃ hit ∈ hits, exportsDefault hit.found = true)
        ↔ ∃ items ∈ hits.map (·.found), exportsDefault items = true := by simp
    rw [hmap, map_found_exportLists, ← hmap]
  rw [bindDefaultExport]
  cases hhits : Search.hits exportDefaultPattern code with
  | cons hit hits =>
      rw [hhits] at hvalue
      simp [← hvalue]
  | nil =>
      rw [← hlists, hvalue.1 hhits]
      simp [exportsDefault]

/-! ### What becomes of a default export -/

/-- What `export default` becomes. -/
def valueBinding : Text := "const " ++ entryBinding ++ " = "

/-- A default export found in a script: where its statement starts and how long it is, and what it
becomes. -/
structure DefaultExport where
  start : ℕ
  length : ℕ
  new : Text
deriving DecidableEq, Repr

/-- The default export of a script that is bound to a local name. -/
def defaultExport? (code : Text) : Option DefaultExport :=
  match Search.hits exportDefaultPattern code with
  | hit :: _ => some ⟨hit.start, hit.length, valueBinding⟩
  | [] =>
    (Search.hits exportListPattern code).findSome? fun hit =>
      (bindInList? hit.found).map fun new => ⟨hit.start, hit.length, new⟩

/-- A script with a default export bound. -/
def DefaultExport.bind (e : DefaultExport) (code : Text) : Text :=
  code.take e.start ++ (e.new ++ code.drop (e.start + e.length))

/-- Binding the default export is replacing its statement. -/
theorem bindDefaultExport_eq (code : Text) :
    bindDefaultExport code = (defaultExport? code).map (·.bind code) := by
  have hsplice : ∀ start length (new : Text), Search.splice 0 [(start, length, new)] code
      = (DefaultExport.mk start length new).bind code := by
    intro start length new
    rw [Search.splice, Search.splice, Nat.sub_zero, DefaultExport.bind, List.append_assoc]
  rw [bindDefaultExport, defaultExport?]
  cases Search.hits exportDefaultPattern code with
  | cons hit hits => exact congrArg some (hsplice _ _ _)
  | nil =>
      simp only [List.map_findSome?]
      congr 1
      funext hit
      rw [Function.comp_apply, Option.map_map]
      exact Option.map_congr fun new _ => hsplice _ _ _

/-- The statement of a default export and what it becomes. -/
inductive Rebinds : Text → Text → Prop
  | value {u v : Text} (hu : Blank u) (hune : u ≠ []) (hv : Blank v) (hvne : v ≠ []) :
      Rebinds ("export" ++ (u ++ ("default" ++ v))) valueBinding
  | list {head items w new : Text} (hhead : IsListHead head items)
      (hw : ∀ b ∈ w, isTrailing b = true) (hnew : bindInList? items = some new) :
      Rebinds (head ++ w) new

/-- A default export is bound where a statement of the grammar stands. -/
theorem exists_of_defaultExport? {code : Text} {e : DefaultExport}
    (h : defaultExport? code = some e) :
    ∃ pre old post : Text, code = pre ++ (old ++ post) ∧ e.start = pre.length
      ∧ e.length = old.length ∧ Rebinds old e.new := by
  rw [defaultExport?] at h
  split at h
  · rename_i hit hits hhits
    cases h
    -- `export default` with a value
    have hhit : hit ∈ Search.hits exportDefaultPattern code := hhits ▸ List.mem_cons_self
    obtain ⟨pre, t, rfl, hstart, hfound⟩ := Search.exists_split_of_mem_hitsFrom hhit
    rw [exportDefaultPattern_eq_map, Option.map_eq_some_iff] at hfound
    obtain ⟨⟨n, a⟩, hhead, hlength⟩ := hfound
    obtain ⟨-, _, rest, rfl, rfl, u, b, hu, hune, hb, rfl⟩ :=
      (exportDefaultHead_takes _ _ _ _).1 hhead
    obtain ⟨w, hw, hrest⟩ := exists_blank_append rest
    rw [List.drop_left] at hlength
    have := congrArg List.length hrest
    refine ⟨pre, "export" ++ (u ++ ("default" ++ (b :: w))), skipSpace rest, ?_,
      by simpa using hstart, ?_, .value hu hune (List.forall_mem_cons.2 ⟨hb, hw⟩) (by simp)⟩
    · rw [hrest]
      simp [← hrest]
    · have hlength := congrArg Prod.fst hlength
      simp only [List.length_append, List.length_cons, List.length_nil] at this hlength ⊢
      omega
  · -- the first export list that names a default
    obtain ⟨hit, hhit, h⟩ := List.exists_of_findSome?_eq_some h
    obtain ⟨new, hnew, rfl⟩ := Option.map_eq_some_iff.1 h
    obtain ⟨pre, t, rfl, hstart, hfound⟩ := Search.exists_split_of_mem_hitsFrom hhit
    rw [exportListPattern_eq_map, Option.map_eq_some_iff] at hfound
    obtain ⟨⟨n, items⟩, hhead, hlength⟩ := hfound
    obtain ⟨-, head, rest, rfl, rfl, hgrammar⟩ := (exportListHead_takes _ _ _ _).1 hhead
    obtain ⟨w, hw, hrest⟩ := exists_trailing rest
    rw [List.drop_left] at hlength
    have hfst := congrArg Prod.fst hlength
    obtain rfl : items = hit.found := congrArg Prod.snd hlength
    have := congrArg List.length hrest
    refine ⟨pre, head ++ w, trimStart (skipSpace rest) ";", ?_, by simpa using hstart, ?_,
      .list hgrammar hw hnew⟩
    · rw [List.append_assoc, ← hrest]
    · simp only [List.length_append] at this hfst ⊢
      omega

end Script

end MiniProgram
