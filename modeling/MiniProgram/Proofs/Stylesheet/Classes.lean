import MiniProgram.Stage.Content
import MiniProgram.Proofs.Pipeline
import MiniProgram.Proofs.Stylesheet.Pieces
import MiniProgram.Proofs.Text.Order
import MiniProgram.Proofs.Text.Replace

/-!
The classes of a stylesheet and their new names.

A class is a dot and a name in a selector. A name is made of letters, digits, underscores and
hyphens and ends before any other byte, so a selector may be cut at such a byte. What a class is
renamed to depends on its name alone: the map from classes to new names tells all that renaming
does, and where every class keeps its name the stylesheet stays as it is.

* `exists_of_classPattern`: what a class looks like.
* `stopsAt_classPattern`: where a selector may be cut.
* `scope_congr`, `length_scope`: renaming depends on the new names of the classes alone, and how
  much longer a stylesheet becomes.
* `scope_id`: **a stylesheet with no class renamed**, and the classes it names.
-/

namespace MiniProgram

namespace Stylesheet

variable {before : Option UInt8} {t u : Text} {b : UInt8} {n : ℕ} {name : Text}
  {f g : Text → Text} {p : Piece} {css : Text}

/-! ### What a class looks like -/

/-- A byte of the name of a class. -/
def isNameByte (b : UInt8) : Bool := Byte.isWord b || b == Byte.hyphen

/-- A byte that the name of a class begins with, behind a hyphen or without one. -/
def startsName (b : UInt8) : Bool := Byte.isLetter b || b == Byte.underscore

lemma isNameByte_of_startsName (h : startsName b = true) : isNameByte b = true := by
  rw [startsName, Bool.or_eq_true] at h
  rw [isNameByte, Byte.isWord]
  rcases h with h | h <;> simp [h]

lemma classPattern_of_ne (hb : b ≠ Byte.dot) : classPattern before (b :: t) = none := by
  rw [classPattern]
  rintro name ⟨⟩
  exact hb rfl

lemma classPattern_hyphen (before : Option UInt8) (t : Text) :
    classPattern before (Byte.dot :: Byte.hyphen :: t)
      = if t.head?.any startsName then
          some ((t.takeWhile isNameByte).length + 2, Byte.hyphen :: t.takeWhile isNameByte)
        else none := rfl

lemma classPattern_dot (before : Option UInt8) (h : t.head? ≠ some Byte.hyphen) :
    classPattern before (Byte.dot :: t)
      = if t.head?.any startsName then
          some ((t.takeWhile isNameByte).length + 1, t.takeWhile isNameByte)
        else none := by
  rw [classPattern.eq_def]
  split
  next name heq =>
    cases heq
    dsimp only
    split
    · exact absurd rfl h
    · rfl
  next hne => exact absurd rfl (hne t)

/-- A class is a dot and its name. -/
lemma exists_of_classPattern (h : classPattern before t = some (n, name)) :
    n = name.length + 1 ∧ ∃ rest, t = Byte.dot :: (name ++ rest) := by
  obtain _ | ⟨b, t⟩ := t
  · cases h
  by_cases hb : b = Byte.dot
  swap
  · rw [classPattern_of_ne hb] at h
    cases h
  subst hb
  by_cases hhyphen : t.head? = some Byte.hyphen
  · obtain ⟨t, rfl⟩ := List.head?_eq_some_iff.1 hhyphen
    rw [classPattern_hyphen] at h
    split at h
    · cases h
      exact ⟨rfl, t.dropWhile isNameByte, by rw [List.cons_append, List.takeWhile_append_dropWhile]⟩
    · cases h
  · rw [classPattern_dot before hhyphen] at h
    split at h
    · cases h
      exact ⟨rfl, t.dropWhile isNameByte, by rw [List.takeWhile_append_dropWhile]⟩
    · cases h

/-- Without a dot there is no class. -/
lemma found_eq_nil (h : Byte.dot ∉ t) : Search.found classPattern t = [] := by
  rw [Search.found, List.map_eq_nil_iff, List.eq_nil_iff_forall_not_mem]
  intro hit hhit
  obtain ⟨pre, u, rfl, -, hfound⟩ := Search.exists_split_of_mem_hitsFrom hhit
  obtain ⟨-, rest, rfl⟩ := exists_of_classPattern hfound
  simp at h

/-! ### Where a selector may be cut -/

/-- A byte that neither opens a class nor stands in a name. -/
def isApart (b : UInt8) : Bool := !isNameByte b && b != Byte.dot

lemma takeWhile_append_cons (hb : isNameByte b = false) (t u : Text) :
    (t ++ b :: u).takeWhile isNameByte = t.takeWhile isNameByte := by
  induction t with
  | nil => simp [hb]
  | cons c t ih => simp only [List.cons_append, List.takeWhile_cons, ih]

/-- A byte that may stand in no name does not begin one. -/
lemma any_startsName_append (hb : isNameByte b = false) (t u : Text) :
    (t ++ b :: u).head?.any startsName = t.head?.any startsName := by
  cases t with
  | nil => simpa using mt isNameByte_of_startsName (by simp [hb])
  | cons c t => rfl

/-- A selector may be cut at a byte that has no part in a class. -/
lemma stopsAt_classPattern : Search.StopsAt classPattern isApart where
  within h := by
    obtain ⟨rfl, rest, rfl⟩ := exists_of_classPattern h
    simp
  ignores before before' t := rfl
  stop {b} hb before t u := by
    rw [isApart, Bool.and_eq_true, Bool.not_eq_true', bne_iff_ne] at hb
    obtain ⟨hname, hdot⟩ := hb
    obtain _ | ⟨c, t⟩ := t
    · exact classPattern_of_ne hdot
    by_cases hc : c = Byte.dot
    swap
    · rw [List.cons_append, classPattern_of_ne hc, classPattern_of_ne hc]
    subst hc
    -- a hyphen may stand before the name, and the name ends at the byte in either case
    by_cases hhyphen : t.head? = some Byte.hyphen
    · obtain ⟨t, rfl⟩ := List.head?_eq_some_iff.1 hhyphen
      rw [List.cons_append, List.cons_append, classPattern_hyphen, classPattern_hyphen,
        takeWhile_append_cons hname, any_startsName_append hname]
    · have hhyphen' : (t ++ b :: u).head? ≠ some Byte.hyphen := by
        cases t with
        | nil =>
            rintro ⟨⟩
            exact absurd hname (by decide)
        | cons c t => exact hhyphen
      rw [List.cons_append, classPattern_dot before hhyphen, classPattern_dot before hhyphen',
        takeWhile_append_cons hname, any_startsName_append hname]

/-! ### What renaming depends on -/

lemma classes_eq_found (h : p.isScoped = true) : p.classes = Search.found classPattern p.text :=
  if_pos h

/-- What becomes of a piece depends on the new names of its classes alone. -/
lemma Piece.scope_congr (h : ∀ name ∈ p.classes, f name = g name) : p.scope f = p.scope g := by
  rw [Piece.scope, Piece.scope]
  by_cases hp : p.isScoped = true
  · rw [classes_eq_found hp] at h
    rw [if_pos hp, if_pos hp]
    exact Search.replace_congr fun name hname => by rw [h name hname]
  · rw [if_neg hp, if_neg hp]

lemma mem_classes : name ∈ classes css ↔ ∃ p ∈ pieces css, name ∈ p.classes := by
  rw [classes, List.mem_eraseDups, List.mem_flatMap]

/-- What becomes of a stylesheet depends on the new names of its classes alone. -/
lemma scope_congr (h : ∀ name ∈ classes css, f name = g name) : scope f css = scope g css :=
  List.flatMap_congr fun p hp =>
    Piece.scope_congr fun name hname => h name (mem_classes.2 ⟨p, hp, hname⟩)

/-- A text all of whose classes keep their names stays as it is. -/
lemma replace_classPattern_self (t : Text) :
    Search.replace classPattern (fun name => Byte.dot :: name) t = t := by
  refine Search.replace_eq_self (fun before t n name h => ?_) t
  obtain ⟨rfl, rest, rfl⟩ := exists_of_classPattern h
  exact ⟨Nat.succ_pos _, by simp⟩

lemma Piece.scope_self (p : Piece) : p.scope (fun name => name) = p.text := by
  rw [Piece.scope, replace_classPattern_self, ite_self]

lemma scope_self (css : Text) : scope (fun name => name) css = css := by
  rw [scope, funext Piece.scope_self, flatMap_text_pieces]

/-! ### How much longer a stylesheet becomes -/

section Length

variable {k : ℕ} (h : ∀ name, (f name).length = name.length + k)
include h

lemma length_replace_classPattern (t : Text) :
    (Search.replace classPattern (fun name => Byte.dot :: f name) t).length
      = t.length + (Search.found classPattern t).length * k := by
  refine Search.length_replace (fun before t n name hfound => ?_) t
  obtain ⟨rfl, rest, rfl⟩ := exists_of_classPattern hfound
  simp only [List.length_cons, List.length_append, h]
  omega

lemma Piece.length_scope (p : Piece) :
    (p.scope f).length = p.text.length + p.classes.length * k := by
  rw [Piece.scope]
  by_cases hp : p.isScoped = true
  · rw [if_pos hp, length_replace_classPattern h, classes_eq_found hp]
  · rw [if_neg hp, Piece.classes, if_neg hp]
    simp

/-- Where every name becomes longer by the same number of bytes, a stylesheet does so once for each
class in a selector. -/
lemma length_scope (css : Text) :
    (scope f css).length = css.length + ((pieces css).flatMap Piece.classes).length * k := by
  have hpieces : ∀ ps : List Piece, (ps.flatMap (Piece.scope f)).length
      = (ps.flatMap Piece.text).length + (ps.flatMap Piece.classes).length * k := by
    intro ps
    induction ps with
    | nil => simp
    | cons p ps ih =>
        simp only [List.flatMap_cons, List.length_append, ih, Piece.length_scope h, Nat.add_mul]
        omega
  rw [scope, hpieces, flatMap_text_pieces]

end Length

/-- A stylesheet stays as it is under every renaming exactly if it names no class. -/
lemma forall_scope_eq_self_iff : (∀ rename, scope rename css = css) ↔ classes css = [] := by
  constructor
  · intro h
    -- a renaming that makes every name longer by a byte
    have hlength := length_scope (f := fun name => name ++ [Byte.underscore]) (k := 1)
      (fun name => by simp) css
    rw [h, Nat.mul_one, left_eq_add, List.length_eq_zero_iff] at hlength
    rw [classes, hlength]
    rfl
  · intro h rename
    conv_rhs => rw [← scope_self css]
    exact scope_congr fun name hname => by simp [h] at hname

/-! ### The map from classes to new names -/

lemma map_fst_classMap (rename : Text → Text) (css : Text) :
    (classMap rename css).map Prod.fst = classes css := by
  simp [classMap, Function.comp_def]

lemma mem_classMap {rename : Text → Text} {new : Text} :
    (name, new) ∈ classMap rename css ↔ name ∈ classes css ∧ new = rename name := by
  simp [classMap, eq_comm]

/-- The new name of a class is found under its name. -/
lemma lookup_classMap {rename : Text → Text} (h : name ∈ classes css) :
    (classMap rename css).lookup name = some (rename name) := by
  rw [classMap]
  generalize classes css = names at h
  induction names with
  | nil => cases h
  | cons first names ih =>
      rw [List.map_cons, List.lookup_cons]
      by_cases hfirst : name = first
      · rw [hfirst, beq_self_eq_true]
      · rw [beq_false_of_ne hfirst]
        exact ih ((List.mem_cons.1 h).resolve_left hfirst)

/-- **A stylesheet with no class renamed** stays as it is; under every renaming only one that names
no class does. Whatever its classes are renamed to, the map lists each of them once, with its new
name, and renaming puts into the stylesheet what the map tells. So where a project does not scope
classes, the stylesheet of a style module is its source in responsive units. -/
theorem scope_id (css : Text) :
    scope (fun name => name) css = css
    ∧ ((∀ rename, scope rename css = css) ↔ classes css = [])
    ∧ (∀ rename : Text → Text,
        ((classMap rename css).map Prod.fst).Nodup
        ∧ (∀ name new, (name, new) ∈ classMap rename css ↔ name ∈ classes css ∧ new = rename name)
        ∧ scope rename css
          = scope (fun name => ((classMap rename css).lookup name).getD name) css)
    ∧ ∀ {d : Deps} {project : Project} {s : Stage} {m : Module}, d.project = some project →
        project.cssModules = false → Stage.style d = .ok s → m.kind = .styleModule →
        m.content = css →
          ∃ transform m', s.transform = some transform ∧ transform m = .ok m'
            ∧ m'.assets = m.assets
              ++ [⟨Text.trimEnd m.path ".less" ++ ".css", pxToRpx project.pxMultiple css⟩]
            ∧ m'.content = classModule
              ((classes (pxToRpx project.pxMultiple css)).map fun name => (name, name)) := by
  refine ⟨scope_self css, forall_scope_eq_self_iff,
    fun rename => ⟨?_, fun name new => mem_classMap, ?_⟩, ?_⟩
  · rw [map_fst_classMap]
    exact nodup_eraseDups _
  · exact scope_congr fun name hname => by rw [lookup_classMap hname, Option.getD_some]
  · intro d project s m hproject hmodules hs hkind hcontent
    obtain ⟨project', hproject', hs⟩ := bind_eq_ok.1 hs
    obtain rfl := Deps.needProject_eq_ok hproject hproject'
    cases hs
    refine ⟨_, _, rfl, rfl, ?_, ?_⟩
    · simp [Content.convertStyle, hkind, hmodules, scope_self, hcontent]
    · simp [Content.convertStyle, hkind, hmodules, classMap, hcontent]

/-- A style module of a project that does not scope classes. -/
theorem scope_id_page : ∃ project stage transform m',
    Project.resolve "/proj" .empty ⟨false, [], .one⟩ = .ok project ∧ project.cssModules = false
    ∧ Stage.style ⟨some project, none, none, false, none, none⟩ = .ok stage
    ∧ stage.transform = some transform
    ∧ transform (Module.ofSource "a.less" ".a\x7bwidth:2px\x7d/*.b\x7b\x7d*/") = .ok m'
    ∧ m'.assets = [⟨"a.css", ".a\x7bwidth:2rpx\x7d/*.b\x7b\x7d*/"⟩]
    ∧ m'.content = "export default \x7b\n  \"a\": \"a\",\n\x7d;\n" := by
  have h : (Project.resolve "/proj" .empty ⟨false, [], .one⟩).map
      (fun p => (p.cssModules, p.pxMultiple)) = .ok (false, Binary64.ofInt 1) := by decide +kernel
  obtain ⟨project, hproject, hfields⟩ := map_eq_ok.1 h
  obtain ⟨hmodules, hmultiple⟩ := Prod.mk.inj hfields
  obtain ⟨-, -, -, hstyle⟩ := scope_id ".a\x7bwidth:2px\x7d/*.b\x7b\x7d*/"
  obtain ⟨transform, m', htransform, hm', hassets, hcontent⟩ :=
    hstyle (d := ⟨some project, none, none, false, none, none⟩)
      (m := Module.ofSource "a.less" ".a\x7bwidth:2px\x7d/*.b\x7b\x7d*/") rfl hmodules rfl
      (by decide) rfl
  refine ⟨project, _, transform, m', hproject, hmodules, rfl, htransform, hm', ?_, ?_⟩
  · rw [hassets, hmultiple]
    decide +kernel
  · rw [hcontent, hmultiple]
    decide +kernel

end Stylesheet

end MiniProgram
