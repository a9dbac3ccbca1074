import MiniProgram.Proofs.Path.Climbing
import MiniProgram.Script.Reference

/-!
Specifiers from one module to another.

The specifier of a target is the way from the directory of the importing module to it. A script
takes a specifier for relative by its first segment, `.` or `..`; a `./` is put in front of a way
unless its first byte is a dot. Where the way begins with a name that itself begins with a dot the
two differ, and the specifier is read as that of a package.

* `relativeImport_leads_to_target`: joined with the directory of the importing module, the specifier
  is the path of the target.
* `isRelative_iff`: a specifier is relative by its first segment.
* `relativeSegments_cases`: a way begins with a parent reference, or with the name in the directory
  of the importing module below which the target lies.
* `isRelative_relativeImport_iff`: which specifiers are relative.
* `exists_relativeImport_not_isRelative`: a specifier that is read as that of a package.
-/

namespace MiniProgram

namespace Path

variable {p source target d first : Text} {dirs segs rest : List Text}

/-! ### Where a specifier leads -/

/-- **The specifier of a target leads to it.** For a module below the root and any other path in
normal form, be it inside the directory of the module, beside it, above it or outside the root, the
specifier is resolved to that path from the directory of the module. -/
theorem relativeImport_leads_to_target (hs : IsPlain source) (ht : normalize target = target)
    (hne : target ≠ []) : Path.join [dir source, relativeImport source target] = target := by
  have hlead : Path.join [dir source, relativeImport source target] = normalize target :=
    join_dir_relativeImport hs (by rwa [ht])
  rwa [ht] at hlead

/-- The general case at a target outside the root, two directories up. -/
theorem relativeImport_leads_to_target_outside :
    IsPlain ("src/pages/index.js" : Text) ∧ normalize ("../lib/x.js" : Text) = "../lib/x.js"
    ∧ relativeImport "src/pages/index.js" "../lib/x.js" = "../../../lib/x.js"
    ∧ Path.join [dir "src/pages/index.js", relativeImport "src/pages/index.js" "../lib/x.js"]
      = "../lib/x.js" :=
  ⟨by decide, by decide, by decide,
    relativeImport_leads_to_target (by decide) (by decide) (by decide)⟩

/-! ### Relative specifiers -/

/-- A specifier is relative by its first segment. -/
lemma isRelative_iff : Script.isRelative p = true
    ↔ (Text.split Byte.slash p).head? = some ("." : Text)
      ∨ (Text.split Byte.slash p).head? = some (".." : Text) := by
  have hdot : ("." : Text) ++ [Byte.slash] = ("./" : Text) := rfl
  have hparent : (".." : Text) ++ [Byte.slash] = ("../" : Text) := rfl
  rw [head?_split_eq_some_iff (by decide), head?_split_eq_some_iff (by decide), hdot, hparent]
  simp only [Script.isRelative, Bool.or_eq_true, decide_eq_true_eq]
  tauto

/-- What follows `./` is relative. -/
lemma isRelative_dot_slash (p : Text) : Script.isRelative ("./" ++ p) = true := by
  simp [Script.isRelative, Text.startsWith_iff]

/-- A way of several segments begins with a dot if its first segment does. -/
lemma startsWith_dot_join_cons (hne : first ≠ []) :
    Text.startsWith (Text.join [Byte.slash] (first :: rest)) "." = Text.startsWith first "." := by
  cases first with
  | nil => exact absurd rfl hne
  | cons b first =>
      cases rest with
      | nil => rw [Text.join_singleton]
      | cons s rest =>
          rw [Text.join_cons (List.cons_ne_nil s rest)]
          rfl

/-- A way to which `./` is added unless it begins with a dot is relative exactly if its first
segment is no name that begins with a dot. -/
lemma isRelative_way_iff {way : Text} (hway : way = Text.join [Byte.slash] (first :: rest))
    (hslash : ∀ s ∈ first :: rest, Byte.slash ∉ s) (hne : first ≠ []) :
    Script.isRelative (if Text.startsWith way "." then way else "./" ++ way) = true
      ↔ (Text.startsWith first "." = true → first = ("." : Text) ∨ first = (".." : Text)) := by
  rw [hway, startsWith_dot_join_cons hne]
  split_ifs with hdot
  · rw [isRelative_iff, Text.split_join (List.cons_ne_nil first rest) hslash]
    simp [hdot]
  · simp [isRelative_dot_slash, hdot]

/-! ### Where a way begins -/

/-- A way that does not climb goes on from the directory by the rest of the target. -/
lemma relativeSegments_cases (dirs : List Text) (hne : segs ≠ []) :
    (∃ name rest, segs = dirs ++ name :: rest ∧ relativeSegments dirs segs = name :: rest)
    ∨ (∃ rest, relativeSegments dirs segs = (".." : Text) :: rest)
      ∧ ¬ ∃ name rest, segs = dirs ++ name :: rest := by
  induction dirs, segs using relativeSegments.induct with
  | case1 d dirs s segs hcommon ih =>
      obtain ⟨rfl, hsegs⟩ : d = s ∧ segs ≠ [] := by simpa using hcommon
      rw [relativeSegments, if_pos hcommon]
      simpa using ih hsegs
  | case2 d dirs s segs hcommon =>
      rw [relativeSegments, if_neg hcommon]
      refine Or.inr ⟨⟨_, rfl⟩, ?_⟩
      rintro ⟨name, rest, hsegs⟩
      obtain ⟨rfl, rfl⟩ := List.cons.inj hsegs
      simp at hcommon
  | case3 dirs segs hnot =>
      obtain ⟨name, rest, rfl⟩ := List.exists_cons_of_ne_nil hne
      obtain rfl : dirs = [] := by
        cases dirs with
        | nil => rfl
        | cons d dirs => exact absurd rfl (hnot d dirs name rest rfl)
      exact Or.inl ⟨name, rest, rfl, rfl⟩

/-- **Which specifiers are relative.** For paths in normal form, the specifier of a target is
relative unless the target lies below the directory of the importing module and the name by which it
goes on from there begins with a dot. -/
theorem isRelative_relativeImport_iff (hs : normalize source = source) (hsource : source ≠ [])
    (ht : normalize target = target) (htarget : target ≠ []) :
    Script.isRelative (relativeImport source target) = true
      ↔ ∀ name rest, Text.split Byte.slash target
          = (Text.split Byte.slash source).dropLast ++ name :: rest →
        Text.startsWith name "." = true → name = (".." : Text) := by
  have hres := resolved_split_of_normal hs hsource
  have htres := resolved_split_of_normal ht htarget
  obtain ⟨dirs, last, hsplit⟩ : ∃ dirs last, Text.split Byte.slash source = dirs ++ [last] :=
    ⟨_, _, (List.dropLast_append_getLast (Text.split_ne_nil Byte.slash source)).symm⟩
  rw [hsplit] at hres
  have hdirs : dirSegments (dir source) = dirs := by
    rw [← Text.join_split Byte.slash source, hsplit]
    exact hres.of_append.dirSegments_dir (hres.no_slash last (by simp))
  have hslash : ∀ s ∈ relativeSegments dirs (Text.split Byte.slash target), Byte.slash ∉ s :=
    relativeSegments_no_slash htres.no_slash
  have hdropLast : (Text.split Byte.slash source).dropLast = dirs := by
    rw [hsplit, List.dropLast_concat]
  rw [relativeImport, hs, ht, hdirs, hdropLast, slash_text]
  rcases relativeSegments_cases dirs (Text.split_ne_nil Byte.slash target) with
    ⟨name, rest, hbelow, hway⟩ | ⟨⟨rest, hway⟩, hnot⟩
  · -- the target lies below the directory, and the way begins with a segment of the target
    have hmem : name ∈ Text.split Byte.slash target := by simp [hbelow]
    have hdot : name ≠ ("." : Text) := by
      rintro rfl
      rw [← htres.clean] at hmem
      rcases eq_parent_or_isName_of_mem htres.no_slash hmem with ⟨-, h⟩ | hname
      · exact absurd h (by decide)
      · exact hname.ne_dot rfl
    rw [hway] at hslash ⊢
    rw [isRelative_way_iff rfl hslash (htres.ne_nil hmem), hbelow]
    simp only [hdot, false_or, List.append_cancel_left_eq, List.cons.injEq]
    constructor
    · rintro h _ _ ⟨rfl, -⟩
      exact h
    · exact fun h => h name rest ⟨rfl, rfl⟩
  · -- the way climbs first, so it begins with `..`
    rw [hway] at hslash ⊢
    rw [isRelative_way_iff rfl hslash (by decide)]
    refine iff_of_true (fun _ => Or.inr rfl) fun name rest hbelow => ?_
    exact absurd ⟨name, rest, hbelow⟩ hnot

/-- The specifier of a file in a directory with a dotted name is relative for a module outside of
that directory that has to climb. -/
theorem isRelative_relativeImport_iff_climbing :
    normalize ("src/a.js" : Text) = "src/a.js" ∧ normalize (".cache/x.js" : Text) = ".cache/x.js"
    ∧ relativeImport "src/a.js" ".cache/x.js" = "../.cache/x.js"
    ∧ Script.isRelative (relativeImport "src/a.js" ".cache/x.js") = true := by
  refine ⟨by decide, by decide, by decide,
    (isRelative_relativeImport_iff (by decide) (by decide) (by decide) (by decide)).2 ?_⟩
  intro name rest hbelow
  have htarget : Text.split Byte.slash (".cache/x.js" : Text) = [".cache", "x.js"] := by decide
  have hdir : (Text.split Byte.slash ("src/a.js" : Text)).dropLast = ["src"] := by decide
  rw [htarget, hdir] at hbelow
  exact absurd (List.cons.inj hbelow).1 (by decide)

/-- **A specifier that is read as that of a package**: the target lies beside the importing module,
in a directory whose name begins with a dot. -/
theorem exists_relativeImport_not_isRelative :
    ∃ source target : Text, IsPlain source ∧ IsPlain target
      ∧ relativeImport source target = ".cache/x.js"
      ∧ Script.isRelative (relativeImport source target) = false :=
  ⟨"a.js", ".cache/x.js", by decide⟩

end Path

end MiniProgram
