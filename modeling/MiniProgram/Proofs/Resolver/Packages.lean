import MiniProgram.Proofs.Path.Climbing
import MiniProgram.Proofs.Path.Normal
import MiniProgram.Proofs.Resolver
import MiniProgram.Proofs.Text.Pieces

/-!
Where packages are looked for.

A package is looked for from the importing module outwards. The climb goes by the text of the
directories, from one to the one around it, until it comes to the project root; seen by segments, it
passes through what the path of the module begins with, the longest first.

* `ancestors`: the directories above a module.
* `dirsFrom_directory`: the climb visits all of them, and ends, if it has fuel for each.
* `normalize_join_package`: the directory of a package, in its normal form.
* `lookup_order`: **the order** in which the directories of a package are tried; a deduplicated
  package is the same for all modules.
-/

namespace MiniProgram

namespace Resolver

open MiniProgram.Path

variable {names : List Text} {last pkg source spec : Text} {fuel : ℕ}

/-! ### Directories above a module -/

/-- The directories above a module, each by its segments: the nearest first, and last the project
root, which has none. -/
def ancestors (p : Text) : List (List Text) := (segments p).dropLast.inits.reverse

/-- The directories above a module are what its segments before the last begin with. -/
lemma mem_ancestors {A : List Text} : A ∈ ancestors source ↔ A <+: (segments source).dropLast := by
  rw [ancestors, List.mem_reverse, List.mem_inits]

/-- The directories above a module in which packages are looked for: those that are not a
`node_modules` themselves. -/
def searched (p : Text) : List (List Text) :=
  (ancestors p).filter fun A => A.getLast? ≠ some ("node_modules" : Text)

/-- The path of a package in a directory. -/
def installed (pkg : Text) (A : List Text) : Text :=
  Text.join [Byte.slash] (A ++ [("node_modules" : Text), pkg])

lemma directory_concat (names : List Text) (last : Text) :
    directory (names ++ [last]) = Text.join [Byte.slash] (names ++ [last]) :=
  if_neg (List.append_ne_nil_of_right_ne_nil _ (List.cons_ne_nil _ _))

lemma dir_join_concat (hn : ∀ s ∈ names, IsName s) (hl : Byte.slash ∉ last) :
    dir (Text.join [Byte.slash] (names ++ [last])) = directory names :=
  dir_join hn hl

/-- The directories above one more directory. -/
lemma reverse_inits_concat (names : List Text) (last : Text) :
    (names ++ [last]).inits.reverse = (names ++ [last]) :: names.inits.reverse := by
  rw [List.inits_append, List.reverse_append]
  rfl

/-- The climb passes through all directories above, and ends at the root. -/
lemma dirsFrom_directory (hn : ∀ s ∈ names, IsName s) (hfuel : names.length < fuel) :
    dirsFrom fuel (directory names) = names.inits.reverse.map directory := by
  -- by induction on the segments from the right, as each step of the climb drops the last one
  induction names using List.reverseRecOn generalizing fuel with
  | nil =>
      obtain ⟨fuel, rfl⟩ := Nat.exists_eq_add_one_of_ne_zero (by omega : fuel ≠ 0)
      rfl
  | append_singleton names last ih =>
      obtain ⟨hnames, hlast⟩ := List.forall_mem_append.1 hn
      rw [List.length_append, List.length_singleton] at hfuel
      obtain ⟨fuel, rfl⟩ := Nat.exists_eq_add_one_of_ne_zero (by omega : fuel ≠ 0)
      have hplain : IsPlain (directory (names ++ [last])) := by
        rw [directory_concat]
        exact isPlain_join (by simp) hn
      have hslash : directory (names ++ [last]) ≠ ("/" : Text) := by
        intro heq
        have habs := isAbsolute_eq_false_of_isName hplain.isName
        rw [heq] at habs
        exact absurd habs (by decide)
      rw [dirsFrom, if_neg (by simp [ne_dot_of_isPlain hplain, hslash, hplain.ne_nil]),
        directory_concat, dir_join_concat hnames (hlast last (by simp)).no_slash,
        ih hnames (by omega), reverse_inits_concat, List.map_cons, directory_concat]

/-- The last segment of a directory is that of its text. -/
lemma base_directory (hn : ∀ s ∈ names, IsName s) :
    base (directory names) = names.getLast?.getD "." := by
  induction names using List.reverseRecOn with
  | nil => rfl
  | append_singleton names last _ =>
      have hlast : IsName last := hn last (by simp)
      rw [directory_concat, List.getLast?_concat, Option.getD_some]
      by_cases hne : names = []
      · rw [hne, List.nil_append, Text.join_singleton, base_of_isName hlast]
      · rw [Text.join_append hne (List.cons_ne_nil _ _), Text.join_singleton, List.append_assoc,
          List.singleton_append, base_concat hlast]

/-! ### Directories of a package -/

/-- The `node_modules` of a directory. -/
lemma isPlain_node_modules (hn : ∀ s ∈ names, IsName s) :
    IsPlain (Text.join [Byte.slash] (names ++ [("node_modules" : Text)])) :=
  isPlain_join (by simp) (isName_append_node_modules hn)

lemma installed_eq (pkg : Text) (names : List Text) :
    installed pkg names
      = Text.join [Byte.slash] (names ++ [("node_modules" : Text)]) ++ Byte.slash :: pkg := by
  rw [installed, List.append_cons, Text.join_append (by simp) (by simp), Text.join_singleton,
    List.append_assoc, List.singleton_append]

/-- The program joins the directory, `node_modules` and the package, and cleans the path before it
brings it to its normal form. -/
lemma normalize_join_package (hn : ∀ s ∈ names, IsName s) (pkg : Text) :
    normalize (Path.join [directory names, "node_modules", pkg])
      = normalize (installed pkg names) := by
  obtain ⟨hne, habs, hsegs⟩ := directory_spec hn
  have hslash : ∀ s ∈ names ++ [("node_modules" : Text)], Byte.slash ∉ s := fun s hs =>
    (isName_append_node_modules hn s hs).no_slash
  rw [join_triple hne, normalize_join_pair hne habs, hsegs, installed_eq,
    normalize_plain_append (isPlain_node_modules hn) pkg, Text.split_join (by simp) hslash,
    split_node_modules, List.append_cons]

/-- A package with a plain name is looked for under its name as it is. -/
lemma normalize_installed (hn : ∀ s ∈ names, IsName s) (hpkg : IsPlain pkg) :
    normalize (installed pkg names) = installed pkg names := by
  rw [installed_eq]
  exact (isPlain_append_iff.2 ⟨isPlain_node_modules hn, hpkg⟩).normal

/-! ### The order of the directories -/

/-- The segments of a module below the root are names. -/
lemma isName_of_mem_segments (hn : normalize source = source)
    (hp : (".." : Text) ∉ Text.split Byte.slash source) : ∀ s ∈ segments source, IsName s := by
  rw [segments]
  split_ifs with hnil
  · simp
  · exact IsPlain.isName ⟨hnil, hn, hp⟩

lemma dir_eq_directory (h : ∀ s ∈ segments source, IsName s) :
    dir source = directory (segments source).dropLast := by
  rcases List.eq_nil_or_concat (segments source) with hnil | ⟨names, last, hsegs⟩
  · have hempty : source = [] := by rw [← join_segments source, hnil, Text.join_nil]
    rw [hempty]
    rfl
  · rw [List.concat_eq_append] at hsegs
    rw [hsegs] at h ⊢
    rw [← join_segments source, hsegs, List.dropLast_concat]
    exact dir_join_concat (fun s hs => h s (by simp [hs])) (h last (by simp)).no_slash

lemma isName_of_mem_ancestors (h : ∀ s ∈ segments source, IsName s) {A : List Text}
    (hA : A ∈ ancestors source) : ∀ s ∈ A, IsName s := fun s hs =>
  h s (List.mem_of_mem_dropLast ((mem_ancestors.1 hA).subset hs))

/-- For a module below the root, a package that is not deduplicated is looked for in the directories
above the module. -/
lemma packageDirs_eq {dedupe : List Text} (hn : normalize source = source)
    (hp : (".." : Text) ∉ Text.split Byte.slash source) (hpkg : pkg ∉ dedupe) :
    packageDirs dedupe source pkg
      = (searched source).map fun A => normalize (installed pkg A) := by
  have hnames := isName_of_mem_segments hn hp
  have hfuel : (segments source).dropLast.length < source.length + 2 := by
    have hle := Text.length_le_length_join [Byte.slash] fun s hs => (hnames s hs).ne_nil
    rw [join_segments] at hle
    rw [List.length_dropLast]
    omega
  have hclimb : dirsFrom (source.length + 2) (dir source) = (ancestors source).map directory := by
    rw [dir_eq_directory hnames]
    exact dirsFrom_directory (fun s hs => hnames s (List.mem_of_mem_dropLast hs)) hfuel
  have hfilter : (ancestors source).filter
      ((fun d => decide (base d ≠ ("node_modules" : Text))) ∘ directory) = searched source := by
    refine List.filter_congr fun A hA => decide_eq_decide.2 (not_congr ?_)
    rw [base_directory (isName_of_mem_ancestors hnames hA)]
    cases A.getLast? with
    | none => decide
    | some last => simp
  rw [packageDirs, if_neg (by simpa using hpkg), hclimb, List.filter_map, List.map_map, hfilter]
  refine List.map_congr_left fun A hA => ?_
  exact normalize_join_package (isName_of_mem_ancestors hnames (List.mem_of_mem_filter hA)) pkg

/-- A bare specifier of a deduplicated package stands for what the package in the project root
offers. -/
lemma resolve_of_mem_dedupe {r : Resolver} (hrel : Script.isRelative spec = false)
    (hpkg : (splitPackage spec).1 ∈ r.dedupe) (source : Text) :
    r.resolve source spec = if spec = [] || Text.startsWith spec "/" then none
      else r.inPackage (splitPackage spec).2
        (Path.join ["node_modules", (splitPackage spec).1]) := by
  have hdirs : packageDirs r.dedupe source (splitPackage spec).1
      = [Path.join ["node_modules", (splitPackage spec).1]] := if_pos (by simpa using hpkg)
  rw [resolve, hrel, if_neg (by simp)]
  dsimp only
  rw [hdirs, List.findSome?_singleton]

/-- **Where packages are looked for.** From a module below the project root, a package that is not
deduplicated is looked for at `A/node_modules/package` for the directories `A` above the module that
are not a `node_modules` themselves, the nearest first and the root last. A bare specifier of a
deduplicated package stands for the same in all modules. -/
theorem lookup_order (r : Resolver) :
    (∀ source pkg, normalize source = source → (".." : Text) ∉ Text.split Byte.slash source →
      pkg ∉ r.dedupe →
        packageDirs r.dedupe source pkg
          = (searched source).map (fun A => normalize (installed pkg A))
        ∧ (IsPlain pkg → packageDirs r.dedupe source pkg = (searched source).map (installed pkg)))
    ∧ ∀ spec, Script.isRelative spec = false → (splitPackage spec).1 ∈ r.dedupe →
      ∀ source source', r.resolve source spec = r.resolve source' spec := by
  refine ⟨fun source pkg hn hp hpkg => ⟨packageDirs_eq hn hp hpkg, fun hplain => ?_⟩,
    fun spec hrel hpkg source source' => ?_⟩
  · have hnames := isName_of_mem_segments hn hp
    rw [packageDirs_eq hn hp hpkg]
    refine List.map_congr_left fun A hA => ?_
    exact normalize_installed (isName_of_mem_ancestors hnames (List.mem_of_mem_filter hA)) hplain
  · calc r.resolve source spec
        = if spec = [] || Text.startsWith spec "/" then none
          else r.inPackage (splitPackage spec).2
            (Path.join ["node_modules", (splitPackage spec).1]) :=
          resolve_of_mem_dedupe hrel hpkg source
      _ = r.resolve source' spec := (resolve_of_mem_dedupe hrel hpkg source').symm

/-- From a module in a package, the `node_modules` that holds the package is passed over. -/
theorem lookup_order_nested :
    let r : Resolver := ⟨.ofFiles [("/proj/node_modules/react/index.js", "")], "/proj", ["react"]⟩
    packageDirs r.dedupe "node_modules/remax/esm/index.js" "@x/lib"
        = ["node_modules/remax/esm/node_modules/@x/lib",
          "node_modules/remax/node_modules/@x/lib", "node_modules/@x/lib"]
      ∧ r.resolve "node_modules/remax/esm/index.js" "react" = some "node_modules/react/index.js"
      ∧ r.resolve "src/app.js" "react" = some "node_modules/react/index.js" := by
  intro r
  have horder := lookup_order r
  refine ⟨?_, by decide +kernel, ?_⟩
  · have hdirs := (horder.1 "node_modules/remax/esm/index.js" "@x/lib" (by decide) (by decide)
      (by decide)).2 (by decide)
    exact hdirs.trans (by decide)
  · have hsame := horder.2 "react" (by decide) (by decide) "src/app.js"
      "node_modules/remax/esm/index.js"
    exact hsame.trans (by decide +kernel)

end Resolver

end MiniProgram
