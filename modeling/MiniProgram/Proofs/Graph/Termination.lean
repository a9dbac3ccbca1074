import Mathlib.Data.Set.Finite.Lattice
import Mathlib.Order.Interval.Finset.Nat
import MiniProgram.Proofs.Graph.Run
import MiniProgram.Proofs.Path.Climbing

/-!
When the import walk ends.

The walk goes on as long as its queue holds an identifier, and never takes one twice, so it ends
exactly if it finds finitely many. There are finitely many files, but a file has one identifier for
each number of parent references that can be put before it and are lost at the root of the file
system. The description of a package can name its entry in such a way that one more of them is
needed each time the package refers to itself.

* `walk_isSome_iff_finite`: the walk ends if the queue holds finitely many identifiers.
* `finite_files`: finitely many identifiers in normal form name a file and climb no farther than a
  bound.
* `isPlain_of_resolve_of_normal`: what climbs is an entry that the description of a package names.
* `walk_ends_iff`: the walk ends exactly if what it finds does not climb without a bound.
* `walk_climbing_eq_none`: a project in which it does.
-/

namespace MiniProgram

namespace Graph

open MiniProgram.Path

variable {r : Resolver} {kindOf : Text → EntryKind} {b : Bundle} {s s' : Moment} {found : Text}

/-- The identifiers that the queue ever holds. -/
def everEnqueued (r : Resolver) (kindOf : Text → EntryKind) (b : Bundle) : Set Text :=
  {id | ∃ s, Passes r kindOf b s ∧ id ∈ s.enqueued}

/-! ### Finitely many identifiers -/

/-- A moment has one next moment at most. -/
lemma Step.eq {s₁ s₂ : Moment} (h₁ : Step r kindOf s s₁) (h₂ : Step r kindOf s s₂) : s₁ = s₂ := by
  cases h₁ with
  | take =>
      cases h₂ with
      | take => rfl
  | follow taken m spec specs hfollow₁ =>
      cases h₂ with
      | follow _ _ _ _ hfollow₂ =>
          cases hfollow₁.symm.trans hfollow₂
          rfl
  | close =>
      cases h₂ with
      | close => rfl

/-- If the steps from a moment come to an end, finitely many moments are passed. -/
lemma finite_of_ends (h : Ends r kindOf s) :
    {s' | Relation.ReflTransGen (Step r kindOf) s s'}.Finite := by
  induction h with
  | intro s _ ih =>
      by_cases hstep : ∃ s₁, Step r kindOf s s₁
      · obtain ⟨s₁, hstep⟩ := hstep
        refine ((ih s₁ hstep).insert s).subset fun s' hs' => ?_
        rcases Relation.ReflTransGen.cases_head hs' with rfl | ⟨s₂, hs₂, hrest⟩
        · exact Set.mem_insert _ _
        · cases hstep.eq hs₂
          exact Set.mem_insert_of_mem _ hrest
      · refine (Set.finite_singleton s).subset fun s' hs' => ?_
        rcases Relation.ReflTransGen.cases_head hs' with rfl | ⟨s₂, hs₂, -⟩
        · rfl
        · exact absurd ⟨s₂, hs₂⟩ hstep

/-- How many steps an inspection still takes. -/
def Moment.pending (s : Moment) : ℕ := (s.scan.map fun c => c.specs.length + 1).getD 0

/-- If no more than a number of identifiers are ever taken, the steps come to an end. -/
lemma ends_of_bounded {n : ℕ} (hn : ∀ s, Passes r kindOf b s → s.taken.length ≤ n)
    (h : Passes r kindOf b s) : Ends r kindOf s := by
  -- each step takes an identifier, or takes none and shortens the inspection
  induction htaken : n - s.taken.length using Nat.strong_induction_on generalizing s with
  | _ left ih =>
      induction hpending : s.pending using Nat.strong_induction_on generalizing s with
      | _ pending ih' =>
          refine Acc.intro _ fun s' hstep => ?_
          have hs' : Passes r kindOf b s' := h.tail hstep
          cases hstep with
          | take taken c id queue seen =>
              have hlen := hn _ hs'
              simp only [List.length_append, List.length_singleton] at hlen htaken
              refine ih _ ?_ hs' rfl
              simp only [List.length_append, List.length_singleton]
              omega
          | follow =>
              refine ih' _ ?_ hs' htaken rfl
              simp only [Moment.pending, Option.map_some, Option.getD_some,
                List.length_cons] at hpending ⊢
              omega
          | close =>
              refine ih' _ ?_ hs' htaken rfl
              simp only [Moment.pending, Option.map_some, Option.getD_some, Option.map_none,
                Option.getD_none, List.length_nil] at hpending ⊢
              omega

/-- The walk ends exactly if the queue holds finitely many identifiers. -/
theorem walk_isSome_iff_finite :
    (walk r kindOf (Walk.start b)).isSome = true ↔ (everEnqueued r kindOf b).Finite := by
  rw [walk_isSome_iff]
  constructor
  · intro h
    have hall := (finite_of_ends h).biUnion fun s _ => s.enqueued.toFinset.finite_toSet
    refine hall.subset fun id hid => ?_
    obtain ⟨s, hs, hid⟩ := hid
    exact Set.mem_biUnion hs (by simpa using hid)
  · intro h
    refine ends_of_bounded (n := h.toFinset.card) (fun s hs => ?_) .refl
    -- the identifiers that were taken are different ones
    have htraced := traced_of_passes hs
    have hsub : s.enqueued.toFinset ⊆ h.toFinset := fun id hid =>
      h.mem_toFinset.2 ⟨s, hs, List.mem_toFinset.1 hid⟩
    calc s.taken.length ≤ s.enqueued.length := by simp [Moment.enqueued]
      _ = s.enqueued.toFinset.card := (List.toFinset_card_of_nodup htraced.nodup).symm
      _ ≤ h.toFinset.card := Finset.card_le_card hsub

/-- What is found comes into the queue. -/
lemma mem_everEnqueued_of_finds (h : Finds r kindOf b found) :
    found ∈ everEnqueued r kindOf b := by
  obtain ⟨s, m, imports, spec, specs, hpass, hscan, hres⟩ := h
  obtain ⟨taken, scan, w⟩ := s
  cases hscan
  by_cases hseen : found ∈ w.seen
  · exact ⟨_, hpass, ((traced_of_passes hpass).seen found).1 hseen⟩
  · obtain ⟨content, hread⟩ := Resolver.isFile_iff.1 (Resolver.isFile_of_resolve hres)
    have hfollow : (follow r kindOf m.id (imports, w) spec).result
        = .ok (imports ++ [⟨spec, found⟩],
          ⟨w.bundle.put { Module.ofSource found content with entry := kindOf found },
            w.queue ++ [found], found :: w.seen⟩) := by
      simp [follow, hres, hseen, hread, Outcome.ok, Outcome.of]
    exact ⟨_, hpass.tail (.follow taken m spec specs hfollow), by simp [Moment.enqueued]⟩

/-! ### Finitely many files -/

/-- Finitely many identifiers in normal form name a file and climb no farther than a bound. -/
lemma finite_files (hroot : isAbsolute r.root = true) (n : ℕ) :
    {id | normalize id = id ∧ r.isFile id = true
      ∧ climbs (Text.split Byte.slash id) ≤ n}.Finite := by
  refine Set.Finite.of_finite_image (f := fun id =>
    (climbs (Text.split Byte.slash id), r.absolute id)) ?_ ?_
  · refine ((Set.finite_Iic n).prod r.fs.filePaths.toFinset.finite_toSet).subset ?_
    rintro _ ⟨id, ⟨-, hfile, hc⟩, rfl⟩
    obtain ⟨content, hread⟩ := Resolver.isFile_iff.1 hfile
    refine ⟨hc, ?_⟩
    have hnames : Resolved true ((cleanSegments true (Text.split Byte.slash r.root)).rdrop
        (climbs (Text.split Byte.slash id)) ++ landing (Text.split Byte.slash id)) := by
      refine resolved_of_isName fun s hmem => ?_
      rcases List.mem_append.1 hmem with hmem | hmem
      · exact isName_of_mem_cleanSegments (fun x hx => no_slash_of_mem_split hx) s
          (List.mem_of_mem_take hmem)
      · exact isName_of_mem_landing (fun x hx => no_slash_of_mem_split hx) hmem
    have hspell := join_of_isAbsolute hroot id
    rw [Resolver.absolute, hspell] at hread
    simp only [Resolver.absolute, hspell, List.coe_toFinset, Set.mem_ofPred_eq]
    exact FileSystem.mem_filePaths rfl (hnames.clean_spell (Or.inl rfl)) hread
  · rintro p ⟨hp, -⟩ q ⟨hq, -⟩ heq
    obtain ⟨hc, habs⟩ := Prod.mk.inj heq
    exact eq_of_join_eq hroot hp hq hc habs

/-- If what is found in normal form climbs no farther than a bound, finitely many identifiers are
found. -/
lemma finite_finds (hroot : isAbsolute r.root = true) {n : ℕ}
    (hn : ∀ found, Finds r kindOf b found → normalize found = found →
      climbs (Text.split Byte.slash found) ≤ n) : {found | Finds r kindOf b found}.Finite := by
  have hsources : {source | source ∈ b.ids ∨ source = []
      ∨ (Finds r kindOf b source ∧ normalize source = source)}.Finite := by
    refine ((b.ids.toFinset.finite_toSet.union (Set.finite_singleton [])).union
      (finite_files hroot n)).subset ?_
    rintro source (hid | hnil | ⟨hfinds, hnormal⟩)
    · exact Or.inl (Or.inl (by simpa using hid))
    · exact Or.inl (Or.inr hnil)
    · obtain ⟨_, _, hres, -⟩ := exists_of_finds hfinds
      exact Or.inr ⟨hnormal, Resolver.isFile_of_resolve hres, hn source hfinds hnormal⟩
  set specs := (knownContents r b).flatMap Script.scanImports with hspecs
  -- a module under inspection and a specifier of a known content determine what is found
  refine ((hsources.prod specs.toFinset.finite_toSet).image fun p =>
    (r.resolve p.1 p.2).getD []).subset fun found hfound => ?_
  obtain ⟨source, spec, hres, ⟨content, hcontent, hspec⟩, hsource⟩ := exists_of_finds hfound
  refine ⟨(source, spec), ⟨hsource, ?_⟩, by simp [hres]⟩
  simpa [hspecs] using ⟨content, hcontent, hspec⟩

/-- The walk ends exactly if what it finds does not climb without a bound. -/
theorem walk_isSome_iff_climbs (hroot : isAbsolute r.root = true) :
    (walk r kindOf (Walk.start b)).isSome = true ↔
      ∃ n, ∀ found, Finds r kindOf b found → normalize found = found →
        climbs (Text.split Byte.slash found) ≤ n := by
  rw [walk_isSome_iff_finite]
  constructor
  · intro h
    obtain ⟨n, hn⟩ := (h.image fun id => climbs (Text.split Byte.slash id)).bddAbove
    exact ⟨n, fun found hfound _ => hn ⟨found, mem_everEnqueued_of_finds hfound, rfl⟩⟩
  · rintro ⟨n, hn⟩
    refine (b.ids.toFinset.finite_toSet.union (finite_finds hroot hn)).subset fun id hid => ?_
    obtain ⟨s, hs, hid⟩ := hid
    exact ((traced_of_passes hs).enqueued id hid).imp_left fun h => by simpa using h

/-! ### Entries that stay below the root -/

/-- No package below the root describes an entry that climbs over more than the directories of the
package. -/
def EntriesInside (r : Resolver) : Prop :=
  ∀ dir, IsPlain dir → ∀ path ∈ r.describedEntries dir,
    climbs (Text.split Byte.slash path) ≤ (Text.split Byte.slash dir).length

/-- Only an entry that the description of a package names climbs: otherwise an identifier in normal
form that is seen from a module below the root is plain. -/
theorem isPlain_of_resolve_of_normal (hentries : EntriesInside r) {source spec : Text}
    (hn : normalize source = source) (hp : (".." : Text) ∉ Text.split Byte.slash source)
    (h : r.resolve source spec = some found) (hnormal : normalize found = found) :
    IsPlain found := by
  rcases Resolver.resolve_eq_some h with ⟨-, -, base, hbase, hmem⟩ | ⟨-, hc, dir, hdir, hin⟩
  · exact Resolver.isPlain_of_mem_candidates hbase hmem
  · have hplain : IsPlain dir := Resolver.isPlain_of_mem_packageDirs hn hp hc hdir
    have hbelow : ∀ t : Text, found ∈ Resolver.candidates (dir ++ Byte.slash :: t) →
        IsPlain found := by
      intro t hmem
      obtain ⟨ending, rfl⟩ := Resolver.exists_ending hmem
      rw [List.append_assoc, List.cons_append] at hnormal ⊢
      exact isPlain_of_normal_append hplain hnormal
    rcases (Resolver.inPackage_eq_some hin).2.2 with ⟨-, hmem⟩ | ⟨-, ⟨path, hpath, hmem⟩ | hmem⟩
    · rw [List.append_assoc] at hmem
      exact hbelow _ hmem
    · obtain ⟨names, hnames, hjoin, -⟩ :=
        normalize_join_of_climbs_le hplain (hentries dir hplain path hpath)
      rw [hjoin] at hmem
      by_cases hne : names = []
      · -- of the candidates for the root itself, a hidden file is plain and the index not normal
        subst hne
        rcases Resolver.mem_candidates.1 hmem with ⟨hext, -⟩ | ⟨e, he, rfl⟩ | ⟨e, he, rfl⟩
        · exact absurd rfl hext
        · have hslash : Byte.slash ∉ Text.join [Byte.slash] [] := by decide
          exact isPlain_of_isName_self (Resolver.isName_append_ext hslash he)
        · have hall : ∀ e ∈ Resolver.probeExts, normalize
              (Text.join [Byte.slash] [] ++ "/index" ++ e)
                ≠ Text.join [Byte.slash] [] ++ "/index" ++ e := by decide +kernel
          exact absurd hnormal (hall e he)
      · exact Resolver.isPlain_of_mem_candidates (isPlain_join hne hnames) hmem
    · exact hbelow ("index" : Text) hmem

/-- A path in normal form that does not climb. -/
def StaysInside (id : Text) : Prop :=
  normalize id = id ∧ (".." : Text) ∉ Text.split Byte.slash id

instance (id : Text) : Decidable (StaysInside id) := inferInstanceAs (Decidable (_ ∧ _))

/-- What holds of the queue and of the module under inspection as long as nothing climbs. -/
structure Inside (s : Moment) : Prop where
  enqueued : ∀ id ∈ s.enqueued, normalize id = id → StaysInside id
  scanned : ∀ c, s.scan = some c → StaysInside c.module.id

/-- If the entries of packages stay below the root, each step does. -/
lemma Inside.step (hentries : EntriesInside r) (hids : ∀ id ∈ b.ids, StaysInside id)
    (hpass : Passes r kindOf b s) (h : Inside s) (hstep : Step r kindOf s s') : Inside s' := by
  cases hstep with
  | take taken c id queue seen =>
      refine ⟨fun id' hid' => h.enqueued id' (by simpa [Moment.enqueued] using hid'), ?_⟩
      intro scan hscan
      obtain ⟨m, hm, -, rfl⟩ := opened_eq_some hscan
      cases hget : c.get? id with
      | none =>
          rw [hget, Option.getD_none] at hm
          subst hm
          exact ⟨rfl, by decide⟩
      | some m' =>
          rw [hget, Option.getD_some] at hm
          subst hm
          obtain ⟨hmem, rfl⟩ := Bundle.get?_eq_some_iff.1 hget
          -- the module was in the bundle from the start, or it was loaded under its identifier
          rcases ((traced_of_passes hpass).modules m hmem).2 with hid | hnormal
          · exact hids m.id hid
          · exact h.enqueued m.id (by simp [Moment.enqueued]) hnormal
  | follow taken m spec specs hfollow =>
      have hm : StaysInside m.id := h.scanned _ rfl
      have hscanned : ∀ imports c, some (Scan.mk m imports specs) = some c →
          StaysInside c.module.id := by
        intro imports c hc
        cases hc
        exact hm
      rcases follow_eq_ok hfollow with ⟨-, -, -, rfl⟩ | ⟨found, hres, -, hcase⟩
      · exact ⟨h.enqueued, hscanned _⟩
      · rcases hcase with ⟨-, rfl⟩ | ⟨-, content, -, rfl⟩
        · exact ⟨h.enqueued, hscanned _⟩
        · refine ⟨fun id hid hnormal => ?_, hscanned _⟩
          rw [Moment.enqueued, ← List.append_assoc, List.mem_append, List.mem_singleton] at hid
          rcases hid with hid | rfl
          · exact h.enqueued id hid hnormal
          · -- a new identifier in normal form stays below the root, since the importing module does
            have hplain := isPlain_of_resolve_of_normal hentries hm.1 hm.2 hres hnormal
            exact ⟨hplain.normal, hplain.no_parent⟩
  | close => exact ⟨h.enqueued, by simp⟩

/-- If the entries of packages stay below the root, the whole walk does. -/
lemma inside_of_passes (hentries : EntriesInside r) (hids : ∀ id ∈ b.ids, StaysInside id)
    (h : Passes r kindOf b s) : Inside s := by
  induction h with
  | refl => exact ⟨fun id hid _ => hids id hid, by simp [Moment.start]⟩
  | tail hpass hstep ih => exact ih.step hentries hids hpass hstep

/-- A walk on which the entries of packages stay below the root ends. -/
theorem walk_isSome_of_entriesInside (hroot : isAbsolute r.root = true)
    (hentries : EntriesInside r) (hids : ∀ id ∈ b.ids, StaysInside id) :
    (walk r kindOf (Walk.start b)).isSome = true := by
  refine (walk_isSome_iff_climbs hroot).2 ⟨0, fun found hfound hnormal => ?_⟩
  obtain ⟨s, hs, hmem⟩ := mem_everEnqueued_of_finds hfound
  have hinside := (inside_of_passes hentries hids hs).enqueued found hmem hnormal
  exact (climbs_eq_zero hinside.2 fun x hx => no_slash_of_mem_split hx).le

/-! ### The end of the walk -/

/-- The entries that descriptions name stay below the root if none of the files names one that
climbs. -/
lemma entriesInside_of_contents (h : ∀ content ∈ r.fs.contents,
    ∀ path ∈ Resolver.namedEntries content, climbs (Text.split Byte.slash path) = 0) :
    EntriesInside r := by
  intro dir _ path hpath
  rw [Resolver.describedEntries] at hpath
  cases hread : r.fs.read (r.absolute (dir ++ "/package.json")) with
  | error e =>
      rw [hread] at hpath
      cases hpath
  | ok content =>
      rw [hread] at hpath
      rw [h content (FileSystem.mem_contents hread) path hpath]
      exact Nat.zero_le _

/-- **The end of the import walk**, for a project at an absolute root. The walk ends exactly if its
queue holds finitely many identifiers, and exactly if those of them that are found in normal form do
not climb without a bound. So it ends if no package below the root describes an entry that climbs
over more than the directories of the package, and the initial modules do not climb. -/
theorem walk_ends_iff (hroot : isAbsolute r.root = true) :
    ((walk r kindOf (Walk.start b)).isSome = true ↔ (everEnqueued r kindOf b).Finite)
    ∧ ((walk r kindOf (Walk.start b)).isSome = true ↔
      ∃ n, ∀ found, Finds r kindOf b found → normalize found = found →
        climbs (Text.split Byte.slash found) ≤ n)
    ∧ (EntriesInside r → (∀ id ∈ b.ids, StaysInside id) →
      (walk r kindOf (Walk.start b)).isSome = true) :=
  ⟨walk_isSome_iff_finite, walk_isSome_iff_climbs hroot, walk_isSome_of_entriesInside hroot⟩

/-- A project at `/proj` with a package that imports itself. -/
def selfImporting : Resolver :=
  ⟨.ofFiles [("/proj/node_modules/p/index.js", "import 'p';\n")], "/proj", []⟩

/-- The walk through a package that imports itself ends. -/
theorem walk_ends_selfImporting :
    selfImporting.resolve "node_modules/p/index.js" "p" = some "node_modules/p/index.js"
    ∧ (walk selfImporting (fun _ => .none)
      (Walk.start (.ofModules [.ofSource "src/a.js" "import 'p';\n"]))).isSome = true := by
  have hroot : isAbsolute selfImporting.root = true := by decide
  obtain ⟨-, -, hends⟩ := walk_ends_iff hroot
  exact ⟨by decide +kernel, hends (entriesInside_of_contents (by decide +kernel))
    (by decide +kernel)⟩

/-! ### A walk without an end -/

/-- A project at `/proj` with a script and a package whose description names that script as the
entry of the package, by way of the root of the file system. -/
def climbingResolver : Resolver :=
  ⟨.ofFiles [("/proj/node_modules/p/package.json", "\x7b\"main\":\"../../../../proj/a.js\"\x7d"),
    ("/proj/a.js", "import 'p';\n")], "/proj", []⟩

/-- The bundle of the script, which refers to the package. -/
def climbingBundle : Bundle := .ofModules [.ofSource "a.js" "import 'p';\n"]

/-- The script, reached over a number of parent references. -/
def climbingScript (k : ℕ) : Text := climbing k ["proj", "a.js"]

variable {k : ℕ} {names : List Text}

lemma absolute_climbing (hk : 0 < k) (hne : names ≠ []) (hn : ∀ s ∈ names, IsName s) :
    climbingResolver.absolute (climbing k names) = spell true names := by
  have hlen : (cleanSegments true (Text.split Byte.slash climbingResolver.root)).length = 1 := by
    decide +kernel
  have hdepth : (cleanSegments true (Text.split Byte.slash climbingResolver.root)).length ≤ k := by
    omega
  rw [Resolver.absolute, join_climbing (by decide) hne hn hdepth]

/-- The package is looked for beside the script first. -/
lemma packageDirs_climbingScript (hk : 0 < k) : ∃ rest,
    Resolver.packageDirs [] (climbingScript k) "p"
      = climbing k ["proj", "node_modules", "p"] :: rest := by
  have hnames : ∀ s ∈ ([("proj" : Text)] : List Text), IsName s := by decide
  have hdir : dir (climbingScript k) = climbing k ["proj"] := by
    have hscript : climbingScript k = climbing k ([("proj" : Text)] ++ [("a.js" : Text)]) := rfl
    rw [hscript, dir_climbing (by simp) hnames (by decide)]
  have hdot : climbing k ["proj"] ≠ ("." : Text) := join_ne_dot (resolved_replicate_append k hnames)
  have hslash : climbing k ["proj"] ≠ ("/" : Text) := by
    intro heq
    have habs : isAbsolute (climbing k ["proj"]) = false := isAbsolute_climbing hnames
    rw [heq] at habs
    cases habs
  have hnil : climbing k ["proj"] ≠ [] := climbing_ne_nil (by simp) hnames
  have hbase : base (climbing k ["proj"]) = ("proj" : Text) := by
    have hconcat := climbing_concat hk [] ("proj" : Text)
    rw [List.nil_append] at hconcat
    rw [hconcat, base_concat (by decide)]
  have hpath : climbs (Text.split Byte.slash (("node_modules" : Text) ++ Byte.slash :: "p")) = 0
      ∧ landing (Text.split Byte.slash (("node_modules" : Text) ++ Byte.slash :: "p"))
        = [("node_modules" : Text), "p"] := by decide +kernel
  have hjoin : normalize (Path.join [climbing k ["proj"], "node_modules", "p"])
      = climbing k ["proj", "node_modules", "p"] := by
    rw [join_triple hnil, normalize_join_climbing (by simp) hnames, hpath.1, hpath.2,
      List.rdrop_zero, Nat.zero_sub, Nat.add_zero]
    rfl
  rw [Resolver.packageDirs, if_neg (by simp), hdir, Resolver.dirsFrom,
    if_neg (by simp [hdot, hslash, hnil]), List.filter_cons_of_pos (by rw [hbase]; decide),
    List.map_cons, hjoin]
  exact ⟨_, rfl⟩

/-- The entry of the package is the script, over one more parent reference. -/
lemma packageEntry_climbing (hk : 0 < k) :
    climbingResolver.packageEntry (climbing k ["proj", "node_modules", "p"])
      = some (climbingScript (k + 1)) := by
  have hdescribed : climbingResolver.describedEntries (climbing k ["proj", "node_modules", "p"])
      = [("../../../../proj/a.js" : Text)] := by
    have hname : ("/package.json" : Text) = Byte.slash :: ("package.json" : Text) := by decide
    rw [Resolver.describedEntries, hname, ← climbing_concat hk,
      absolute_climbing hk (by simp) (by decide)]
    decide +kernel
  have hpath : climbs (Text.split Byte.slash "../../../../proj/a.js") = 4
      ∧ landing (Text.split Byte.slash "../../../../proj/a.js") = [("proj" : Text), "a.js"] := by
    decide +kernel
  have hbase : normalize (Path.join [climbing k ["proj", "node_modules", "p"],
      "../../../../proj/a.js"]) = climbingScript (k + 1) := by
    rw [normalize_join_climbing (by simp) (by decide), hpath.1, hpath.2]
    rfl
  have hext : Path.ext (climbingScript (k + 1)) = ".js" := by
    have hconcat : climbingScript (k + 1) = climbing (k + 1) ["proj"] ++ Byte.slash :: "a.js" :=
      climbing_concat (Nat.succ_pos k) ["proj"] "a.js"
    rw [hconcat, ext_concat (by decide)]
    decide
  have hfile : climbingResolver.isFile (climbingScript (k + 1)) = true := by
    rw [Resolver.isFile, climbingScript, absolute_climbing (Nat.succ_pos k) (by simp) (by decide)]
    decide +kernel
  have hprobe : climbingResolver.probe (climbingScript (k + 1))
      = some (climbingScript (k + 1)) := by
    rw [Resolver.probe, Resolver.candidates, hext, if_neg (by decide)]
    simp [hfile]
  rw [Resolver.packageEntry, hdescribed, List.findSome?_cons, hbase, hprobe]
  rfl

/-- Each time the package is resolved from the script, the script is found over one more parent
reference. -/
lemma resolve_climbingScript (hk : 0 < k) :
    climbingResolver.resolve (climbingScript k) "p" = some (climbingScript (k + 1)) := by
  have hrel : Script.isRelative "p" = false := by decide
  have hsplit : Resolver.splitPackage "p" = (("p" : Text), []) := by decide
  have hdir : climbingResolver.isDir (climbing k ["proj", "node_modules", "p"]) = true := by
    rw [Resolver.isDir, absolute_climbing hk (by simp) (by decide)]
    decide +kernel
  obtain ⟨rest, hdirs⟩ := packageDirs_climbingScript hk
  have hdedupe : climbingResolver.dedupe = [] := rfl
  rw [Resolver.resolve, hrel, if_neg (by simp), if_neg (by decide), hsplit]
  simp only
  rw [hdedupe, hdirs, List.findSome?_cons, Resolver.inPackage, hdir, if_neg (by simp), if_pos rfl,
    packageEntry_climbing hk]

lemma read_climbingScript (hk : 0 < k) :
    climbingResolver.fs.read (climbingResolver.absolute (climbingScript k))
      = .ok ("import 'p';\n" : Text) := by
  rw [climbingScript, absolute_climbing hk (by simp) (by decide)]
  decide +kernel

lemma normalize_climbingScript (k : ℕ) : normalize (climbingScript k) = climbingScript k :=
  normalize_climbing (by decide)

lemma climbs_climbingScript (k : ℕ) : climbs (Text.split Byte.slash (climbingScript k)) = k :=
  climbs_climbing (by simp) (by decide)

lemma ofPath_climbingScript (hk : 0 < k) :
    ModuleKind.ofPath (climbingScript k) = .script := by
  have hconcat : climbingScript k = climbing k ["proj"] ++ Byte.slash :: "a.js" :=
    climbing_concat hk ["proj"] "a.js"
  have hext : Path.ext (normalize (climbingScript k)) = ".js" := by
    rw [normalize_climbingScript, hconcat, ext_concat (by decide)]
    decide
  rw [ModuleKind.ofPath, hext]
  decide

lemma scanImports_climbing : Script.scanImports "import 'p';\n" = [("p" : Text)] := by
  rw [Script.scanImports, List.mergeSort_of_pairwise (by decide +kernel)]
  decide +kernel

/-- A module of the bundle whose content refers to the package is inspected when it is taken. -/
lemma opened_climbing {c : Bundle} {m : Module} {id : Text} (hget : c.get? id = some m)
    (hkind : m.kind = .script) (hcontent : m.content = "import 'p';\n") :
    opened c id = some ⟨m, [], ["p"]⟩ := by
  rw [opened, hget, Option.getD_some, if_pos hkind, hcontent, scanImports_climbing]

/-- The walk comes to inspect a module that finds the script over any number of parent
references. -/
lemma passes_climbing (kindOf : Text → EntryKind) (k : ℕ) : ∃ taken m bundle seen,
    Passes climbingResolver kindOf climbingBundle
      ⟨taken, some ⟨m, [], ["p"]⟩, ⟨bundle, [], seen⟩⟩
    ∧ climbingResolver.resolve m.id "p" = some (climbingScript (k + 2))
    ∧ m.id ∈ seen ∧ ∀ id ∈ seen, climbs (Text.split Byte.slash id) < k + 2 := by
  induction k with
  | zero =>
      have hget : climbingBundle.get? "a.js" = some (.ofSource "a.js" "import 'p';\n") := by
        decide +kernel
      have hopen := opened_climbing hget (by decide +kernel) rfl
      have hstep : Step climbingResolver kindOf (Moment.start climbingBundle)
          ⟨["a.js"], opened climbingBundle "a.js", ⟨climbingBundle, [], ["a.js"]⟩⟩ :=
        .take [] climbingBundle "a.js" [] ["a.js"]
      rw [hopen] at hstep
      exact ⟨["a.js"], _, climbingBundle, ["a.js"], .tail .refl hstep, by decide +kernel,
        by decide +kernel, by decide +kernel⟩
  | succ k ih =>
      obtain ⟨taken, m, bundle, seen, hpass, hres, hm, hseen⟩ := ih
      have hnew : ∀ id ∈ seen, id ≠ climbingScript (k + 2) := by
        rintro id hid rfl
        have hlt := hseen _ hid
        rw [climbs_climbingScript] at hlt
        omega
      set dep : Module := { Module.ofSource (climbingScript (k + 2)) "import 'p';\n" with
        entry := kindOf (climbingScript (k + 2)) } with hdep
      have hid : dep.id = climbingScript (k + 2) := normalize_climbingScript (k + 2)
      -- the script is loaded anew, the module is put back, and the script is taken
      have hfollow : (follow climbingResolver kindOf m.id ([], ⟨bundle, [], seen⟩) "p").result
          = .ok ([⟨"p", climbingScript (k + 2)⟩],
            ⟨bundle.put dep, [climbingScript (k + 2)], climbingScript (k + 2) :: seen⟩) := by
        have hnot : climbingScript (k + 2) ∉ seen := fun hmem => hnew _ hmem rfl
        simp [follow, hres, hnot, read_climbingScript (Nat.succ_pos (k + 1)), Outcome.ok,
          Outcome.of, hdep]
      have hclose := (hpass.tail (.follow taken m "p" [] hfollow)).tail (.close _ _ _ _)
      have htake := hclose.tail (.take _ _ _ _ _)
      have hget : ((bundle.put dep).put { m with imports := [⟨"p", climbingScript (k + 2)⟩] }).get?
          (climbingScript (k + 2)) = some dep := by
        rw [Bundle.get?_put, if_neg (hnew _ hm).symm, Bundle.get?_put, hid, if_pos rfl]
      have hkind : dep.kind = .script := by
        simp only [hdep, Module.ofSource, normalize_climbingScript]
        exact ofPath_climbingScript (Nat.succ_pos _)
      rw [opened_climbing hget hkind rfl] at htake
      refine ⟨_, dep, _, _, htake, ?_, ?_, ?_⟩
      · rw [hid, resolve_climbingScript (Nat.succ_pos _)]
      · rw [hid]
        exact List.mem_cons_self
      · intro id hmem
        rcases List.mem_cons.1 hmem with rfl | hmem
        · rw [climbs_climbingScript]
          omega
        · exact (hseen id hmem).trans (Nat.lt_succ_self _)

/-- **A walk without an end**: at an absolute root and with finitely many files, the walk finds ever
new identifiers for one script. -/
theorem walk_climbing_eq_none : isAbsolute climbingResolver.root = true
    ∧ ∀ kindOf, walk climbingResolver kindOf (Walk.start climbingBundle) = none
      ∧ ¬ (everEnqueued climbingResolver kindOf climbingBundle).Finite := by
  have hroot : isAbsolute climbingResolver.root = true := by decide
  refine ⟨hroot, fun kindOf => ?_⟩
  have hnone : ¬ (walk climbingResolver kindOf (Walk.start climbingBundle)).isSome = true := by
    rw [walk_isSome_iff_climbs hroot]
    rintro ⟨n, hn⟩
    obtain ⟨taken, m, bundle, seen, hpass, hres, -⟩ := passes_climbing kindOf n
    have hle := hn _ ⟨_, m, [], "p", [], hpass, rfl, hres⟩ (normalize_climbingScript (n + 2))
    rw [climbs_climbingScript] at hle
    omega
  exact ⟨Option.not_isSome_iff_eq_none.1 hnone, walk_isSome_iff_finite.not.1 hnone⟩

end Graph

end MiniProgram
