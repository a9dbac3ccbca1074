import MiniProgram.Proofs.Catalog
import MiniProgram.Proofs.Graph.Closure
import MiniProgram.Proofs.Path.Specifier

/-!
The entries of a program in the import graph.

The walk from the seed follows what is imported there and loads each entry under the kind that the
catalog has for it. Entries are looked up twice, though: they are discovered by asking whether a
path exists, and they are found again as the answer to a specifier, which is a file with an
extension. A path that is a directory or has no extension is discovered and not found again, and the
identifier of the seed is taken.

* `Kept`: what holds of the modules in the course of any walk.
* `answered_of_complete`: every specifier of the one initial script has been followed.
* `resolve_entry`: what the import of an entry is resolved to.
* `get?_entry`: which entries become modules of their own kind.
* `exists_entry_not_module`: a page that names a directory.
-/

namespace MiniProgram

namespace Graph

variable {r : Resolver} {kindOf : Text → EntryKind} {b b' : Bundle} {s s' : Moment} {m : Module}
  {id : Text}

/-! ### The modules of a walk -/

/-- Kinds that are asked for by normal paths, the root having none. -/
structure NormalKinds (kindOf : Text → EntryKind) : Prop where
  normalize : ∀ p, kindOf (Path.normalize p) = kindOf p
  root : kindOf [] = .none

/-- What holds at every moment of a walk: a module that is not one of the initial ones has the kind
that is asked for its identifier, and what was found is in the bundle under its normal form. -/
structure Kept (kindOf : Text → EntryKind) (b : Bundle) (s : Moment) : Prop where
  modules : ∀ m ∈ s.walk.bundle.modules, m.id ∈ b.ids ∨ m.entry = kindOf m.id
  scanned : ∀ c, s.scan = some c → c.module.id ∈ b.ids ∨ c.module.entry = kindOf c.module.id
  seen : ∀ id ∈ s.walk.seen, id ∈ b.ids ∨ Path.normalize id ∈ s.walk.bundle.ids

lemma kept_start (kindOf : Text → EntryKind) (b : Bundle) : Kept kindOf b (Moment.start b) where
  modules := fun m hm => Or.inl (List.mem_map_of_mem hm)
  scanned := fun c hc => by cases hc
  seen := fun id hid => Or.inl hid

/-- Each step of the walk preserves what is known of the modules. -/
lemma Kept.step (hkind : NormalKinds kindOf) (h : Kept kindOf b s) (hstep : Step r kindOf s s') :
    Kept kindOf b s' := by
  cases hstep with
  | take taken c id queue seen =>
      refine ⟨h.modules, fun scan hscan => ?_, h.seen⟩
      obtain ⟨m, hm, -, rfl⟩ := opened_eq_some hscan
      cases hget : c.get? id with
      | none =>
          rw [hget, Option.getD_none] at hm
          subst hm
          exact Or.inr hkind.root.symm
      | some m' =>
          rw [hget, Option.getD_some] at hm
          subst hm
          exact h.modules m (Bundle.get?_eq_some_iff.1 hget).1
  | follow taken m spec specs hfollow =>
      have hscanned : ∀ imports c, some (Scan.mk m imports specs) = some c →
          c.module.id ∈ b.ids ∨ c.module.entry = kindOf c.module.id := by
        intro imports c hc
        cases hc
        exact h.scanned ⟨m, _, spec :: specs⟩ rfl
      rcases follow_eq_ok hfollow with ⟨-, -, rfl, rfl⟩ | ⟨found, -, rfl, hcase⟩
      · exact ⟨h.modules, hscanned _, h.seen⟩
      · rcases hcase with ⟨-, rfl⟩ | ⟨-, content, -, rfl⟩
        · exact ⟨h.modules, hscanned _, h.seen⟩
        · refine ⟨fun m' hm' => ?_, hscanned _, fun id hid => ?_⟩
          · rcases Bundle.eq_or_mem_of_mem_put hm' with rfl | hm'
            · exact Or.inr (hkind.normalize found).symm
            · exact h.modules m' hm'
          · rcases List.mem_cons.1 hid with rfl | hid
            · exact Or.inr (Bundle.id_mem_ids_put _ _)
            · exact (h.seen id hid).imp_right fun hmem => Bundle.mem_ids_put hmem _
  | close taken m imports w =>
      refine ⟨fun m' hm' => ?_, by simp, fun id hid => ?_⟩
      · rcases Bundle.eq_or_mem_of_mem_put hm' with rfl | hm'
        · exact h.scanned ⟨m, imports, []⟩ rfl
        · exact h.modules m' hm'
      · exact (h.seen id hid).imp_right fun hmem => Bundle.mem_ids_put hmem _

theorem kept_of_passes (hkind : NormalKinds kindOf) (h : Passes r kindOf b s) :
    Kept kindOf b s := by
  induction h with
  | refl => exact kept_start kindOf b
  | tail _ hstep ih => exact ih.step hkind hstep

/-! ### The specifiers of the first script -/

/-- A specifier was followed: it is that of a package that is not found, or what it is resolved to
was seen. -/
def Answered (r : Resolver) (source : Text) (seen : List Text) (spec : Text) : Prop :=
  (r.resolve source spec = none ∧ Script.isRelative spec = false)
    ∨ ∃ found ∈ seen, r.resolve source spec = some found

lemma Answered.mono {source spec : Text} {seen seen' : List Text}
    (h : Answered r source seen spec) (hseen : seen ⊆ seen') : Answered r source seen' spec :=
  h.imp_right fun ⟨found, hfound, hres⟩ => ⟨found, hseen hfound, hres⟩

/-- What was seen stays seen. -/
lemma seen_subset_of_follow {imports imports' : List Import} {w w' : Walk} {spec : Text}
    (h : (follow r kindOf id (imports, w) spec).result = .ok (imports', w')) :
    w.seen ⊆ w'.seen := by
  rcases follow_eq_ok h with ⟨-, -, -, rfl⟩ | ⟨found, -, -, ⟨-, rfl⟩ | ⟨-, _, -, rfl⟩⟩
  · exact List.Subset.refl _
  · exact List.Subset.refl _
  · exact List.subset_cons_self _ _

lemma seen_subset_of_steps (h : Relation.ReflTransGen (Step r kindOf) s s') :
    s.walk.seen ⊆ s'.walk.seen := by
  induction h with
  | refl => exact List.Subset.refl _
  | tail _ hstep ih =>
      cases hstep with
      | take => exact ih
      | follow _ _ _ _ hfollow => exact List.Subset.trans ih (seen_subset_of_follow hfollow)
      | close => exact ih

lemma answered_of_follow {imports imports' : List Import} {w w' : Walk} {spec : Text}
    (h : (follow r kindOf id (imports, w) spec).result = .ok (imports', w')) :
    Answered r id w'.seen spec := by
  rcases follow_eq_ok h with ⟨hres, hrel, -, -⟩ | ⟨found, hres, -, ⟨hseen, rfl⟩ | ⟨-, _, -, rfl⟩⟩
  · exact Or.inl ⟨hres, hrel⟩
  · exact Or.inr ⟨found, hseen, hres⟩
  · exact Or.inr ⟨found, List.mem_cons_self, hres⟩

lemma answered_of_foldlM {specs : List Text} {imports imports' : List Import} {w w' : Walk}
    (h : (specs.foldlM (follow r kindOf id) (imports, w)).result = .ok (imports', w')) :
    w.seen ⊆ w'.seen ∧ ∀ spec ∈ specs, Answered r id w'.seen spec := by
  induction specs generalizing imports w with
  | nil =>
      cases h
      exact ⟨List.Subset.refl _, by simp⟩
  | cons spec specs ih =>
      rw [List.foldlM_cons] at h
      obtain ⟨⟨imports₁, w₁⟩, hfollow, h⟩ := Outcome.bind_result_eq_ok.1 h
      obtain ⟨hseen, hrest⟩ := ih h
      exact ⟨List.Subset.trans (seen_subset_of_follow hfollow) hseen,
        List.forall_mem_cons.2 ⟨(answered_of_follow hfollow).mono hseen, hrest⟩⟩

/-- **The first script.** After a walk from one script that succeeds, each of its relative
specifiers is resolved, to the script itself or to a module of the bundle. -/
theorem answered_of_complete (hkind : NormalKinds kindOf) (hscript : m.kind = .script)
    (h : (complete r kindOf (.ofModules [m])).result = .ok b') :
    ∀ spec ∈ Script.scanImports m.content, Script.isRelative spec = true →
      ∃ found, r.resolve m.id spec = some found
        ∧ (found = m.id ∨ Path.normalize found ∈ b'.ids) := by
  have hget : (Bundle.ofModules [m]).get? m.id = some m := by simp [Bundle.get?_eq_find?]
  have hids : (Bundle.ofModules [m]).ids = [m.id] := by simp [Bundle.ids]
  have hopen : opened (.ofModules [m]) m.id = some ⟨m, [], Script.scanImports m.content⟩ := by
    rw [opened, hget, Option.getD_some, if_pos hscript]
  -- the walk is a visit of the script and what comes after it
  obtain ⟨o, hwalk, hresult⟩ := exists_walk_of_complete h
  rw [Walk.start, hids, walk] at hwalk
  dsimp only at hwalk
  cases hvisit : (visit r kindOf ⟨.ofModules [m], [], [m.id]⟩ m.id).result with
  | error f =>
      rw [hvisit] at hwalk
      cases hwalk
      cases hresult
  | ok w =>
      rw [hvisit] at hwalk
      obtain ⟨rest, hrest, ho⟩ := Option.bind_eq_some_iff.1 hwalk
      cases ho
      obtain ⟨s, hsteps, -, -, rfl⟩ := steps_of_walk w rest hrest [m.id] b' hresult
      have hpass : Passes r kindOf (.ofModules [m]) s := by
        rw [Passes, Moment.start, Walk.start, hids]
        exact (steps_of_visit [] hvisit).trans hsteps
      have hanswered : ∀ spec ∈ Script.scanImports m.content, Answered r m.id w.seen spec := by
        rcases visit_eq_ok.1 hvisit with ⟨hnone, -⟩ | ⟨m', imports, w₁, hsome, hfold, rfl⟩
        · rw [hopen] at hnone
          cases hnone
        · rw [hopen] at hsome
          cases hsome
          exact (answered_of_foldlM hfold).2
      intro spec hspec hrel
      rcases (hanswered spec hspec).mono (seen_subset_of_steps hsteps) with
        ⟨-, hnot⟩ | ⟨found, hseen, hres⟩
      · rw [hrel] at hnot
        cases hnot
      · refine ⟨found, hres, ?_⟩
        simpa [hids] using (kept_of_passes hkind hpass).seen found hseen

/-! ### A script with one import -/

lemma follow_of_read {imports : List Import} {w : Walk} {spec found content : Text}
    (hres : r.resolve id spec = some found) (hseen : found ∉ w.seen)
    (hread : r.fs.read (r.absolute found) = .ok content) :
    (follow r kindOf id (imports, w) spec).result = .ok (imports ++ [⟨spec, found⟩],
      ⟨w.bundle.put { Module.ofSource found content with entry := kindOf found },
        w.queue ++ [found], found :: w.seen⟩) := by
  simp only [follow, hres, hread]
  rw [if_neg (by simpa using hseen)]
  rfl

/-- A visit to a module without references succeeds and adds nothing. -/
lemma exists_visit_of_leaf (r : Resolver) (kindOf : Text → EntryKind) {w : Walk}
    (hget : w.bundle.get? id = some m)
    (hscan : Script.scanImports m.content = []) :
    ∃ b', (visit r kindOf w id).result = .ok { w with bundle := b' } ∧ b'.ids = w.bundle.ids := by
  by_cases hkind : m.kind = .script
  · refine ⟨w.bundle.put { m with imports := [] },
      visit_eq_ok.2 (Or.inr ⟨m, [], w, ?_, ?_, rfl⟩), ?_⟩
    · rw [opened, hget, Option.getD_some, if_pos hkind]
    · rw [hscan]
      rfl
    · have hmem : m.id ∈ w.bundle.ids :=
        List.mem_map_of_mem (Bundle.get?_eq_some_iff.1 hget).1
      rw [Bundle.ids_put]
      exact if_pos hmem
  · refine ⟨w.bundle, visit_eq_ok.2 (Or.inl ⟨?_, rfl⟩), rfl⟩
    rw [opened, hget, Option.getD_some, if_neg hkind]

/-- The walk from a script whose one reference is to a file without references. -/
lemma exists_complete_of_leaf (kindOf : Text → EntryKind) {spec found content : Text}
    (hscript : m.kind = .script) (hscan : Script.scanImports m.content = [spec])
    (hres : r.resolve m.id spec = some found)
    (hnormal : Path.normalize found = found) (hne : found ≠ m.id)
    (hread : r.fs.read (r.absolute found) = .ok content)
    (hleaf : Script.scanImports content = []) :
    ∃ b', (complete r kindOf (.ofModules [m])).result = .ok b' ∧ b'.ids = [m.id, found] := by
  set dep : Module := { Module.ofSource found content with entry := kindOf found }
  have hdep : dep.id = found := hnormal
  set b₁ := ((Bundle.ofModules [m]).put dep).put { m with imports := [⟨spec, found⟩] }
  have hids : (Bundle.ofModules [m]).ids = [m.id] := by simp [Bundle.ids]
  have hget : b₁.get? found = some dep := by
    rw [Bundle.get?_put, if_neg hne, Bundle.get?_put, if_pos hdep.symm]
  have hids₁ : b₁.ids = [m.id, found] := by
    have hput : ((Bundle.ofModules [m]).put dep).ids = [m.id, found] := by
      rw [Bundle.ids_put, hids, hdep, if_neg (by simpa using hne)]
      rfl
    rw [Bundle.ids_put, hput, if_pos (by simp)]
  -- the script is visited and loads the file, which is visited and adds nothing
  have hfirst : (visit r kindOf ⟨.ofModules [m], [], [m.id]⟩ m.id).result
      = .ok ⟨b₁, [found], [found, m.id]⟩ := by
    refine visit_eq_ok.2 (Or.inr ⟨m, [⟨spec, found⟩],
      ⟨(Bundle.ofModules [m]).put dep, [found], [found, m.id]⟩, ?_, ?_, rfl⟩)
    · simp [opened, Bundle.get?_eq_find?, hscript]
    · rw [hscan, List.foldlM_cons, Outcome.bind_result_eq_ok]
      exact ⟨_, follow_of_read hres (by simpa using hne) hread, rfl⟩
  obtain ⟨b', hsecond, hids'⟩ := exists_visit_of_leaf r kindOf (w := ⟨b₁, [], [found, m.id]⟩)
    hget hleaf
  refine ⟨b', ?_, hids'.trans hids₁⟩
  rw [complete, Walk.start, hids, walk]
  simp only [hfirst]
  rw [walk]
  simp only [hsecond]
  rw [walk]
  rfl

end Graph

/-! ### Entries -/

namespace Catalog

open MiniProgram.Graph

variable {c : Catalog} {list : List Entry} {r : Resolver} {extra : List Text} {b' : Bundle}
  {e : Entry} {p : Text}

lemma normalKinds (h : ofEntries list = .ok c) : NormalKinds c.kind where
  normalize := fun p => by rw [kind, kind, Path.normalize_idem]
  root := by
    have hnone : c.entries.find? (·.path = Path.normalize []) = none :=
      find?_key_eq_none_iff.2 fun e he => by
        simpa [Path.normalize] using (normal_of_ofEntries h e he).1
    rw [kind, hnone]

/-- The import of an entry asks for the path of the entry, as it is seen from the root. -/
lemma resolve_entry (r : Resolver) (hp : Path.normalize p = p) :
    r.resolve seedId ("./" ++ p)
      = if p = [] || Text.startsWith p ".." then none else r.probe p := by
  have hbase : Path.normalize (Path.join [Path.dir seedId, "./" ++ p]) = p := by
    have hdir : Path.dir seedId = ("." : Text) := by decide
    have hsplit : Text.split Byte.slash (("./" : Text) ++ p)
        = ("." : Text) :: Text.split Byte.slash p := Text.split_append Byte.slash ("." : Text) p
    rw [hdir, Path.normalize_join_pair (by decide) (by decide), hsplit]
    exact Path.join_cleanSegments_of_normal hp
  rw [Resolver.resolve, if_pos (Path.isRelative_dot_slash p), hbase]

lemma resolve_entry_self (hp : Path.normalize p = p) (hfile : r.isFile p = true)
    (hext : Path.ext p ≠ []) {found : Text} (h : r.resolve seedId ("./" ++ p) = some found) :
    found = p := by
  rw [resolve_entry r hp] at h
  split_ifs at h
  rw [Resolver.probe_self hfile hext] at h
  exact (Option.some.inj h).symm

section Walk

variable (h : (complete r c.kind (.ofModules [c.seed extra])).result = .ok b')
include h

/-- What stands under the path of an entry has its kind. -/
lemma entry_of_get? (hc : ofEntries list = .ok c) (he : e ∈ c.entries) (hne : e.path ≠ seedId)
    {m : Module} (hm : b'.get? e.path = some m) : m.entry = e.kind := by
  obtain ⟨s, hpass, -, -, rfl⟩ := complete_eq_ok h
  obtain ⟨hmem, hid⟩ := Bundle.get?_eq_some_iff.1 hm
  rcases (kept_of_passes (normalKinds hc) hpass).modules m hmem with hseed | hkind
  · rw [hid] at hseed
    exact absurd (by simpa [Bundle.ids] using hseed) hne
  · rw [hkind, hid, kind_of_mem hc he]

/-- An entry whose import is found is in the bundle, if it is a file with an extension. -/
lemma exists_get?_of_isFile (hc : ofEntries list = .ok c) (he : e ∈ c.entries)
    (hne : e.path ≠ seedId)
    (hscan : "./" ++ e.path ∈ Script.scanImports (c.seed extra).content)
    (hfile : r.isFile e.path = true) (hext : Path.ext e.path ≠ []) :
    ∃ m, b'.get? e.path = some m := by
  have hnormal := (normal_of_ofEntries hc e he).2
  obtain ⟨found, hres, hfound⟩ := answered_of_complete (normalKinds hc) (kind_seed c extra) h _
    hscan (Path.isRelative_dot_slash e.path)
  rw [id_seed] at hres hfound
  obtain rfl := resolve_entry_self hnormal hfile hext hres
  rw [hnormal] at hfound
  exact Bundle.mem_ids_iff.1 (hfound.resolve_left hne)

/-- Where all is found in normal form, the seed stays without a kind, and what else is in the bundle
is a file with an extension. -/
lemma isFile_of_get? (hnormal : ∀ found, Finds r c.kind (.ofModules [c.seed extra]) found →
      Path.normalize found = found) {m : Module} (hm : b'.get? p = some m) :
    (p = seedId ∧ m.entry = .none) ∨ (p ≠ seedId ∧ r.isFile p = true ∧ Path.ext p ≠ []) := by
  obtain ⟨s, hpass, hscan, hqueue, rfl⟩ := complete_eq_ok h
  have hsound := sound_of_passes hnormal hpass
  obtain ⟨hmem, rfl⟩ := Bundle.get?_eq_some_iff.1 hm
  have hids : ∀ id, id ∈ (Bundle.ofModules [c.seed extra]).ids ↔ id = seedId := by
    simp [Bundle.ids]
  by_cases hseed : m.id = seedId
  · obtain ⟨m₀, hm₀, rfl⟩ := hsound.eq_linked_of_mem hscan hqueue hmem ((hids _).2 hseed)
    rw [Bundle.modules_ofModules_singleton, List.mem_singleton] at hm₀
    exact Or.inl ⟨hseed, by rw [linked_entry, hm₀, entry_seed]⟩
  · have hnot := mt (hids _).1 hseed
    have hread := (hsound.eq_linked_of_not_mem hscan hqueue hmem hnot).1
    obtain ⟨_, _, _, _, _, -, -, hres⟩ := ((traced_of_passes hpass).enqueued m.id
      (hsound.ids ▸ List.mem_map_of_mem hmem)).resolve_left hnot
    exact Or.inr ⟨hseed, Resolver.isFile_iff.2 ⟨_, hread⟩, Resolver.ext_ne_nil_of_resolve hres⟩

end Walk

/-! ### One page -/

/-- A project with one page. -/
def pageFiles : FileSystem := .ofFiles [("/proj/src/pages/index/index.tsx", "1")]

/-- The catalog of one page, under the path of the script or of the directory. -/
def onePage (path : Text) : Catalog := ⟨[⟨path, .page⟩]⟩

lemma scanImports_pageScript : Script.scanImports "1" = [] := by
  rw [Script.scanImports, List.mergeSort_of_pairwise (by decide +kernel)]
  decide +kernel

lemma exists_complete_onePage {path : Text}
    (hscan : Script.scanImports ((onePage path).seed []).content = ["./" ++ path])
    (hres : Resolver.resolve ⟨pageFiles, "/proj", []⟩ seedId ("./" ++ path)
      = some "src/pages/index/index.tsx") :
    ∃ b', (complete ⟨pageFiles, "/proj", []⟩ (onePage path).kind
        (.ofModules [(onePage path).seed []])).result = .ok b'
      ∧ b'.ids = [seedId, "src/pages/index/index.tsx"] := by
  have hread : pageFiles.read (Resolver.absolute ⟨pageFiles, "/proj", []⟩
      "src/pages/index/index.tsx") = .ok "1" := by decide +kernel
  have hne : ("src/pages/index/index.tsx" : Text) ≠ seedId := by decide
  rw [← id_seed (onePage path) []] at hres hne ⊢
  exact exists_complete_of_leaf _ (kind_seed _ _) hscan hres (by decide) hne hread
    scanImports_pageScript

/-- **The entries of a program.** After a walk from the seed of a discovered catalog that succeeds,
whatever stands under the path of an entry, other than that of the seed, has the kind of the entry.
An entry stands there if its import is found in the seed and its path is that of a file with an
extension; where all identifiers are found in normal form, it does so only then. -/
theorem get?_entry {tree : FileSystem.View} {sourceDir : Text} {named : List Text}
    (hc : discover tree sourceDir named = .ok c)
    (h : (complete r c.kind (.ofModules [c.seed extra])).result = .ok b') :
    (∀ e ∈ c.entries, e.path ≠ seedId → ∀ m, b'.get? e.path = some m → m.entry = e.kind)
    ∧ (∀ e ∈ c.entries, "./" ++ e.path ∈ Script.scanImports (c.seed extra).content →
      e.path ≠ seedId → r.isFile e.path = true → Path.ext e.path ≠ [] →
      ∃ m, b'.get? e.path = some m ∧ m.entry = e.kind)
    ∧ ((∀ found, Finds r c.kind (.ofModules [c.seed extra]) found →
        Path.normalize found = found) →
      ∀ e ∈ c.entries, (∃ m, b'.get? e.path = some m ∧ m.entry = e.kind) →
        e.path ≠ seedId ∧ r.isFile e.path = true ∧ Path.ext e.path ≠ []) := by
  obtain ⟨list, hlist, hkinds⟩ := exists_ofEntries_of_discover hc
  refine ⟨fun e he hne m hm => entry_of_get? h hlist he hne hm,
    fun e he hscan hne hfile hext => ?_, fun hnormal e he => ?_⟩
  · obtain ⟨m, hm⟩ := exists_get?_of_isFile h hlist he hne hscan hfile hext
    exact ⟨m, hm, entry_of_get? h hlist he hne hm⟩
  · rintro ⟨m, hm, hentry⟩
    rcases isFile_of_get? h hnormal hm with ⟨-, hnone⟩ | hfile
    · obtain ⟨x, hx, hkind⟩ := exists_kind_of_ofEntries hlist e he
      exact absurd (hkind.trans (hentry.symm.trans hnone)) (hkinds x hx)
    · exact hfile

/-- A page that is found in a tree becomes a module of its kind. -/
theorem get?_entry_page :
    ∃ (tree : FileSystem.View) (c : Catalog) (b' : Bundle) (m : Module),
      pageFiles.view "/proj" = .ok tree ∧ discover tree "src" [] = .ok c
      ∧ (complete ⟨pageFiles, "/proj", []⟩ c.kind (.ofModules [c.seed []])).result = .ok b'
      ∧ b'.get? "src/pages/index/index.tsx" = some m ∧ m.entry = .page := by
  have hc : discover ⟨pageFiles, "/proj"⟩ "src" [] = .ok (onePage "src/pages/index/index.tsx") := by
    decide +kernel
  have hscan : Script.scanImports ((onePage "src/pages/index/index.tsx").seed []).content
      = ["./" ++ "src/pages/index/index.tsx"] := by
    rw [Script.scanImports, List.mergeSort_of_pairwise (by decide +kernel)]
    decide +kernel
  obtain ⟨b', hcomplete, -⟩ := exists_complete_onePage hscan (by decide +kernel)
  obtain ⟨-, hpresent, -⟩ := get?_entry hc hcomplete
  obtain ⟨m, hm, hentry⟩ := hpresent ⟨"src/pages/index/index.tsx", .page⟩ List.mem_cons_self
    (by rw [hscan]; exact List.mem_cons_self) (by decide +kernel) (by decide +kernel)
    (by decide +kernel)
  exact ⟨_, _, b', m, by decide +kernel, hc, hcomplete, hm, hentry⟩

/-- A project may name the directory of a page. The page is discovered, and its import leads to the
script in the directory: nothing stands under the path of the entry. -/
theorem exists_entry_not_module :
    ∃ (tree : FileSystem.View) (c : Catalog) (b' : Bundle),
      pageFiles.view "/proj" = .ok tree ∧ discover tree "src" ["src/pages/index"] = .ok c
      ∧ c.entries = [⟨"src/pages/index", .page⟩]
      ∧ (complete ⟨pageFiles, "/proj", []⟩ c.kind (.ofModules [c.seed []])).result = .ok b'
      ∧ b'.get? "src/pages/index" = none := by
  have hscan : Script.scanImports ((onePage "src/pages/index").seed []).content
      = ["./" ++ "src/pages/index"] := by
    rw [Script.scanImports, List.mergeSort_of_pairwise (by decide +kernel)]
    decide +kernel
  obtain ⟨b', hcomplete, hids⟩ := exists_complete_onePage hscan (by decide +kernel)
  refine ⟨⟨pageFiles, "/proj"⟩, onePage "src/pages/index", b', by decide +kernel,
    by decide +kernel, rfl, hcomplete, ?_⟩
  rw [Bundle.get?_eq_none_iff, hids]
  decide +kernel

end Catalog

end MiniProgram
