import MiniProgram.Proofs.Bundle.History
import MiniProgram.Proofs.Catalog
import MiniProgram.Proofs.Pipeline

/-!
What the last stage emits.

The base template, the templates of the pages and the manifest are emitted one after the other, and
a file that is emitted takes the place of one emitted before under its path. A template is named by
the route of its page, the output path without its extension, so pages at different output paths may
still meet, each other or the base template.

* `files_foldl_emit`, `nodup_of_length_foldl_emit`: files that are emitted one after the other are
  all kept exactly if their paths differ.
* `emitAll_eq_ok_iff`: emitting succeeds if all pages have modules, and emits `outputs`.
* `nodup_outputs_iff`: the paths of these files differ exactly if the pages are apart.
* `nodup_routes`: pages of one extension have routes of their own.
* `emitted_complete_iff`: when nothing that is emitted is lost.
* `exists_emitted_lost`: templates that are lost, with nothing failing.
-/

namespace MiniProgram

open MiniProgram.Path

/-! ### Routes -/

namespace Path

/-- An extension stands at the end of its path. -/
lemma ext_suffix (p : Text) : ext p <:+ p := by
  rw [ext]
  split_ifs with hdot
  · obtain ⟨last, front, hsplit, hlast⟩ := List.eq_append_cons_of_mem hdot
    have hbefore : ∀ c ∈ last, decide (c ≠ Byte.dot) = true :=
      fun c hc => decide_eq_true fun heq => hlast (heq ▸ hc)
    rw [hsplit, Text.takeWhile_append_cons hbefore (by simp), ← List.reverse_prefix,
      List.reverse_cons, List.reverse_reverse]
    have hname : last ++ Byte.dot :: front <+: p.reverse :=
      hsplit ▸ List.takeWhile_prefix (fun c => decide (c ≠ Byte.slash))
    exact List.IsPrefix.trans ⟨front, by simp⟩ hname
  · exact List.nil_suffix

/-- A path in its normal form is its route with its extension. -/
lemma route_append_ext (p : Text) : route p ++ ext (normalize p) = normalize p := by
  obtain ⟨stem, hstem⟩ := ext_suffix (normalize p)
  rw [route]
  generalize ext (normalize p) = e at hstem ⊢
  rw [← hstem, Text.trimEnd_append]

end Path

/-! ### Files emitted one after the other -/

namespace Bundle

variable {b : Bundle} {a : Asset} {assets : List Asset}

@[simp] lemma modules_foldl_emit (b : Bundle) (assets : List Asset) :
    (assets.foldl emit b).modules = b.modules := by
  induction assets generalizing b with
  | nil => rfl
  | cons a assets ih => rw [List.foldl_cons, ih, modules_emit]

lemma nodup_paths_foldl_emit (assets : List Asset) (hb : (b.files.map (·.path)).Nodup) :
    ((assets.foldl emit b).files.map (·.path)).Nodup := by
  induction assets generalizing b with
  | nil => exact hb
  | cons a assets ih => exact ih (nodup_paths_emit a hb)

/-- A file with a new path comes last. -/
lemma files_emit_of_not_mem (h : a.path ∉ b.files.map (·.path)) :
    (b.emit a).files = b.files ++ [a] := by
  rw [emit, if_neg]
  rw [not_any_key_iff]
  exact fun old hold hpath => h (hpath ▸ List.mem_map_of_mem hold)

/-- Files with different paths are all kept, in order. -/
lemma files_foldl_emit (h : ((b.files ++ assets).map (·.path)).Nodup) :
    (assets.foldl emit b).files = b.files ++ assets := by
  induction assets generalizing b with
  | nil => simp
  | cons a assets ih =>
      have hsplit : b.files ++ a :: assets = (b.files ++ [a]) ++ assets := by simp
      rw [hsplit] at h ⊢
      have hfront : ((b.files ++ [a]).map (·.path)).Nodup := by
        rw [List.map_append] at h
        exact h.of_append_left
      have hnew : a.path ∉ b.files.map (·.path) := by
        obtain ⟨-, hne⟩ := nodup_map_append_singleton_iff.1 hfront
        simpa using hne
      have hemit := files_emit_of_not_mem hnew
      rw [List.foldl_cons, ih (hemit ▸ h), hemit]

/-- One more file is kept only if its path is new. -/
lemma length_files_emit (b : Bundle) (a : Asset) :
    (b.emit a).files.length
      = if a.path ∈ b.files.map (·.path) then b.files.length else b.files.length + 1 := by
  rw [← List.length_map (·.path), paths_emit]
  split_ifs <;> simp

lemma length_files_foldl_emit_le (b : Bundle) (assets : List Asset) :
    (assets.foldl emit b).files.length ≤ b.files.length + assets.length := by
  induction assets generalizing b with
  | nil => exact le_rfl
  | cons a assets ih =>
      have hone : (b.emit a).files.length ≤ b.files.length + 1 := by
        rw [length_files_emit]
        split_ifs <;> omega
      have hrest := ih (b.emit a)
      rw [List.foldl_cons, List.length_cons]
      omega

/-- Files are all kept only if their paths differ. -/
lemma nodup_of_length_foldl_emit (hb : (b.files.map (·.path)).Nodup)
    (h : (assets.foldl emit b).files.length = b.files.length + assets.length) :
    ((b.files ++ assets).map (·.path)).Nodup := by
  induction assets generalizing b with
  | nil => simpa using hb
  | cons a assets ih =>
      rw [List.foldl_cons, List.length_cons] at h
      have hrest := length_files_foldl_emit_le (b.emit a) assets
      have hnew : a.path ∉ b.files.map (·.path) := by
        intro hmem
        rw [length_files_emit, if_pos hmem] at hrest
        omega
      have hemit := files_emit_of_not_mem hnew
      have hsplit : b.files ++ a :: assets = (b.emit a).files ++ assets := by simp [hemit]
      rw [hsplit]
      refine ih (nodup_paths_emit a hb) ?_
      rw [h, hemit, List.length_append, List.length_singleton]
      omega

/-- **Files emitted one after the other** into a bundle without any are listed all, exactly if their
paths differ. It is enough to count them. -/
theorem perm_emitted_iff (hb : b.files = []) (assets : List Asset) :
    ((assets.foldl emit b).emitted.Perm assets ↔ (assets.map (·.path)).Nodup)
    ∧ ((assets.foldl emit b).emitted.length = assets.length ↔ (assets.map (·.path)).Nodup) := by
  have hperm : (assets.foldl emit b).emitted.Perm (assets.foldl emit b).files :=
    List.mergeSort_perm _ _
  have hkept : (assets.map (·.path)).Nodup → (assets.foldl emit b).emitted.Perm assets := by
    intro h
    have hfiles : (assets.foldl emit b).files = b.files ++ assets :=
      files_foldl_emit (by simpa [hb] using h)
    rwa [hfiles, hb, List.nil_append] at hperm
  have hcount : (assets.foldl emit b).emitted.length = assets.length →
      (assets.map (·.path)).Nodup := by
    intro h
    have hnodup : ((b.files ++ assets).map (·.path)).Nodup :=
      nodup_of_length_foldl_emit (by simp [hb])
        (by rw [← hperm.length_eq, h, hb, List.length_nil, Nat.zero_add])
    simpa [hb] using hnodup
  exact ⟨⟨fun h => hcount h.length_eq, hkept⟩, ⟨hcount, fun h => (hkept h).length_eq⟩⟩

end Bundle

/-! ### Emitting the markup -/

namespace Emit

variable {p : Platform} {c : Catalog} {b b' : Bundle} {pages : List Entry} {m : Module}

/-- The modules of some pages, in the order of the pages. -/
def pageModules (b : Bundle) (pages : List Entry) : List Module :=
  pages.filterMap fun page => b.get? page.path

/-- The routes of some pages. -/
def routes (b : Bundle) (pages : List Entry) : List Text :=
  (pageModules b pages).map fun m => route m.path

/-- The base template for some modules. -/
def baseFile (p : Platform) (ms : List Module) : Asset :=
  ⟨basePath p, HostTemplate.renderBase p.directivePrefix (hostTemplates p ms)⟩

/-- The template of a page. -/
def pageFile (p : Platform) (m : Module) : Asset :=
  ⟨templatePath m.path p.templateExt, HostTemplate.renderPage (basePath p)⟩

/-- The manifest that lists some routes. -/
def manifestFile (routes : List Text) : Asset := ⟨"app.json", (Manifest.mk routes).render⟩

/-- All that is to be emitted for a bundle: the base template, a template for each page, the
manifest. -/
def outputs (p : Platform) (b : Bundle) (pages : List Entry) : List Asset :=
  baseFile p b.modules :: (pageModules b pages).map (pageFile p) ++ [manifestFile (routes b pages)]

/-- Whether every page has a module. -/
def HasModules (b : Bundle) (pages : List Entry) : Prop :=
  ∀ page ∈ pages, ∃ m, b.get? page.path = some m

instance (b : Bundle) (pages : List Entry) : Decidable (HasModules b pages) :=
  decidable_of_iff (∀ page ∈ pages, (b.get? page.path).isSome = true)
    (forall₂_congr fun _ _ => Option.isSome_iff_exists)

@[simp] lemma pageModules_emit (b : Bundle) (a : Asset) (pages : List Entry) :
    pageModules (b.emit a) pages = pageModules b pages := by
  simp [pageModules]

@[simp] lemma routes_emit (b : Bundle) (a : Asset) (pages : List Entry) :
    routes (b.emit a) pages = routes b pages := by
  simp [routes]

@[simp] lemma hasModules_emit (b : Bundle) (a : Asset) (pages : List Entry) :
    HasModules (b.emit a) pages ↔ HasModules b pages := by
  simp [HasModules]

lemma pageModules_cons {page : Entry} (h : b.get? page.path = some m) (pages : List Entry) :
    pageModules b (page :: pages) = m :: pageModules b pages :=
  List.filterMap_cons_some h

/-- Each page has the module with its path for an identifier. -/
lemma map_id_pageModules (h : HasModules b pages) :
    (pageModules b pages).map (·.id) = pages.map (·.path) := by
  induction pages with
  | nil => rfl
  | cons page pages ih =>
      obtain ⟨⟨m, hget⟩, hrest⟩ := List.forall_mem_cons.1 h
      rw [pageModules_cons hget, List.map_cons, List.map_cons, ih hrest,
        (Bundle.get?_eq_some_iff.1 hget).2]

lemma mem_of_mem_pageModules (h : m ∈ pageModules b pages) : m ∈ b.modules := by
  obtain ⟨page, -, hget⟩ := List.mem_filterMap.1 h
  exact (Bundle.get?_eq_some_iff.1 hget).1

/-- The templates of pages are emitted in the order of the pages. -/
lemma foldlM_emitPage_eq_ok_iff {noted noted' : List Text} :
    pages.foldlM (emitPage p) (b, noted) = .ok (b', noted')
      ↔ HasModules b pages ∧ b' = ((pageModules b pages).map (pageFile p)).foldl Bundle.emit b
        ∧ noted' = noted ++ routes b pages := by
  induction pages generalizing b noted with
  | nil =>
      rw [List.foldlM_nil]
      constructor
      · intro h
        cases h
        exact ⟨by simp [HasModules], rfl, (List.append_nil _).symm⟩
      · rintro ⟨-, rfl, rfl⟩
        exact congrArg _ (Prod.ext rfl (List.append_nil noted).symm)
  | cons page pages ih =>
      have hall : HasModules b (page :: pages)
          ↔ (∃ m, b.get? page.path = some m) ∧ HasModules b pages := List.forall_mem_cons
      rw [List.foldlM_cons, hall]
      cases hget : b.get? page.path with
      | none =>
          refine iff_of_false (fun h => ?_) (by simp)
          obtain ⟨next, hpage, -⟩ := bind_eq_ok.1 h
          simp only [emitPage, hget] at hpage
          cases hpage
      | some m =>
          have hpage : emitPage p (b, noted) page
              = .ok (b.emit (pageFile p m), noted ++ [route m.path]) := by
            simp only [emitPage, hget]
            rfl
          -- what is emitted changes no module, so the further pages are looked up alike
          have hbind : (emitPage p (b, noted) page >>= fun state => pages.foldlM (emitPage p) state)
              = pages.foldlM (emitPage p) (b.emit (pageFile p m), noted ++ [route m.path]) := by
            rw [hpage]
            rfl
          rw [hbind, ih]
          simp [routes, pageModules_cons hget]

/-- Emitting succeeds if all pages have modules, and emits one file after the other. -/
theorem emitAll_eq_ok_iff : emitAll p pages b = .ok b'
    ↔ HasModules b pages ∧ b' = (outputs p b pages).foldl Bundle.emit b := by
  have hfold : (outputs p b pages).foldl Bundle.emit b
      = (((pageModules b pages).map (pageFile p)).foldl Bundle.emit
        (b.emit (baseFile p b.modules))).emit (manifestFile (routes b pages)) := by
    rw [outputs, List.cons_append, List.foldl_cons, List.foldl_concat]
  rw [emitAll, hfold]
  constructor
  · intro h
    obtain ⟨⟨mid, noted⟩, hpages, h⟩ := bind_eq_ok.1 h
    obtain ⟨hms, rfl, rfl⟩ := foldlM_emitPage_eq_ok_iff.1 hpages
    cases h
    simp only [hasModules_emit] at hms
    refine ⟨hms, ?_⟩
    simp only [pageModules_emit, routes_emit]
    rfl
  · rintro ⟨hms, rfl⟩
    refine bind_eq_ok.2
      ⟨_, foldlM_emitPage_eq_ok_iff.2 ⟨(hasModules_emit _ _ _).2 hms, rfl, rfl⟩, ?_⟩
    simp only [pageModules_emit, routes_emit]
    rfl

/-! ### Paths of templates -/

/-- Pages that are apart: no two have the same route, and no template is written where the base
template or the manifest is. -/
structure PagesApart (templateExt : Text) (routes : List Text) : Prop where
  nodup : routes.Nodup
  not_base : ("base" : Text) ∉ routes
  not_manifest : ∀ r ∈ routes, r ++ templateExt ≠ ("app.json" : Text)

instance (templateExt : Text) (routes : List Text) : Decidable (PagesApart templateExt routes) :=
  decidable_of_iff (routes.Nodup ∧ (∀ r ∈ routes, r ≠ "base")
      ∧ ∀ r ∈ routes, r ++ templateExt ≠ ("app.json" : Text))
    ⟨fun h => ⟨h.1, fun hmem => h.2.1 _ hmem rfl, h.2.2⟩,
      fun h => ⟨h.nodup, fun _ hr hbase => h.not_base (hbase ▸ hr), h.not_manifest⟩⟩

/-- The paths of what is emitted differ exactly if the pages are apart. -/
lemma nodup_outputs_iff : ((outputs p b pages).map (·.path)).Nodup
    ↔ PagesApart p.templateExt (routes b pages) := by
  have hpaths : (outputs p b pages).map (·.path)
      = (basePath p :: (routes b pages).map (· ++ p.templateExt)) ++ [("app.json" : Text)] := by
    simp [outputs, routes, baseFile, pageFile, manifestFile, templatePath]
  -- the base template is not named like the manifest, by their first letters
  have hbase : basePath p ≠ ("app.json" : Text) := by
    intro h
    have hhead : some (98 : UInt8) = some 97 := congrArg List.head? h
    exact absurd hhead (by decide)
  have hinj : Function.Injective fun r : Text => r ++ p.templateExt :=
    fun r r' h => List.append_cancel_right h
  rw [hpaths, ← List.concat_eq_append, List.nodup_concat, List.nodup_cons,
    List.nodup_map_iff hinj, basePath, List.mem_map_of_injective hinj]
  constructor
  · rintro ⟨hmanifest, hnot, hnodup⟩
    refine ⟨hnodup, hnot, fun r hr heq => hmanifest ?_⟩
    rw [← heq]
    exact List.mem_cons_of_mem _ (List.mem_map_of_mem hr)
  · rintro ⟨hnodup, hnot, hmanifest⟩
    refine ⟨fun hmem => ?_, hnot, hnodup⟩
    rcases List.mem_cons.1 hmem with h | h
    · exact hbase h.symm
    · obtain ⟨r, hr, heq⟩ := List.mem_map.1 h
      exact hmanifest r hr heq

/-- Different pages whose output paths are in normal form and have one extension have different
routes. -/
lemma nodup_routes {e : Text} (hms : HasModules b pages) (hpages : (pages.map (·.path)).Nodup)
    (hpaths : (b.modules.map (·.path)).Nodup)
    (hext : ∀ m ∈ pageModules b pages, normalize m.path = m.path ∧ ext m.path = e) :
    (routes b pages).Nodup := by
  have hnodup : (pageModules b pages).Nodup :=
    List.Nodup.of_map (·.id) (map_id_pageModules hms ▸ hpages)
  refine hnodup.map_on fun m hm m' hm' heq => ?_
  have hroute : ∀ m ∈ pageModules b pages, m.path = route m.path ++ e := by
    intro m hm
    have happend := route_append_ext m.path
    rw [(hext m hm).1, (hext m hm).2] at happend
    exact happend.symm
  refine List.inj_on_of_nodup_map hpaths (mem_of_mem_pageModules hm)
    (mem_of_mem_pageModules hm') ?_
  rw [hroute m hm, heq, ← hroute m' hm']

end Emit

/-! ### The stage -/

/-- The stage that emits the markup is made from its parts. -/
lemma Stage.template_eq_ok_iff {deps : Deps} {s : Stage} : Stage.template deps = .ok s
    ↔ ∃ project c registry p, deps.project = some project ∧ deps.catalog = some c
      ∧ deps.registry = some registry ∧ registry.platform project.platform = .ok p
      ∧ s = { idle "template" .emit with
        finish := some fun _ b => Outcome.of (Emit.emitAll p c.pages b) } := by
  constructor
  · intro h
    obtain ⟨project, hproject, h⟩ := bind_eq_ok.1 h
    obtain ⟨c, hcatalog, h⟩ := bind_eq_ok.1 h
    obtain ⟨registry, hregistry, h⟩ := bind_eq_ok.1 h
    obtain ⟨p, hplatform, h⟩ := bind_eq_ok.1 h
    cases h
    exact ⟨project, c, registry, p, Deps.eq_some_of_need hproject, Deps.eq_some_of_need hcatalog,
      Deps.eq_some_of_need hregistry, mapError_eq_ok.1 hplatform, rfl⟩
  · rintro ⟨project, c, registry, p, hproject, hcatalog, hregistry, hplatform, rfl⟩
    rw [Stage.template, Deps.needProject, Deps.needCatalog, Deps.needRegistry, hproject, hcatalog,
      hregistry]
    exact bind_eq_ok.2 ⟨project, rfl, bind_eq_ok.2 ⟨c, rfl, bind_eq_ok.2 ⟨registry, rfl,
      bind_eq_ok.2 ⟨p, mapError_eq_ok.2 hplatform, rfl⟩⟩⟩⟩

namespace Emit

/-- **When nothing that is emitted is lost.** Let the last stage succeed on a bundle without emitted
files. Then all pages have modules, and the manifest with the routes of all pages is emitted. Beside
it the base template and one template for each page are emitted, and nothing else, exactly if the
pages are apart; it is enough to count the files. Pages of a catalog whose output paths differ, are
in normal form and have one extension have routes of their own. -/
theorem emitted_complete_iff {deps : Deps} {project : Project} {registry : Registry} {s : Stage}
    {finish : FileSystem → Bundle → Outcome Bundle} {fs : FileSystem}
    (hproject : deps.project = some project) (hcatalog : deps.catalog = some c)
    (hregistry : deps.registry = some registry)
    (hplatform : registry.platform project.platform = .ok p) (hs : Stage.template deps = .ok s)
    (hfinish : s.finish = some finish) (hrun : (finish fs b).result = .ok b') (hb : b.files = []) :
    HasModules b c.pages
    ∧ manifestFile (routes b c.pages) ∈ b'.emitted
    ∧ (b'.emitted.Perm (outputs p b c.pages) ↔ PagesApart p.templateExt (routes b c.pages))
    ∧ (b'.emitted.length = c.pages.length + 2 ↔ PagesApart p.templateExt (routes b c.pages))
    ∧ ∀ list e, Catalog.ofEntries list = .ok c → (b.modules.map (·.path)).Nodup →
      (∀ m ∈ pageModules b c.pages, normalize m.path = m.path ∧ ext m.path = e) →
      (routes b c.pages).Nodup := by
  obtain ⟨project', c', registry', p', hproject', hcatalog', hregistry', hplatform', rfl⟩ :=
    Stage.template_eq_ok_iff.1 hs
  obtain rfl : project = project' := Option.some.inj (hproject.symm.trans hproject')
  obtain rfl : c = c' := Option.some.inj (hcatalog.symm.trans hcatalog')
  obtain rfl : registry = registry' := Option.some.inj (hregistry.symm.trans hregistry')
  obtain rfl : p = p' := Except.ok.inj (hplatform.symm.trans hplatform')
  cases hfinish
  obtain ⟨hms, rfl⟩ := emitAll_eq_ok_iff.1 hrun
  obtain ⟨hperm, hcount⟩ := Bundle.perm_emitted_iff hb (outputs p b c.pages)
  rw [nodup_outputs_iff] at hperm hcount
  have hlength : (outputs p b c.pages).length = c.pages.length + 2 := by
    have hpages := congrArg List.length (map_id_pageModules hms)
    rw [List.length_map, List.length_map] at hpages
    simp [outputs, hpages]
  refine ⟨hms, ?_, hperm, hlength ▸ hcount, fun list e hc hpaths hext => ?_⟩
  · rw [Bundle.emitted, List.mem_mergeSort, outputs, List.foldl_concat]
    exact (Bundle.mem_files_emit _ _ _).2 (by simp)
  · have hpages : (c.pages.map (·.path)).Nodup :=
      (Catalog.nodup_of_ofEntries hc).sublist (List.filter_sublist.map _)
    exact nodup_routes hms hpages hpaths hext

/-- Pages at the given paths. -/
def pagesAt (paths : List Text) : List Entry := paths.map fun path => ⟨path, .page⟩

@[simp] lemma pages_pagesAt (paths : List Text) :
    (Catalog.mk (pagesAt paths)).pages = pagesAt paths := by
  simp [Catalog.pages, pagesAt]

/-- The parts of a last stage for pages at the given paths. -/
def pageDeps (project : Project) (paths : List Text) : Deps :=
  ⟨some project, some ⟨pagesAt paths⟩, some Registry.standard, true, none, none⟩

/-- A bundle of sources that are empty. -/
def blankBundle (paths : List Text) : Bundle :=
  .ofModules (paths.map fun path => .ofSource path [])

/-- What the last stage of a project makes of empty pages. -/
def Finishes (project : Project) (paths : List Text) (b' : Bundle) : Prop :=
  ∃ s finish fs, Stage.template (pageDeps project paths) = .ok s ∧ s.finish = some finish
    ∧ (finish fs (blankBundle paths)).result = .ok b'

/-- A project of the platform that is set if no other is. -/
lemma exists_plain_project :
    ∃ project, Project.resolve "/proj" .empty ⟨false, [], .one⟩ = .ok project
      ∧ Registry.standard.platform project.platform = .ok Platform.Toutiao.platform := by
  have h : (Project.resolve "/proj" .empty ⟨false, [], .one⟩).map (·.platform) = .ok "toutiao" := by
    decide +kernel
  obtain ⟨project, hproject, hname⟩ := map_eq_ok.1 h
  refine ⟨project, hproject, ?_⟩
  rw [hname]
  rfl

/-- What is emitted for empty pages. -/
lemma finishes_outputs {project : Project} {paths : List Text}
    (hplatform : Registry.standard.platform project.platform = .ok Platform.Toutiao.platform)
    (hms : HasModules (blankBundle paths) (pagesAt paths)) :
    Finishes project paths ((outputs Platform.Toutiao.platform (blankBundle paths)
      (pagesAt paths)).foldl Bundle.emit (blankBundle paths)) := by
  refine ⟨_, _, ⟨.memory .empty, false⟩, Stage.template_eq_ok_iff.2
    ⟨project, _, _, _, rfl, rfl, rfl, hplatform, rfl⟩, rfl, ?_⟩
  exact emitAll_eq_ok_iff.2 (by simpa using hms)

/-- Two pages in directories of their own: everything is emitted, under routes of their own. -/
theorem emitted_complete_iff_twoPages :
    ∃ project b', Project.resolve "/proj" .empty ⟨false, [], .one⟩ = .ok project
      ∧ Finishes project ["pages/a/index.js", "pages/b/index.js"] b'
      ∧ manifestFile ["pages/a/index", "pages/b/index"] ∈ b'.emitted
      ∧ b'.emitted.length = 4
      ∧ (["pages/a/index", "pages/b/index"] : List Text).Nodup := by
  obtain ⟨project, hproject, hplatform⟩ := exists_plain_project
  have hfinishes : Finishes project ["pages/a/index.js", "pages/b/index.js"] _ :=
    finishes_outputs hplatform (by decide)
  obtain ⟨s, finish, fs, hs, hfinish, hrun⟩ := hfinishes
  obtain ⟨-, hmanifest, -, hcount, hnodup⟩ :=
    emitted_complete_iff rfl rfl rfl hplatform hs hfinish hrun rfl
  have hroutes : routes (blankBundle ["pages/a/index.js", "pages/b/index.js"])
      (pagesAt ["pages/a/index.js", "pages/b/index.js"])
        = ["pages/a/index", "pages/b/index"] := by decide
  have hapart := hnodup (pagesAt ["pages/a/index.js", "pages/b/index.js"]) ".js" rfl (by decide)
  rw [pages_pagesAt, hroutes] at hmanifest hapart
  exact ⟨project, _, hproject, ⟨s, finish, fs, hs, hfinish, hrun⟩, hmanifest,
    hcount.2 (by decide), hapart (by decide)⟩

/-- **Templates that are lost.** The template of a page at `base.js` takes the place of the base
template that it includes, and of two pages whose paths differ in the extension alone only one gets
a template, under a route that the manifest lists twice. Nothing fails. -/
theorem exists_emitted_lost :
    ((blankBundle ["base.js"]).modules.map (·.path)).Nodup
    ∧ ((blankBundle ["a.js", "a.mjs"]).modules.map (·.path)).Nodup
    ∧ ∃ project, Project.resolve "/proj" .empty ⟨false, [], .one⟩ = .ok project
      ∧ (∃ b', Finishes project ["base.js"] b' ∧ b'.emitted.length = 2
        ∧ ⟨"base.ttml", HostTemplate.renderPage "base.ttml"⟩ ∈ b'.emitted)
      ∧ ∃ b', Finishes project ["a.js", "a.mjs"] b' ∧ b'.emitted.length = 3
        ∧ manifestFile ["a", "a"] ∈ b'.emitted := by
  obtain ⟨project, hproject, hplatform⟩ := exists_plain_project
  refine ⟨by decide, by decide, project, hproject,
    ⟨_, finishes_outputs hplatform (by decide), ?_, ?_⟩,
    ⟨_, finishes_outputs hplatform (by decide), ?_, ?_⟩⟩
  · rw [Bundle.emitted, List.length_mergeSort]
    decide +kernel
  · rw [Bundle.emitted, List.mem_mergeSort]
    decide +kernel
  · rw [Bundle.emitted, List.length_mergeSort]
    decide +kernel
  · rw [Bundle.emitted, List.mem_mergeSort]
    decide +kernel

end Emit

end MiniProgram
