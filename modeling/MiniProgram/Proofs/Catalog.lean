import MiniProgram.Catalog
import MiniProgram.Proofs.Failure
import MiniProgram.Proofs.Keyed
import MiniProgram.Proofs.Path.Clean
import MiniProgram.Proofs.Script.ImportLine

/-!
Catalogs of entries and the module that imports them.

The seed imports every entry by a line of its own, with the path in quotes. The scan does not read
escapes and takes either quote for the end of a specifier, so that a path is found again only if it
is the same between quotes and holds no quote.

* `normal_of_ofEntries`: entries are known by normal paths.
* `Importable`, `importable_iff`: the specifiers that a line hands to the scan as they are.
* `scanImports_seed`: what is found in the seed, where no specifier holds a quote or a newline.
* `scanImports_seed_eq_iff`: when the scan finds in the seed just what it is to import.
* `exists_scanImports_seed_ne`: an entry of which the scan finds the beginning only.
-/

namespace MiniProgram

open MiniProgram.Path

namespace Catalog

/-! ### Entries -/

variable {entries entries' : List Entry} {e : Entry}

lemma mem_of_add_eq_ok (h : add entries e = .ok entries') {x : Entry} (hx : x ∈ entries') :
    x ∈ entries ∨ x.path ≠ [] ∧ x.path = normalize e.path ∧ x.kind = e.kind := by
  rw [add] at h
  split_ifs at h with hne hany
  · cases h
    exact Or.inl hx
  · cases h
    rcases List.mem_append.1 hx with hx | hx
    · exact Or.inl hx
    · rw [List.mem_singleton] at hx
      subst hx
      exact Or.inr ⟨hne, rfl, rfl⟩

/-- The entries of a catalog have normal paths, none of them empty. -/
lemma normal_of_ofEntries {list : List Entry} {c : Catalog} (h : ofEntries list = .ok c) :
    ∀ e ∈ c.entries, e.path ≠ [] ∧ normalize e.path = e.path := by
  rw [ofEntries] at h
  split_ifs at h
  obtain ⟨found, hfound, rfl⟩ := map_eq_ok.1 h
  refine foldlM_invariant (P := fun entries : List Entry =>
    ∀ e ∈ entries, e.path ≠ [] ∧ Path.normalize e.path = e.path) ?_ (by simp) hfound
  intro entries e entries' hentries hadd x hx
  rcases mem_of_add_eq_ok hadd hx with hx | ⟨hne, hpath, -⟩
  · exact hentries x hx
  · refine ⟨hne, ?_⟩
    rw [hpath, normalize_idem]

/-- The entries of a catalog have paths of their own. -/
lemma nodup_of_ofEntries {list : List Entry} {c : Catalog} (h : ofEntries list = .ok c) :
    (c.entries.map (·.path)).Nodup := by
  rw [ofEntries] at h
  split_ifs at h
  obtain ⟨found, hfound, rfl⟩ := map_eq_ok.1 h
  refine foldlM_invariant (P := fun entries : List Entry => (entries.map (·.path)).Nodup) ?_
    (by simp) hfound
  intro entries e entries' hentries hadd
  rw [add] at hadd
  split_ifs at hadd with hne hany
  · cases hadd
    exact hentries
  · cases hadd
    exact nodup_map_append_singleton_iff.2 ⟨hentries, not_any_key_iff.1 hany⟩

/-- An entry is found under its path. -/
lemma kind_of_mem {list : List Entry} {c : Catalog} (h : ofEntries list = .ok c)
    (he : e ∈ c.entries) : c.kind e.path = e.kind := by
  rw [kind, (normal_of_ofEntries h e he).2,
    (find?_key_eq_some_iff (nodup_of_ofEntries h)).2 ⟨he, rfl⟩]

/-- Each entry of a catalog has the kind of one it was made from. -/
lemma exists_kind_of_ofEntries {list : List Entry} {c : Catalog} (h : ofEntries list = .ok c) :
    ∀ e ∈ c.entries, ∃ x ∈ list, x.kind = e.kind := by
  rw [ofEntries] at h
  split_ifs at h
  obtain ⟨found, hfound, rfl⟩ := map_eq_ok.1 h
  refine foldlM_invariant_of_mem
    (P := fun entries : List Entry => ∀ e ∈ entries, ∃ x ∈ list, x.kind = e.kind) ?_ (by simp)
    hfound
  intro entries x hx entries' hentries hadd e he
  rcases mem_of_add_eq_ok hadd he with he | ⟨-, -, hkind⟩
  · exact hentries e he
  · exact ⟨x, hx, hkind.symm⟩

/-- A tree has the catalog of an app and of pages. -/
lemma exists_ofEntries_of_discover {tree : FileSystem.View} {sourceDir : Text} {named : List Text}
    {c : Catalog} (h : discover tree sourceDir named = .ok c) :
    ∃ list, ofEntries list = .ok c ∧ ∀ e ∈ list, e.kind ≠ .none := by
  have hkinds : ∀ pages : List Text, ∀ e ∈ ((findApp tree sourceDir).map fun p =>
      Entry.mk p .app).toList ++ pages.map fun p => ⟨p, .page⟩, e.kind ≠ .none := by
    intro pages e he
    rcases List.mem_append.1 he with he | he
    · obtain ⟨p, -, rfl⟩ := Option.map_eq_some_iff.1 (Option.mem_toList.1 he)
      exact EntryKind.noConfusion
    · obtain ⟨p, -, rfl⟩ := List.mem_map.1 he
      exact EntryKind.noConfusion
  rw [discover] at h
  split_ifs at h
  all_goals
    obtain ⟨pages, -, h⟩ := bind_eq_ok.1 h
    dsimp only at h
    split_ifs at h
    · cases h
    · exact ⟨_, h, hkinds pages⟩

/-! ### The seed -/

@[simp] lemma seed_seed (c : Catalog) (extra : List Text) : (c.seed extra).seed = true := rfl

@[simp] lemma entry_seed (c : Catalog) (extra : List Text) : (c.seed extra).entry = .none := rfl

@[simp] lemma id_seed (c : Catalog) (extra : List Text) : (c.seed extra).id = seedId := by
  change Path.normalize seedId = seedId
  decide

@[simp] lemma kind_seed (c : Catalog) (extra : List Text) : (c.seed extra).kind = .script := by
  change ModuleKind.ofPath (Path.normalize seedId) = .script
  decide

/-- What the seed imports: every entry, then some further packages. -/
def specs (c : Catalog) (extra : List Text) : List Text :=
  let own : List Text := c.entries.map fun e => "./" ++ e.path
  own ++ extra

/-- A specifier that an import line hands to the scan as it is: code points that print, and no quote
or backslash among them. -/
def Importable (spec : Text) : Prop :=
  spec ≠ [] ∧ Byte.singleQuote ∉ spec ∧ ∀ span ∈ Text.runeSpans spec, Text.isPlainSpan span = true

instance (spec : Text) : Decidable (Importable spec) :=
  inferInstanceAs (Decidable (_ ∧ _ ∧ ∀ span ∈ Text.runeSpans spec, _))

lemma importable_iff {spec : Text} :
    Importable spec ↔ Script.IsSpec spec ∧ Text.spelled spec = spec := by
  rw [Importable, Text.spelled_eq_self_iff]
  constructor
  · rintro ⟨hne, hquote, hplain⟩
    refine ⟨⟨hne, fun b hb => ?_⟩, hplain⟩
    -- the double quote and the newline are code points that are not written by their bytes
    have hnot : ∀ c : UInt8, c < 0x80 → Text.isPlainSpan (some c.toNat, [c]) = false → b ≠ c := by
      rintro c hc hspan rfl
      rw [hplain _ (Text.mem_runeSpans_of_mem hb hc)] at hspan
      cases hspan
    have hsingle : b ≠ Byte.singleQuote := fun h => hquote (h ▸ hb)
    have hdouble := hnot Byte.doubleQuote (by decide) (by decide)
    have hline := hnot Byte.newline (by decide) (by decide)
    simp [Text.isInner, Byte.isQuote, hsingle, hdouble, hline]
  · rintro ⟨hspec, hplain⟩
    exact ⟨hspec.1, fun hmem => absurd (hspec.2 _ hmem) (by decide), hplain⟩

example : Importable "./src/pages/index/index.tsx" := by decide +kernel

/-! ### What is found in the seed -/

variable {c : Catalog} {extra : List Text}

/-- The lines of the seed with their leads. -/
def seedLines (c : Catalog) (extra : List Text) : List (Text × Text) :=
  (c.specs extra).map fun spec => ("import ", spec)

lemma content_seed (c : Catalog) (extra : List Text) :
    (c.seed extra).content = Script.importLines (c.seedLines extra) := by
  have hcontent : (c.seed extra).content = (c.specs extra).flatMap importLine := rfl
  rw [hcontent, seedLines, Script.importLines, List.flatMap_map]
  rfl

lemma importLead : Script.ImportLead "import " :=
  ⟨⟨" ", rfl, ⟨by decide, by decide, by decide⟩⟩, by decide⟩

lemma importLead_of_mem_seedLines : ∀ line ∈ c.seedLines extra, Script.ImportLead line.1 := by
  intro line hline
  obtain ⟨spec, -, rfl⟩ := List.mem_map.1 hline
  exact importLead

/-- The seed is all code. -/
lemma maskFrom_seed (c : Catalog) (extra : List Text) :
    Script.maskFrom .code (c.seed extra).content = (c.seed extra).content := by
  rw [content_seed]
  simpa using (Script.reads_importLines importLead_of_mem_seedLines).maskFrom_append []

/-- What is found in the seed may stand between quotes. -/
lemma isSpec_of_mem_scanImports_seed {spec : Text}
    (h : spec ∈ Script.scanImports (c.seed extra).content) : Script.IsSpec spec := by
  obtain ⟨form, h⟩ := Script.mem_scanImports.1 h
  rw [maskFrom_seed] at h
  exact Script.isSpec_of_mem_readFrom h

/-- A specifier without quotes and newlines is found by its spelling, whatever the others hold. -/
lemma mem_scanImports_seed {spec : Text} (hspec : spec ∈ c.specs extra) (h : Script.IsSpec spec) :
    Text.spelled spec ∈ Script.scanImports (c.seed extra).content := by
  refine Script.mem_scanImports.2 ⟨.importing, ?_⟩
  rw [maskFrom_seed, content_seed]
  exact Script.mem_readFrom_importLines importLead_of_mem_seedLines (List.mem_map_of_mem hspec) h

/-- Where no specifier holds a quote or a newline, their spellings are found, in their order. -/
lemma scanImports_seed (h : ∀ spec ∈ c.specs extra, Script.IsSpec spec) :
    Script.scanImports (c.seed extra).content
      = ((c.specs extra).map Text.spelled).eraseDups := by
  have hspecs : ∀ line ∈ c.seedLines extra, Script.IsSpec line.2 := by
    intro line hline
    obtain ⟨spec, hspec, rfl⟩ := List.mem_map.1 hline
    exact h spec hspec
  have hread : ∀ form : Script.ReferenceForm,
      Script.readFrom form.pattern none 0 (c.seed extra).content (c.seed extra).content
        = if form = .importing then (c.specs extra).map Text.spelled else [] := by
    intro form
    have hlines : Script.readFrom form.pattern none 0 (_ ++ []) (_ ++ []) = _ :=
      Script.readFrom_importLines importLead_of_mem_seedLines hspecs Script.not_fromAfterBrace_nil
    rw [Script.readFrom_nil, List.append_nil, List.append_nil, seedLines, List.map_map] at hlines
    rw [content_seed]
    exact hlines
  rw [Script.scanImports_of_importing, maskFrom_seed, hread, if_pos rfl]
  intro form hform
  rw [maskFrom_seed, hread, if_neg hform]

/-- Texts of which the spellings are among them are spelled as they are: the one that is not and
holds the most backslashes would have a spelling with more. -/
lemma spelled_eq_self_of_mem {list : List Text} (h : ∀ t ∈ list, Text.spelled t ∈ list) :
    ∀ t ∈ list, Text.spelled t = t := by
  by_contra hnot
  obtain ⟨t, ht⟩ : (list.toFinset.filter fun t => Text.spelled t ≠ t).Nonempty := by
    simpa [Finset.filter_nonempty_iff] using hnot
  obtain ⟨s, hs, hmax⟩ := Finset.exists_max_image _ (fun t : Text => t.count Byte.backslash) ⟨t, ht⟩
  simp only [Finset.mem_filter, List.mem_toFinset] at hs hmax
  have hlt := Text.count_lt_spelled (by simpa [Text.spelled_eq_self_iff] using hs.2)
  refine absurd (hmax _ ⟨h s hs.1, fun hself => ?_⟩) (not_le.2 hlt)
  have hback : Byte.backslash ∈ Text.spelled s := List.count_pos_iff.1 (by omega)
  have hplain := Text.spelled_eq_self_iff.1 hself _ (Text.mem_runeSpans_of_mem hback (by decide))
  exact absurd hplain (by decide)

/-- **The seed and the scan.** The scan finds in the seed just the specifiers that it is to import,
each once and in their order, exactly if all of them are importable. One that is importable is found
whatever the others are. -/
theorem scanImports_seed_eq_iff (c : Catalog) (extra : List Text) :
    (Script.scanImports (c.seed extra).content = (c.specs extra).eraseDups
      ↔ ∀ spec ∈ c.specs extra, Importable spec)
    ∧ ∀ spec ∈ c.specs extra, Importable spec →
      spec ∈ Script.scanImports (c.seed extra).content := by
  refine ⟨⟨fun hscan => ?_, fun hall => ?_⟩, fun spec hspec himportable => ?_⟩
  · have hspecs : ∀ spec ∈ c.specs extra, Script.IsSpec spec := by
      intro spec hspec
      have hfound : spec ∈ Script.scanImports (c.seed extra).content := by
        rw [hscan]
        exact List.mem_eraseDups.2 hspec
      exact isSpec_of_mem_scanImports_seed hfound
    have hclosed : ∀ spec ∈ c.specs extra, Text.spelled spec ∈ c.specs extra := by
      intro spec hspec
      rw [← List.mem_eraseDups, ← hscan]
      exact mem_scanImports_seed hspec (hspecs spec hspec)
    exact fun spec hspec =>
      importable_iff.2 ⟨hspecs spec hspec, spelled_eq_self_of_mem hclosed spec hspec⟩
  · rw [scanImports_seed fun spec hspec => (importable_iff.1 (hall spec hspec)).1,
      List.map_congr_left fun spec hspec => (importable_iff.1 (hall spec hspec)).2, List.map_id']
  · obtain ⟨hquotes, hself⟩ := importable_iff.1 himportable
    have hfound := mem_scanImports_seed hspec hquotes
    rwa [hself] at hfound

/-- A page in a directory with an apostrophe is imported by a line in which the scan finds the path
up to the apostrophe. -/
theorem exists_scanImports_seed_ne :
    ∃ c, ofEntries [⟨"src/pages/it's/index.tsx", .page⟩] = .ok c
      ∧ c.specs [] = ["./src/pages/it's/index.tsx"]
      ∧ Script.scanImports (c.seed []).content = ["./src/pages/it"]
      ∧ Script.scanImports (c.seed []).content ≠ (c.specs []).eraseDups := by
  have hscan : Script.scanImports (seed ⟨[⟨"src/pages/it's/index.tsx", .page⟩]⟩ []).content
      = ["./src/pages/it"] := by
    rw [Script.scanImports, List.mergeSort_of_pairwise (by decide +kernel)]
    decide +kernel
  refine ⟨⟨[⟨"src/pages/it's/index.tsx", .page⟩]⟩, by decide +kernel, rfl, hscan, ?_⟩
  rw [hscan]
  decide +kernel

end Catalog

end MiniProgram
