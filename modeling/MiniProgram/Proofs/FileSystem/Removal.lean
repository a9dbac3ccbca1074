import MiniProgram.Proofs.FileSystem.Memory
import MiniProgram.Proofs.Path.Between
import MiniProgram.Proofs.Path.Normal

/-!
Removing trees from a file system in memory.

A tree is removed by the key of its top. The key of a path is its cleaned form without the slash in
front, so that keys lie below each other as the paths do. The root has a key of its own, `.`, and no
other key begins with it and a slash.

* `Built`, `Built.keysOfPaths`: what the file systems in memory that come about hold is stored under
  the keys of paths.
* `covers_key_iff`: the key of a directory covers the keys of the files at or below it.
* `removeAll_exact_iff`: **removing a tree** takes away the files at or below its top and no others,
  except that at the root only a file stored there itself is removed.
* `exists_removeAll_root_keeps`: removing the root keeps a file below it.
-/

namespace MiniProgram

namespace Memory

open MiniProgram.Path

variable {m m' : Memory} {p : Text}

/-! ### Keys of paths -/

/-- A key is that of the root, or is spelled by resolved segments. -/
lemma key_cases (p : Text) :
    key p = ("." : Text) ∨ ∃ segs, segs ≠ [] ∧ Resolved false segs
      ∧ key p = Text.join [Byte.slash] segs := by
  have hkey : key p = key (clean p) := by rw [key, key, clean_clean]
  rw [hkey]
  rcases clean_cases p with ⟨-, hdot⟩ | ⟨segs, hres, -, hspell⟩
  · left
    rw [hdot]
    decide
  · rw [hspell]
    by_cases hne : segs = []
    · left
      rw [hne]
      cases isAbsolute p <;> decide
    · refine Or.inr ⟨segs, hne, ?_, key_spell hres hne⟩
      cases habs : isAbsolute p with
      | true => exact resolved_of_isName (habs ▸ hres).isName
      | false => exact habs ▸ hres

/-- The segments of a key are not empty. -/
lemma nil_not_mem_split_key (p : Text) : [] ∉ Text.split Byte.slash (key p) := by
  rcases key_cases p with hdot | ⟨segs, hne, hres, hkey⟩
  · rw [hdot]
    decide
  · rw [hkey, Text.split_join hne hres.no_slash]
    exact fun hmem => hres.ne_nil hmem rfl

/-- A key ends in a name, never in a slash. -/
lemma key_ne_append_slash (p top : Text) : key p ≠ top ++ ("/" : Text) := by
  intro heq
  apply nil_not_mem_split_key p
  rw [heq, slash_text, Text.split_append]
  exact List.mem_append_right _ (by decide)

/-- No key lies below that of the root. -/
lemma not_dot_slash_prefix_key (p : Text) : ¬ ("." : Text) ++ ("/" : Text) <+: key p := by
  intro hprefix
  rcases key_cases p with hdot | ⟨segs, hne, hres, hkey⟩
  · rw [hdot] at hprefix
    exact absurd hprefix.length_le (by decide)
  · have hfirst : (Text.split Byte.slash (key p)).head? = some ("." : Text) :=
      (head?_split_eq_some_iff (by decide)).2 (Or.inr (Text.startsWith_iff.2 hprefix))
    rw [hkey, Text.split_join hne hres.no_slash, ← hres.segments_join] at hfirst
    exact (hres.inNormalForm.segment "." (List.mem_of_head? hfirst)).2 rfl

/-- The key of the root covers itself only. -/
lemma covers_root_iff (p : Text) : covers "." (key p) = true ↔ key p = ("." : Text) := by
  rw [covers_iff, or_iff_left (not_dot_slash_prefix_key p)]

/-! ### The files that are stored -/

/-- A change to the stored files. -/
inductive Step : Memory → Memory → Prop where
  | write (m : Memory) (p content : Text) : Step m (m.put (key p) content)
  | remove {m m' : Memory} {p : Text} (h : m.remove p = .ok m') : Step m m'
  | removeAll (m : Memory) (p : Text) : Step m (m.removeAll p)

/-- The file systems in memory: some files by path, and what changes make of them. -/
inductive Built : Memory → Prop where
  | ofFiles (files : List (Text × Text)) : Built (ofFiles files)
  | step {m m' : Memory} (hm : Built m) (h : Step m m') : Built m'

/-- Whether every file is stored under the key of some path. -/
def KeysOfPaths (m : Memory) : Prop := ∀ f ∈ m.files, ∃ q, f.1 = key q

lemma KeysOfPaths.put (hm : KeysOfPaths m) (p content : Text) :
    KeysOfPaths (m.put (key p) content) := by
  intro f hf
  rw [Memory.put] at hf
  split_ifs at hf
  · obtain ⟨g, hg, rfl⟩ := List.mem_map.1 hf
    split_ifs
    · exact ⟨p, rfl⟩
    · exact hm g hg
  · rcases List.mem_append.1 hf with hf | hf
    · exact hm f hf
    · exact ⟨p, by rw [List.mem_singleton.1 hf]⟩

lemma KeysOfPaths.step (hm : KeysOfPaths m) (h : Step m m') : KeysOfPaths m' := by
  cases h with
  | write p content => exact hm.put p content
  | remove h =>
      rw [Memory.remove] at h
      split_ifs at h
      obtain rfl := Except.ok.inj h
      exact fun f hf => hm f (List.mem_of_mem_filter hf)
  | removeAll p => exact fun f hf => hm f (List.mem_of_mem_filter hf)

lemma keysOfPaths_ofFiles (files : List (Text × Text)) : KeysOfPaths (ofFiles files) := by
  induction files using List.reverseRecOn with
  | nil => exact fun f hf => absurd hf List.not_mem_nil
  | append_singleton files f ih =>
      rw [ofFiles, List.foldl_concat]
      exact KeysOfPaths.put ih f.1 f.2

/-- What a file system in memory holds is stored under the keys of paths. -/
theorem Built.keysOfPaths (hm : Built m) : KeysOfPaths m := by
  induction hm with
  | ofFiles files => exact keysOfPaths_ofFiles files
  | step _ h ih => exact ih.step h

/-! ### Trees -/

/-- Whether a file lies at or below a directory, by the path under which it is listed. -/
def LiesIn (top : Text) (f : Text × Text) : Prop :=
  "/" ++ f.1 = top ∨ StrictlyBelow top ("/" ++ f.1)

/-- Every file lies below the root. -/
lemma KeysOfPaths.liesIn_root (hm : KeysOfPaths m) {f : Text × Text} (hf : f ∈ m.files) :
    LiesIn "/" f := by
  obtain ⟨q, hq⟩ := hm f hf
  refine Or.inr ⟨f.1, fun hnil => nil_not_mem_split_key q ?_, by rw [if_pos rfl]⟩
  rw [← hq, hnil]
  decide

/-- The key of a path that is not the root covers the keys of the files at or below the path. -/
lemma covers_key_iff (hp : isAbsolute p = true) (hroot : clean p ≠ ("/" : Text))
    (q content : Text) : covers (key p) (key q) = true ↔ LiesIn (clean p) (key q, content) := by
  have htop := (clean_of_key hp).resolve_left hroot
  have hlead : (if clean p = ("/" : Text) then clean p else clean p ++ "/")
      = Byte.slash :: (key p ++ ("/" : Text)) := by rw [if_neg hroot, htop, List.cons_append]
  rw [covers_iff, LiesIn, StrictlyBelow, hlead, htop, slash_text, List.singleton_append]
  refine or_congr (List.cons_inj_right Byte.slash).symm ?_
  constructor
  · rintro ⟨rest, hrest⟩
    refine ⟨rest, fun hnil => ?_, by rw [← hrest, List.cons_append]⟩
    rw [hnil, List.append_nil] at hrest
    exact key_ne_append_slash q (key p) hrest.symm
  · rintro ⟨rest, -, heq⟩
    exact ⟨rest, (List.cons_injective heq).symm⟩

lemma mem_removeAll {f : Text × Text} :
    f ∈ (m.removeAll p).files ↔ f ∈ m.files ∧ ¬ covers (key p) f.1 = true := by
  rw [removeAll, List.mem_filter, Bool.not_eq_true', Bool.not_eq_true]

/-- What stays when a tree is removed whose top is not the root. -/
lemma KeysOfPaths.mem_removeAll_iff (hm : KeysOfPaths m) (hp : isAbsolute p = true)
    (hroot : clean p ≠ ("/" : Text)) (f : Text × Text) :
    f ∈ (m.removeAll p).files ↔ f ∈ m.files ∧ ¬ LiesIn (clean p) f := by
  rw [mem_removeAll]
  refine and_congr_right fun hf => not_congr ?_
  obtain ⟨k, content⟩ := f
  obtain ⟨q, rfl⟩ := hm _ hf
  exact covers_key_iff hp hroot q content

/-- What stays when the root is removed. -/
lemma KeysOfPaths.mem_removeAll_root (hm : KeysOfPaths m) (hroot : clean p = ("/" : Text))
    (f : Text × Text) :
    f ∈ (m.removeAll p).files ↔ f ∈ m.files ∧ f.1 ≠ ("." : Text) := by
  have hkey : key p = ("." : Text) := by
    rw [key, hroot]
    decide
  rw [mem_removeAll, hkey]
  refine and_congr_right fun hf => not_congr ?_
  obtain ⟨q, hq⟩ := hm f hf
  rw [hq, covers_root_iff]

/-- **Removing a tree.** In every file system in memory and for every absolute path, removing the
tree of the path takes away the files at or below the cleaned path and keeps all others, contents
included, exactly if the path is not the root or nothing but a file at the root itself is stored.
Removing the root takes away such a file, and no other. -/
theorem removeAll_exact_iff (hm : Built m) (hp : isAbsolute p = true) :
    ((∀ f, f ∈ (m.removeAll p).files ↔ f ∈ m.files ∧ ¬ LiesIn (clean p) f)
      ↔ clean p ≠ "/" ∨ ∀ f ∈ m.files, f.1 = ("." : Text))
    ∧ (clean p = "/" →
      ∀ f, f ∈ (m.removeAll p).files ↔ f ∈ m.files ∧ f.1 ≠ ("." : Text)) := by
  have hkeys := hm.keysOfPaths
  refine ⟨?_, hkeys.mem_removeAll_root⟩
  by_cases hroot : clean p = ("/" : Text)
  · rw [or_iff_right (not_not_intro hroot), hroot]
    constructor
    · intro hexact f hf
      by_contra hdot
      have hkept := (hexact f).1 ((hkeys.mem_removeAll_root hroot f).2 ⟨hf, hdot⟩)
      exact hkept.2 (hkeys.liesIn_root hf)
    · intro hdots f
      rw [hkeys.mem_removeAll_root hroot f]
      exact and_congr_right fun hf =>
        not_congr (iff_of_true (hdots f hf) (hkeys.liesIn_root hf))
  · exact iff_of_true (hkeys.mem_removeAll_iff hp hroot) (Or.inl hroot)

/-- A tree named by a detour is removed; a file whose name begins with that of the tree stays. -/
theorem removeAll_exact_iff_siblings :
    let m := ofFiles [("/a/b", "1"), ("/a/bc", "2"), ("/a/b/c", "3"), ("/a", "4")]
    Built m ∧ isAbsolute "/x/../a//b/." = true
      ∧ (∀ f, f ∈ (m.removeAll "/x/../a//b/.").files
        ↔ f ∈ m.files ∧ ¬ LiesIn (clean "/x/../a//b/.") f)
      ∧ (m.removeAll "/x/../a//b/.").files
        = ([("a/bc", "2"), ("a", "4")] : List (Text × Text)) := by
  refine ⟨Built.ofFiles _, by decide, ?_, by decide +kernel⟩
  exact (removeAll_exact_iff (Built.ofFiles _) (by decide)).1.2 (Or.inl (by decide))

/-- Removing the root keeps a file below it. -/
theorem exists_removeAll_root_keeps :
    ∃ m, Built m ∧ isAbsolute "/" = true
      ∧ ∃ f ∈ (m.removeAll "/").files, LiesIn (clean "/") f := by
  have hbuilt := Built.ofFiles [("/a", "1")]
  have hmem : (("a", "1") : Text × Text) ∈ (ofFiles [("/a", "1")]).files := by decide +kernel
  exact ⟨_, hbuilt, by decide, ("a", "1"), by decide +kernel, hbuilt.keysOfPaths.liesIn_root hmem⟩

end Memory

end MiniProgram
