import MiniProgram.Proofs.Build.Effect

/-!
The frame of a build: which files in memory it can change.

* `covers_key_join`: whatever may be written is stored at or below the output directory.
* `get?_run`: what is stored under each key after a build.
* `run_frame`: a build changes nothing outside the output directory; a production build that
  succeeds leaves exactly the written files in it, and a development build adds to it.
-/

namespace MiniProgram

/-! ### Keys below the output directory -/

namespace Project

open MiniProgram.Path Memory

variable {p : Project} {path : Text}

lemma key_outDir (hp : Checked p) : key p.outDir = Text.join [Byte.slash] p.targetSegments := by
  rw [outDir_eq_spell hp, key_spell (resolved_targetSegments p) (targetSegments_ne_nil hp)]

lemma key_join_outDir (hp : Checked p) (hpath : outputFlaw? path = none) :
    key (Path.join [p.outDir, path])
      = Text.join [Byte.slash] (p.targetSegments ++ landing (Text.split Byte.slash path)) := by
  have hnames : ∀ x ∈ landing (Text.split Byte.slash path), IsName x := fun _ hx =>
    isName_of_mem_landing (fun _ hs => no_slash_of_mem_split hs) hx
  rw [join_outDir_eq_spell hp hpath, key_spell ((resolved_targetSegments p).append hnames)]
  exact List.append_ne_nil_of_left_ne_nil (targetSegments_ne_nil hp) _

/-- Whatever may be written is stored at or below the output directory. -/
lemma covers_key_join (hp : Checked p) (hpath : outputFlaw? path = none) :
    covers (key p.outDir) (key (Path.join [p.outDir, path])) = true := by
  rw [key_outDir hp, key_join_outDir hp hpath]
  exact covers_join_append (targetSegments_ne_nil hp)

/-- At an absolute root, the output directory is the path its key stands for. -/
lemma slash_key_outDir (hp : Checked p) (habs : isAbsolute p.root = true) :
    ("/" : Text) ++ key p.outDir = p.outDir := by
  rw [key_outDir hp, outDir_eq_spell hp, habs]
  rfl

lemma slash_key_join (hp : Checked p) (habs : isAbsolute p.root = true)
    (hpath : outputFlaw? path = none) :
    ("/" : Text) ++ key (Path.join [p.outDir, path]) = Path.join [p.outDir, path] := by
  rw [key_join_outDir hp hpath, join_outDir_eq_spell hp hpath, habs]
  rfl

end Project

/-! ### What is stored after a build -/

namespace Build

open MiniProgram.Path Memory Project

variable {tools : Tools} {input : Input} {file : Except FileError Text} {project : Project}

lemma settings_checked (h : settings input file = .ok project) :
    project.root = input.dir ∧ Checked project := by
  obtain ⟨f, -, h⟩ := bind_eq_ok.1 h
  rw [mapError_eq_ok] at h
  exact resolve_checked h

/-- Without settings, nothing happens. -/
lemma run_of_settings_error {f : Failure} (h : settings input file = .error f) (fs : FileSystem) :
    (run tools input file fs).fs = fs := by
  have hplan : ∃ g, plan tools input file fs = .error g := by
    rw [plan, h]
    exact ⟨_, rfl⟩
  obtain ⟨g, hg⟩ := hplan
  rw [run, hg]

/-- A build that comes to no bundle fails with the reason for that. -/
lemma failure_of_bundled_error {fs : FileSystem} {f : Failure}
    (h : bundled tools input file fs = .error f) : (run tools input file fs).failure = some f := by
  cases hplan : plan tools input file fs with
  | error g =>
      rw [bundled, hplan] at h
      cases h
      rw [run, hplan]
  | ok p =>
      have hres : (Pipeline.run .standard input.calledOff.stages p.stages fs
          [p.catalog.seed [p.project.runtimeModule]]).result = .error f := by
        rw [bundled, hplan] at h
        exact h
      simp [run, hplan, carryOut, hres]

/-- The keys of the files that a build wrote. -/
def writtenKeys (r : Result) (project : Project) : List Text :=
  r.written.map fun path => key (Path.join [project.outDir, path])

/-- **What is stored after a build** under each key: a written file has content, all else at or
below the output directory is gone if it was emptied, and the rest is as before. -/
theorem get?_run (tools : Tools) (hset : settings input file = .ok project) (m : Memory)
    (locked : Bool) :
    ∃ m', (run tools input file ⟨.memory m, locked⟩).fs = ⟨.memory m', locked⟩
      ∧ (∀ k ∈ writtenKeys (run tools input file ⟨.memory m, locked⟩) project,
        ∃ b, bundled tools input file ⟨.memory m, locked⟩ = .ok b ∧ ∃ a ∈ Output.files b,
          key (Path.join [project.outDir, a.path]) = k ∧ m'.get? k = some a.content)
      ∧ (∀ k ∉ writtenKeys (run tools input file ⟨.memory m, locked⟩) project, m'.get? k
        = if empties tools input file ⟨.memory m, locked⟩ && covers (key project.outDir) k
          then none else m.get? k)
      ∧ (input.dev = true → ∀ f, bundled tools input file ⟨.memory m, locked⟩ = .error f →
        m' = m) := by
  obtain ⟨stored, -, hwritten, hfs, -, hfiles⟩ := run_memory tools hset m locked
  refine ⟨_, hfs, ?_, ?_, ?_⟩
  · intro k hk
    obtain ⟨a, ha, hkey, hget⟩ := (Output.get?_foldl_layOut _ _ stored k).1
      (by simpa [writtenKeys, hwritten] using hk)
    obtain ⟨b, hb, hmem⟩ := hfiles a ha
    exact ⟨b, hb, a, hmem, hkey, hget⟩
  · intro k hk
    rw [(Output.get?_foldl_layOut _ _ stored k).2 (by simpa [writtenKeys, hwritten] using hk)]
    cases empties tools input file ⟨.memory m, locked⟩ with
    | true => simp
    | false => simp
  · intro hdev f hf
    have hempties : empties tools input file ⟨.memory m, locked⟩ = false := empties_of_dev hdev
    have hnone : stored = [] := by
      rw [List.eq_nil_iff_forall_not_mem]
      intro a ha
      obtain ⟨b, hb, -⟩ := hfiles a ha
      rw [hb] at hf
      cases hf
    simp [hnone, hempties]

/-- Written files have paths that may be written. -/
lemma outputFlaw?_of_mem_written (hset : settings input file = .ok project) {m : Memory}
    {locked : Bool} {path : Text} (h : path ∈ (run tools input file ⟨.memory m, locked⟩).written) :
    outputFlaw? path = none := by
  obtain ⟨stored, hflaw, hwritten, -, -⟩ := run_memory tools hset m locked
  rw [hwritten] at h
  obtain ⟨a, ha, rfl⟩ := List.mem_map.1 h
  exact hflaw a ha

lemma covers_of_mem_writtenKeys (hset : settings input file = .ok project) {m : Memory}
    {locked : Bool} {k : Text}
    (h : k ∈ writtenKeys (run tools input file ⟨.memory m, locked⟩) project) :
    covers (key project.outDir) k = true := by
  obtain ⟨path, hpath, rfl⟩ := List.mem_map.1 h
  exact covers_key_join (settings_checked hset).2 (outputFlaw?_of_mem_written hset hpath)

/-- At an absolute root, the written keys stand for the written paths. -/
lemma mem_writtenKeys_iff (hset : settings input file = .ok project)
    (habs : isAbsolute input.dir = true) {m : Memory} {locked : Bool} {k : Text} :
    k ∈ writtenKeys (run tools input file ⟨.memory m, locked⟩) project
      ↔ ∃ path ∈ (run tools input file ⟨.memory m, locked⟩).written,
        "/" ++ k = Path.join [project.outDir, path] := by
  obtain ⟨hroot, hp⟩ := settings_checked hset
  rw [writtenKeys, List.mem_map]
  refine exists_congr fun path => and_congr_right fun hpath => ?_
  have hkey := slash_key_join hp (hroot ▸ habs) (outputFlaw?_of_mem_written hset hpath)
  constructor
  · rintro rfl
    exact hkey
  · intro hk
    rw [← hkey, List.append_cancel_left_eq] at hk
    exact hk.symm

lemma covers_outDir (hset : settings input file = .ok project)
    (habs : isAbsolute input.dir = true) (k : Text) :
    covers project.outDir ("/" ++ k) = covers (key project.outDir) k := by
  obtain ⟨hroot, hp⟩ := settings_checked hset
  calc covers project.outDir ("/" ++ k)
      = covers ("/" ++ key project.outDir) ("/" ++ k) := by
        rw [slash_key_outDir hp (hroot ▸ habs)]
    _ = covers (key project.outDir) k := covers_cons Byte.slash _ _

/-- **The frame of a build** in memory at an absolute directory. Without settings nothing changes.
With them, nothing changes outside the output directory, whatever the build comes to and whenever it
is called off; after a production build that succeeds the files in it are the written ones; a
development build leaves all others there alone, and all files if it comes to no bundle. -/
theorem run_frame (tools : Tools) (input : Input) (file : Except FileError Text) (m : Memory)
    (locked : Bool) (habs : isAbsolute input.dir = true) :
    (∀ f, settings input file = .error f →
      (run tools input file ⟨.memory m, locked⟩).fs = ⟨.memory m, locked⟩)
    ∧ ∀ project, settings input file = .ok project →
      ∃ m', (run tools input file ⟨.memory m, locked⟩).fs = ⟨.memory m', locked⟩
        ∧ (∀ k, covers project.outDir ("/" ++ k) = false → m'.get? k = m.get? k)
        ∧ (input.dev = false → (run tools input file ⟨.memory m, locked⟩).succeeded = true →
          ∀ k, ((m'.get? k).isSome = true ∧ covers project.outDir ("/" ++ k) = true)
            ↔ ∃ path ∈ (run tools input file ⟨.memory m, locked⟩).written,
              "/" ++ k = Path.join [project.outDir, path])
        ∧ (input.dev = true → ∀ k, (∀ path ∈ (run tools input file ⟨.memory m, locked⟩).written,
            "/" ++ k ≠ Path.join [project.outDir, path]) → m'.get? k = m.get? k)
        ∧ ∀ f, bundled tools input file ⟨.memory m, locked⟩ = .error f →
          (run tools input file ⟨.memory m, locked⟩).failure = some f
            ∧ (input.dev = true → m' = m) := by
  refine ⟨fun f hf => run_of_settings_error hf _, fun project hset => ?_⟩
  obtain ⟨m', hfs, hwritten, hrest, hsame⟩ := get?_run tools hset m locked
  refine ⟨m', hfs, ?_, ?_, ?_, ?_⟩
  · intro k hk
    rw [covers_outDir hset habs] at hk
    have hnot : k ∉ writtenKeys (run tools input file ⟨.memory m, locked⟩) project := by
      intro hmem
      rw [covers_of_mem_writtenKeys hset hmem] at hk
      cases hk
    simp [hrest k hnot, hk]
  · intro hdev hok k
    have hempties : empties tools input file ⟨.memory m, locked⟩ = true := by
      obtain ⟨stored, -, -, -, hempties, -⟩ := run_memory tools hset m locked
      exact hempties hdev hok
    rw [covers_outDir hset habs, ← mem_writtenKeys_iff hset habs]
    constructor
    · -- what is not written was removed when the directory was emptied
      rintro ⟨hk, hcov⟩
      by_contra hnot
      rw [hrest k hnot, hempties, hcov] at hk
      cases hk
    · intro hmem
      obtain ⟨b, -, a, -, -, hget⟩ := hwritten k hmem
      exact ⟨by simp [hget], covers_of_mem_writtenKeys hset hmem⟩
  · intro hdev k hk
    have hempties : empties tools input file ⟨.memory m, locked⟩ = false := empties_of_dev hdev
    have hnot : k ∉ writtenKeys (run tools input file ⟨.memory m, locked⟩) project := by
      rw [mem_writtenKeys_iff hset habs]
      rintro ⟨path, hpath, heq⟩
      exact hk path hpath heq
    simp [hrest k hnot, hempties]
  · exact fun f hf => ⟨failure_of_bundled_error hf, fun hdev => hsame hdev f hf⟩

/-- A directory beside the output directory is kept although its name begins with the same
letters. -/
theorem run_frame_beside :
    isAbsolute "/proj" = true ∧ ∃ project m',
      settings ⟨"/proj", false, false, [], .one, .never⟩ (.ok "outDir: out\n") = .ok project
      ∧ (run ⟨Registry.standard, fun r => .ok ⟨r.source, []⟩⟩
          ⟨"/proj", false, false, [], .one, .never⟩ (.ok "outDir: out\n")
          ⟨.memory ⟨[("proj/src/pages/index.ts", "export default 1;"), ("proj/out/old.js", "1"),
            ("proj/outer/new.js", "2")]⟩, false⟩).fs
        = ⟨.memory m', false⟩
      ∧ m'.get? "proj/outer/new.js" = some "2" := by
  have hout : (settings ⟨"/proj", false, false, [], .one, .never⟩ (.ok "outDir: out\n")).map
      (·.outDir) = .ok "/proj/out" := by decide +kernel
  obtain ⟨project, hset, hdir⟩ := map_eq_ok.1 hout
  refine ⟨rfl, ?_⟩
  obtain ⟨m', hfs, hframe, -⟩ := (run_frame ⟨Registry.standard, fun r => .ok ⟨r.source, []⟩⟩
    ⟨"/proj", false, false, [], .one, .never⟩ (.ok "outDir: out\n") ⟨[("proj/src/pages/index.ts",
      "export default 1;"), ("proj/out/old.js", "1"), ("proj/outer/new.js", "2")]⟩ false rfl).2
    project hset
  refine ⟨project, m', hset, hfs, ?_⟩
  rw [hframe "proj/outer/new.js" (by rw [hdir]; decide)]
  decide

end Build

end MiniProgram
