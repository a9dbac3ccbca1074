import MiniProgram.Proofs.Fingerprint
import MiniProgram.Proofs.Stylesheet.Classes

/-!
Scoped classes: which stylesheet modules are kept apart.

Where a project scopes classes, every class of a stylesheet module gets the module's suffix, an
underscore and the short fingerprint of its identifier. No fingerprint holds an underscore, so a
scoped name tells the class and the suffix; but the suffix tells only the leading digits of the
hash, and modules with different identifiers may share them.

* `scopeMark`, `scopeSuffix_eq_iff`: the number a suffix stands for.
* `append_scopeSuffix_inj`: what a scoped name tells.
* `scoped_eq_iff`: **the classes of two modules that get one name.**
* `exists_scopeSuffix_eq`: two modules whose classes are not kept apart.
-/

namespace MiniProgram

namespace Content

variable {id id' name name' : Text}

/-! ### Suffixes -/

/-- The number that the suffix of a module stands for: the hash of its identifier, without its last
digit if it has six. -/
def scopeMark (id : Text) : ℕ :=
  if Fingerprint.ofText id < 36 ^ 5 then Fingerprint.ofText id else Fingerprint.ofText id / 36

lemma leading_ofText (id : Text) :
    Fingerprint.leading 5 (Fingerprint.ofText id) = scopeMark id := by
  have hlt : Fingerprint.ofText id < 1000000007 := Fingerprint.ofText_lt id
  rw [scopeMark]
  split_ifs with h
  · exact Fingerprint.leading_of_lt h
  · rw [Fingerprint.leading_of_le (Nat.not_lt.1 h), Fingerprint.leading_of_lt (by omega)]

/-- Two modules have one suffix exactly if it stands for one number. -/
lemma scopeSuffix_eq_iff : scopeSuffix id = scopeSuffix id' ↔ scopeMark id = scopeMark id' := by
  rw [scopeSuffix, scopeSuffix, List.append_right_inj,
    Fingerprint.short_eq_short_iff (by decide), leading_ofText, leading_ofText]

/-- A fingerprint is written in letters and digits. -/
lemma underscore_notMem_short (id : Text) : Byte.underscore ∉ Fingerprint.short id 5 := by
  have hdigit : ∀ d < 36, Byte.ofDigit d ≠ Byte.underscore := by decide
  intro h
  obtain ⟨d, hd, hbyte⟩ := Text.exists_digit_of_mem_ofNatBase (by decide) (List.mem_of_mem_take h)
  exact hdigit d hd hbyte

/-- **What a scoped name tells**: the class and the suffix. -/
lemma append_scopeSuffix_inj :
    name ++ scopeSuffix id = name' ++ scopeSuffix id'
      ↔ name = name' ∧ scopeMark id = scopeMark id' := by
  refine ⟨fun h => ?_, fun ⟨hname, hmark⟩ => by rw [hname, scopeSuffix_eq_iff.2 hmark]⟩
  -- read from the end, the suffix runs to the first underscore
  have hrun : ∀ id, ∀ b ∈ (Fingerprint.short id 5).reverse,
      decide (b ≠ Byte.underscore) = true := fun id =>
    Text.forall_ne_of_not_mem (mt List.mem_reverse.1 (underscore_notMem_short id))
  have hsplit : ∀ name id, (name ++ scopeSuffix id).reverse
      = (Fingerprint.short id 5).reverse ++ Byte.underscore :: name.reverse := by
    intro name id
    have hmark : ("_" : Text) = [Byte.underscore] := rfl
    simp [scopeSuffix, hmark]
  have hreverse := congrArg List.reverse h
  rw [hsplit, hsplit] at hreverse
  obtain ⟨hshort, hname⟩ :=
    Text.append_cons_inj (hrun id) (hrun id') (by rfl) (by rfl) hreverse
  refine ⟨List.reverse_injective (List.cons.inj hname).2, scopeSuffix_eq_iff.1 ?_⟩
  rw [scopeSuffix, scopeSuffix, List.reverse_injective hshort]

/-! ### Stylesheet modules -/

/-- The stylesheet of a module in responsive units. -/
def responsive (p : Project) (m : Module) : Text := Stylesheet.pxToRpx p.pxMultiple m.content

/-- The classes of a stylesheet module, each with its scoped name. -/
def scopedClasses (p : Project) (m : Module) : List (Text × Text) :=
  Stylesheet.classMap (fun name => name ++ scopeSuffix m.id) (responsive p m)

/-- What becomes of a stylesheet module whose classes are scoped: the script that maps them to their
scoped names, and the stylesheet with these names beside it. -/
structure IsScoped (p : Project) (m n : Module) : Prop where
  content : n.content = Stylesheet.classModule (scopedClasses p m)
  assets : n.assets = m.assets ++ [⟨Text.trimEnd m.path ".less" ++ ".css",
    Stylesheet.scope (fun name => name ++ scopeSuffix m.id) (responsive p m)⟩]

lemma isScoped_convertStyle {p : Project} {m : Module} (hmodules : p.cssModules = true)
    (hkind : m.kind = .styleModule) : IsScoped p m (convertStyle p m) := by
  constructor <;> simp [convertStyle, hkind, hmodules, scopedClasses, responsive]

/-- **The classes that get one name.** Where a project scopes classes, a class of one stylesheet
module and a class of another get the same name exactly if they have the same name before and the
identifiers of the modules have hashes with the same leading digits. So two modules that have a
class in common are kept apart exactly if the numbers of their suffixes differ. -/
theorem scoped_eq_iff {d : Deps} {project : Project} {s : Stage}
    (hproject : d.project = some project) (hmodules : project.cssModules = true)
    (hs : Stage.style d = .ok s) :
    ∃ transform, s.transform = some transform ∧ ∀ m m' : Module,
      m.kind = .styleModule → m'.kind = .styleModule →
        ∃ n n', transform m = .ok n ∧ transform m' = .ok n'
          ∧ IsScoped project m n ∧ IsScoped project m' n'
          ∧ (scopeSuffix m.id = scopeSuffix m'.id ↔ scopeMark m.id = scopeMark m'.id)
          ∧ ∀ c ∈ scopedClasses project m, ∀ c' ∈ scopedClasses project m',
            c.2 = c'.2 ↔ c.1 = c'.1 ∧ scopeMark m.id = scopeMark m'.id := by
  obtain ⟨project', hproject', hs⟩ := bind_eq_ok.1 hs
  obtain rfl := Deps.needProject_eq_ok hproject hproject'
  cases hs
  refine ⟨_, rfl, fun m m' hkind hkind' => ⟨_, _, rfl, rfl, isScoped_convertStyle hmodules hkind,
    isScoped_convertStyle hmodules hkind', scopeSuffix_eq_iff, ?_⟩⟩
  rintro ⟨name, new⟩ hc ⟨name', new'⟩ hc'
  obtain ⟨-, rfl⟩ := Stylesheet.mem_classMap.1 hc
  obtain ⟨-, rfl⟩ := Stylesheet.mem_classMap.1 hc'
  exact append_scopeSuffix_inj

/-- A project that scopes classes. -/
def scopingProject : ProjectFile := { ProjectFile.empty with cssModules := true }

/-- Two modules with a class in common that are kept apart. -/
theorem scoped_eq_iff_card : ∃ project stage transform n n',
    Project.resolve "/proj" scopingProject ⟨false, [], .one⟩ = .ok project
    ∧ project.cssModules = true
    ∧ Stage.style ⟨some project, none, none, false, none, none⟩ = .ok stage
    ∧ stage.transform = some transform
    ∧ (Module.ofSource "src/Aa.less" ".a\x7b\x7d").kind = .styleModule
    ∧ (Module.ofSource "src/card.less" ".a\x7b\x7d").kind = .styleModule
    ∧ transform (Module.ofSource "src/Aa.less" ".a\x7b\x7d") = .ok n
    ∧ transform (Module.ofSource "src/card.less" ".a\x7b\x7d") = .ok n'
    ∧ n.content = "export default \x7b\n  \"a\": \"a_11yaa\",\n\x7d;\n"
    ∧ n'.content ≠ n.content := by
  have h : (Project.resolve "/proj" scopingProject ⟨false, [], .one⟩).map
      (fun p => (p.cssModules, p.pxMultiple)) = .ok (true, Binary64.ofInt 1) := by decide +kernel
  obtain ⟨project, hproject, hfields⟩ := map_eq_ok.1 h
  obtain ⟨hmodules, hmultiple⟩ := Prod.mk.inj hfields
  obtain ⟨transform, htransform, hscoped⟩ :=
    scoped_eq_iff (d := ⟨some project, none, none, false, none, none⟩) rfl hmodules rfl
  obtain ⟨n, n', hn, hn', hisScoped, hisScoped', -, -⟩ :=
    hscoped (Module.ofSource "src/Aa.less" ".a\x7b\x7d")
      (Module.ofSource "src/card.less" ".a\x7b\x7d") (by decide) (by decide)
  refine ⟨project, _, transform, n, n', hproject, hmodules, rfl, htransform, by decide, by decide,
    hn, hn', ?_, ?_⟩
  · rw [hisScoped.content, scopedClasses, responsive, hmultiple]
    decide +kernel
  · rw [hisScoped.content, hisScoped'.content, scopedClasses, scopedClasses, responsive, responsive,
      hmultiple]
    decide +kernel

/-- Two stylesheet modules with different identifiers and one suffix. -/
theorem exists_scopeSuffix_eq : ∃ id id' : Text, id ≠ id'
    ∧ (Module.ofSource id ".a\x7b\x7d").id = id ∧ (Module.ofSource id' ".a\x7b\x7d").id = id'
    ∧ (Module.ofSource id ".a\x7b\x7d").kind = .styleModule
    ∧ (Module.ofSource id' ".a\x7b\x7d").kind = .styleModule
    ∧ scopeSuffix id = scopeSuffix id' := by
  refine ⟨"src/Aa.less", "src/BB.less", by decide, by decide, by decide, by decide, by decide, ?_⟩
  -- both pairs of letters make up the number 2112
  have hhash : Fingerprint.ofText "src/Aa.less" = Fingerprint.ofText "src/BB.less" :=
    @Fingerprint.ofText_exchange "src/" ".less" 65 97 66 66 (by decide)
  rw [scopeSuffix_eq_iff, scopeMark, scopeMark, hhash]

end Content

end MiniProgram
