import MiniProgram.Proofs.Keyed
import MiniProgram.Proofs.Script.Wrapper
import MiniProgram.Proofs.Text.Replace

/-!
Hoisting the calls of a script.

Each specifier that a script requires is imported once, under a binding with the number of
specifiers that are named before it. The calls are replaced by the bindings of their specifiers, and
nothing else of the script is changed.

* `calledSpecs`: the specifiers of the calls, as often as they are named.
* `specBinding_of_first`: a specifier gets its number where it is named first.
* `foldlM_exportStep`: the exports of names, or the first of them that cannot be exported.
* `Hoists`, `exists_hoists`: **what a wrapped script is made of**, and when none is made.
-/

namespace MiniProgram

namespace Script

open Search (Stretch)

variable {source spec spec' : Text}

/-! ### Bindings -/

/-- The specifiers of the calls of a script, one for each call. -/
def calledSpecs (source : Text) : List Text :=
  (Search.found requirePattern source).map (·.spec)

lemma requiredSpecs_eq (source : Text) :
    requiredSpecs source = (calledSpecs source).eraseDups := by
  rw [requiredSpecs, calledSpecs, Search.found, List.map_map]
  rfl

lemma nodup_requiredSpecs (source : Text) : (requiredSpecs source).Nodup := nodup_eraseDups _

lemma mem_requiredSpecs : spec ∈ requiredSpecs source ↔ spec ∈ calledSpecs source := by
  rw [requiredSpecs_eq, List.mem_eraseDups]

/-- The binding of a specifier of a script. -/
def specBinding (source spec : Text) : Text :=
  requireBinding ((requiredSpecs source).idxOf spec)

lemma requireBinding_injective : Function.Injective requireBinding := fun _ _ h =>
  Text.ofNat_injective (List.append_cancel_left h)

/-- Specifiers of calls have the same binding only if they are the same. -/
lemma specBinding_eq_iff (h : spec ∈ calledSpecs source) :
    specBinding source spec = specBinding source spec' ↔ spec = spec' := by
  rw [specBinding, specBinding, requireBinding_injective.eq_iff]
  exact List.idxOf_inj (mem_requiredSpecs.2 h)

/-- A specifier gets its number where it is named first: as many specifiers are named before. -/
lemma specBinding_of_first {before behind : List Text}
    (h : calledSpecs source = before ++ spec :: behind) (hfirst : spec ∉ before) :
    specBinding source spec = requireBinding before.eraseDups.length := by
  have hnew : spec ∉ before.eraseDups := mt List.mem_eraseDups.1 hfirst
  have hrest : (spec :: behind).removeAll before
      = spec :: behind.removeAll before := by
    simp [List.removeAll, hfirst]
  rw [specBinding, requiredSpecs_eq, h, List.eraseDups_append, hrest, List.eraseDups_cons,
    List.idxOf_append_of_notMem hnew, List.idxOf_cons_self, Nat.add_zero]

/-! ### The header -/

/-- The line that imports a specifier under a binding. -/
def hoistLine (binding spec : Text) : Text :=
  "import " ++ binding ++ " from " ++ Text.quote spec ++ ";\n"

/-- The header holds one line for each specifier, with its binding. -/
lemma header_requiredSpecs (source : Text) :
    header (requiredSpecs source) 0
      = (requiredSpecs source).flatMap fun spec => hoistLine (specBinding source spec) spec := by
  conv_rhs => rw [← List.zipIdx_map_fst 0 (requiredSpecs source), List.flatMap_map]
  refine List.flatMap_congr fun ⟨spec, n⟩ hmem => ?_
  obtain ⟨hn, hspec⟩ := List.mem_zipIdx' hmem
  have hindex : (requiredSpecs source).idxOf spec = n := by
    rw [hspec]
    exact (nodup_requiredSpecs source).idxOf_getElem n hn
  rw [specBinding, hindex]
  rfl

/-! ### The exports -/

/-- Whether a name cannot be exported: it is no identifier, nor does it stand for the default. -/
def isBadExport (name : Text) : Bool := name ≠ ("default" : Text) && !isIdentifier name

/-- The line that exports a name; the default export is there already. -/
def exportLine (name : Text) : Text :=
  if name = ("default" : Text) then []
  else "export var " ++ name ++ " = __default." ++ name ++ ";\n"

/-- The exports with one name more, which is exported by its line or not at all. -/
def exportStep (out name : Text) : Except BadExportName Text :=
  if isBadExport name then .error ⟨name⟩ else .ok (out ++ exportLine name)

lemma exportNames_eq_foldlM (names : List Text) :
    exportNames names = names.foldlM exportStep [] := by
  rw [exportNames]
  congr 1
  funext out name
  by_cases hdefault : name = ("default" : Text)
  · simp [exportStep, isBadExport, exportLine, hdefault]
  · cases hname : isIdentifier name <;>
      simp [exportStep, isBadExport, exportLine, hdefault, hname]

lemma foldlM_exportStep (names : List Text) (out : Text) :
    names.foldlM exportStep out
      = match names.find? isBadExport with
        | some name => .error ⟨name⟩
        | none => .ok (out ++ names.flatMap exportLine) := by
  induction names generalizing out with
  | nil => rw [List.flatMap_nil, List.append_nil]; rfl
  | cons name names ih =>
      rw [List.foldlM_cons, List.find?_cons, List.flatMap_cons, exportStep]
      cases isBadExport name with
      | true => rfl
      | false =>
          rw [← List.append_assoc]
          exact ih (out ++ exportLine name)

/-! ### The wrapped script -/

/-- What stands behind the script in a wrapped one: the default export and the exports of names, on
lines of their own. -/
def closing (body : Text) (names : List Text) : Text :=
  (if Text.endsWith body "\n" then [] else ("\n" : Text))
    ++ ("var __default = module.exports;\n" ++ ("export default __default;\n"
    ++ names.flatMap exportLine))

/-- **A script with its calls hoisted**: the specifiers that are imported, in their order, the
binding of each, and the script with the calls replaced. -/
structure Hoists (source : Text) (specs : List Text) (binding : Text → Text) (body : Text) :
    Prop where
  /-- Each specifier is imported once. -/
  nodup : specs.Nodup
  /-- What is imported are the specifiers of the calls. -/
  mem_iff : ∀ spec, spec ∈ specs ↔ spec ∈ calledSpecs source
  /-- A specifier that is named first is imported first. -/
  ordered : specs.Pairwise fun spec spec' =>
    (calledSpecs source).idxOf spec < (calledSpecs source).idxOf spec'
  /-- Two calls have the same binding only if they name the same specifier. -/
  binding_eq_iff : ∀ spec ∈ calledSpecs source, ∀ spec' ∈ calledSpecs source,
    binding spec = binding spec' ↔ spec = spec'
  /-- A binding has the number of the specifiers that are named before its own. -/
  numbered : ∀ {before spec behind}, calledSpecs source = before ++ spec :: behind →
    spec ∉ before → binding spec = requireBinding before.eraseDups.length
  /-- The binding of its specifier stands in the place of each call, and all else is kept. -/
  replaced : ∃ stretches rest,
    Stretch.toEdits 0 stretches
        = (Search.hits requirePattern source).map (Search.editOf fun q => binding q.spec)
      ∧ Stretch.source stretches rest = source ∧ Stretch.target stretches rest = body

lemma hoists_bindCalls (source : Text) :
    Hoists source (requiredSpecs source) (specBinding source) (bindCalls source) where
  nodup := nodup_requiredSpecs source
  mem_iff := fun _ => mem_requiredSpecs
  ordered := by
    rw [requiredSpecs_eq]
    exact pairwise_idxOf_eraseDups _
  binding_eq_iff := fun _ hspec _ _ => specBinding_eq_iff hspec
  numbered := specBinding_of_first
  replaced := by
    refine Search.exists_stretches_replace (fun before t n q h => ?_) _ source
    obtain ⟨-, text, rest, rfl, rfl, hcovers⟩ := requirePattern_eq_some.1 h
    exact ⟨List.length_pos_iff.2 hcovers.ne_nil, by simp⟩

/-- **What a wrapped script is made of**: one import for each specifier that is required, the
preamble, the script with its calls replaced, and the exports. None is made exactly if some name
cannot be exported, and then the first such name is reported. -/
theorem exists_hoists (source : Text) :
    ∃ specs binding body, Hoists source specs binding body ∧ ∀ names,
      wrapCommonJS source names
        = match names.find? isBadExport with
          | some name => .error ⟨name⟩
          | none => .ok ((specs.flatMap fun spec => hoistLine (binding spec) spec)
              ++ (preamble ++ (body ++ closing body names))) := by
  refine ⟨_, _, _, hoists_bindCalls source, fun names => ?_⟩
  have hexports := foldlM_exportStep names []
  rw [← exportNames_eq_foldlM] at hexports
  rw [wrapCommonJS, hexports]
  cases names.find? isBadExport with
  | some name => rfl
  | none =>
      rw [← header_requiredSpecs]
      simp only [preamble, closing, header, importLine, List.append_assoc]
      rfl

end Script

end MiniProgram
