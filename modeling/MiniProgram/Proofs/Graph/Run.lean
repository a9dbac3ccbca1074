import Mathlib.Logic.Relation
import MiniProgram.Proofs.Bundle
import MiniProgram.Proofs.Resolver
import MiniProgram.Stage.Graph

/-!
The import walk, moment by moment.

The walk takes an identifier from its queue, follows the specifiers of that module one after the
other, puts the module back with its imports, and goes on. A `Moment` holds what the walk knows
between two of these steps, together with the identifiers that were taken before, so that the whole
queue can be spoken of; the walk passes through the moments that `Step` leads to.

* `follow_eq_ok`: what following a specifier does.
* `complete_eq_ok`: a walk that succeeds has passed to a moment with an empty queue.
* `walkWithin_cases`: a walk that may be called off either is, or does all that the walk does.
* `walk_isSome_iff`: a walk has an end exactly if no endless sequence of steps leads from its start.
* `traced_of_passes`: which identifiers the queue holds, and which modules are inspected.
-/

namespace MiniProgram

namespace Outcome

variable {α β : Type}

/-- A sequence of outcomes succeeds if both its parts do. -/
lemma bind_result_eq_ok {x : Outcome α} {f : α → Outcome β} {b : β} :
    (x >>= f).result = .ok b ↔ ∃ a, x.result = .ok a ∧ (f a).result = .ok b := by
  have hbind : (x >>= f).result = x.result >>= fun a => (f a).result := by
    change (Outcome.bind x f).result = _
    rw [Outcome.bind]
    cases x.result with
    | error e => rfl
    | ok a => rfl
  rw [hbind, bind_eq_ok]

end Outcome

namespace Graph

/-! ### Moments -/

/-- A module under inspection: the imports made so far and the specifiers still to be followed. -/
structure Scan where
  module : Module
  imports : List Import
  specs : List Text

/-- A moment of a walk: the identifiers taken from the queue so far, the module under inspection if
there is one, and where the walk stands. -/
structure Moment where
  taken : List Text
  scan : Option Scan
  walk : Walk

/-- The moment before the first step. -/
def Moment.start (b : Bundle) : Moment := ⟨[], none, Walk.start b⟩

/-- Every identifier the queue has held so far, in order. -/
def Moment.enqueued (s : Moment) : List Text := s.taken ++ s.walk.queue

/-- The inspection that begins when an identifier is taken; only scripts are inspected. -/
def opened (b : Bundle) (id : Text) : Option Scan :=
  let m := (b.get? id).getD Module.blank
  if m.kind = .script then some ⟨m, [], Script.scanImports m.content⟩ else none

/-- One step of the walk. -/
inductive Step (r : Resolver) (kindOf : Text → EntryKind) : Moment → Moment → Prop
  /-- The next identifier is taken from the queue. -/
  | take (taken : List Text) (b : Bundle) (id : Text) (queue seen : List Text) :
      Step r kindOf ⟨taken, none, ⟨b, id :: queue, seen⟩⟩
        ⟨taken ++ [id], opened b id, ⟨b, queue, seen⟩⟩
  /-- The next specifier of the module under inspection is followed. -/
  | follow (taken : List Text) (m : Module) (spec : Text) (specs : List Text)
      {imports imports' : List Import} {w w' : Walk}
      (h : (follow r kindOf m.id (imports, w) spec).result = .ok (imports', w')) :
      Step r kindOf ⟨taken, some ⟨m, imports, spec :: specs⟩, w⟩
        ⟨taken, some ⟨m, imports', specs⟩, w'⟩
  /-- The module is put back with its imports. -/
  | close (taken : List Text) (m : Module) (imports : List Import) (w : Walk) :
      Step r kindOf ⟨taken, some ⟨m, imports, []⟩, w⟩
        ⟨taken, none, { w with bundle := w.bundle.put { m with imports := imports } }⟩

/-- The moments that the walk from a bundle passes through. -/
def Passes (r : Resolver) (kindOf : Text → EntryKind) (b : Bundle) (s : Moment) : Prop :=
  Relation.ReflTransGen (Step r kindOf) (Moment.start b) s

/-- The identifiers that the resolver answers with in the course of a walk. -/
def Finds (r : Resolver) (kindOf : Text → EntryKind) (b : Bundle) (found : Text) : Prop :=
  ∃ (s : Moment) (m : Module) (imports : List Import) (spec : Text) (specs : List Text),
    Passes r kindOf b s ∧ s.scan = some ⟨m, imports, spec :: specs⟩
      ∧ r.resolve m.id spec = some found

/-! ### Steps of the walk -/

variable {r : Resolver} {kindOf : Text → EntryKind} {b b' : Bundle} {id : Text}
  {imports imports' : List Import} {w w' : Walk} {m : Module} {spec : Text}

/-- What following a specifier does: a package that is not found stays external, a module that is
known is only referred to, and any other is loaded. -/
theorem follow_eq_ok (h : (follow r kindOf id (imports, w) spec).result = .ok (imports', w')) :
    (r.resolve id spec = none ∧ Script.isRelative spec = false
      ∧ imports' = imports ++ [⟨spec, []⟩] ∧ w' = w)
    ∨ (∃ found, r.resolve id spec = some found ∧ imports' = imports ++ [⟨spec, found⟩]
      ∧ ((found ∈ w.seen ∧ w' = w)
        ∨ (found ∉ w.seen ∧ ∃ content, r.fs.read (r.absolute found) = .ok content
          ∧ w' = ⟨w.bundle.put { Module.ofSource found content with entry := kindOf found },
            w.queue ++ [found], found :: w.seen⟩))) := by
  unfold follow at h
  cases hres : r.resolve id spec with
  | none =>
      simp only [hres] at h
      split at h
      · cases h
      · rename_i hrel
        cases h
        exact Or.inl ⟨rfl, by simpa using hrel, rfl, rfl⟩
  | some found =>
      simp only [hres] at h
      refine Or.inr ⟨found, rfl, ?_⟩
      split at h
      · rename_i hseen
        cases h
        exact ⟨rfl, Or.inl ⟨by simpa using hseen, rfl⟩⟩
      · rename_i hseen
        cases hread : r.fs.read (r.absolute found) with
        | error e =>
            rw [hread] at h
            cases h
        | ok content =>
            rw [hread] at h
            cases h
            exact ⟨rfl, Or.inr ⟨by simpa using hseen, content, rfl, rfl⟩⟩

/-- Following specifiers one after the other is a sequence of steps. -/
lemma steps_of_foldlM (taken : List Text) (m : Module) {specs : List Text}
    (h : (specs.foldlM (follow r kindOf m.id) (imports, w)).result = .ok (imports', w')) :
    Relation.ReflTransGen (Step r kindOf) ⟨taken, some ⟨m, imports, specs⟩, w⟩
      ⟨taken, some ⟨m, imports', []⟩, w'⟩ := by
  induction specs generalizing imports w with
  | nil =>
      cases h
      exact .refl
  | cons spec specs ih =>
      rw [List.foldlM_cons] at h
      obtain ⟨⟨imports₁, w₁⟩, hfollow, h⟩ := Outcome.bind_result_eq_ok.1 h
      exact .head (.follow taken m spec specs hfollow) (ih h)

/-- An inspection begins with all specifiers of a script, and without imports. -/
lemma opened_eq_some {c : Scan} (h : opened b id = some c) :
    ∃ m, m = (b.get? id).getD Module.blank ∧ m.kind = .script
      ∧ c = ⟨m, [], Script.scanImports m.content⟩ := by
  rw [opened] at h
  split_ifs at h with hkind
  cases h
  exact ⟨_, rfl, hkind, rfl⟩

/-- What a visit comes to: a module that is no script is passed over, a script has its specifiers
followed and is put back. -/
lemma visit_eq_ok : (visit r kindOf w id).result = .ok w' ↔
    (opened w.bundle id = none ∧ w' = w)
    ∨ ∃ m imports w₁, opened w.bundle id = some ⟨m, [], Script.scanImports m.content⟩
      ∧ ((Script.scanImports m.content).foldlM (follow r kindOf m.id) ([], w)).result
        = .ok (imports, w₁)
      ∧ w' = { w₁ with bundle := w₁.bundle.put { m with imports := imports } } := by
  rw [visit, opened]
  set m := (w.bundle.get? id).getD Module.blank
  by_cases hkind : m.kind = .script
  · rw [if_neg (not_not.2 hkind), if_pos hkind, Outcome.bind_result_eq_ok]
    constructor
    · rintro ⟨⟨imports, w₁⟩, hfold, h⟩
      cases h
      exact Or.inr ⟨m, imports, w₁, rfl, hfold, rfl⟩
    · rintro (⟨hnone, -⟩ | ⟨m', imports, w₁, hopen, hfold, rfl⟩)
      · cases hnone
      · cases hopen
        exact ⟨(imports, w₁), hfold, rfl⟩
  · rw [if_pos hkind, if_neg hkind]
    constructor
    · intro h
      cases h
      exact Or.inl ⟨rfl, rfl⟩
    · rintro (⟨-, rfl⟩ | ⟨m', imports, w₁, hopen, -⟩)
      · rfl
      · cases hopen

/-- A visit that succeeds is a sequence of steps. -/
lemma steps_of_visit (taken : List Text) {queue seen : List Text}
    (h : (visit r kindOf ⟨b, queue, seen⟩ id).result = .ok w') :
    Relation.ReflTransGen (Step r kindOf) ⟨taken, none, ⟨b, id :: queue, seen⟩⟩
      ⟨taken ++ [id], none, w'⟩ := by
  refine .head (.take taken b id queue seen) ?_
  rcases visit_eq_ok.1 h with ⟨hopen, rfl⟩ | ⟨m, imports, w₁, hopen, hfold, rfl⟩
  · rw [hopen]
  · rw [hopen]
    exact (steps_of_foldlM _ m hfold).tail (.close _ m imports w₁)

/-- From where a walk that succeeds stands, steps lead to its end. -/
lemma steps_of_walk : ∀ w o, walk r kindOf w = some o → ∀ taken b', o.result = .ok b' →
    ∃ s, Relation.ReflTransGen (Step r kindOf) ⟨taken, none, w⟩ s ∧ s.scan = none
      ∧ s.walk.queue = [] ∧ s.walk.bundle = b' := by
  refine walk.partial_correctness r kindOf _ ?_
  intro go ih w o hgo taken b' hb'
  obtain ⟨bundle, queue, seen⟩ := w
  cases queue with
  | nil =>
      cases hgo
      cases hb'
      exact ⟨_, .refl, rfl, rfl, rfl⟩
  | cons id queue =>
      simp only at hgo
      cases hvisit : (visit r kindOf ⟨bundle, queue, seen⟩ id).result with
      | error f =>
          rw [hvisit] at hgo
          cases hgo
          cases hb'
      | ok w =>
          rw [hvisit] at hgo
          obtain ⟨rest, hrest, hgo⟩ := Option.bind_eq_some_iff.1 hgo
          cases hgo
          obtain ⟨s, hsteps, hend⟩ := ih w rest hrest (taken ++ [id]) b' hb'
          exact ⟨s, (steps_of_visit taken hvisit).trans hsteps, hend⟩

lemma exists_walk_of_complete (h : (complete r kindOf b).result = .ok b') :
    ∃ o, walk r kindOf (Walk.start b) = some o ∧ o.result = .ok b' := by
  rw [complete] at h
  cases hwalk : walk r kindOf (Walk.start b) with
  | none =>
      rw [hwalk] at h
      cases h
  | some o =>
      rw [hwalk] at h
      exact ⟨o, rfl, h⟩

/-- **A walk that succeeds has passed to its end**: to a moment with nothing under inspection and
nothing left in the queue, whose bundle is the result. -/
theorem complete_eq_ok (h : (complete r kindOf b).result = .ok b') :
    ∃ s, Passes r kindOf b s ∧ s.scan = none ∧ s.walk.queue = [] ∧ s.walk.bundle = b' := by
  obtain ⟨o, hwalk, hresult⟩ := exists_walk_of_complete h
  exact steps_of_walk _ o hwalk [] b' hresult

/-! ### Walks that are called off -/

/-- A walk that may be called off either is, or does all that the walk does. -/
theorem walkWithin_cases (visits : ℕ) (w : Walk) :
    (walkWithin r kindOf visits w).result = .error .canceled
      ∨ walk r kindOf w = some (walkWithin r kindOf visits w) := by
  induction visits generalizing w with
  | zero =>
      rw [walkWithin]
      split_ifs with hqueue
      · rw [walk, hqueue]
        exact Or.inr rfl
      · exact Or.inl rfl
  | succ visits ih =>
      obtain ⟨bundle, queue, seen⟩ := w
      cases queue with
      | nil =>
          rw [walk, walkWithin]
          exact Or.inr rfl
      | cons id queue =>
          have hbind : walkWithin r kindOf (visits + 1) ⟨bundle, id :: queue, seen⟩
              = (visit r kindOf ⟨bundle, queue, seen⟩ id).bind (walkWithin r kindOf visits) := rfl
          rw [walk, hbind, Outcome.bind]
          cases hvisit : (visit r kindOf ⟨bundle, queue, seen⟩ id).result with
          | error f => exact Or.inr (by simp [hvisit])
          | ok w' =>
              rcases ih w' with hoff | hrest
              · exact Or.inl hoff
              · exact Or.inr (by simp [hvisit, hrest])

/-- A walk that succeeds was not called off. -/
lemma complete_of_completeWithin {visits : Option ℕ}
    (h : (completeWithin visits r kindOf b).result = .ok b') :
    (complete r kindOf b).result = .ok b' := by
  cases visits with
  | none => exact h
  | some visits =>
      rcases walkWithin_cases visits (Walk.start b) with hoff | hwalk
      · rw [completeWithin, hoff] at h
        cases h
      · rw [complete, hwalk]
        exact h

/-! ### The end of a walk -/

/-- No endless sequence of steps leads from a moment. -/
def Ends (r : Resolver) (kindOf : Text → EntryKind) (s : Moment) : Prop :=
  Acc (fun s' s => Step r kindOf s s') s

/-- An inspection ends if all goes to an end after it. -/
lemma ends_of_foldlM (taken : List Text) (m : Module) {specs : List Text}
    (h : ∀ imports' w', (specs.foldlM (follow r kindOf m.id) (imports, w)).result
        = .ok (imports', w') →
      Ends r kindOf
        ⟨taken, none, { w' with bundle := w'.bundle.put { m with imports := imports' } }⟩) :
    Ends r kindOf ⟨taken, some ⟨m, imports, specs⟩, w⟩ := by
  induction specs generalizing imports w with
  | nil =>
      refine Acc.intro _ fun s' hstep => ?_
      cases hstep with
      | close => exact h imports w rfl
  | cons spec specs ih =>
      refine Acc.intro _ fun s' hstep => ?_
      cases hstep with
      | follow _ _ _ _ hfollow =>
          refine ih fun imports' w' hfold => h imports' w' ?_
          rw [List.foldlM_cons]
          exact Outcome.bind_result_eq_ok.2 ⟨_, hfollow, hfold⟩

/-- If the walk has a value, its steps come to an end. -/
lemma ends_of_walk_isSome : ∀ w o, walk r kindOf w = some o →
    ∀ taken, Ends r kindOf ⟨taken, none, w⟩ := by
  refine walk.partial_correctness r kindOf _ ?_
  intro go ih w o hgo taken
  obtain ⟨bundle, queue, seen⟩ := w
  refine Acc.intro _ fun s' hstep => ?_
  cases hstep with
  | take _ _ id queue _ =>
      -- what is left of the visit to the identifier that is taken
      have hrest : ∀ w', (visit r kindOf ⟨bundle, queue, seen⟩ id).result = .ok w' →
          Ends r kindOf ⟨taken ++ [id], none, w'⟩ := by
        intro w' hvisit
        simp only [hvisit] at hgo
        obtain ⟨rest, hrest, -⟩ := Option.bind_eq_some_iff.1 hgo
        exact ih w' rest hrest _
      cases hopen : opened bundle id with
      | none => exact hrest _ (visit_eq_ok.2 (Or.inl ⟨hopen, rfl⟩))
      | some c =>
          obtain ⟨m, -, -, rfl⟩ := opened_eq_some hopen
          refine ends_of_foldlM _ _ fun imports' w' hfold => hrest _ (visit_eq_ok.2 (Or.inr ?_))
          exact ⟨m, imports', w', hopen, hfold, rfl⟩

/-- If the steps from a moment come to an end, the walk has a value there, or where the inspection
under way leads. -/
lemma walk_isSome_of_ends {s : Moment} (h : Ends r kindOf s) :
    (s.scan = none → (walk r kindOf s.walk).isSome)
    ∧ ∀ m imports specs, s.scan = some ⟨m, imports, specs⟩ → ∀ imports' w',
      (specs.foldlM (follow r kindOf m.id) (imports, s.walk)).result = .ok (imports', w') →
        (walk r kindOf
          { w' with bundle := w'.bundle.put { m with imports := imports' } }).isSome := by
  induction h with
  | intro s _ ih =>
      obtain ⟨taken, scan, w⟩ := s
      refine ⟨?_, ?_⟩
      · rintro rfl
        obtain ⟨bundle, queue, seen⟩ := w
        rw [walk]
        cases queue with
        | nil => rfl
        | cons id queue =>
            -- the next identifier is taken; a visit that fails ends the walk with a value
            have hnext := ih _ (.take taken bundle id queue seen)
            simp only
            cases hvisit : (visit r kindOf ⟨bundle, queue, seen⟩ id).result with
            | error f => rfl
            | ok w' =>
                have hrest : (walk r kindOf w').isSome := by
                  rcases visit_eq_ok.1 hvisit with ⟨hopen, rfl⟩ | ⟨m, imports, w₁, hopen, hfold,
                    rfl⟩
                  · exact hnext.1 hopen
                  · exact hnext.2 m [] _ hopen imports w₁ hfold
                obtain ⟨rest, hrest⟩ := Option.isSome_iff_exists.1 hrest
                simp [hrest]
      · rintro m imports specs rfl imports' w' hfold
        cases specs with
        | nil =>
            cases hfold
            exact (ih _ (.close taken m imports w)).1 rfl
        | cons spec specs =>
            rw [List.foldlM_cons] at hfold
            obtain ⟨⟨imports₁, w₁⟩, hfollow, hfold⟩ := Outcome.bind_result_eq_ok.1 hfold
            have hnext := ih _ (.follow taken m spec specs hfollow)
            exact hnext.2 m imports₁ specs rfl imports' w' hfold

/-- **The end of a walk**: the walk has a value exactly if no endless sequence of steps leads from
its start. -/
theorem walk_isSome_iff :
    (walk r kindOf (Walk.start b)).isSome = true ↔ Ends r kindOf (Moment.start b) := by
  constructor
  · intro h
    obtain ⟨o, ho⟩ := Option.isSome_iff_exists.1 h
    exact ends_of_walk_isSome _ o ho []
  · exact fun h => (walk_isSome_of_ends h).1 rfl

/-! ### What is inspected -/

/-- The contents that modules can have in the course of a walk. -/
def knownContents (r : Resolver) (b : Bundle) : List Text :=
  [] :: (b.modules.map (·.content) ++ r.fs.contents)

/-- What holds at every moment of a walk. An identifier that is not in normal form names no module,
so a module under inspection is one of the initial bundle, the blank one, or one that was found
under its normal form. -/
structure Traced (r : Resolver) (kindOf : Text → EntryKind) (b : Bundle) (s : Moment) : Prop where
  seen : ∀ id, id ∈ s.walk.seen ↔ id ∈ s.enqueued
  nodup : s.enqueued.Nodup
  enqueued : ∀ id ∈ s.enqueued, id ∈ b.ids ∨ Finds r kindOf b id
  modules : ∀ m ∈ s.walk.bundle.modules, m.content ∈ knownContents r b
    ∧ (m.id ∈ b.ids ∨ Path.normalize m.id = m.id)
  scanned : ∀ c, s.scan = some c → c.module.content ∈ knownContents r b
    ∧ (∃ done, Script.scanImports c.module.content = done ++ c.specs)
    ∧ (c.module.id ∈ b.ids ∨ c.module.id = []
      ∨ (Finds r kindOf b c.module.id ∧ Path.normalize c.module.id = c.module.id))

lemma traced_start (r : Resolver) (kindOf : Text → EntryKind) (b : Bundle) :
    Traced r kindOf b (Moment.start b) where
  seen := fun id => Iff.rfl
  nodup := b.nodup
  enqueued := fun id hid => Or.inl hid
  modules := fun m hm => by
    refine ⟨List.mem_cons_of_mem _ (List.mem_append_left _ (List.mem_map_of_mem hm)), Or.inl ?_⟩
    exact List.mem_map_of_mem hm
  scanned := fun c hc => by cases hc

/-- Taking an identifier does not change what the queue has held. -/
lemma enqueued_take (taken queue seen : List Text) (id : Text) (scan : Option Scan) (b : Bundle) :
    (Moment.mk (taken ++ [id]) scan ⟨b, queue, seen⟩).enqueued
      = (Moment.mk taken none ⟨b, id :: queue, seen⟩).enqueued := by
  simp [Moment.enqueued]

/-- What is known still holds when the next identifier is taken from the queue. -/
lemma Traced.take {taken queue seen : List Text}
    (h : Traced r kindOf b ⟨taken, none, ⟨b', id :: queue, seen⟩⟩) :
    Traced r kindOf b ⟨taken ++ [id], opened b' id, ⟨b', queue, seen⟩⟩ := by
  have hsame := enqueued_take taken queue seen id (opened b' id) b'
  refine ⟨hsame ▸ h.seen, hsame ▸ h.nodup, hsame ▸ h.enqueued, h.modules, fun scan hscan => ?_⟩
  obtain ⟨m, hm, -, rfl⟩ := opened_eq_some hscan
  cases hget : b'.get? id with
  | none =>
      rw [hget, Option.getD_none] at hm
      subst hm
      exact ⟨List.mem_cons_self, ⟨[], rfl⟩, Or.inr (Or.inl rfl)⟩
  | some m' =>
      rw [hget, Option.getD_some] at hm
      subst hm
      obtain ⟨hmem, rfl⟩ := Bundle.get?_eq_some_iff.1 hget
      obtain ⟨hcontent, hnormal⟩ := h.modules m hmem
      refine ⟨hcontent, ⟨[], rfl⟩, ?_⟩
      rcases h.enqueued m.id (by simp [Moment.enqueued]) with hb | hfinds
      · exact Or.inl hb
      · exact hnormal.imp_right fun hnormal => Or.inr ⟨hfinds, hnormal⟩

/-- What is known of the module under inspection still holds when one of its specifiers is done. -/
lemma Traced.scanned_tail {taken specs : List Text}
    (h : Traced r kindOf b ⟨taken, some ⟨m, imports, spec :: specs⟩, w⟩) (imports' : List Import) :
    ∀ c, some (Scan.mk m imports' specs) = some c → c.module.content ∈ knownContents r b
      ∧ (∃ done, Script.scanImports c.module.content = done ++ c.specs)
      ∧ (c.module.id ∈ b.ids ∨ c.module.id = []
        ∨ (Finds r kindOf b c.module.id ∧ Path.normalize c.module.id = c.module.id)) := by
  obtain ⟨hcontent, ⟨done, hdone⟩, hid⟩ := h.scanned _ rfl
  intro c hc
  cases hc
  exact ⟨hcontent, ⟨done ++ [spec], by simpa using hdone⟩, hid⟩

/-- What is known still holds when a module that is found for the first time is loaded. -/
lemma Traced.load {taken specs : List Text} {found content : Text}
    (hpass : Passes r kindOf b ⟨taken, some ⟨m, imports, spec :: specs⟩, w⟩)
    (h : Traced r kindOf b ⟨taken, some ⟨m, imports, spec :: specs⟩, w⟩)
    (hres : r.resolve m.id spec = some found) (hseen : found ∉ w.seen)
    (hread : r.fs.read (r.absolute found) = .ok content) (imports' : List Import) :
    Traced r kindOf b ⟨taken, some ⟨m, imports', specs⟩,
      ⟨w.bundle.put { Module.ofSource found content with entry := kindOf found },
        w.queue ++ [found], found :: w.seen⟩⟩ := by
  refine ⟨fun id => ?_, ?_, fun id hmem => ?_, fun m' hm' => ?_, h.scanned_tail imports'⟩
  · rw [Moment.enqueued, ← List.append_assoc, List.mem_append, List.mem_singleton]
    exact List.mem_cons.trans (or_comm.trans (or_congr_left (h.seen id)))
  · rw [Moment.enqueued, ← List.append_assoc]
    refine h.nodup.append (List.nodup_singleton found) ?_
    rw [List.disjoint_singleton]
    exact fun hmem => hseen ((h.seen found).2 hmem)
  · rw [Moment.enqueued, ← List.append_assoc, List.mem_append, List.mem_singleton] at hmem
    rcases hmem with hmem | rfl
    · exact h.enqueued id hmem
    · exact Or.inr ⟨_, m, _, spec, specs, hpass, rfl, hres⟩
  · rcases Bundle.eq_or_mem_of_mem_put hm' with rfl | hm'
    · refine ⟨List.mem_cons_of_mem _ (List.mem_append_right _ ?_),
        Or.inr (Path.normalize_idem found)⟩
      exact FileSystem.mem_contents hread
    · exact h.modules m' hm'

/-- What is known still holds when the module under inspection is put back with its imports. -/
lemma Traced.close {taken : List Text} (h : Traced r kindOf b ⟨taken, some ⟨m, imports, []⟩, w⟩) :
    Traced r kindOf b
      ⟨taken, none, { w with bundle := w.bundle.put { m with imports := imports } }⟩ := by
  obtain ⟨hcontent, -, hid⟩ := h.scanned _ rfl
  refine ⟨h.seen, h.nodup, h.enqueued, fun m' hm' => ?_, by simp⟩
  rcases Bundle.eq_or_mem_of_mem_put hm' with rfl | hm'
  · refine ⟨hcontent, ?_⟩
    rcases hid with hb | hblank | ⟨-, hnormal⟩
    · exact Or.inl hb
    · refine Or.inr ?_
      change Path.normalize m.id = m.id
      rw [hblank]
      rfl
    · exact Or.inr hnormal
  · exact h.modules m' hm'

/-- Each step of the walk preserves what is known of its moments. -/
lemma Traced.step {s s' : Moment} (hpass : Passes r kindOf b s) (h : Traced r kindOf b s)
    (hstep : Step r kindOf s s') : Traced r kindOf b s' := by
  cases hstep with
  | take taken c id queue seen => exact h.take
  | follow taken m spec specs hfollow =>
      rcases follow_eq_ok hfollow with ⟨-, -, rfl, rfl⟩ | ⟨found, hres, rfl, hcase⟩
      · exact ⟨h.seen, h.nodup, h.enqueued, h.modules, h.scanned_tail _⟩
      · rcases hcase with ⟨-, rfl⟩ | ⟨hseen, content, hread, rfl⟩
        · exact ⟨h.seen, h.nodup, h.enqueued, h.modules, h.scanned_tail _⟩
        · exact h.load hpass hres hseen hread _
  | close taken m imports w => exact h.close

theorem traced_of_passes {s : Moment} (h : Passes r kindOf b s) : Traced r kindOf b s := by
  induction h with
  | refl => exact traced_start r kindOf b
  | tail hpass hstep ih => exact ih.step hpass hstep

/-- What is found answers a specifier in one of the known contents, seen from a module of the
initial bundle, the blank one, or one that was found before. -/
lemma exists_of_finds {found : Text} (h : Finds r kindOf b found) :
    ∃ source spec, r.resolve source spec = some found
      ∧ (∃ content ∈ knownContents r b, spec ∈ Script.scanImports content)
      ∧ (source ∈ b.ids ∨ source = []
        ∨ (Finds r kindOf b source ∧ Path.normalize source = source)) := by
  obtain ⟨s, m, imports, spec, specs, hpass, hscan, hres⟩ := h
  obtain ⟨hcontent, ⟨done, hdone⟩, hid⟩ := (traced_of_passes hpass).scanned _ hscan
  refine ⟨m.id, spec, hres, ⟨m.content, hcontent, ?_⟩, hid⟩
  rw [hdone]
  simp

end Graph

end MiniProgram
