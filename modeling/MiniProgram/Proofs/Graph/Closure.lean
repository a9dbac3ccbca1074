import MiniProgram.Proofs.Graph.Run
import MiniProgram.Proofs.Resolver

/-!
What the import walk finds, if the resolver answers with identifiers in normal form.

The walk changes the bundle while its queue grows. What it does is said here in terms of what it
started from: every identifier has an origin, the module of the initial bundle or else the file with
that name, and a script refers to what its specifiers are resolved to. The queue is then the order
in which the references are discovered, and the bundle holds the origins with their imports.

* `exists_discovered`: a list that is closed under references and holds only what can be reached
  is the order of discovery.
* `Sound`, `Sound.step`: the invariant of the walk, and that each step preserves it.
* `complete_graph`: the queue and the result of a walk.
-/

namespace MiniProgram

namespace Graph

/-! ### Orders of discovery -/

section Discovery

variable {α : Type} [BEq α] [LawfulBEq α] {l l' start : List α} {next : α → List α} {x : α}

/-- What is discovered from a start in a number of rounds, in the order of its discovery. In each
round the references of all that was discovered before are followed, in order. -/
def discovered (next : α → List α) (start : List α) : ℕ → List α
  | 0 => start
  | n + 1 => (start ++ (discovered next start n).flatMap next).eraseDups

/-- What was discovered stays discovered. -/
lemma mem_discovered_of_le {n k : ℕ} (hk : n ≤ k) (h : x ∈ discovered next start n) :
    x ∈ discovered next start k := by
  have hgrow : ∀ n, ∀ x ∈ discovered next start n, x ∈ discovered next start (n + 1) := by
    intro n
    induction n with
    | zero => exact fun x hx => List.mem_eraseDups.2 (List.mem_append_left _ hx)
    | succ n ih =>
        intro x hx
        rcases List.mem_append.1 (List.mem_eraseDups.1 hx) with hx | hx
        · exact List.mem_eraseDups.2 (List.mem_append_left _ hx)
        · obtain ⟨y, hy, hxy⟩ := List.mem_flatMap.1 hx
          exact List.mem_eraseDups.2
            (List.mem_append_right _ (List.mem_flatMap.2 ⟨y, ih y hy, hxy⟩))
  induction k, hk using Nat.le_induction with
  | base => exact h
  | succ k _ ih => exact hgrow k x ih

/-- Whatever can be reached is discovered in some round. -/
lemma exists_mem_discovered {s : α} (hs : s ∈ start)
    (h : Relation.ReflTransGen (fun a c => c ∈ next a) s x) :
    ∃ n, x ∈ discovered next start n := by
  induction h with
  | refl => exact ⟨0, hs⟩
  | tail _ hstep ih =>
      obtain ⟨n, hn⟩ := ih
      exact ⟨n + 1, List.mem_eraseDups.2
        (List.mem_append_right _ (List.mem_flatMap.2 ⟨_, hn, hstep⟩))⟩

/-- A list that is closed under references, in the order in which they are found, begins with what
is discovered. -/
lemma isPrefix_discovered (hstart : start.Nodup)
    (horder : l = (start ++ l.flatMap next).eraseDups) (n : ℕ) :
    discovered next start n <+: l := by
  induction n with
  | zero =>
      have h := isPrefix_eraseDups (List.prefix_append start (l.flatMap next))
      rwa [← horder, eraseDups_of_nodup hstart] at h
  | succ n ih =>
      obtain ⟨t, ht⟩ := ih
      have hmore : start ++ (discovered next start n).flatMap next
          <+: start ++ l.flatMap next := by
        rw [List.prefix_append_right_inj, ← ht, List.flatMap_append]
        exact List.prefix_append _ _
      have h := isPrefix_eraseDups hmore
      rwa [← horder] at h

/-- A list without repetitions that is closed under references, in the order in which they are
found, and holds nothing out of reach, is what is discovered from some round on. -/
theorem exists_discovered (hstart : start.Nodup) (hl : l.Nodup)
    (horder : l = (start ++ l.flatMap next).eraseDups)
    (hreach : ∀ x ∈ l, ∃ s ∈ start, Relation.ReflTransGen (fun a c => c ∈ next a) s x) :
    ∃ n, ∀ k, n ≤ k → l = discovered next start k := by
  -- each element is discovered in some round, so all of them are in the last of these rounds
  have hall : ∀ part : List α, (∀ x ∈ part, x ∈ l) →
      ∃ n, ∀ x ∈ part, x ∈ discovered next start n := by
    intro part hpart
    induction part with
    | nil => exact ⟨0, by simp⟩
    | cons y part ih =>
        obtain ⟨n, hn⟩ := ih fun x hx => hpart x (by simp [hx])
        obtain ⟨s, hs, hsteps⟩ := hreach y (hpart y (by simp))
        obtain ⟨n', hn'⟩ := exists_mem_discovered hs hsteps
        refine ⟨max n n', fun x hx => ?_⟩
        rcases List.mem_cons.1 hx with rfl | hx
        · exact mem_discovered_of_le (le_max_right _ _) hn'
        · exact mem_discovered_of_le (le_max_left _ _) (hn x hx)
  obtain ⟨n, hn⟩ := hall l fun x hx => hx
  refine ⟨n, fun k hk => ?_⟩
  have hsub : l ⊆ discovered next start k := fun x hx => mem_discovered_of_le hk (hn x hx)
  exact ((isPrefix_discovered hstart horder k).eq_of_length_le (hl.subperm hsub).length_le).symm

end Discovery

/-! ### Origins -/

/-- An import as it is resolved; one that is external leads nowhere. -/
def importOf (r : Resolver) (id spec : Text) : Import := ⟨spec, (r.resolve id spec).getD []⟩

/-- A module with its imports resolved, if it is a script. -/
def linked (r : Resolver) (m : Module) : Module :=
  if m.kind = .script then
    { m with imports := (Script.scanImports m.content).map (importOf r m.id) }
  else m

/-- What imports lead to, external ones aside. -/
def resolvedIds (imports : List Import) : List Text := (imports.map (·.resolved)).filter (· ≠ [])

/-- The modules that a script refers to. -/
def links (m : Module) : List Text := if m.kind = .script then resolvedIds m.imports else []

/-- The modules that the module with an identifier refers to in a bundle. -/
def linksIn (b : Bundle) (id : Text) : List Text := ((b.get? id).map links).getD []

/-- The module that an identifier stands for: the one in the bundle, else that of the file. -/
def origin? (r : Resolver) (kindOf : Text → EntryKind) (b : Bundle) (id : Text) : Option Module :=
  (b.get? id).or <|
    match r.fs.read (r.absolute id) with
    | .ok content => some { Module.ofSource id content with entry := kindOf id }
    | .error _ => none

/-- The modules that the origin of an identifier refers to. -/
def targets (r : Resolver) (kindOf : Text → EntryKind) (b : Bundle) (id : Text) : List Text :=
  ((origin? r kindOf b id).map fun m => links (linked r m)).getD []

/-- The identifiers whose modules were inspected to the end. -/
def Moment.finished (s : Moment) : List Text :=
  match s.scan with
  | none => s.taken
  | some _ => s.taken.dropLast

/-- All references that were followed so far, in order. -/
def Moment.referred (r : Resolver) (kindOf : Text → EntryKind) (b : Bundle) (s : Moment) :
    List Text :=
  s.finished.flatMap (targets r kindOf b)
    ++ ((s.scan.map fun c => resolvedIds c.imports).getD [])

variable {r : Resolver} {kindOf : Text → EntryKind} {b : Bundle} {s s' : Moment} {id spec : Text}
  {m : Module}

lemma linked_of_kind (h : m.kind = .script) : linked r m
    = { m with imports := (Script.scanImports m.content).map (importOf r m.id) } := if_pos h

lemma linked_of_kind_ne (h : m.kind ≠ .script) : linked r m = m := if_neg h

@[simp] lemma linked_id : (linked r m).id = m.id := by
  rw [linked]
  split_ifs <;> rfl

@[simp] lemma linked_kind : (linked r m).kind = m.kind := by
  rw [linked]
  split_ifs <;> rfl

@[simp] lemma linked_content : (linked r m).content = m.content := by
  rw [linked]
  split_ifs <;> rfl

@[simp] lemma linked_entry : (linked r m).entry = m.entry := by
  rw [linked]
  split_ifs <;> rfl

lemma targets_of_kind (ho : origin? r kindOf b id = some m) (h : m.kind = .script) :
    targets r kindOf b id
      = resolvedIds ((Script.scanImports m.content).map (importOf r m.id)) := by
  rw [targets, ho, Option.map_some, Option.getD_some, links, linked_kind, if_pos h,
    linked_of_kind h]

lemma targets_of_kind_ne (ho : origin? r kindOf b id = some m) (h : m.kind ≠ .script) :
    targets r kindOf b id = [] := by
  rw [targets, ho, Option.map_some, Option.getD_some, links, linked_kind, if_neg h]

lemma resolvedIds_concat (imports : List Import) (i : Import) :
    resolvedIds (imports ++ [i])
      = resolvedIds imports ++ if i.resolved = [] then [] else [i.resolved] := by
  rw [resolvedIds, resolvedIds, List.map_append, List.filter_append]
  split_ifs with h <;> simp [h]

/-! ### The invariant -/

/-- What is known of the module under inspection after some of its specifiers were followed. -/
structure Scanned (r : Resolver) (kindOf : Text → EntryKind) (b : Bundle) (c : Scan)
    (done : List Text) : Prop where
  origin : origin? r kindOf b c.module.id = some c.module
  kind : c.module.kind = .script
  specs : Script.scanImports c.module.content = done ++ c.specs
  imports : c.imports = done.map (importOf r c.module.id)
  answered : ∀ spec ∈ done, r.resolve c.module.id spec = none → Script.isRelative spec = false

/-- What holds at every moment of a walk on which all identifiers are found in normal form. -/
structure Sound (r : Resolver) (kindOf : Text → EntryKind) (b : Bundle) (s : Moment) : Prop where
  ids : s.walk.bundle.ids = s.enqueued
  seen : ∀ id, id ∈ s.walk.seen ↔ id ∈ s.enqueued
  stored : ∀ id ∈ s.enqueued, ∃ m, origin? r kindOf b id = some m ∧ m.id = id
    ∧ s.walk.bundle.get? id = some (if id ∈ s.finished then linked r m else m)
  answered : ∀ id ∈ s.finished, ∀ m, origin? r kindOf b id = some m → m.kind = .script →
    ∀ spec ∈ Script.scanImports m.content, r.resolve id spec = none →
      Script.isRelative spec = false
  scanned : ∀ c, s.scan = some c → s.taken = s.finished ++ [c.module.id]
    ∧ ∃ done, Scanned r kindOf b c done
  order : s.enqueued = (b.ids ++ s.referred r kindOf b).eraseDups
  reached : ∀ id ∈ s.enqueued, ∃ start ∈ b.ids,
    Relation.ReflTransGen (fun a c => c ∈ targets r kindOf b a) start id

lemma Sound.nodup (h : Sound r kindOf b s) : s.enqueued.Nodup := h.ids ▸ s.walk.bundle.nodup

lemma Sound.mem_enqueued (h : Sound r kindOf b s) :
    id ∈ s.enqueued ↔ id ∈ b.ids ++ s.referred r kindOf b := by
  rw [h.order, List.mem_eraseDups]

lemma origin?_of_mem (h : b.get? id = some m) : origin? r kindOf b id = some m := by
  rw [origin?, h, Option.some_or]

/-- Of an identifier that is not in the initial bundle the origin is its file. -/
lemma origin?_of_read (hb : id ∉ b.ids) {content : Text}
    (hread : r.fs.read (r.absolute id) = .ok content) :
    origin? r kindOf b id = some { Module.ofSource id content with entry := kindOf id } := by
  rw [origin?, Bundle.get?_eq_none_iff.2 hb, Option.none_or, hread]

lemma sound_start (r : Resolver) (kindOf : Text → EntryKind) (b : Bundle) :
    Sound r kindOf b (Moment.start b) where
  ids := rfl
  seen := fun id => Iff.rfl
  stored := by
    intro id hid
    obtain ⟨m, hm⟩ := Bundle.mem_ids_iff.1 hid
    exact ⟨m, origin?_of_mem hm, (Bundle.get?_eq_some_iff.1 hm).2, hm⟩
  answered := fun id hid => by simp [Moment.finished, Moment.start] at hid
  scanned := fun c hc => by cases hc
  order := by
    have hnodup : b.ids.Nodup := b.nodup
    simp [Moment.enqueued, Moment.start, Walk.start, Moment.referred, Moment.finished,
      eraseDups_of_nodup hnodup]
  reached := fun id hid => ⟨id, hid, .refl⟩

section Take

variable {taken queue seen : List Text} {c : Bundle}

/-- An identifier that is taken stands for a module as it came from its origin. -/
lemma Sound.get?_of_take (h : Sound r kindOf b ⟨taken, none, ⟨c, id :: queue, seen⟩⟩) :
    ∃ m, origin? r kindOf b id = some m ∧ m.id = id ∧ c.get? id = some m := by
  have hnot : id ∉ taken := by
    have hnodup := h.nodup
    rw [Moment.enqueued, List.nodup_append] at hnodup
    exact fun hmem => hnodup.2.2 id hmem id (by simp) rfl
  obtain ⟨m, horigin, hid, hget⟩ := h.stored id (by simp [Moment.enqueued])
  rw [Moment.finished, if_neg hnot] at hget
  exact ⟨m, horigin, hid, hget⟩

/-- Taking the identifier of a script preserves the invariant; the script comes under inspection. -/
lemma Sound.take_script (h : Sound r kindOf b ⟨taken, none, ⟨c, id :: queue, seen⟩⟩)
    (horigin : origin? r kindOf b id = some m) (hid : m.id = id) (hkind : m.kind = .script) :
    Sound r kindOf b
      ⟨taken ++ [id], some ⟨m, [], Script.scanImports m.content⟩, ⟨c, queue, seen⟩⟩ := by
  have hsame := enqueued_take taken queue seen id (some ⟨m, [], Script.scanImports m.content⟩) c
  have hfin : (Moment.mk (taken ++ [id]) (some ⟨m, [], Script.scanImports m.content⟩)
      ⟨c, queue, seen⟩).finished = taken := by simp [Moment.finished]
  refine ⟨?_, ?_, ?_, ?_, ?_, ?_, ?_⟩
  · rw [hsame]
    exact h.ids
  · rw [hsame]
    exact h.seen
  · rw [hsame, hfin]
    exact h.stored
  · rw [hfin]
    exact h.answered
  · intro c' hc'
    cases hc'
    refine ⟨by rw [hfin, hid], [], hid ▸ horigin, hkind, rfl, rfl, by simp⟩
  · rw [hsame, h.order, Moment.referred, Moment.referred, hfin]
    simp [Moment.finished, resolvedIds]
  · rw [hsame]
    exact h.reached

/-- Taking the identifier of a module that is no script preserves the invariant; the module has
nothing to be linked and is finished at once. -/
lemma Sound.take_other (h : Sound r kindOf b ⟨taken, none, ⟨c, id :: queue, seen⟩⟩)
    (horigin : origin? r kindOf b id = some m) (hkind : m.kind ≠ .script) :
    Sound r kindOf b ⟨taken ++ [id], none, ⟨c, queue, seen⟩⟩ := by
  have hsame := enqueued_take taken queue seen id none c
  refine ⟨?_, ?_, ?_, ?_, by simp, ?_, ?_⟩
  · rw [hsame]
    exact h.ids
  · rw [hsame]
    exact h.seen
  · rw [hsame]
    intro id' hid'
    obtain ⟨m', horigin', hid₁, hget'⟩ := h.stored id' hid'
    refine ⟨m', horigin', hid₁, hget'.trans (congrArg some ?_)⟩
    by_cases heq : id' = id
    · subst heq
      cases horigin.symm.trans horigin'
      rw [linked_of_kind_ne hkind, ite_self, ite_self]
    · exact if_congr (by simp [Moment.finished, heq]) rfl rfl
  · intro id' hid' m' horigin' hkind'
    simp only [Moment.finished, List.mem_append, List.mem_singleton] at hid'
    rcases hid' with hid' | rfl
    · exact h.answered id' hid' m' horigin' hkind'
    · cases horigin.symm.trans horigin'
      exact absurd hkind' hkind
  · rw [hsame, h.order, Moment.referred, Moment.referred]
    simp [Moment.finished, targets_of_kind_ne horigin hkind]
  · rw [hsame]
    exact h.reached

/-- Taking an identifier from the queue preserves the invariant. -/
lemma Sound.take (h : Sound r kindOf b ⟨taken, none, ⟨c, id :: queue, seen⟩⟩) :
    Sound r kindOf b ⟨taken ++ [id], opened c id, ⟨c, queue, seen⟩⟩ := by
  obtain ⟨m, horigin, hid, hget⟩ := h.get?_of_take
  rw [opened, hget, Option.getD_some]
  split_ifs with hkind
  · exact h.take_script horigin hid hkind
  · exact h.take_other horigin hkind

end Take

section Follow

variable {taken specs done : List Text} {imports : List Import} {w : Walk} {found : Text}

lemma importOf_of_resolve (hres : r.resolve id spec = some found) :
    importOf r id spec = ⟨spec, found⟩ := by
  rw [importOf, hres, Option.getD_some]

/-- A specifier joins those that were followed, with the import the resolver makes of it. -/
lemma Scanned.follow (h : Scanned r kindOf b ⟨m, imports, spec :: specs⟩ done)
    (hanswer : r.resolve m.id spec = none → Script.isRelative spec = false) :
    Scanned r kindOf b ⟨m, imports ++ [importOf r m.id spec], specs⟩ (done ++ [spec]) where
  origin := h.origin
  kind := h.kind
  specs := by
    rw [h.specs]
    simp
  imports := by
    rw [List.map_append, ← h.imports]
    rfl
  answered := by
    intro spec' hspec'
    rcases List.mem_append.1 hspec' with hspec' | hspec'
    · exact h.answered spec' hspec'
    · rw [List.mem_singleton.1 hspec']
      exact hanswer

/-- What a specifier of the inspected module is resolved to is one of its targets. -/
lemma Scanned.mem_targets (h : Scanned r kindOf b ⟨m, imports, spec :: specs⟩ done)
    (hres : r.resolve m.id spec = some found) : found ∈ targets r kindOf b m.id := by
  have hspec : spec ∈ Script.scanImports m.content := by
    rw [h.specs]
    simp
  rw [targets_of_kind h.origin h.kind, resolvedIds, List.mem_filter]
  refine ⟨List.mem_map.2 ⟨_, List.mem_map_of_mem hspec, ?_⟩, ?_⟩
  · rw [importOf_of_resolve hres]
  · simpa using Resolver.ne_nil_of_resolve hres

/-- A resolved import adds what it leads to to the references. -/
lemma referred_concat (hres : r.resolve m.id spec = some found) (w' : Walk) :
    (Moment.mk taken (some ⟨m, imports ++ [importOf r m.id spec], specs⟩) w').referred r kindOf b
      = (Moment.mk taken (some ⟨m, imports, spec :: specs⟩) w).referred r kindOf b ++ [found] := by
  have hne : found ≠ [] := Resolver.ne_nil_of_resolve hres
  rw [importOf_of_resolve hres]
  simp [Moment.referred, Moment.finished, resolvedIds_concat, hne]

/-- An external specifier is followed to nothing. -/
lemma Sound.follow_external (h : Sound r kindOf b ⟨taken, some ⟨m, imports, spec :: specs⟩, w⟩)
    (hres : r.resolve m.id spec = none) (hrel : Script.isRelative spec = false) :
    Sound r kindOf b ⟨taken, some ⟨m, imports ++ [importOf r m.id spec], specs⟩, w⟩ := by
  obtain ⟨htaken, done, hdone⟩ := h.scanned _ rfl
  refine ⟨h.ids, h.seen, h.stored, h.answered, ?_, ?_, h.reached⟩
  · intro c hc
    cases hc
    exact ⟨htaken, _, hdone.follow fun _ => hrel⟩
  · rw [Moment.enqueued]
    refine h.order.trans ?_
    simp [Moment.referred, Moment.finished, resolvedIds_concat, importOf, hres]

/-- A specifier that leads to an identifier seen before adds none. -/
lemma Sound.follow_seen (h : Sound r kindOf b ⟨taken, some ⟨m, imports, spec :: specs⟩, w⟩)
    (hres : r.resolve m.id spec = some found) (hseen : found ∈ w.seen) :
    Sound r kindOf b ⟨taken, some ⟨m, imports ++ [importOf r m.id spec], specs⟩, w⟩ := by
  obtain ⟨htaken, done, hdone⟩ := h.scanned _ rfl
  refine ⟨h.ids, h.seen, h.stored, h.answered, ?_, ?_, h.reached⟩
  · intro c hc
    cases hc
    exact ⟨htaken, _, hdone.follow fun hnone => by simp [hres] at hnone⟩
  · have hmem := h.mem_enqueued.1 ((h.seen found).1 hseen)
    rw [referred_concat hres, ← List.append_assoc, eraseDups_concat_of_mem hmem]
    exact h.order

/-- A specifier that leads to a new identifier in normal form loads the module of its file. -/
lemma Sound.follow_new (h : Sound r kindOf b ⟨taken, some ⟨m, imports, spec :: specs⟩, w⟩)
    (hres : r.resolve m.id spec = some found) (hnormal : Path.normalize found = found)
    (hseen : found ∉ w.seen) {content : Text} (hread : r.fs.read (r.absolute found) = .ok content) :
    Sound r kindOf b ⟨taken, some ⟨m, imports ++ [importOf r m.id spec], specs⟩,
      { bundle := w.bundle.put { Module.ofSource found content with entry := kindOf found }
        queue := w.queue ++ [found]
        seen := found :: w.seen }⟩ := by
  obtain ⟨htaken, done, hdone⟩ := h.scanned _ rfl
  set dep : Module := { Module.ofSource found content with entry := kindOf found }
  have hid : dep.id = found := hnormal
  -- what has not been seen has never been enqueued, and so it is new to the bundle as well
  have hnot : found ∉ (Moment.mk taken (some ⟨m, imports, spec :: specs⟩) w).enqueued :=
    fun hmem => hseen ((h.seen found).2 hmem)
  have hnotids : found ∉ w.bundle.ids := fun hmem => hnot (h.ids ▸ hmem)
  have hgrow : ∀ scan bundle seen,
      (Moment.mk taken scan ⟨bundle, w.queue ++ [found], seen⟩).enqueued
        = (Moment.mk taken (some ⟨m, imports, spec :: specs⟩) w).enqueued ++ [found] := by
    simp [Moment.enqueued]
  have horigin : origin? r kindOf b found = some dep :=
    origin?_of_read (fun hmem => hnot (h.mem_enqueued.2 (List.mem_append_left _ hmem))) hread
  have hnotfin : found ∉ (Moment.mk taken (some ⟨m, imports, spec :: specs⟩) w).finished :=
    fun hmem => hnot (List.mem_append_left _ (List.mem_of_mem_dropLast hmem))
  -- identifier and module are appended: what was enqueued keeps its place and its module
  refine ⟨?_, ?_, ?_, h.answered, ?_, ?_, ?_⟩
  · rw [hgrow, ← h.ids]
    change (w.bundle.put dep).ids = _
    rw [Bundle.ids_put, hid, if_neg hnotids]
  · intro id
    rw [hgrow, List.mem_append, List.mem_singleton, ← h.seen]
    exact List.mem_cons.trans or_comm
  · intro id hmem
    rw [hgrow, List.mem_append, List.mem_singleton] at hmem
    change ∃ m', _ ∧ _ ∧ (w.bundle.put dep).get? id = _
    rw [Bundle.get?_put, hid]
    rcases hmem with hmem | rfl
    · have hother : id ≠ found := fun heq => hnot (heq ▸ hmem)
      rw [if_neg hother]
      exact h.stored id hmem
    · refine ⟨dep, horigin, hid, ?_⟩
      rw [if_pos rfl]
      exact congrArg some (if_neg hnotfin).symm
  · intro c hc
    cases hc
    exact ⟨htaken, _, hdone.follow fun hnone => by simp [hres] at hnone⟩
  · -- breadth first: the references of the scanned module end with the new identifier
    have hfresh := fun hmem => hnot (h.mem_enqueued.2 hmem)
    rw [hgrow, referred_concat hres, ← List.append_assoc, eraseDups_concat_of_not_mem hfresh,
      ← h.order]
  · intro id hmem
    rw [hgrow, List.mem_append, List.mem_singleton] at hmem
    rcases hmem with hmem | rfl
    · exact h.reached id hmem
    · -- the scanned module is reached, and this specifier leads one step on from it
      have hm : m.id ∈ (Moment.mk taken (some ⟨m, imports, spec :: specs⟩) w).enqueued := by
        refine List.mem_append_left _ ?_
        rw [htaken]
        simp
      obtain ⟨start, hstart, hsteps⟩ := h.reached m.id hm
      exact ⟨start, hstart, hsteps.tail (hdone.mem_targets hres)⟩

/-- Following a specifier preserves the invariant, if it is resolved to a normal form. -/
lemma Sound.follow {imports' : List Import} {w' : Walk}
    (h : Sound r kindOf b ⟨taken, some ⟨m, imports, spec :: specs⟩, w⟩)
    (hnormal : ∀ found, r.resolve m.id spec = some found → Path.normalize found = found)
    (hfollow : (follow r kindOf m.id (imports, w) spec).result = .ok (imports', w')) :
    Sound r kindOf b ⟨taken, some ⟨m, imports', specs⟩, w'⟩ := by
  rcases follow_eq_ok hfollow with ⟨hres, hrel, rfl, rfl⟩ | ⟨found, hres, rfl, hcase⟩
  · have himport : importOf r m.id spec = ⟨spec, []⟩ := by rw [importOf, hres, Option.getD_none]
    rw [← himport]
    exact h.follow_external hres hrel
  · rw [← importOf_of_resolve hres]
    rcases hcase with ⟨hseen, rfl⟩ | ⟨hseen, content, hread, rfl⟩
    · exact h.follow_seen hres hseen
    · exact h.follow_new hres (hnormal found hres) hseen hread

end Follow

/-- Putting the inspected module back preserves the invariant. -/
lemma Sound.close {taken : List Text} {imports : List Import} {w : Walk}
    (h : Sound r kindOf b ⟨taken, some ⟨m, imports, []⟩, w⟩) :
    Sound r kindOf b
      ⟨taken, none, { w with bundle := w.bundle.put { m with imports := imports } }⟩ := by
  obtain ⟨htaken, done, hdone⟩ := h.scanned _ rfl
  have hspecs : Script.scanImports m.content = done := by simpa using hdone.specs
  -- no specifier is left to follow, so the imports are all that the module has
  have hlinked : linked r m = { m with imports := imports } := by
    rw [linked_of_kind hdone.kind, hspecs, ← hdone.imports]
  have hm : m.id ∈ w.bundle.ids := by
    rw [h.ids]
    refine List.mem_append_left _ ?_
    rw [htaken]
    simp
  have hfin : ∀ w', (Moment.mk taken none w').finished
      = (Moment.mk taken (some ⟨m, imports, []⟩) w).finished ++ [m.id] := fun _ => htaken
  refine ⟨?_, h.seen, ?_, ?_, by simp, ?_, h.reached⟩
  · change (w.bundle.put _).ids = _
    rw [Bundle.ids_put, if_pos hm]
    exact h.ids
  · intro id hmem
    obtain ⟨m', horigin, hid, hget⟩ := h.stored id hmem
    refine ⟨m', horigin, hid, ?_⟩
    change (w.bundle.put _).get? id = _
    rw [Bundle.get?_put, hfin]
    by_cases heq : id = m.id
    · subst heq
      cases hdone.origin.symm.trans horigin
      rw [if_pos rfl, if_pos (by simp), hlinked]
    · rw [if_neg heq, hget]
      exact congrArg some (if_congr (by simp [heq]) rfl rfl)
  · intro id hmem m' horigin hkind spec hspec
    rw [hfin, List.mem_append, List.mem_singleton] at hmem
    rcases hmem with hmem | rfl
    · exact h.answered id hmem m' horigin hkind spec hspec
    · cases hdone.origin.symm.trans horigin
      rw [hspecs] at hspec
      exact hdone.answered spec hspec
  · -- what the module refers to counted as referred while it was scanned
    have hrefer : ∀ w', (Moment.mk taken none w').referred r kindOf b
        = (Moment.mk taken (some ⟨m, imports, []⟩) w).referred r kindOf b := by
      intro w'
      rw [Moment.referred, Moment.referred, hfin, List.flatMap_append]
      simp [targets_of_kind hdone.origin hdone.kind, hspecs, ← hdone.imports]
    rw [hrefer]
    exact h.order

/-- Each step of the walk preserves the invariant, if it resolves to a normal form. -/
theorem Sound.step (h : Sound r kindOf b s)
    (hnormal : ∀ m imports spec specs found, s.scan = some ⟨m, imports, spec :: specs⟩ →
      r.resolve m.id spec = some found → Path.normalize found = found)
    (hstep : Step r kindOf s s') : Sound r kindOf b s' := by
  cases hstep with
  | take => exact h.take
  | follow taken m spec specs hfollow =>
      exact h.follow (fun found hres => hnormal m _ spec specs found rfl hres) hfollow
  | close => exact h.close

/-- The invariant holds at every moment that the walk passes through. -/
theorem sound_of_passes (hnormal : ∀ found, Finds r kindOf b found → Path.normalize found = found)
    (h : Passes r kindOf b s) : Sound r kindOf b s := by
  induction h with
  | refl => exact sound_start r kindOf b
  | tail hpass hstep ih =>
      refine ih.step (fun m imports spec specs found hscan hres => ?_) hstep
      exact hnormal found ⟨_, m, imports, spec, specs, hpass, hscan, hres⟩

/-! ### The result -/

lemma origin?_of_not_mem (hb : id ∉ b.ids) (h : origin? r kindOf b id = some m) :
    ∃ content, r.fs.read (r.absolute id) = .ok content
      ∧ m = { Module.ofSource id content with entry := kindOf id } := by
  rw [origin?, Bundle.get?_eq_none_iff.2 hb, Option.none_or] at h
  cases hread : r.fs.read (r.absolute id) with
  | error e =>
      rw [hread] at h
      cases h
  | ok content =>
      rw [hread] at h
      cases h
      exact ⟨content, rfl, rfl⟩

/-- The queue only holds identifiers of the initial bundle and of files. -/
lemma Sound.mem_ids_or_isFile (h : Sound r kindOf b s) (hid : id ∈ s.enqueued) :
    id ∈ b.ids ∨ r.isFile id = true := by
  obtain ⟨m, horigin, -⟩ := h.stored id hid
  by_cases hb : id ∈ b.ids
  · exact Or.inl hb
  · obtain ⟨content, hread, -⟩ := origin?_of_not_mem hb horigin
    exact Or.inr (Resolver.isFile_iff.2 ⟨content, hread⟩)

section Final

variable (h : Sound r kindOf b s) (hscan : s.scan = none) (hqueue : s.walk.queue = [])
include h hscan hqueue

/-- At the end of the queue every module of the bundle is its origin with the imports resolved. -/
lemma Sound.origin_of_mem (hm : m ∈ s.walk.bundle.modules) :
    ∃ m₀, origin? r kindOf b m.id = some m₀ ∧ m₀.id = m.id ∧ m = linked r m₀ := by
  have hmem : m.id ∈ s.enqueued := h.ids ▸ List.mem_map_of_mem hm
  have hfin : m.id ∈ s.finished := by
    simpa [Moment.finished, hscan, Moment.enqueued, hqueue] using hmem
  obtain ⟨m₀, horigin, hid, hget⟩ := h.stored m.id hmem
  rw [if_pos hfin, Bundle.get?_eq_some_iff.2 ⟨hm, rfl⟩] at hget
  exact ⟨m₀, horigin, hid, Option.some.inj hget⟩

lemma Sound.linksIn_eq (hid : id ∈ s.walk.bundle.ids) :
    linksIn s.walk.bundle id = targets r kindOf b id := by
  obtain ⟨m, hm⟩ := Bundle.mem_ids_iff.1 hid
  obtain ⟨hmem, rfl⟩ := Bundle.get?_eq_some_iff.1 hm
  obtain ⟨m₀, horigin, -, heq⟩ := h.origin_of_mem hscan hqueue hmem
  rw [linksIn, hm, targets, horigin, Option.map_some, Option.map_some, Option.getD_some,
    Option.getD_some, ← heq]

/-- The identifiers stand in the order in which their references are found. -/
lemma Sound.ids_eq : s.walk.bundle.ids
    = (b.ids ++ s.walk.bundle.ids.flatMap (linksIn s.walk.bundle)).eraseDups := by
  have hfin : s.finished = s.walk.bundle.ids := by
    simp [Moment.finished, hscan, h.ids, Moment.enqueued, hqueue]
  have hflat : s.walk.bundle.ids.flatMap (linksIn s.walk.bundle)
      = s.walk.bundle.ids.flatMap (targets r kindOf b) := by
    rw [List.flatMap_def, List.flatMap_def]
    exact congrArg List.flatten
      (List.map_congr_left fun id hid => h.linksIn_eq hscan hqueue hid)
  have horder := h.order
  rw [← h.ids, Moment.referred, hfin, hscan, Option.map_none, Option.getD_none,
    List.append_nil] at horder
  rw [hflat]
  exact horder

lemma Sound.mem_ids_of_mem_linksIn {a c : Text} (ha : a ∈ s.walk.bundle.ids)
    (hc : c ∈ linksIn s.walk.bundle a) : c ∈ s.walk.bundle.ids := by
  rw [h.ids_eq hscan hqueue, List.mem_eraseDups]
  exact List.mem_append_right _ (List.mem_flatMap.2 ⟨a, ha, hc⟩)

lemma Sound.mem_ids_of_mem (hid : id ∈ b.ids) : id ∈ s.walk.bundle.ids := by
  rw [h.ids_eq hscan hqueue, List.mem_eraseDups]
  exact List.mem_append_left _ hid

/-- The bundle holds exactly what can be reached from the initial one. -/
lemma Sound.mem_ids_iff : id ∈ s.walk.bundle.ids ↔
    ∃ start ∈ b.ids, Relation.ReflTransGen (fun a c => c ∈ linksIn s.walk.bundle a) start id := by
  constructor
  · intro hid
    rw [h.ids] at hid
    obtain ⟨start, hstart, hsteps⟩ := h.reached id hid
    refine ⟨start, hstart, ?_⟩
    -- all that is reached is in the bundle, where the references are those of the origins
    have hboth : id ∈ s.walk.bundle.ids ∧
        Relation.ReflTransGen (fun a c => c ∈ linksIn s.walk.bundle a) start id := by
      clear hid
      induction hsteps with
      | refl => exact ⟨h.mem_ids_of_mem hscan hqueue hstart, .refl⟩
      | tail _ hstep ih =>
          rw [← h.linksIn_eq hscan hqueue ih.1] at hstep
          exact ⟨h.mem_ids_of_mem_linksIn hscan hqueue ih.1 hstep, ih.2.tail hstep⟩
    exact hboth.2
  · rintro ⟨start, hstart, hsteps⟩
    induction hsteps with
    | refl => exact h.mem_ids_of_mem hscan hqueue hstart
    | tail _ hstep ih => exact h.mem_ids_of_mem_linksIn hscan hqueue ih hstep

/-- The imports of a script are its specifiers with the answers of the resolver, and only packages
stay external. -/
lemma Sound.imports_of_mem (hm : m ∈ s.walk.bundle.modules) (hkind : m.kind = .script) :
    m.imports = (Script.scanImports m.content).map (importOf r m.id)
    ∧ ∀ i ∈ m.imports, i.resolved = [] → Script.isRelative i.specifier = false := by
  obtain ⟨m₀, horigin, -, heq⟩ := h.origin_of_mem hscan hqueue hm
  have hkind₀ : m₀.kind = .script := by rwa [heq, linked_kind] at hkind
  have himports : m.imports = (Script.scanImports m.content).map (importOf r m.id) := by
    rw [heq, linked_content, linked_id, linked_of_kind hkind₀]
  refine ⟨himports, fun i hi hempty => ?_⟩
  rw [himports] at hi
  obtain ⟨spec, hspec, rfl⟩ := List.mem_map.1 hi
  have hnone : r.resolve m.id spec = none := by
    cases hres : r.resolve m.id spec with
    | none => rfl
    | some found =>
        rw [importOf, hres, Option.getD_some] at hempty
        exact absurd hempty (Resolver.ne_nil_of_resolve hres)
  have hmem : m.id ∈ s.enqueued := h.ids ▸ List.mem_map_of_mem hm
  have hfin : m.id ∈ s.finished := by
    simpa [Moment.finished, hscan, Moment.enqueued, hqueue] using hmem
  rw [heq, linked_content] at hspec
  exact h.answered m.id hfin m₀ horigin hkind₀ spec hspec hnone

/-- A module of the initial bundle only has its imports resolved. -/
lemma Sound.eq_linked_of_mem (hm : m ∈ s.walk.bundle.modules) (hid : m.id ∈ b.ids) :
    ∃ m₀ ∈ b.modules, m = linked r m₀ := by
  obtain ⟨m₀, horigin, -, heq⟩ := h.origin_of_mem hscan hqueue hm
  obtain ⟨m', hm'⟩ := Bundle.mem_ids_iff.1 hid
  cases (origin?_of_mem hm').symm.trans horigin
  exact ⟨_, (Bundle.get?_eq_some_iff.1 hm').1, heq⟩

/-- A module that was added is that of its file, with the imports resolved. -/
lemma Sound.eq_linked_of_not_mem (hm : m ∈ s.walk.bundle.modules) (hid : m.id ∉ b.ids) :
    r.fs.read (r.absolute m.id) = .ok m.content ∧ m.entry = kindOf m.id
    ∧ m = linked r { Module.ofSource m.id m.content with entry := kindOf m.id } := by
  obtain ⟨m₀, horigin, -, heq⟩ := h.origin_of_mem hscan hqueue hm
  obtain ⟨content, hread, hfile⟩ := origin?_of_not_mem hid horigin
  have hcontent : m.content = content := by rw [heq, linked_content, hfile, Module.ofSource]
  have hentry : m₀.entry = kindOf m.id := by rw [hfile]
  refine ⟨by rw [hcontent, hread], ?_, by rw [hcontent, ← hfile, ← heq]⟩
  rw [← hentry, heq, linked_entry]

/-- What an import is resolved to is in the bundle; the imports of a module that is no script are
those it had in the initial bundle. -/
lemma Sound.resolved_of_mem (hm : m ∈ s.walk.bundle.modules) {i : Import} (hi : i ∈ m.imports)
    (hne : i.resolved ≠ []) :
    i.resolved ∈ s.walk.bundle.ids ∨ (m ∈ b.modules ∧ m.kind ≠ .script) := by
  by_cases hkind : m.kind = .script
  · refine Or.inl (h.mem_ids_of_mem_linksIn hscan hqueue (List.mem_map_of_mem hm) ?_)
    rw [linksIn, Bundle.get?_eq_some_iff.2 ⟨hm, rfl⟩, Option.map_some, Option.getD_some, links,
      if_pos hkind, resolvedIds, List.mem_filter]
    exact ⟨List.mem_map_of_mem hi, by simpa using hne⟩
  · by_cases hb : m.id ∈ b.ids
    · obtain ⟨m₀, hm₀, heq⟩ := h.eq_linked_of_mem hscan hqueue hm hb
      rw [linked_of_kind_ne (by rwa [heq, linked_kind] at hkind)] at heq
      exact Or.inr ⟨heq ▸ hm₀, hkind⟩
    · -- the module of a file has no imports before they are resolved
      obtain ⟨-, -, heq⟩ := h.eq_linked_of_not_mem hscan hqueue hm hb
      have hkind' := hkind
      rw [heq, linked_kind] at hkind'
      rw [heq, linked_of_kind_ne hkind'] at hi
      simp [Module.ofSource, Module.blank] at hi

end Final

/-! ### Two scripts that import each other -/

/-- Relative specifiers are only resolved to plain paths. -/
lemma isPlain_of_finds {found : Text}
    (hrel : ∀ content ∈ knownContents r b, ∀ spec ∈ Script.scanImports content,
      Script.isRelative spec = true) (h : Finds r kindOf b found) : Path.IsPlain found := by
  obtain ⟨source, spec, hres, ⟨content, hcontent, hspec⟩, -⟩ := exists_of_finds h
  rcases Resolver.resolve_eq_some hres with ⟨-, -, base, hbase, hmem⟩ | ⟨hpackage, -⟩
  · exact Resolver.isPlain_of_mem_candidates hbase hmem
  · rw [hrel content hcontent spec hspec] at hpackage
    cases hpackage

/-- The first of two scripts that import each other. -/
def cycleFirst : Module := .ofSource "src/a.js" "import './b';\n"

/-- The second of two scripts that import each other. -/
def cycleSecond : Module := .ofSource "src/b.js" "import './a';\n"

/-- The project that holds the two scripts. -/
def cycleResolver : Resolver :=
  ⟨.ofFiles [("/proj/src/a.js", cycleFirst.content), ("/proj/src/b.js", cycleSecond.content)],
    "/proj", []⟩

lemma scanImports_cycleFirst : Script.scanImports cycleFirst.content = [("./b" : Text)] := by
  rw [Script.scanImports, List.mergeSort_of_pairwise (by decide +kernel)]
  decide +kernel

lemma scanImports_cycleSecond : Script.scanImports cycleSecond.content = [("./a" : Text)] := by
  rw [Script.scanImports, List.mergeSort_of_pairwise (by decide +kernel)]
  decide +kernel

lemma isPlain_of_finds_cycle {found : Text}
    (h : Finds cycleResolver kindOf (.ofModules [cycleFirst]) found) : Path.IsPlain found := by
  have hknown : knownContents cycleResolver (.ofModules [cycleFirst])
      = [[], cycleFirst.content, cycleFirst.content, cycleSecond.content] := by decide +kernel
  have hempty : Script.scanImports [] = [] := by
    rw [Script.scanImports, List.mergeSort_of_pairwise (by decide +kernel)]
    decide +kernel
  refine isPlain_of_finds (fun content hcontent => ?_) h
  rw [hknown] at hcontent
  simp only [List.mem_cons, List.not_mem_nil, or_false] at hcontent
  rcases hcontent with rfl | rfl | rfl | rfl
  · simp [hempty]
  · rw [scanImports_cycleFirst]
    decide
  · rw [scanImports_cycleFirst]
    decide
  · rw [scanImports_cycleSecond]
    decide

/-- The walk from the first script adds the second one and ends. -/
lemma complete_cycle :
    (complete cycleResolver (fun _ => .none) (.ofModules [cycleFirst])).result
      = .ok (.ofModules [linked cycleResolver cycleFirst, linked cycleResolver cycleSecond]) := by
  have hfirst : linked cycleResolver cycleFirst
      = { cycleFirst with imports := [⟨"./b", "src/b.js"⟩] } := by
    rw [linked_of_kind (by decide +kernel), scanImports_cycleFirst]
    decide +kernel
  have hsecond : linked cycleResolver cycleSecond
      = { cycleSecond with imports := [⟨"./a", "src/a.js"⟩] } := by
    rw [linked_of_kind (by decide +kernel), scanImports_cycleSecond]
    decide +kernel
  -- the visit of the first script loads the second
  have hvisit : (visit cycleResolver (fun _ => .none)
      ⟨.ofModules [cycleFirst], [], ["src/a.js"]⟩ "src/a.js").result
        = .ok ⟨.ofModules [linked cycleResolver cycleFirst, cycleSecond], ["src/b.js"],
          ["src/b.js", "src/a.js"]⟩ := by
    refine visit_eq_ok.2 (Or.inr ⟨cycleFirst, [⟨"./b", "src/b.js"⟩],
      ⟨.ofModules [cycleFirst, cycleSecond], ["src/b.js"], ["src/b.js", "src/a.js"]⟩, ?_, ?_, ?_⟩)
    · rfl
    · rw [scanImports_cycleFirst]
      decide +kernel
    · rw [hfirst]
      decide +kernel
  -- the visit of the second finds the first one, which has been seen
  have hvisit' : (visit cycleResolver (fun _ => .none)
      ⟨.ofModules [linked cycleResolver cycleFirst, cycleSecond], [], ["src/b.js", "src/a.js"]⟩
        "src/b.js").result
        = .ok ⟨.ofModules [linked cycleResolver cycleFirst, linked cycleResolver cycleSecond], [],
          ["src/b.js", "src/a.js"]⟩ := by
    rw [hfirst, hsecond]
    refine visit_eq_ok.2 (Or.inr ⟨cycleSecond, [⟨"./a", "src/a.js"⟩],
      ⟨.ofModules [{ cycleFirst with imports := [⟨"./b", "src/b.js"⟩] }, cycleSecond], [],
        ["src/b.js", "src/a.js"]⟩, ?_, ?_, ?_⟩)
    · rfl
    · rw [scanImports_cycleSecond]
      decide +kernel
    · decide +kernel
  have hstart : Walk.start (.ofModules [cycleFirst])
      = ⟨.ofModules [cycleFirst], ["src/a.js"], ["src/a.js"]⟩ := by decide +kernel
  rw [complete, hstart, walk]
  simp only [hvisit]
  rw [walk]
  simp only [hvisit']
  rw [walk]
  rfl

/-! ### The import graph -/

/-- **The import graph.** Suppose that all identifiers that the resolver answers with in the course
of a walk are in normal form. Then the queue never holds an identifier twice, and only those of the
initial bundle and of files. If the walk succeeds, the imports of a script are its specifiers in
order, each with the answer of the resolver, and only packages stay external; what an import is
resolved to is in the bundle; the identifiers are those of the initial bundle and what can be
reached from them, in the order of discovery; and every module is its origin, that of the initial
bundle or the file, with its imports resolved. -/
theorem complete_graph
    (hnormal : ∀ found, Finds r kindOf b found → Path.normalize found = found) :
    (∀ s, Passes r kindOf b s → s.enqueued.Nodup
      ∧ ∀ id ∈ s.enqueued, id ∈ b.ids ∨ r.isFile id = true)
    ∧ ∀ b', (complete r kindOf b).result = .ok b' →
      (∀ m ∈ b'.modules, m.kind = .script →
        m.imports = (Script.scanImports m.content).map (importOf r m.id)
        ∧ ∀ i ∈ m.imports, i.resolved = [] → Script.isRelative i.specifier = false)
      ∧ (∀ m ∈ b'.modules, ∀ i ∈ m.imports, i.resolved ≠ [] →
        i.resolved ∈ b'.ids ∨ (m ∈ b.modules ∧ m.kind ≠ .script))
      ∧ b'.ids.Nodup ∧ b.ids <+: b'.ids
      ∧ (∀ id, id ∈ b'.ids ↔
        ∃ start ∈ b.ids, Relation.ReflTransGen (fun a c => c ∈ linksIn b' a) start id)
      ∧ (∃ n, ∀ k, n ≤ k → b'.ids = discovered (linksIn b') b.ids k)
      ∧ (∀ m ∈ b'.modules, m.id ∈ b.ids → ∃ m₀ ∈ b.modules, m = linked r m₀)
      ∧ ∀ m ∈ b'.modules, m.id ∉ b.ids →
        r.fs.read (r.absolute m.id) = .ok m.content ∧ m.entry = kindOf m.id
        ∧ m = linked r { Module.ofSource m.id m.content with entry := kindOf m.id } := by
  refine ⟨fun s hs => ?_, fun b' hb' => ?_⟩
  · have hsound := sound_of_passes hnormal hs
    exact ⟨hsound.nodup, fun id hid => hsound.mem_ids_or_isFile hid⟩
  obtain ⟨s, hs, hscan, hqueue, rfl⟩ := complete_eq_ok hb'
  have hsound := sound_of_passes hnormal hs
  have hreach : ∀ id, id ∈ s.walk.bundle.ids ↔ ∃ start ∈ b.ids,
      Relation.ReflTransGen (fun a c => c ∈ linksIn s.walk.bundle a) start id :=
    fun id => hsound.mem_ids_iff hscan hqueue
  have horder := hsound.ids_eq hscan hqueue
  have hnodup : s.walk.bundle.ids.Nodup := s.walk.bundle.nodup
  have hstart : b.ids.Nodup := b.nodup
  obtain ⟨n, hn⟩ := exists_discovered hstart hnodup horder fun id hid => (hreach id).1 hid
  exact ⟨fun m hm hkind => hsound.imports_of_mem hscan hqueue hm hkind,
    fun m hm i hi hne => hsound.resolved_of_mem hscan hqueue hm hi hne, hnodup,
    isPrefix_discovered hstart horder 0, hreach, ⟨n, hn⟩,
    fun m hm hid => hsound.eq_linked_of_mem hscan hqueue hm hid,
    fun m hm hid => hsound.eq_linked_of_not_mem hscan hqueue hm hid⟩

/-- From the first of the two scripts both are discovered, and the queue holds each once. -/
theorem complete_graph_cycle :
    (∀ s, Passes cycleResolver (fun _ => .none) (.ofModules [cycleFirst]) s → s.enqueued.Nodup)
    ∧ ∃ b', (complete cycleResolver (fun _ => .none) (.ofModules [cycleFirst])).result = .ok b'
      ∧ b'.ids = [("src/a.js" : Text), "src/b.js"]
      ∧ ∃ n, ∀ k, n ≤ k → b'.ids = discovered (linksIn b') ["src/a.js"] k := by
  have hnormal : ∀ found, Finds cycleResolver (fun _ => .none) (.ofModules [cycleFirst]) found →
      Path.normalize found = found := fun found h => (isPlain_of_finds_cycle h).normal
  obtain ⟨hqueue, hresult⟩ := complete_graph hnormal
  obtain ⟨-, -, -, -, -, hdiscovered, -⟩ := hresult _ complete_cycle
  exact ⟨fun s hs => (hqueue s hs).1, _, complete_cycle, rfl, hdiscovered⟩

end Graph

end MiniProgram
