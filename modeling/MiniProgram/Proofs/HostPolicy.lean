import MiniProgram.HostPolicy
import MiniProgram.Proofs.Keyed
import MiniProgram.Proofs.Text.Order

/-!
What the three policies for unknown props have in common.

A platform misses a component or a prop that it does not know (`misses`). The policies read the same
markup and meet the same misses in the same order; they differ in what a miss leads to and in
whether it leaves a name to be passed through.

* `apply_eq_report`: **reading markup is reporting its misses**, whatever the policy.
* `mem_hosts_iff`: which host components are listed, and with which names.
* `hosts_congr`: the list depends on the tags and props as sets only.
* `policies_agree`: strict refuses what the others warn of, and where it does not, all three agree.
-/

namespace MiniProgram

namespace HostPolicy

open Script (Usage)

/-! ### Misses -/

/-- A component or a prop of a component that a platform does not know. -/
inductive Miss where
  | component (name : Text)
  | prop (component prop : Text)
deriving DecidableEq, Repr

/-- Whether a prop is neither kept by the runtime nor one of the component's. -/
def isUnknown (c : Component) (prop : Text) : Bool :=
  !(reserved.contains prop || (c.lookup? prop).isSome)

/-- What a platform misses about a prop of a component. -/
def missesOfProp (c : Component) (prop : Text) : List Miss :=
  if isUnknown c prop then [.prop c.name prop] else []

/-- What a platform misses about one opening tag. -/
def missesOf (platform : Platform) (u : Usage) : List Miss :=
  match platform.component? u.component with
  | some c => u.props.flatMap (missesOfProp c)
  | none => [.component u.component]

/-- What a platform misses about some opening tags, in their order. -/
def misses (platform : Platform) (usages : List Usage) : List Miss :=
  usages.flatMap (missesOf platform)

/-- The failure with which a miss ends a build under the strict policy. -/
def Miss.failure (platform : Platform) : Miss → Failure
  | component name =>
    .of .unknownHostComponent
      ("unknown host component: " ++ (name ++ " is not supported on " ++ platform.name))
  | prop c q =>
    .of .unknownHostProp
      ("unknown host component prop: " ++ c ++ "." ++ q ++ " on " ++ platform.name)

/-- The warning to which a miss leads under the other policies. -/
def Miss.warning (p : HostPolicy) (module : Text) : Miss → Diagnostic
  | component name =>
    .warning Diagnostic.unknownHostComponent module
      (name ++ " is not supported on " ++ p.platform.name)
  | prop c q =>
    .warning Diagnostic.unknownHostProp module
      (c ++ " has no prop " ++ q ++ " on " ++ p.platform.name
        ++ match p.unknown with
          | .passthrough =>
            ", passing it through as " ++ Casing.native p.platform.bindingMarker q
          | _ => ", dropping it")

/-- A value, reached past some misses: under the strict policy the first of them is a failure, under
the others each is a warning. -/
def report {α : Type} (p : HostPolicy) (module : Text) (ms : List Miss) (a : α) : Outcome α :=
  match p.unknown, ms with
  | .strict, m :: _ => .fail (m.failure p.platform)
  | .strict, [] => .ok a
  | _, ms => ⟨ms.map (Miss.warning p module), .ok a⟩

variable {α σ : Type} {p : HostPolicy} {module : Text} {ms ms' : List Miss}

lemma report_nil (p : HostPolicy) (module : Text) (a : α) : p.report module [] a = .ok a := by
  obtain ⟨platform, unknown⟩ := p
  cases unknown <;> rfl

lemma report_of_ne_strict (h : p.unknown ≠ .strict) (ms : List Miss) (a : α) :
    p.report module ms a = ⟨ms.map (Miss.warning p module), .ok a⟩ := by
  obtain ⟨platform, unknown⟩ := p
  cases unknown with
  | strict => exact absurd rfl h
  | drop => rfl
  | passthrough => rfl

/-- Misses met one after the other are reported together. -/
lemma report_bind (p : HostPolicy) (module : Text) (ms ms' : List Miss) (a : σ) (f : σ → α) :
    (p.report module ms a >>= fun a => p.report module ms' (f a))
      = p.report module (ms ++ ms') (f a) := by
  by_cases h : p.unknown = .strict
  · obtain ⟨platform, unknown⟩ := p
    obtain rfl : unknown = .strict := h
    cases ms with
    | nil =>
        change Outcome.bind _ _ = _
        simp [Outcome.bind, report_nil, Outcome.ok, Outcome.of]
    | cons m ms => rfl
  · simp only [report_of_ne_strict h, List.map_append]
    rfl

/-- Steps that report what they miss, one after the other. -/
lemma foldlM_report {step : σ → α → Outcome σ} {missed : α → List Miss} {next : σ → α → σ}
    (h : ∀ s a, step s a = p.report module (missed a) (next s a)) (as : List α) (s : σ) :
    as.foldlM step s = p.report module (as.flatMap missed) (as.foldl next s) := by
  induction as generalizing s with
  | nil => exact (report_nil p module s).symm
  | cons a as ih =>
      rw [List.foldlM_cons, h, List.flatMap_cons, List.foldl_cons]
      simp only [ih]
      exact p.report_bind module _ _ (next s a) fun s => as.foldl next s

/-! ### Reading markup -/

variable {platform : Platform} {c : Component} {prop name native : Text} {ps : Passed}
  {us us' : List Usage}

/-- The props passed through so far, with one more prop of a component. -/
def nextProp (p : HostPolicy) (c : Component) (ps : Passed) (prop : Text) : Passed :=
  if isUnknown c prop && p.unknown = .passthrough then
    pass c.name (Casing.native p.platform.bindingMarker prop) ps
  else ps

/-- The props passed through so far, with those of one more opening tag. -/
def nextUsage (p : HostPolicy) (ps : Passed) (u : Usage) : Passed :=
  match p.platform.component? u.component with
  | some c => u.props.foldl (p.nextProp c) (note c.name ps)
  | none => ps

/-- The props passed through by some opening tags. -/
def passed (p : HostPolicy) (us : List Usage) : Passed := us.foldl p.nextUsage []

/-- The host components that some opening tags render. -/
def hosts (p : HostPolicy) (us : List Usage) : List HostUsage :=
  ((p.passed us).mergeSort fun a b => Text.le a.1 b.1).map fun (c, natives) =>
    ⟨c, Text.sortUnique natives⟩

lemma applyProp_eq (p : HostPolicy) (module : Text) (c : Component) (ps : Passed) (prop : Text) :
    p.applyProp module c ps prop
      = p.report module (missesOfProp c prop) (p.nextProp c ps prop) := by
  obtain ⟨platform, unknown⟩ := p
  by_cases h : (reserved.contains prop || (c.lookup? prop).isSome) = true
  · have hknown : isUnknown c prop = false := by
      rw [isUnknown, h]
      rfl
    rw [applyProp, if_pos h, missesOfProp, nextProp, hknown]
    exact (report_nil _ module ps).symm
  · have hunknown : isUnknown c prop = true := by
      rw [isUnknown, Bool.eq_false_iff.2 h]
      rfl
    rw [applyProp, if_neg h, missesOfProp, nextProp, hunknown]
    cases unknown with
    | strict => rfl
    | drop => rfl
    | passthrough => simp [report, Miss.warning]

lemma component?_name (h : platform.component? name = some c) : c.name = name := by
  simpa using List.find?_some h

lemma applyUsage_eq (p : HostPolicy) (module : Text) (ps : Passed) (u : Usage) :
    p.applyUsage module ps u
      = p.report module (missesOf p.platform u) (p.nextUsage ps u) := by
  rw [applyUsage, missesOf, nextUsage]
  cases p.platform.component? u.component with
  | some c => exact foldlM_report (p.applyProp_eq module c) u.props (note c.name ps)
  | none =>
      obtain ⟨platform, unknown⟩ := p
      cases unknown <;> rfl

/-- **Reading markup is reporting its misses**, whatever the policy. -/
theorem apply_eq_report (p : HostPolicy) (module : Text) (us : List Usage) :
    p.apply module us = p.report module (misses p.platform us) (p.hosts us) := by
  rw [apply, foldlM_report (p.applyUsage_eq module)]
  have hlast := p.report_bind module (misses p.platform us) [] (p.passed us) fun ps =>
    (ps.mergeSort fun a b => Text.le a.1 b.1).map fun (c, natives) =>
      (⟨c, Text.sortUnique natives⟩ : HostUsage)
  simp only [report_nil, List.append_nil] at hlast
  exact hlast

/-! ### What is listed -/

/-- The names that are passed through to a component. -/
def Passes (ps : Passed) (c native : Text) : Prop := ∃ natives, (c, natives) ∈ ps ∧ native ∈ natives

/-- The components that are noted. -/
def keys (ps : Passed) : List Text := ps.map (·.1)

lemma mem_keys_note {d : Text} : d ∈ keys (note name ps) ↔ d ∈ keys ps ∨ d = name := by
  rw [note]
  split_ifs with h
  · have hmem : name ∈ keys ps := by simpa [keys] using h
    exact ⟨Or.inl, fun hd => hd.elim id fun hd => hd ▸ hmem⟩
  · simp [keys]

lemma nodup_keys_note (h : (keys ps).Nodup) : (keys (note name ps)).Nodup := by
  rw [note]
  split_ifs with hany
  · exact h
  · exact nodup_map_append_singleton_iff.2 ⟨h, not_any_key_iff.1 hany⟩

lemma passes_note {d : Text} : Passes (note name ps) d native ↔ Passes ps d native := by
  rw [note]
  split_ifs
  · exact Iff.rfl
  · simp [Passes, or_and_right, exists_or]

lemma keys_pass : keys (pass name native ps) = keys ps := by
  rw [keys, pass, List.map_map]
  refine List.map_congr_left fun entry _ => ?_
  dsimp only [Function.comp]
  split_ifs <;> rfl

lemma passes_pass {d n : Text} :
    Passes (pass name native ps) d n ↔ Passes ps d n ∨ d ∈ keys ps ∧ d = name ∧ n = native := by
  constructor
  · rintro ⟨natives, hmem, hn⟩
    obtain ⟨⟨e, ns⟩, he, heq⟩ := List.mem_map.1 hmem
    dsimp only at heq
    split_ifs at heq with hname <;> cases heq
    · rcases List.mem_append.1 hn with hn | hn
      · exact Or.inl ⟨ns, he, hn⟩
      · exact Or.inr ⟨List.mem_map_of_mem he, hname, List.mem_singleton.1 hn⟩
    · exact Or.inl ⟨_, he, hn⟩
  · have hpass : ∀ ns, (d, ns) ∈ ps →
        (d, if d = name then ns ++ [native] else ns) ∈ pass name native ps := by
      intro ns hns
      refine List.mem_map.2 ⟨(d, ns), hns, ?_⟩
      dsimp only
      split_ifs <;> rfl
    rintro (⟨ns, hns, hn⟩ | ⟨hd, rfl, rfl⟩)
    · refine ⟨_, hpass ns hns, ?_⟩
      split_ifs
      · exact List.mem_append_left _ hn
      · exact hn
    · obtain ⟨⟨e, ns⟩, hns, he⟩ := List.mem_map.1 hd
      obtain rfl : e = d := he
      exact ⟨_, hpass ns hns, by simp⟩

/-- What is noted after some tags with some misses: each component once that was rendered, and the
names passed through to it. -/
structure Noted (p : HostPolicy) (ps : Passed) (rendered : Text → Prop) (ms : List Miss) :
    Prop where
  nodup : (keys ps).Nodup
  mem_keys_iff : ∀ d, d ∈ keys ps ↔ rendered d
  passes_iff : ∀ d n, Passes ps d n ↔ p.unknown = .passthrough
    ∧ ∃ prop, .prop d prop ∈ ms ∧ Casing.native p.platform.bindingMarker prop = n

namespace Noted

variable {rendered : Text → Prop}

lemma start (p : HostPolicy) : p.Noted [] (fun _ => False) [] := by
  refine ⟨List.nodup_nil, fun d => by simp [keys], fun d n => ?_⟩
  simp [Passes]

/-- A prop is passed through if the component does not know it and the policy says so. -/
lemma nextProp (h : p.Noted ps rendered ms) (hc : rendered c.name) (prop : Text) :
    p.Noted (p.nextProp c ps prop) rendered (ms ++ missesOfProp c prop) := by
  rw [HostPolicy.nextProp, missesOfProp]
  by_cases hunknown : isUnknown c prop = true
  · rw [if_pos hunknown]
    -- passed through under its native name, or only missed
    by_cases hpolicy : p.unknown = .passthrough
    · rw [if_pos (by simp [hunknown, hpolicy])]
      refine ⟨by rw [keys_pass]; exact h.nodup, fun d => ?_, fun d n => ?_⟩
      · rw [keys_pass]
        exact h.mem_keys_iff d
      · have hnew : (d ∈ keys ps ∧ d = c.name
            ∧ n = Casing.native p.platform.bindingMarker prop)
            ↔ d = c.name ∧ Casing.native p.platform.bindingMarker prop = n := by
          rw [h.mem_keys_iff]
          constructor
          · exact fun ⟨_, hd, hn⟩ => ⟨hd, hn.symm⟩
          · rintro ⟨rfl, rfl⟩
            exact ⟨hc, rfl, rfl⟩
        rw [passes_pass, h.passes_iff, hnew]
        simp only [hpolicy, true_and, List.mem_append, List.mem_singleton, Miss.prop.injEq,
          or_and_right, exists_or, and_assoc, exists_and_left, exists_eq_left]
    · rw [if_neg (by simp [hpolicy])]
      refine ⟨h.nodup, h.mem_keys_iff, fun d n => ?_⟩
      simp [h.passes_iff, hpolicy]
  · rw [if_neg hunknown, if_neg (by simp [hunknown]), List.append_nil]
    exact h

/-- The props of one tag. -/
lemma foldl_nextProp (hc : rendered c.name) (props : List Text)
    (h : p.Noted ps rendered ms) :
    p.Noted (props.foldl (p.nextProp c) ps) rendered (ms ++ props.flatMap (missesOfProp c)) := by
  induction props generalizing ps ms with
  | nil => simpa using h
  | cons prop props ih =>
      rw [List.foldl_cons, List.flatMap_cons, ← List.append_assoc]
      exact ih (h.nextProp hc prop)

/-- A tag is noted under its component, if the platform has it. -/
lemma nextUsage (h : p.Noted ps rendered ms) (u : Usage) :
    p.Noted (p.nextUsage ps u)
      (fun d => rendered d ∨ (p.platform.component? d).isSome ∧ u.component = d)
      (ms ++ missesOf p.platform u) := by
  rw [HostPolicy.nextUsage, missesOf]
  cases hcomponent : p.platform.component? u.component with
  | some c =>
      obtain hname : c.name = u.component := component?_name hcomponent
      refine foldl_nextProp (Or.inr ⟨by simp [hname, hcomponent], hname.symm⟩) u.props
        ⟨nodup_keys_note h.nodup, fun d => ?_, fun d n => passes_note.trans (h.passes_iff d n)⟩
      rw [mem_keys_note, h.mem_keys_iff, hname]
      refine or_congr_right ⟨?_, fun hd => hd.2.symm⟩
      rintro rfl
      exact ⟨by simp [hcomponent], rfl⟩
  | none =>
      refine ⟨h.nodup, fun d => ?_, fun d n => ?_⟩
      · rw [h.mem_keys_iff]
        refine ⟨Or.inl, fun hd => hd.elim id ?_⟩
        rintro ⟨hsome, rfl⟩
        simp [hcomponent] at hsome
      · simp [h.passes_iff]

/-- All tags, one after the other. -/
lemma foldl_nextUsage (us : List Usage) (h : p.Noted ps rendered ms) :
    p.Noted (us.foldl p.nextUsage ps)
      (fun d => rendered d ∨ (p.platform.component? d).isSome ∧ ∃ u ∈ us, u.component = d)
      (ms ++ misses p.platform us) := by
  induction us generalizing ps ms rendered with
  | nil => simpa [misses] using h
  | cons u us ih =>
      have hrest := ih (h.nextUsage u)
      rw [List.foldl_cons, misses, List.flatMap_cons, ← List.append_assoc]
      refine ⟨hrest.nodup, fun d => (hrest.mem_keys_iff d).trans ?_, hrest.passes_iff⟩
      simp only [List.exists_mem_cons_iff, and_or_left, or_assoc]

end Noted

lemma noted_passed (p : HostPolicy) (us : List Usage) :
    p.Noted (p.passed us)
      (fun d => (p.platform.component? d).isSome ∧ ∃ u ∈ us, u.component = d)
      (misses p.platform us) := by
  have h := (Noted.start p).foldl_nextUsage us
  simp only [false_or, List.nil_append] at h
  exact h

/-- The host components are listed by their names, each once. -/
lemma pairwise_hosts (p : HostPolicy) (us : List Usage) :
    (p.hosts us).Pairwise fun a b => a.component < b.component := by
  rw [hosts, List.pairwise_map]
  exact Text.pairwise_lt_mergeSort_key _ (p.noted_passed us).nodup

/-- **What is listed**: the components that are rendered and that the platform has, each with the
names passed through to it, in ascending order. -/
lemma mem_hosts_iff {h : HostUsage} :
    h ∈ p.hosts us ↔ (p.platform.component? h.component).isSome
      ∧ (∃ u ∈ us, u.component = h.component) ∧ h.passthrough.Pairwise (· < ·)
      ∧ ∀ n, n ∈ h.passthrough ↔ p.unknown = .passthrough
        ∧ ∃ prop, .prop h.component prop ∈ misses p.platform us
          ∧ Casing.native p.platform.bindingMarker prop = n := by
  have hnoted := p.noted_passed us
  have hthrough : ∀ c natives, (c, natives) ∈ p.passed us → ∀ n, n ∈ natives
      ↔ Passes (p.passed us) c n := by
    intro c natives hmem n
    refine ⟨fun hn => ⟨natives, hmem, hn⟩, ?_⟩
    rintro ⟨natives', hmem', hn⟩
    have := List.inj_on_of_nodup_map hnoted.nodup hmem' hmem rfl
    rwa [(Prod.mk.inj this).2] at hn
  rw [hosts, List.mem_map]
  simp only [List.mem_mergeSort]
  constructor
  · rintro ⟨⟨c, natives⟩, hmem, rfl⟩
    have hkey := (hnoted.mem_keys_iff c).1 (List.mem_map_of_mem hmem)
    refine ⟨hkey.1, hkey.2, Text.pairwise_sortUnique natives, fun n => ?_⟩
    rw [Text.mem_sortUnique, hthrough c natives hmem, hnoted.passes_iff]
  · rintro ⟨hknown, hrendered, hsorted, hmem⟩
    have hkey := (hnoted.mem_keys_iff h.component).2 ⟨hknown, hrendered⟩
    obtain ⟨⟨c, natives⟩, hentry, hc⟩ := List.mem_map.1 hkey
    obtain rfl : c = h.component := hc
    refine ⟨_, hentry, ?_⟩
    have hsame : Text.sortUnique natives = h.passthrough := by
      refine Text.eq_of_pairwise_lt (Text.pairwise_sortUnique natives) hsorted fun n => ?_
      rw [Text.mem_sortUnique, hthrough _ natives hentry, hnoted.passes_iff, hmem]
    rw [hsame]

/-! ### The same markup -/

/-- Opening tags that render the same components with the same props, whatever their order and
however often. -/
structure SameTags (us us' : List Usage) : Prop where
  components : ∀ c, (∃ u ∈ us, u.component = c) ↔ ∃ u ∈ us', u.component = c
  props : ∀ c prop, (∃ u ∈ us, u.component = c ∧ prop ∈ u.props)
    ↔ ∃ u ∈ us', u.component = c ∧ prop ∈ u.props

/-- Tags in another order or number, with their props in another order or number. -/
lemma SameTags.of_forall
    (h : ∀ u ∈ us, ∃ u' ∈ us', u'.component = u.component ∧ u.props ⊆ u'.props)
    (h' : ∀ u' ∈ us', ∃ u ∈ us, u.component = u'.component ∧ u'.props ⊆ u.props) :
    SameTags us us' := by
  refine ⟨fun c => ⟨?_, ?_⟩, fun c prop => ⟨?_, ?_⟩⟩
  · rintro ⟨u, hu, rfl⟩
    obtain ⟨u', hu', hc, -⟩ := h u hu
    exact ⟨u', hu', hc⟩
  · rintro ⟨u', hu', rfl⟩
    obtain ⟨u, hu, hc, -⟩ := h' u' hu'
    exact ⟨u, hu, hc⟩
  · rintro ⟨u, hu, rfl, hprop⟩
    obtain ⟨u', hu', hc, hprops⟩ := h u hu
    exact ⟨u', hu', hc, hprops hprop⟩
  · rintro ⟨u', hu', rfl, hprop⟩
    obtain ⟨u, hu, hc, hprops⟩ := h' u' hu'
    exact ⟨u, hu, hc, hprops hprop⟩

lemma mem_misses_iff {d : Text} :
    .prop d prop ∈ misses platform us
      ↔ ∃ c, platform.component? d = some c ∧ isUnknown c prop = true
        ∧ ∃ u ∈ us, u.component = d ∧ prop ∈ u.props := by
  have hone : ∀ u : Usage, Miss.prop d prop ∈ missesOf platform u
      ↔ ∃ c, platform.component? u.component = some c ∧ c.name = d
        ∧ isUnknown c prop = true ∧ prop ∈ u.props := by
    intro u
    rw [missesOf]
    cases platform.component? u.component with
    | none => simp
    | some c =>
        simp only [List.mem_flatMap, missesOfProp, Option.some.injEq, exists_eq_left']
        constructor
        · rintro ⟨q, hq, hmem⟩
          split_ifs at hmem with hunknown
          · obtain ⟨rfl, rfl⟩ := Miss.prop.inj (List.mem_singleton.1 hmem)
            exact ⟨rfl, hunknown, hq⟩
          · cases hmem
        · rintro ⟨rfl, hunknown, hq⟩
          exact ⟨prop, hq, by rw [if_pos hunknown]; exact List.mem_singleton_self _⟩
  rw [misses, List.mem_flatMap]
  simp only [hone]
  constructor
  · rintro ⟨u, hu, c, hc, rfl, hunknown, hprop⟩
    have hname := component?_name hc
    exact ⟨c, hname ▸ hc, hunknown, u, hu, hname.symm, hprop⟩
  · rintro ⟨c, hc, hunknown, u, hu, rfl, hprop⟩
    exact ⟨u, hu, c, hc, component?_name hc, hunknown, hprop⟩

/-- What is listed depends on the tags and their props as sets only. -/
lemma hosts_congr (h : SameTags us us') : p.hosts us = p.hosts us' := by
  refine Text.eq_of_pairwise_key _ (p.pairwise_hosts us) (p.pairwise_hosts us') fun host => ?_
  simp only [mem_hosts_iff, mem_misses_iff, h.components, h.props]

/-- Where nothing is missed, nothing is passed through. -/
lemma hosts_of_misses_eq_nil (h : misses platform us = []) (unknown unknown' : UnknownProps) :
    hosts ⟨platform, unknown⟩ us = hosts ⟨platform, unknown'⟩ us := by
  refine Text.eq_of_pairwise_key _ (pairwise_hosts _ us) (pairwise_hosts _ us) fun host => ?_
  simp [mem_hosts_iff, h]

/-- **The policies agree.** On every platform and for all opening tags: the strict policy refuses
them exactly if the others warn; what it does not refuse, all policies list alike and without a
warning. The others warn of the same misses, in the order of the tags, and what they list is the
same for tags that come in another order or number, with props in another order or number. -/
theorem policies_agree (platform : Platform) (module : Text) (us : List Usage) :
    ((∃ f, (apply ⟨platform, .strict⟩ module us).result = .error f)
      ↔ (apply ⟨platform, .drop⟩ module us).diagnostics ≠ [])
    ∧ (∀ hosts, (apply ⟨platform, .strict⟩ module us).result = .ok hosts →
      ∀ unknown, apply ⟨platform, unknown⟩ module us = .ok hosts)
    ∧ ((apply ⟨platform, .drop⟩ module us).diagnostics.length
      = (apply ⟨platform, .passthrough⟩ module us).diagnostics.length)
    ∧ ∀ unknown ≠ UnknownProps.strict,
      (apply ⟨platform, unknown⟩ module us).diagnostics
        = (us.flatMap (missesOf platform)).map (Miss.warning ⟨platform, unknown⟩ module)
      ∧ ∀ us', SameTags us us' → ∃ hosts,
        (apply ⟨platform, unknown⟩ module us).result = .ok hosts
        ∧ (apply ⟨platform, unknown⟩ module us').result = .ok hosts := by
  have hlenient : ∀ unknown ≠ UnknownProps.strict, ∀ us, apply ⟨platform, unknown⟩ module us
      = ⟨(misses platform us).map (Miss.warning ⟨platform, unknown⟩ module),
        .ok (hosts ⟨platform, unknown⟩ us)⟩ := by
    intro unknown hne us
    rw [apply_eq_report, report_of_ne_strict hne]
  have hdrop := hlenient .drop (by decide) us
  have hpass := hlenient .passthrough (by decide) us
  refine ⟨?_, ?_, ?_, fun unknown hne => ⟨?_, fun us' hsame => ?_⟩⟩
  · rw [hdrop, apply_eq_report]
    cases misses platform us with
    | nil => simp [report, Outcome.ok, Outcome.of]
    | cons m ms => simp [report, Outcome.fail, Outcome.of]
  · intro hosts hstrict unknown
    rw [apply_eq_report] at hstrict ⊢
    dsimp only at hstrict ⊢
    cases hmisses : misses platform us with
    | nil =>
        rw [hmisses, report_nil] at hstrict
        rw [report_nil, hosts_of_misses_eq_nil hmisses unknown .strict]
        exact congrArg Outcome.of hstrict
    | cons m ms =>
        rw [hmisses] at hstrict
        cases hstrict
  · rw [hdrop, hpass, List.length_map, List.length_map]
  · rw [hlenient unknown hne]
    rfl
  · refine ⟨_, congrArg Outcome.result (hlenient unknown hne us), ?_⟩
    rw [hosts_congr hsame]
    exact congrArg Outcome.result (hlenient unknown hne us')

/-- A platform with one component. -/
def textPlatform : Platform :=
  ⟨"mini", "bind", ".axml", [], [⟨"Text", "text", [⟨"selectable", "selectable", false⟩]⟩]⟩

/-- Tags with a prop and a component that the platform misses. -/
def textTags : List Usage :=
  [⟨"Text", ["key", "onLongTap", "selectable"]⟩, ⟨"Map", []⟩, ⟨"Text", ["onLongTap"]⟩]

/-- The same tags in another order and number. -/
def textTagsAgain : List Usage := [⟨"Map", []⟩, ⟨"Text", ["selectable", "onLongTap", "key"]⟩]

theorem policies_agree_text :
    misses textPlatform textTags
        = [.prop "Text" "onLongTap", .component "Map", .prop "Text" "onLongTap"]
      ∧ (∃ f, (apply ⟨textPlatform, .strict⟩ "page.tsx" textTags).result = .error f)
      ∧ SameTags textTags textTagsAgain
      ∧ (apply ⟨textPlatform, .passthrough⟩ "page.tsx" textTagsAgain).result
        = .ok [⟨"Text", ["bindlongtap"]⟩] := by
  obtain ⟨hstrict, -, -, hlenient⟩ := policies_agree textPlatform "page.tsx" textTags
  have hsame : SameTags textTags textTagsAgain := .of_forall (by decide) (by decide)
  obtain ⟨hosts, hhosts, hagain⟩ :=
    (hlenient .passthrough (by decide)).2 textTagsAgain hsame
  have hlisted : (apply ⟨textPlatform, .passthrough⟩ "page.tsx" textTags).result
      = .ok [⟨"Text", ["bindlongtap"]⟩] := by decide +kernel
  refine ⟨by decide, hstrict.2 (by decide +kernel), hsame, ?_⟩
  rw [hagain, ← hhosts, hlisted]

end HostPolicy

end MiniProgram
