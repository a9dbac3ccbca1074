import MiniProgram.Proofs.Text.Order
import MiniProgram.Report

/-!
No recorded problem is lost in the printed report.

The problems of a report come in the order in which they arose, those of one module between those of
others, and a detail may be recorded many times. Printed, they stand module by module.

* `Group`: what is printed of one module, and its lines.
* `Group.Tells`: a group holds all that was recorded of its module, with nothing lost or made up.
* `renderModule_eq`, `tells_groupOf`: the problems of one module are printed as such a group.
* `renderProblems_tells_all`: **the problems are printed as one such group for each module.**
-/

namespace MiniProgram

namespace Report

/-! ### Groups -/

/-- What is printed of one module: its messages, and its details with the number of their
occurrences. -/
structure Group where
  module : Text
  messages : List Text
  details : List (Text × ℕ)

/-- The details recorded of a module, in the order in which they were recorded. -/
def detailsOf (module : Text) (problems : List Problem) : List Text :=
  (problems.filter (·.module = module)).flatMap (·.details)

namespace Group

/-- The line of a module; the empty one stands for the build as a whole. -/
def headerLine (mark module : Text) : Text :=
  "  " ++ mark ++ " " ++ (if module = [] then ("(build)" : Text) else module) ++ "\n"

/-- The line of a message. -/
def messageLine (message : Text) : Text := "    " ++ message ++ "\n"

/-- A number of occurrences as it is shown; a single one is not. -/
def countText : ℕ → Text
  | 1 => []
  | n => " (" ++ Text.ofNat n ++ " occurrences)"

/-- The line of a detail. -/
def detailLine (row : Text × ℕ) : Text := "      • " ++ row.1 ++ countText row.2 ++ "\n"

/-- A group as it is printed: its module, then its messages, then its details. -/
def print (mark : Text) (g : Group) : Text :=
  headerLine mark g.module ++ g.messages.flatMap messageLine ++ g.details.flatMap detailLine

/-- A group holds all that was recorded of its module: every message once and in its place, and
every detail once, in the order in which they were first seen, with the number of its
occurrences. -/
structure Tells (problems : List Problem) (g : Group) : Prop where
  messages : g.messages = (problems.filter (·.module = g.module)).map (·.message)
  nodup : (g.details.map Prod.fst).Nodup
  mem_iff : ∀ d, d ∈ g.details.map Prod.fst ↔ d ∈ detailsOf g.module problems
  firstSeen : (g.details.map Prod.fst).Pairwise fun d d' =>
    (detailsOf g.module problems).idxOf d < (detailsOf g.module problems).idxOf d'
  count : ∀ row ∈ g.details, row.2 = (detailsOf g.module problems).count row.1
  total : (g.details.map Prod.snd).sum = (detailsOf g.module problems).length

end Group

/-! ### The problems of one module -/

variable {mark module : Text} {problems : List Problem}

/-- The group of a module. -/
def groupOf (problems : List Problem) (module : Text) : Group where
  module := module
  messages := (problems.filter (·.module = module)).map (·.message)
  details := (detailsOf module problems).eraseDups.map fun d =>
    (d, (detailsOf module problems).count d)

/-- A detail is shown with its count from two occurrences on. -/
lemma countOccurrences_eq (details : List Text) :
    countOccurrences details
      = details.eraseDups.map fun d => d ++ Group.countText (details.count d) := by
  refine List.map_congr_left fun d hd => ?_
  have hpos : 0 < details.count d := List.count_pos_iff.2 (List.mem_eraseDups.1 hd)
  dsimp only
  split_ifs with hcount
  · rw [Group.countText]
    · simp only [List.append_assoc]
    · omega
  · have hone : details.count d = 1 := by omega
    rw [hone, Group.countText, List.append_nil]

lemma renderModule_eq (mark module : Text) (problems : List Problem) :
    renderModule mark module (problems.filter (·.module = module))
      = (groupOf problems module).print mark := by
  have hdetails : (countOccurrences (detailsOf module problems)).flatMap
        (fun d => ("      • " : Text) ++ d ++ ("\n" : Text))
      = (groupOf problems module).details.flatMap Group.detailLine := by
    rw [countOccurrences_eq, groupOf, List.flatMap_map, List.flatMap_map]
    simp only [Group.detailLine, List.append_assoc]
  have hmessages : (problems.filter (·.module = module)).flatMap
        (fun p => Group.messageLine p.message)
      = (groupOf problems module).messages.flatMap Group.messageLine := by
    rw [groupOf, List.flatMap_map]
  rw [Group.print, ← hdetails, ← hmessages]
  rfl

lemma tells_groupOf (problems : List Problem) (module : Text) :
    (groupOf problems module).Tells problems := by
  have hkeys : (groupOf problems module).details.map Prod.fst
      = (detailsOf module problems).eraseDups := by
    rw [groupOf, List.map_map]
    exact List.map_id _
  refine ⟨rfl, ?_, fun d => ?_, ?_, fun row hrow => ?_, ?_⟩
  · rw [hkeys]
    exact nodup_eraseDups _
  · rw [hkeys]
    exact List.mem_eraseDups
  · rw [hkeys]
    exact pairwise_idxOf_eraseDups _
  · obtain ⟨d, -, rfl⟩ := List.mem_map.1 hrow
    rfl
  · have hcounts : (groupOf problems module).details.map Prod.snd
        = (detailsOf module problems).eraseDups.map (detailsOf module problems).count := by
      rw [groupOf, List.map_map]
      rfl
    rw [hcounts]
    exact sum_count_eraseDups _

/-! ### All problems -/

/-- **The problems are printed module by module**: one group for each module that has a problem, the
modules in ascending order, and each group holds all that was recorded of its module. Taken together
the groups hold every message as often as it was recorded. -/
theorem renderProblems_tells_all (mark : Text) (problems : List Problem) :
    ∃ groups : List Group,
      renderProblems mark problems = groups.flatMap (Group.print mark)
      ∧ (groups.map (·.module)).Pairwise (· < ·)
      ∧ (∀ module, module ∈ groups.map (·.module) ↔ ∃ p ∈ problems, p.module = module)
      ∧ (∀ g ∈ groups, g.Tells problems)
      ∧ (groups.flatMap fun g => g.messages.map fun message => (g.module, message)).Perm
          (problems.map fun p => (p.module, p.message)) := by
  have hmodules : ((Text.sortUnique (problems.map (·.module))).map (groupOf problems)).map
      (·.module) = Text.sortUnique (problems.map (·.module)) := by
    rw [List.map_map]
    exact List.map_id _
  refine ⟨(Text.sortUnique (problems.map (·.module))).map (groupOf problems), ?_, ?_, ?_, ?_, ?_⟩
  · rw [renderProblems, List.flatMap_map]
    exact List.flatMap_congr fun module _ => renderModule_eq mark module problems
  · rw [hmodules]
    exact Text.pairwise_sortUnique _
  · intro module
    rw [hmodules, Text.mem_sortUnique, List.mem_map]
  · intro g hg
    obtain ⟨module, -, rfl⟩ := List.mem_map.1 hg
    exact tells_groupOf problems module
  · -- every problem falls into the group of its module and into no other
    have hkeys : ∀ p ∈ problems, p.module ∈ Text.sortUnique (problems.map (·.module)) :=
      fun p hp => Text.mem_sortUnique.2 (List.mem_map_of_mem hp)
    have hperm := perm_flatMap_filter (Text.nodup_sortUnique _) hkeys
    refine List.Perm.trans (List.Perm.of_eq ?_) (hperm.map fun p => (p.module, p.message))
    rw [List.map_flatMap, List.flatMap_map]
    refine List.flatMap_congr fun module _ => ?_
    rw [groupOf, List.map_map]
    refine List.map_congr_left fun p hp => ?_
    have hmodule : p.module = module := by simpa using (List.mem_filter.1 hp).2
    rw [Function.comp_apply, hmodule]

end Report

end MiniProgram
