import MiniProgram.Proofs.Report.Problems
import MiniProgram.Proofs.Text.Phrase

/-!
The verdict of a printed report.

A report tells its failure by three things: a step that did not succeed, an error, and a flag. The
short rendering looks at the steps and the flag, the long one at the flag alone. They agree where
the flag is set whenever one of the steps did not succeed, and the recording functions see to that.

* `Flagged`, `Flagged.foldl_add`, `Flagged.addStep`: the flag covers the steps.
* `given`: the texts a report is made of that come from outside, beside its own words.
* `exists_lead`: **either rendering ends with the verdict of the flag** and the output directory,
  and what comes before has no phrase of a verdict but in a given text.
* `completeWords_infix_iff`, `failureWords_infix_iff`: which phrase is printed.
-/

namespace MiniProgram

namespace Report

/-! ### The flag -/

/-- A report is flagged as a failure if one of its steps did not succeed. -/
def Flagged (r : Report) : Prop := ∀ s ∈ r.steps, s.succeeded = false → r.failed = true

variable {r : Report} {times : Times}

lemma flagged_of_steps_eq_nil (h : r.steps = []) : r.Flagged := by
  intro s hs
  rw [h] at hs
  cases hs

lemma Flagged.add (h : r.Flagged) (d : Diagnostic) : (r.add d).Flagged := by
  rw [Report.add]
  cases d.severity with
  | error => exact fun _ _ _ => rfl
  | warning => exact h

lemma Flagged.foldl_add (h : r.Flagged) (ds : List Diagnostic) :
    (ds.foldl Report.add r).Flagged := by
  induction ds generalizing r with
  | nil => exact h
  | cons d ds ih => exact ih (h.add d)

lemma Flagged.addStep (h : r.Flagged) (name : Text) (error : Option Text) :
    (r.addStep name error).Flagged := by
  intro s hs hfailed
  rw [Report.addStep] at hs ⊢
  rcases List.mem_append.1 hs with hs | hs
  · simp [h s hs hfailed]
  · obtain rfl := List.mem_singleton.1 hs
    cases error with
    | none => cases hfailed
    | some e => simp

/-! ### Phrases -/

/-- The words of the verdict on a build that succeeded. -/
def completeWords : Text := "Build complete in"

/-- The words of the verdict on a build that failed. -/
def failureWords : Text := "Build failed after"

/-- A phrase that is found in the words of a report only where it is meant: it begins with a letter
that they do not use elsewhere, and goes on within a line. -/
structure IsPhrase (w : Text) : Prop where
  head : ∃ w', w = 'B'.toUInt8 :: w'
  line : Byte.newline ∉ w
  colon : ':'.toUInt8 ∉ w
  paren : '('.toUInt8 ∉ w
  last : w.getLast? ≠ some Byte.space

lemma isPhrase_completeWords : IsPhrase completeWords :=
  ⟨⟨_, rfl⟩, by decide, by decide, by decide, by decide⟩

lemma isPhrase_failureWords : IsPhrase failureWords :=
  ⟨⟨_, rfl⟩, by decide, by decide, by decide, by decide⟩

namespace IsPhrase

variable {w t u : Text}

lemma ne_nil (hw : IsPhrase w) : w ≠ [] := by
  obtain ⟨w', rfl⟩ := hw.head
  exact List.cons_ne_nil _ _

/-- The phrase does not begin in a part without its first letter. -/
lemma infix_append_iff (hw : IsPhrase w) (ht : 'B'.toUInt8 ∉ t) : w <:+: t ++ u ↔ w <:+: u := by
  obtain ⟨w', rfl⟩ := hw.head
  exact Text.cons_infix_append_iff ht

lemma not_infix (hw : IsPhrase w) (ht : 'B'.toUInt8 ∉ t) : ¬ w <:+: t := by
  obtain ⟨w', rfl⟩ := hw.head
  exact fun h => ht (h.subset List.mem_cons_self)

/-- A line of a report: a part without the first letter of the phrase, then a text. -/
lemma linesWithout (hw : IsPhrase w) (ht : 'B'.toUInt8 ∉ t) (hu : ¬ w <:+: u) :
    Text.LinesWithout w (t ++ u ++ "\n") :=
  .of_line hw.ne_nil hw.line fun h => hu ((hw.infix_append_iff ht).1 h)

/-- A line of a report in words of its own. -/
lemma linesWithout_own (hw : IsPhrase w) (ht : 'B'.toUInt8 ∉ t) : Text.LinesWithout w (t ++ "\n") :=
  .of_line hw.ne_nil hw.line (hw.not_infix ht)

end IsPhrase

/-- The texts of a report that come from outside: times, the output directory, what the steps are
called, how long they took and how they failed, and what the problems say. -/
def given (times : Times) (r : Report) : List Text :=
  times none :: r.outputDir
    :: (r.steps.flatMap fun s => [s.error, s.name ++ " " ++ times (some s)])
    ++ (r.errors ++ r.warnings).flatMap fun p => p.module :: p.message :: p.details

/-! ### What comes before the verdict -/

variable {w : Text}

lemma letter_notMem_ofNat (n : ℕ) : 'B'.toUInt8 ∉ Text.ofNat n := fun h =>
  absurd (Text.isDigit_of_mem_ofNat h) (by decide)

lemma letter_notMem_ofInt (i : ℤ) : 'B'.toUInt8 ∉ Text.ofInt i := by
  rw [Text.ofInt]
  split_ifs
  · rw [List.mem_cons, not_or]
    exact ⟨by decide, letter_notMem_ofNat _⟩
  · exact letter_notMem_ofNat _

/-- The line of the counts, after a part without the letter. -/
lemma linesWithout_counts (hw : IsPhrase w) {t : Text} (ht : 'B'.toUInt8 ∉ t) (r : Report) :
    Text.LinesWithout w (t ++ r.counts) := by
  have hline : t ++ r.counts
      = t ++ Text.ofInt r.pages ++ " pages, " ++ Text.ofInt r.modules ++ " modules" ++ "\n" := by
    simp only [counts, List.append_assoc]
    rfl
  rw [hline]
  refine hw.linesWithout_own ?_
  simp only [List.mem_append, not_or]
  exact ⟨⟨⟨⟨ht, letter_notMem_ofInt _⟩, by decide⟩, letter_notMem_ofInt _⟩, by decide⟩

/-- A number of occurrences makes no phrase of a detail. -/
lemma not_infix_append_countText (hw : IsPhrase w) {d : Text} (hd : ¬ w <:+: d) (n : ℕ) :
    ¬ w <:+: d ++ Group.countText n := by
  by_cases hn : n = 1
  · rwa [hn, Group.countText, List.append_nil]
  · have hletter : 'B'.toUInt8 ∉ Text.ofNat n ++ (" occurrences)" : Text) := by
      rw [List.mem_append, not_or]
      exact ⟨letter_notMem_ofNat n, by decide⟩
    have hsplit : d ++ Group.countText n
        = (d ++ [Byte.space]) ++ '('.toUInt8 :: (Text.ofNat n ++ (" occurrences)" : Text)) := by
      rw [Group.countText]
      · simp only [List.append_assoc]
        rfl
      · exact hn
    rw [hsplit, Text.infix_append_cons_iff hw.paren,
      Text.infix_append_singleton_iff hw.ne_nil hw.last, not_or]
    exact ⟨hd, hw.not_infix hletter⟩

/-- The lines of some problems have a phrase only from a module, a message or a detail. -/
lemma linesWithout_renderProblems (hw : IsPhrase w) {mark : Text} (hmark : 'B'.toUInt8 ∉ mark)
    {problems : List Problem}
    (h : ∀ p ∈ problems, ∀ t ∈ p.module :: p.message :: p.details, ¬ w <:+: t) :
    Text.LinesWithout w (renderProblems mark problems) := by
  refine .flatMap hw.ne_nil hw.line fun module hmodule => ?_
  obtain ⟨p, hp, rfl⟩ := List.mem_map.1 (Text.mem_sortUnique.1 hmodule)
  have htells := tells_groupOf problems p.module
  rw [renderModule_eq, Group.print]
  refine .append hw.line (.append hw.line ?_ ?_) ?_
  · have hlead : 'B'.toUInt8 ∉ ("  " : Text) ++ mark ++ (" " : Text) := by
      simp only [List.mem_append, not_or]
      exact ⟨⟨by decide, hmark⟩, by decide⟩
    refine hw.linesWithout hlead ?_
    split_ifs
    · exact hw.not_infix (by decide)
    · exact h p hp _ (by simp [groupOf])
  · refine .flatMap hw.ne_nil hw.line fun message hmessage => ?_
    rw [htells.messages] at hmessage
    obtain ⟨q, hq, rfl⟩ := List.mem_map.1 hmessage
    exact hw.linesWithout (by decide) (h q (List.mem_filter.1 hq).1 _ (by simp))
  · refine .flatMap hw.ne_nil hw.line fun row hrow => ?_
    have hrow := (htells.mem_iff _).1 (List.mem_map_of_mem hrow)
    obtain ⟨q, hq, hdetail⟩ := List.mem_flatMap.1 hrow
    rw [Group.detailLine, List.append_assoc _ row.1]
    refine hw.linesWithout (by decide) (not_infix_append_countText hw ?_ row.2)
    exact h q (List.mem_filter.1 hq).1 _ (by simp [hdetail])

/-- The verdict by the flag. -/
def verdict (times : Times) (r : Report) : Transcript :=
  if r.failed then failure times else complete times

/-- Lines on one stream. -/
lemma all_out (t : Text) : (Console.out t).all = t := by
  rw [Transcript.all, Console.out, List.flatMap_singleton]

lemma all_err (t : Text) : (Console.err t).all = t := by
  rw [Transcript.all, Console.err, List.flatMap_singleton]

lemma all_append (t u : Transcript) : Transcript.all (t ++ u) = t.all ++ u.all :=
  List.flatMap_append

lemma not_infix_of_step (hgiven : ∀ t ∈ r.given times, ¬ w <:+: t) {s : Step} (hs : s ∈ r.steps) :
    ¬ w <:+: s.name ∧ ¬ w <:+: s.error ∧ ¬ w <:+: s.name ++ " " ++ times (some s) := by
  have hmem : ∀ t ∈ [s.error, s.name ++ " " ++ times (some s)], ¬ w <:+: t := by
    intro t ht
    refine hgiven t ?_
    simp only [given, List.mem_append, List.mem_cons, List.mem_flatMap]
    exact Or.inl (Or.inr (Or.inr ⟨s, hs, by simpa using ht⟩))
  have hline := hmem (s.name ++ " " ++ times (some s)) (by simp)
  refine ⟨fun h => hline ?_, hmem _ (by simp), hline⟩
  rw [List.append_assoc]
  exact List.infix_append_of_infix_left h

lemma not_infix_of_problem (hgiven : ∀ t ∈ r.given times, ¬ w <:+: t) {p : Problem}
    (hp : p ∈ r.errors ++ r.warnings) : ∀ t ∈ p.module :: p.message :: p.details, ¬ w <:+: t :=
  fun t ht => hgiven t (List.mem_append_right _ (List.mem_flatMap.2 ⟨p, hp, ht⟩))

/-- The line of a step that did not succeed. -/
def failedLine (s : Step) : Text :=
  "  " ++ Console.cross ++ " " ++ s.name ++ ": " ++ s.error ++ "\n"

lemma linesWithout_failedLine (hw : IsPhrase w) {s : Step} (hname : ¬ w <:+: s.name)
    (herror : ¬ w <:+: s.error) : Text.LinesWithout w (failedLine s) := by
  have hline : failedLine s = ("  " ++ Console.cross ++ " ")
      ++ (s.name ++ ':'.toUInt8 :: (Byte.space :: s.error)) ++ "\n" := by
    simp only [failedLine, List.append_assoc]
    rfl
  rw [hline]
  refine hw.linesWithout (by decide) ?_
  rw [Text.infix_append_cons_iff hw.colon, ← List.singleton_append,
    hw.infix_append_iff (by decide), not_or]
  exact ⟨hname, herror⟩

/-- The line over some problems. -/
lemma linesWithout_heading (hw : IsPhrase w) {t : Text} (ht : 'B'.toUInt8 ∉ t) (n : ℕ) :
    Text.LinesWithout w (t ++ Text.ofNat n ++ "):\n") := by
  have hline : t ++ Text.ofNat n ++ "):\n" = t ++ Text.ofNat n ++ "):" ++ "\n" := by
    simp only [List.append_assoc]
    rfl
  rw [hline]
  refine hw.linesWithout_own ?_
  simp only [List.mem_append, not_or]
  exact ⟨⟨ht, letter_notMem_ofNat n⟩, by decide⟩

/-- The short rendering ends with the verdict of the flag. -/
lemma exists_lead_renderShort (h : r.Flagged) (times : Times) :
    ∃ lead : Transcript, r.renderShort times = lead ++ r.verdict times ++ r.outputLine
      ∧ ∀ w, IsPhrase w → (∀ t ∈ r.given times, ¬ w <:+: t) → Text.LinesWithout w lead.all := by
  cases hfailed : r.failed with
  | false =>
      -- without the flag all steps succeeded
      have hsteps : r.steps.filter (fun s => !s.succeeded) = [] := by
        rw [List.filter_eq_nil_iff]
        intro s hs hs'
        have hflag := h s hs (by simpa using hs')
        rw [hfailed] at hflag
        cases hflag
      refine ⟨Console.out ("  " ++ Console.check ++ " " ++ r.counts), ?_, fun w hw _ => ?_⟩
      · simp [renderShort, verdict, hsteps, hfailed]
      · rw [all_out]
        exact linesWithout_counts hw (by decide) r
  | true =>
      refine ⟨Console.out ("  " ++ Console.check ++ " " ++ r.counts)
        ++ Console.out ("\nFailed steps:\n" ++ (r.steps.filter (!·.succeeded)).flatMap failedLine
          ++ "\n"), ?_, fun w hw hgiven => ?_⟩
      · simp only [renderShort, verdict, hfailed, Bool.not_true, Bool.and_false,
          Bool.false_eq_true, if_false, if_true]
        rw [← List.append_assoc (Console.out _) (Console.out _)]
        rfl
      · rw [all_append, all_out, all_out]
        refine .append hw.line (linesWithout_counts hw (by decide) r)
          (.append hw.line (.append hw.line ?_ ?_) (hw.linesWithout_own (t := []) (by simp)))
        · exact hw.linesWithout_own (t := "\nFailed steps:") (by decide)
        · refine .flatMap hw.ne_nil hw.line fun s hs => ?_
          obtain ⟨hname, herror, -⟩ := not_infix_of_step hgiven (List.mem_filter.1 hs).1
          exact linesWithout_failedLine hw hname herror

/-- The long rendering ends with the verdict of the flag. -/
lemma exists_lead_renderLong (r : Report) (times : Times) :
    ∃ lead : Transcript, r.renderLong times = lead ++ r.verdict times ++ r.outputLine
      ∧ ∀ w, IsPhrase w → (∀ t ∈ r.given times, ¬ w <:+: t) → Text.LinesWithout w lead.all := by
  refine ⟨_, by rw [renderLong, verdict], fun w hw hgiven => ?_⟩
  have hnewline : Text.LinesWithout w (Console.out "\n").all := by
    rw [all_out]
    exact hw.linesWithout_own (t := []) (by simp)
  have hproblem : ∀ p ∈ r.errors ++ r.warnings, ∀ t ∈ p.module :: p.message :: p.details,
      ¬ w <:+: t := fun p => not_infix_of_problem hgiven
  -- part by part: the counts, the steps, the errors and the warnings
  simp only [all_append]
  refine .append hw.line (.append hw.line (.append hw.line ?_ ?_) ?_) hnewline
  · rw [all_out]
    refine .append hw.line ?_ (.flatMap hw.ne_nil hw.line fun s hs => ?_)
    · exact .append hw.line (linesWithout_counts hw (by decide) r)
        (hw.linesWithout_own (t := []) (by simp))
    · have hline : stepLine times s
          = ("  " ++ (if s.succeeded then Console.check else Console.cross) ++ " ")
            ++ (s.name ++ " " ++ times (some s)) ++ "\n" := by
        simp only [stepLine, List.append_assoc]
      rw [hline]
      refine hw.linesWithout ?_ (not_infix_of_step hgiven hs).2.2
      cases s.succeeded <;> decide
  · split_ifs
    · exact .nil hw.ne_nil
    · rw [all_append, all_err]
      exact .append hw.line hnewline (.append hw.line (linesWithout_heading hw (by decide) _)
        (linesWithout_renderProblems hw (by decide) fun p hp =>
          hproblem p (List.mem_append_left _ hp)))
  · split_ifs
    · exact .nil hw.ne_nil
    · rw [all_out]
      exact .append hw.line (linesWithout_heading hw (by decide) _)
        (linesWithout_renderProblems hw (by decide) fun p hp =>
          hproblem p (List.mem_append_right _ hp))

/-- The two renderings of a report, one of which is printed. -/
def renderings (times : Times) (r : Report) : List Transcript :=
  [r.renderShort times, r.renderLong times]

lemma render_mem_renderings (r : Report) (times : Times) : r.render times ∈ r.renderings times := by
  rw [render, renderings]
  split_ifs <;> simp

/-- **Either rendering ends with the verdict of the flag.** What comes before it has a phrase only
from a given text. -/
theorem exists_lead (h : r.Flagged) {shown : Transcript} (hshown : shown ∈ r.renderings times) :
    ∃ lead : Transcript, shown = lead ++ r.verdict times ++ r.outputLine
      ∧ ∀ w, IsPhrase w → (∀ t ∈ r.given times, ¬ w <:+: t) → Text.LinesWithout w lead.all := by
  simp only [renderings, List.mem_cons, List.not_mem_nil, or_false] at hshown
  rcases hshown with rfl | rfl
  · exact exists_lead_renderShort h times
  · exact exists_lead_renderLong r times

/-! ### Which phrase is printed -/

variable {shown : Transcript}

/-- A phrase stands in a rendering if it stands in the verdict. -/
lemma infix_rendering_iff (h : r.Flagged) (hw : IsPhrase w) (hshown : shown ∈ r.renderings times)
    (hgiven : ∀ t ∈ r.given times, ¬ w <:+: t) :
    w <:+: shown.all ↔ w <:+: (r.verdict times).all := by
  obtain ⟨lead, rfl, hlead⟩ := exists_lead h hshown
  have houtput : Text.LinesWithout w r.outputLine.all := by
    rw [outputLine]
    split_ifs
    · exact .nil hw.ne_nil
    · rw [all_out]
      exact hw.linesWithout (by decide) (hgiven _ (by simp [given]))
  obtain ⟨t, ht⟩ : ∃ t : Text, (r.verdict times).all = t ++ "\n" := by
    rw [verdict]
    split_ifs
    · exact ⟨_, all_err _⟩
    · exact ⟨_, all_out _⟩
  rw [List.append_assoc, all_append, all_append,
    (hlead w hw hgiven).infix_append_iff hw.line, ht, houtput.infix_line_append_iff hw.line,
    Text.infix_line_iff hw.ne_nil hw.line]

/-- A phrase is not found in a line that begins with other words. -/
lemma IsPhrase.not_infix_words (hw : IsPhrase w) {t words rest : Text} (ht : 'B'.toUInt8 ∉ t)
    (hwords : 'B'.toUInt8 ∉ words) (hne : ¬ w <+: 'B'.toUInt8 :: words ++ rest)
    (hrest : ¬ w <:+: rest) : ¬ w <:+: t ++ ('B'.toUInt8 :: words ++ rest) := by
  rw [hw.infix_append_iff ht, List.cons_append, List.infix_cons_iff, hw.infix_append_iff hwords,
    not_or]
  exact ⟨hne, hrest⟩

/-- Words that differ at a place do not begin a text with each other. -/
lemma not_prefix_of_getElem? {i : ℕ} {b c : UInt8} {t u rest : Text} (ht : t[i]? = some b)
    (hu : u[i]? = some c) (hne : b ≠ c) : ¬ t <+: u ++ rest := by
  rintro ⟨s, hs⟩
  have hbyte := congrArg (·[i]?) hs
  simp only [List.getElem?_append_left (List.getElem?_eq_some_iff.1 ht).1,
    List.getElem?_append_left (List.getElem?_eq_some_iff.1 hu).1, ht, hu] at hbyte
  exact hne (Option.some.inj hbyte)

lemma all_complete (times : Times) : (complete times).all
    = "  " ++ Console.check ++ " " ++ (completeWords ++ " " ++ (times none ++ "\n")) := by
  rw [complete, all_out]
  simp only [List.append_assoc]
  rfl

lemma all_failure (times : Times) : (failure times).all
    = "  " ++ (failureWords ++ " " ++ (times none ++ "\n")) := by
  rw [failure, all_err]
  simp only [List.append_assoc]
  rfl

/-- **The phrase of success is printed exactly if the report is not flagged.** -/
theorem completeWords_infix_iff (h : r.Flagged) (hshown : shown ∈ r.renderings times)
    (hgiven : ∀ t ∈ r.given times, ¬ completeWords <:+: t) :
    completeWords <:+: shown.all ↔ r.failed = false := by
  rw [infix_rendering_iff h isPhrase_completeWords hshown hgiven, verdict]
  cases r.failed with
  | false =>
      simp only [Bool.false_eq_true, if_false, iff_true, all_complete]
      exact List.infix_append_of_infix_right (List.infix_append_of_infix_left
        (List.infix_append_of_infix_left List.infix_rfl))
  | true =>
      simp only [if_true, Bool.true_eq_false, iff_false, all_failure]
      refine isPhrase_completeWords.not_infix_words (by decide) (by decide)
        (not_prefix_of_getElem? (i := 6) rfl rfl (by decide)) ?_
      rw [Text.infix_line_iff isPhrase_completeWords.ne_nil isPhrase_completeWords.line]
      exact hgiven _ (by simp [given])

/-- **The phrase of failure is printed exactly if the report is flagged.** -/
theorem failureWords_infix_iff (h : r.Flagged) (hshown : shown ∈ r.renderings times)
    (hgiven : ∀ t ∈ r.given times, ¬ failureWords <:+: t) :
    failureWords <:+: shown.all ↔ r.failed = true := by
  rw [infix_rendering_iff h isPhrase_failureWords hshown hgiven, verdict]
  cases r.failed with
  | true =>
      simp only [if_true, iff_true, all_failure]
      exact List.infix_append_of_infix_right (List.infix_append_of_infix_left
        (List.infix_append_of_infix_left List.infix_rfl))
  | false =>
      simp only [Bool.false_eq_true, if_false, iff_false, all_complete]
      refine isPhrase_failureWords.not_infix_words (by decide) (by decide)
        (not_prefix_of_getElem? (i := 6) rfl rfl (by decide)) ?_
      rw [Text.infix_line_iff isPhrase_failureWords.ne_nil isPhrase_failureWords.line]
      exact hgiven _ (by simp [given])

end Report

end MiniProgram
