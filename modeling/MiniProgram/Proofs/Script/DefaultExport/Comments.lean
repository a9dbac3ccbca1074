import MiniProgram.Proofs.Script.DefaultExport
import MiniProgram.Proofs.Script.Lexer
import MiniProgram.Stage.Content

/-!
Default exports and comments.

The rewrite of the default export searches the script as it is written, comments included. What it
finds is what a search outside comments finds, wherever the statements that are looked at keep clear
of comments: the search of the script and the search of the masked script then go on in step.

* `found_maskFrom`: a statement outside comments is recognised in the masked script exactly if it is
  in the script.
* `upTo_hitsFrom_maskFrom`: two searches in step, up to the first success.
* `isSome_bindDefaultExport_maskComments`: **whether comments count as a default export.**
-/

namespace MiniProgram

namespace Script

open Text

/-! ### Spans outside comments -/

/-- No byte of a span belongs to a comment. -/
def OutsideComments (bytes : List (UInt8 × ByteClass)) (start length : ℕ) : Prop :=
  ∀ b ∈ (bytes.drop start).take length, b.2 ≠ .comment

instance (bytes : List (UInt8 × ByteClass)) (start length : ℕ) :
    Decidable (OutsideComments bytes start length) :=
  List.decidableBAll _ _

/-- A span behind the first byte, seen from the second byte on. -/
lemma outsideComments_cons {bytes : List (UInt8 × ByteClass)} {b : UInt8 × ByteClass}
    {position start : ℕ} (h : position + 1 ≤ start) (length : ℕ) :
    OutsideComments (b :: bytes) (start - position) length
      ↔ OutsideComments bytes (start - (position + 1)) length := by
  have hstart : start - position = start - (position + 1) + 1 := by omega
  rw [OutsideComments, hstart, List.drop_succ_cons, OutsideComments]

variable {s : Lexer} {t : Text} {n : ℕ}

/-- Outside comments the masked script is the script. -/
lemma take_maskFrom (h : OutsideComments (classifyFrom s t) 0 n) :
    (maskFrom s t).take n = t.take n := by
  conv_rhs => rw [← map_fst_classifyFrom s t]
  rw [maskFrom, ← List.map_take, ← List.map_take]
  refine List.map_congr_left fun b hb => ?_
  exact maskByte_of_ne_comment (h b (by rwa [List.drop_zero]))

/-- What is no part of a comment stands outside comments, unless it ends a line. -/
lemma inComment_eq_false_of_step {b : UInt8} {next : Option UInt8}
    (h : (s.step b next).2 ≠ .comment) (hb : b ≠ Byte.newline) : s.inComment = false := by
  cases s with
  | line => simp [Lexer.step, hb] at h
  | opening isBlock => exact absurd rfl h
  | block => exact absurd rfl h
  | closing => exact absurd rfl h
  | code => rfl
  | literal q => rfl
  | escaped q => rfl

/-! ### Two searches in step -/

variable {before before' : Option UInt8}

variable {α : Type} {r : Recognizer α} {grammar : Text → α → Prop}

/-- **One statement.** Outside comments an export statement is recognised in the masked script
exactly if it is in the script. -/
lemma found_maskFrom (hr : Search.Takes r grammar)
    (hexport : ∀ text a, grammar text a → ("export" : Text) <+: text)
    (hbeside : Beside s before before' t) {a : α} (h : OutsideComments (classifyFrom s t) 0 n) :
    r before' (maskFrom s t) = some (n, a) ↔ r before t = some (n, a) := by
  rw [hr.iff_take, hr.iff_take, take_maskFrom h, length_maskFrom]
  refine and_congr_left fun ⟨hlength, hgrammar⟩ => ?_
  obtain ⟨rest, hrest⟩ := hexport _ _ hgrammar
  cases t with
  | nil => cases hrest.trans List.take_nil
  | cons b t =>
      cases n with
      | zero => cases hrest
      | succ n =>
          obtain rfl : 101 = b := (List.cons.inj hrest).1
          have hclass : (s.step 101 t.head?).2 ≠ .comment := h _ List.mem_cons_self
          rw [hbeside.wordStart (inComment_eq_false_of_step hclass (by decide))]

/-- Where the search of the script finds a statement outside comments, that of the masked script
finds one. -/
lemma hitsFrom_maskFrom_ne_nil (hr : Search.Takes r grammar)
    (hexport : ∀ text a, grammar text a → ("export" : Text) <+: text)
    (hbeside : Beside s before before' t) {position skip : ℕ}
    (h : ∃ hit ∈ Search.hitsFrom r before position skip t,
      OutsideComments (classifyFrom s t) (hit.start - position) hit.length) :
    Search.hitsFrom r before' position 0 (maskFrom s t) ≠ [] := by
  induction t generalizing s before before' position skip with
  | nil =>
      obtain ⟨hit, hhit, -⟩ := h
      rw [Search.hitsFrom_nil] at hhit
      cases hhit
  | cons b t ih =>
      rw [maskFrom_cons]
      cases hmasked : r before' (maskByte (b, (s.step b t.head?).2)
          :: maskFrom (s.step b t.head?).1 t) with
      | some found =>
          rw [Search.hitsFrom_cons_of_some hmasked]
          exact List.cons_ne_nil _ _
      | none =>
          rw [Search.hitsFrom_cons_of_none hmasked]
          obtain ⟨hit, hhit, hout⟩ := h
          rcases Search.mem_hitsFrom_cons hhit with ⟨-, hstart, hfound⟩ | ⟨skip', -, hhit⟩
          · rw [hstart, Nat.sub_self] at hout
            have := (found_maskFrom hr hexport hbeside hout).2 hfound
            rw [maskFrom_cons, hmasked] at this
            cases this
          · have hle := Search.le_start_of_mem_hitsFrom hhit
            exact ih hbeside.step ⟨hit, hhit, (outsideComments_cons (by omega) _).1 hout⟩

/-- The members of a list up to the first that has a property, this one included. -/
def upTo (p : α → Bool) : List α → List α
  | [] => []
  | a :: l => if p a then [a] else a :: upTo p l

section upTo

variable {p : α → Bool} {a x : α} {l : List α}

lemma upTo_cons_of_pos (ha : p a = true) : upTo p (a :: l) = [a] := by
  rw [upTo, if_pos ha]

lemma upTo_cons_of_neg (ha : ¬ p a = true) : upTo p (a :: l) = a :: upTo p l := by
  rw [upTo, if_neg ha]

lemma head_mem_upTo : a ∈ upTo p (a :: l) := by
  by_cases ha : p a = true
  · rw [upTo_cons_of_pos ha]
    exact List.mem_singleton_self a
  · rw [upTo_cons_of_neg ha]
    exact List.mem_cons_self

lemma mem_of_mem_upTo (h : x ∈ upTo p l) : x ∈ l := by
  induction l with
  | nil => cases h
  | cons a l ih =>
      by_cases ha : p a = true
      · rw [upTo_cons_of_pos ha] at h
        exact List.mem_singleton.1 h ▸ List.mem_cons_self
      · rw [upTo_cons_of_neg ha] at h
        rcases List.mem_cons.1 h with rfl | h
        · exact List.mem_cons_self
        · exact List.mem_cons_of_mem a (ih h)

/-- A member with the property is met on the way to the first. -/
lemma exists_mem_upTo : (∃ a ∈ upTo p l, p a = true) ↔ ∃ a ∈ l, p a = true := by
  induction l with
  | nil => rfl
  | cons a l ih =>
      by_cases ha : p a = true
      · simp [upTo_cons_of_pos, ha]
      · simp only [upTo_cons_of_neg ha, List.exists_mem_cons_iff, ih]

end upTo

/-- **Two searches in step.** If no statement that either search comes to touches a comment, up to
the first success, both find the same. -/
lemma upTo_hitsFrom_maskFrom (hr : Search.Takes r grammar)
    (hexport : ∀ text a, grammar text a → ("export" : Text) <+: text) {p : Hit α → Bool}
    (hbeside : Beside s before before' t) {position skip : ℕ}
    (h : ∀ hit ∈ upTo p (Search.hitsFrom r before position skip t),
      OutsideComments (classifyFrom s t) (hit.start - position) hit.length)
    (h' : ∀ hit ∈ upTo p (Search.hitsFrom r before' position skip (maskFrom s t)),
      OutsideComments (classifyFrom s t) (hit.start - position) hit.length) :
    upTo p (Search.hitsFrom r before' position skip (maskFrom s t))
      = upTo p (Search.hitsFrom r before position skip t) := by
  induction t generalizing s before before' position skip with
  | nil => rw [maskFrom_nil, Search.hitsFrom_nil, Search.hitsFrom_nil]
  | cons b t ih =>
      have hfound := fun n a => found_maskFrom (n := n) hr hexport hbeside (a := a)
      rw [maskFrom_cons] at h' hfound ⊢
      set b' := maskByte (b, (s.step b t.head?).2) with hb'
      set t' := maskFrom (s.step b t.head?).1 t with ht'
      -- behind the first byte the searches go on in step
      have htail : ∀ skip',
          (∀ hit ∈ upTo p (Search.hitsFrom r (some b) (position + 1) skip' t),
            OutsideComments (classifyFrom s (b :: t)) (hit.start - position) hit.length) →
          (∀ hit ∈ upTo p (Search.hitsFrom r (some b') (position + 1) skip' t'),
            OutsideComments (classifyFrom s (b :: t)) (hit.start - position) hit.length) →
          upTo p (Search.hitsFrom r (some b') (position + 1) skip' t')
            = upTo p (Search.hitsFrom r (some b) (position + 1) skip' t) := by
        intro skip' h h'
        refine ih hbeside.step (fun hit hhit => ?_) (fun hit hhit => ?_)
        · have := Search.le_start_of_mem_hitsFrom (mem_of_mem_upTo hhit)
          exact (outsideComments_cons (by omega) _).1 (h hit hhit)
        · have := Search.le_start_of_mem_hitsFrom (mem_of_mem_upTo hhit)
          exact (outsideComments_cons (by omega) _).1 (h' hit hhit)
      cases skip with
      | succ skip =>
          rw [Search.hitsFrom_succ_cons] at h h' ⊢
          rw [Search.hitsFrom_succ_cons]
          exact htail skip h h'
      | zero =>
          cases hraw : r before (b :: t) with
          | none =>
              rw [Search.hitsFrom_cons_of_none hraw] at h ⊢
              cases hmasked : r before' (b' :: t') with
              | none =>
                  rw [Search.hitsFrom_cons_of_none hmasked] at h' ⊢
                  exact htail 0 h h'
              | some found =>
                  rw [Search.hitsFrom_cons_of_some hmasked] at h'
                  have hout := h' _ head_mem_upTo
                  rw [Nat.sub_self] at hout
                  rw [(hfound _ _ hout).1 hmasked] at hraw
                  cases hraw
          | some found =>
              obtain ⟨n, a⟩ := found
              rw [Search.hitsFrom_cons_of_some hraw] at h ⊢
              have hout := h _ head_mem_upTo
              rw [Nat.sub_self] at hout
              rw [Search.hitsFrom_cons_of_some ((hfound _ _ hout).2 hraw)] at h' ⊢
              by_cases hp : p ⟨position, n, a⟩ = true
              · rw [upTo_cons_of_pos hp, upTo_cons_of_pos hp]
              · rw [upTo_cons_of_neg hp] at h h' ⊢
                rw [upTo_cons_of_neg hp,
                  htail (n - 1) (fun hit hhit => h hit (List.mem_cons_of_mem _ hhit))
                    fun hit hhit => h' hit (List.mem_cons_of_mem _ hhit)]

/-! ### Comments as default exports -/

/-- The export lists that are looked at for a default export, if there is no `export default`: those
up to the first with a default. -/
def listsRead (t : Text) : List (Hit Text) :=
  upTo (exportsDefault ·.found) (Search.hits exportListHead t)

lemma exists_mem_listsRead {t : Text} :
    (∃ hit ∈ listsRead t, exportsDefault hit.found = true)
      ↔ ∃ hit ∈ Search.hits exportListHead t, exportsDefault hit.found = true :=
  exists_mem_upTo

/-- No comment disturbs the search for a default export: either some `export default` stands outside
comments, or there is none in the script and in the masked script, and no list that is looked at in
either touches a comment. -/
inductive Undisturbed (code : Text) : Prop
  | value (h : ∃ hit ∈ Search.hits exportDefaultHead code,
      OutsideComments (classify code) hit.start hit.length)
  | lists (h : ∀ t ∈ [code, maskComments code], Search.hits exportDefaultHead t = []
      ∧ ∀ hit ∈ listsRead t, OutsideComments (classify code) hit.start hit.length)

lemma export_prefix_of_isDefaultHead {text : Text} (h : IsDefaultHead text) :
    ("export" : Text) <+: text := by
  obtain ⟨u, b, -, -, -, rfl⟩ := h
  exact List.prefix_append _ _

lemma export_prefix_of_isListHead {text items : Text} (h : IsListHead text items) :
    ("export" : Text) <+: text := by
  obtain ⟨-, u, -, rfl⟩ := h
  exact List.prefix_append _ _

/-- **Whether comments count as a default export.** Where no comment disturbs the search, a script
has a default export exactly if the script outside comments has one, and an entry is passed to the
runtime without a warning exactly then. -/
theorem isSome_bindDefaultExport_maskComments {code : Text} (h : Undisturbed code) :
    (bindDefaultExport code).isSome = (bindDefaultExport (maskComments code)).isSome
      ∧ ∀ (runtimeModule : Text) (m : Module), m.content = code →
        (Content.wrapEntry runtimeModule m).diagnostics
          = if (bindDefaultExport (maskComments code)).isSome then []
            else [.warning Diagnostic.missingDefaultExport m.id
              ("entry has no default export to pass to " ++ (Content.factories m.entry).2)] := by
  have hsome :
      (bindDefaultExport code).isSome = (bindDefaultExport (maskComments code)).isSome := by
    rw [Bool.eq_iff_iff, isSome_bindDefaultExport, isSome_bindDefaultExport]
    cases h with
    | value h =>
        have hmasked : Search.hits exportDefaultHead (maskComments code) ≠ [] :=
          hitsFrom_maskFrom_ne_nil exportDefaultHead_takes
            (fun _ _ => export_prefix_of_isDefaultHead) (beside_start code) h
        have hraw : Search.hits exportDefaultHead code ≠ [] := by
          obtain ⟨hit, hhit, -⟩ := h
          exact List.ne_nil_of_mem hhit
        exact iff_of_true (Or.inl hraw) (Or.inl hmasked)
    | lists h =>
        obtain ⟨⟨hraw, hlists⟩, hmasked, hlists'⟩ := by simpa using h
        have heq : listsRead (maskComments code) = listsRead code :=
          upTo_hitsFrom_maskFrom exportListHead_takes (fun _ _ => export_prefix_of_isListHead)
            (beside_start code) hlists hlists'
        rw [hraw, hmasked, ← exists_mem_listsRead, ← exists_mem_listsRead, heq]
  refine ⟨hsome, ?_⟩
  rintro runtimeModule m rfl
  rw [← hsome, Content.wrapEntry]
  cases bindDefaultExport m.content with
  | none => rfl
  | some code => rfl

/-- The general case at a list with a comment on either side. -/
theorem isSome_bindDefaultExport_maskComments_list :
    Undisturbed "/* export */ export \x7b X as default \x7d /* c */;"
      ∧ (bindDefaultExport
        (maskComments "/* export */ export \x7b X as default \x7d /* c */;")).isSome = true := by
  have h : Undisturbed "/* export */ export \x7b X as default \x7d /* c */;" :=
    .lists (by decide +kernel)
  refine ⟨h, ?_⟩
  rw [← (isSome_bindDefaultExport_maskComments h).1]
  decide +kernel

/-- **Comments do count.** An `export default` in a comment is taken for a default export, and a
comment inside a statement hides one. -/
theorem exists_isSome_bindDefaultExport_ne :
    (∃ code, (bindDefaultExport code).isSome = true
        ∧ (bindDefaultExport (maskComments code)).isSome = false)
      ∧ ∃ code, (bindDefaultExport code).isSome = false
        ∧ (bindDefaultExport (maskComments code)).isSome = true :=
  ⟨⟨"// export default x\n", by decide +kernel⟩,
    ⟨"export \x7b a, // b\n X as default \x7d;\n", by decide +kernel⟩⟩

end Script

end MiniProgram
