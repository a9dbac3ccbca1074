import MiniProgram.Proofs.Failure
import MiniProgram.Proofs.Script.ImportLine
import MiniProgram.Proofs.Text.Numeral
import MiniProgram.Script.Interop

/-!
The parts of a wrapped script and what the scan finds in them.

A wrapped script is a header of import lines, a preamble, the script with its calls of `require`
replaced, and a footer with the exports. The scan finds one specifier in each import line, none in
the preamble and the footer, and in the replaced script the same as if it stood alone.

* `readFrom_header`, `readFrom_preamble`: what is found in the header and in the preamble.
* `exists_footer`: a wrapped script is cut into its parts.
* `mem_scanImports_wrapped`: **what the scan finds in a wrapped script.**
-/

namespace MiniProgram

namespace Script

open Text

/-! ### Import lines -/

/-- The line that imports a specifier under its binding. -/
def importLine (n : Nat) (spec : Text) : Text :=
  "import " ++ requireBinding n ++ " from " ++ Text.quote spec ++ ";\n"

/-- What stands before the specifier of an import line. -/
def importLead (n : Nat) : Text := "import " ++ requireBinding n ++ " from "

lemma isWord_of_mem_requireBinding {n : Nat} {b : UInt8} (h : b ∈ requireBinding n) :
    Byte.isWord b = true := by
  rcases List.mem_append.1 h with h | h
  · exact (by decide : ∀ b ∈ ("__require" : Text), Byte.isWord b = true) b h
  · simp [Byte.isWord, isDigit_of_mem_ofNat h]

lemma isLeadByte_of_mem_importLead {n : Nat} {b : UInt8} (h : b ∈ importLead n) :
    isLeadByte b = true := by
  have hfixed : ∀ b ∈ ("import " : Text) ++ "__require" ++ " from ", isLeadByte b = true := by
    decide
  have hdigit : Byte.isDigit b = true → isLeadByte b = true := by
    intro hb
    have hne : b ≠ 120 := Byte.ne_of_class hb rfl
    simp [isLeadByte, Byte.isWord, hb, hne]
  simp only [importLead, requireBinding, List.mem_append] at h
  rcases h with (h | h | h) | h
  · exact hfixed b (by simp [h])
  · exact hfixed b (by simp [h])
  · exact hdigit (isDigit_of_mem_ofNat h)
  · exact hfixed b (by simp [h])

lemma importLead_isLead (n : Nat) : ImportLead (importLead n) := by
  have hlead : importLead n
      = ReferenceForm.importing.keyword ++ ((" " : Text) ++ (requireBinding n ++ " from ")) := by
    have hspace : ("import " : Text) = ReferenceForm.importing.keyword ++ " " := rfl
    simp [importLead, hspace]
  have hbytes : ∀ b ∈ importLead n, isLeadByte b = true := fun _ => isLeadByte_of_mem_importLead
  refine ⟨⟨_, hlead, ⟨?_, by rfl, fun b hb => ?_⟩⟩, hbytes⟩
  · have hreverse : ((" " : Text) ++ (requireBinding n ++ " from ")).reverse
        = (" from " : Text).reverse ++ ((" " : Text) ++ requireBinding n).reverse := by simp
    rw [isImportHead, hreverse]
    rfl
  · have hb := hbytes b (hlead ▸ List.mem_append_right _ hb)
    have hsemicolon : b ≠ Byte.semicolon := Byte.ne_of_class hb rfl
    simp [isClauseByte, Byte.isQuote_eq_false (p := isLeadByte) rfl rfl hb, hsemicolon]

/-! ### The header -/

/-- The import lines of a wrapped script, the first with the number `k`. -/
def header (specs : List Text) (k : Nat) : Text :=
  (specs.zipIdx k).flatMap fun (spec, n) => importLine n spec

/-- The lines of the header with their leads. -/
def headerLines (specs : List Text) (k : Nat) : List (Text × Text) :=
  (specs.zipIdx k).map fun (spec, n) => (importLead n, spec)

variable {form : ReferenceForm} {specs : List Text} {masked t : Text}

lemma header_eq (specs : List Text) (k : Nat) :
    header specs k = importLines (headerLines specs k) := by
  rw [header, importLines, headerLines, List.flatMap_map]
  rfl

lemma map_snd_headerLines (specs : List Text) (k : Nat) :
    (headerLines specs k).map Prod.snd = specs := by
  rw [headerLines, List.map_map]
  exact List.zipIdx_map_fst k specs

lemma importLead_of_mem_headerLines {k : Nat} :
    ∀ line ∈ headerLines specs k, ImportLead line.1 := by
  intro line hline
  obtain ⟨⟨spec, n⟩, -, rfl⟩ := List.mem_map.1 hline
  exact importLead_isLead n

lemma reads_header (specs : List Text) (k : Nat) : Lexer.Reads .code (header specs k) .code := by
  rw [header_eq]
  exact reads_importLines importLead_of_mem_headerLines

/-- Each line of the header gives its specifier, and only as an import. -/
lemma readFrom_header (h : ∀ spec ∈ specs, IsSpec spec) (hmasked : ¬ FromAfterBrace masked)
    (k : Nat) :
    readFrom form.pattern none 0 (header specs k ++ masked) (header specs k ++ t)
      = (if form = .importing then specs.map spelled else [])
        ++ readFrom form.pattern none 0 masked t := by
  have hspecs : ∀ line ∈ headerLines specs k, IsSpec line.2 := fun line hline =>
    h line.2 (map_snd_headerLines specs k ▸ List.mem_map_of_mem hline)
  rw [header_eq, readFrom_importLines importLead_of_mem_headerLines hspecs hmasked]
  conv_rhs => rw [← map_snd_headerLines specs k, List.map_map]
  rfl

/-! ### The preamble -/

/-- The lines that give a wrapped script its `module` and `exports`. -/
def preamble : Text :=
  "var module = \x7b exports: \x7b\x7d \x7d;\n" ++ "var exports = module.exports;\n"

lemma reads_preamble : Lexer.Reads .code preamble .code := .code (by decide)

lemma not_fromAfterBrace_preamble (masked : Text) : ¬ FromAfterBrace (preamble ++ masked) := by
  rintro ⟨items, v, w, o, spec, e, rest, hitems, hv, -, -, -, -, h⟩
  have hopening : ∀ b ∈ ("var module = \x7b exports: \x7b" : Text),
      decide (b ≠ Byte.closeBrace) = true := by decide
  have hsplit : preamble ++ masked = ("var module = \x7b exports: \x7b" : Text)
      ++ Byte.closeBrace :: (" \x7d;\nvar exports = module.exports;\n" ++ masked) := rfl
  rw [hsplit] at h
  obtain ⟨-, htail⟩ := append_cons_inj hopening (forall_ne_of_not_mem hitems) (by rfl) (by rfl) h
  -- a second brace follows the first, and not `from`
  have hskip := congrArg skipSpace (List.cons.inj htail).2
  rw [skipSpace_append_from hv] at hskip
  exact absurd (List.cons.inj hskip).1 (by decide)

/-- No reference begins in the preamble. -/
lemma pattern_preamble {w : Text} (hw : w <:+ preamble) (hne : w ≠ []) (before : Option UInt8) :
    form.pattern before (w ++ masked) = none := by
  have hwords : ∀ w ∈ preamble.tails, ¬ ReferenceForm.importing.keyword <+: w
      ∧ ¬ ReferenceForm.requiring.keyword <+: w
      ∧ (ReferenceForm.exporting.keyword <+: w → ("exports" : Text) <+: w) := by decide +kernel
  obtain ⟨himport, hrequire, hexport⟩ := hwords w ((List.mem_tails _ _).2 hw)
  rw [Option.eq_none_iff_forall_ne_some]
  intro found hfound
  obtain ⟨-, rest, h, hend⟩ := exists_keyword hfound
  have hprefix : form.keyword <+: w := by
    have hlast : preamble = preamble.dropLast ++ [Byte.newline] := by decide
    rw [hlast] at hw
    obtain ⟨v, rfl, -⟩ := (List.suffix_concat_iff.1 hw).resolve_left hne
    have hline : Byte.newline ∉ form.keyword := by cases form <;> decide
    rw [List.append_assoc] at h
    exact (prefix_of_prefix_append_cons ⟨rest, h.symm⟩ hline).trans (List.prefix_append v _)
  cases form with
  | importing => exact himport hprefix
  | requiring => exact hrequire hprefix
  | exporting =>
      obtain ⟨tail, rfl⟩ := hexport hprefix
      have h' : ReferenceForm.exporting.keyword ++ 115 :: (tail ++ masked)
          = ReferenceForm.exporting.keyword ++ rest := h
      obtain rfl := List.append_cancel_left h'
      cases hend (by decide)

lemma readFrom_preamble (masked t : Text) :
    readFrom form.pattern none 0 (preamble ++ masked) (preamble ++ t)
      = readFrom form.pattern none 0 masked t := by
  rw [readFrom_pass fun w hw hne before => pattern_preamble hw hne before]
  exact readFrom_congr (by rfl) masked t

/-! ### The footer -/

/-- The exports of names hold no end of a reference. -/
lemma endsReference_of_mem_exportNames {names : List Text} {exports : Text}
    (h : exportNames names = .ok exports) : ∀ b ∈ exports, endsReference b = false := by
  refine foldlM_invariant (P := fun out => ∀ b ∈ out, endsReference b = false) ?_ ?_ h
  · intro out name out' hout hstep
    split at hstep
    · cases hstep
      exact hout
    · split at hstep
      · rename_i hname
        cases hstep
        rw [isIdentifier, Bool.and_eq_true, List.all_eq_true] at hname
        have hfixed : ∀ b ∈ ("export var " : Text) ++ " = __default." ++ ";\n",
            endsReference b = false := by decide
        intro b hb
        simp only [List.mem_append] at hb
        rcases hb with ((((hb | hb) | hb) | hb) | hb) | hb
        · exact hout b hb
        · exact hfixed b (by simp [hb])
        · exact endsReference_of_isIdent (hname.2 b hb)
        · exact hfixed b (by simp [hb])
        · exact endsReference_of_isIdent (hname.2 b hb)
        · exact hfixed b (by simp [hb])
      · cases hstep
  · intro b hb
    cases hb

/-! ### The wrapped script -/

/-- A script with its calls of `require` replaced by the bindings of their specifiers. -/
def bindCalls (source : Text) : Text :=
  Search.replace requirePattern (fun q => requireBinding ((requiredSpecs source).idxOf q.spec))
    source

/-- A wrapped script is its header, the preamble, the script with its calls replaced, and a footer
without an end of a reference. -/
lemma exists_footer {source wrapped : Text} {names : List Text}
    (h : wrapCommonJS source names = .ok wrapped) :
    ∃ footer,
      wrapped = header (requiredSpecs source) 0 ++ (preamble ++ (bindCalls source ++ footer))
      ∧ (∀ b ∈ footer, endsReference b = false) ∧ footer.head? ≠ some Byte.slash
      ∧ footer.head? ≠ some Byte.star := by
  obtain ⟨exports, hexports, h⟩ := bind_eq_ok.1 h
  cases h
  -- a newline is put behind the script unless it ends with one
  let lineEnd : Text := if Text.endsWith (bindCalls source) "\n" then [] else "\n"
  have hlineEnd : lineEnd = [] ∨ lineEnd = [Byte.newline] := by
    unfold lineEnd
    split
    · exact Or.inl rfl
    · exact Or.inr rfl
  refine ⟨lineEnd ++ (("var __default = module.exports;\n" : Text)
    ++ (("export default __default;\n" : Text) ++ exports)), ?_, ?_, ?_⟩
  · simp only [preamble, header, importLine, List.append_assoc]
    rfl
  · have hfixed : ∀ b ∈ [Byte.newline] ++ "var __default = module.exports;\n"
        ++ "export default __default;\n", endsReference b = false := by decide
    intro b hb
    simp only [List.mem_append] at hb
    rcases hb with hb | hb | hb | hb
    · rcases hlineEnd with hline | hline
      · rw [hline] at hb
        cases hb
      · rw [hline] at hb
        exact hfixed b (by simp [List.mem_singleton.1 hb])
    · exact hfixed b (by simp [hb])
    · exact hfixed b (by simp [hb])
    · exact endsReference_of_mem_exportNames hexports b hb
  · rcases hlineEnd with hline | hline
    · rw [hline]
      exact ⟨(by decide : some 118 ≠ some Byte.slash), (by decide : some 118 ≠ some Byte.star)⟩
    · rw [hline]
      exact ⟨(by decide : some Byte.newline ≠ some Byte.slash),
        (by decide : some Byte.newline ≠ some Byte.star)⟩

/-- Every specifier that is required may stand between quotes. -/
lemma isSpec_of_mem_requiredSpecs {source spec : Text} (h : spec ∈ requiredSpecs source) :
    IsSpec spec := by
  rw [requiredSpecs, List.mem_eraseDups, List.mem_map] at h
  obtain ⟨hit, hhit, rfl⟩ := h
  obtain ⟨before, t, hfound⟩ := Search.exists_of_mem_hitsFrom hhit
  obtain ⟨-, _, _, -, -, _, _, _, _, -, hspec, -⟩ := requirePattern_eq_some.1 hfound
  exact hspec

/-- **What the scan finds in a wrapped script:** the spelling of every specifier that the script
requires, and what it finds in the script with its calls replaced. -/
lemma mem_scanImports_wrapped {source wrapped : Text} {names : List Text}
    (h : wrapCommonJS source names = .ok wrapped) (spec : Text) :
    spec ∈ scanImports wrapped
      ↔ spec ∈ (requiredSpecs source).map spelled ∨ spec ∈ scanImports (bindCalls source) := by
  obtain ⟨footer, rfl, hfooter, hslash, hstar⟩ := exists_footer h
  have hspecs : ∀ spec ∈ requiredSpecs source, IsSpec spec := fun _ => isSpec_of_mem_requiredSpecs
  have hmask := maskFrom_append hslash hstar .code (bindCalls source)
  generalize Lexer.over .code (bindCalls source) = s at hmask
  have hfooter' : ∀ b ∈ maskFrom s footer, endsReference b = false := by
    intro b hb
    rcases mem_or_eq_space_of_mem_maskFrom hb with hb | rfl
    · exact hfooter b hb
    · rfl
  set body := bindCalls source
  have hread : ∀ form : ReferenceForm, readFrom form.pattern none 0
      (maskFrom .code (header (requiredSpecs source) 0 ++ (preamble ++ (body ++ footer))))
      (header (requiredSpecs source) 0 ++ (preamble ++ (body ++ footer)))
        = (if form = .importing then (requiredSpecs source).map spelled else [])
          ++ readFrom form.pattern none 0 (maskFrom .code body) body := by
    intro form
    -- masked and read part by part: the header, the preamble, the script and the footer
    rw [(reads_header _ 0).maskFrom_append, reads_preamble.maskFrom_append, hmask,
      readFrom_header hspecs (not_fromAfterBrace_preamble _), readFrom_preamble,
      readFrom_append hfooter' none 0 (length_maskFrom _ _)]
  rw [mem_scanImports, mem_scanImports]
  simp only [hread, List.mem_append]
  constructor
  · rintro ⟨form, hspec | hspec⟩
    · split at hspec
      · exact Or.inl hspec
      · cases hspec
    · exact Or.inr ⟨form, hspec⟩
  · rintro (hspec | ⟨form, hspec⟩)
    · exact ⟨.importing, Or.inl hspec⟩
    · exact ⟨form, Or.inr hspec⟩

end Script

end MiniProgram
