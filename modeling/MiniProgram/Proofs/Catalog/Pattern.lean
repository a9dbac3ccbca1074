import MiniProgram.Catalog
import MiniProgram.Proofs.FileSystem.Memory
import MiniProgram.Proofs.Glob
import MiniProgram.Proofs.Path.Plain

/-!
The pattern by which pages are found.

A source directory in which no byte has a meaning in a pattern stands for itself there. What matches
the page pattern is then an `index` script in the directory of the pages or in one below it.

* `pagePattern_eq`: the pattern is the directory of the pages and a fixed rest.
* `isValid_pagePattern`: the pattern is well formed.
* `matches_pagePattern_iff`: **what the pattern matches** are the `index` scripts at or below the
  directory of the pages.
-/

namespace MiniProgram

namespace Catalog

open MiniProgram.Path

variable {sourceDir dir p d ext : Text}

/-! ### The pattern -/

/-- The directory of the pages of a source directory. -/
def pagesDir (sourceDir : Text) : Text := Path.join [sourceDir, "pages"]

/-- What the page pattern says behind the directory of the pages. -/
def pageTail : Text := "**/index.\x7btsx,ts,jsx,js\x7d"

lemma pagePattern_eq (sourceDir : Text) :
    pagePattern sourceDir = pagesDir sourceDir ++ Byte.slash :: pageTail := by
  by_cases hs : sourceDir = []
  · subst hs
    decide
  · have hpages : ∀ s ∈ [("pages" : Text)], IsName s := by decide
    have htail : ∀ s ∈ [("**" : Text), "index.\x7btsx,ts,jsx,js\x7d"], IsName s := by decide
    exact join_append_names hs (List.cons_ne_nil _ _) (List.cons_ne_nil _ _) hpages htail

/-- The bytes that have a meaning in a pattern. -/
def metaBytes : Text := "*?[\x7b\x7d\\"

lemma isLiteral_of_not_mem {c : ℕ} (h : c ∉ metaBytes.map UInt8.toNat) : Glob.IsLiteral c := by
  have hmem : ∀ n ∈ [Glob.star, Glob.question, Glob.openBracket, Glob.openBrace, Glob.closeBrace,
      Glob.backslash], n ∈ metaBytes.map UInt8.toNat := by decide
  refine ⟨?_, ?_, ?_, ?_, ?_, ?_⟩ <;> rintro rfl <;> exact h (hmem _ (by decide))

/-- A text without bytes that have a meaning consists of literal code points. -/
lemma isLiteral_of_mem_runes (h : ∀ b ∈ dir, b ∉ metaBytes) {c : ℕ} (hc : c ∈ Text.runes dir) :
    Glob.IsLiteral c := by
  refine isLiteral_of_not_mem fun hmeta => ?_
  obtain ⟨b, hb, rfl⟩ := List.mem_map.1 hmeta
  have hlow : ∀ b ∈ metaBytes, b.toNat < 0x80 := by decide
  rcases Text.exists_of_mem_runes hc with ⟨b', hb', heq⟩ | hbeyond
  · rw [UInt8.toNat_inj] at heq
    exact h b' hb' (heq ▸ hb)
  · exact absurd (hlow b hb) (Nat.not_lt.2 hbeyond)

/-- The directory of the pages has no more meaning in a pattern than the source directory. -/
lemma not_mem_metaBytes (h : Text.includesAny sourceDir metaBytes = false) :
    ∀ b ∈ pagesDir sourceDir, b ∉ metaBytes := by
  have hsource : ∀ b ∈ sourceDir, b ∉ metaBytes := by
    simpa [Text.includesAny] using h
  have hpages : ∀ b ∈ Byte.slash :: ("pages" : Text), b ∉ metaBytes := by decide
  intro b hb
  by_cases hs : sourceDir = []
  · subst hs
    have hdir : pagesDir [] = ("pages" : Text) := by decide
    rw [hdir] at hb
    exact hpages b (List.mem_cons_of_mem _ hb)
  · rcases mem_of_mem_join_names hs (List.cons_ne_nil _ _) (by decide) hb with hb | rfl | hb
    · exact hsource b hb
    · exact hpages _ List.mem_cons_self
    · simp only [List.mem_singleton, exists_eq_left] at hb
      exact hpages b (List.mem_cons_of_mem _ hb)

/-- The choice of `index` scripts. -/
def pageChoice : Glob.Choice where
  stem := ("index." : Text).map UInt8.toNat
  body := ("tsx,ts,jsx,js\x7d" : Text).map UInt8.toNat
  alts := scriptExts.map fun ext => (ext.drop 1).map UInt8.toNat
  closes := by decide
  isWord := by decide
  stem_isWord := by decide
  ne_nil := by decide
  length_le := by decide
  valid := by decide

lemma runes_pagePattern (sourceDir : Text) :
    Text.runes (pagePattern sourceDir) = pageChoice.under (Text.runes (pagesDir sourceDir)) := by
  have htail : Text.runes pageTail = Glob.star :: Glob.star :: Glob.slash :: pageChoice.whole := by
    rw [Text.runes_of_ascii (by decide)]
    decide
  rw [pagePattern_eq, Text.runes_append_cons (by decide), htail]
  rfl

/-- The page pattern is well formed. -/
theorem isValid_pagePattern (h : Text.includesAny sourceDir metaBytes = false) :
    Glob.isValid (pagePattern sourceDir) = true := by
  rw [Glob.isValid, runes_pagePattern]
  exact Glob.Choice.isValidFrom_under fun c hc => isLiteral_of_mem_runes (not_mem_metaBytes h) hc

/-! ### What the pattern matches -/

/-- The `index` script of a directory with an extension. -/
def pageAt (d ext : Text) : Text := d ++ Byte.slash :: (("index" : Text) ++ ext)

/-- The last segment of a name, read off its code points. -/
lemma endsIn_runes_iff {word name : Text} (h : ∀ b ∈ word, b < 0x80) :
    Glob.EndsIn (word.map UInt8.toNat) (Text.runes name)
      ↔ name = word ∨ Byte.slash :: word <:+ name := by
  have hcons : Glob.slash :: word.map UInt8.toNat = (Byte.slash :: word).map UInt8.toNat := rfl
  rw [Glob.EndsIn, hcons, Text.runes_eq_map_iff h,
    Text.map_suffix_runes_iff (List.forall_mem_cons.2 ⟨by decide, h⟩)]

lemma accepts_pageChoice_iff {name : Text} :
    pageChoice.accepts (Text.runes name) = true
      ↔ ∃ ext ∈ scriptExts, name = ("index" : Text) ++ ext
        ∨ Byte.slash :: (("index" : Text) ++ ext) <:+ name := by
  have hwords : ∀ ext ∈ scriptExts, pageChoice.stem ++ (ext.drop 1).map UInt8.toNat
      = (("index" : Text) ++ ext).map UInt8.toNat := by decide
  have hascii : ∀ ext ∈ scriptExts, ∀ b ∈ ("index" : Text) ++ ext, b < 0x80 := by decide
  rw [Glob.Choice.accepts, List.any_eq_true]
  constructor
  · rintro ⟨alt, halt, hends⟩
    obtain ⟨ext, hext, rfl⟩ := List.mem_map.1 halt
    rw [decide_eq_true_iff, hwords ext hext, endsIn_runes_iff (hascii ext hext)] at hends
    exact ⟨ext, hext, hends⟩
  · rintro ⟨ext, hext, hends⟩
    refine ⟨_, List.mem_map_of_mem hext, ?_⟩
    rw [decide_eq_true_iff, hwords ext hext, endsIn_runes_iff (hascii ext hext)]
    exact hends

/-- Below the directory of the pages the pattern asks for the last segment alone. -/
lemma accepts_pagePattern (h : Text.includesAny sourceDir metaBytes = false) (name : Text) :
    Glob.accepts (pagePattern sourceDir) (pagesDir sourceDir ++ Byte.slash :: name)
      = pageChoice.accepts (Text.runes name) :=
  Glob.Choice.accepts_under (runes_pagePattern sourceDir) fun _ hc =>
    isLiteral_of_mem_runes (not_mem_metaBytes h) hc

lemma lead_pagePattern (h : Text.includesAny sourceDir metaBytes = false) :
    Glob.lead (pagePattern sourceDir) = pagesDir sourceDir ++ [Byte.slash] := by
  have hspecial : ∀ b ∈ ("*?[\x7b\\" : Text), b ∈ metaBytes := by decide
  have hdir : ∀ b ∈ pagesDir sourceDir, Glob.isSpecial b = false := fun b hb => by
    rw [← Bool.not_eq_true, Glob.isSpecial, List.contains_iff_mem]
    exact fun hb' => not_mem_metaBytes h b hb (hspecial b hb')
  rw [pagePattern_eq]
  exact Glob.lead_append_cons hdir (b := Byte.star) (by decide) _

/-- **What the page pattern matches**: the `index` scripts at or below the directory of the
pages. -/
theorem matches_pagePattern_iff (h : Text.includesAny sourceDir metaBytes = false) {p : Text} :
    (Text.startsWith p (Glob.lead (pagePattern sourceDir))
        && Glob.accepts (pagePattern sourceDir) p) = true
      ↔ ∃ d, Memory.covers (pagesDir sourceDir) d = true
        ∧ ∃ ext ∈ scriptExts, p = pageAt d ext := by
  rw [Bool.and_eq_true, Text.startsWith_iff, lead_pagePattern h]
  constructor
  · rintro ⟨⟨name, rfl⟩, haccepts⟩
    rw [List.append_assoc, List.singleton_append, accepts_pagePattern h,
      accepts_pageChoice_iff] at haccepts
    obtain ⟨ext, hext, rfl | ⟨below, rfl⟩⟩ := haccepts
    · exact ⟨pagesDir sourceDir, Memory.covers_iff.2 (Or.inl rfl), ext, hext, by simp [pageAt]⟩
    · refine ⟨pagesDir sourceDir ++ Byte.slash :: below, Memory.covers_iff.2 (Or.inr ⟨below, ?_⟩),
        ext, hext, by simp [pageAt]⟩
      simp [slash_text]
  · rintro ⟨d, hd, ext, hext, rfl⟩
    rcases Memory.covers_iff.1 hd with rfl | ⟨below, rfl⟩
    · refine ⟨⟨_, by rw [pageAt, List.append_assoc, List.singleton_append]⟩, ?_⟩
      rw [pageAt, accepts_pagePattern h, accepts_pageChoice_iff]
      exact ⟨ext, hext, Or.inl rfl⟩
    · have happend : pageAt (pagesDir sourceDir ++ ("/" : Text) ++ below) ext
          = pagesDir sourceDir ++ Byte.slash :: pageAt below ext := by simp [pageAt, slash_text]
      rw [happend, accepts_pagePattern h, accepts_pageChoice_iff]
      exact ⟨⟨_, by rw [List.append_assoc, List.singleton_append]⟩, ext, hext,
        Or.inr (List.suffix_append _ _)⟩

end Catalog

end MiniProgram
