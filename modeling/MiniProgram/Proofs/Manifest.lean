import Mathlib.Data.List.DropRight
import MiniProgram.Manifest
import MiniProgram.Proofs.Json.Strings
import MiniProgram.Proofs.Text.Pieces
import MiniProgram.Proofs.Text.Search

/-!
The manifest reads back.

The document is written with line ends and indents and read as any JSON document is, with blanks
wherever the grammar has them.

* `Json.readValue?_string`, `Json.readElements?_lines`: what is written of a string and of a list of
  strings is read as that.
* `Manifest.parse?_render`: **reading gives back what was written**, except that a route that is no
  well-formed UTF-8 comes back with U+FFFD in it.
-/

namespace MiniProgram

namespace Json

variable {b : UInt8} {blanks t rest : Text} {fuel depth : ℕ}

/-! ### Blanks -/

lemma skipBlank_append_cons (hblanks : ∀ c ∈ blanks, isBlank c = true) (hb : isBlank b = false)
    (t : Text) : skipBlank (blanks ++ b :: t) = b :: t :=
  Text.dropWhile_append_cons hblanks hb t

lemma skipBlank_skipBlank (t : Text) : skipBlank (skipBlank t) = skipBlank t := by
  rw [skipBlank, skipBlank, List.dropWhile_idempotent isBlank]

lemma readValue?_skipBlank (fuel depth : ℕ) (t : Text) :
    readValue? fuel depth (skipBlank t) = readValue? fuel depth t := by
  cases fuel with
  | zero => rw [readValue?, readValue?]
  | succ fuel =>
      rw [readValue?.eq_def, readValue?.eq_def (fuel + 1) depth t]
      simp only [skipBlank_skipBlank]

lemma skipBlank_append (hblanks : ∀ c ∈ blanks, isBlank c = true) (t : Text) :
    skipBlank (blanks ++ t) = skipBlank t :=
  List.dropWhile_append_of_pos hblanks

lemma readElements?_skipBlank (fuel depth : ℕ) (t : Text) :
    readElements? fuel depth (skipBlank t) = readElements? fuel depth t := by
  cases fuel with
  | zero => rw [readElements?, readElements?]
  | succ fuel => rw [readElements?, readElements?, readValue?_skipBlank]

/-! ### Strings and lists of strings -/

lemma renderString_append (t rest : Text) :
    renderString t ++ rest
      = Byte.doubleQuote :: ((Text.runes t).flatMap escape ++ Byte.doubleQuote :: rest) := by
  simp [renderString]

lemma readScalar?_string (t rest : Text) :
    readScalar? (renderString t ++ rest) = some (.string (Text.toValid t), rest) := by
  rw [renderString_append]
  change (readString? _).map _ = _
  rw [readString?_body]
  rfl

/-- What is written of a string is read as that string. -/
lemma readValue?_string (hblanks : ∀ c ∈ blanks, isBlank c = true) (fuel depth : ℕ)
    (t rest : Text) :
    readValue? (fuel + 1) depth (blanks ++ (renderString t ++ rest))
      = some (.string (Text.toValid t), rest) := by
  rw [← readScalar?_string, renderString_append, readValue?.eq_def]
  simp only [skipBlank_append_cons hblanks (by decide : isBlank Byte.doubleQuote = false)]
  rfl

/-- An array that does not end at once is read element by element. -/
lemma readValue?_array {r x : Text} (ht : skipBlank t = Byte.openBracket :: r)
    (hr : skipBlank r = b :: x) (hb : b ≠ Byte.closeBracket) :
    readValue? (fuel + 1) (depth + 1) t
      = (readElements? fuel depth (b :: x)).map fun found => (.array found.1, found.2) := by
  rw [readValue?.eq_def]
  simp only [ht, Nat.add_one_ne_zero, if_false, Nat.add_sub_cancel]
  split
  case h_1 r' heq =>
    obtain rfl := (List.cons.inj heq).2
    rw [hr]
    split
    · rename_i hclose
      exact absurd (List.cons.inj hclose).1 hb
    · rfl
  case h_2 r' heq => exact absurd (List.cons.inj heq).1 (by decide)
  case h_3 hbracket _ => exact absurd rfl (hbracket r)

/-- What is written of the elements of a list is read as those strings. -/
lemma readElements?_lines {ts : List Text} (hne : ts ≠ []) (hfuel : ts.length < fuel)
    (depth : ℕ) (rest : Text) :
    readElements? fuel depth (Text.join ",\n" (ts.map fun t => "    " ++ renderString t)
        ++ ("\n  ]" ++ rest))
      = some (ts.map fun t => .string (Text.toValid t), rest) := by
  have hindent : ∀ c ∈ Text.ofString "    ", isBlank c = true := by decide
  induction ts generalizing fuel with
  | nil => exact absurd rfl hne
  | cons t ts ih =>
      obtain ⟨fuel, rfl⟩ : ∃ n, fuel = n + 2 := ⟨fuel - 2, by simp at hfuel; omega⟩
      by_cases hts : ts = []
      · subst hts
        simp only [List.map_cons, List.map_nil, Text.join_singleton, List.append_assoc]
        rw [readElements?, readValue?_string hindent]
        rfl
      · have hmap : ts.map (fun t => ("    " : Text) ++ renderString t) ≠ [] := by simpa using hts
        simp only [List.map_cons, Text.join_cons hmap, List.append_assoc]
        rw [readElements?, readValue?_string hindent]
        have hrest : readElements? (fuel + 1) depth (Text.ofString "\n"
              ++ (Text.join ",\n" (ts.map fun t => "    " ++ renderString t) ++ ("\n  ]" ++ rest)))
            = some (ts.map fun t => .string (Text.toValid t), rest) := by
          rw [← readElements?_skipBlank, skipBlank_append (by decide), readElements?_skipBlank]
          exact ih hts (by simpa using hfuel)
        exact congrArg (Option.map fun found => (string (Text.toValid t) :: found.1, found.2)) hrest

/-- An object that does not end at once is read member by member. -/
lemma readValue?_object {r x : Text} (ht : skipBlank t = Byte.openBrace :: r)
    (hr : skipBlank r = b :: x) (hb : b ≠ Byte.closeBrace) :
    readValue? (fuel + 1) (depth + 1) t
      = (readMembers? fuel depth (b :: x)).map fun found => (.object found.1, found.2) := by
  rw [readValue?.eq_def]
  simp only [ht, Nat.add_one_ne_zero, if_false, Nat.add_sub_cancel]
  split
  case h_1 r' heq => exact absurd (List.cons.inj heq).1 (by decide)
  case h_2 r' heq =>
    obtain rfl := (List.cons.inj heq).2
    rw [hr]
    split
    · rename_i hclose
      exact absurd (List.cons.inj hclose).1 hb
    · rfl
  case h_3 _ hbrace => exact absurd rfl (hbrace r)

/-- An object with one member. -/
lemma readMembers?_single {key closing : Text} {v : Json}
    (hv : readValue? fuel depth t = some (v, closing))
    (hclosing : skipBlank closing = Byte.closeBrace :: rest) :
    readMembers? (fuel + 1) depth (renderString key ++ (":" ++ t))
      = some ([(Text.toValid key, v)], rest) := by
  have hquote : ∀ t, skipBlank (Byte.doubleQuote :: t) = Byte.doubleQuote :: t := fun t => rfl
  have hcolon : Text.after? ":" (skipBlank (":" ++ t)) = some t := rfl
  rw [renderString_append, readMembers?, hquote]
  change readString? _ >>= _ = _
  simp only [readString?_body, Option.bind_eq_bind, Option.bind_some, hcolon, hv, hclosing]
  rfl

end Json

namespace Manifest

open Json (renderString readMembers? readValue? readElements? skipBlank)

/-! ### The document -/

/-- The list of pages as it is written. -/
def listText (pages : List Text) : Text :=
  if pages = [] then "[]"
  else "[\n" ++ (Text.join ",\n" (pages.map fun p => "    " ++ renderString p) ++ "\n  ]")

lemma render_eq (m : Manifest) :
    m.render = Byte.openBrace :: ("\n  " ++ (renderString pagesKey
      ++ (": " ++ (listText m.pages ++ "\n\x7d")))) := by
  rw [render, listText]
  split_ifs <;> simp only [List.append_assoc] <;> rfl

/-- What is written of the list of pages is read as that list. -/
lemma readValue?_listText {pages : List Text} {fuel : ℕ} (hfuel : pages.length < fuel) (depth : ℕ)
    (rest : Text) :
    readValue? (fuel + 1) (depth + 1) (" " ++ (listText pages ++ rest))
      = some (.array (pages.map fun p => .string (Text.toValid p)), rest) := by
  cases pages with
  | nil => rfl
  | cons p pages =>
      have helements := Json.readElements?_lines (List.cons_ne_nil p pages) hfuel depth rest
      have hopen : skipBlank (" " ++ (listText (p :: pages) ++ rest)) = Byte.openBracket ::
          ("\n" ++ (Text.join ",\n" ((p :: pages).map fun p => "    " ++ renderString p)
            ++ ("\n  ]" ++ rest))) := by
        rw [listText, if_neg (List.cons_ne_nil p pages)]
        simp only [List.append_assoc]
        rfl
      have hfirst : ∃ x, skipBlank ("\n" ++ (Text.join ",\n" ((p :: pages).map fun p =>
          "    " ++ renderString p) ++ ("\n  ]" ++ rest))) = Byte.doubleQuote :: x := by
        obtain ⟨x, hx⟩ := Text.exists_join_cons ",\n" ("    " ++ renderString p)
          (pages.map fun p => "    " ++ renderString p)
        rw [List.map_cons, hx, List.append_assoc, List.append_assoc,
          Json.skipBlank_append (by decide), Json.renderString_append,
          Json.skipBlank_append_cons (by decide) (by decide)]
        exact ⟨_, rfl⟩
      obtain ⟨x, hx⟩ := hfirst
      rw [Json.readValue?_array hopen hx (by decide), ← hx, Json.skipBlank_append (by decide),
        Json.readElements?_skipBlank, helements]
      rfl

/-- The reading of the elements written. -/
lemma overwrite?_strings (old ts : List Text) : overwrite? old (ts.map .string) = some ts := by
  induction ts generalizing old with
  | nil => rfl
  | cons t ts ih => rw [List.map_cons, overwrite?, ih]; rfl

lemma readMember?_pages (ts : List Text) :
    readMember? ⟨[], 0⟩ (pagesKey, .array (ts.map .string)) = some ⟨ts, ts.length⟩ := by
  have hkey : Json.names pagesKey pagesKey = true := by decide
  cases ts with
  | nil => simp [readMember?, hkey]
  | cons t ts =>
      have helements := overwrite?_strings [] (t :: ts)
      rw [List.map_cons] at helements ⊢
      simp [readMember?, hkey, helements]

lemma length_le_length_listText (pages : List Text) : pages.length ≤ (listText pages).length := by
  rw [listText]
  split_ifs with h
  · simp [h]
  · have hne : ∀ s ∈ pages.map fun p => ("    " : Text) ++ renderString p, s ≠ [] := by
      intro s hs
      obtain ⟨p, -, rfl⟩ := List.mem_map.1 hs
      simp [renderString]
    have hjoin := Text.length_le_length_join ",\n" hne
    rw [List.length_append, List.length_append]
    rw [List.length_map] at hjoin
    omega

/-- **Reading gives back what was written**: every list of routes is read, in its order, and comes
back unchanged exactly if all routes are well-formed UTF-8; of any other, the ill-formed bytes come
back as U+FFFD. -/
theorem parse?_render (m : Manifest) :
    parse? m.render = some ⟨m.pages.map Text.toValid⟩
    ∧ (parse? m.render = some m ↔ ∀ p ∈ m.pages, Text.valid p = true) := by
  -- the reader has fuel for every route, since each is written with two quotes around it
  obtain ⟨fuel, hfuel, hpages⟩ :
      ∃ fuel, 2 * m.render.length = fuel + 1 ∧ m.pages.length < fuel := by
    have hlist := length_le_length_listText m.pages
    have hlength : m.pages.length + 1 ≤ m.render.length := by
      rw [render_eq]
      simp only [List.length_cons, List.length_append]
      omega
    exact ⟨2 * m.render.length - 1, by omega, by omega⟩
  have hkey : Text.toValid pagesKey = pagesKey := by decide
  have hmembers : readMembers? (fuel + 2) (9998 + 1)
      (renderString pagesKey ++ (":" ++ (" " ++ (listText m.pages ++ "\n\x7d"))))
      = some ([(pagesKey, .array (m.pages.map fun p => .string (Text.toValid p)))], []) := by
    rw [Json.readMembers?_single (readValue?_listText hpages 9998 "\n\x7d") rfl, hkey]
  have hparse : parse? m.render = some ⟨m.pages.map Text.toValid⟩ := by
    have hvalue : Json.parse? Json.nestingLimit m.render = some (.object
        [(pagesKey, .array (m.pages.map fun p => .string (Text.toValid p)))]) := by
      have hread : Json.parseFirst? Json.nestingLimit m.render = some (.object
          [(pagesKey, .array (m.pages.map fun p => .string (Text.toValid p)))], []) := by
        rw [Json.parseFirst?, hfuel, render_eq]
        exact (Json.readValue?_object rfl (Json.skipBlank_append_cons (by decide) (by decide) _)
          (by decide)).trans (congrArg (Option.map _) hmembers)
      rw [Json.parse?, hread]
      rfl
    have hmember : readMember? ⟨[], 0⟩
          (pagesKey, .array (m.pages.map fun p => .string (Text.toValid p)))
        = some ⟨m.pages.map Text.toValid, (m.pages.map Text.toValid).length⟩ := by
      simpa only [List.map_map, Function.comp_def] using
        readMember?_pages (m.pages.map Text.toValid)
    rw [parse?, hvalue]
    simp only [Option.bind_eq_bind, Option.bind_some, List.foldlM_cons, List.foldlM_nil, hmember,
      Option.pure_def, List.take_length]
  -- a route comes back as it was exactly if `toValid` keeps it
  refine ⟨hparse, ?_⟩
  rw [hparse, Option.some.injEq]
  simp only [← Text.toValid_eq_self_iff]
  constructor
  · intro h p hp
    have hpages : m.pages.map Text.toValid = m.pages.map id := by
      rw [List.map_id]
      exact congrArg Manifest.pages h
    exact List.map_inj_left.1 hpages p hp
  · intro h
    rw [List.map_congr_left h, List.map_id']

end Manifest

end MiniProgram
