import MiniProgram.Proofs.FileSystem.Files
import MiniProgram.Proofs.Path.Plain
import MiniProgram.Proofs.Text.Order
import MiniProgram.Proofs.Text.Search

/-!
Walks over a tree of files in memory.

Where no file lies below another, the files by their keys make a tree: its directories are what
stands above the files. A walk goes from a directory to its children, and so reaches every file
below and every directory above one of them.

* `IsTree`: the stored files make a tree.
* `mem_children_iff`: the children of a directory are the first segments of what lies below it.
* `visitsShown`: a walk visits its start, the files below it and the directories in between.
* `FileSystem.mem_tree_iff`: **the tree of a view** shows the files below its directory and the
  directories they lie in, and nothing else.
-/

namespace MiniProgram

namespace Memory

open MiniProgram.Path

/-- The stored files make a tree: their keys are plain paths, and none lies below another. -/
structure IsTree (m : Memory) : Prop where
  plain : ∀ f ∈ m.files, IsPlain f.1
  leaf : ∀ f ∈ m.files, ∀ g ∈ m.files, ¬ f.1 ++ ("/" : Text) <+: g.1

instance (m : Memory) : Decidable m.IsTree :=
  decidable_of_iff ((∀ f ∈ m.files, IsPlain f.1)
      ∧ ∀ f ∈ m.files, ∀ g ∈ m.files, ¬ f.1 ++ ("/" : Text) <+: g.1)
    ⟨fun h => ⟨h.1, h.2⟩, fun h => ⟨h.plain, h.leaf⟩⟩

/-- The files below a directory by their paths from there. -/
def filesBelow (m : Memory) (name : Text) : List Text :=
  m.files.filterMap fun (k, _) => below? name k

/-- What the keys below a directory begin with. -/
def lead (name : Text) : Text := if name = ("." : Text) then [] else name ++ "/"

/-- Whether a path stands for a file or for a directory with files in it. -/
def IsShown (files : List Text) (p : Text) : Prop := ∃ r ∈ files, covers p r = true

variable {m : Memory} {name p q r s : Text} {e : DirEntry} {fuel : ℕ}

/-! ### Names -/

/-- Where a directory is in the tree: at the root or at a plain path. -/
def IsDirName (name : Text) : Prop := name = ("." : Text) ∨ IsPlain name

lemma isDirName_of_isValidName (h : isValidName name = true) : IsDirName name := by
  rw [isValidName, Bool.and_eq_true, Bool.or_eq_true, decide_eq_true_iff, List.all_eq_true] at h
  refine h.2.imp_right fun hall => isPlain_iff.2 fun x hx => ?_
  have hx' := hall x hx
  simp only [Bool.and_eq_true, decide_eq_true_iff] at hx'
  exact ⟨hx'.1.1, hx'.1.2, hx'.2, no_slash_of_mem_split hx⟩

lemma lead_of_isPlain (h : IsPlain name) : lead name = name ++ ("/" : Text) :=
  if_neg (ne_dot_of_isPlain h)

/-- A name in a directory continues what the keys there begin with. -/
lemma join_eq_lead_append (hname : IsDirName name) (hs : IsName s) :
    Path.join [name, s] = lead name ++ s := by
  have hnames : ∀ x ∈ [s], IsName x := by simpa using hs
  rcases hname with rfl | hplain
  · have hdot : isAbsolute ("." : Text) = false
        ∧ cleanSegments false (Text.split Byte.slash ("." : Text)) = [] := by decide
    rw [join_names (by decide) (List.cons_ne_nil _ _) hnames, hdot.1, hdot.2, lead, if_pos rfl]
    exact Text.join_singleton [Byte.slash] s
  · have hres : Resolved false (Text.split Byte.slash name) := resolved_of_isName hplain.isName
    rw [join_names hplain.ne_nil (List.cons_ne_nil _ _) hnames,
      isAbsolute_eq_false_of_isName hplain.isName, hres.clean, lead_of_isPlain hplain, spell,
      if_neg (by simp), Text.join_append (Text.split_ne_nil _ _) (List.cons_ne_nil _ _),
      Text.join_split, Text.join_singleton]
    rfl

lemma isPlain_lead_append (hname : IsDirName name) (hp : IsPlain p) : IsPlain (lead name ++ p) := by
  rcases hname with rfl | hplain
  · exact hp
  · rw [lead_of_isPlain hplain, List.append_assoc]
    exact isPlain_append_iff.2 ⟨hplain, hp⟩

lemma lead_append_ne (hname : IsDirName name) (hp : IsPlain p) : lead name ++ p ≠ name := by
  rcases hname with rfl | hplain
  · exact ne_dot_of_isPlain hp
  · rw [lead_of_isPlain hplain, List.append_assoc, Ne, List.append_right_eq_self]
    exact List.append_ne_nil_of_right_ne_nil _ hp.ne_nil

/-! ### What lies below a directory -/

lemma below?_eq_some (hk : q ≠ ("." : Text)) : below? name q = some r ↔ q = lead name ++ r := by
  rw [below?, lead]
  split_ifs
  · simp
  · exact Text.after?_eq_some

lemma mem_filesBelow (h : m.IsTree) :
    r ∈ m.filesBelow name ↔ ∃ f ∈ m.files, f.1 = lead name ++ r := by
  rw [filesBelow, List.mem_filterMap]
  exact exists_congr fun f => and_congr_right fun hf =>
    below?_eq_some (ne_dot_of_isPlain (h.plain f hf))

lemma isPlain_of_mem_filesBelow (h : m.IsTree) (hr : r ∈ m.filesBelow name) : IsPlain r := by
  obtain ⟨f, hf, hkey⟩ := (mem_filesBelow h).1 hr
  have hplain := h.plain f hf
  rw [hkey, lead] at hplain
  split_ifs at hplain with hdot
  · exact hplain
  · rw [List.append_assoc] at hplain
    exact (isPlain_append_iff.1 hplain).2

lemma isPlain_of_isShown (h : m.IsTree) (hp : IsShown (m.filesBelow name) p) : IsPlain p := by
  obtain ⟨r, hr, hcovers⟩ := hp
  have hplain := isPlain_of_mem_filesBelow h hr
  rcases covers_iff.1 hcovers with rfl | ⟨rest, rfl⟩
  · exact hplain
  · rw [slash_text, List.append_assoc] at hplain
    exact (isPlain_append_iff.1 hplain).1

/-- No file lies below another. -/
lemma not_mem_filesBelow (h : m.IsTree) (hr : s ++ Byte.slash :: r ∈ m.filesBelow name) :
    s ∉ m.filesBelow name := by
  intro hs
  obtain ⟨f, hf, hfkey⟩ := (mem_filesBelow h).1 hs
  obtain ⟨g, hg, hgkey⟩ := (mem_filesBelow h).1 hr
  refine h.leaf f hf g hg ⟨r, ?_⟩
  rw [hfkey, hgkey]
  simp [slash_text]

/-- What lies below a child lies below its directory. -/
lemma mem_filesBelow_child (h : m.IsTree) (hname : IsDirName name) (hs : IsName s) :
    r ∈ m.filesBelow (lead name ++ s) ↔ s ++ Byte.slash :: r ∈ m.filesBelow name := by
  have hplain := isPlain_lead_append hname (isPlain_of_isName_self hs)
  rw [mem_filesBelow h, mem_filesBelow h, lead_of_isPlain hplain]
  simp [slash_text]

/-! ### Children -/

lemma takeWhile_of_isName (h : IsName s) : s.takeWhile (· ≠ Byte.slash) = s :=
  List.takeWhile_eq_self_iff.2 (Text.forall_ne_of_not_mem h.no_slash)

/-- The children of a directory are its files and the directories in which more of them lie. -/
lemma mem_children_iff (h : m.IsTree) :
    e ∈ m.children name ↔ IsName e.name
      ∧ ((e.isDir = false ∧ e.name ∈ m.filesBelow name)
        ∨ (e.isDir = true ∧ ∃ r, e.name ++ Byte.slash :: r ∈ m.filesBelow name)) := by
  have hdef : m.children name = (Text.sortUnique ((m.filesBelow name).map fun r =>
      r.takeWhile (· ≠ Byte.slash))).map fun n =>
        ⟨n, !((m.filesBelow name).filter fun r => Byte.slash ∉ r).contains n⟩ := rfl
  obtain ⟨n, isDir⟩ := e
  -- a child is a first segment of what lies below, and a file if it lies there as a whole
  have hmem : ⟨n, isDir⟩ ∈ m.children name
      ↔ (∃ r ∈ m.filesBelow name, r.takeWhile (· ≠ Byte.slash) = n)
        ∧ (isDir = false ↔ n ∈ m.filesBelow name ∧ Byte.slash ∉ n) := by
    rw [hdef, List.mem_map]
    simp only [Text.mem_sortUnique, List.mem_map, DirEntry.mk.injEq]
    constructor
    · rintro ⟨n, hfirst, rfl, rfl⟩
      exact ⟨hfirst, by simp⟩
    · rintro ⟨hfirst, hdir⟩
      refine ⟨n, hfirst, rfl, ?_⟩
      cases isDir with
      | false => simpa using hdir
      | true => simpa [imp_iff_not_or] using hdir
  rw [hmem]
  constructor
  · rintro ⟨⟨r, hr, rfl⟩, hdir⟩
    rcases isPlain_cases (isPlain_of_mem_filesBelow h hr) with hn | ⟨s, r, rfl, hs, -⟩
    · rw [takeWhile_of_isName hn] at hdir ⊢
      exact ⟨hn, Or.inl ⟨hdir.2 ⟨hr, hn.no_slash⟩, hr⟩⟩
    · have hfirst : (s ++ Byte.slash :: r).takeWhile (· ≠ Byte.slash) = s :=
        Text.takeWhile_append_cons (Text.forall_ne_of_not_mem hs.no_slash) (by simp) r
      rw [hfirst] at hdir ⊢
      refine ⟨hs, Or.inr ⟨Bool.eq_true_of_not_eq_false fun hfile => ?_, r, hr⟩⟩
      exact not_mem_filesBelow h hr (hdir.1 hfile).1
  · rintro ⟨hn, ⟨rfl, hfile⟩ | ⟨rfl, r, hr⟩⟩
    · exact ⟨⟨n, hfile, takeWhile_of_isName hn⟩, by simp [hfile, hn.no_slash]⟩
    · have hfirst : (n ++ Byte.slash :: r).takeWhile (· ≠ Byte.slash) = n :=
        Text.takeWhile_append_cons (Text.forall_ne_of_not_mem hn.no_slash) (by simp) r
      exact ⟨⟨_, hr, hfirst⟩, by simp [not_mem_filesBelow h hr]⟩

/-! ### Walking -/

/-- A walk on which nothing is left out is not cut short. -/
lemma snd_walkFrom (m : Memory) (fuel : ℕ) (name : Text) (isDir : Bool) :
    (m.walkFrom (fun _ => false) fuel name isDir).2 = false := by
  cases fuel with
  | zero => rfl
  | succ fuel =>
      cases isDir with
      | false => rfl
      | true => rfl

/-- A walk from a directory visits it and walks from each child in turn. -/
lemma walkFrom_dir (m : Memory) (fuel : ℕ) (name : Text) :
    (m.walkFrom (fun _ => false) (fuel + 1) name true).1
      = ⟨name, true⟩ :: (m.children name).flatMap fun e =>
        (m.walkFrom (fun _ => false) fuel (Path.join [name, e.name]) e.isDir).1 := by
  have hfold : ∀ (es : List DirEntry) (visits : List Visit),
      es.foldl (fun (acc : List Visit × Bool) e =>
        if acc.2 then acc
        else (acc.1 ++ (m.walkFrom (fun _ => false) fuel (Path.join [name, e.name]) e.isDir).1,
          (m.walkFrom (fun _ => false) fuel (Path.join [name, e.name]) e.isDir).2)) (visits, false)
        = (visits ++ es.flatMap fun e =>
          (m.walkFrom (fun _ => false) fuel (Path.join [name, e.name]) e.isDir).1, false) := by
    intro es
    induction es with
    | nil => simp
    | cons e es ih =>
        intro visits
        rw [List.foldl_cons, List.flatMap_cons, ← List.append_assoc, ← ih]
        simp [snd_walkFrom]
  rw [walkFrom]
  exact congrArg (fun acc : List Visit × Bool => ⟨name, true⟩ :: acc.1) (hfold _ _)

lemma walkFrom_file (m : Memory) (fuel : ℕ) (name : Text) :
    (m.walkFrom (fun _ => false) (fuel + 1) name false).1 = [⟨name, false⟩] := rfl

/-- A path covers one that goes down from a name if it is the name or does so below it. -/
lemma covers_append_cons_iff (hs : Byte.slash ∉ s) :
    covers p (s ++ Byte.slash :: r) = true
      ↔ p = s ∨ ∃ p', p = s ++ Byte.slash :: p' ∧ covers p' r = true := by
  constructor
  · intro hcovers
    rcases covers_iff.1 hcovers with heq | ⟨rest, hrest⟩
    · exact Or.inr ⟨r, heq.symm, covers_iff.2 (Or.inl rfl)⟩
    · -- the path cannot end before the name does
      rw [slash_text, List.append_assoc, List.singleton_append] at hrest
      rcases List.append_eq_append_iff.1 hrest with ⟨a, hsplit, ha⟩ | ⟨a, rfl, ha⟩
      · cases a with
        | nil => exact Or.inl (by simpa using hsplit.symm)
        | cons b a =>
            obtain ⟨rfl, -⟩ := List.cons.inj ha
            exact absurd (by simp [hsplit]) hs
      · cases a with
        | nil => exact Or.inl (List.append_nil s)
        | cons b a =>
            obtain ⟨rfl, hbelow⟩ := List.cons.inj ha
            refine Or.inr ⟨a, rfl, covers_iff.2 (Or.inr ⟨rest, ?_⟩)⟩
            rw [slash_text, List.append_assoc]
            exact hbelow.symm
  · rintro (rfl | ⟨p, rfl, hcovers⟩)
    · exact covers_iff.2 (Or.inr ⟨r, by simp [slash_text]⟩)
    · rcases covers_iff.1 hcovers with rfl | ⟨rest, rfl⟩
      · exact covers_iff.2 (Or.inl rfl)
      · exact covers_iff.2 (Or.inr ⟨rest, by simp⟩)

/-- What is shown below a child, seen from the directory. -/
def IsShownUnder (m : Memory) (name : Text) (e : DirEntry) (p : Text) : Prop :=
  p = e.name ∨ (e.isDir = true ∧ ∃ p', p = e.name ++ Byte.slash :: p'
    ∧ IsShown (m.filesBelow (lead name ++ e.name)) p')

/-- What is shown is a child, or is shown below a child. -/
lemma isShown_iff (h : m.IsTree) (hname : IsDirName name) :
    IsShown (m.filesBelow name) p ↔ ∃ e ∈ m.children name, m.IsShownUnder name e p := by
  constructor
  · rintro ⟨r, hr, hcovers⟩
    rcases isPlain_cases (isPlain_of_mem_filesBelow h hr) with hn | ⟨s, r, rfl, hs, -⟩
    · refine ⟨⟨r, false⟩, (mem_children_iff h).2 ⟨hn, Or.inl ⟨rfl, hr⟩⟩, Or.inl ?_⟩
      rcases covers_iff.1 hcovers with heq | ⟨rest, rfl⟩
      · exact heq.symm
      · exact absurd (by simp [slash_text]) hn.no_slash
    · refine ⟨⟨s, true⟩, (mem_children_iff h).2 ⟨hs, Or.inr ⟨rfl, r, hr⟩⟩, ?_⟩
      refine ((covers_append_cons_iff hs.no_slash).1 hcovers).imp_right ?_
      rintro ⟨p', rfl, hcovers'⟩
      exact ⟨rfl, p', rfl, r, (mem_filesBelow_child h hname hs).2 hr, hcovers'⟩
  · rintro ⟨⟨s, isDir⟩, he, hp⟩
    obtain ⟨hs, hkind⟩ := (mem_children_iff h).1 he
    rcases hp with hp | ⟨-, p', hp, r, hr, hcovers⟩
    · rcases hkind with ⟨-, hfile⟩ | ⟨-, r, hr⟩
      · exact ⟨s, hfile, covers_iff.2 (Or.inl hp.symm)⟩
      · exact ⟨_, hr, (covers_append_cons_iff hs.no_slash).2 (Or.inl hp)⟩
    · exact ⟨_, (mem_filesBelow_child h hname hs).1 hr,
        (covers_append_cons_iff hs.no_slash).2 (Or.inr ⟨p', hp, hcovers⟩)⟩

/-- A walk from a directory visits the directory, the files below it and the directories in between,
and nothing else. -/
def VisitsShown (m : Memory) (fuel : ℕ) (name : Text) : Prop :=
  ∀ q, (∃ isDir, ⟨q, isDir⟩ ∈ (m.walkFrom (fun _ => false) fuel name true).1)
    ↔ q = name ∨ ∃ p, q = lead name ++ p ∧ IsShown (m.filesBelow name) p

/-- A walk from a child visits what is shown below the child, if it does so in directories. -/
lemma mem_walkFrom_child (h : m.IsTree) (hname : IsDirName name) (he : e ∈ m.children name)
    (hdir : e.isDir = true → m.VisitsShown (fuel + 1) (lead name ++ e.name)) :
    (∃ isDir, ⟨q, isDir⟩ ∈ (m.walkFrom (fun _ => false) (fuel + 1)
        (Path.join [name, e.name]) e.isDir).1)
      ↔ ∃ p, q = lead name ++ p ∧ m.IsShownUnder name e p := by
  obtain ⟨s, isDir⟩ := e
  have hs : IsName s := ((mem_children_iff h).1 he).1
  rw [join_eq_lead_append hname hs]
  cases isDir with
  | false =>
      rw [walkFrom_file]
      simp [IsShownUnder]
  | true =>
      have hplain := isPlain_lead_append hname (isPlain_of_isName_self hs)
      rw [hdir rfl q, lead_of_isPlain hplain]
      constructor
      · rintro (rfl | ⟨p, rfl, hp⟩)
        · exact ⟨s, rfl, Or.inl rfl⟩
        · exact ⟨s ++ Byte.slash :: p, by simp [slash_text], Or.inr ⟨rfl, p, rfl, hp⟩⟩
      · rintro ⟨p, rfl, rfl | ⟨-, p, rfl, hp⟩⟩
        · exact Or.inl rfl
        · exact Or.inr ⟨p, by simp [slash_text], hp⟩

/-- A walk from a directory visits it and what is shown below it. -/
theorem visitsShown (h : m.IsTree) {fuel : ℕ} {name : Text} (hname : IsDirName name)
    (hfuel : ∀ r ∈ m.filesBelow name, (Text.split Byte.slash r).length < fuel) :
    m.VisitsShown (fuel + 1) name := by
  induction fuel generalizing name with
  | zero =>
      -- every file below has a segment, so there is none
      have hnil : m.filesBelow name = [] :=
        List.eq_nil_iff_forall_not_mem.2 fun r hr => Nat.not_lt_zero _ (hfuel r hr)
      have hchildren : m.children name = [] := by
        refine List.eq_nil_iff_forall_not_mem.2 fun e he => ?_
        rw [mem_children_iff h, hnil] at he
        simp at he
      intro q
      rw [walkFrom_dir, hchildren, hnil]
      simp [IsShown]
  | succ fuel ih =>
      have hchild : ∀ q, ∀ e ∈ m.children name,
          (∃ isDir, ⟨q, isDir⟩ ∈ (m.walkFrom (fun _ => false) (fuel + 1)
            (Path.join [name, e.name]) e.isDir).1)
          ↔ ∃ p, q = lead name ++ p ∧ m.IsShownUnder name e p := by
        intro q e he
        have hs : IsName e.name := ((mem_children_iff h).1 he).1
        refine mem_walkFrom_child h hname he fun _ => ih ?_ fun r hr => ?_
        · exact Or.inr (isPlain_lead_append hname (isPlain_of_isName_self hs))
        · -- below a child there is one segment less to go
          have hlt := hfuel _ ((mem_filesBelow_child h hname hs).1 hr)
          rw [Text.split_append, Text.split_eq_singleton hs.no_slash, List.length_append,
            List.length_singleton] at hlt
          omega
      intro q
      rw [walkFrom_dir]
      constructor
      · rintro ⟨isDir, hmem⟩
        rcases List.mem_cons.1 hmem with heq | hmem
        · exact Or.inl (Visit.mk.inj heq).1
        · obtain ⟨e, he, hmem⟩ := List.mem_flatMap.1 hmem
          obtain ⟨p, hq, hp⟩ := (hchild q e he).1 ⟨isDir, hmem⟩
          exact Or.inr ⟨p, hq, (isShown_iff h hname).2 ⟨e, he, hp⟩⟩
      · rintro (rfl | ⟨p, hq, hp⟩)
        · exact ⟨true, List.mem_cons_self⟩
        · obtain ⟨e, he, hp⟩ := (isShown_iff h hname).1 hp
          obtain ⟨isDir, hmem⟩ := (hchild q e he).2 ⟨p, hq, hp⟩
          exact ⟨isDir, List.mem_cons_of_mem _ (List.mem_flatMap.2 ⟨e, he, hmem⟩)⟩

/-! ### A walk from a name -/

lemma le_foldl_max {α : Type} (size : α → ℕ) (xs : List α) (d : ℕ) :
    d ≤ xs.foldl (fun d x => max d (size x)) d
      ∧ ∀ x ∈ xs, size x ≤ xs.foldl (fun d x => max d (size x)) d := by
  induction xs generalizing d with
  | nil => exact ⟨le_rfl, by simp⟩
  | cons x xs ih =>
      obtain ⟨hstart, hall⟩ := ih (max d (size x))
      rw [List.foldl_cons, List.forall_mem_cons]
      exact ⟨(le_max_left _ _).trans hstart, (le_max_right _ _).trans hstart, hall⟩

/-- No file is deeper than the deepest. -/
lemma length_split_le_depth (h : m.IsTree) (hr : r ∈ m.filesBelow name) :
    (Text.split Byte.slash r).length ≤ m.depth := by
  obtain ⟨f, hf, hkey⟩ := (mem_filesBelow h).1 hr
  have hdepth := (le_foldl_max (fun f : Text × Text => (Text.split Byte.slash f.1).length)
    m.files 0).2 f hf
  refine le_trans ?_ hdepth
  rw [hkey, lead]
  split_ifs
  · exact le_rfl
  · rw [slash_text, List.append_assoc, List.singleton_append, Text.split_append,
      List.length_append]
    exact Nat.le_add_left _ _

lemma filesBelow_eq_nil_of_children (h : m.IsTree) (hname : IsDirName name)
    (hnil : m.children name = []) : m.filesBelow name = [] := by
  refine List.eq_nil_iff_forall_not_mem.2 fun r hr => ?_
  obtain ⟨e, he, -⟩ := (isShown_iff h hname).1 ⟨r, hr, covers_iff.2 (Or.inl rfl)⟩
  rw [hnil] at he
  cases he

/-- Below a file there is nothing. -/
lemma filesBelow_eq_nil_of_get? (h : m.IsTree) {content : Text}
    (hget : m.get? name = some content) : m.filesBelow name = [] := by
  have hmem := mem_of_get? hget
  refine List.eq_nil_iff_forall_not_mem.2 fun r hr => ?_
  obtain ⟨g, hg, hkey⟩ := (mem_filesBelow h).1 hr
  rw [lead_of_isPlain (h.plain _ hmem)] at hkey
  exact h.leaf _ hmem g hg ⟨r, hkey.symm⟩

/-- What a walk from a name visits, but for the name itself, is what is shown below it. -/
theorem mem_walkName_iff (h : m.IsTree) (hvalid : isValidName name = true) :
    (∃ visits, m.walkName (fun _ => false) name = .ok visits
      ∧ ∃ isDir, ⟨q, isDir⟩ ∈ visits ∧ q ≠ name)
      ↔ ∃ p, q = lead name ++ p ∧ IsShown (m.filesBelow name) p := by
  have hname := isDirName_of_isValidName hvalid
  -- a name that has nothing below it is visited alone, if at all
  have hempty : m.filesBelow name = [] →
      ¬ ∃ p, q = lead name ++ p ∧ IsShown (m.filesBelow name) p := by
    rintro hnil ⟨p, -, r, hr, -⟩
    rw [hnil] at hr
    cases hr
  cases hget : m.get? name with
  | some content =>
      have hopen : m.open? name = .ok (.file content) := by simp [open?, hvalid, hget]
      refine iff_of_false ?_ (hempty (filesBelow_eq_nil_of_get? h hget))
      rintro ⟨visits, hwalk, isDir, hmem, hq⟩
      rw [walkName, hopen] at hwalk
      obtain rfl := Except.ok.inj hwalk
      rw [walkFrom_file, List.mem_singleton] at hmem
      exact hq (Visit.mk.inj hmem).1
  | none =>
      by_cases hnothing : m.children name = [] ∧ name ≠ ("." : Text)
      · have hopen : m.open? name = .error (.on "open" name .notStored) := by
          simp [open?, hvalid, hget, hnothing.1, hnothing.2]
        refine iff_of_false ?_ (hempty (filesBelow_eq_nil_of_children h hname hnothing.1))
        rintro ⟨visits, hwalk, -⟩
        rw [walkName, hopen] at hwalk
        cases hwalk
      · have hopen : ∃ entries, m.open? name = .ok (.dir entries) := by
          rw [open?, hvalid, hget]
          cases hchildren : m.children name with
          | nil => exact ⟨[], by simpa [hchildren] using hnothing⟩
          | cons e es => exact ⟨e :: es, by simp⟩
        obtain ⟨entries, hopen⟩ := hopen
        have hwalk : m.walkName (fun _ => false) name
            = .ok (m.walkFrom (fun _ => false) (m.depth + 1 + 1) name true).1 := by
          rw [walkName, hopen]
          rfl
        have hvisits := visitsShown h hname (fun r hr =>
          Nat.lt_succ_of_le (length_split_le_depth h hr)) q
        constructor
        · rintro ⟨visits, hok, isDir, hmem, hq⟩
          rw [hwalk] at hok
          obtain rfl := Except.ok.inj hok
          exact (hvisits.1 ⟨isDir, hmem⟩).resolve_left hq
        · rintro ⟨p, rfl, hp⟩
          obtain ⟨isDir, hmem⟩ := hvisits.2 (Or.inr ⟨p, rfl, hp⟩)
          exact ⟨_, hwalk, isDir, hmem, lead_append_ne hname (isPlain_of_isShown h hp)⟩

end Memory

namespace FileSystem

open MiniProgram.Path

variable {m : Memory} {locked : Bool} {dir p : Text} {v : View}

/-- What a walk over a file system in memory shows begins with the directory as it is shown. -/
lemma rooted_lead (hname : Memory.IsDirName p) :
    (if rooted p = ("/" : Text) then rooted p else rooted p ++ ("/" : Text))
      = Byte.slash :: Memory.lead p := by
  rcases hname with rfl | hplain
  · decide
  · have hroot : rooted p = Byte.slash :: p := if_neg (ne_dot_of_isPlain hplain)
    have hne : rooted p ≠ ("/" : Text) := fun heq =>
      hplain.ne_nil (List.cons.inj (hroot.symm.trans heq)).2
    rw [if_neg hne, hroot, Memory.lead_of_isPlain hplain]
    rfl

/-- **The tree of a view** shows the files below its directory and the directories they lie in. -/
theorem mem_tree_iff (h : m.IsTree) (hv : FileSystem.view ⟨.memory m, locked⟩ dir = .ok v)
    (hp : p ≠ []) : p ∈ v.tree ↔ Memory.IsShown (m.filesBelow (Memory.key dir)) p := by
  have hview : Memory.isValidName (Memory.key dir) = true ∧ v = ⟨⟨.memory m, locked⟩, dir⟩ := by
    simp only [view] at hv
    split_ifs at hv with hvalid
    exact ⟨hvalid, (Except.ok.inj hv).symm⟩
  obtain ⟨hvalid, rfl⟩ := hview
  set name := Memory.key dir with hdef
  have hname := Memory.isDirName_of_isValidName hvalid
  have hshown : ∀ q, rooted q = Byte.slash :: Memory.lead name ++ p → q ≠ name := by
    rintro q hq rfl
    rw [← rooted_lead hname] at hq
    split_ifs at hq
    · simp [hp] at hq
    · simp [hp] at hq
  -- the members are the visited names, without the directory that the walk starts from
  have hmem : p ∈ (⟨⟨.memory m, locked⟩, dir⟩ : View).tree
      ↔ ∃ q, rooted q = Byte.slash :: Memory.lead name ++ p
        ∧ ∃ visits, m.walkName (fun _ => false) name = .ok visits
          ∧ ∃ isDir, ⟨q, isDir⟩ ∈ visits ∧ q ≠ name := by
    simp only [View.tree, walk]
    rw [rooted_lead hname, ← hdef]
    cases m.walkName (fun _ => false) name with
    | error e =>
        refine iff_of_false List.not_mem_nil ?_
        rintro ⟨q, -, visits, hwalk, -⟩
        cases hwalk
    | ok visits =>
        simp only [Except.map, List.mem_filterMap, List.mem_map, Text.after?_eq_some]
        constructor
        · rintro ⟨-, ⟨⟨q, isDir⟩, hvisit, rfl⟩, hq⟩
          exact ⟨q, hq, visits, rfl, isDir, hvisit, hshown q hq⟩
        · rintro ⟨q, hq, visits, hwalk, isDir, hvisit, -⟩
          obtain rfl := Except.ok.inj hwalk
          exact ⟨_, ⟨_, hvisit, rfl⟩, hq⟩
  rw [hmem]
  constructor
  · rintro ⟨q, hq, hvisit⟩
    obtain ⟨p', rfl, hp'⟩ := (Memory.mem_walkName_iff h hvalid).1 hvisit
    -- a visited name is plain, so it is written behind the root as it stands
    have hplain := Memory.isPlain_lead_append hname (Memory.isPlain_of_isShown h hp')
    rw [rooted, if_neg (ne_dot_of_isPlain hplain)] at hq
    have hsame : p' = p := List.append_cancel_left (List.cons.inj hq).2
    exact hsame ▸ hp'
  · intro hshow
    have hplain := Memory.isPlain_lead_append hname (Memory.isPlain_of_isShown h hshow)
    refine ⟨_, if_neg (ne_dot_of_isPlain hplain), ?_⟩
    exact (Memory.mem_walkName_iff h hvalid).2 ⟨p, rfl, hshow⟩

end FileSystem

end MiniProgram
