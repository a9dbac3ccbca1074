import Mathlib.Tactic
import MiniProgram.Failure

/-!
Results that may be failures: how a success of the whole is traced to successes of its parts.
-/

namespace MiniProgram

variable {ε ε' α β : Type}

/-- A sequence succeeds if both its parts do. -/
lemma bind_eq_ok {x : Except ε α} {f : α → Except ε β} {b : β} :
    x >>= f = .ok b ↔ ∃ a, x = .ok a ∧ f a = .ok b := by
  cases x with
  | error e => exact ⟨fun h => (nomatch h), fun ⟨_, h, _⟩ => (nomatch h)⟩
  | ok a => exact ⟨fun h => ⟨a, rfl, h⟩, fun ⟨_, h, hf⟩ => by cases h; exact hf⟩

/-- A sequence fails as its first part does, or as its second part does after the first. -/
lemma bind_eq_error {x : Except ε α} {f : α → Except ε β} {e : ε} :
    x >>= f = .error e ↔ x = .error e ∨ ∃ a, x = .ok a ∧ f a = .error e := by
  cases x with
  | error e' => exact ⟨fun h => .inl (by cases h; rfl), by rintro (h | ⟨_, h, _⟩) <;> cases h; rfl⟩
  | ok a => exact ⟨fun h => .inr ⟨a, rfl, h⟩, by rintro (h | ⟨_, h, hf⟩) <;> cases h; exact hf⟩

/-- Rewording a failure leaves a success alone. -/
@[simp] lemma mapError_eq_ok {f : ε → ε'} {x : Except ε α} {a : α} :
    x.mapError f = .ok a ↔ x = .ok a := by
  cases x with
  | error e => exact ⟨fun h => (nomatch h), fun h => (nomatch h)⟩
  | ok b => simp [Except.mapError]

@[simp] lemma withContext_eq_ok {context : Text} {x : Except Failure α} {a : α} :
    withContext context x = .ok a ↔ x = .ok a := mapError_eq_ok

/-- A mapped success comes from a success. -/
@[simp] lemma map_eq_ok {f : α → β} {x : Except ε α} {b : β} :
    x.map f = .ok b ↔ ∃ a, x = .ok a ∧ f a = b := by
  cases x with
  | error e => exact ⟨fun h => (nomatch h), fun ⟨_, h, _⟩ => (nomatch h)⟩
  | ok a => simp [Except.map]

/-- A function that succeeds on every element of a list does so on the first and on the rest. -/
lemma mapM_cons_eq_ok {f : α → Except ε β} {x : α} {xs : List α} {ys : List β}
    (h : (x :: xs).mapM f = .ok ys) :
    ∃ y ys', ys = y :: ys' ∧ f x = .ok y ∧ xs.mapM f = .ok ys' := by
  rw [List.mapM_cons] at h
  obtain ⟨y, hy, h⟩ := bind_eq_ok.1 h
  obtain ⟨ys', hys', h⟩ := bind_eq_ok.1 h
  cases h
  exact ⟨y, ys', rfl, hy, hys'⟩

/-- If a function succeeds on every element of a list, each value comes from an element. -/
lemma exists_of_mem_mapM {f : α → Except ε β} {xs : List α} {ys : List β}
    (h : xs.mapM f = .ok ys) {y : β} (hy : y ∈ ys) : ∃ x ∈ xs, f x = .ok y := by
  induction xs generalizing ys with
  | nil =>
      rw [List.mapM_nil] at h
      cases h
      simp at hy
  | cons x xs ih =>
      obtain ⟨z, zs, rfl, hz, hzs⟩ := mapM_cons_eq_ok h
      rcases List.mem_cons.1 hy with rfl | hy
      · exact ⟨x, by simp, hz⟩
      · obtain ⟨x', hx', hf⟩ := ih hzs hy
        exact ⟨x', by simp [hx'], hf⟩

/-- A function that succeeds on every element of a list succeeds on the list. -/
lemma mapM_eq_ok {f : α → Except ε β} {g : α → β} {xs : List α} (h : ∀ x ∈ xs, f x = .ok (g x)) :
    xs.mapM f = .ok (xs.map g) := by
  induction xs with
  | nil => rfl
  | cons x xs ih =>
      rw [List.mapM_cons, h x (by simp), ih fun x' hx' => h x' (by simp [hx'])]
      rfl

/-- The failure of a result, if it is one. -/
def failure? : Except ε α → Option ε
  | .ok _ => none
  | .error e => some e

@[simp] lemma failure?_eq_none_iff {x : Except ε α} : failure? x = none ↔ ∃ a, x = .ok a := by
  cases x <;> simp [failure?]

@[simp] lemma failure?_eq_some_iff {x : Except ε α} {e : ε} :
    failure? x = some e ↔ x = .error e := by
  cases x <;> simp [failure?]

/-- A function over a list fails as it does on the first element that it fails on, and else gives
its values. -/
lemma mapM_eq_findSome? (f : α → Except ε β) (xs : List α) :
    xs.mapM f = match xs.findSome? fun x => failure? (f x) with
      | some e => .error e
      | none => .ok (xs.filterMap fun x => (f x).toOption) := by
  induction xs with
  | nil => rfl
  | cons x xs ih =>
      rw [List.mapM_cons, ih, List.findSome?_cons, List.filterMap_cons]
      cases hx : f x with
      | error e => rfl
      | ok y => cases xs.findSome? fun x => failure? (f x) <;> rfl

/-- A function that succeeds on a list succeeds on every element of it. -/
lemma exists_of_mapM_eq_ok {f : α → Except ε β} {xs : List α} {ys : List β}
    (h : xs.mapM f = .ok ys) {x : α} (hx : x ∈ xs) : ∃ y, f x = .ok y := by
  rw [mapM_eq_findSome?] at h
  split at h
  · cases h
  · rename_i hnone
    exact failure?_eq_none_iff.1 (List.findSome?_eq_none_iff.1 hnone x hx)

/-- What every step of a loop over a list preserves holds at its end, if it comes to one. -/
lemma foldlM_invariant_of_mem {f : β → α → Except ε β} {P : β → Prop} {xs : List α} {b b' : β}
    (hstep : ∀ b, ∀ a ∈ xs, ∀ b', P b → f b a = .ok b' → P b') (hb : P b)
    (h : xs.foldlM f b = .ok b') : P b' := by
  induction xs generalizing b with
  | nil =>
      rw [List.foldlM_nil] at h
      cases h
      exact hb
  | cons a xs ih =>
      rw [List.foldlM_cons] at h
      obtain ⟨c, hc, h⟩ := bind_eq_ok.1 h
      exact ih (fun b x hx => hstep b x (List.mem_cons_of_mem a hx))
        (hstep b a List.mem_cons_self c hb hc) h

/-- What every step of a loop preserves, over whatever list, holds at its end. -/
lemma foldlM_invariant {f : β → α → Except ε β} {P : β → Prop}
    (hstep : ∀ b a b', P b → f b a = .ok b' → P b') {xs : List α} {b b' : β} (hb : P b)
    (h : xs.foldlM f b = .ok b') : P b' :=
  foldlM_invariant_of_mem (fun b a _ => hstep b a) hb h

/-- If each success of a function is the value of another function, so is its success on a list. -/
lemma eq_map_of_mapM_eq_ok {f : α → Except ε β} {g : α → β} {xs : List α} {ys : List β}
    (hf : ∀ x y, f x = .ok y → y = g x) (h : xs.mapM f = .ok ys) : ys = xs.map g := by
  induction xs generalizing ys with
  | nil =>
      rw [List.mapM_nil] at h
      cases h
      rfl
  | cons x xs ih =>
      obtain ⟨y, ys', rfl, hy, hys'⟩ := mapM_cons_eq_ok h
      rw [hf x y hy, ih hys', List.map_cons]

end MiniProgram
