import Mathlib.Tactic
import MiniProgram.Text.Utf8

/-!
UTF-8 both ways, for one code point.

* `Rune.read?_encode`: what is written for a code point is read as that code point.
* `Rune.Reads`, `Rune.reads_of_read?`: what a code point is read from, by the number of its bytes.
* `Rune.encode_of_read?`: a code point is written as it was read.
* `Rune.encode_of_lt`, `Rune.le_of_mem_encode`: a code point of ASCII is written by one byte, and
  those beyond ASCII by bytes beyond ASCII.
* `Rune.bytes_of_read?`: so they are read.
* `Rune.read?_append_cons`: no code point goes on with an ASCII byte.
-/

namespace MiniProgram

namespace Rune

variable {b : UInt8} {c more : ℕ} {rest : Text}

lemma isScalar_iff : isScalar c = true ↔ c < 0xD800 ∨ 0xE000 ≤ c ∧ c ≤ 0x10FFFF := by
  simp [isScalar]

/-- A number below 256 as a byte. -/
lemma toNat_toUInt8 {n : ℕ} (h : n < 0x100) : n.toUInt8.toNat = n := by
  rw [Nat.toUInt8, UInt8.toNat_ofNat_of_lt' h]

lemma encode_of_lt (h : c < 0x80) : encode c = [c.toUInt8] := by
  have hscalar : isScalar c = true := by
    simp only [isScalar, Bool.or_eq_true, decide_eq_true_eq]
    omega
  rw [encode, if_pos hscalar, if_pos h]

/-- A code point beyond ASCII is written by bytes beyond ASCII. -/
lemma le_of_mem_encode (h : 0x80 ≤ c) (hb : b ∈ encode c) : 0x80 ≤ b := by
  have hbyte : ∀ n : ℕ, 0x80 ≤ n → n < 0x100 → 0x80 ≤ n.toUInt8 := fun n hn hlt => by
    rw [UInt8.le_iff_toNat_le, Nat.toUInt8, UInt8.toNat_ofNat_of_lt' hlt]
    exact hn
  rw [encode] at hb
  generalize hc : (if isScalar c then c else replacement) = d at hb
  have hd : 0x80 ≤ d ∧ d ≤ 0x10FFFF := by
    rw [← hc]
    split_ifs with hscalar
    · simp only [isScalar, Bool.or_eq_true, Bool.and_eq_true, decide_eq_true_eq] at hscalar
      omega
    · decide
  simp only [if_neg (Nat.not_lt.2 hd.1)] at hb
  split_ifs at hb
  all_goals
    simp only [List.mem_cons, List.not_mem_nil, or_false] at hb
  · rcases hb with rfl | rfl <;> exact hbyte _ (by omega) (by omega)
  · rcases hb with rfl | rfl | rfl <;> exact hbyte _ (by omega) (by omega)
  · rcases hb with rfl | rfl | rfl | rfl <;> exact hbyte _ (by omega) (by omega)

lemma isContinuation_iff : isContinuation b = true ↔ 0x80 ≤ b.toNat ∧ b.toNat ≤ 0xBF := by
  simp [isContinuation, UInt8.le_iff_toNat_le]

/-- A byte that carries six bits of a code point. -/
lemma isContinuation_toUInt8 {n : ℕ} (h : n < 0x40) : isContinuation (0x80 + n).toUInt8 = true := by
  rw [isContinuation_iff, toNat_toUInt8 (by omega)]
  omega

/-- The first byte tells how many bytes a code point takes. -/
lemma read?_eq (b : UInt8) (rest : Text) :
    read? b rest =
      if b.toNat < 0x80 then some (b.toNat, 0)
      else if 0xC2 ≤ b.toNat ∧ b.toNat ≤ 0xDF then
        match rest with
        | c :: _ =>
          if isContinuation c then some ((b.toNat - 0xC0) * 0x40 + (c.toNat - 0x80), 1) else none
        | _ => none
      else if 0xE0 ≤ b.toNat ∧ b.toNat ≤ 0xEF then
        match rest with
        | c :: d :: _ =>
          let code := (b.toNat - 0xE0) * 0x1000 + (c.toNat - 0x80) * 0x40 + (d.toNat - 0x80)
          if isContinuation c && isContinuation d && 0x800 ≤ code && isScalar code
          then some (code, 2) else none
        | _ => none
      else if 0xF0 ≤ b.toNat ∧ b.toNat ≤ 0xF4 then
        match rest with
        | c :: d :: e :: _ =>
          let code := (b.toNat - 0xF0) * 0x40000 + (c.toNat - 0x80) * 0x1000
            + (d.toNat - 0x80) * 0x40 + (e.toNat - 0x80)
          if isContinuation c && isContinuation d && isContinuation e && 0x10000 ≤ code
            && isScalar code
          then some (code, 3) else none
        | _ => none
      else none := by
  simp only [read?, UInt8.lt_iff_toNat_lt, UInt8.le_iff_toNat_le, Bool.and_eq_true,
    decide_eq_true_eq]
  rfl

/-- An ASCII byte is a code point of its own. -/
lemma read?_of_ascii (hb : b < 0x80) (rest : Text) : read? b rest = some (b.toNat, 0) := by
  have hlow : b.toNat < 0x80 := UInt8.lt_iff_toNat_lt.1 hb
  rw [read?_eq, if_pos hlow]

/-- What is written for a code point is read as that code point, whatever follows. -/
lemma read?_encode (hc : isScalar c = true) (rest : Text) :
    ∃ b bytes, encode c = b :: bytes ∧ read? b (bytes ++ rest) = some (c, bytes.length) := by
  have hscalar := isScalar_iff.1 hc
  -- The bytes after the first carry six bits each.
  have hcont : ∀ n, isContinuation (0x80 + n % 0x40).toUInt8 = true := fun n =>
    isContinuation_toUInt8 (Nat.mod_lt n (by decide))
  have hbits : ∀ n, ((0x80 + n % 0x40).toUInt8).toNat - 0x80 = n % 0x40 := fun n => by
    rw [toNat_toUInt8 (by omega)]
    omega
  rw [encode, if_pos hc]
  split_ifs with h1 h2 h3
  · refine ⟨_, _, rfl, ?_⟩
    rw [read?_eq, toNat_toUInt8 (by omega), if_pos h1]
    rfl
  · refine ⟨_, _, rfl, ?_⟩
    rw [read?_eq, toNat_toUInt8 (by omega), if_neg (by omega), if_pos (by omega)]
    simp only [List.cons_append, List.nil_append, hcont, hbits, if_true, Option.some.injEq,
      Prod.mk.injEq, List.length_cons, List.length_nil]
    exact ⟨by omega, trivial⟩
  · refine ⟨_, _, rfl, ?_⟩
    have hcode : (0xE0 + c / 0x1000 - 0xE0) * 0x1000 + c / 0x40 % 0x40 * 0x40 + c % 0x40 = c := by
      omega
    rw [read?_eq, toNat_toUInt8 (by omega), if_neg (by omega), if_neg (by omega),
      if_pos (by omega)]
    simp only [List.cons_append, List.nil_append, hcont, hbits, hcode, hc, List.length_cons,
      List.length_nil]
    rw [if_pos (by simpa using h2)]
  · refine ⟨_, _, rfl, ?_⟩
    have hcode : (0xF0 + c / 0x40000 - 0xF0) * 0x40000 + c / 0x1000 % 0x40 * 0x1000
        + c / 0x40 % 0x40 * 0x40 + c % 0x40 = c := by omega
    rw [read?_eq, toNat_toUInt8 (by omega), if_neg (by omega), if_neg (by omega),
      if_neg (by omega), if_pos (by omega)]
    simp only [List.cons_append, List.nil_append, hcont, hbits, hcode, hc, List.length_cons,
      List.length_nil]
    rw [if_pos (by simpa using h3)]

/-- The code points that are read from a byte and what follows it, by the number of their bytes. -/
inductive Reads (b : UInt8) : Text → (code more : ℕ) → Prop
  | one {rest : Text} (hb : b.toNat < 0x80) : Reads b rest b.toNat 0
  | two {d : UInt8} {rest : Text} (hb : 0xC2 ≤ b.toNat ∧ b.toNat ≤ 0xDF)
      (hd : isContinuation d = true) :
      Reads b (d :: rest) ((b.toNat - 0xC0) * 0x40 + (d.toNat - 0x80)) 1
  | three {d e : UInt8} {rest : Text} {code : ℕ} (hb : 0xE0 ≤ b.toNat ∧ b.toNat ≤ 0xEF)
      (hcode : code = (b.toNat - 0xE0) * 0x1000 + (d.toNat - 0x80) * 0x40 + (e.toNat - 0x80))
      (hd : isContinuation d = true) (he : isContinuation e = true) (hlow : 0x800 ≤ code)
      (hscalar : isScalar code = true) : Reads b (d :: e :: rest) code 2
  | four {d e f : UInt8} {rest : Text} {code : ℕ} (hb : 0xF0 ≤ b.toNat ∧ b.toNat ≤ 0xF4)
      (hcode : code = (b.toNat - 0xF0) * 0x40000 + (d.toNat - 0x80) * 0x1000
        + (e.toNat - 0x80) * 0x40 + (f.toNat - 0x80))
      (hd : isContinuation d = true) (he : isContinuation e = true) (hf : isContinuation f = true)
      (hlow : 0x10000 ≤ code) (hscalar : isScalar code = true) :
      Reads b (d :: e :: f :: rest) code 3

lemma reads_of_read? (h : read? b rest = some (c, more)) : Reads b rest c more := by
  rw [read?_eq] at h
  split_ifs at h with hone htwo hthree hfour
  · obtain ⟨rfl, rfl⟩ := Prod.mk.inj (Option.some.inj h)
    exact .one hone
  · split at h
    · split_ifs at h with hd
      obtain ⟨rfl, rfl⟩ := Prod.mk.inj (Option.some.inj h)
      exact .two htwo hd
    · cases h
  · split at h
    · dsimp only at h
      split_ifs at h with hcond
      obtain ⟨rfl, rfl⟩ := Prod.mk.inj (Option.some.inj h)
      simp only [Bool.and_eq_true, decide_eq_true_eq] at hcond
      obtain ⟨⟨⟨hd, he⟩, hlow⟩, hscalar⟩ := hcond
      exact .three hthree rfl hd he hlow hscalar
    · cases h
  · split at h
    · dsimp only at h
      split_ifs at h with hcond
      obtain ⟨rfl, rfl⟩ := Prod.mk.inj (Option.some.inj h)
      simp only [Bool.and_eq_true, decide_eq_true_eq] at hcond
      obtain ⟨⟨⟨⟨hd, he⟩, hf⟩, hlow⟩, hscalar⟩ := hcond
      exact .four hfour rfl hd he hf hlow hscalar
    · cases h

lemma toUInt8_eq {d : UInt8} {n : ℕ} (h : n = d.toNat) : n.toUInt8 = d := by
  rw [h]
  exact UInt8.ofNat_toNat

/-- A code point is written as it was read. -/
lemma encode_of_read? (h : read? b rest = some (c, more)) :
    isScalar c = true ∧ encode c = b :: rest.take more := by
  have hbyte := b.toNat_lt
  cases reads_of_read? h with
  | one hb =>
      have hscalar : isScalar b.toNat = true := isScalar_iff.2 (Or.inl (by omega))
      refine ⟨hscalar, ?_⟩
      rw [encode_of_lt hb, toUInt8_eq rfl, List.take_zero]
  | @two d rest hb hd =>
      rw [isContinuation_iff] at hd
      have hscalar : isScalar ((b.toNat - 0xC0) * 0x40 + (d.toNat - 0x80)) = true :=
        isScalar_iff.2 (Or.inl (by omega))
      refine ⟨hscalar, ?_⟩
      rw [encode, if_pos hscalar, if_neg (by omega), if_pos (by omega),
        @toUInt8_eq b _ (by omega), @toUInt8_eq d _ (by omega)]
      rfl
  | @three d e rest _ hb hcode hd he hlow hscalar =>
      rw [isContinuation_iff] at hd he
      refine ⟨hscalar, ?_⟩
      rw [encode, if_pos hscalar, if_neg (by omega), if_neg (by omega), if_pos (by omega),
        @toUInt8_eq b _ (by omega), @toUInt8_eq d _ (by omega), @toUInt8_eq e _ (by omega)]
      rfl
  | @four d e f rest _ hb hcode hd he hf hlow hscalar =>
      rw [isContinuation_iff] at hd he hf
      refine ⟨hscalar, ?_⟩
      rw [encode, if_pos hscalar, if_neg (by omega), if_neg (by omega), if_neg (by omega),
        @toUInt8_eq b _ (by omega), @toUInt8_eq d _ (by omega), @toUInt8_eq e _ (by omega),
        @toUInt8_eq f _ (by omega)]
      rfl

/-- A code point is read within the text. -/
lemma le_length_of_read? (h : read? b rest = some (c, more)) : more ≤ rest.length := by
  cases reads_of_read? h with
  | one => exact Nat.zero_le _
  | two => simp
  | three => simp
  | four => simp

/-- What a code point is read from: one ASCII byte, or, beyond ASCII, bytes beyond ASCII. -/
lemma bytes_of_read? (h : read? b rest = some (c, more)) :
    (more = 0 ∧ b.toNat = c) ∨ 0x80 ≤ c ∧ ∀ d ∈ b :: rest.take more, 0x80 ≤ d := by
  obtain ⟨-, hbytes⟩ := encode_of_read? h
  by_cases hascii : c < 0x80
  · rw [encode_of_lt hascii] at hbytes
    obtain rfl : c.toUInt8 = b := (List.cons.inj hbytes).1
    have hcode : c.toUInt8.toNat = c := toNat_toUInt8 (by omega)
    have hlow : c.toUInt8 < 0x80 := UInt8.lt_iff_toNat_lt.2 (by rwa [hcode])
    rw [read?_of_ascii hlow] at h
    exact Or.inl ⟨(Prod.mk.inj (Option.some.inj h)).2.symm, hcode⟩
  · refine Or.inr ⟨not_lt.1 hascii, fun d hd => ?_⟩
    rw [← hbytes] at hd
    exact le_of_mem_encode (not_lt.1 hascii) hd

/-- A byte that starts no code point is none of ASCII. -/
lemma le_of_read?_eq_none (h : read? b rest = none) : 0x80 ≤ b := by
  by_contra hb
  rw [read?_of_ascii (UInt8.not_le.1 hb)] at h
  cases h

/-- An ASCII byte goes on with no code point. -/
lemma read?_append_cons {d : UInt8} (hd : d < 0x80) (b : UInt8) (t u : Text) :
    read? b (t ++ d :: u) = read? b t := by
  have hcont : isContinuation d = false := by
    simp [isContinuation, UInt8.not_le.2 hd]
  unfold read?
  rcases t with _ | ⟨e, _ | ⟨f, _ | ⟨g, t⟩⟩⟩
  · rcases u with _ | ⟨v, _ | ⟨w, u⟩⟩ <;> simp [hcont]
  · rcases u with _ | ⟨v, u⟩ <;> simp [hcont]
  · simp [hcont]
  · simp

end Rune

end MiniProgram
