import Barter.Decimal.Reader
import Mathlib.Algebra.Group.Nat.Defs
import Mathlib.Data.Rat.Defs

namespace Barter

namespace Text

theorem not_isBlank_of_isDigit {c : Char} (h : c.isDigit = true) : isBlank c = false := by
  obtain ⟨hlow, hhigh⟩ := Char.isDigit_iff_toNat.mp h
  have hlow : 48 ≤ c.toNat := hlow
  have hhigh : c.toNat ≤ 57 := hhigh
  simp only [isBlank, Bool.or_eq_false_iff, Bool.and_eq_false_iff, decide_eq_false_iff_not,
    beq_eq_false_iff_ne]
  omega

theorem digit?_of_isDigit {c : Char} (h : c.isDigit = true) :
    digit? 10 c = some (c.toNat - '0'.toNat) := by
  obtain ⟨hlow, hhigh⟩ := Char.isDigit_iff_toNat.mp h
  have hrange : '0' ≤ c ∧ c ≤ '9' :=
    ⟨UInt32.le_iff_toNat_le.mpr hlow, UInt32.le_iff_toNat_le.mpr hhigh⟩
  have hlt : c.toNat - '0'.toNat < 10 := by
    have hhigh : c.toNat ≤ 57 := hhigh
    have hzero : '0'.toNat = 48 := rfl
    omega
  simp only [digit?, if_pos hrange, if_pos hlt]

theorem dropWhile_isBlank {before cs : List Char} (hbefore : ∀ c ∈ before, isBlank c = true)
    (hcs : ∀ c ∈ cs.head?, isBlank c = false) : (before ++ cs).dropWhile isBlank = cs := by
  rw [List.dropWhile_append_of_pos hbefore]
  cases cs with
  | nil => rfl
  | cons c rest =>
      rw [List.dropWhile_cons_of_neg]
      rw [hcs c rfl]
      exact Bool.false_ne_true

theorem trim_append {before cs after : List Char} (hblank : ∀ c ∈ before ++ after, isBlank c = true)
    (hcs : ∀ c ∈ cs, isBlank c = false) (hne : cs ≠ []) : trim (before ++ cs ++ after) = cs := by
  have hbefore (c : Char) (hc : c ∈ before) := hblank c (List.mem_append_left after hc)
  have hafter (c : Char) (hc : c ∈ after.reverse) :=
    hblank c (List.mem_append_right before (List.mem_reverse.mp hc))
  have hstart : trimStart (before ++ (cs ++ after)) = cs ++ after := by
    obtain ⟨first, rest, rfl⟩ := List.exists_cons_of_ne_nil hne
    refine dropWhile_isBlank hbefore fun c hc => ?_
    obtain rfl : first = c := Option.some.inj hc
    exact hcs first List.mem_cons_self
  have hend : trimEnd (cs ++ after) = cs := by
    rw [trimEnd, List.reverse_append, dropWhile_isBlank hafter, List.reverse_reverse]
    intro c hc
    exact hcs c (List.mem_reverse.mp (List.mem_of_mem_head? hc))
  rw [trim, List.append_assoc, hstart, hend]

section

variable {cs : List Char} (hcs : ∀ c ∈ cs, c.isDigit = true)
include hcs

theorem ofDigitChars_lt : Nat.ofDigitChars 10 cs 0 < 10 ^ cs.length := by
  induction cs with
  | nil => decide
  | cons c rest ih =>
      obtain ⟨hc, hrest⟩ := List.forall_mem_cons.mp hcs
      have hdigit := digit?_lt (digit?_of_isDigit hc)
      have hlt := ih hrest
      have hle : 10 ^ rest.length * (c.toNat - '0'.toNat) ≤ 10 ^ rest.length * 9 :=
        Nat.mul_le_mul_left _ (Nat.le_of_lt_succ hdigit)
      rw [Nat.ofDigitChars_cons, Nat.ofDigitChars_eq_ofDigitChars_zero, List.length_cons, Nat.pow_succ,
        Nat.mul_zero, Nat.zero_add]
      omega

/-- Digits that follow are cut off again by as many decimals. -/
theorem ofDigitChars_div (m : Nat) : Nat.ofDigitChars 10 cs m / 10 ^ cs.length = m := by
  have hpos : 0 < 10 ^ cs.length := Nat.pow_pos (by decide)
  rw [Nat.ofDigitChars_eq_ofDigitChars_zero, Nat.mul_add_div hpos, Nat.div_eq_of_lt (ofDigitChars_lt hcs),
    Nat.add_zero]

end

end Text

/-- A plain decimal number as it is written: with a plus sign or without a sign, in digits, and with
a point at some place among these or without one. -/
structure Numeral where
  plus : Bool
  whole : List Char
  fraction? : Option (List Char)
  isDigit : ∀ c ∈ whole ++ fraction?.getD [], c.isDigit = true
  ne_nil : whole ++ fraction?.getD [] ≠ []

namespace Numeral

def digits (n : Numeral) : List Char :=
  n.whole ++ n.fraction?.getD []

def pointed : Option (List Char) → List Char
  | none => []
  | some fraction => '.' :: fraction

theorem pointed_eq_nil_iff {fraction? : Option (List Char)} :
    pointed fraction? = [] ↔ fraction? = none := by
  cases fraction? <;> simp [pointed]

def chars (n : Numeral) : List Char :=
  (if n.plus then ['+'] else []) ++ (n.whole ++ pointed n.fraction?)

def units (n : Numeral) : Nat :=
  Nat.ofDigitChars 10 n.digits 0

def places (n : Numeral) : Nat :=
  (n.fraction?.getD []).length

def value (n : Numeral) : ℚ :=
  n.units / 10 ^ n.places

def IsWritten (n : Numeral) (text : String) : Prop :=
  ∃ before after, (∀ c ∈ before ++ after, Text.isBlank c = true) ∧
    text.toList = before ++ n.chars ++ after

theorem eq_of_mem_unsigned {n : Numeral} {c : Char} (h : c ∈ n.whole ++ pointed n.fraction?) :
    c = '.' ∨ c.isDigit = true := by
  rcases List.mem_append.mp h with h | h
  · exact .inr (n.isDigit c (List.mem_append_left _ h))
  · cases hfraction : n.fraction? with
    | none =>
        rw [hfraction] at h
        cases h
    | some fraction =>
        rw [hfraction] at h
        rcases List.mem_cons.mp h with rfl | h
        · exact .inl rfl
        · refine .inr (n.isDigit c (List.mem_append_right _ ?_))
          rw [hfraction]
          exact h

theorem eq_of_mem_chars {n : Numeral} {c : Char} (h : c ∈ n.chars) :
    c = '+' ∨ c = '.' ∨ c.isDigit = true := by
  rcases List.mem_append.mp h with h | h
  · split at h
    · exact .inl (List.mem_singleton.mp h)
    · cases h
  · exact .inr (eq_of_mem_unsigned h)

theorem chars_ne_nil (n : Numeral) : n.chars ≠ [] := by
  intro hnil
  have hne := n.ne_nil
  obtain ⟨_, hrest⟩ := List.append_eq_nil_iff.mp hnil
  obtain ⟨hwhole, hpointed⟩ := List.append_eq_nil_iff.mp hrest
  rw [hwhole, pointed_eq_nil_iff.mp hpointed] at hne
  exact hne rfl

theorem filter_chars (n : Numeral) : n.chars.filter Char.isDigit = n.digits := by
  have hplus : (if n.plus then ['+'] else []).filter Char.isDigit = [] := by
    split <;> rfl
  have hpointed :
      (pointed n.fraction?).filter Char.isDigit = (n.fraction?.getD []).filter Char.isDigit := by
    cases n.fraction? <;> rfl
  rw [chars, List.filter_append, hplus, List.nil_append, List.filter_append, hpointed,
    ← List.filter_append]
  exact List.filter_eq_self.mpr n.isDigit

theorem trim_of_isWritten {n : Numeral} {text : String} (h : n.IsWritten text) :
    Text.trim text.toList = n.chars := by
  obtain ⟨before, after, hblank, htext⟩ := h
  rw [htext]
  refine Text.trim_append hblank (fun c hc => ?_) n.chars_ne_nil
  rcases eq_of_mem_chars hc with rfl | rfl | hdigit
  · decide
  · decide
  · exact Text.not_isBlank_of_isDigit hdigit

end Numeral

end Barter
