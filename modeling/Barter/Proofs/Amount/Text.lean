import Barter.Proofs.Amount.Reading

namespace Barter.Wad

open Numeral

def fraction (a : Wad) : List Char :=
  (Nat.toDigits 10 (a.raw.toNat % one)).leftpad 18 '0'

theorem length_fraction (a : Wad) : a.fraction.length = 18 := by
  have hlt : a.raw.toNat % one < 10 ^ 18 := Nat.mod_lt _ (by decide)
  have hle := (Nat.length_toDigits_le_iff (by decide) (by decide)).mpr hlt
  rw [fraction, List.length_leftpad]
  exact Nat.max_eq_left hle

theorem isDigit_of_mem_fraction {a : Wad} {c : Char} (h : c ∈ a.fraction) : c.isDigit = true := by
  rcases List.mem_append.mp h with h | h
  · obtain rfl := List.eq_of_mem_replicate h
    rfl
  · exact Nat.isDigit_of_mem_toDigits (by decide) (by decide) h

theorem ofDigitChars_fraction (a : Wad) : Nat.ofDigitChars 10 a.fraction 0 = a.raw.toNat % one := by
  rw [fraction, List.leftpad, Nat.ofDigitChars_append, Nat.ofDigitChars_replicate_zero, Nat.mul_zero,
    Nat.ofDigitChars_ten_toDigits]

def numeral (a : Wad) : Numeral where
  plus := false
  whole := Nat.toDigits 10 (a.raw.toNat / one)
  fraction? := some a.fraction
  isDigit c hc := by
    rcases List.mem_append.mp hc with hc | hc
    · exact Nat.isDigit_of_mem_toDigits (by decide) (by decide) hc
    · exact isDigit_of_mem_fraction hc
  ne_nil h := Nat.toDigits_ne_nil (List.append_eq_nil_iff.mp h).1

variable (a : Wad)

theorem toList_text : a.text.toList = a.numeral.chars := by
  have htext : a.text = (a.raw.toNat / one).repr ++ "." ++ String.ofList a.fraction := rfl
  have hpoint : ".".toList = ['.'] := rfl
  rw [htext, String.toList_append, String.toList_append, Nat.toList_repr, hpoint, String.toList_ofList,
    List.append_assoc]
  rfl

theorem units_numeral : a.numeral.units = a.raw.toNat := by
  have hpow : 10 ^ a.fraction.length = one := by
    rw [length_fraction]
    rfl
  have hdigits : a.numeral.digits = Nat.toDigits 10 (a.raw.toNat / one) ++ a.fraction := rfl
  rw [units, hdigits, Nat.ofDigitChars_append, Nat.ofDigitChars_ten_toDigits,
    Nat.ofDigitChars_eq_ofDigitChars_zero, hpow, ofDigitChars_fraction]
  exact Nat.div_add_mod _ _

theorem places_numeral : a.numeral.places = 18 :=
  a.length_fraction

theorem value_numeral : a.numeral.value = a.raw.toNat / 10 ^ 18 := by
  rw [value, units_numeral, places_numeral]

variable {a}

theorem eq_of_text_eq {b : Wad} (h : b.text = a.text) : b = a := by
  have hchars : b.numeral.chars = a.numeral.chars := by
    rw [← toList_text, h, toList_text]
  have hdigits : b.numeral.digits = a.numeral.digits := by
    rw [← filter_chars, hchars, filter_chars]
  refine Wad.ext (Word.ext ?_)
  rw [← units_numeral, units, hdigits, ← units, units_numeral]

theorem mul_one_div_one : a.raw.toNat * one / 10 ^ 18 = a.raw.toNat :=
  Nat.mul_div_cancel _ (by decide)

section

variable (hlt : a.raw.toNat < Decimal.limit)
include hlt

theorem ofText_of_isWritten_numeral {text : String} (h : a.numeral.IsWritten text) :
    ofText text = .ok a := by
  have hfit := Decimal.fit?_of_fits hlt (show 18 ≤ 28 by decide)
  rw [← units_numeral, ← places_numeral a] at hfit
  obtain ⟨b, hb, hraw⟩ := ofText_of_fit? h hfit
  rw [units_numeral, places_numeral, mul_one_div_one] at hraw
  obtain rfl : b = a := Wad.ext (Word.ext hraw)
  exact hb

theorem ofDecimal?_toDecimal? : ∃ d, a.toDecimal? = some d ∧ ofDecimal? d = some a := by
  have hmk : a.raw.toNat < Decimal.limit ∧ 18 ≤ 28 := ⟨hlt, by decide⟩
  refine ⟨⟨false, a.raw.toNat, 18, hmk.1, hmk.2⟩, dif_pos hmk, ?_⟩
  obtain ⟨b, hb, hraw⟩ := ofDecimal?_eq (d := ⟨false, a.raw.toNat, 18, hmk.1, hmk.2⟩) nofun
  obtain rfl : b = a := Wad.ext (Word.ext (hraw.trans mul_one_div_one))
  exact hb

end

theorem toDecimal?_eq_none (hle : Decimal.limit ≤ a.raw.toNat) : a.toDecimal? = none :=
  dif_neg fun h => Nat.not_le.mpr h.1 hle

/-- The text of an amount is its whole part, a point and eighteen decimals, which are the amount
exactly. As long as the amount is a mantissa it comes back from its text and from its decimal. -/
theorem text_faithful (a : Wad) :
    (∃ (n : Numeral) (decimals : List Char),
        a.text.toList = n.whole ++ '.' :: decimals ∧ n.fraction? = some decimals ∧
        n.whole = Nat.toDigits 10 (a.raw.toNat / 10 ^ 18) ∧ decimals.length = 18 ∧
        n.value = a.raw.toNat / 10 ^ 18) ∧
      (∀ b : Wad, b.text = a.text → b = a) ∧
      (a.raw.toNat ≤ 2 ^ 96 - 1 →
        (∀ before after, (∀ c ∈ before ++ after, Text.isBlank c = true) →
          ofText (String.ofList (before ++ a.text.toList ++ after)) = .ok a) ∧
        ∃ d, a.toDecimal? = some d ∧ ofDecimal? d = some a) ∧
      (2 ^ 96 ≤ a.raw.toNat → a.toDecimal? = none) := by
  have hlimit : Decimal.limit = 2 ^ 96 := by decide
  refine ⟨⟨a.numeral, a.fraction, a.toList_text, rfl, rfl, a.length_fraction, a.value_numeral⟩,
    fun b hb => eq_of_text_eq hb, fun hle => ?_, fun hle => ?_⟩
  · have hlt : a.raw.toNat < Decimal.limit := by omega
    refine ⟨fun before after hblank => ?_, ofDecimal?_toDecimal? hlt⟩
    refine ofText_of_isWritten_numeral hlt ⟨before, after, hblank, ?_⟩
    rw [String.toList_ofList, toList_text]
  · exact toDecimal?_eq_none (by omega)

theorem text_faithful_of_trial :
    ofText (String.ofList ([' '] ++ (Wad.mk ⟨2 ^ 96 - 1, by decide⟩).text.toList ++ ['\n'])) =
        .ok (Wad.mk ⟨2 ^ 96 - 1, by decide⟩) ∧
      (∃ d, (Wad.mk ⟨2 ^ 96 - 1, by decide⟩).toDecimal? = some d ∧
        ofDecimal? d = some (Wad.mk ⟨2 ^ 96 - 1, by decide⟩)) ∧
      Wad.max.toDecimal? = none := by
  obtain ⟨_, _, hsmall, _⟩ := text_faithful (Wad.mk ⟨2 ^ 96 - 1, by decide⟩)
  obtain ⟨htext, hdecimal⟩ := hsmall (Nat.le_refl _)
  obtain ⟨_, _, _, hlarge⟩ := text_faithful Wad.max
  exact ⟨htext [' '] ['\n'] (List.all_eq_true.mp (by decide)), hdecimal, hlarge (by decide)⟩

end Barter.Wad
