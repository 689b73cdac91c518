import Barter.Proofs.Amount.Rounding
import Mathlib.Algebra.Order.Floor.Semifield
import Mathlib.Data.List.TakeWhile
import Mathlib.Data.Rat.Floor
import Mathlib.Order.Bounds.Basic
import Mathlib.Tactic.FieldSimp
import Mathlib.Tactic.Ring

namespace Barter

namespace Numeral

def rounded (n : Numeral) (k : Nat) : Nat :=
  ⌊n.value * 10 ^ k + 1 / 2⌋₊

variable {n : Numeral}

theorem rounded_eq {k : Nat} (hk : k ≤ n.places) :
    n.rounded k = Decimal.rounded n.units n.places k := by
  have hplaces : (10 : ℚ) ^ n.places = 10 ^ k * 10 ^ (n.places - k) := by
    rw [← pow_add, Nat.add_sub_of_le hk]
  have hratio : n.value * 10 ^ k + 1 / 2 =
      ((2 * n.units + 10 ^ (n.places - k) : Nat) : ℚ) / ((2 * 10 ^ (n.places - k) : Nat) : ℚ) := by
    rw [value, hplaces]
    push_cast
    field_simp
  have hhalf : (2 * n.units + 10 ^ (n.places - k)) / 2 = n.units + 10 ^ (n.places - k) / 2 := by omega
  rw [rounded, hratio, Nat.floor_div_eq_div, ← Nat.div_div_eq_div_mul, hhalf, Decimal.rounded]

theorem digits_length_le : n.digits.length ≤ n.chars.length := by
  rw [← filter_chars]
  exact List.length_filter_le _ _

end Numeral

namespace Decimal

open Numeral

variable (n : Numeral)

theorem sign_chars : sign n.chars = (false, n.whole ++ pointed n.fraction?) := by
  rw [chars]
  split
  · rfl
  · rw [List.nil_append]
    cases hcs : n.whole ++ pointed n.fraction? with
    | nil => rfl
    | cons c rest =>
        have hc : c ∈ n.whole ++ pointed n.fraction? := by
          rw [hcs]
          exact List.mem_cons_self
        have hminus : c ≠ '-' := by
          rintro rfl
          rcases eq_of_mem_unsigned hc with h | h <;> cases h
        have hplus : c ≠ '+' := by
          rintro rfl
          rcases eq_of_mem_unsigned hc with h | h <;> cases h
        simp [sign, hminus, hplus]

theorem readNarrow_unsigned {long : Bool} (hshort : long = false → n.chars.length < 18) :
    readNarrow long ⟨0, 0⟩ false false (n.whole ++ pointed n.fraction?) = fit? n.units n.places := by
  cases long with
  | true => exact readNarrow_whole n.isDigit (by decide) (.inr n.ne_nil)
  | false =>
      have hlength := Nat.lt_of_le_of_lt n.digits_length_le (hshort rfl)
      have hunits : n.units < 10 ^ n.digits.length := Text.ofDigitChars_lt n.isDigit
      have hpow : 10 ^ n.digits.length ≤ 10 ^ 18 := Nat.pow_le_pow_right (by decide) (by omega)
      have hlimit : 10 ^ 18 < limit := by decide
      have hplaces : n.places ≤ n.digits.length := by
        rw [digits, List.length_append, places]
        exact Nat.le_add_left _ _
      rw [readNarrow_short_whole n.isDigit (.inr n.ne_nil)]
      have hfits : n.units < limit := by omega
      have hroom : n.places ≤ 28 := by omega
      exact (fit?_of_fits hfits hroom).symm

theorem ofPlain?_chars :
    ofPlain? n.chars = (fit? n.units n.places).bind fun r => mk? false r.mantissa r.scale := by
  have hshort (h : decide (18 ≤ n.chars.length) = false) : n.chars.length < 18 :=
    Nat.lt_of_not_le (of_decide_eq_false h)
  simp only [ofPlain?, sign_chars, readNarrow_unsigned n hshort]
  rfl

theorem ofScientific?_chars : ofScientific? n.chars = none := by
  have hmark (c : Char) (hc : c ∈ n.chars) : (!(c = 'e' || c = 'E' : Bool)) = true := by
    rcases eq_of_mem_chars hc with rfl | rfl | hdigit
    · decide
    · decide
    · have hlower : c ≠ 'e' := by
        rintro rfl
        cases hdigit
      have hupper : c ≠ 'E' := by
        rintro rfl
        cases hdigit
      simp [hlower, hupper]
  have hdrop : n.chars.dropWhile (fun c => !(c = 'e' || c = 'E')) = [] := by
    rw [List.dropWhile_eq_nil_iff]
    exact hmark
  rw [ofScientific?, hdrop]
  cases ofPlain? (n.chars.takeWhile fun c => !(c = 'e' || c = 'E')) <;> rfl

theorem ofChars?_chars :
    ofChars? n.chars = (fit? n.units n.places).bind fun r => mk? false r.mantissa r.scale := by
  rw [ofChars?, ofScientific?_chars, Option.or_none, ofPlain?_chars]

end Decimal

namespace Numeral

variable {n : Numeral}

def Fits (n : Numeral) (k : Nat) : Prop :=
  k ≤ n.places ∧ k ≤ 28 ∧ n.rounded k < Decimal.limit

theorem fit?_eq_some_iff {r : Decimal.Reading} :
    Decimal.fit? n.units n.places = some r ↔
      IsGreatest {k | n.Fits k} r.scale ∧ r.mantissa = n.rounded r.scale := by
  constructor
  · intro h
    have hroom : Decimal.room n.units n.places ≤ min n.places 28 := Nat.findGreatest_le _
    obtain ⟨hlt, hr⟩ := Option.ite_none_right_eq_some.mp h
    obtain rfl := Option.some.inj hr
    have hplaces := Nat.le_trans hroom (Nat.min_le_left n.places 28)
    have hscale := Nat.le_trans hroom (Nat.min_le_right n.places 28)
    refine ⟨⟨⟨hplaces, hscale, ?_⟩, fun k ⟨hk, hk28, hfits⟩ => ?_⟩, ?_⟩
    · rw [rounded_eq hplaces]
      exact hlt
    · rw [rounded_eq hk] at hfits
      exact Nat.le_findGreatest (by omega) hfits
    · rw [rounded_eq hplaces]
  · rintro ⟨⟨⟨hplaces, hscale, hfits⟩, hgreatest⟩, hr⟩
    rw [rounded_eq hplaces] at hr hfits
    rw [Decimal.fit?_of_lt (by omega) hfits, ← hr]
    intro j hj hle
    refine Nat.le_of_not_lt fun hlt => Nat.not_le.mpr hj (hgreatest ⟨by omega, by omega, ?_⟩)
    rw [rounded_eq (by omega)]
    exact hlt

theorem fits_places (hunits : n.units < Decimal.limit) (hplaces : n.places ≤ 28) :
    IsGreatest {k | n.Fits k} n.places ∧ n.rounded n.places = n.units := by
  obtain ⟨hgreatest, hrounded⟩ := fit?_eq_some_iff.mp (Decimal.fit?_of_fits hunits hplaces)
  exact ⟨hgreatest, hrounded.symm⟩

theorem value_nonneg : 0 ≤ n.value := by
  unfold value
  positivity

theorem rounded_zero_le (k : Nat) : n.rounded 0 ≤ n.rounded k := by
  have hone : (1 : ℚ) ≤ 10 ^ k := one_le_pow₀ (by norm_num)
  have hscaled : n.value * 10 ^ 0 ≤ n.value * 10 ^ k := by
    rw [pow_zero]
    exact mul_le_mul_of_nonneg_left hone n.value_nonneg
  exact Nat.floor_mono (by linarith)

theorem exists_fits_iff : (∃ k, IsGreatest {k | n.Fits k} k) ↔ n.rounded 0 < Decimal.limit := by
  constructor
  · rintro ⟨k, ⟨_, _, hfits⟩, _⟩
    exact Nat.lt_of_le_of_lt (n.rounded_zero_le k) hfits
  · intro hfits
    rw [rounded_eq (Nat.zero_le _)] at hfits
    have hroom : Decimal.rounded n.units n.places (Decimal.room n.units n.places) < Decimal.limit :=
      Nat.findGreatest_spec (P := fun k => Decimal.rounded n.units n.places k < Decimal.limit)
        (Nat.zero_le _) hfits
    exact ⟨_, (fit?_eq_some_iff.mp (if_pos hroom)).1⟩

end Numeral

namespace Wad

open Decimal

theorem cut_eq (m k : Nat) :
    (if k ≤ 18 then m * unit (18 - k) else m / unit (k - 18)) = m * one / 10 ^ k := by
  have hone : one = 10 ^ 18 := rfl
  split
  next hle =>
    have hsplit : one = 10 ^ (18 - k) * 10 ^ k := by
      rw [hone, ← Nat.pow_add, Nat.sub_add_cancel hle]
    rw [hsplit, ← Nat.mul_assoc, Nat.mul_div_cancel _ (Nat.pow_pos (by decide))]
    rfl
  next hlt =>
    have hsplit : 10 ^ k = 10 ^ (k - 18) * one := by
      rw [hone, ← Nat.pow_add, Nat.sub_add_cancel (by omega)]
    rw [hsplit, Nat.mul_div_mul_right _ _ (by decide)]
    rfl

theorem cut_le (d : Decimal) : d.mantissa * one / 10 ^ d.scale ≤ (limit - 1) * one :=
  Nat.le_trans (Nat.div_le_self _ _) (Nat.mul_le_mul_right _ (Nat.le_sub_one_of_lt d.mantissa_lt))

theorem ofDecimal?_eq_some_iff {d : Decimal} {a : Wad} :
    ofDecimal? d = some a ↔
      ¬ (d.negative = true ∧ d.mantissa ≠ 0) ∧
        a.raw.toNat = d.mantissa * one / 10 ^ d.scale := by
  simp only [ofDecimal?, cut_eq, Option.ite_none_left_eq_some, Option.map_eq_some_iff,
    Word.ofNat?_eq_some_iff]
  refine and_congr_right fun _ => ⟨?_, fun h => ⟨a.raw, h.symm, rfl⟩⟩
  rintro ⟨w, hw, rfl⟩
  exact hw.symm

theorem ofDecimal?_eq {d : Decimal} (h : ¬ (d.negative = true ∧ d.mantissa ≠ 0)) :
    ∃ a, ofDecimal? d = some a ∧ a.raw.toNat = d.mantissa * one / 10 ^ d.scale := by
  have hsize : d.mantissa * one / 10 ^ d.scale < Word.size :=
    Nat.lt_of_le_of_lt (cut_le d) (by decide)
  exact ⟨⟨⟨_, hsize⟩⟩, ofDecimal?_eq_some_iff.mpr ⟨h, rfl⟩, rfl⟩

theorem ofDecimal?_eq_none_iff {d : Decimal} :
    ofDecimal? d = none ↔ d.negative = true ∧ d.mantissa ≠ 0 := by
  constructor
  · intro hnone
    refine Decidable.not_not.mp fun hd => ?_
    obtain ⟨a, ha, _⟩ := ofDecimal?_eq hd
    cases hnone.symm.trans ha
  · intro hd
    exact if_pos hd

/-- Whatever is read off a text, there is room for eighteen more decimals. -/
theorem scaled_lt_of_ofText {text : String} {a : Wad} (h : ofText text = .ok a) :
    a.raw.toNat * one < Word.size := by
  unfold ofText at h
  split at h
  · cases h
  next d _ =>
    split at h
    · cases h
    next b hb =>
      cases h
      have hle := (ofDecimal?_eq_some_iff.mp hb).2 ▸ cut_le d
      exact Nat.lt_of_le_of_lt (Nat.mul_le_mul_right _ hle) (by decide)

theorem floor_scaled (m k : Nat) : ⌊(m : ℚ) / 10 ^ k * 10 ^ 18⌋₊ = m * one / 10 ^ k := by
  have hratio : (m : ℚ) / 10 ^ k * 10 ^ 18 = ((m * one : Nat) : ℚ) / ((10 ^ k : Nat) : ℚ) := by
    push_cast [one]
    ring
  rw [hratio, Nat.floor_div_eq_div]

variable {n : Numeral} {text : String} (h : n.IsWritten text)
include h

theorem ofText_of_fit?_eq_none (hn : fit? n.units n.places = none) :
    ofText text = .error (.invalid text) := by
  simp only [ofText, Numeral.trim_of_isWritten h, ofChars?_chars, hn, Option.bind_none]

theorem ofText_of_fit? {r : Reading} (hr : fit? n.units n.places = some r) :
    ∃ a, ofText text = .ok a ∧ a.raw.toNat = r.mantissa * one / 10 ^ r.scale := by
  have hbounds := bounds_of_fit? hr
  obtain ⟨a, ha, hraw⟩ := ofDecimal?_eq (d := ⟨false, r.mantissa, r.scale, hbounds.1, hbounds.2⟩) nofun
  refine ⟨a, ?_, hraw⟩
  simp only [ofText, Numeral.trim_of_isWritten h, ofChars?_chars, hr, Option.bind_some, mk?,
    dif_pos hbounds, ha]

theorem ofText_of_isGreatest {k : Nat} (hk : IsGreatest {k | n.Fits k} k) :
    ∃ a, ofText text = .ok a ∧ a.raw.toNat = ⌊(n.rounded k : ℚ) / 10 ^ k * 10 ^ 18⌋₊ := by
  have hfit : fit? n.units n.places = some ⟨n.rounded k, k⟩ := Numeral.fit?_eq_some_iff.mpr ⟨hk, rfl⟩
  obtain ⟨a, ha, hraw⟩ := ofText_of_fit? h hfit
  refine ⟨a, ha, ?_⟩
  rw [floor_scaled]
  exact hraw

/-- A plain number is read as it is rounded, half up, to as many decimals as there is room for, and
cut off after eighteen. It is invalid if there is no room for its whole part. -/
theorem ofText_of_isWritten :
    (n.units < limit → n.places ≤ 28 →
        ∃ a, ofText text = .ok a ∧ a.raw.toNat = ⌊n.value * 10 ^ 18⌋₊) ∧
      (n.rounded 0 < limit →
        ∃ a k, ofText text = .ok a ∧ IsGreatest {k | n.Fits k} k ∧
          a.raw.toNat = ⌊(n.rounded k : ℚ) / 10 ^ k * 10 ^ 18⌋₊) ∧
      (limit ≤ n.rounded 0 → ofText text = .error (.invalid text)) := by
  refine ⟨fun hunits hplaces => ?_, fun hfits => ?_, fun hlarge => ?_⟩
  · obtain ⟨hgreatest, hrounded⟩ := Numeral.fits_places hunits hplaces
    rw [Numeral.value, ← hrounded]
    exact ofText_of_isGreatest h hgreatest
  · obtain ⟨k, hk⟩ := Numeral.exists_fits_iff.mpr hfits
    obtain ⟨a, ha, hraw⟩ := ofText_of_isGreatest h hk
    exact ⟨a, k, ha, hk, hraw⟩
  · refine ofText_of_fit?_eq_none h (Option.eq_none_iff_forall_ne_some.mpr fun r hr => ?_)
    have hgreatest := (Numeral.fit?_eq_some_iff.mp hr).1
    exact Nat.not_le.mpr (Numeral.exists_fits_iff.mp ⟨_, hgreatest⟩) hlarge

end Wad

namespace Numeral

def oneAndHalf : Numeral :=
  ⟨true, ['1'], some ['5'], List.all_eq_true.mp (by decide), by decide⟩

def nines : Numeral :=
  ⟨false, ['0'], some (List.replicate 29 '9'), List.all_eq_true.mp (by decide), by decide⟩

def lastAndHalf : Numeral :=
  ⟨false, "79228162514264337593543950335".toList, some ['5'], List.all_eq_true.mp (by decide),
    by decide⟩

end Numeral

namespace Wad

open Decimal Numeral

theorem ofText_of_isWritten_of_trial :
    (∃ a, ofText "  +1.5" = .ok a ∧ a.raw.toNat = ⌊oneAndHalf.value * 10 ^ 18⌋₊) ∧
      (∃ a k, ofText "0.99999999999999999999999999999" = .ok a ∧ IsGreatest {k | nines.Fits k} k ∧
        a.raw.toNat = ⌊(nines.rounded k : ℚ) / 10 ^ k * 10 ^ 18⌋₊) ∧
      ofText "79228162514264337593543950335.5" =
        .error (.invalid "79228162514264337593543950335.5") := by
  have hone : oneAndHalf.IsWritten "  +1.5" :=
    ⟨[' ', ' '], [], List.all_eq_true.mp (by decide), by decide⟩
  have hnines : nines.IsWritten "0.99999999999999999999999999999" := ⟨[], [], nofun, by decide⟩
  have hlast : lastAndHalf.IsWritten "79228162514264337593543950335.5" := ⟨[], [], nofun, by decide⟩
  refine ⟨(ofText_of_isWritten hone).1 (by decide) (by decide), (ofText_of_isWritten hnines).2.1 ?_,
    (ofText_of_isWritten hlast).2.2 ?_⟩
  · rw [rounded_eq (Nat.zero_le _)]
    decide
  · rw [rounded_eq (Nat.zero_le _)]
    decide

/-- Nines behind the point are read as one, and the text of the amount that is one too large for a
mantissa is read as another amount. -/
theorem ofText_alters :
    nines.IsWritten "0.99999999999999999999999999999" ∧
      ofText "0.99999999999999999999999999999" = .ok ⟨⟨1_000_000_000_000_000_000, by decide⟩⟩ ∧
      ⌊nines.value * 10 ^ 18⌋₊ = 999_999_999_999_999_999 ∧
      ofText (Wad.mk ⟨limit, by decide⟩).text = .ok ⟨⟨limit + 4, by decide⟩⟩ := by
  refine ⟨⟨[], [], nofun, by decide⟩, by decide, ?_, by decide⟩
  rw [value, floor_scaled]
  decide

end Wad

end Barter
