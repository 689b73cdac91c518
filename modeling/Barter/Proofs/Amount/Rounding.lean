import Barter.Proofs.Amount.Numeral
import Mathlib.Data.Nat.Find

namespace Barter.Decimal

/-- How often `1 / 10 ^ k` goes into `units / 10 ^ places`, to the nearest and half up. -/
def rounded (units places k : Nat) : Nat :=
  (units + 10 ^ (places - k) / 2) / 10 ^ (places - k)

/-- To how many decimals `units / 10 ^ places` can be rounded, for there is room in a mantissa. -/
def room (units places : Nat) : Nat :=
  Nat.findGreatest (fun k => rounded units places k < limit) (min places 28)

def fit? (units places : Nat) : Option Reading :=
  let r : Reading := ⟨rounded units places (room units places), room units places⟩
  if r.mantissa < limit then some r else none

section

variable {units places k : Nat}

theorem rounded_places : rounded units places places = units := by
  rw [rounded, Nat.sub_self]
  exact Nat.div_one _

theorem div_le_rounded : units / 10 ^ (places - k) ≤ rounded units places k :=
  Nat.div_le_div_right (Nat.le_add_right _ _)

theorem le_rounded_of_le {j : Nat} (h : limit ≤ units / 10 ^ (places - j)) (hk : j ≤ k) :
    limit ≤ rounded units places k := by
  have hpow : 10 ^ (places - k) ≤ 10 ^ (places - j) := Nat.pow_le_pow_right (by decide) (by omega)
  have hless := Nat.div_le_div_left (a := units) hpow (Nat.pow_pos (by decide))
  exact Nat.le_trans h (Nat.le_trans hless div_le_rounded)

theorem fit?_of_lt (hk : k ≤ min places 28) (hlt : rounded units places k < limit)
    (hstop : ∀ j, k < j → j ≤ min places 28 → limit ≤ rounded units places j) :
    fit? units places = some ⟨rounded units places k, k⟩ := by
  have hroom : room units places = k :=
    Nat.findGreatest_eq_iff.mpr ⟨hk, fun _ => hlt, fun j hj hle => Nat.not_lt.mpr (hstop j hj hle)⟩
  simp only [fit?, hroom, if_pos hlt]

theorem fit?_eq_none (h : ∀ j, j ≤ min places 28 → limit ≤ rounded units places j) :
    fit? units places = none := by
  have hroom : room units places ≤ min places 28 := Nat.findGreatest_le _
  exact if_neg (Nat.not_lt.mpr (h _ hroom))

theorem fit?_of_fits (hunits : units < limit) (hplaces : places ≤ 28) :
    fit? units places = some ⟨units, places⟩ := by
  have hlt : rounded units places places < limit := by
    rw [rounded_places]
    exact hunits
  rw [fit?_of_lt (by omega) hlt (by omega), rounded_places]

theorem fit?_of_large (h : limit ≤ units / 10 ^ places) : fit? units places = none :=
  fit?_eq_none fun j _ => le_rounded_of_le h (Nat.zero_le j)

theorem bounds_of_fit? {r : Reading} (h : fit? units places = some r) :
    r.mantissa < limit ∧ r.scale ≤ 28 := by
  obtain ⟨hlt, hr⟩ := Option.ite_none_right_eq_some.mp h
  obtain rfl := Option.some.inj hr
  exact ⟨hlt, Nat.le_trans (Nat.findGreatest_le _) (Nat.min_le_right places 28)⟩

end

/-- The first digit that is dropped decides about rounding. -/
theorem rounded_of_digit {places k m d t j : Nat} (hj : places - k = j + 1) (hd : d < 10)
    (ht : t < 10 ^ j) :
    rounded (10 ^ j * (10 * m + d) + t) places k = if 5 ≤ d then m + 1 else m := by
  have hpow : 10 ^ (j + 1) = 10 ^ j * 10 := Nat.pow_succ ..
  have hhalf : 10 ^ (j + 1) / 2 = 10 ^ j * 5 := by omega
  have hm : 10 ^ j * (10 * m + d) = 10 ^ (j + 1) * m + 10 ^ j * d := by
    rw [hpow, Nat.mul_add, Nat.mul_assoc]
  rw [rounded, hj, hhalf, hm]
  split
  next hup =>
    have hle : 10 ^ j * 5 ≤ 10 ^ j * d := Nat.mul_le_mul_left _ hup
    have hlt : 10 ^ j * d ≤ 10 ^ j * 9 := Nat.mul_le_mul_left _ (by omega)
    refine Nat.div_eq_of_lt_le ?_ ?_
    · rw [Nat.succ_mul, Nat.mul_comm m]
      omega
    · rw [Nat.succ_mul, Nat.succ_mul, Nat.mul_comm m]
      omega
  next hdown =>
    have hlt : 10 ^ j * d ≤ 10 ^ j * 4 := Nat.mul_le_mul_left _ (by omega)
    refine Nat.div_eq_of_lt_le ?_ ?_
    · rw [Nat.mul_comm m]
      omega
    · rw [Nat.succ_mul, Nat.mul_comm m]
      omega

theorem digitOrGap?_of_isDigit {c : Char} (h : c.isDigit = true) :
    digitOrGap? c = some (c.toNat - '0'.toNat) := by
  have hne : c ≠ '_' := by
    rintro rfl
    cases h
  rw [digitOrGap?, if_neg hne, Text.digit?_of_isDigit h]

theorem push_whole (m k d : Nat) : Reading.push ⟨m, k⟩ d false = ⟨10 * m + d, k⟩ := by
  rw [Reading.push, if_neg Bool.false_ne_true, Nat.mul_comm]

theorem push_fraction (m k d : Nat) : Reading.push ⟨m, k⟩ d true = ⟨10 * m + d, k + 1⟩ := by
  rw [Reading.push, if_pos rfl, Nat.mul_comm]

section

variable {m k : Nat} {rest : List Char} {c : Char}

theorem roundOff_of_isDigit (hcs : ∀ d ∈ c :: rest, d.isDigit = true) {up : Nat}
    (hup : up = if 5 ≤ c.toNat - '0'.toNat then m + 1 else m) :
    roundOff ⟨m, k⟩ c rest =
      if up < limit then some ⟨up, k⟩ else if k = 0 then none else some ⟨(up + 4) / 10, k - 1⟩ := by
  obtain ⟨hc, hrest⟩ := List.forall_mem_cons.mp hcs
  have hall : (rest.all fun d => (digitOrGap? d).isSome) = true := by
    refine List.all_eq_true.mpr fun d hmem => ?_
    rw [digitOrGap?_of_isDigit (hrest d hmem)]
    rfl
  subst hup
  simp [roundOff, digitOrGap?_of_isDigit hc, hall]

section

variable {places : Nat} (hcs : ∀ d ∈ c :: rest, d.isDigit = true)
  (hplaces : places = k + (rest.length + 1))
include hcs hplaces

theorem rounded_ofDigitChars :
    rounded (Nat.ofDigitChars 10 (c :: rest) m) places k =
      if 5 ≤ c.toNat - '0'.toNat then m + 1 else m := by
  obtain ⟨hc, hrest⟩ := List.forall_mem_cons.mp hcs
  have hd := Text.digit?_lt (Text.digit?_of_isDigit hc)
  rw [Nat.ofDigitChars_cons, Nat.ofDigitChars_eq_ofDigitChars_zero]
  exact rounded_of_digit (by omega) hd (Text.ofDigitChars_lt hrest)

theorem limit_le_rounded {j : Nat} (hfull : limit ≤ 10 * m + (c.toNat - '0'.toNat)) (hj : k < j) :
    limit ≤ rounded (Nat.ofDigitChars 10 (c :: rest) m) places j := by
  have hrest := (List.forall_mem_cons.mp hcs).2
  have hleft : places - (k + 1) = rest.length := by omega
  refine le_rounded_of_le (j := k + 1) ?_ hj
  rw [hleft, Nat.ofDigitChars_cons, Text.ofDigitChars_div hrest]
  exact hfull

/-- The last mantissa ends in the digit `5`, so that it is rounded up without this digit. -/
theorem rounded_of_last {j : Nat} (hj : k = j + 1) :
    rounded (Nat.ofDigitChars 10 (c :: rest) (limit - 1)) places j = (limit + 4) / 10 := by
  have hlast : Nat.ofDigitChars 10 ('5' :: c :: rest) ((limit - 6) / 10) =
      Nat.ofDigitChars 10 (c :: rest) (limit - 1) := by
    have hdigits : 10 * ((limit - 6) / 10) + ('5'.toNat - '0'.toNat) = limit - 1 := by decide
    rw [Nat.ofDigitChars_cons, hdigits]
  have hfive : ∀ d ∈ '5' :: c :: rest, d.isDigit = true := List.forall_mem_cons.mpr ⟨rfl, hcs⟩
  rw [← hlast, rounded_ofDigitChars hfive (by rw [hplaces, hj, List.length_cons]; omega)]
  decide

end

/-- A number with no room for its next digit is read as its mantissa and scale so far, rounded. -/
theorem roundOff_eq_fit? (hcs : ∀ d ∈ c :: rest, d.isDigit = true) (hm : m < limit) (hk : k ≤ 28)
    {places : Nat} (hplaces : places = k + (rest.length + 1))
    (hstop : k = 28 ∨ limit ≤ 10 * m + (c.toNat - '0'.toNat)) :
    roundOff ⟨m, k⟩ c rest = fit? (Nat.ofDigitChars 10 (c :: rest) m) places := by
  have hrounded := rounded_ofDigitChars (m := m) hcs hplaces
  have hbeyond (j : Nat) (hj : k < j) (hle : j ≤ min places 28) :
      limit ≤ rounded (Nat.ofDigitChars 10 (c :: rest) m) places j :=
    limit_le_rounded hcs hplaces (hstop.resolve_left (by omega)) hj
  rw [roundOff_of_isDigit hcs hrounded]
  by_cases hlt : rounded (Nat.ofDigitChars 10 (c :: rest) m) places k < limit
  · rw [if_pos hlt, fit?_of_lt (by omega) hlt hbeyond]
  · -- only the last mantissa is rounded up to one that does not fit
    obtain ⟨hfive, rfl⟩ : 5 ≤ c.toNat - '0'.toNat ∧ m = limit - 1 := by
      rw [hrounded] at hlt
      split at hlt <;> omega
    rw [if_neg hlt]
    cases k with
    | zero =>
        rw [if_pos rfl, fit?_eq_none]
        intro j hle
        rcases Nat.eq_zero_or_pos j with rfl | hj
        · exact Nat.le_of_not_lt hlt
        · exact hbeyond j hj hle
    | succ j =>
        have hless := rounded_of_last hcs hplaces rfl
        have hfits : (limit + 4) / 10 < limit := by decide
        rw [if_neg (Nat.succ_ne_zero j), hrounded, if_pos hfive, fit?_of_lt (k := j) (by omega), hless]
        · rfl
        · rw [hless]
          exact hfits
        · intro i hi hle
          rcases Nat.lt_or_eq_of_le (Nat.succ_le_of_lt hi) with hi | rfl
          · exact hbeyond i hi hle
          · exact Nat.le_of_not_lt hlt

end

theorem push_lt_limit {m d : Nat} (hm : m < narrowLimit) (hd : d < 10) : 10 * m + d < limit := by
  have hlimit : 10 * narrowLimit < limit := by decide
  omega

section

variable {m k places : Nat} {seen : Bool} {cs : List Char} (hcs : ∀ c ∈ cs, c.isDigit = true)
  (hplaces : places = k + cs.length)
include hcs hplaces

theorem readWide_fraction (hm : m < limit) (hk : k ≤ 28) (hroom : k < 28 ∨ cs = []) :
    readWide ⟨m, k⟩ true cs = fit? (Nat.ofDigitChars 10 cs m) places := by
  induction cs generalizing m k with
  | nil =>
      obtain rfl : places = k := hplaces
      exact (fit?_of_fits hm hk).symm
  | cons c rest ih =>
      obtain ⟨hc, hrest⟩ := List.forall_mem_cons.mp hcs
      have hlt : k < 28 := hroom.resolve_right (List.cons_ne_nil c rest)
      have hnext : places = k + 1 + rest.length := by
        rw [hplaces, List.length_cons]
        omega
      simp only [readWide, Text.digit?_of_isDigit hc, push_fraction]
      by_cases hfull : limit ≤ 10 * m + (c.toNat - '0'.toNat)
      · rw [if_pos hfull, if_pos trivial]
        exact roundOff_eq_fit? hcs hm hk hplaces (.inr hfull)
      · have hm := Nat.lt_of_not_le hfull
        rw [if_neg hfull, Nat.ofDigitChars_cons]
        by_cases hlast : 28 ≤ k + 1
        · rw [if_pos ⟨trivial, hlast⟩]
          cases rest with
          | nil =>
              obtain rfl : places = k + 1 := hnext
              exact (fit?_of_fits hm hlt).symm
          | cons d rest =>
              have hne : d ≠ '_' := by
                rintro rfl
                cases (hrest '_' List.mem_cons_self)
              rw [List.dropWhile_cons_of_neg (by simpa using hne)]
              exact roundOff_eq_fit? hrest hm hlt hnext (.inl (by omega))
        · rw [if_neg fun h => hlast h.2]
          exact ih hrest hnext hm hlt (.inl (by omega))

theorem readNarrow_fraction (hm : m < narrowLimit) (hk : k < 28) (hseen : seen = true ∨ cs ≠ []) :
    readNarrow true ⟨m, k⟩ true seen cs = fit? (Nat.ofDigitChars 10 cs m) places := by
  induction cs generalizing m k seen with
  | nil =>
      obtain rfl := hseen.resolve_right (fun hne => hne rfl)
      obtain rfl : places = k := hplaces
      have hlt : m < limit := Nat.lt_trans hm (by decide)
      exact (fit?_of_fits hlt (Nat.le_of_lt hk)).symm
  | cons c rest ih =>
      obtain ⟨hc, hrest⟩ := List.forall_mem_cons.mp hcs
      have hfits := push_lt_limit hm (Text.digit?_lt (Text.digit?_of_isDigit hc))
      have hnext : places = k + 1 + rest.length := by
        rw [hplaces, List.length_cons]
        omega
      simp only [readNarrow, Text.digit?_of_isDigit hc, push_fraction, Nat.ofDigitChars_cons]
      cases rest with
      | nil =>
          obtain rfl : places = k + 1 := hnext
          exact (fit?_of_fits hfits hk).symm
      | cons b after =>
          simp only [true_and]
          by_cases hlast : 28 ≤ k + 1
          · rw [if_pos hlast]
            exact roundOff_eq_fit? hrest hfits hk hnext (.inl (by omega))
          · rw [if_neg hlast]
            by_cases hwide : narrowLimit ≤ 10 * m + (c.toNat - '0'.toNat)
            · rw [if_pos hwide]
              exact readWide_fraction hrest hnext hfits hk (.inl (by omega))
            · rw [if_neg hwide]
              exact ih hrest hnext (Nat.lt_of_not_le hwide) (by omega) (.inl rfl)

theorem readNarrow_short_fraction (hseen : seen = true ∨ cs ≠ []) :
    readNarrow false ⟨m, k⟩ true seen cs = some ⟨Nat.ofDigitChars 10 cs m, places⟩ := by
  induction cs generalizing m k seen with
  | nil =>
      obtain rfl := hseen.resolve_right (fun hne => hne rfl)
      obtain rfl : places = k := hplaces
      rfl
  | cons c rest ih =>
      obtain ⟨hc, hrest⟩ := List.forall_mem_cons.mp hcs
      simp only [readNarrow, Text.digit?_of_isDigit hc, push_fraction, Nat.ofDigitChars_cons]
      refine ih hrest ?_ (.inl rfl)
      rw [hplaces, List.length_cons]
      omega

end

-- Up to the point the scale is zero, and the digits that have been read are the mantissa.
section

open Numeral

variable {m : Nat} {seen : Bool} {ws : List Char} {fraction? : Option (List Char)}
  (hdigits : ∀ c ∈ ws ++ fraction?.getD [], c.isDigit = true)
include hdigits

theorem readWide_whole (hm : m < limit) :
    readWide ⟨m, 0⟩ false (ws ++ pointed fraction?) =
      fit? (Nat.ofDigitChars 10 (ws ++ fraction?.getD []) m) (fraction?.getD []).length := by
  induction ws generalizing m with
  | nil =>
      cases fraction? with
      | none => exact (fit?_of_fits hm (Nat.zero_le _)).symm
      | some fraction =>
          exact readWide_fraction hdigits (Nat.zero_add _).symm hm (Nat.zero_le _) (.inl (by decide))
  | cons c rest ih =>
      obtain ⟨hc, hrest⟩ := List.forall_mem_cons.mp hdigits
      simp only [List.cons_append, readWide, Text.digit?_of_isDigit hc, push_whole,
        Nat.ofDigitChars_cons]
      by_cases hfull : limit ≤ 10 * m + (c.toNat - '0'.toNat)
      · rw [if_pos hfull, if_neg Bool.false_ne_true]
        obtain ⟨hbefore, hbehind⟩ := List.forall_mem_append.mp hrest
        have hle := Nat.div_le_self
          (Nat.ofDigitChars 10 rest (10 * m + (c.toNat - '0'.toNat))) (10 ^ rest.length)
        rw [Text.ofDigitChars_div hbefore] at hle
        rw [fit?_of_large]
        rw [Nat.ofDigitChars_append, Text.ofDigitChars_div hbehind]
        exact Nat.le_trans hfull hle
      · rw [if_neg hfull, if_neg fun h => Bool.false_ne_true h.1]
        exact ih hrest (Nat.lt_of_not_le hfull)

theorem readNarrow_whole (hm : m < narrowLimit)
    (hseen : seen = true ∨ ws ++ fraction?.getD [] ≠ []) :
    readNarrow true ⟨m, 0⟩ false seen (ws ++ pointed fraction?) =
      fit? (Nat.ofDigitChars 10 (ws ++ fraction?.getD []) m) (fraction?.getD []).length := by
  induction ws generalizing m seen with
  | nil =>
      cases fraction? with
      | none =>
          obtain rfl := hseen.resolve_right (fun hne => hne rfl)
          have hlt : m < limit := Nat.lt_trans hm (by decide)
          exact (fit?_of_fits hlt (Nat.zero_le _)).symm
      | some fraction =>
          exact readNarrow_fraction hdigits (Nat.zero_add _).symm hm (by decide) hseen
  | cons c rest ih =>
      obtain ⟨hc, hrest⟩ := List.forall_mem_cons.mp hdigits
      have hfits := push_lt_limit hm (Text.digit?_lt (Text.digit?_of_isDigit hc))
      simp only [List.cons_append, readNarrow, Text.digit?_of_isDigit hc, push_whole,
        Nat.ofDigitChars_cons]
      cases hbehind : rest ++ pointed fraction? with
      | nil =>
          obtain ⟨rfl, hpointed⟩ := List.append_eq_nil_iff.mp hbehind
          obtain rfl := pointed_eq_nil_iff.mp hpointed
          exact (fit?_of_fits hfits (Nat.zero_le _)).symm
      | cons b after =>
          simp only [Bool.false_eq_true, false_and, if_false]
          rw [← hbehind]
          by_cases hwide : narrowLimit ≤ 10 * m + (c.toNat - '0'.toNat)
          · rw [if_pos hwide]
            exact readWide_whole hrest hfits
          · rw [if_neg hwide]
            exact ih hrest (Nat.lt_of_not_le hwide) (.inl rfl)

theorem readNarrow_short_whole (hseen : seen = true ∨ ws ++ fraction?.getD [] ≠ []) :
    readNarrow false ⟨m, 0⟩ false seen (ws ++ pointed fraction?) =
      some ⟨Nat.ofDigitChars 10 (ws ++ fraction?.getD []) m, (fraction?.getD []).length⟩ := by
  induction ws generalizing m seen with
  | nil =>
      cases fraction? with
      | none =>
          obtain rfl := hseen.resolve_right (fun hne => hne rfl)
          rfl
      | some fraction => exact readNarrow_short_fraction hdigits (Nat.zero_add _).symm hseen
  | cons c rest ih =>
      obtain ⟨hc, hrest⟩ := List.forall_mem_cons.mp hdigits
      simp only [List.cons_append, readNarrow, Text.digit?_of_isDigit hc, push_whole,
        Nat.ofDigitChars_cons]
      exact ih hrest (.inl rfl)

end

end Barter.Decimal
