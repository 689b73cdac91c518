import Barter.Json.Reader
import Barter.Json.Writer
import Barter.Proofs.Amount.Numeral

namespace Barter.Json

def Ends (rest : List Char) : Prop :=
  ∀ c ∈ rest.head?, c = ',' ∨ c = ']' ∨ c = '}'

theorem ends_nil : Ends [] :=
  nofun

theorem ends_cons {c : Char} (h : c = ',' ∨ c = ']' ∨ c = '}') (rest : List Char) :
    Ends (c :: rest) := by
  intro d hd
  obtain rfl := Option.some.inj hd
  exact h

theorem skipGap_cons {c : Char} (h : isGap c = false) (rest : List Char) :
    skipGap (c :: rest) = c :: rest :=
  List.dropWhile_cons_of_neg (by rw [h]; exact Bool.false_ne_true)

def lettered : List Char :=
  ['"', '\\', '\n', '\r', '\t', '\x08', '\x0c']

def piece (c : Char) : Piece :=
  if c.toNat < 0x20 ∧ c ∉ lettered then .unit c.toNat else .char c

theorem escaped_of_lettered {c : Char} (h : c ∈ lettered) :
    ∃ e, escaped c = ['\\', e] ∧ e ≠ 'u' ∧ escape? e = some c := by
  simp only [lettered, List.mem_cons, List.not_mem_nil, or_false] at h
  rcases h with rfl | rfl | rfl | rfl | rfl | rfl | rfl <;> exact ⟨_, rfl, by decide, rfl⟩

theorem escaped_of_not_lettered {c : Char} (h : c ∉ lettered) :
    escaped c =
      if c.toNat < 0x20 then
        ['\\', 'u', '0', '0', Nat.digitChar (c.toNat / 16), Nat.digitChar (c.toNat % 16)]
      else [c] := by
  simp only [lettered, List.mem_cons, List.not_mem_nil, or_false, not_or] at h
  obtain ⟨hquote, hback, hline, hreturn, htab, hbell, hfeed⟩ := h
  rw [escaped, if_neg hquote, if_neg hback, if_neg hline, if_neg hreturn, if_neg htab, if_neg hbell,
    if_neg hfeed]

theorem unit?_digitChar {n : Nat} (h : n < 0x20) :
    unit? '0' '0' (Nat.digitChar (n / 16)) (Nat.digitChar (n % 16)) = some n := by
  have hzero : Text.digit? 16 '0' = some 0 := rfl
  rw [unit?, hzero, Text.digit?_digitChar (by omega), Text.digit?_digitChar (by omega)]
  refine congrArg some ?_
  omega

theorem pieces_letter {e c : Char} (hletter : e ≠ 'u') (h : escape? e = some c) (cs : List Char) :
    pieces ('\\' :: e :: cs) = (pieces cs).map fun (ps, after) => (.char c :: ps, after) := by
  have hread : pieces ('\\' :: e :: cs) = do
      let c ← escape? e
      let (ps, after) ← pieces cs
      return (.char c :: ps, after) := by
    rw [pieces]
    intro a b c d rest he
    exact absurd he hletter
  rw [hread, h]
  cases pieces cs <;> rfl

theorem pieces_number {n : Nat} (h : n < 0x20) (cs : List Char) :
    pieces ('\\' :: 'u' :: '0' :: '0' :: Nat.digitChar (n / 16) :: Nat.digitChar (n % 16) :: cs) =
      (pieces cs).map fun (ps, after) => (.unit n :: ps, after) := by
  rw [pieces, unit?_digitChar h]
  cases pieces cs <;> rfl

theorem pieces_plain {c : Char} (hletter : c ∉ lettered) (h : ¬ c.toNat < 0x20) (cs : List Char) :
    pieces (c :: cs) = (pieces cs).map fun (ps, after) => (.char c :: ps, after) := by
  have hquote : c ≠ '"' := fun hc => hletter (hc ▸ by decide)
  have hback : c ≠ '\\' := fun hc => hletter (hc ▸ by decide)
  rw [pieces, if_neg h]
  · exact hquote
  · intro a b d e rest hc
    exact absurd hc hback
  · intro e rest hc
    exact absurd hc hback

theorem pieces_escaped (c : Char) (cs : List Char) :
    pieces (escaped c ++ cs) = (pieces cs).map fun (ps, after) => (piece c :: ps, after) := by
  by_cases hletter : c ∈ lettered
  · obtain ⟨e, hescaped, he, hescape⟩ := escaped_of_lettered hletter
    rw [hescaped, piece, if_neg (fun h => h.2 hletter)]
    exact pieces_letter he hescape cs
  · rw [escaped_of_not_lettered hletter]
    by_cases hlow : c.toNat < 0x20
    · rw [if_pos hlow, piece, if_pos ⟨hlow, hletter⟩]
      exact pieces_number hlow cs
    · rw [if_neg hlow, piece, if_neg (fun h => hlow h.1)]
      exact pieces_plain hletter hlow cs

theorem join_piece (c : Char) (ps : List Piece) : join (piece c :: ps) = (join ps).map (c :: ·) := by
  unfold piece
  split
  next h =>
    have hhigh : isHighSurrogate c.toNat = false := by
      simp only [isHighSurrogate, Bool.and_eq_false_iff, decide_eq_false_iff_not]
      omega
    have hlow : isLowSurrogate c.toNat = false := by
      simp only [isLowSurrogate, Bool.and_eq_false_iff, decide_eq_false_iff_not]
      omega
    -- a unit that is no half of a pair stands for itself, whatever is behind it
    have hunit : join (.unit c.toNat :: ps) = (join ps).map (Char.ofNat c.toNat :: ·) := by
      rcases ps with _ | ⟨_ | v, rest⟩ <;> simp [join, hhigh, hlow]
    rw [hunit, Char.ofNat_toNat]
  · rfl

theorem pieces_flatMap (cs after : List Char) :
    pieces (cs.flatMap escaped ++ '"' :: after) = some (cs.map piece, after) := by
  induction cs with
  | nil => rw [List.flatMap_nil, List.nil_append, pieces, List.map_nil]
  | cons c rest ih =>
      rw [List.flatMap_cons, List.append_assoc, pieces_escaped, ih]
      rfl

theorem join_map_piece (cs : List Char) : join (cs.map piece) = some cs := by
  induction cs with
  | nil => rfl
  | cons c rest ih =>
      rw [List.map_cons, join_piece, ih]
      rfl

theorem stringLiteral_escaped (text : String) (after : List Char) :
    stringLiteral (text.toList.flatMap escaped ++ '"' :: after) = some (some text, after) := by
  rw [stringLiteral, pieces_flatMap, Option.map_some]
  simp only [join_map_piece, Option.map_some, String.ofList_toList]

theorem isDigit_of_mem_toDigits {n : Nat} {c : Char} (h : c ∈ Nat.toDigits 10 n) :
    isDigit c = true := by
  rw [isDigit, Text.digit?_of_isDigit (Nat.isDigit_of_mem_toDigits (by decide) (by decide) h)]
  rfl

theorem toDigits_eq_cons (n : Nat) : ∃ c ds, Nat.toDigits 10 n = c :: ds ∧ isDigit c = true := by
  obtain ⟨c, ds, hcs⟩ := List.exists_cons_of_ne_nil (Nat.toDigits_ne_nil (n := n) (b := 10))
  exact ⟨c, ds, hcs, isDigit_of_mem_toDigits (n := n) (hcs ▸ List.mem_cons_self)⟩

theorem head_toDigits_ne {n : Nat} (h : 0 < n) : (Nat.toDigits 10 n).head? ≠ some '0' := by
  induction n using Nat.strong_induction_on with
  | _ n ih =>
      by_cases hsmall : n < 10
      · have hfirst : ∀ m < 10, 0 < m → [Nat.digitChar m].head? ≠ some '0' := by decide
        rw [Nat.toDigits_of_lt_base hsmall]
        exact hfirst n hsmall h
      · have hle : 10 ≤ n := Nat.le_of_not_lt hsmall
        have hhead := ih (n / 10) (by omega) (by omega)
        obtain ⟨c, rest, hcs, _⟩ := toDigits_eq_cons (n / 10)
        rw [hcs] at hhead
        rw [Nat.toDigits_of_base_le (by decide) hle, hcs]
        exact hhead

theorem isDigit_of_ends {rest : List Char} (h : Ends rest) :
    ∀ c ∈ rest.head?, isDigit c = false := by
  intro c hc
  rcases h c hc with rfl | rfl | rfl <;> rfl

theorem digits_toDigits (n : Nat) {rest : List Char} (h : Ends rest) :
    digits (Nat.toDigits 10 n ++ rest) = some (Nat.toDigits 10 n, rest) := by
  have hdigits : ∀ c ∈ Nat.toDigits 10 n, isDigit c = true := fun c => isDigit_of_mem_toDigits
  have hstop : rest.takeWhile isDigit = [] ∧ rest.dropWhile isDigit = rest := by
    cases rest with
    | nil => exact ⟨rfl, rfl⟩
    | cons c rest =>
        have hc := isDigit_of_ends h c rfl
        exact ⟨List.takeWhile_cons_of_neg (by simp [hc]), List.dropWhile_cons_of_neg (by simp [hc])⟩
  rw [digits, List.takeWhile_append_of_pos hdigits, List.dropWhile_append_of_pos hdigits, hstop.1,
    hstop.2, List.append_nil]
  split
  next hnil => exact absurd hnil Nat.toDigits_ne_nil
  next => rfl

theorem fraction_of_ends {rest : List Char} (h : Ends rest) : fraction rest = some ([], rest) := by
  unfold fraction
  split
  next =>
    rcases h '.' rfl with h | h | h <;> cases h
  next => rfl

theorem exponent_of_ends {rest : List Char} (h : Ends rest) : exponent rest = some ([], rest) := by
  cases rest with
  | nil => rfl
  | cons c rest =>
      have hmark : (c = 'e' || c = 'E') = false := by
        rcases h c rfl with rfl | rfl | rfl <;> rfl
      simp [exponent, hmark]

theorem numberLiteral_toDigits (n : Nat) {rest : List Char} (h : Ends rest) :
    numberLiteral (Nat.toDigits 10 n ++ rest) = some (.nat n, rest) := by
  have hwhole : ¬ ((Nat.toDigits 10 n).head? = some '0' ∧ (Nat.toDigits 10 n).length ≠ 1) := by
    rintro ⟨hhead, hlength⟩
    rcases Nat.eq_zero_or_pos n with rfl | hpos
    · exact hlength rfl
    · exact head_toDigits_ne hpos hhead
  have hunsigned (after : List Char) : Nat.toDigits 10 n ++ rest ≠ '-' :: after := by
    obtain ⟨c, ds, hcs, hdigit⟩ := toDigits_eq_cons n
    rw [hcs, List.cons_append]
    intro hminus
    obtain ⟨rfl, _⟩ := List.cons.inj hminus
    cases hdigit
  rw [numberLiteral]
  · simp only [digits_toDigits n h, if_neg hwhole, fraction_of_ends h, exponent_of_ends h, bind,
      Option.bind, Nat.ofDigitChars_ten_toDigits]
    rfl
  · exact hunsigned

end Barter.Json
