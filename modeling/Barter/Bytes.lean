import Barter.Text

namespace Barter

abbrev Bytes (n : Nat) := Vector UInt8 n

namespace Bytes

variable {n : Nat}

def zero (n : Nat) : Bytes n :=
  Vector.replicate n 0

def ofList? (n : Nat) (bytes : List UInt8) : Option (Bytes n) :=
  if h : bytes.length = n then some ⟨bytes.toArray, by simpa using h⟩ else none

/-- The number whose digits in base 256 are `bytes`, the most significant first. -/
def natOf (bytes : List UInt8) : Nat :=
  bytes.foldl (fun value b => value * 256 + b.toNat) 0

def count (n : Nat) : Nat :=
  Nat.pow 256 n

theorem count_succ (n : Nat) : count (n + 1) = count n * 256 :=
  rfl

theorem count_pos (n : Nat) : 0 < count n :=
  Nat.pow_pos (by decide)

theorem foldl_eq (bytes : List UInt8) (value : Nat) :
    bytes.foldl (fun value b => value * 256 + b.toNat) value =
      value * count bytes.length + natOf bytes := by
  induction bytes generalizing value with
  | nil => exact (Nat.mul_one value).symm
  | cons b bytes ih =>
      have h := ih (value * 256 + b.toNat)
      have h' := ih b.toNat
      simp only [natOf, List.foldl_cons, List.length_cons, count_succ, Nat.zero_mul, Nat.zero_add]
        at h h' ⊢
      rw [h, h', Nat.add_mul, Nat.add_assoc, Nat.mul_assoc, Nat.mul_comm 256]

theorem natOf_cons (b : UInt8) (bytes : List UInt8) :
    natOf (b :: bytes) = b.toNat * count bytes.length + natOf bytes := by
  have h := foldl_eq bytes b.toNat
  simpa [natOf] using h

theorem natOf_lt (bytes : List UInt8) : natOf bytes < count bytes.length := by
  induction bytes with
  | nil => decide
  | cons b bytes ih =>
      have hb : b.toNat + 1 ≤ 256 := b.toNat_lt
      have h := Nat.mul_le_mul_right (count bytes.length) hb
      rw [natOf_cons, List.length_cons, count_succ, Nat.mul_comm (count bytes.length)]
      rw [Nat.add_mul, Nat.one_mul] at h
      omega

theorem natOf_injective {l l' : List UInt8} (hl : l.length = l'.length) (h : natOf l = natOf l') :
    l = l' := by
  induction l generalizing l' with
  | nil => exact (List.eq_nil_of_length_eq_zero hl.symm).symm
  | cons b l ih =>
      cases l' with
      | nil => exact absurd hl (by simp)
      | cons b' l' =>
          have hl : l.length = l'.length := Nat.succ.inj hl
          have hlt := natOf_lt l
          have hlt' := natOf_lt l'
          rw [natOf_cons, natOf_cons, ← hl] at h
          rw [← hl] at hlt'
          have hhead : b.toNat = b'.toNat := by
            have h := congrArg (· / count l.length) h
            simpa [Nat.mul_comm _ (count _), Nat.mul_add_div (count_pos _),
              Nat.div_eq_of_lt hlt, Nat.div_eq_of_lt hlt'] using h
          rw [hhead] at h
          rw [UInt8.toNat_inj.mp hhead, ih hl (Nat.add_left_cancel h)]

def digits : Nat → Nat → List UInt8
  | 0, _ => []
  | n + 1, value => UInt8.ofNat (value / count n) :: digits n value

theorem length_digits (n value : Nat) : (digits n value).length = n := by
  induction n with
  | zero => rfl
  | succ n ih => rw [digits, List.length_cons, ih]

theorem natOf_digits (n value : Nat) : natOf (digits n value) = value % count n := by
  induction n with
  | zero => exact (Nat.mod_one value).symm
  | succ n ih =>
      rw [digits, natOf_cons, length_digits, ih, count_succ, Nat.mod_mul, UInt8.toNat_ofNat']
      rw [Nat.mul_comm, Nat.add_comm]

def toNat (b : Bytes n) : Nat :=
  natOf b.toList

def ofNat (n value : Nat) : Bytes n :=
  ⟨(digits n value).toArray, length_digits n value⟩

theorem toNat_lt (b : Bytes n) : b.toNat < count n := by
  have h := natOf_lt b.toList
  rwa [Vector.length_toList] at h

theorem toNat_ofNat {value : Nat} (h : value < count n) : (ofNat n value).toNat = value := by
  rw [toNat, ofNat, Vector.toList_mk, natOf_digits, Nat.mod_eq_of_lt h]

theorem toNat_injective {a b : Bytes n} (h : a.toNat = b.toNat) : a = b :=
  Vector.toList_inj.mp (natOf_injective (by simp) h)

theorem ofNat_toNat (b : Bytes n) : ofNat n b.toNat = b :=
  toNat_injective (toNat_ofNat b.toNat_lt)

def hexPair (b : UInt8) : List Char :=
  [Nat.digitChar (b.toNat / 16), Nat.digitChar (b.toNat % 16)]

def hexChars (b : Bytes n) : List Char :=
  b.toList.flatMap hexPair

def hex (b : Bytes n) : String :=
  "0x" ++ String.ofList b.hexChars

def bytesOfHex? : List Char → Option (List UInt8)
  | [] => some []
  | [_] => none
  | a :: b :: rest => do
      let high ← Text.digit? 16 a
      let low ← Text.digit? 16 b
      return UInt8.ofNat (high * 16 + low) :: (← bytesOfHex? rest)

theorem bytesOfHex?_hexPair (bytes : List UInt8) :
    bytesOfHex? (bytes.flatMap hexPair) = some bytes := by
  induction bytes with
  | nil => rfl
  | cons b bytes ih =>
      have hb := b.toNat_lt
      have hdiv : UInt8.ofNat (b.toNat / 16 * 16 + b.toNat % 16) = b := by
        rw [show b.toNat / 16 * 16 + b.toNat % 16 = b.toNat by omega]
        exact UInt8.ofNat_toNat
      rw [List.flatMap_cons, hexPair, List.cons_append, List.cons_append, List.nil_append,
        bytesOfHex?, Text.digit?_digitChar (by omega), Text.digit?_digitChar (by omega), ih]
      exact congrArg (fun b => some (b :: bytes)) hdiv

theorem ofList?_toList (b : Bytes n) : ofList? n b.toList = some b := by
  rw [ofList?, dif_pos b.length_toList]
  exact congrArg some (Vector.toList_inj.mp rfl)

def ofHex? (n : Nat) (text : String) : Option (Bytes n) :=
  let digits :=
    match text.toList with
    | '0' :: 'x' :: rest => rest
    | '0' :: 'X' :: rest => rest
    | cs => cs
  (bytesOfHex? digits).bind (ofList? n)

theorem ofHex?_hex (b : Bytes n) : ofHex? n b.hex = some b := by
  simp [ofHex?, hex, hexChars, String.toList_append, bytesOfHex?_hexPair, ofList?_toList]

end Bytes

abbrev Hash := Bytes 32

end Barter
