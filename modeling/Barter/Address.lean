import Barter.Keccak

namespace Barter

abbrev Address := Bytes 20

namespace Address

def zero : Address :=
  Bytes.zero 20

def highBits (h : Hash) : List Bool :=
  h.toList.flatMap fun b => [128 ≤ b, 8 ≤ b % 16]

/-- The text shown to people: a letter is a capital where the hash of the forty lower-case digits
has a digit of at least eight. -/
def checksum (a : Address) : String :=
  let digits := a.hexChars
  let marks := highBits (Keccak.hash (digits.map fun c => c.toNat.toUInt8))
  "0x" ++ String.ofList (digits.zipWith (fun c capital => if capital then c.toUpper else c) marks)

def ofText? (text : String) : Option Address :=
  Bytes.ofHex? 20 text

end Address

structure TokenPair where
  base : Address
  quote : Address
deriving DecidableEq

namespace TokenPair

instance : Ord TokenPair :=
  ⟨compareLex (compareOn TokenPair.base) (compareOn TokenPair.quote)⟩

instance : Std.TransOrd TokenPair :=
  inferInstanceAs (Std.TransCmp (compareLex (compareOn TokenPair.base) (compareOn TokenPair.quote)))

instance : Std.LawfulEqOrd TokenPair where
  eq_of_compare {a b} h := by
    obtain ⟨hb, hq⟩ := compareLex_eq_eq.mp h
    cases a
    cases b
    simp_all [compareOn]

def swap (p : TokenPair) : TokenPair :=
  ⟨p.quote, p.base⟩

end TokenPair

end Barter
