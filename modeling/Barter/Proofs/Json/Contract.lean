import Barter.Json.Contract
import Barter.Proofs.Json.Format

namespace Barter

open Json

namespace Word

/-- Every word has only hexadecimal digits behind its mark, so none of them is passed over. -/
theorem digits?_toDigits (n : Nat) : digits? 16 (Nat.toDigits 16 n) = some n := by
  have hdigit (value : Nat) {d : Nat} (h : d < 16) :
      (if Nat.digitChar d = '_' then some value
        else (Text.digit? 16 (Nat.digitChar d)).map (value * 16 + ·)) = some (value * 16 + d) := by
    have hline : ∀ d < 16, Nat.digitChar d ≠ '_' := by decide
    rw [if_neg (hline d h), Text.digit?_digitChar h, Option.map_some]
  induction n using Nat.strong_induction_on with
  | _ n ih =>
      by_cases hsmall : n < 16
      · rw [Nat.toDigits_of_lt_base hsmall, digits?, List.foldlM_cons, hdigit 0 hsmall, Nat.zero_mul,
          Nat.zero_add]
        rfl
      · have hle : 16 ≤ n := Nat.le_of_not_lt hsmall
        have hfront := ih (n / 16) (by omega)
        have hlast := hdigit (n / 16) (Nat.mod_lt n (by decide : 0 < 16))
        rw [digits?] at hfront
        rw [Nat.toDigits_of_base_le (by decide) hle, digits?, List.foldlM_append, hfront,
          Option.bind_eq_bind, Option.bind_some, List.foldlM_cons, hlast]
        refine congrArg some ?_
        omega

theorem ofText?_hex (w : Word) : ofText? w.hex = some w := by
  have htext : w.hex.toList = '0' :: 'x' :: Nat.toDigits 16 w.toNat := by
    simp [hex, String.toList_append]
  rw [ofText?, htext]
  simp only [digits?_toDigits, bind, Option.bind]
  exact ofNat?_eq_some_iff.mpr rfl

@[simp]
theorem ofJson?_toJson (w : Word) : ofJson? w.toJson = some w :=
  ofText?_hex w

end Word

namespace Wad

@[simp]
theorem ofJson?_toJson (a : Wad) : ofJson? a.toJson = some a := by
  rw [ofJson?, toJson, Word.ofJson?_toJson, Option.map_some]

@[simp]
theorem fits (layout : Layout) (a : Wad) : Fits layout a.toJson :=
  .str layout _

def format : Format Wad :=
  ⟨.plain, toJson, ofJson?⟩

theorem lawful : format.Lawful where
  fits := fits .plain
  ofJson?_toJson := ofJson?_toJson

end Wad

namespace Bytes

variable {n : Nat}

@[simp]
theorem ofJson?_toJson (b : Bytes n) : ofJson? n b.toJson = some b :=
  ofHex?_hex b

@[simp]
theorem fits (layout : Layout) (b : Bytes n) : Fits layout b.toJson :=
  .str layout _

end Bytes

namespace Address

@[simp]
theorem ofJson?_toJson (a : Address) : ofJson? a.toJson = some a :=
  Bytes.ofJson?_toJson a

@[simp]
theorem fits (layout : Layout) (a : Address) : Fits layout a.toJson :=
  Bytes.fits layout a

end Address

namespace Value

def format : Format Value :=
  ⟨layout, toJson, ofJson?⟩

theorem lawful : format.Lawful where
  fits v := by
    cases v with
    | address a => exact .obj (.cons (a.fits _) (.nil _))
    | uint w => exact .obj (.cons (.str _ _) (.nil _))
    | bool b => exact .obj (.cons (.bool _ b) (.nil _))
    | bytes32 h => exact .obj (.cons (Bytes.fits _ h) (.nil _))
  ofJson?_toJson v := by
    cases v with
    | address a => exact congrArg (Option.map address) a.ofJson?_toJson
    | uint w => exact congrArg (Option.map uint) w.ofJson?_toJson
    | bool b => rfl
    | bytes32 h => exact congrArg (Option.map bytes32) (Bytes.ofJson?_toJson h)

end Value

namespace Log

theorem ofList_toList (args : Std.ExtTreeMap String Value) :
    Std.ExtTreeMap.ofList args.toList = args := by
  refine Std.ExtTreeMap.ext_getElem? fun name => ?_
  cases hname : args[name]? with
  | some v =>
      exact Std.ExtTreeMap.getElem?_ofList_of_mem Std.ReflCmp.compare_self
        Std.ExtTreeMap.distinct_keys_toList
        (Std.ExtTreeMap.mem_toList_iff_getElem?_eq_some.mpr hname)
  | none =>
      have hkeys : name ∉ args.keys := by
        rw [Std.ExtTreeMap.mem_keys, Std.ExtTreeMap.mem_iff_isSome_getElem?, hname]
        exact Bool.false_ne_true
      refine Std.ExtTreeMap.getElem?_ofList_of_contains_eq_false ?_
      rw [Std.ExtTreeMap.map_fst_toList_eq_keys, Bool.eq_false_iff, Ne, List.contains_iff_mem]
      exact hkeys

theorem foldlM_insert (entries : List (String × Value)) (args : Std.ExtTreeMap String Value) :
    entries.foldlM (fun args (name, v) => args.insert name <$> Value.ofJson? v.toJson) args =
      some (args.insertMany entries) := by
  induction entries generalizing args with
  | nil => rw [Std.ExtTreeMap.insertMany_nil]; rfl
  | cons entry rest ih =>
      obtain ⟨name, v⟩ := entry
      have hread : Value.ofJson? v.toJson = some v := Value.lawful.ofJson?_toJson v
      rw [List.foldlM_cons, Std.ExtTreeMap.insertMany_cons]
      simp only [hread]
      exact ih _

@[simp]
theorem argsOfJson?_argsToJson (args : Std.ExtTreeMap String Value) :
    argsOfJson? (argsToJson args) = some args := by
  rw [argsToJson, argsOfJson?, List.foldlM_map]
  refine (foldlM_insert args.toList ∅).trans ?_
  rw [← Std.ExtTreeMap.ofList_eq_insertMany_empty, ofList_toList]

theorem fits_args (args : Std.ExtTreeMap String Value) :
    Fits (.map Value.layout) (argsToJson args) := by
  refine fits_map fun m hm => ?_
  obtain ⟨⟨_, v⟩, _, rfl⟩ := List.mem_map.mp hm
  exact Value.lawful.fits v

def format : Format Log :=
  ⟨.record fields, toJson, ofJson?⟩

theorem lawful : format.Lawful :=
  .record (by decide) (fun l => by simp [fields, fits_args]) (fun l => by simp)

end Log

end Barter
