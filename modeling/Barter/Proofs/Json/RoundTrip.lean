import Barter.Proofs.Json.Lexeme

namespace Barter.Json

mutual

/-- What can be read back when the layout is known: there are no literals in it that have no value,
and no lists where bytes are expected. -/
inductive Fits : Layout → Json → Prop
  | null (layout : Layout) : Fits layout .null
  | bool (layout : Layout) (b : Bool) : Fits layout (.bool b)
  | nat (layout : Layout) (n : Nat) : Fits layout (.nat n)
  | str (layout : Layout) (s : String) : Fits layout (.str s)
  | arr {layout : Layout} {items : List Json} (hlayout : ∀ n, layout ≠ .bytes n)
      (h : ItemsFit layout 0 items) : Fits layout (.arr items)
  | obj {layout : Layout} {members : List (String × Json)} (h : MembersFit layout members) :
      Fits layout (.obj members)

inductive ItemsFit : Layout → Nat → List Json → Prop
  | nil (layout : Layout) (i : Nat) : ItemsFit layout i []
  | cons {layout : Layout} {i : Nat} {v : Json} {vs : List Json} (hv : Fits (layout.item i) v)
      (hvs : ItemsFit layout (i + 1) vs) : ItemsFit layout i (v :: vs)

inductive MembersFit : Layout → List (String × Json) → Prop
  | nil (layout : Layout) : MembersFit layout []
  | cons {layout : Layout} {key : String} {v : Json} {ms : List (String × Json)}
      (hv : Fits (layout.member key) v) (hms : MembersFit layout ms) :
      MembersFit layout ((key, v) :: ms)

end

theorem isGap_of_isDigit {c : Char} (h : isDigit c = true) : isGap c = false := by
  rw [Bool.eq_false_iff]
  intro hgap
  simp only [isGap, Bool.or_eq_true, decide_eq_true_eq] at hgap
  rcases hgap with ((rfl | rfl) | rfl) | rfl <;> cases h

theorem head_chars {layout : Layout} {j : Json} (h : Fits layout j) :
    ∃ c cs, j.chars = c :: cs ∧ isGap c = false ∧ c ≠ ']' := by
  cases h with
  | null => exact ⟨'n', _, rfl, rfl, by decide⟩
  | bool _ b => cases b <;> exact ⟨_, _, rfl, rfl, by decide⟩
  | str _ s => exact ⟨'"', _, rfl, rfl, by decide⟩
  | arr _ h => cases h <;> exact ⟨'[', _, rfl, rfl, by decide⟩
  | obj h => cases h <;> exact ⟨'\x7b', _, rfl, rfl, by decide⟩
  | nat _ n =>
      obtain ⟨c, ds, hcs, hdigit⟩ := toDigits_eq_cons n
      refine ⟨c, ds, hcs, isGap_of_isDigit hdigit, ?_⟩
      rintro rfl
      cases hdigit

theorem skipGap_chars {layout : Layout} {j : Json} (h : Fits layout j) (rest : List Char) :
    skipGap (j.chars ++ rest) = j.chars ++ rest := by
  obtain ⟨c, cs, hchars, hgap, _⟩ := head_chars h
  rw [hchars]
  exact skipGap_cons hgap _

theorem length_chars_pos {layout : Layout} {j : Json} (h : Fits layout j) : 0 < j.chars.length := by
  obtain ⟨c, cs, hchars, _⟩ := head_chars h
  rw [hchars]
  exact Nat.succ_pos _

theorem value_nat (layout : Layout) (n : Nat) {rest : List Char} (h : Ends rest) (fuel : Nat) :
    value layout (fuel + 1) (Nat.toDigits 10 n ++ rest) = some (.nat n, rest) := by
  have hnumber := numberLiteral_toDigits n h
  obtain ⟨c, ds, hcs, hdigit⟩ := toDigits_eq_cons n
  rw [hcs, List.cons_append] at hnumber ⊢
  rw [value]
  · exact hnumber
  all_goals
    intro after hc
    obtain ⟨rfl, _⟩ := List.cons.inj hc
    cases hdigit

theorem value_str (layout : Layout) (s : String) (rest : List Char) (fuel : Nat) :
    value layout (fuel + 1) (quoted s ++ rest) = some (.str s, rest) := by
  have hquoted : quoted s ++ rest = '"' :: (s.toList.flatMap escaped ++ '"' :: rest) := by
    rw [quoted, List.append_assoc, List.cons_append]
    rfl
  rw [hquoted, value, stringLiteral_escaped]
  rfl

theorem word_append (text : String) (v : Json) (rest : List Char) :
    word text v (text.toList ++ rest) = some (v, rest) := by
  rw [word, if_pos (List.isPrefixOf_iff_prefix.mpr (List.prefix_append _ _)),
    ← String.length_toList, List.drop_left]

theorem value_null (layout : Layout) (rest : List Char) (fuel : Nat) :
    value layout (fuel + 1) (Json.null.chars ++ rest) = some (.null, rest) := by
  have hchars : Json.null.chars ++ rest = 'n' :: ('u' :: 'l' :: 'l' :: rest) := rfl
  rw [hchars, value]
  exact word_append "null" .null rest

theorem value_bool (layout : Layout) (b : Bool) (rest : List Char) (fuel : Nat) :
    value layout (fuel + 1) ((Json.bool b).chars ++ rest) = some (.bool b, rest) := by
  cases b with
  | true =>
      have hchars : (Json.bool true).chars ++ rest = 't' :: ('r' :: 'u' :: 'e' :: rest) := rfl
      rw [hchars, value]
      exact word_append "true" (.bool true) rest
  | false =>
      have hchars : (Json.bool false).chars ++ rest = 'f' :: ('a' :: 'l' :: 's' :: 'e' :: rest) := rfl
      rw [hchars, value]
      exact word_append "false" (.bool false) rest

theorem ends_itemChars (vs : List Json) (rest : List Char) : Ends (itemChars vs ++ rest) := by
  cases vs with
  | nil => exact ends_cons (.inr (.inl rfl)) rest
  | cons v vs => exact ends_cons (.inl rfl) _

theorem ends_memberChars (ms : List (String × Json)) (rest : List Char) :
    Ends (memberChars ms ++ rest) := by
  cases ms with
  | nil => exact ends_cons (.inr (.inr rfl)) rest
  | cons m ms => exact ends_cons (.inl rfl) _

theorem value_arr {layout : Layout} (hlayout : ∀ n, layout ≠ .bytes n) {inside rest : List Char}
    (hhead : ∃ c cs, inside = c :: cs ∧ isGap c = false ∧ c ≠ ']') {vs : List Json} {fuel : Nat}
    (h : items layout 0 fuel inside = some (vs, rest)) :
    value layout (fuel + 1) ('[' :: inside) = some (.arr vs, rest) := by
  obtain ⟨c, cs, rfl, hgap, hne⟩ := hhead
  unfold value
  simp only [skipGap_cons hgap]
  split
  next => exact absurd rfl (hlayout _)
  next hclosed => exact absurd (List.cons.inj hclosed).1 hne
  next => rw [h]; rfl

theorem value_arr_nil {layout : Layout} (hlayout : ∀ n, layout ≠ .bytes n) (rest : List Char)
    (fuel : Nat) : value layout (fuel + 1) ('[' :: ']' :: rest) = some (.arr [], rest) := by
  unfold value
  simp only [skipGap_cons (show isGap ']' = false from rfl)]

theorem objectOf_map (ms : List (String × Json)) : objectOf (ms.map (Prod.map some id)) = .obj ms := by
  have hkeys : (ms.map (Prod.map some id)).mapM
      (fun m : Option String × Json => m.1.map fun key => (key, m.2)) = some ms := by
    induction ms with
    | nil => rfl
    | cons m ms ih => rw [List.map_cons, List.mapM_cons, ih]; rfl
  unfold objectOf
  split
  next found h => exact congrArg Json.obj (Option.some.inj (h.symm.trans hkeys))
  next h => exact absurd (h.symm.trans hkeys) nofun

theorem value_obj {layout : Layout} {inside rest : List Char} {ms : List (String × Json)} {fuel : Nat}
    (h : members layout fuel ('"' :: inside) =
      some (ms.map (Prod.map some id), rest)) :
    value layout (fuel + 1) ('\x7b' :: '"' :: inside) = some (.obj ms, rest) := by
  unfold value
  simp only [skipGap_cons (show isGap '"' = false from rfl)]
  split
  next hclosed => cases hclosed
  next => rw [h, Option.map_some, objectOf_map]

theorem value_obj_nil (layout : Layout) (rest : List Char) (fuel : Nat) :
    value layout (fuel + 1) ('\x7b' :: '\x7d' :: rest) = some (.obj [], rest) := by
  unfold value
  simp only [skipGap_cons (show isGap '\x7d' = false from rfl)]

mutual

theorem value_chars {layout : Layout} {j : Json} (h : Fits layout j) {rest : List Char}
    (hrest : Ends rest) (fuel : Nat) (hfuel : 2 * j.chars.length ≤ fuel) :
    value layout fuel (j.chars ++ rest) = some (j, rest) := by
  have hpos := length_chars_pos h
  obtain ⟨fuel, rfl⟩ := Nat.exists_eq_add_of_le' (show 1 ≤ fuel by omega)
  cases h with
  | null => exact value_null layout rest fuel
  | bool _ b => exact value_bool layout b rest fuel
  | nat _ n => exact value_nat layout n hrest fuel
  | str _ s => exact value_str layout s rest fuel
  | arr hlayout h =>
      cases h with
      | nil => exact value_arr_nil hlayout rest fuel
      | @cons _ _ v vs hv hvs =>
          have hlength : (Json.arr (v :: vs)).chars.length =
            (v.chars ++ itemChars vs).length + 1 := rfl
          have hitems := items_chars hv hvs rest fuel (by omega)
          refine value_arr hlayout ?_ hitems
          obtain ⟨c, cs, hchars, hhead⟩ := head_chars hv
          exact ⟨c, cs ++ itemChars vs ++ rest, by rw [hchars]; rfl, hhead⟩
  | obj h =>
      cases h with
      | nil => exact value_obj_nil layout rest fuel
      | @cons _ key v ms hv hms =>
          have hlength : (Json.obj ((key, v) :: ms)).chars.length =
            (quoted key ++ ':' :: v.chars ++ memberChars ms).length + 1 := rfl
          have hmembers := members_chars hv hms rest fuel (by omega)
          exact value_obj hmembers
termination_by fuel

theorem items_chars {layout : Layout} {i : Nat} {v : Json} {vs : List Json}
    (hv : Fits (layout.item i) v) (hvs : ItemsFit layout (i + 1) vs) (rest : List Char) (fuel : Nat)
    (hfuel : 2 * (v.chars ++ itemChars vs).length + 1 ≤ fuel) :
    items layout i fuel (v.chars ++ itemChars vs ++ rest) = some (v :: vs, rest) := by
  obtain ⟨fuel, rfl⟩ := Nat.exists_eq_add_of_le' (show 1 ≤ fuel by omega)
  rw [List.length_append] at hfuel
  have hpos := length_chars_pos hv
  have hfirst := value_chars hv (ends_itemChars vs rest) fuel (by omega)
  rw [items, List.append_assoc, hfirst]
  cases hvs with
  | nil =>
      have hclosed : skipGap (itemChars [] ++ rest) = ']' :: rest := skipGap_cons rfl rest
      simp only [bind, Option.bind, hclosed]
      rfl
  | @cons _ _ w ws hw hws =>
      have hlength : (itemChars (w :: ws)).length = (w.chars ++ itemChars ws).length + 1 := rfl
      have hrest := items_chars hw hws rest fuel (by omega)
      have hcomma : skipGap (itemChars (w :: ws) ++ rest) =
          ',' :: (w.chars ++ itemChars ws ++ rest) := skipGap_cons rfl _
      have hgap : skipGap (w.chars ++ itemChars ws ++ rest) = w.chars ++ itemChars ws ++ rest := by
        rw [List.append_assoc]
        exact skipGap_chars hw _
      simp only [bind, Option.bind, hcomma, hgap, hrest]
      rfl
termination_by fuel

theorem members_chars {layout : Layout} {key : String} {v : Json} {ms : List (String × Json)}
    (hv : Fits (layout.member key) v) (hms : MembersFit layout ms) (rest : List Char) (fuel : Nat)
    (hfuel : 2 * (quoted key ++ ':' :: v.chars ++ memberChars ms).length + 1 ≤ fuel) :
    members layout fuel (quoted key ++ ':' :: v.chars ++ memberChars ms ++ rest) =
      some (((key, v) :: ms).map (Prod.map some id), rest) := by
  obtain ⟨fuel, rfl⟩ := Nat.exists_eq_add_of_le' (show 1 ≤ fuel by omega)
  have hpos := length_chars_pos hv
  have hquoted : quoted key ++ ':' :: v.chars ++ memberChars ms ++ rest =
      '"' :: (key.toList.flatMap escaped ++ '"' :: ':' :: (v.chars ++ (memberChars ms ++ rest))) := by
    simp [quoted]
  simp only [List.length_append, List.length_cons] at hfuel
  have hfirst := value_chars hv (ends_memberChars ms rest) fuel (by omega)
  have hcolon : skipGap (':' :: (v.chars ++ (memberChars ms ++ rest))) =
      ':' :: (v.chars ++ (memberChars ms ++ rest)) := skipGap_cons rfl _
  rw [hquoted, members, stringLiteral_escaped]
  simp only [bind, Option.bind, hcolon, skipGap_chars hv, Option.map_some, Option.getD_some, hfirst]
  cases hms with
  | nil =>
      have hclosed : skipGap (memberChars [] ++ rest) = '\x7d' :: rest := skipGap_cons rfl rest
      simp only [hclosed]
      rfl
  | @cons _ next w ws hw hws =>
      have hlength : (memberChars ((next, w) :: ws)).length =
        (quoted next ++ ':' :: w.chars ++ memberChars ws).length + 1 := rfl
      have hrest := members_chars hw hws rest fuel (by omega)
      have hcomma : skipGap (memberChars ((next, w) :: ws) ++ rest) =
          ',' :: (quoted next ++ ':' :: w.chars ++ memberChars ws ++ rest) := skipGap_cons rfl _
      have hgap : skipGap (quoted next ++ ':' :: w.chars ++ memberChars ws ++ rest) =
          quoted next ++ ':' :: w.chars ++ memberChars ws ++ rest := skipGap_cons rfl _
      simp only [hcomma, hgap, hrest]
      rfl
termination_by fuel

end

/-- A text that was written is read back. -/
theorem read?_write {layout : Layout} {j : Json} (h : Fits layout j) :
    read? layout j.write = some j := by
  have hchars := value_chars h ends_nil (2 * j.chars.length + 2) (by omega)
  have hgap := skipGap_chars h []
  rw [List.append_nil] at hchars hgap
  rw [read?, write, String.toList_ofList]
  simp only [hgap, hchars, bind, Option.bind]
  rfl

end Barter.Json
