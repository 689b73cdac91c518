import Mathlib.Data.List.Nodup
import Barter.Proofs.Json.RoundTrip

namespace Barter.Json

section Objects

variable {fields : List (String × Layout)} {members : List (String × Json)} {layout : Layout}

theorem lookup_of_mem {β : Type} {entries : List (String × β)}
    (hnodup : (entries.map Prod.fst).Nodup) {e : String × β} (he : e ∈ entries) :
    entries.lookup e.1 = some e.2 := by
  induction entries with
  | nil => cases he
  | cons first rest ih =>
      obtain ⟨hfirst, hrest⟩ := List.nodup_cons.mp hnodup
      rcases List.mem_cons.mp he with rfl | he
      · rw [List.lookup_cons, beq_self_eq_true]
      · have hne : (e.1 == first.1) = false := by
          rw [beq_eq_false_iff_ne]
          intro heq
          exact hfirst (heq ▸ List.mem_map_of_mem he)
        rw [List.lookup_cons, hne]
        exact ih hrest he

theorem membersFit_of_forall (h : ∀ m ∈ members, Fits (layout.member m.1) m.2) :
    MembersFit layout members := by
  induction members with
  | nil => exact .nil layout
  | cons m ms ih =>
      obtain ⟨hm, hms⟩ := List.forall_mem_cons.mp h
      exact .cons hm (ih hms)

theorem fits_map (h : ∀ m ∈ members, Fits layout m.2) : Fits (.map layout) (.obj members) :=
  .obj (membersFit_of_forall h)

inductive Fills : List (String × Layout) → List (String × Json) → Prop
  | nil : Fills [] []
  | cons {name : String} {layout : Layout} {j : Json} {fields : List (String × Layout)}
      {members : List (String × Json)} (hj : Fits layout j) (h : Fills fields members) :
      Fills ((name, layout) :: fields) ((name, j) :: members)

attribute [simp] Fills.nil

@[simp]
theorem fills_cons_iff {name : String} {j : Json} :
    Fills ((name, layout) :: fields) ((name, j) :: members) ↔ Fits layout j ∧ Fills fields members := by
  constructor
  · rintro (_ | ⟨hj, h⟩)
    exact ⟨hj, h⟩
  · rintro ⟨hj, h⟩
    exact .cons hj h

theorem Fills.names_eq (h : Fills fields members) :
    members.map Prod.fst = fields.map Prod.fst := by
  induction h with
  | nil => rfl
  | cons _ _ ih => rw [List.map_cons, List.map_cons, ih]

theorem Fills.exists_field (h : Fills fields members) {m : String × Json} (hm : m ∈ members) :
    ∃ layout, (m.1, layout) ∈ fields ∧ Fits layout m.2 := by
  induction h with
  | nil => cases hm
  | @cons name layout j _ _ hj _ ih =>
      rcases List.mem_cons.mp hm with rfl | hm
      · exact ⟨layout, List.mem_cons_self, hj⟩
      · obtain ⟨layout, hfield, hfits⟩ := ih hm
        exact ⟨layout, List.mem_cons_of_mem _ hfield, hfits⟩

theorem fits_record (hnodup : (fields.map Prod.fst).Nodup) (h : Fills fields members) :
    Fits (.record fields) (.obj members) := by
  refine .obj (membersFit_of_forall fun m hm => ?_)
  obtain ⟨layout, hfield, hfits⟩ := h.exists_field hm
  rw [Layout.member, lookup_of_mem hnodup hfield]
  exact hfits

theorem fields?_obj (hnodup : (fields.map Prod.fst).Nodup) (h : Fills fields members) :
    fields? fields (.obj members) = some (members.map fun m => some m.2) := by
  have hmembers : (members.map Prod.fst).Nodup := h.names_eq ▸ hnodup
  rw [fields?, if_pos]
  · refine congrArg some ?_
    calc _ = (fields.map Prod.fst).map fun name => members.lookup name := by rw [List.map_map]; rfl
      _ = members.map fun m => members.lookup m.1 := by rw [← h.names_eq, List.map_map]; rfl
      _ = members.map fun m => some m.2 :=
          List.map_congr_left fun m hm => lookup_of_mem hmembers hm
  · rw [List.all_eq_true]
    rintro ⟨name, _⟩ -
    have hcount := List.nodup_iff_count_le_one.mp hmembers name
    rw [List.count_eq_countP, List.countP_map] at hcount
    exact decide_eq_true hcount

end Objects

section Lists

variable {items : List Json} {layout : Layout}

theorem itemsFit_of_forall (h : ∀ v ∈ items, Fits layout v) (i : Nat) :
    ItemsFit (.list layout) i items := by
  induction items generalizing i with
  | nil => exact .nil _ i
  | cons v vs ih =>
      obtain ⟨hv, hvs⟩ := List.forall_mem_cons.mp h
      exact .cons hv (ih hvs (i + 1))

theorem fits_list (h : ∀ v ∈ items, Fits layout v) : Fits (.list layout) (.arr items) :=
  .arr nofun (itemsFit_of_forall h 0)

end Lists

attribute [simp] Fits.null Fits.bool Fits.str

@[simp]
theorem fits_ofUInt64 (layout : Layout) (n : UInt64) : Fits layout (ofUInt64 n) :=
  .nat layout _

@[simp]
theorem bool?_bool (b : Bool) : (bool b).bool? = some b :=
  rfl

@[simp]
theorem str?_str (s : String) : (str s).str? = some s :=
  rfl

@[simp]
theorem uint64?_ofUInt64 (n : UInt64) : (ofUInt64 n).uint64? = some n := by
  rw [ofUInt64, uint64?, if_pos n.toNat_lt, UInt64.ofNat_toNat]

section Reading

variable {α : Type} (read : Json → Option α) (j : Json)

@[simp]
theorem required_some : required read (some j) = read j :=
  rfl

@[simp]
theorem optional_some (default : α) : Json.optional default read (some j) = read j :=
  rfl

end Reading

structure Format (α : Type) where
  layout : Layout
  toJson : α → Json
  ofJson? : Json → Option α

namespace Format

variable {α : Type} {f : Format α}

def write (f : Format α) (a : α) : String :=
  (f.toJson a).write

def read? (f : Format α) (text : String) : Option α :=
  (Json.read? f.layout text).bind f.ofJson?

/-- A value that was written is read back, also when it was read from some other text before. -/
structure RoundTrips (f : Format α) : Prop where
  read?_write (a : α) : f.read? (f.write a) = some a
  read?_again {text : String} {a : α} (h : f.read? text = some a) :
    f.read? (f.write a) = f.read? text

structure Lawful (f : Format α) : Prop where
  fits (a : α) : Fits f.layout (f.toJson a)
  ofJson?_toJson (a : α) : f.ofJson? (f.toJson a) = some a

theorem Lawful.read?_write (h : f.Lawful) (a : α) : f.read? (f.write a) = some a := by
  rw [read?, write, Json.read?_write (h.fits a), Option.bind_some, h.ofJson?_toJson]

theorem Lawful.roundTrips (h : f.Lawful) : f.RoundTrips where
  read?_write := h.read?_write
  read?_again hread := by rw [h.read?_write, hread]

/-- What is read from the fields of a record is made of them alone. -/
theorem Lawful.record {fields : List (String × Layout)} (hnodup : (fields.map Prod.fst).Nodup)
    {members : α → List (String × Json)} {build : List (Option Json) → Option α}
    (hfills : ∀ a, Fills fields (members a))
    (hbuild : ∀ a, build ((members a).map fun m => some m.2) = some a) :
    Lawful ⟨.record fields, fun a => .obj (members a), fun j => (j.fields? fields).bind build⟩ where
  fits a := fits_record hnodup (hfills a)
  ofJson?_toJson a := by
    change (fields? fields (.obj (members a))).bind build = some a
    rw [fields?_obj hnodup (hfills a), Option.bind_some, hbuild]

theorem Lawful.fits_list (h : f.Lawful) (as : List α) :
    Fits (.list f.layout) (.arr (as.map f.toJson)) :=
  Json.fits_list (List.forall_mem_map.mpr fun a _ => h.fits a)

theorem Lawful.listOf_map (h : f.Lawful) (as : List α) :
    listOf f.ofJson? (.arr (as.map f.toJson)) = some as := by
  have hread : (as.map f.toJson).mapM f.ofJson? = some as := by
    induction as with
    | nil => rfl
    | cons a as ih => rw [List.map_cons, List.mapM_cons, h.ofJson?_toJson, ih]; rfl
  rw [listOf, arr?]
  exact hread

end Format

end Barter.Json
