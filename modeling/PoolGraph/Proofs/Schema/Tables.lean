import Mathlib.Logic.Relation
import PoolGraph.Proofs.Schema.Growing
import PoolGraph.Schema.Drafting

/-!
# Tables of a schema

`Indexes table keys` says that a table gives for each key its position in a list.  All three tables
of an intact draft do (`Draft.Intact`), and each is kept so by one fact: a new key goes to the end
of the list and to the front of the table (`Indexes.concat`).  Whatever a call does is made of three
kinds of steps (`Draft.Step`), which keep a draft intact and move no struct and no list type
(`Draft.Keeps`).
-/

namespace PoolGraph

/-! ### Tables -/

section

variable {κ : Type} [DecidableEq κ]

/-- Whether a table gives for each key its position in a list. -/
def Indexes (table : List (κ × Nat)) (keys : List κ) : Prop :=
  ∀ key i, table.lookup key = some i ↔ keys[i]? = some key

namespace Indexes

variable {table : List (κ × Nat)} {keys : List κ} {key : κ}

/-- No key, no entry. -/
theorem nil :
  Indexes ([] : List (κ × Nat)) []
  := by
  intro key i
  rw [List.lookup_nil, List.getElem?_nil]
  constructor <;> nofun

/-- A key has no entry if it is none of the keys. -/
theorem lookup_eq_none_iff (h : Indexes table keys) :
  table.lookup key = none ↔ key ∉ keys
  := by
  rw [List.mem_iff_getElem?, Option.eq_none_iff_forall_ne_some, not_exists]
  apply forall_congr'
  intro i
  rw [ne_eq, h key i]

/-- No key stands at two positions, since the table gives one for it. -/
theorem nodup (h : Indexes table keys) :
  keys.Nodup
  := by
  rw [List.nodup_iff_getElem?_ne_getElem?]
  intro i j before inside same
  have there := List.getElem?_eq_getElem inside
  have first := (h keys[j] i).mpr (same.trans there)
  have second := (h keys[j] j).mpr there
  have positions := Option.some.inj (first.symm.trans second)
  omega

/-- A new key goes behind the others, and its position in front of the table. -/
theorem concat (h : Indexes table keys) (free : table.lookup key = none) :
  Indexes ((key, keys.length) :: table) (keys ++ [key])
  := by
  have new := h.lookup_eq_none_iff.mp free
  have last : ∀ other i, (keys ++ [key])[i]? = some other
      ↔ keys[i]? = some other ∨ i = keys.length ∧ other = key := by
    intro other i
    grind
  intro other i
  rw [last, List.lookup_cons]
  cases same : other == key with
  | true =>
    obtain rfl := eq_of_beq same
    have absent : keys[i]? ≠ some other := fun found => new (List.mem_of_getElem? found)
    simp [absent, eq_comm]
  | false =>
    have other_ne : other ≠ key := ne_of_beq_false same
    simp [other_ne, h other i]

/-- A table finds what a search of the list finds. -/
theorem findIdx?_eq (h : Indexes table keys) (key : κ) :
  keys.findIdx? (fun other => other = key) = table.lookup key
  := by
  have distinct : (keys.map id).Nodup := by
    rw [List.map_id]
    apply h.nodup
  apply Option.ext
  intro i
  rw [h key i]
  apply (findIdx?_eq_some_iff_of_nodup distinct).trans
  simp

end Indexes

end

/-- What a list begins with stays where it is. -/
theorem getElem?_of_begins {xs ys : List α} (h : xs <+: ys) {i : Nat} {x : α}
    (hx : xs[i]? = some x) :
  ys[i]? = some x
  := by
  obtain ⟨more, rfl⟩ := h
  rw [List.getElem?_append_left (List.getElem?_eq_some_iff.mp hx).1, hx]

/-! ### Structs -/

/-- Whether the table of a struct gives the positions of its fields, which are their numbers. -/
structure DraftStruct.Intact (s : DraftStruct) : Prop where
  numbers : Indexes s.numbers (s.fields.map NumberedField.name)
  positions : s.fields.map NumberedField.number = List.range s.fields.length

/-- A struct with one more field. -/
def DraftStruct.withField (s : DraftStruct) (field : Field) : DraftStruct :=
  { s with
    fields := s.fields ++ [⟨field.name, field.type, s.fields.length⟩]
    numbers := (field.name, s.fields.length) :: s.numbers }

namespace DraftStruct

variable {s : DraftStruct}

/-- A struct without fields is intact. -/
theorem intact_nil (name : String) :
  (DraftStruct.mk name [] []).Intact
  := ⟨.nil, rfl⟩

/-- A field with a new name keeps a struct intact. -/
theorem Intact.withField (h : s.Intact) {field : Field}
    (free : s.numbers.lookup field.name = none) :
  (s.withField field).Intact
  := by
  constructor
  · have longer := h.numbers.concat free
    rw [List.length_map] at longer
    rw [DraftStruct.withField, List.map_append, List.map_singleton]
    apply longer
  · rw [DraftStruct.withField, List.map_append, List.map_singleton, h.positions, List.length_append,
      List.length_singleton, List.range_succ]

/-- The field of an intact struct that is found by a name is the one that has the name. -/
theorem Intact.field? (h : s.Intact) (name : String) :
  ∃ field?, s.field? name = .ok field?
    ∧ ∀ field, field? = some field ↔ field ∈ s.fields ∧ field.name = name
  := by
  rw [DraftStruct.field?]
  cases hnumber : s.numbers.lookup name with
  | none =>
    use none, rfl
    intro field
    constructor
    · nofun
    · rintro ⟨mem, rfl⟩
      exact absurd (List.mem_map_of_mem mem) (h.numbers.lookup_eq_none_iff.mp hnumber)
  | some number =>
    have named := (h.numbers name number).mp hnumber
    rw [List.getElem?_map] at named
    obtain ⟨found, hfound, rfl⟩ := Option.map_eq_some_iff.mp named
    dsimp only
    rw [hfound]
    use some found, rfl
    intro field
    have mem := List.mem_of_getElem? hfound
    constructor
    · intro same
      obtain rfl := Option.some.inj same
      exact ⟨mem, rfl⟩
    · rintro ⟨hfield, same⟩
      rw [List.inj_on_of_nodup_map h.numbers.nodup mem hfield same.symm]

/-- A field is refused if the table has its name. -/
theorem run_addField (field : Field) (s : DraftStruct) :
  (addField field).run s = match s.numbers.lookup field.name with
    | some _ => .error (.duplicateField s.name field.name) s
    | none => .ok () (s.withField field)
  := by
  rw [addField, EStateM.run_bind, EStateM.run_get]
  dsimp only
  cases s.numbers.lookup field.name <;> rfl

/-- The table tells whether a name is taken. -/
theorem Intact.any_fields (h : s.Intact) (name : String) :
  (s.plain.fields.any fun other => other.name = name) = (s.numbers.lookup name).isSome
  := by
  rw [Bool.eq_iff_iff, List.any_eq_true, ← Option.ne_none_iff_isSome, ne_eq,
    h.numbers.lookup_eq_none_iff, not_not, List.mem_map]
  simp [plain]

/-- Fields are added up to the first whose name is taken, and the struct is intact there. -/
theorem Intact.run_addFields (h : s.Intact) (fields : List Field) :
  ∃ s', s'.Intact ∧ s'.plain = ⟨s.name, (RegionSchema.untilDuplicate s.plain.fields fields).1⟩
    ∧ (fields.forM addField).run s
      = match (RegionSchema.untilDuplicate s.plain.fields fields).2 with
        | none => .ok () s'
        | some name => .error (.duplicateField s.name name) s'
  := by
  induction fields generalizing s with
  | nil =>
    use s, h, rfl
    rfl
  | cons field rest ih =>
    have loop : (field :: rest).forM addField
        = addField field >>= fun _ => rest.forM addField := rfl
    rw [RegionSchema.untilDuplicate, h.any_fields, loop, EStateM.run_bind, run_addField]
    cases free : s.numbers.lookup field.name with
    | some _ =>
      use s, h, rfl
      rfl
    | none =>
      have behind : s.plain.fields ++ [field] = (s.withField field).plain.fields := by
        simp [plain, DraftStruct.withField]
      rw [Option.isSome_none, if_neg Bool.false_ne_true, behind]
      apply ih (h.withField free)

/-- Fields are added up to the first duplicate, which is reported. -/
theorem run_defineFields (fields : List Field) (s : DraftStruct) :
  ∃ s', s'.Intact ∧ s'.plain = ⟨s.name, (RegionSchema.untilDuplicate [] fields).1⟩
    ∧ (defineFields fields).run s = match (RegionSchema.untilDuplicate [] fields).2 with
      | none => .ok () s'
      | some name => .error (.duplicateField s.name name) s'
  := by
  apply (intact_nil s.name).run_addFields

end DraftStruct

/-! ### Drafts -/

/-- Whether the tables of a draft give the positions of its structs and list types. -/
structure Draft.Intact (d : Draft) : Prop where
  structIds : Indexes d.structIds (d.structs.map DraftStruct.name)
  structs : ∀ s ∈ d.structs, s.Intact
  listIds : Indexes d.listIds d.lists

namespace Draft

/-- A draft with one more struct. -/
def addStruct (d : Draft) (name : String) : Draft :=
  { d with
    structs := d.structs ++ [⟨name, [], []⟩]
    structIds := (name, d.structs.length) :: d.structIds }

/-- A draft with another struct at a position. -/
def setStruct (d : Draft) (id : Nat) (s : DraftStruct) : Draft :=
  { d with structs := d.structs.set id s }

/-- A draft with one more list type. -/
def addList (d : Draft) (item : FieldType) : Draft :=
  { d with
    lists := d.lists ++ [item]
    listIds := (item, d.lists.length) :: d.listIds }

/-- What a draft can become in one step. -/
inductive Step (d : Draft) : Draft → Prop where
  | addStruct {name : String} (free : d.structIds.lookup name = none) : Step d (d.addStruct name)
  | setStruct {id : Nat} {s s' : DraftStruct} (hs : d.structs[id]? = some s)
      (named : s'.name = s.name) (intact : s'.Intact) : Step d (d.setStruct id s')
  | addList {item : FieldType} (free : d.listIds.lookup item = none) : Step d (d.addList item)

/-- Whether structs keep their names and list types their items. -/
structure Keeps (d d' : Draft) : Prop where
  structs : d.structs.map DraftStruct.name <+: d'.structs.map DraftStruct.name
  lists : d.lists <+: d'.lists

/-- A draft keeps what it has. -/
theorem Keeps.refl (d : Draft) :
  d.Keeps d
  := ⟨List.prefix_rfl, List.prefix_rfl⟩

/-- What is kept twice is kept. -/
theorem Keeps.trans {d d₁ d' : Draft} (h : d.Keeps d₁) (h' : d₁.Keeps d') :
  d.Keeps d'
  := ⟨h.structs.trans h'.structs, h.lists.trans h'.lists⟩

variable {d d' : Draft}

/-- A struct keeps its place and its name. -/
theorem Keeps.struct (h : d.Keeps d') {id : Nat} {s : DraftStruct}
    (hs : d.structs[id]? = some s) :
  ∃ s', d'.structs[id]? = some s' ∧ s'.name = s.name
  := by
  have named : (d.structs.map DraftStruct.name)[id]? = some s.name := by
    rw [List.getElem?_map, hs, Option.map_some]
  have kept := getElem?_of_begins h.structs named
  rw [List.getElem?_map] at kept
  apply Option.map_eq_some_iff.mp kept

/-- A draft without structs is intact. -/
theorem intact_empty (name : String) :
  (Draft.empty name).Intact
  := ⟨.nil, List.forall_mem_nil _, .nil⟩

/-- One step keeps a draft intact. -/
theorem Intact.step (h : d.Intact) (step : d.Step d') :
  d'.Intact
  := by
  cases step with
  | @addStruct name free =>
    refine ⟨?_, ?_, h.listIds⟩
    · have longer := h.structIds.concat free
      rw [List.length_map] at longer
      rw [Draft.addStruct, List.map_append, List.map_singleton]
      apply longer
    · intro s hs
      rcases List.mem_append.mp hs with hs | hs
      · apply h.structs s hs
      · rw [List.mem_singleton.mp hs]
        apply DraftStruct.intact_nil name
  | setStruct hs named intact =>
    refine ⟨?_, ?_, h.listIds⟩
    · rw [Draft.setStruct, map_set_of_eq hs named]
      apply h.structIds
    · intro s hs
      rcases List.mem_or_eq_of_mem_set hs with hs | rfl
      · apply h.structs s hs
      · apply intact
  | addList free => exact ⟨h.structIds, h.structs, h.listIds.concat free⟩

/-- One step keeps what a draft has. -/
theorem Step.keeps (step : d.Step d') :
  d.Keeps d'
  := by
  cases step with
  | addStruct free =>
    refine ⟨?_, List.prefix_rfl⟩
    rw [Draft.addStruct, List.map_append]
    apply List.prefix_append
  | setStruct hs named intact =>
    have names := map_set_of_eq hs named
    exact ⟨⟨[], (List.append_nil _).trans names.symm⟩, List.prefix_rfl⟩
  | addList free => exact ⟨List.prefix_rfl, List.prefix_append _ _⟩

/-- What a draft can become. -/
def Steps : Draft → Draft → Prop :=
  Relation.ReflTransGen Step

/-- Any number of steps keeps a draft intact. -/
theorem Intact.steps (h : d.Intact) (steps : d.Steps d') :
  d'.Intact
  := by
  induction steps with
  | refl => apply h
  | tail _ step ih => apply ih.step step

/-- Any number of steps keeps what a draft has. -/
theorem Steps.keeps (steps : d.Steps d') :
  d.Keeps d'
  := by
  induction steps with
  | refl => exact .refl d
  | tail _ step ih => apply ih.trans step.keeps

end Draft

end PoolGraph
