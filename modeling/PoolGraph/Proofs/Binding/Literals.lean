import Mathlib.Logic.Relation
import PoolGraph.Proofs.Binding.Numerals
import PoolGraph.Proofs.Region.Writing
import PoolGraph.Proofs.Schema.Names

/-!
# Typed trees and their struct literals

`Expr.OfType` types a whole tree, apart from the binder: every name is that of a struct or a field,
every nested value is of the type of its slot, and the number that a decimal numeral spells is in
the range of its slot.  `literals` lists the struct literals of a typed
tree with their structs, in the order in which their objects are allocated, and `omissions` the
references that they leave out, in the order in which the binary form has them.
A tree is finite, so literals that leave no reference out are never of a struct that needs another
object of its own kind (`acc_of_complete`).
-/

namespace PoolGraph

/-- Whether a tree is of a type: literals are of the type of their slot, a struct literal names
fields of its struct, each at most once, and every nested value is of the type of its slot. -/
inductive Expr.OfType (schema : RegionSchema) : Expr → FieldType → Prop where
  | string (raw : Token) (value : String) : OfType schema (.string raw value) .string
  | bool (span : Span) (value : Bool) : OfType schema (.bool span value) .bool
  | integer {raw : Token} {n : Nat} {type : FieldType} (decimal : Text.Decimal raw.text n)
      (range : type.Covers n) : OfType schema (.integer raw) type
  | struct {type? : Option Token} {brace : Span} {arguments : List (Token × Expr)} {id : Nat}
      {s : StructSchema} (found : schema.structs[id]? = some s)
      (named : ∀ type, type? = some type → type.text = s.name)
      (distinct : (arguments.map fun argument => argument.1.text).Nodup)
      (known : ∀ argument ∈ arguments, argument.1.text ∈ s.fields.map Field.name)
      (values : ∀ argument ∈ arguments, ∀ field ∈ s.fields, field.name = argument.1.text →
        OfType schema argument.2 field.type) :
      OfType schema (.struct type? brace arguments) (.struct id)
  | list {bracket : Span} {items : List Expr} {id : Nat} {item : FieldType}
      (found : schema.lists[id]? = some item) (all : ∀ e ∈ items, OfType schema e item) :
      OfType schema (.list bracket items) (.list id)

/-- The type that a tree has without a slot: untyped structs and lists have none. -/
def Expr.ownType? (schema : RegionSchema) : Expr → Option FieldType
  | .string _ _ => some .string
  | .bool _ _ => some .bool
  | .integer _ => some .int64
  | .struct (some name) _ _ => (schema.structIndex? name.text).map .struct
  | .struct none _ _ => none
  | .list _ _ => none

/-- Whether the root of a tree names its own type and the tree is of that type. -/
def Expr.Typed (schema : RegionSchema) (e : Expr) : Prop :=
  ∃ type, e.ownType? schema = some type ∧ e.OfType schema type

/-! ### Struct literals -/

/-- A struct literal with the struct that it is of. -/
structure Literal where
  struct : Nat
  arguments : List (Token × Expr)

mutual

/-- The struct literals of a tree of the given type, each before those inside it. -/
def literals (schema : RegionSchema) : FieldType → Expr → List Literal
  | .struct id, .struct _ _ arguments =>
    ⟨id, arguments⟩ :: (schema.structs[id]?.elim [] fun s => argumentLiterals schema s arguments)
  | .list id, .list _ items =>
    schema.lists[id]?.elim [] fun item => itemLiterals schema item items
  | _, _ => []

/-- The struct literals of the arguments of a struct. -/
def argumentLiterals (schema : RegionSchema) (s : StructSchema) :
    List (Token × Expr) → List Literal
  | [] => []
  | (name, value) :: rest =>
    ((s.field? name.text).elim [] fun field => literals schema field.2.type value)
      ++ argumentLiterals schema s rest

/-- The struct literals of the items of a list. -/
def itemLiterals (schema : RegionSchema) (item : FieldType) : List Expr → List Literal
  | [] => []
  | e :: rest => literals schema item e ++ itemLiterals schema item rest

end

/-- The struct literals of a whole file. -/
def Expr.rootLiterals (schema : RegionSchema) (e : Expr) : List Literal :=
  (e.ownType? schema).elim [] fun type => literals schema type e

section

variable {schema : RegionSchema} {s : StructSchema} {l : Literal}

theorem literals_integer (type : FieldType) (raw : Token) :
  literals schema type (.integer raw) = []
  := by
  cases type <;> rfl

/-- A struct literal comes before those in its arguments. -/
theorem literals_struct {id : Nat} (hs : schema.structs[id]? = some s) (type? : Option Token)
    (brace : Span) (arguments : List (Token × Expr)) :
  literals schema (.struct id) (.struct type? brace arguments)
    = ⟨id, arguments⟩ :: argumentLiterals schema s arguments
  := by
  rw [literals, hs, Option.elim_some]

/-- The literals of a list are those of its items. -/
theorem literals_list {id : Nat} {item : FieldType} (hitem : schema.lists[id]? = some item)
    (bracket : Span) (items : List Expr) :
  literals schema (.list id) (.list bracket items) = itemLiterals schema item items
  := by
  rw [literals, hitem, Option.elim_some]

/-- A literal of arguments is one of the value given for a field. -/
theorem mem_argumentLiterals_iff {arguments : List (Token × Expr)} :
  l ∈ argumentLiterals schema s arguments
    ↔ ∃ argument ∈ arguments, ∃ slot, s.field? argument.1.text = some slot
      ∧ l ∈ literals schema slot.2.type argument.2
  := by
  induction arguments with
  | nil => simp [argumentLiterals]
  | cons argument rest ih =>
    rw [argumentLiterals, List.mem_append, ih, List.exists_mem_cons_iff]
    apply or_congr_left
    cases s.field? argument.1.text with
    | none => simp
    | some slot => simp

/-- A literal of items is one of an item. -/
theorem mem_itemLiterals_iff {item : FieldType} {items : List Expr} :
  l ∈ itemLiterals schema item items ↔ ∃ e ∈ items, l ∈ literals schema item e
  := by
  induction items with
  | nil => simp [itemLiterals]
  | cons e rest ih => rw [itemLiterals, List.mem_append, ih, List.exists_mem_cons_iff]

end

/-! ### Literals inside a tree -/

/-- Whether a tree is a part of another one. -/
inductive Expr.Inside (e : Expr) : Expr → Prop where
  | self : Inside e e
  | argument {type? : Option Token} {brace : Span} {arguments : List (Token × Expr)}
      {argument : Token × Expr} (h : argument ∈ arguments) (inside : Inside e argument.2) :
      Inside e (.struct type? brace arguments)
  | item {bracket : Span} {items : List Expr} {item : Expr} (h : item ∈ items)
      (inside : Inside e item) : Inside e (.list bracket items)

/-- Every struct literal inside a typed tree is listed, with the struct that it names if it does. -/
theorem Expr.OfType.exists_literal_of_inside {schema : RegionSchema} (distinct : schema.Distinct)
    {e : Expr} {type : FieldType} (typed : e.OfType schema type) {type? : Option Token}
    {brace : Span} {arguments : List (Token × Expr)}
    (inside : Expr.Inside (.struct type? brace arguments) e) :
  ∃ l ∈ literals schema type e, l.arguments = arguments
    ∧ ∀ name, type? = some name → schema.structIndex? name.text = some l.struct
  := by
  induction typed with
  | string => cases inside
  | bool => cases inside
  | integer => cases inside
  | @struct type? brace arguments' id s found named names known values ih =>
    rw [literals_struct found]
    cases inside with
    | self =>
      use { struct := id, arguments := arguments }, .head _, rfl
      intro name hname
      exact distinct.structIndex?_eq_some_iff.mpr ⟨s, found, (named name hname).symm⟩
    | @argument _ _ _ argument hargument inside =>
      obtain ⟨field, hfield, same⟩ := List.mem_map.mp (known argument hargument)
      obtain ⟨number, hnumber⟩ := List.mem_iff_getElem?.mp hfield
      have hslot := (distinct.field?_eq_some_iff found).mpr ⟨hnumber, same⟩
      obtain ⟨l, hl, which⟩ := ih argument hargument field hfield same inside
      use l
      constructor
      · refine .tail _ (mem_argumentLiterals_iff.mpr ?_)
        use argument, hargument, (number, field), hslot, hl
      · apply which
  | list found _ ih =>
    rw [literals_list found]
    cases inside with
    | item hitem inside =>
      obtain ⟨l, hl, which⟩ := ih _ hitem inside
      use l
      constructor
      · apply mem_itemLiterals_iff.mpr ⟨_, hitem, hl⟩
      · apply which

/-! ### Omissions -/

namespace Literal

/-- Whether a literal has an argument for a field. -/
def Gives (l : Literal) (field : Field) : Prop :=
  ∃ argument ∈ l.arguments, argument.1.text = field.name

instance (l : Literal) (field : Field) : Decidable (l.Gives field) :=
  inferInstanceAs (Decidable (∃ argument ∈ l.arguments, argument.1.text = field.name))

/-- Whether a literal has an argument for every field that refers to an object. -/
def Complete (schema : RegionSchema) (l : Literal) : Prop :=
  ∀ s, schema.structs[l.struct]? = some s →
    ∀ field ∈ s.fields, field.type.isStruct = true → l.Gives field

/-- The fields that refer to an object and have no argument. -/
def omitted (l : Literal) (s : StructSchema) : List Field :=
  s.fields.filter fun field => field.type.isStruct && !decide (l.Gives field)

/-- A literal omits nothing if it gives every field that holds a struct. -/
theorem omitted_eq_nil_iff {l : Literal} {s : StructSchema} :
  l.omitted s = [] ↔ ∀ field ∈ s.fields, field.type.isStruct = true → l.Gives field
  := by
  rw [omitted, List.filter_eq_nil_iff]
  simp

end Literal

/-- The references that literals leave out, each as its struct and its field, in the order of the
binary form: by structs, among those of one struct by literals, and by fields. -/
def omissions (schema : RegionSchema) (found : List Literal) : List (String × String) :=
  schema.structs.zipIdx.flatMap fun (s, id) =>
    (found.filter fun l => l.struct = id).flatMap fun l =>
      (l.omitted s).map fun field => (s.name, field.name)

/-- Nothing is omitted if every literal is complete. -/
theorem omissions_eq_nil_iff {schema : RegionSchema} {found : List Literal} :
  omissions schema found = [] ↔ ∀ l ∈ found, l.Complete schema
  := by
  simp only [omissions, List.flatMap_eq_nil_iff, List.map_eq_nil_iff, Literal.omitted_eq_nil_iff,
    List.mem_filter, decide_eq_true_iff, Prod.forall, List.mem_zipIdx_iff_getElem?, and_imp]
  constructor
  · intro h l hl s hs
    apply h s l.struct hs l hl rfl
  · rintro h s id hs l hl rfl
    apply h l hl s hs

/-! ### Literals that need objects of their own kind -/

/-- Whether every object of one struct refers to one of another. -/
def RegionSchema.Requires (schema : RegionSchema) (a b : Nat) : Prop :=
  ∃ s, schema.structs[a]? = some s ∧ ∃ field ∈ s.fields, field.type = .struct b

variable {schema : RegionSchema} {e : Expr} {type : FieldType}

/-- What is of the type of a struct is a literal of it. -/
theorem Expr.OfType.exists_literal {id : Nat} (typed : e.OfType schema (.struct id)) :
  ∃ l ∈ literals schema (.struct id) e, l.struct = id
  := by
  cases typed with
  | integer decimal range => cases range
  | struct found named distinct known values =>
    rw [literals_struct found]
    exact ⟨_, .head _, rfl⟩

/-- Where no literal leaves a reference out, each is of a struct from which requirements lead
nowhere forever. -/
theorem acc_of_complete (distinct : schema.Distinct) (typed : e.OfType schema type)
    (complete : ∀ l ∈ literals schema type e, l.Complete schema) :
  ∀ l ∈ literals schema type e, Acc (fun b a => schema.Requires a b) l.struct
  := by
  induction typed with
  | string => apply List.forall_mem_nil
  | bool => apply List.forall_mem_nil
  | integer =>
    rw [literals_integer]
    apply List.forall_mem_nil
  | @struct type? brace arguments id s found named names known values ih =>
    rw [literals_struct found] at complete ⊢
    obtain ⟨whole, inside⟩ := List.forall_mem_cons.mp complete
    have nested : ∀ argument ∈ arguments, ∀ slot, s.field? argument.1.text = some slot →
        ∀ l ∈ literals schema slot.2.type argument.2,
          Acc (fun b a => schema.Requires a b) l.struct := by
      intro argument hargument slot hslot
      obtain ⟨hfield, named⟩ := StructSchema.getElem?_of_field? hslot
      apply ih argument hargument slot.2 (List.mem_of_getElem? hfield) named
      intro l hl
      apply inside l (mem_argumentLiterals_iff.mpr ⟨argument, hargument, slot, hslot, hl⟩)
    refine List.forall_mem_cons.mpr ⟨⟨_, ?_⟩, ?_⟩
    · rintro b ⟨s', hs', field, hfield, reference⟩
      obtain rfl := Option.some.inj (found.symm.trans hs')
      obtain ⟨argument, hargument, named⟩ := whole s found field hfield (by
        rw [reference]
        rfl)
      obtain ⟨number, hnumber⟩ := List.mem_iff_getElem?.mp hfield
      have hslot := (distinct.field?_eq_some_iff found).mpr ⟨hnumber, named.symm⟩
      have typed := values argument hargument field hfield named.symm
      rw [reference] at typed
      obtain ⟨l, hl, rfl⟩ := typed.exists_literal
      apply nested argument hargument _ hslot l
      rw [reference]
      apply hl
    · intro l hl
      obtain ⟨argument, hargument, slot, hslot, hl⟩ := mem_argumentLiterals_iff.mp hl
      apply nested argument hargument slot hslot l hl
  | list found _ ih =>
    rw [literals_list found] at complete ⊢
    intro l hl
    obtain ⟨e, he, hl⟩ := mem_itemLiterals_iff.mp hl
    apply ih e he _ l hl
    intro l hl
    apply complete l (mem_itemLiterals_iff.mpr ⟨e, he, hl⟩)

/-- Whether objects of a struct lead, by references that they must have, to a struct that leads to
itself. -/
def RegionSchema.Endless (schema : RegionSchema) (id : Nat) : Prop :=
  ∃ other, Relation.ReflTransGen schema.Requires id other
    ∧ Relation.TransGen schema.Requires other other

/-- What needs objects of ever smaller kinds comes to an end. -/
theorem not_endless_of_acc {id : Nat} (h : Acc (fun b a => schema.Requires a b) id) :
  ¬ schema.Endless id
  := by
  rintro ⟨other, reaches, cycle⟩
  induction h with
  | intro id _ ih =>
    rcases Relation.ReflTransGen.cases_head reaches with rfl | ⟨next, step, reaches⟩
    · obtain ⟨next, step, back⟩ := Relation.TransGen.head'_iff.mp cycle
      apply ih next step back
    · apply ih next step reaches

end PoolGraph
