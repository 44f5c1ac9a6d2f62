import PoolGraph.Proofs.Binding.Files
import PoolGraph.Proofs.Binding.Verdict
import PoolGraph.Proofs.Compile.Faultless

/-!
# Which data files can be encoded

A data file can be encoded exactly when its root is typed (`Expr.Typed`) and every struct literal
has an argument for each field that refers to an object; else the first omission in the order of the
binary form is reported (`exists_encodeData_iff`).
-/

namespace PoolGraph

open Binding

/-- The failure for want of a reference. -/
def refusal (omission : String × String) : CodecError :=
  .nullReference omission.1 omission.2

section

variable {r : Region} {s : StructSchema} {l : Literal}

/-- A field of a literal is refused when it refers to an object and has no argument. -/
theorem error?_encode_field {field : Field} {shape : Shape} {value : Value}
    (unfolds : r.schema.Unfolds field.type shape) (typed : r.HasType value field.type)
    (given : l.Gives field → value.Writable) (rest : ¬ l.Gives field → value = .zero field.type)
    (struct : String) :
  Except.error? (shape.encode r.size struct field.name value)
    = if field.type.isStruct && !decide (l.Gives field) then some (refusal (struct, field.name))
      else none
  := by
  by_cases here : l.Gives field
  · rw [decide_eq_true here, Bool.not_true, Bool.and_false, if_neg Bool.false_ne_true]
    apply Except.error?_eq_none.mpr
    apply typed.exists_encode unfolds (given here)
  · obtain rfl := rest here
    rw [decide_eq_false here, Bool.not_false, Bool.and_true]
    cases reference : field.type.isStruct with
    | false =>
      apply Except.error?_eq_none.mpr
      apply typed.exists_encode unfolds (Value.writable_zero reference)
    | true =>
      generalize field.type = type at *
      cases unfolds <;> first | rfl | cases reference

theorem error?_encode_fields {fields : List Field} {shapes : List (String × Shape)}
    {object : Object}
    (entries : List.Forall₂ (fun (field : Field) (p : String × Shape) =>
      p.1 = field.name ∧ r.schema.Unfolds field.type p.2) fields shapes)
    (typed : r.ObjectHasType object fields)
    (values : List.Forall₂ (fun (field : Field) value =>
      (l.Gives field → value.Writable) ∧ (¬ l.Gives field → value = .zero field.type)) fields object)
    (struct : String) :
  List.Forall₂ (fun p (field : Field) => Except.error? (p.1.2.encode r.size struct p.1.1 p.2)
    = if field.type.isStruct && !decide (l.Gives field) then some (refusal (struct, field.name))
      else none) (shapes.zip object) fields
  := by
  induction entries generalizing object with
  | nil => exact .nil
  | cons entry _ ih =>
    cases values with
    | cons first others =>
      obtain ⟨fits, typed⟩ := List.forall₂_cons.mp typed
      refine .cons ?_ (ih typed others)
      rw [entry.1]
      apply error?_encode_field entry.2 fits first.1 first.2

/-- The first refusal of an object of a literal is its first omission. -/
theorem error?_encode_object {layout : StructLayout} {object : Object} (hname : layout.name = s.name)
    (entries : List.Forall₂ (fun (field : Field) (p : String × Shape) =>
      p.1 = field.name ∧ r.schema.Unfolds field.type p.2) s.fields layout.fields)
    (typed : r.ObjectHasType object s.fields)
    (values : List.Forall₂ (fun (field : Field) value =>
      (l.Gives field → value.Writable) ∧ (¬ l.Gives field → value = .zero field.type))
      s.fields object) :
  Except.error? (layout.encode r.size object)
    = ((l.omitted s).map fun field => (s.name, field.name)).head?.map refusal
  := by
  have fields := error?_encode_fields entries typed values s.name
  rw [StructLayout.error?_encode, hname, findSome?_eq_of_forall₂ fields fun _ _ same => same,
    ← List.head?_map, List.map_map, Literal.omitted, head?_map_filter]
  rfl

end

section

variable {schema : RegionSchema} {objects : List Added} {found : List Literal}

theorem pools_extend_empty {id : Nat} {s : StructSchema} (hs : schema.structs[id]? = some s) :
  ((Region.empty schema).extend objects).pools[id]? = some (Pool.ofList (Added.of id objects))
  := by
  obtain ⟨inside, -⟩ := List.getElem?_eq_some_iff.mp hs
  rw [Region.pools_extend, Region.empty, List.getElem?_replicate, if_pos inside]
  rfl

/-- The objects of literals hold values of their types. -/
theorem objectHasType_of_sound (sound : ((Region.empty schema).extend objects).Sound schema)
    {a : Added} (ha : a ∈ objects) {s : StructSchema} (hs : schema.structs[a.struct]? = some s) :
  ((Region.empty schema).extend objects).ObjectHasType a.object s.fields
  := by
  have member : a.object ∈ Added.of a.struct objects :=
    List.mem_map_of_mem (List.mem_filter.mpr ⟨ha, decide_eq_true rfl⟩)
  obtain ⟨index, hindex⟩ := List.mem_iff_getElem?.mp member
  have hobject : ((Region.empty schema).extend objects).object ⟨a.struct, index⟩ = .ok a.object := by
    apply Region.object_eq_ok.mpr
    refine ⟨_, pools_extend_empty hs, ?_⟩
    rw [Pool.get?, Pool.ofList, List.getElem?_toArray]
    apply hindex
  obtain ⟨s', hs', typed⟩ := sound.typed _ _ hobject
  rw [Region.schema_extend] at hs'
  obtain rfl := Option.some.inj (hs.symm.trans hs')
  apply typed

/-- The pools of a region of literals beside the structs and their layouts. -/
theorem layouts_of_extend {layout : List StructLayout} (hlayout : schema.layout = .ok layout) :
  List.Forall₂ (fun (p : StructLayout × Pool Object) (q : StructSchema × Nat) =>
    schema.structs[q.2]? = some q.1 ∧ p.2.toList = Added.of q.2 objects ∧ p.1.name = q.1.name
      ∧ List.Forall₂ (fun (field : Field) (p : String × Shape) =>
        p.1 = field.name ∧ schema.Unfolds field.type p.2) q.1.fields p.1.fields)
    (layout.zip ((Region.empty schema).extend objects).pools) schema.structs.zipIdx
  := by
  have entries := Region.entries_of_layout hlayout
  have pools : ((Region.empty schema).extend objects).pools.length = schema.structs.length := by
    rw [Region.length_pools_extend, Region.empty, List.length_replicate]
  apply List.forall₂_iff_get.mpr
  refine ⟨?_, fun i inside inside' => ?_⟩
  · rw [List.length_zip, pools, ← entries.length_eq, Nat.min_self, List.length_zipIdx]
  rw [List.length_zipIdx] at inside'
  have hs := List.getElem?_eq_getElem inside'
  have hpool : ((Region.empty schema).extend objects).pools[i]?
      = some (Pool.ofList (Added.of i objects)) := pools_extend_empty hs
  obtain ⟨inPools, hpool⟩ := List.getElem?_eq_some_iff.mp hpool
  have entry := entries.get inside' (entries.length_eq ▸ inside')
  simp only [List.get_eq_getElem, List.getElem_zip, List.getElem_zipIdx, Nat.zero_add] at entry ⊢
  constructor
  · apply hs
  constructor
  · rw [hpool, Pool.toList_ofList]
  · apply entry

/-- The first refusal of a region of literals is their first omission. -/
theorem error?_encode_literals (sound : ((Region.empty schema).extend objects).Sound schema)
    (built : List.Forall₂ (Built schema) objects found)
    (countable : ∀ id, (found.filter fun l => l.struct = id).length ≤ maxCount)
    {layout : List StructLayout} (hlayout : schema.layout = .ok layout) :
  Except.error? (encodePools layout ((Region.empty schema).extend objects).pools)
    = (omissions schema found).head?.map refusal
  := by
  have each : ∀ id, List.Forall₂ (fun a l => (a ∈ objects ∧ a.struct = id) ∧ Built schema a l)
      (objects.filter fun a => a.struct = id) (found.filter fun l => l.struct = id) := by
    intro id
    refine (List.forall₂_and_left _ _).mpr ⟨fun a ha => ?_, List.rel_filter ?_ built⟩
    · apply (List.mem_filter.mp ha).imp_right of_decide_eq_true
    · intro a l h
      show decide (a.struct = id) = true ↔ decide (l.struct = id) = true
      rw [h.struct_eq]
  have sizes : ∀ pool ∈ ((Region.empty schema).extend objects).pools, pool.size ≤ maxCount := by
    intro pool hpool
    obtain ⟨id, hid⟩ := List.mem_iff_getElem?.mp hpool
    obtain ⟨inside, -⟩ := List.getElem?_eq_some_iff.mp hid
    rw [Region.length_pools_extend, Region.empty, List.length_replicate] at inside
    rw [pools_extend_empty (List.getElem?_eq_getElem inside)] at hid
    obtain rfl := Option.some.inj hid
    rw [Pool.size_ofList, Added.of, List.length_map, (each id).length_eq]
    apply countable
  have same : ((Region.empty schema).extend objects).schema = schema := Region.schema_extend ..
  rw [error?_encodePools sizes, Region.sizeIn_sizes, omissions, List.head?_flatMap,
    List.map_findSome?]
  apply findSome?_eq_of_forall₂ (layouts_of_extend hlayout)
  rintro ⟨l, pool⟩ ⟨s, id⟩ ⟨hs, hpool, hname, entries⟩
  dsimp only at hpool hs hname entries ⊢
  rw [hpool, Function.comp_apply, List.head?_flatMap, List.map_findSome?, Added.of,
    List.findSome?_map]
  apply findSome?_eq_of_forall₂ (each id)
  rintro a literal ⟨⟨ha, rfl⟩, built⟩
  obtain ⟨s', hs', values⟩ := built.values
  rw [← built.struct_eq, hs] at hs'
  obtain rfl := Option.some.inj hs'
  rw [← same] at entries
  apply error?_encode_object hname entries (objectHasType_of_sound sound ha hs) values

end

/-! ### Files -/

/-- Whether strings, lists and pools of a file are small enough to be written. -/
def Expr.WithinCounts (schema : RegionSchema) (e : Expr) : Prop :=
  e.Countable
    ∧ ∀ id, ((e.rootLiterals schema).filter fun l => l.struct = id).length ≤ maxCount

section

variable {schema : RegionSchema} (wf : schema.WellFormed) (distinct : schema.Distinct)
  {source : Source} {e : Expr} (hparse : Expr.parse 0 source = .ok e)

include wf distinct hparse

/-- A typed file is bound, and its objects are those of its literals. -/
theorem parseFile_of_typed (countable : e.Countable) (typed : e.Typed schema) :
  ∃ value objects,
    parseFile source (Region.empty schema) = .ok (.ok value, (Region.empty schema).extend objects)
    ∧ ((Region.empty schema).extend objects).Sound schema
    ∧ List.Forall₂ (Built schema) objects (e.rootLiterals schema)
  := by
  obtain ⟨type, own, typed⟩ := typed
  obtain ⟨value, objects, hout, -, built⟩ := bound_of_ofType distinct typed countable
    (.inr ⟨rfl, own⟩) (Region.empty schema).size
  obtain ⟨result, added, r, hfile, hrun, rfl, sound, -⟩ := parseFile_run
    (Region.models wf distinct) wf source (Region.sound_empty schema)
  rw [fileOutcome, hparse] at hfile
  obtain ⟨o, ho, hfile⟩ := Except.bind_eq_ok.mp hfile
  obtain rfl := Except.ok.inj (hout.symm.trans ho)
  obtain ⟨rfl, rfl⟩ := Prod.mk.inj (Except.ok.inj hfile)
  use value, objects, hrun, sound
  rw [Expr.rootLiterals, own, Option.elim_some]
  apply built

/-- What is bound is typed. -/
theorem typed_of_parseFile {value : Value} {r : Region}
    (h : parseFile source (Region.empty schema) = .ok (.ok value, r)) :
  e.Typed schema
  := by
  obtain ⟨result, added, r', hfile, hrun, -⟩ := parseFile_run (Region.models wf distinct) wf source
    (Region.sound_empty schema)
  obtain ⟨rfl, rfl⟩ := Prod.mk.inj (Except.ok.inj (h.symm.trans hrun))
  rw [fileOutcome, hparse] at hfile
  obtain ⟨o, ho, hfile⟩ := Except.bind_eq_ok.mp hfile
  obtain ⟨hresult, -⟩ := Prod.mk.inj (Except.ok.inj hfile)
  obtain ⟨some, -⟩ := Outcome.verdict_eq_ok.mp (Except.mapError_eq_ok.mp hresult)
  obtain ⟨type, hinfer, typed⟩ := ofType_of_outcome distinct (Expr.wellFormed_of_parse hparse).1 ho
    (Option.isSome_of_eq_some some)
  exact ⟨type, suits_none_iff.mp (inferType_eq_ok_ok.mp hinfer).1, typed⟩

/-- A typed file is refused with its first omission, or encoded when nothing is omitted. -/
theorem encodeData_of_typed (countable : e.WithinCounts schema) (typed : e.Typed schema) :
  ∃ result, (encodeData schema source).run = .ok (result.mapError .codec)
    ∧ Except.error? result = (omissions schema (e.rootLiterals schema)).head?.map refusal
  := by
  obtain ⟨value, objects, hrun, sound, built⟩ := parseFile_of_typed wf distinct hparse countable.1
    typed
  obtain ⟨layout, hlayout⟩ := wf.layout
  have hbytes : ((Region.empty schema).extend objects).serialize
      = .ok (encodePools layout ((Region.empty schema).extend objects).pools) := by
    apply sound.regular.serialize_eq
    rw [Region.schema_extend]
    apply hlayout
  refine ⟨_, ?_, error?_encode_literals sound built countable.2 hlayout⟩
  rw [encodeData, Compile.run_bind_of_eq_ok (Compile.lift_eq_ok.mpr hrun),
    Compile.run_bind_of_eq_ok (Compile.ofExcept_eq_ok.mpr rfl),
    Compile.run_bind_of_eq_ok (Compile.lift_eq_ok.mpr hbytes)]
  rfl

end

theorem complete_iff_head? {schema : RegionSchema} {found : List Literal} :
  (∀ l ∈ found, l.Complete schema) ↔ (omissions schema found).head? = none
  := by
  rw [List.head?_eq_none_iff, omissions_eq_nil_iff]

/-- With a schema that a file declares, a data file can be encoded exactly when its root is typed and
every struct literal has an argument for each field that refers to an object.  A file that is bound
but omits some is refused with the omission that comes first in the binary form.  So no file with a
literal of a struct that needs objects of its own kind without end is ever encoded. -/
theorem encodeData_iff {schemaFile source : Source} {schemas : List RegionSchema}
    {schema : RegionSchema} {e : Expr}
    (hschemas : (compileSchemas schemaFile).run = .ok (.ok schemas)) (member : schema ∈ schemas)
    (hparse : Expr.parse 0 source = .ok e) (countable : e.WithinCounts schema) :
  ((∃ b, (encodeData schema source).run = .ok (.ok b))
      ↔ e.Typed schema ∧ ∀ l ∈ e.rootLiterals schema, l.Complete schema)
    ∧ (∀ value r, parseFile source (Region.empty schema) = .ok (.ok value, r) →
      ¬ (∀ l ∈ e.rootLiterals schema, l.Complete schema) →
      ∃ s f, (omissions schema (e.rootLiterals schema)).head? = some (s, f)
        ∧ (encodeData schema source).run = .ok (.error (.codec (.nullReference s f))))
    ∧ ((∃ l ∈ e.rootLiterals schema, schema.Endless l.struct)
        ∨ (∃ name brace arguments id, Expr.Inside (.struct (some name) brace arguments) e
          ∧ schema.structIndex? name.text = some id ∧ schema.Endless id) →
      ∀ b, (encodeData schema source).run ≠ .ok (.ok b))
  := by
  obtain ⟨wf, distinct⟩ := usable_of_compileSchemas hschemas schema member
  have forward : ∀ b, (encodeData schema source).run = .ok (.ok b) →
      e.Typed schema ∧ ∀ l ∈ e.rootLiterals schema, l.Complete schema := by
    intro b hb
    obtain ⟨value, r, hbind, -⟩ := encodeData_eq_ok.mp hb
    have typed := typed_of_parseFile wf distinct hparse hbind
    obtain ⟨result, hrun, first⟩ := encodeData_of_typed wf distinct hparse countable typed
    have written : Except.error? result = none := Except.error?_eq_none.mpr
      ⟨b, Except.mapError_eq_ok.mp (Except.ok.inj (hrun.symm.trans hb))⟩
    rw [first, Option.map_eq_none_iff] at written
    constructor
    · apply typed
    · apply complete_iff_head?.mpr written
  constructor
  · refine ⟨fun ⟨b, hb⟩ => forward b hb, ?_⟩
    rintro ⟨typed, complete⟩
    obtain ⟨result, hrun, first⟩ := encodeData_of_typed wf distinct hparse countable typed
    rw [complete_iff_head?.mp complete] at first
    obtain ⟨b, rfl⟩ := Except.error?_eq_none.mp first
    use b, hrun
  constructor
  · intro value r hbind incomplete
    have typed := typed_of_parseFile wf distinct hparse hbind
    obtain ⟨result, hrun, first⟩ := encodeData_of_typed wf distinct hparse countable typed
    rw [complete_iff_head?, ← ne_eq, Option.ne_none_iff_exists'] at incomplete
    obtain ⟨⟨s, f⟩, hhead⟩ := incomplete
    rw [hhead] at first
    obtain rfl := Except.error?_eq_some.mp first
    use s, f, hhead, hrun
  · intro endless b hb
    obtain ⟨⟨type, own, typed⟩, complete⟩ := forward b hb
    rw [Expr.rootLiterals, own, Option.elim_some] at complete endless
    have ends := acc_of_complete distinct typed complete
    rcases endless with ⟨l, hl, endless⟩ | ⟨name, brace, arguments, id, inside, hid, endless⟩
    · apply not_endless_of_acc (ends l hl) endless
    · obtain ⟨l, hl, -, named⟩ := typed.exists_literal_of_inside distinct inside
      obtain rfl := Option.some.inj (hid.symm.trans (named name rfl))
      apply not_endless_of_acc (ends l hl) endless

/-- The schema of links that each need another one. -/
def links : RegionSchema :=
  ⟨"R", [⟨"Link", [⟨"next", .struct 0⟩]⟩], []⟩

/-- A schema file that declares it. -/
def linksFile : Source :=
  ⟨"s", (String.ofList
    ("Schemas\x7bregion:[Region\x7bname:\"R\",struct:[Struct\x7bname:\"Link\",".toList
      ++ "fields:[Field\x7bname:\"next\",type:\"Link\"\x7d]\x7d]\x7d]\x7d".toList)).toByteArray⟩

theorem compileSchemas_linksFile :
  (compileSchemas linksFile).run = .ok (.ok [links])
  := by
  have compiled : compiled? (compileSchemas linksFile).run = some [links] := by
    unfold compileSchemas parseSchema parseFile
    rw [Expr.parse_of_text String.toByteArray_ofList]
    decide +kernel
  apply eq_of_compiled? compiled

/-- A file with a link alone. -/
def linkFile : Source :=
  ⟨"d", (String.ofList ['L', 'i', 'n', 'k', '{', '}']).toByteArray⟩

/-- The tree of that file. -/
def linkTree : Expr :=
  .struct (some (Grammar.tokenOf 0 0 ['L', 'i', 'n', 'k'])) (Grammar.spanOf 0 4 ['{']) []

theorem parse_linkFile :
  Expr.parse 0 linkFile = .ok linkTree
  := by
  rw [linkFile, Expr.parse_of_text String.toByteArray_ofList]
  rfl

theorem parseFile_linkFile :
  parseFile linkFile (Region.empty links)
    = .ok (.ok (.ref ⟨0, 0⟩), ⟨links, [.ofList [[.null]]]⟩)
  := by
  rw [parseFile, parse_linkFile]
  rfl

/-- A schema file that declares pairs of cells. -/
def pairsFile : Source :=
  ⟨"s", (String.ofList
    ("Schemas\x7bregion:[Region\x7bname:\"Pairs\",struct:[Struct\x7bname:\"Pair\",".toList
      ++ "fields:[Field\x7bname:\"rest\",type:\"[]Cell\"\x7d,Field\x7bname:\"first\",".toList
      ++ "type:\"Cell\"\x7d]\x7d,Struct\x7bname:\"Cell\",fields:[Field\x7bname:\"byte\",".toList
      ++ "type:\"uint8\"\x7d]\x7d]\x7d]\x7d".toList)).toByteArray⟩

theorem compileSchemas_pairsFile :
  (compileSchemas pairsFile).run = .ok (.ok [pairs])
  := by
  have compiled : compiled? (compileSchemas pairsFile).run = some [pairs] := by
    unfold compileSchemas parseSchema parseFile
    rw [Expr.parse_of_text String.toByteArray_ofList]
    decide +kernel
  apply eq_of_compiled? compiled

theorem encodeData_pairFile :
  (encodeData pairs (pairFile ['2', '5', '5'])).run
    = .ok (.ok [1, 0, 0, 0, 2, 0, 0, 0, 1, 0, 0, 0, 0, 1, 7, 255])
  := by
  unfold encodeData parseFile
  rw [parse_pairFile (List.cons_ne_nil _ _) (List.all_eq_true.mp rfl)]
  rfl

/-- The trees of pairs have few literals, each with its references. -/
theorem complete_pairTree (digits : List Char) :
  (pairTree digits).WithinCounts pairs
    ∧ ∀ l ∈ (pairTree digits).rootLiterals pairs, l.Complete pairs
  := by
  have number (raw : Token) : (Expr.integer raw).Countable := .integer raw
  constructor
  · constructor
    · apply Expr.Countable.struct
      rw [List.forall_mem_cons, List.forall_mem_singleton]
      constructor
      · apply Expr.Countable.list (by decide)
        rw [List.forall_mem_singleton]
        apply Expr.Countable.struct (List.forall_mem_singleton.mpr (number _))
      · apply Expr.Countable.struct (List.forall_mem_singleton.mpr (number _))
    · intro id
      apply (List.length_filter_le _ _).trans
      have three : 3 ≤ maxCount := by decide
      apply three
  · apply complete_iff_head?.mpr
    rfl

/-- A pair is written if its numerals are those of bytes, and never if one is past the largest byte.
A link without the next one is bound, but never written. -/
theorem encodeData_iff_pairFile_linkFile :
  (encodeData pairs (pairFile ['2', '5', '5'])).run
      = .ok (.ok [1, 0, 0, 0, 2, 0, 0, 0, 1, 0, 0, 0, 0, 1, 7, 255])
    ∧ (pairTree ['2', '5', '5']).Typed pairs
    ∧ (∀ b, (encodeData pairs (pairFile ['2', '5', '6'])).run ≠ .ok (.ok b))
    ∧ (encodeData links linkFile).run = .ok (.error (.codec (.nullReference "Link" "next")))
    ∧ ∀ b, (encodeData links linkFile).run ≠ .ok (.ok b)
  := by
  have past : Text.Decimal (String.ofList ['2', '5', '6']) 256 :=
    Text.digitsValue?_eq_some_iff.mp rfl
  have verdict digits (nonempty : digits ≠ []) (all : digits.all isDigit = true) :=
    encodeData_iff compileSchemas_pairsFile (List.mem_singleton_self _)
      (parse_pairFile nonempty (List.all_eq_true.mp all)) (complete_pairTree digits).1
  use encodeData_pairFile
  constructor
  · obtain ⟨written, -, -⟩ := verdict ['2', '5', '5'] (List.cons_ne_nil _ _) rfl
    apply (written.mp ⟨_, encodeData_pairFile⟩).1
  constructor
  · intro b hb
    obtain ⟨written, -, -⟩ := verdict ['2', '5', '6'] (List.cons_ne_nil _ _) rfl
    have small := (typed_pairTree_iff past).mp (written.mp ⟨b, hb⟩).1
    omega
  have found : linkTree.rootLiterals links = [⟨0, []⟩] := rfl
  have omitted : omissions links [⟨0, []⟩] = [("Link", "next")] := rfl
  have requires : links.Requires 0 0 := ⟨_, rfl, ⟨"next", .struct 0⟩, .head _, rfl⟩
  have countable : linkTree.WithinCounts links := by
    constructor
    · apply Expr.Countable.struct (List.forall_mem_nil _)
    · intro id
      rw [found]
      apply (List.length_filter_le _ _).trans
      decide
  obtain ⟨-, refused, never⟩ := encodeData_iff compileSchemas_linksFile
    (List.mem_singleton_self _) parse_linkFile countable
  rw [found] at refused never
  constructor
  · have incomplete : ¬ ∀ l ∈ [Literal.mk 0 []], l.Complete links := by
      rw [complete_iff_head?, omitted]
      nofun
    obtain ⟨s, f, first, refused⟩ := refused _ _ parseFile_linkFile incomplete
    rw [omitted] at first
    obtain ⟨rfl, rfl⟩ := Prod.mk.inj (Option.some.inj first)
    apply refused
  · apply never
    left
    use ⟨0, []⟩, List.mem_singleton_self _, 0, .refl
    apply Relation.TransGen.single requires

end PoolGraph
