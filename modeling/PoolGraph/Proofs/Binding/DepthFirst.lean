import PoolGraph.Proofs.Binding.Files
import PoolGraph.Proofs.Binding.Once

/-!
# The order of new objects

Where each struct has one field at most that can refer to objects, binding adds the objects of a
value depth first: an object comes right before those that its references lead to, and these come in
the order of the references (`Binding.depthFirst`).  So the objects of a file that is bound into an
empty region stand in its pools in this order (`depthFirst_of_parseFile`).
-/

namespace PoolGraph

open Value

/-- Whether the objects that references lead to come depth first in the pools, from the first one
behind those that `size` counts on; those up to the last one are counted afterwards. -/
inductive Region.DepthFirst (r : Region) :
    (size : Nat → Nat) → List Instance → (after : Nat → Nat) → Prop where
  | nil {size : Nat → Nat} : DepthFirst r size [] size
  | cons {size inside after : Nat → Nat} {target : Instance} {object : Object}
      {rest : List Instance} (next : target.index = size target.struct)
      (found : r.object target = .ok object)
      (references :
        DepthFirst r (Added.sizes size [⟨target.struct, object⟩]) (itemReferences object) inside)
      (others : DepthFirst r inside rest after) :
      DepthFirst r size (target :: rest) after

theorem Region.DepthFirst.append {r : Region} {size inside after : Nat → Nat}
    {references others : List Instance} (h : r.DepthFirst size references inside)
    (h' : r.DepthFirst inside others after) :
  r.DepthFirst size (references ++ others) after
  := by
  induction h with
  | nil => apply h'
  | cons next found references _ _ ih => exact .cons next found references (ih h')

/-- Whether values of a type can refer to objects. -/
def FieldType.refers : FieldType → Bool
  | .struct _ => true
  | .list _ => true
  | _ => false

/-- Whether a struct has one field at most that can refer to objects. -/
def StructSchema.RefersByOne (s : StructSchema) : Prop :=
  ∀ i (_ : i < s.fields.length) j (_ : j < s.fields.length),
    s.fields[i].type.refers → s.fields[j].type.refers → i = j

/-- A value in place of one without references brings its own. -/
theorem exists_itemReferences_set {object : Object} {number : Nat} (inside : number < object.length)
    (unset : ∀ v, object[number]? = some v → v.references = []) (value : Value) :
  ∃ before after, itemReferences object = before ++ after
    ∧ itemReferences (object.set number value) = before ++ value.references ++ after
  := by
  induction object generalizing number with
  | nil => cases inside
  | cons first rest ih =>
    cases number with
    | zero =>
      use [], itemReferences rest
      constructor
      · rw [itemReferences, unset first rfl]
      · rw [List.set_cons_zero, itemReferences, List.nil_append]
    | succ number =>
      obtain ⟨before, after, old, new⟩ := ih (Nat.lt_of_succ_lt_succ inside) unset
      use first.references ++ before, after
      constructor
      · rw [itemReferences, old, List.append_assoc]
      · rw [List.set_cons_succ, itemReferences, new, List.append_assoc, List.append_assoc,
          List.append_assoc]

theorem Added.sizes_cons (size : Nat → Nat) (a : Added) (added : List Added) :
  Added.sizes size (a :: added) = Added.sizes (Added.sizes size [a]) added
  := Added.sizes_append size [a] added

namespace Binding

variable {schema : RegionSchema} {size : Nat → Nat} {type : FieldType} {r : Region}

theorem references_of_numberOf {text : String} {value : Value}
    (h : numberOf schema type text = .ok (.ok value)) :
  value.references = []
  := by
  obtain ⟨n, hn⟩ := exists_numeral?_of_numberOf h
  rcases eq_of_numeral? hn with ⟨_, -, -, rfl⟩ | ⟨_, -, -, rfl⟩ | ⟨_, -, rfl⟩ <;> rfl

/-- A value of a type that cannot refer to objects does not. -/
theorem references_of_plain {expected : FieldType} (plain : expected.refers = false) {e : Expr}
    {o : Outcome (Option Value)} (h : outcome schema size (some expected) e = .ok o) {value : Value}
    (hvalue : o.result = some value) :
  value.references = []
  := by
  cases comes h with
  | untyped | notStruct | notList | outside => cases hvalue
  | string | bool =>
    obtain rfl := Option.some.inj hvalue
    rfl
  | number _ inside =>
    obtain rfl := Option.some.inj hvalue
    apply references_of_numberOf inside
  | struct checks | list checks =>
    obtain rfl := checks.2 expected rfl
    cases plain

/-- Whether the added objects are where they are added. -/
def Stand (r : Region) (size : Nat → Nat) (added : List Added) : Prop :=
  List.Forall₂ (fun a target => r.object target = .ok a.object) added (Added.places size added)

theorem stand_append {added more : List Added} :
  Stand r size (added ++ more) ↔ Stand r size added ∧ Stand r (Added.sizes size added) more
  := by
  induction added generalizing size with
  | nil => exact (and_iff_right .nil).symm
  | cons a added ih =>
    rw [Added.sizes_cons, Stand, Stand, List.cons_append, Added.places, Added.places,
      List.forall₂_cons, List.forall₂_cons, and_assoc]
    apply and_congr_right fun _ => ih

/-- Whether an outcome with a value adds the objects of the value depth first. -/
def AddsDepthFirst (schema : RegionSchema) (r : Region) (e : Expr) : Prop :=
  ∀ {expected size o value}, outcome schema size expected e = .ok o → o.result = some value →
    Stand r size o.objects → r.DepthFirst size value.references (Added.sizes size o.objects)

theorem depthFirst_arguments {s : StructSchema} (one : s.RefersByOne)
    {arguments : List (Token × Expr)}
    (each : ∀ argument ∈ arguments, AddsDepthFirst schema r argument.2) {defined : List Nat}
    {object : Object} (length : object.length = s.fields.length)
    (unset : ∀ number ∉ defined, ∀ v, object[number]? = some v → v.references = [])
    (clear : ∀ number field, number ∉ defined → s.fields[number]? = some field →
      field.type.refers → itemReferences object = [])
    {complete : Bool} {o : Outcome (Object × Bool)}
    (h : argumentsOutcome schema size s defined object complete arguments = .ok o)
    (whole : o.result.2 = true) (stand : Stand r size o.objects) :
  ∃ references, itemReferences o.result.1 = itemReferences object ++ references
    ∧ r.DepthFirst size references (Added.sizes size o.objects)
  := by
  induction arguments generalizing size defined object complete o with
  | nil =>
    cases argumentsCome h
    use [], (List.append_nil _).symm, .nil
  | cons argument rest ih =>
    obtain ⟨first, others⟩ := List.forall_mem_cons.mp each
    cases argumentsCome h with
    | unknown _ hothers | repeated _ _ hothers =>
      cases ((argumentsOutcome_complete_iff (fun _ _ => reported_eq_nil_iff) hothers).mp whole).1
    | @bound name value _ number field bound more known new hbound hothers =>
      have all := (argumentsOutcome_complete_iff (fun _ _ => reported_eq_nil_iff) hothers).mp whole
      obtain ⟨-, stored⟩ := (Bool.and_eq_true _ _).mp all.1
      obtain ⟨v, hv⟩ := Option.isSome_iff_exists.mp stored
      obtain ⟨here, there⟩ := stand_append.mp stand
      have references := first hbound hv here
      obtain ⟨hfield, -⟩ := StructSchema.getElem?_of_field? known
      obtain ⟨inside, -⟩ := List.getElem?_eq_some_iff.mp hfield
      rw [hv, filled] at hothers
      have untouched : ∀ other ∉ number :: defined, ∀ w, (object.set number v)[other]? = some w →
          w.references = [] := by
        intro other fresh w hw
        obtain ⟨apart, fresh⟩ := not_or.mp (List.mem_cons.not.mp fresh)
        rw [List.getElem?_set_ne (Ne.symm apart)] at hw
        apply unset other fresh w hw
      obtain ⟨before, after, old, now⟩ :=
        exists_itemReferences_set (length ▸ inside) (unset number new) v
      have same : itemReferences (object.set number v) = itemReferences object ++ v.references := by
        cases plain : field.type.refers with
        | false =>
          rw [now, old, references_of_plain plain hbound hv, List.append_nil, List.append_nil]
        | true =>
          have none := clear number field new hfield plain
          obtain ⟨rfl, rfl⟩ := List.append_eq_nil_iff.mp (old.symm.trans none)
          rw [now, none, List.append_nil]
      obtain ⟨more, later, depthFirst⟩ := ih others (by rw [List.length_set, length]) untouched
        (by
          intro other field' fresh hfield' referring
          obtain ⟨apart, fresh⟩ := not_or.mp (List.mem_cons.not.mp fresh)
          have none := clear other field' fresh hfield' referring
          cases plain : field.type.refers with
          | false => rw [same, none, references_of_plain plain hbound hv, List.append_nil]
          | true =>
            obtain ⟨inside', rfl⟩ := List.getElem?_eq_some_iff.mp hfield'
            obtain ⟨_, rfl⟩ := List.getElem?_eq_some_iff.mp hfield
            exact absurd (one other inside' number inside referring plain) apart)
        hothers whole there
      use v.references ++ more
      constructor
      · rw [← List.append_assoc, ← same]
        apply later
      · dsimp only [Outcome.after]
        rw [Added.sizes_append]
        apply references.append depthFirst

theorem depthFirst_items {items : List Expr}
    (each : ∀ item ∈ items, AddsDepthFirst schema r item) {before : Option (List Value)}
    {o : Outcome (Option (List Value))}
    (h : itemsOutcome schema size type before items = .ok o) {values : List Value}
    (hvalues : o.result = some values) (stand : Stand r size o.objects) :
  ∃ reversed references, before = some reversed
    ∧ itemReferences values = itemReferences reversed.reverse ++ references
    ∧ r.DepthFirst size references (Added.sizes size o.objects)
  := by
  induction items generalizing size before o with
  | nil =>
    rw [itemsOutcome] at h
    obtain rfl := Except.ok.inj h
    obtain ⟨reversed, rfl, rfl⟩ := Option.map_eq_some_iff.mp hvalues
    use reversed, [], rfl, (List.append_nil _).symm, .nil
  | cons item rest ih =>
    obtain ⟨first, others⟩ := List.forall_mem_cons.mp each
    obtain ⟨bound, more, hbound, hmore, rfl⟩ := exists_of_itemsOutcome_cons h
    obtain ⟨here, there⟩ := stand_append.mp stand
    obtain ⟨_, references, gathered, later, depthFirst⟩ := ih others hmore hvalues there
    obtain ⟨v, hv, gathered⟩ := Option.bind_eq_some_iff.mp gathered
    obtain ⟨reversed, rfl, gathered⟩ := Option.bind_eq_some_iff.mp gathered
    obtain rfl := Option.some.inj gathered
    use reversed, v.references ++ references, rfl
    constructor
    · rw [later, List.reverse_cons, itemReferences_eq_flatMap, List.flatMap_append,
        List.flatMap_singleton, ← itemReferences_eq_flatMap, List.append_assoc]
    · dsimp only [Outcome.after]
      rw [Added.sizes_append]
      apply (first hbound hv here).append depthFirst

/-- A value's objects are added depth first. -/
theorem depthFirst (one : ∀ s ∈ schema.structs, s.RefersByOne) (r : Region) (e : Expr) :
  AddsDepthFirst schema r e
  := by
  induction e using Expr.induction with
  | integer raw =>
    intro expected size o value h hvalue _
    cases comes h with
    | untyped | outside => cases hvalue
    | number _ inside =>
      obtain rfl := Option.some.inj hvalue
      rw [references_of_numberOf inside]
      exact .nil
  | string raw value =>
    intro expected size o value h hvalue _
    cases comes h with
    | untyped => cases hvalue
    | string =>
      obtain rfl := Option.some.inj hvalue
      exact .nil
  | bool span value =>
    intro expected size o value h hvalue _
    cases comes h with
    | untyped => cases hvalue
    | bool =>
      obtain rfl := Option.some.inj hvalue
      exact .nil
  | struct type? brace arguments ih =>
    intro expected size o value h hvalue stand
    cases comes h with
    | untyped | notStruct => cases hvalue
    | @struct _ _ _ id s object complete objects reported checks found all =>
      obtain ⟨whole, same⟩ := Option.ite_none_right_eq_some.mp hvalue
      obtain rfl := Option.some.inj same
      have zero : itemReferences s.zero = [] := by
        rw [itemReferences_eq_flatMap, List.flatMap_eq_nil_iff]
        apply fun _ => StructSchema.references_of_mem_zero
      cases stand with
      | cons own stand =>
      rw [Added.sizes_singleton size id s.zero object] at all
      obtain ⟨references, inside, depthFirst⟩ := depthFirst_arguments
        (one s (List.mem_of_getElem? found)) ih (List.length_map _)
        (fun _ _ _ hv => StructSchema.references_of_mem_zero (List.mem_of_getElem? hv))
        (fun _ _ _ _ _ => zero) all whole stand
      have inside : itemReferences object = itemReferences s.zero ++ references := inside
      rw [zero, List.nil_append] at inside
      subst inside
      dsimp only
      rw [Added.sizes_cons, Value.references]
      exact .cons rfl own depthFirst .nil
  | list bracket items ih =>
    intro expected size o value h hvalue stand
    cases comes h with
    | untyped | notList => cases hvalue
    | list _ _ all =>
      obtain ⟨values, rfl, rfl⟩ := Option.map_eq_some_iff.mp hvalue
      obtain ⟨_, references, same, inside, depthFirst⟩ := depthFirst_items ih all rfl stand
      obtain rfl := Option.some.inj same
      rw [List.reverse_nil, itemReferences, List.nil_append] at inside
      subst inside
      apply depthFirst

end Binding

/-- The objects of a file that is bound into an empty region stand in its pools depth first. -/
theorem depthFirst_of_parseFile {S : Type} [ObjectStore S] {view : S → Region}
    {schema : RegionSchema} (models : Models view schema) (wf : schema.WellFormed)
    (one : ∀ s ∈ schema.structs, s.RefersByOne) {source : Source} {store store' : S} {value : Value}
    (fresh : view store = Region.empty schema)
    (h : parseFile source store = .ok (.ok value, store')) :
  (view store').DepthFirst (Region.empty schema).size value.references (view store').size
  := by
  have sound : (view store).Sound schema := fresh ▸ Region.sound_empty schema
  obtain ⟨e, hparse, hbind⟩ := parseFile_eq_ok_ok.mp h
  have he := (Expr.wellFormed_of_parse hparse).1
  obtain ⟨o, s', hout, hbind', hview, -, -⟩ := bindRoot_run models wf he sound
  obtain ⟨hverdict, rfl⟩ := Prod.mk.inj (Except.ok.inj (hbind.symm.trans hbind'))
  have hvalue := (Binding.Outcome.verdict_eq_ok.mp hverdict.symm).1
  have unexpected : ∀ t, (none : Option FieldType) = some t → schema.Knows t := by
    intro _ given
    cases given
  obtain ⟨_, _, hout', -, ran, -⟩ :=
    Binding.bind_run models wf none unexpected e he ⟨store, #[]⟩ sound
  obtain rfl := Except.ok.inj (hout.symm.trans hout')
  rw [fresh] at hout hview
  have known : ∀ a ∈ o.objects, a.struct < (Region.empty schema).pools.length := by
    rw [(Region.regular_empty schema).length_pools]
    apply ran.known
  rw [hview, Region.size_extend known]
  apply Binding.depthFirst one _ e hout hvalue (Region.object_extend known)

end PoolGraph
