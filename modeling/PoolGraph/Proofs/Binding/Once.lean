import PoolGraph.Proofs.Binding.Verdict
import PoolGraph.Proofs.Region.References

/-!
# References to new objects

A value that binding comes to refers, together with the objects that were added for it, to each of
these objects exactly once (`Binding.count_references`): the reference to the object of a literal is
put where the literal stands, and nowhere else.
-/

namespace PoolGraph

open Value

theorem Value.references_zero (type : FieldType) :
  (Value.zero type).references = []
  := by
  cases type with
  | integer width unsigned => cases unsigned <;> rfl
  | _ => rfl

theorem Value.itemReferences_eq_flatMap (items : List Value) :
  itemReferences items = items.flatMap references
  := by
  induction items with
  | nil => rfl
  | cons item rest ih => rw [itemReferences, ih, List.flatMap_cons]

theorem StructSchema.references_of_mem_zero {s : StructSchema} {v : Value} (h : v ∈ s.zero) :
  v.references = []
  := by
  obtain ⟨field, -, rfl⟩ := List.mem_map.mp h
  apply Value.references_zero

/-- The references in objects that are added, in order. -/
def Added.references (added : List Added) : List Instance :=
  added.flatMap fun a => itemReferences a.object

/-- A value that is stored in a field without references brings its own. -/
theorem count_set {object : Object} {number : Nat} (inside : number < object.length)
    (unset : ∀ v, object[number]? = some v → v.references = []) (value : Value)
    (target : Instance) :
  (itemReferences (object.set number value)).count target
    = value.references.count target + (itemReferences object).count target
  := by
  induction object generalizing number with
  | nil => cases inside
  | cons first rest ih =>
    cases number with
    | zero =>
      rw [List.set_cons_zero, itemReferences, itemReferences, unset first rfl, List.count_append,
        List.nil_append]
    | succ number =>
      rw [List.set_cons_succ, itemReferences, itemReferences, List.count_append, List.count_append,
        ih (Nat.lt_of_succ_lt_succ inside) unset]
      omega

namespace Binding

variable {schema : RegionSchema} {expected : Option FieldType} {e : Expr} {type : FieldType}
  {size : Nat → Nat} {target : Instance}

/-- Whether an outcome with a value refers to the objects that it adds as often as to places. -/
def RefersOnce (schema : RegionSchema) (target : Instance) (e : Expr) : Prop :=
  ∀ {expected size o value}, outcome schema size expected e = .ok o → o.result = some value →
    value.references.count target + (Added.references o.objects).count target
      = (Added.places size o.objects).count target

/-- Fields that no argument has named yet hold no references. -/
theorem count_argumentReferences {s : StructSchema} {arguments : List (Token × Expr)}
    (each : ∀ argument ∈ arguments, RefersOnce schema target argument.2) {defined : List Nat}
    {object : Object} (length : object.length = s.fields.length)
    (unset : ∀ number ∉ defined, ∀ v, object[number]? = some v → v.references = [])
    {complete : Bool} {o : Outcome (Object × Bool)}
    (h : argumentsOutcome schema size s defined object complete arguments = .ok o)
    (whole : o.result.2 = true) :
  (itemReferences o.result.1).count target + (Added.references o.objects).count target
    = (itemReferences object).count target + (Added.places size o.objects).count target
  := by
  induction arguments generalizing size defined object complete o with
  | nil =>
    cases argumentsCome h
    rfl
  | cons argument rest ih =>
    obtain ⟨first, others⟩ := List.forall_mem_cons.mp each
    cases argumentsCome h with
    | unknown _ hothers | repeated _ _ hothers =>
      cases ((argumentsOutcome_complete_iff (fun _ _ => reported_eq_nil_iff) hothers).mp whole).1
    | @bound name value _ number field bound more known new hbound hothers =>
      have all := (argumentsOutcome_complete_iff (fun _ _ => reported_eq_nil_iff) hothers).mp whole
      obtain ⟨-, stored⟩ := (Bool.and_eq_true _ _).mp all.1
      obtain ⟨v, hv⟩ := Option.isSome_iff_exists.mp stored
      have here := first hbound hv
      obtain ⟨hfield, -⟩ := StructSchema.getElem?_of_field? known
      obtain ⟨inside, -⟩ := List.getElem?_eq_some_iff.mp hfield
      rw [hv, filled] at hothers
      have later := ih others (by rw [List.length_set, length]) (fun other fresh w hw => by
        obtain ⟨apart, fresh⟩ := not_or.mp (List.mem_cons.not.mp fresh)
        rw [List.getElem?_set_ne (Ne.symm apart)] at hw
        exact unset other fresh w hw) hothers whole
      rw [count_set (length ▸ inside) (unset number new)] at later
      dsimp only [Outcome.after]
      rw [Added.references, List.flatMap_append, Added.places_append, List.count_append,
        List.count_append, ← Added.references, ← Added.references]
      omega

theorem count_itemReferences {items : List Expr}
    (each : ∀ item ∈ items, RefersOnce schema target item) {before : Option (List Value)}
    {o : Outcome (Option (List Value))}
    (h : itemsOutcome schema size type before items = .ok o) {values : List Value}
    (hvalues : o.result = some values) :
  ∃ reversed, before = some reversed
    ∧ (itemReferences values).count target + (Added.references o.objects).count target
      = (itemReferences reversed).count target + (Added.places size o.objects).count target
  := by
  induction items generalizing size before o with
  | nil =>
    rw [itemsOutcome] at h
    obtain rfl := Except.ok.inj h
    obtain ⟨reversed, rfl, rfl⟩ := Option.map_eq_some_iff.mp hvalues
    use reversed, rfl
    have same := (reversed.reverse_perm.flatMap_right references).count_eq target
    rw [itemReferences_eq_flatMap, itemReferences_eq_flatMap, same]
    rfl
  | cons item rest ih =>
    obtain ⟨first, others⟩ := List.forall_mem_cons.mp each
    obtain ⟨bound, more, hbound, hmore, rfl⟩ := exists_of_itemsOutcome_cons h
    obtain ⟨_, gathered, later⟩ := ih others hmore hvalues
    obtain ⟨v, hv, gathered⟩ := Option.bind_eq_some_iff.mp gathered
    obtain ⟨reversed, rfl, gathered⟩ := Option.bind_eq_some_iff.mp gathered
    obtain rfl := Option.some.inj gathered
    have here := first hbound hv
    use reversed, rfl
    rw [itemReferences, List.count_append] at later
    dsimp only [Outcome.after]
    rw [Added.references, List.flatMap_append, Added.places_append, List.count_append,
      List.count_append, ← Added.references, ← Added.references]
    omega

/-- A value and the objects that are added for it refer to these objects, to each as often as it is
added. -/
theorem refersOnce (schema : RegionSchema) (target : Instance) (e : Expr) :
  RefersOnce schema target e
  := by
  induction e using Expr.induction with
  | integer raw =>
    intro expected size o value h hvalue
    cases comes h with
    | untyped | outside => cases hvalue
    | number _ inside =>
      obtain rfl := Option.some.inj hvalue
      obtain ⟨n, hn⟩ := exists_numeral?_of_numberOf inside
      rcases eq_of_numeral? hn with ⟨_, -, -, rfl⟩ | ⟨_, -, -, rfl⟩ | ⟨_, -, rfl⟩ <;> rfl
  | string raw value =>
    intro expected size o value h hvalue
    cases comes h with
    | untyped => cases hvalue
    | string =>
      obtain rfl := Option.some.inj hvalue
      rfl
  | bool span value =>
    intro expected size o value h hvalue
    cases comes h with
    | untyped => cases hvalue
    | bool =>
      obtain rfl := Option.some.inj hvalue
      rfl
  | struct type? brace arguments ih =>
    intro expected size o value h hvalue
    cases comes h with
    | untyped | notStruct => cases hvalue
    | @struct _ _ _ id s object complete objects reported checks found all =>
      obtain ⟨whole, same⟩ := Option.ite_none_right_eq_some.mp hvalue
      obtain rfl := Option.some.inj same
      have zero : itemReferences s.zero = [] := by
        rw [itemReferences_eq_flatMap, List.flatMap_eq_nil_iff]
        apply fun _ => StructSchema.references_of_mem_zero
      have length : s.zero.length = s.fields.length := List.length_map _
      have inside := count_argumentReferences ih length
        (fun _ _ _ hv => StructSchema.references_of_mem_zero (List.mem_of_getElem? hv)) all whole
      rw [zero, List.count_nil, Nat.zero_add] at inside
      dsimp only at inside ⊢
      rw [Added.references, List.flatMap_cons, List.count_append, ← Added.references, Added.places,
        Added.sizes_singleton size id object s.zero, inside, references, ← List.count_append]
      rfl
  | list bracket items ih =>
    intro expected size o value h hvalue
    cases comes h with
    | untyped | notList => cases hvalue
    | list _ _ all =>
      obtain ⟨values, rfl, rfl⟩ := Option.map_eq_some_iff.mp hvalue
      obtain ⟨_, same, inside⟩ := count_itemReferences ih all rfl
      obtain rfl := Option.some.inj same
      rw [itemReferences, List.count_nil, Nat.zero_add] at inside
      apply inside

end Binding

end PoolGraph
