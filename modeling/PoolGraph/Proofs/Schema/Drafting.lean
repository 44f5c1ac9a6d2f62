import PoolGraph.Proofs.Declaration.Resolve
import PoolGraph.Proofs.Schema.Tables

/-!
# Building in place is building

Each operation on a draft is run in closed form: what it answers and which steps it takes.  Without
its tables an intact draft is what the operations on schemas make, with the same answers
(`SchemaCall.settle_eq`), since a table finds what a search finds.  So after any calls the tables of
a draft give the positions of its structs, fields and list types, and no call moves one of them
(`SchemaCall.intact_performAll`).
-/

namespace PoolGraph

/-! ### Searches -/

namespace Draft

variable {d : Draft}

/-- The table of structs finds what a search through them finds. -/
theorem Intact.structIndex?_schema (h : d.Intact) (name : String) :
  d.schema.structIndex? name = d.structIds.lookup name
  := by
  rw [← h.structIds.findIdx?_eq, RegionSchema.structIndex?, schema, List.findIdx?_map,
    List.findIdx?_map]
  rfl

/-- The table of list types finds what a search through them finds. -/
theorem Intact.findList?_schema (h : d.Intact) (item : FieldType) :
  d.schema.findList? item = (d.listIds.lookup item).map .list
  := by
  rw [← h.listIds.findIdx?_eq]
  rfl

/-- A struct added to a draft is one without fields added to its schema. -/
theorem schema_addStruct (name : String) :
  (d.addStruct name).schema = { d.schema with structs := d.schema.structs ++ [⟨name, []⟩] }
  := by
  rw [schema, addStruct, List.map_append]
  rfl

/-- A struct replaced in a draft is replaced in its schema. -/
theorem schema_setStruct (id : Nat) (s : DraftStruct) :
  (d.setStruct id s).schema = { d.schema with structs := d.schema.structs.set id s.plain }
  := by
  rw [schema, setStruct, List.map_set]
  rfl

/-- Declaring a struct on the schema is looking its name up in the table. -/
theorem Intact.declareStruct_schema (h : d.Intact) (name : String) :
  d.schema.declareStruct name = match d.structIds.lookup name with
    | some _ => .error (.duplicateType name)
    | none => .ok (d.structs.length, (d.addStruct name).schema)
  := by
  rw [RegionSchema.declareStruct, h.structIndex?_schema, schema_addStruct]
  cases d.structIds.lookup name with
  | some id => rfl
  | none =>
    rw [show d.schema.structs.length = d.structs.length from List.length_map ..]

/-- Making a list type on the schema is looking its item type up in the table. -/
theorem Intact.list_schema (h : d.Intact) (item : FieldType) :
  d.schema.list item = match d.listIds.lookup item with
    | some id => (.list id, d.schema)
    | none => (.list d.lists.length, (d.addList item).schema)
  := by
  rw [RegionSchema.list, h.findList?_schema]
  cases d.listIds.lookup item <;> rfl

/-- A draft with more list types. -/
def addLists (d : Draft) (items : List FieldType) : Draft :=
  items.foldl addList d

/-- List types are added one behind the other. -/
theorem addLists_concat (d : Draft) (items : List FieldType) (item : FieldType) :
  d.addLists (items ++ [item]) = (d.addLists items).addList item
  := by
  rw [addLists, List.foldl_append]
  rfl

/-- The list types added stand behind those there were. -/
theorem lists_addLists (d : Draft) (items : List FieldType) :
  (d.addLists items).lists = d.lists ++ items
  := by
  induction items generalizing d with
  | nil => rw [List.append_nil]; rfl
  | cons item rest ih => rw [List.append_cons]; exact ih (d.addList item)

end Draft

/-! ### Operations -/

namespace Building

variable {s : Building}

/-- A name in the table is refused, and any other becomes a struct. -/
theorem run_declareStruct (name : String) (s : Building) :
  (declareStruct name).run s = match s.draft.structIds.lookup name with
    | some _ => .error (.duplicateType name) s
    | none => .ok s.draft.structs.length { s with draft := s.draft.addStruct name }
  := by
  rw [declareStruct, EStateM.run_bind, EStateM.run_get]
  dsimp only
  cases s.draft.structIds.lookup name <;> rfl

/-- A name is registered if neither the scope nor the table has it. -/
theorem run_registerStruct (name : String) (s : Building) :
  (registerStruct name).run s = match s.scope.get? name, s.draft.structIds.lookup name with
    | none, none =>
      .ok s.draft.structs.length
        ⟨⟨s.scope.types ++ [(name, .struct s.draft.structs.length)]⟩, s.draft.addStruct name⟩
    | _, _ => .error (.duplicateType name) s
  := by
  rw [registerStruct, EStateM.run_bind, EStateM.run_get]
  dsimp only
  cases s.scope.get? name with
  | some type => rfl
  | none =>
    rw [Option.isSome_none, if_neg Bool.false_ne_true, EStateM.run_bind, run_declareStruct]
    cases s.draft.structIds.lookup name <;> rfl

/-- A list type that the table has is used again. -/
theorem run_list (item : FieldType) (s : Building) :
  (list item).run s = match s.draft.listIds.lookup item with
    | some id => .ok (.list id) s
    | none => .ok (.list s.draft.lists.length) { s with draft := s.draft.addList item }
  := by
  rw [list, EStateM.run_bind, EStateM.run_get]
  dsimp only
  cases s.draft.listIds.lookup item <;> rfl

/-- A reference that stands for nothing changes nothing; one that stands for a type makes the list
types that the schema lacks. -/
theorem run_resolveChars (h : s.draft.Intact) (chars : List Char) :
  match s.scope.resolveChars s.draft.schema chars with
  | none => (resolveChars chars).run s = .ok none s
  | some (type, schema) => ∃ items, s.draft.Steps (s.draft.addLists items)
      ∧ (s.draft.addLists items).schema = schema
      ∧ (resolveChars chars).run s = .ok (some type) { s with draft := s.draft.addLists items }
  := by
  fun_induction s.scope.resolveChars s.draft.schema chars with
  | case1 rest ih =>
    rw [resolveChars, EStateM.run_bind]
    rcases hrest : s.scope.resolveChars s.draft.schema rest with _ | ⟨item, schema₁⟩
    · rw [hrest] at ih
      rw [ih]
      rfl
    · rw [hrest] at ih
      obtain ⟨items, steps, rfl, run⟩ := ih
      have intact := h.steps steps
      rw [run]
      dsimp only [Option.bind_eq_bind, Option.bind_some, Option.pure_def]
      rw [intact.list_schema, EStateM.run_bind, run_list]
      dsimp only
      cases free : (s.draft.addLists items).listIds.lookup item with
      | some id =>
        use items, steps, rfl
        rfl
      | none =>
        use items ++ [item]
        constructor
        · rw [Draft.addLists_concat]
          exact steps.tail (.addList free)
        constructor
        · rw [Draft.addLists_concat]
        · rw [Draft.addLists_concat]
          rfl
  | case2 chars other =>
    have run : (resolveChars chars).run s = .ok (s.scope.get? (String.ofList chars)) s := by
      rw [resolveChars, EStateM.run_bind, EStateM.run_get]
      · rfl
      · apply other
    rw [run]
    cases s.scope.get? (String.ofList chars) with
    | none => exact (rfl : EStateM.Result.ok none s = .ok none s)
    | some type => exact ⟨[], .refl, rfl, rfl⟩

/-- Fields are stored up to the first duplicate, which is reported. -/
theorem defineFields_eq (id : Nat) (fields : List Field) (s : Building) :
  (∃ struct struct', s.draft.structs[id]? = some struct ∧ struct'.Intact
      ∧ struct'.plain = ⟨struct.name, (RegionSchema.untilDuplicate [] fields).1⟩
      ∧ s.defineFields id fields = .ok (match (RegionSchema.untilDuplicate [] fields).2 with
          | none => .ok ()
          | some name => .error (.duplicateField struct.name name),
        { s with draft := s.draft.setStruct id struct' }))
    ∨ s.draft.structs[id]? = none ∧ s.defineFields id fields = .error (.noStruct id)
  := by
  rw [defineFields]
  cases hstruct : s.draft.structs[id]? with
  | none => exact .inr ⟨rfl, rfl⟩
  | some struct =>
    obtain ⟨struct', intact, plain, run⟩ := struct.run_defineFields fields
    refine .inl ⟨struct, struct', rfl, intact, plain, ?_⟩
    dsimp only
    rw [run]
    cases (RegionSchema.untilDuplicate [] fields).2 <;> rfl

end Building

/-! ### Calls -/

namespace SchemaCall

variable {s s' : Building} {call : SchemaCall} {given : Except SchemaError SchemaAnswer}

/-- The call of declaring answers with the struct or the message. -/
theorem perform_declareStruct (name : String) (s : Building) :
  (declareStruct name).perform s = .ok (match s.draft.structIds.lookup name with
    | some _ => (.error (.duplicateType name), s)
    | none => (.ok (.struct s.draft.structs.length), { s with draft := s.draft.addStruct name }))
  := by
  rw [perform, Building.run_declareStruct]
  cases s.draft.structIds.lookup name <;> rfl

/-- The call of registering answers with the struct or the message. -/
theorem perform_registerStruct (name : String) (s : Building) :
  (registerStruct name).perform s
    = .ok (match s.scope.get? name, s.draft.structIds.lookup name with
      | none, none => (.ok (.struct s.draft.structs.length),
          ⟨⟨s.scope.types ++ [(name, .struct s.draft.structs.length)]⟩, s.draft.addStruct name⟩)
      | _, _ => (.error (.duplicateType name), s))
  := by
  rw [perform, Building.run_registerStruct]
  cases s.scope.get? name with
  | some type => rfl
  | none => cases s.draft.structIds.lookup name <;> rfl

/-- The call for a list type always answers. -/
theorem perform_list (item : FieldType) (s : Building) :
  (list item).perform s = .ok (match s.draft.listIds.lookup item with
    | some id => (.ok (.type (some (.list id))), s)
    | none => (.ok (.type (some (.list s.draft.lists.length))),
        { s with draft := s.draft.addList item }))
  := by
  rw [perform, Building.run_list]
  cases s.draft.listIds.lookup item <;> rfl

/-- A call on an intact draft takes steps, and is the call on its schema; both meet the same
fault. -/
theorem perform_cases (h : s.draft.Intact) (call : SchemaCall) :
  (∃ given s', call.perform s = .ok (given, s') ∧ s.draft.Steps s'.draft
      ∧ call.settle s.scope s.draft.schema = .ok (given, s'.scope, s'.draft.schema))
    ∨ ∃ fault, call.perform s = .error fault
      ∧ call.settle s.scope s.draft.schema = .error fault
  := by
  cases call with
  | declareStruct name =>
    rw [perform_declareStruct, settle, h.declareStruct_schema]
    left
    cases free : s.draft.structIds.lookup name with
    | some id =>
      use Except.error (SchemaError.duplicateType name), s, rfl, .refl
    | none => exact ⟨_, _, rfl, .single (.addStruct free), rfl⟩
  | registerStruct name =>
    rw [perform_registerStruct, settle, Scope.registerStruct]
    left
    cases s.scope.get? name with
    | some type =>
      use Except.error (SchemaError.duplicateType name), s, rfl, .refl
    | none =>
      dsimp only
      rw [h.declareStruct_schema]
      cases free : s.draft.structIds.lookup name with
      | some id =>
        use Except.error (SchemaError.duplicateType name), s, rfl, .refl
        rfl
      | none => exact ⟨_, _, rfl, .single (.addStruct free), rfl⟩
  | defineFields id fields =>
    have searched : s.draft.schema.structs[id]? = s.draft.structs[id]?.map DraftStruct.plain :=
      List.getElem?_map ..
    rcases Building.defineFields_eq id fields s with
      ⟨struct, struct', hstruct, intact, plain, run⟩ | ⟨absent, run⟩
    · left
      have named : struct'.name = struct.name := congrArg StructSchema.name plain
      have found : s.draft.schema.struct id = .ok struct.plain := by
        rw [RegionSchema.struct_eq_ok, searched, hstruct, Option.map_some]
      have step : s.draft.Step (s.draft.setStruct id struct') := .setStruct hstruct named intact
      rw [perform, run, settle, RegionSchema.defineFields, found]
      refine ⟨_, _, rfl, .single step, ?_⟩
      rw [Draft.schema_setStruct, plain]
      generalize RegionSchema.untilDuplicate [] fields = kept
      obtain ⟨kept, _ | name⟩ := kept <;> rfl
    · right
      have missing : s.draft.schema.struct id = .error (.noStruct id) := by
        rw [RegionSchema.struct, searched, absent, Option.map_none]
      rw [perform, run, settle, RegionSchema.defineFields, missing]
      use Fault.noStruct id, rfl
      rfl
  | list item =>
    rw [perform_list, settle, h.list_schema]
    left
    cases free : s.draft.listIds.lookup item with
    | some id => exact ⟨_, _, rfl, .refl, rfl⟩
    | none => exact ⟨_, _, rfl, .single (.addList free), rfl⟩
  | resolve reference =>
    have run := Building.run_resolveChars h reference.toList
    rw [perform, settle, Scope.resolve, Building.resolve]
    left
    rcases hresolve : s.scope.resolveChars s.draft.schema reference.toList with _ | ⟨type, schema⟩
    · rw [hresolve] at run
      rw [run]
      use Except.ok (SchemaAnswer.type none), s, rfl, .refl
    · rw [hresolve] at run
      obtain ⟨items, steps, rfl, run⟩ := run
      rw [run]
      exact ⟨_, _, rfl, steps, rfl⟩
  | enter scope => exact .inl ⟨_, _, rfl, .refl, rfl⟩

/-- A call changes a draft by steps only, also where it fails. -/
theorem steps_perform (h : s.draft.Intact) (hperform : call.perform s = .ok (given, s')) :
  s.draft.Steps s'.draft
  := by
  rcases perform_cases h call with ⟨given', s₁, run, steps, -⟩ | ⟨fault, run, -⟩
  · obtain ⟨-, rfl⟩ := Prod.mk.inj (Except.ok.inj (run.symm.trans hperform))
    apply steps
  · rw [run] at hperform
    cases hperform

/-- Only giving fields to a struct that there is not ends in a fault. -/
theorem exists_perform
    (declared : ∀ id fields, call = .defineFields id fields → id < s.draft.structs.length) :
  ∃ given s', call.perform s = .ok (given, s')
  := by
  cases call with
  | defineFields id fields =>
    rcases Building.defineFields_eq id fields s with ⟨_, _, -, -, -, run⟩ | ⟨absent, -⟩
    · rw [perform, run]
      exact ⟨_, _, rfl⟩
    · rw [List.getElem?_eq_none_iff] at absent
      have inside := declared id fields rfl
      omega
  | _ => exact ⟨_, _, rfl⟩

/-- Calls on an intact draft are the calls on its schema. -/
theorem settleAll_eq (h : s.draft.Intact) (calls : List SchemaCall) :
  settleAll calls s.scope s.draft.schema
    = (performAll calls s).map fun (answers, s') => (answers, s'.scope, s'.draft.schema)
  := by
  induction calls generalizing s with
  | nil => rfl
  | cons call rest ih =>
    rw [settleAll, performAll]
    rcases perform_cases h call with ⟨given, s₁, run, steps, settled⟩ | ⟨fault, run, settled⟩
    · rw [run, settled]
      have others := ih (h.steps steps)
      dsimp only [bind, Except.bind]
      rw [others]
      cases performAll rest s₁ <;> rfl
    · rw [run, settled]
      rfl

/-- Calls in a row change a draft by steps only. -/
theorem steps_performAll (h : s.draft.Intact) {calls : List SchemaCall}
    {answers : List (Except SchemaError SchemaAnswer)}
    (hperform : performAll calls s = .ok (answers, s')) :
  s.draft.Steps s'.draft
  := by
  induction calls generalizing s answers with
  | nil =>
    obtain ⟨-, rfl⟩ := Prod.mk.inj (Except.ok.inj hperform)
    exact .refl
  | cons call rest ih =>
    obtain ⟨⟨given, s₁⟩, hcall, hperform⟩ := Except.bind_eq_ok.mp hperform
    obtain ⟨⟨others, s₂⟩, hrest, same⟩ := Except.bind_eq_ok.mp hperform
    obtain ⟨-, rfl⟩ := Prod.mk.inj (Except.ok.inj same)
    have steps := steps_perform h hcall
    apply steps.trans (ih (h.steps steps) hrest)

/-- What a call gives, and what it leaves of the state in which it was made. -/
def Leaves : SchemaCall → Except SchemaError SchemaAnswer → Building → Building → Prop
  | .declareStruct name, given, s, s' | .registerStruct name, given, s, s' =>
    given = .error (.duplicateType name) ∧ s' = s
      ∨ ∃ id struct, given = .ok (.struct id) ∧ s'.draft.structs[id]? = some struct
        ∧ struct.name = name
  | .defineFields id fields, given, _, s' =>
    ∃ struct, s'.draft.structs[id]? = some struct
      ∧ struct.plain.fields = (RegionSchema.untilDuplicate [] fields).1
      ∧ given = match (RegionSchema.untilDuplicate [] fields).2 with
        | none => .ok .done
        | some name => .error (.duplicateField struct.name name)
  | .list item, given, _, s' =>
    ∃ id, given = .ok (.type (some (.list id))) ∧ s'.draft.lists[id]? = some item
  | .resolve reference, given, s, s' =>
    given = .ok (.type none) ∧ s' = s
      ∨ ∃ type, given = .ok (.type (some type)) ∧ ∀ rest, reference.toList = '[' :: ']' :: rest →
        ∃ id item, type = .list id ∧ s'.draft.lists[id]? = some item
  | .enter scope, given, s, s' => given = .ok .done ∧ s' = { s with scope }

/-- A call that fails leaves behind what it says it leaves. -/
theorem leaves_perform (h : s.draft.Intact) (hperform : call.perform s = .ok (given, s')) :
  call.Leaves given s s'
  := by
  cases call with
  | declareStruct name =>
    rw [perform_declareStruct] at hperform
    cases free : s.draft.structIds.lookup name with
    | some id =>
      rw [free] at hperform
      obtain ⟨rfl, rfl⟩ := Prod.mk.inj (Except.ok.inj hperform)
      exact .inl ⟨rfl, rfl⟩
    | none =>
      rw [free] at hperform
      obtain ⟨rfl, rfl⟩ := Prod.mk.inj (Except.ok.inj hperform)
      exact .inr ⟨_, _, rfl, List.getElem?_concat_length, rfl⟩
  | registerStruct name =>
    rw [perform_registerStruct] at hperform
    split at hperform
    · obtain ⟨rfl, rfl⟩ := Prod.mk.inj (Except.ok.inj hperform)
      exact .inr ⟨_, _, rfl, List.getElem?_concat_length, rfl⟩
    · obtain ⟨rfl, rfl⟩ := Prod.mk.inj (Except.ok.inj hperform)
      exact .inl ⟨rfl, rfl⟩
  | defineFields id fields =>
    rw [perform] at hperform
    rcases Building.defineFields_eq id fields s with
      ⟨struct, struct', hstruct, -, plain, run⟩ | ⟨-, run⟩
    · rw [run] at hperform
      obtain ⟨rfl, rfl⟩ := Prod.mk.inj (Except.ok.inj hperform)
      have named : struct'.name = struct.name := congrArg StructSchema.name plain
      have inside := (List.getElem?_eq_some_iff.mp hstruct).1
      refine ⟨struct', List.getElem?_set_self inside, congrArg StructSchema.fields plain, ?_⟩
      rw [named]
      cases (RegionSchema.untilDuplicate [] fields).2 <;> rfl
    · rw [run] at hperform
      cases hperform
  | list item =>
    rw [perform_list] at hperform
    cases found : s.draft.listIds.lookup item with
    | some id =>
      rw [found] at hperform
      obtain ⟨rfl, rfl⟩ := Prod.mk.inj (Except.ok.inj hperform)
      exact ⟨id, rfl, (h.listIds item id).mp found⟩
    | none =>
      rw [found] at hperform
      obtain ⟨rfl, rfl⟩ := Prod.mk.inj (Except.ok.inj hperform)
      exact ⟨_, rfl, List.getElem?_concat_length⟩
  | resolve reference =>
    have run := Building.run_resolveChars h reference.toList
    rw [perform, Building.resolve] at hperform
    rcases hresolve : s.scope.resolveChars s.draft.schema reference.toList with _ | ⟨type, schema⟩
    · rw [hresolve] at run
      rw [run] at hperform
      obtain ⟨rfl, rfl⟩ := Prod.mk.inj (Except.ok.inj hperform)
      exact .inl ⟨rfl, rfl⟩
    · rw [hresolve] at run
      obtain ⟨items, -, rfl, run⟩ := run
      rw [run] at hperform
      obtain ⟨rfl, rfl⟩ := Prod.mk.inj (Except.ok.inj hperform)
      refine .inr ⟨type, rfl, ?_⟩
      -- The list type was asked for last, when the schema was already what it is.
      intro rest begins
      rw [begins] at hresolve
      obtain ⟨⟨item, schema₁⟩, -, made⟩ := Option.bind_eq_some_iff.mp hresolve
      have made : schema₁.list item = (type, (s.draft.addLists items).schema) :=
        Option.some.inj made
      obtain ⟨id, same, hitem⟩ := schema₁.exists_list item
      rw [made] at same hitem
      use id, item, same, hitem
  | enter scope =>
    obtain ⟨rfl, rfl⟩ := Prod.mk.inj (Except.ok.inj hperform)
    exact ⟨rfl, rfl⟩

/-- After any calls the tables of a schema give the positions of its structs, fields and list types,
names and list types stand there once, and a further call leaves each where it is.  Without the
tables the schema is the one that the operations on schemas make, with the same answers. -/
theorem intact_performAll {name : String} {scope : Scope} {calls : List SchemaCall}
    {answers : List (Except SchemaError SchemaAnswer)}
    (h : performAll calls ⟨scope, Draft.empty name⟩ = .ok (answers, s)) :
  settleAll calls scope (RegionSchema.empty name) = .ok (answers, s.scope, s.draft.schema)
    ∧ (∀ n id, s.draft.structIndex? n = some id
        ↔ ∃ struct, s.draft.structs[id]? = some struct ∧ struct.name = n)
    ∧ (s.draft.structs.map DraftStruct.name).Nodup
    ∧ (∀ struct ∈ s.draft.structs,
        (∀ n, ∃ field?, struct.field? n = .ok field?
          ∧ ∀ field, field? = some field ↔ field ∈ struct.fields ∧ field.name = n)
        ∧ struct.fields.map NumberedField.number = List.range struct.fields.length
        ∧ (struct.fields.map NumberedField.name).Nodup)
    ∧ (∀ item type, s.draft.findList? item = some type
        ↔ ∃ id, type = .list id ∧ s.draft.lists[id]? = some item)
    ∧ s.draft.lists.Nodup
    ∧ ∀ call : SchemaCall,
        ((∀ id fields, call = .defineFields id fields → id < s.draft.structs.length) →
          ∃ given s', call.perform s = .ok (given, s'))
        ∧ ∀ given (s' : Building), call.perform s = .ok (given, s') → call.Leaves given s s'
          ∧ ∀ more answers' (s'' : Building), performAll more s' = .ok (answers', s'') →
            (∀ (id : Nat) (struct : DraftStruct), s'.draft.structs[id]? = some struct →
              ∃ later, s''.draft.structs[id]? = some later ∧ later.name = struct.name)
            ∧ ∀ (id : Nat) (item : FieldType), s'.draft.lists[id]? = some item →
              s''.draft.lists[id]? = some item
  := by
  have start := Draft.intact_empty name
  have intact : s.draft.Intact := start.steps (steps_performAll start h)
  constructor
  · have settled := settleAll_eq (s := ⟨scope, Draft.empty name⟩) start calls
    rw [h] at settled
    apply settled
  constructor
  · intro n id
    rw [Draft.structIndex?, intact.structIds n id, List.getElem?_map, Option.map_eq_some_iff]
  constructor
  · apply intact.structIds.nodup
  constructor
  · intro struct hstruct
    have fields := intact.structs struct hstruct
    exact ⟨fields.field?, fields.positions, fields.numbers.nodup⟩
  constructor
  · intro item type
    rw [Draft.findList?, Option.map_eq_some_iff]
    apply exists_congr
    intro id
    rw [intact.listIds item id, and_comm, eq_comm]
  constructor
  · apply intact.listIds.nodup
  · intro call
    constructor
    · apply exists_perform
    intro given s' hperform
    constructor
    · apply leaves_perform intact hperform
    intro more answers' s'' hmore
    have keeps := (steps_performAll (intact.steps (steps_perform intact hperform)) hmore).keeps
    constructor
    · intro id struct hstruct
      apply keeps.struct hstruct
    intro id item hitem
    exact getElem?_of_begins keeps.lists hitem

/-- Calls of which three fail: a name is taken, a field is given twice, and no struct is named
`Q`. -/
def pathCalls : List SchemaCall :=
  [.registerStruct "P", .declareStruct "P", .defineFields 0 [⟨"x", .bool⟩, ⟨"x", .string⟩],
    .resolve "[]P", .list (.struct 0), .resolve "[]Q"]

def pathAnswers : List (Except SchemaError SchemaAnswer) :=
  [.ok (.struct 0), .error (.duplicateType "P"), .error (.duplicateField "P" "x"),
    .ok (.type (some (.list 0))), .ok (.type (some (.list 0))), .ok (.type none)]

/-- What those calls leave. -/
def pathBuilding : Building where
  scope := ⟨[("P", .struct 0)]⟩
  draft := {
    name := "R"
    structs := [⟨"P", [⟨"x", .bool, 0⟩], [("x", 0)]⟩]
    structIds := [("P", 0)]
    lists := [.struct 0]
    listIds := [(.struct 0, 0)] }

/-- The field in front of the one that was refused stays, and the struct stays at its position
whatever is called next. -/
theorem intact_performAll_path :
  performAll pathCalls ⟨.empty, .empty "R"⟩ = .ok (pathAnswers, pathBuilding)
    ∧ pathBuilding.draft.structIndex? "P" = some 0
    ∧ ∀ more answers (s : Building), performAll more pathBuilding = .ok (answers, s) →
      ∃ struct, s.draft.structs[0]? = some struct ∧ struct.name = "P"
  := by
  have run : performAll pathCalls ⟨.empty, .empty "R"⟩ = .ok (pathAnswers, pathBuilding) := rfl
  obtain ⟨-, names, -, -, -, -, further⟩ := intact_performAll run
  constructor
  · apply run
  constructor
  · apply (names "P" 0).mpr ⟨_, rfl, rfl⟩
  intro more answers s hmore
  have stays : (enter pathBuilding.scope).perform pathBuilding
      = .ok (.ok .done, pathBuilding) := rfl
  obtain ⟨-, kept⟩ := (further (.enter pathBuilding.scope)).2 _ _ stays
  apply (kept more answers s hmore).1 0 _ rfl

end SchemaCall

end PoolGraph
