import PoolGraph.Declaration.Wire
import PoolGraph.Proofs.Except
import PoolGraph.Proofs.Region.Pools

/-!
# Filling declarations in place

`Fills` says of a computation that reads bytes into declarations what `Accepts` says of a reader:
on which bytes it succeeds, and what it then makes of the declarations.  A loop that fills the
positions of a pool one after another puts a list in place of the pool (`Fills.positions`), and
filling declarations succeeds exactly on the bytes that the declarations are written as
(`fills_fill`).
-/

namespace PoolGraph

namespace Pool

/-- The pool with the objects of a list at the positions from `start` on. -/
def overwrite (pool : Pool α) (start : Nat) : List α → Pool α
  | [] => pool
  | x :: xs => (pool.modify ⟨start⟩ fun _ => x).overwrite (start + 1) xs

/-- Overwriting the end of a pool leaves what is before it. -/
theorem toList_overwrite {pool : Pool α} {before rest xs : List α}
    (h : pool.toList = before ++ rest) (same : xs.length = rest.length) :
  (pool.overwrite before.length xs).toList = before ++ xs
  := by
  induction xs generalizing pool before rest with
  | nil =>
    obtain rfl := List.eq_nil_of_length_eq_zero same.symm
    rw [overwrite, h]
  | cons x xs ih =>
    obtain ⟨y, rest, rfl⟩ := List.exists_cons_of_length_eq_add_one same.symm
    have changed : (pool.modify ⟨before.length⟩ fun _ => x).toList = (before ++ [x]) ++ rest := by
      rw [modify, toList, Array.toList_modify, ← toList, h, modify_append_length, List.append_assoc]
      rfl
    have longer := ih changed (Nat.succ.inj same)
    rw [List.length_append, List.append_assoc] at longer
    apply longer

/-- When all positions are overwritten nothing is left of the pool. -/
theorem overwrite_replicate (x : α) (xs : List α) :
  overwrite ⟨Array.replicate xs.length x⟩ 0 xs = ofList xs
  := by
  have all : (Pool.mk (Array.replicate xs.length x)).toList
      = [] ++ List.replicate xs.length x := Array.toList_replicate
  apply toList_inj.mp
  apply toList_overwrite all
  rw [List.length_replicate]

/-- A pool overwritten by all of its objects is itself. -/
theorem overwrite_toList (x : α) (pool : Pool α) :
  overwrite ⟨Array.replicate pool.size x⟩ 0 pool.toList = pool
  := by
  rw [← length_toList, overwrite_replicate]
  rfl

end Pool

namespace Declarations

/-- The computation succeeds on exactly the inputs that begin with a spelling and leaves the rest;
the spelling says what becomes of the declarations. -/
def Fills (m : FillM α) (R : α → Declarations → Declarations → List UInt8 → Prop) : Prop :=
  ∀ input d x rest d', m.run ⟨input, d⟩ = .ok x ⟨rest, d'⟩ ↔ ∃ b, R x d d' b ∧ input = b ++ rest

namespace Fills

variable {R : α → Declarations → Declarations → List UInt8 → Prop}

/-- What a step fills in may be described in any equivalent way. -/
theorem of_iff {m : FillM α} {S : α → Declarations → Declarations → List UInt8 → Prop}
    (h : Fills m R) (same : ∀ x d d' b, R x d d' b ↔ S x d d' b) :
  Fills m S
  := by
  intro input d x rest d'
  simp only [h input d x rest d', same]

/-- Doing nothing fills in nothing and reads no byte. -/
theorem pure (x : α) :
  Fills (Pure.pure x) fun y d d' b => y = x ∧ d' = d ∧ b = []
  := by
  intro input d y rest d'
  constructor
  · intro h
    obtain ⟨rfl, same⟩ := EStateM.Result.ok.inj h
    obtain ⟨rfl, rfl⟩ := Filling.mk.inj same
    use []
    constructor
    · exact ⟨rfl, rfl, rfl⟩
    · rfl
  · rintro ⟨b, ⟨rfl, rfl, rfl⟩, rfl⟩
    rfl

/-- Reading a value reads the bytes that spell it and fills in nothing. -/
theorem take {p : Reader α} {R : α → List UInt8 → Prop} (h : Accepts p R) :
  Fills (Declarations.take p) fun x d d' b => R x b ∧ d' = d
  := by
  intro input d x rest d'
  unfold EStateM.run Declarations.take
  dsimp only
  constructor
  · intro reads
    split at reads
    · next y mid hrun =>
      obtain ⟨rfl, same⟩ := EStateM.Result.ok.inj reads
      obtain ⟨rfl, rfl⟩ := Filling.mk.inj same
      obtain ⟨b, hb, rfl⟩ := (h input y mid).mp hrun
      use b, ⟨hb, rfl⟩
    · cases reads
  · rintro ⟨b, ⟨hb, rfl⟩, rfl⟩
    rw [h.run_append hb]

/-- Storing reads no byte. -/
theorem store (f : Declarations → Declarations) :
  Fills (Declarations.store f) fun _ d d' b => d' = f d ∧ b = []
  := by
  intro input d x rest d'
  constructor
  · intro h
    obtain ⟨-, same⟩ := EStateM.Result.ok.inj h
    obtain ⟨rfl, rfl⟩ := Filling.mk.inj same
    use []
    constructor
    · exact ⟨rfl, rfl⟩
    · rfl
  · rintro ⟨b, ⟨rfl, rfl⟩, rfl⟩
    rfl

/-- One step behind another reads the bytes of both, in order. -/
theorem bind_of {m : FillM α} {f : α → FillM β}
    {S : α → β → Declarations → Declarations → List UInt8 → Prop} (hm : Fills m R)
    (hf : ∀ x d d' b, R x d d' b → Fills (f x) (S x)) :
  Fills (m >>= f) fun y d d' b =>
    ∃ x mid head tail, R x d mid head ∧ S x y mid d' tail ∧ b = head ++ tail
  := by
  intro input d y rest d'
  rw [EStateM.run_bind]
  constructor
  · cases hrun : m.run ⟨input, d⟩ with
    | error e s =>
      intro h
      cases h
    | ok x s =>
      intro h
      obtain ⟨after, mid⟩ := s
      obtain ⟨head, hx, rfl⟩ := (hm input d x after mid).mp hrun
      obtain ⟨tail, hy, rfl⟩ := (hf x d mid head hx after mid y rest d').mp h
      use head ++ tail
      constructor
      · use x, mid, head, tail, hx, hy
      · apply (List.append_assoc ..).symm
  · rintro ⟨b, ⟨x, mid, head, tail, hx, hy, rfl⟩, rfl⟩
    rw [List.append_assoc, (hm _ d x _ mid).mpr ⟨head, hx, rfl⟩]
    exact (hf x d mid head hx _ mid y rest d').mpr ⟨tail, hy, rfl⟩

/-- A value is read before the computation goes on. -/
theorem reads {p : Reader α} {R : α → List UInt8 → Prop} (hp : Accepts p R) {m : α → FillM β}
    {S : α → β → Declarations → Declarations → List UInt8 → Prop}
    (hm : ∀ x b, R x b → Fills (m x) (S x)) :
  Fills (Declarations.take p >>= m) fun y d d' b =>
    ∃ x head tail, R x head ∧ S x y d d' tail ∧ b = head ++ tail
  := by
  apply ((take hp).bind_of fun x _ _ b hx => hm x b hx.1).of_iff
  intro y d d' b
  constructor
  · rintro ⟨x, _, head, tail, ⟨hx, rfl⟩, hy, rfl⟩
    use x, head, tail, hx, hy
  · rintro ⟨x, head, tail, hx, hy, rfl⟩
    use x, d, head, tail, ⟨hx, rfl⟩, hy

/-- The declarations are changed before the computation goes on. -/
theorem stores (f : Declarations → Declarations) {m : FillM β}
    {S : β → Declarations → Declarations → List UInt8 → Prop} (hm : Fills m S) :
  Fills (Declarations.store f >>= fun _ => m) fun y d d' b => S y (f d) d' b
  := by
  apply ((store f).bind_of fun _ _ _ _ _ => hm).of_iff
  intro y d d' b
  constructor
  · rintro ⟨_, _, _, tail, ⟨rfl, rfl⟩, hy, rfl⟩
    apply hy
  · intro hy
    use (), f d, [], b, ⟨rfl, rfl⟩, hy
    rfl

/-- Something is filled in before the computation goes on. -/
theorem fillsIn {m : FillM Unit} {P : α → List UInt8 → Prop} {f : α → Declarations → Declarations}
    (hm : Fills m fun _ d d' b => ∃ x, P x b ∧ d' = f x d) {k : FillM β}
    {S : β → Declarations → Declarations → List UInt8 → Prop} (hk : Fills k S) :
  Fills (m >>= fun _ => k) fun y d d' b =>
    ∃ x head tail, P x head ∧ S y (f x d) d' tail ∧ b = head ++ tail
  := by
  apply (hm.bind_of fun _ _ _ _ _ => hk).of_iff
  intro y d d' b
  constructor
  · rintro ⟨_, _, head, tail, ⟨x, hx, rfl⟩, hy, rfl⟩
    use x, head, tail, hx, hy
  · rintro ⟨x, head, tail, hx, hy, rfl⟩
    use (), f x d, head, tail, ⟨x, hx, rfl⟩, hy

end Fills

/-! ### Pools -/

/-- One of the pools of declarations. -/
structure Slot (α : Type) where
  get : Declarations → Pool α
  set : Pool α → Declarations → Declarations
  get_set : ∀ pool d, get (set pool d) = pool
  set_set : ∀ pool pool' d, set pool (set pool' d) = set pool d
  set_get : ∀ d, set (get d) d = d

/-- The bytes of declarations one after another. -/
def encodeAll (encode : α → Except CodecError (List UInt8)) (xs : List α) :
    Except CodecError (List UInt8) := do
  return (← xs.mapM encode).flatten

/-- The bytes of several things are those of each, one behind the other. -/
theorem encodeAll_cons_eq_ok {encode : α → Except CodecError (List UInt8)} {x : α} {xs : List α}
    {b : List UInt8} :
  encodeAll encode (x :: xs) = .ok b
    ↔ ∃ head tail, encode x = .ok head ∧ encodeAll encode xs = .ok tail ∧ b = head ++ tail
  := by
  constructor
  · intro h
    obtain ⟨parts, hparts, h⟩ := Except.bind_eq_ok.mp h
    obtain rfl := Except.ok.inj h
    cases Except.mapM_eq_ok.mp hparts with
    | cons hx hall =>
      exact ⟨_, _, hx, Except.bind_eq_ok.mpr ⟨_, Except.mapM_eq_ok.mpr hall, rfl⟩, rfl⟩
  · rintro ⟨head, tail, hx, h, rfl⟩
    obtain ⟨parts, hparts, h⟩ := Except.bind_eq_ok.mp h
    obtain rfl := Except.ok.inj h
    refine Except.bind_eq_ok.mpr ⟨head :: parts, ?_, rfl⟩
    exact Except.mapM_eq_ok.mpr (.cons hx (Except.mapM_eq_ok.mp hparts))

/-- Items that are read into one position after another come to stand in the pool in order. -/
theorem Fills.positions (slot : Slot α) {encode : α → Except CodecError (List UInt8)}
    {item : Nat → FillM Unit} (h : ∀ i, Fills (item i) fun _ d d' b =>
      ∃ x, encode x = .ok b ∧ d' = slot.set ((slot.get d).modify ⟨i⟩ fun _ => x) d) (n : Nat) :
  Fills ((List.range n).forM item) fun _ d d' b => ∃ xs,
    (xs.length = n ∧ encodeAll encode xs = .ok b)
      ∧ d' = slot.set ((slot.get d).overwrite 0 xs) d
  := by
  rw [List.range_eq_range']
  generalize 0 = start
  induction n generalizing start with
  | zero =>
    apply (Fills.pure ()).of_iff
    intro _ d d' b
    constructor
    · rintro ⟨-, rfl, rfl⟩
      use []
      constructor
      · exact ⟨rfl, rfl⟩
      · apply (slot.set_get d').symm
    · rintro ⟨xs, ⟨hlen, hb⟩, rfl⟩
      obtain rfl := List.eq_nil_of_length_eq_zero hlen
      obtain rfl := Except.ok.inj hb
      constructor
      · rfl
      constructor
      · apply slot.set_get d
      · rfl
  | succ n ih =>
    rw [List.range'_succ]
    show Fills (item start >>= fun _ => (List.range' (start + 1) n).forM item) _
    apply ((h start).fillsIn (ih (start + 1))).of_iff
    intro _ d d' b
    simp only [slot.get_set, slot.set_set]
    constructor
    · rintro ⟨x, head, tail, hx, ⟨xs, ⟨rfl, hxs⟩, rfl⟩, rfl⟩
      use x :: xs
      constructor
      · constructor
        · rfl
        · apply encodeAll_cons_eq_ok.mpr ⟨head, tail, hx, hxs, rfl⟩
      · rfl
    · rintro ⟨xs, ⟨hlen, hb⟩, rfl⟩
      obtain ⟨x, xs, rfl⟩ := List.exists_cons_of_length_eq_add_one hlen
      obtain ⟨head, tail, hx, hxs, rfl⟩ := encodeAll_cons_eq_ok.mp hb
      use x, head, tail, hx
      constructor
      · use xs
        constructor
        · exact ⟨Nat.succ.inj hlen, hxs⟩
        · rfl
      · rfl

/-! ### Declarations of each kind -/

/-- The bytes of a field. -/
def encodeField (f : FieldDecl) : Except CodecError (List UInt8) := do
  return (← Encode.string f.name) ++ (← Encode.string f.type)

/-- The bytes of a struct when there are so many fields. -/
def encodeStruct (fieldCount : Nat) (s : StructDecl) : Except CodecError (List UInt8) := do
  return (← Encode.string s.name) ++ (← encodeRefs fieldCount s.fields)

/-- The bytes of a region when there are so many structs. -/
def encodeRegion (structCount : Nat) (r : RegionDecl) : Except CodecError (List UInt8) := do
  return (← Encode.string r.name) ++ (← encodeRefs structCount r.structs)

/-- The bytes of a root when there are so many regions. -/
def encodeSchemas (regionCount : Nat) (s : SchemaDecl) : Except CodecError (List UInt8) :=
  encodeRefs regionCount s.regions

def fieldSlot : Slot FieldDecl where
  get := fields
  set pool d := { d with fields := pool }
  get_set _ _ := rfl
  set_set _ _ _ := rfl
  set_get _ := rfl

def structSlot : Slot StructDecl where
  get := structs
  set pool d := { d with structs := pool }
  get_set _ _ := rfl
  set_set _ _ _ := rfl
  set_get _ := rfl

def regionSlot : Slot RegionDecl where
  get := regions
  set pool d := { d with regions := pool }
  get_set _ _ := rfl
  set_set _ _ _ := rfl
  set_get _ := rfl

def schemasSlot : Slot SchemaDecl where
  get := schemas
  set pool d := { d with schemas := pool }
  get_set _ _ := rfl
  set_set _ _ _ := rfl
  set_get _ := rfl

/-- The reader of references takes what their writer writes. -/
theorem accepts_decodeRefs {size : Nat} (h : size ≤ 2 ^ 32) :
  Accepts (decodeRefs size : Reader (List (Ref α))) fun refs b => encodeRefs size refs = .ok b
  := by
  apply (Decode.accepts_count.bind fun n =>
    Decode.accepts_many ((Decode.accepts_index h).map Ref.mk) n).of_iff
  intro refs b
  constructor
  · rintro ⟨_, head, _, hn, ⟨rfl, parts, hall, rfl⟩, rfl⟩
    refine Except.bind_eq_ok.mpr ⟨head, hn, Except.bind_eq_ok.mpr ⟨parts, ?_, rfl⟩⟩
    apply Except.mapM_eq_ok.mpr (hall.imp _)
    rintro _ part ⟨i, rfl, hi⟩
    apply hi
  · intro h
    obtain ⟨head, hn, h⟩ := Except.bind_eq_ok.mp h
    obtain ⟨parts, hparts, h⟩ := Except.bind_eq_ok.mp h
    obtain rfl := Except.ok.inj h
    use refs.length, head, parts.flatten, hn
    constructor
    · constructor
      · rfl
      use parts
      constructor
      · apply (Except.mapM_eq_ok.mp hparts).imp
        intro r part hr
        exact ⟨r.index, rfl, hr⟩
      · rfl
    · rfl

/-- Two parts of an object that are read and stored into a position one after the other. -/
theorem Fills.pair (slot : Slot α) (make : β → γ → α) {p : Reader β} {q : Reader γ}
    {encode : β → Except CodecError (List UInt8)} {encode' : γ → Except CodecError (List UInt8)}
    (hp : Accepts p fun x b => encode x = .ok b) (hq : Accepts q fun y b => encode' y = .ok b)
    {left : α → β} {right : α → γ} {first : β → α → α} {second : γ → α → α}
    (hleft : ∀ x y, left (make x y) = x) (hright : ∀ x y, right (make x y) = y)
    (hmake : ∀ a, make (left a) (right a) = a) (h : ∀ x y a, second y (first x a) = make x y)
    (i : Nat) :
  Fills (do
    let x ← Declarations.take p
    Declarations.store fun d => slot.set ((slot.get d).modify ⟨i⟩ (first x)) d
    let y ← Declarations.take q
    Declarations.store fun d => slot.set ((slot.get d).modify ⟨i⟩ (second y)) d)
    fun _ d d' b => ∃ a, (do return (← encode (left a)) ++ (← encode' (right a))) = Except.ok b
      ∧ d' = slot.set ((slot.get d).modify ⟨i⟩ fun _ => a) d
  := by
  apply (Fills.reads hp fun x _ _ => Fills.stores _ (Fills.reads hq fun y _ _ =>
    Fills.store _)).of_iff
  intro _ d d' b
  have stored : ∀ x y, slot.set ((slot.get (slot.set ((slot.get d).modify ⟨i⟩ (first x)) d)).modify
      ⟨i⟩ (second y)) (slot.set ((slot.get d).modify ⟨i⟩ (first x)) d)
        = slot.set ((slot.get d).modify ⟨i⟩ fun _ => make x y) d := by
    intro x y
    rw [slot.get_set, slot.set_set, Pool.modify_modify]
    simp only [h]
  simp only [stored]
  constructor
  · rintro ⟨x, head, _, hx, ⟨y, tail, _, hy, ⟨rfl, rfl⟩, rfl⟩, rfl⟩
    use make x y
    constructor
    · rw [hleft, hright, List.append_nil]
      exact Except.bind_eq_ok.mpr ⟨head, hx, Except.bind_eq_ok.mpr ⟨tail, hy, rfl⟩⟩
    · rfl
  · rintro ⟨a, ha, rfl⟩
    obtain ⟨head, hx, ha⟩ := Except.bind_eq_ok.mp ha
    obtain ⟨tail, hy, ha⟩ := Except.bind_eq_ok.mp ha
    obtain rfl := Except.ok.inj ha
    use left a, head, tail ++ [], hx
    constructor
    · use right a, tail, [], hy
      constructor
      · refine ⟨?_, rfl⟩
        rw [hmake]
      · rfl
    · rw [List.append_nil]

/-- Filling a field declaration is reading one and storing it in its place. -/
theorem fills_fillField (i : Nat) :
  Fills (fillField i) fun _ d d' b => ∃ f, encodeField f = .ok b
    ∧ d' = fieldSlot.set ((fieldSlot.get d).modify ⟨i⟩ fun _ => f) d
  := by
  apply Fills.pair fieldSlot FieldDecl.mk Decode.accepts_string Decode.accepts_string
  all_goals
    intros
    rfl

/-- Filling a struct declaration is reading one and storing it in its place. -/
theorem fills_fillStruct {fieldCount : Nat} (h : fieldCount ≤ 2 ^ 32) (i : Nat) :
  Fills (fillStruct fieldCount i) fun _ d d' b => ∃ s, encodeStruct fieldCount s = .ok b
    ∧ d' = structSlot.set ((structSlot.get d).modify ⟨i⟩ fun _ => s) d
  := by
  apply Fills.pair structSlot StructDecl.mk Decode.accepts_string (accepts_decodeRefs h)
  all_goals
    intros
    rfl

/-- Filling a region declaration is reading one and storing it in its place. -/
theorem fills_fillRegion {structCount : Nat} (h : structCount ≤ 2 ^ 32) (i : Nat) :
  Fills (fillRegion structCount i) fun _ d d' b => ∃ r, encodeRegion structCount r = .ok b
    ∧ d' = regionSlot.set ((regionSlot.get d).modify ⟨i⟩ fun _ => r) d
  := by
  apply Fills.pair regionSlot RegionDecl.mk Decode.accepts_string (accepts_decodeRefs h)
  all_goals
    intros
    rfl

/-- Filling a file declaration is reading one and storing it in its place. -/
theorem fills_fillSchemas {regionCount : Nat} (h : regionCount ≤ 2 ^ 32) (i : Nat) :
  Fills (fillSchemas regionCount i) fun _ d d' b => ∃ s, encodeSchemas regionCount s = .ok b
    ∧ d' = schemasSlot.set ((schemasSlot.get d).modify ⟨i⟩ fun _ => s) d
  := by
  apply (Fills.reads (accepts_decodeRefs h) fun _ _ _ => Fills.store _).of_iff
  intro _ d d' b
  constructor
  · rintro ⟨regions, _, _, hregions, ⟨rfl, rfl⟩, rfl⟩
    rw [List.append_nil]
    use ⟨regions⟩, hregions
    rfl
  · rintro ⟨⟨regions⟩, hregions, rfl⟩
    use regions, b, [], hregions
    constructor
    · exact ⟨rfl, rfl⟩
    · apply (List.append_nil b).symm

/-! ### All declarations -/

/-- The bytes of declarations are the four counts and then the four pools. -/
theorem serialize_eq_ok {d : Declarations} {b : List UInt8} :
  d.serialize = .ok b ↔ ∃ c₁ c₂ c₃ c₄ fields structs regions schemas,
    Encode.count d.fields.size = .ok c₁ ∧ Encode.count d.structs.size = .ok c₂
      ∧ Encode.count d.regions.size = .ok c₃ ∧ Encode.count d.schemas.size = .ok c₄
      ∧ encodeAll encodeField d.fields.toList = .ok fields
      ∧ encodeAll (encodeStruct d.fields.size) d.structs.toList = .ok structs
      ∧ encodeAll (encodeRegion d.structs.size) d.regions.toList = .ok regions
      ∧ encodeAll (encodeSchemas d.regions.size) d.schemas.toList = .ok schemas
      ∧ b = c₁ ++ (c₂ ++ (c₃ ++ (c₄ ++ (fields ++ (structs ++ (regions ++ schemas))))))
  := by
  constructor
  · intro h
    obtain ⟨counts, hcounts, h⟩ := Except.bind_eq_ok.mp h
    obtain ⟨fields, hfields, h⟩ := Except.bind_eq_ok.mp h
    obtain ⟨structs, hstructs, h⟩ := Except.bind_eq_ok.mp h
    obtain ⟨regions, hregions, h⟩ := Except.bind_eq_ok.mp h
    obtain ⟨schemas, hschemas, h⟩ := Except.bind_eq_ok.mp h
    obtain rfl := Except.ok.inj h
    obtain _ | ⟨h₁, _ | ⟨h₂, _ | ⟨h₃, _ | ⟨h₄, _ | _⟩⟩⟩⟩ := Except.mapM_eq_ok.mp hcounts
    refine ⟨_, _, _, _, _, _, _, _, h₁, h₂, h₃, h₄, Except.bind_eq_ok.mpr ⟨fields, hfields, rfl⟩,
      Except.bind_eq_ok.mpr ⟨structs, hstructs, rfl⟩,
      Except.bind_eq_ok.mpr ⟨regions, hregions, rfl⟩,
      Except.bind_eq_ok.mpr ⟨schemas, hschemas, rfl⟩, ?_⟩
    simp only [List.flatten_cons, List.flatten_nil, List.append_assoc, List.nil_append]
  · rintro ⟨c₁, c₂, c₃, c₄, _, _, _, _, h₁, h₂, h₃, h₄, hfields, hstructs, hregions, hschemas, rfl⟩
    obtain ⟨fields, mfields, ⟨⟩⟩ := Except.bind_eq_ok.mp hfields
    obtain ⟨structs, mstructs, ⟨⟩⟩ := Except.bind_eq_ok.mp hstructs
    obtain ⟨regions, mregions, ⟨⟩⟩ := Except.bind_eq_ok.mp hregions
    obtain ⟨schemas, mschemas, ⟨⟩⟩ := Except.bind_eq_ok.mp hschemas
    apply Except.bind_eq_ok.mpr
    use [c₁, c₂, c₃, c₄]
    constructor
    · apply Except.mapM_eq_ok.mpr (.cons h₁ (.cons h₂ (.cons h₃ (.cons h₄ .nil))))
    refine Except.bind_eq_ok.mpr ⟨fields, mfields, Except.bind_eq_ok.mpr ⟨structs, mstructs, ?_⟩⟩
    refine Except.bind_eq_ok.mpr ⟨regions, mregions, Except.bind_eq_ok.mpr ⟨schemas, mschemas, ?_⟩⟩
    apply congrArg Except.ok
    simp only [List.flatten_cons, List.flatten_nil, List.append_assoc, List.nil_append]

/-- Filling succeeds exactly on the bytes that the declarations are written as. -/
theorem fills_fill :
  Fills fill fun _ _ d' b => d'.serialize = .ok b
  := by
  have small : ∀ {n c}, Encode.count n = .ok c → n ≤ 2 ^ 32 := by
    intro n c h
    have top : maxCount = 2 ^ 31 - 1 := rfl
    have bound := Encode.le_maxCount_of_count h
    omega
  refine (Fills.reads Decode.accepts_count fun n₁ _ h₁ =>
    Fills.reads Decode.accepts_count fun n₂ _ h₂ =>
    Fills.reads Decode.accepts_count fun n₃ _ h₃ =>
    Fills.reads Decode.accepts_count fun n₄ _ _ =>
    Fills.stores _ <|
    (Fills.positions fieldSlot fills_fillField n₁).fillsIn <|
    (Fills.positions structSlot (fills_fillStruct (small h₁)) n₂).fillsIn <|
    (Fills.positions regionSlot (fills_fillRegion (small h₂)) n₃).fillsIn <|
    Fills.positions schemasSlot (fills_fillSchemas (small h₃)) n₄).of_iff ?_
  intro _ d d' b
  rw [serialize_eq_ok]
  constructor
  · rintro ⟨n₁, c₁, _, h₁, ⟨n₂, c₂, _, h₂, ⟨n₃, c₃, _, h₃, ⟨n₄, c₄, _, h₄,
      ⟨fields, fieldBytes, _, ⟨rfl, hfields⟩, ⟨structs, structBytes, _, ⟨rfl, hstructs⟩,
        ⟨regions, regionBytes, schemaBytes, ⟨rfl, hregions⟩, ⟨schemas, ⟨rfl, hschemas⟩, rfl⟩,
          rfl⟩, rfl⟩, rfl⟩, rfl⟩, rfl⟩, rfl⟩, rfl⟩
    simp only [fieldSlot, structSlot, regionSlot, schemasSlot, Pool.overwrite_replicate,
      Pool.size_ofList, Pool.toList_ofList]
    use c₁, c₂, c₃, c₄, fieldBytes, structBytes, regionBytes, schemaBytes, h₁, h₂, h₃, h₄, hfields,
      hstructs, hregions, hschemas
  · rintro ⟨c₁, c₂, c₃, c₄, fields, structs, regions, schemas, h₁, h₂, h₃, h₄, hfields, hstructs,
      hregions, hschemas, rfl⟩
    obtain ⟨fieldPool, structPool, regionPool, schemasPool⟩ := d'
    refine ⟨_, c₁, _, h₁, ⟨_, c₂, _, h₂, ⟨_, c₃, _, h₃, ⟨_, c₄, _, h₄,
      ⟨_, fields, _, ⟨Pool.length_toList _, hfields⟩,
        ⟨_, structs, _, ⟨Pool.length_toList _, hstructs⟩,
          ⟨_, regions, _, ⟨Pool.length_toList _, hregions⟩,
            ⟨_, ⟨Pool.length_toList _, hschemas⟩, ?_⟩, rfl⟩, rfl⟩, rfl⟩, rfl⟩, rfl⟩, rfl⟩, rfl⟩
    simp only [fieldSlot, structSlot, regionSlot, schemasSlot, Pool.overwrite_toList]

end Declarations

end PoolGraph
