import Sysmngr.Blobmsg
import Sysmngr.JsonValue
import Sysmngr.Upsert

/-!
# Attributes of JSON values

How the JSON functions of `libubox` fill a buffer. A name or a text ends at its first NUL,
a whole number takes 32 bits if it fits them and 64 if not, and of the values that an
object gives to one key the last stays, at the place of the first.
-/

namespace Sysmngr.Blobmsg
open Text Json Upsert

/-! ### Values -/

def isWhole (t : Str) : Bool := t.all fun c => c != '.' && c != 'e' && c != 'E'

def fits32 (z : ℤ) : Bool := decide (-2 ^ 31 ≤ z ∧ z < 2 ^ 31)

def addScalar (name : String) : Scalar → Attr
  | .null => .unspec name
  | .bool b => .bool name b
  | .string s => .string name (cstr s)
  | .number t =>
    if !isWhole t then .double name t
    else if fits32 (strtol t) then .int32 name (UInt32.ofNat (strtol t % 2 ^ 32).toNat)
    else .int64 name (UInt64.ofNat (strtol t % 2 ^ 64).toNat)

def keyName (f : Str × Value) : String := String.ofList (cstr f.1)

mutual

def blobmsgAddJsonElement (name : String) : Value → Attr
  | .scalar s => addScalar name s
  | .array items => .array name (addItems items)
  | .object fields => .table name (puts Attr.name (addFields fields))

def addItems : List Value → List Attr
  | [] => []
  | v :: rest => blobmsgAddJsonElement "" v :: addItems rest

def addFields : List (Str × Value) → List Attr
  | [] => []
  | (k, v) :: rest => blobmsgAddJsonElement (keyName (k, v)) v :: addFields rest

end

def blobmsgAddObject (fields : List (Str × Value)) : List Attr := puts Attr.name (addFields fields)

theorem addItems_eq (items : List Value) :
    addItems items = items.map (blobmsgAddJsonElement "") := by
  induction items with
  | nil => rfl
  | cons v rest ih => rw [addItems, ih, List.map_cons]

theorem addFields_eq (fields : List (Str × Value)) :
    addFields fields = fields.map fun f => blobmsgAddJsonElement (keyName f) f.2 := by
  induction fields with
  | nil => rfl
  | cons f rest ih =>
    obtain ⟨k, v⟩ := f
    rw [addFields, ih, List.map_cons]

def valueType : Value → BlobmsgType
  | .scalar .null => .unspec
  | .scalar (.bool _) => .bool
  | .scalar (.string _) => .string
  | .scalar (.number t) =>
    if !isWhole t then .double else if fits32 (strtol t) then .int32 else .int64
  | .array _ => .array
  | .object _ => .table

theorem addScalar_spec (name : String) (s : Scalar) :
    (addScalar name s).name = name ∧ (addScalar name s).type = valueType (.scalar s) ∧
      (addScalar name s).children = [] := by
  cases s with
  | number t =>
    rw [addScalar, valueType]
    split
    · exact ⟨rfl, rfl, rfl⟩
    · split <;> exact ⟨rfl, rfl, rfl⟩
  | _ => exact ⟨rfl, rfl, rfl⟩

theorem blobmsgAddJsonElement_name (name : String) (v : Value) :
    (blobmsgAddJsonElement name v).name = name := by
  cases v with
  | scalar s => exact (addScalar_spec name s).1
  | array items => rfl
  | object fields => rfl

theorem blobmsgAddJsonElement_type (name : String) (v : Value) :
    (blobmsgAddJsonElement name v).type = valueType v := by
  cases v with
  | scalar s => exact (addScalar_spec name s).2.1
  | array items => rfl
  | object fields => rfl

/-! ### Looking a field up -/

/-- The value of a key. -/
def valueAt (fields : List (Str × Value)) (name : String) : Option Value :=
  (lastPut keyName fields name).map Prod.snd

theorem lastPut_addFields (fields : List (Str × Value)) (name : String) :
    lastPut Attr.name (addFields fields) name =
      (valueAt fields name).map (blobmsgAddJsonElement name) := by
  rw [addFields_eq, lastPut, ← List.map_reverse, List.find?_map, valueAt, lastPut]
  have hname : ((fun a : Attr => decide (a.name = name)) ∘ fun f : Str × Value =>
      blobmsgAddJsonElement (keyName f) f.2) = fun f => decide (keyName f = name) := by
    funext f
    rw [Function.comp_apply, blobmsgAddJsonElement_name]
  rw [hname, Option.map_map]
  cases hfind : fields.reverse.find? fun f => decide (keyName f = name) with
  | none => rfl
  | some f =>
    have hkey : keyName f = name := by simpa using List.find?_some hfind
    simp only [Option.map_some, Function.comp_apply, hkey]

/-- The value of a key that must be of some type. -/
def fieldAt (fields : List (Str × Value)) (p : Policy) : Option Value :=
  (valueAt fields p.name).filter fun v => valueType v == p.type

theorem find_blobmsgAddObject (fields : List (Str × Value)) (p : Policy) (hp : p.type ≠ .unspec) :
    (blobmsgAddObject fields).find? p.accepts =
      (fieldAt fields p).map (blobmsgAddJsonElement p.name) := by
  have hfirst := find_puts_key Attr.name (addFields fields) p.name
  rw [lastPut_addFields] at hfirst
  have hnodup := nodup_puts Attr.name (addFields fields)
  have haccepts : p.accepts = fun a => (a.type == p.type) && decide (a.name = p.name) := by
    funext a
    have hspec : (p.type == BlobmsgType.unspec) = false := beq_eq_false_iff_ne.mpr hp
    rw [Policy.accepts, hspec, Bool.false_or]
    rfl
  rw [blobmsgAddObject, haccepts, find_and_key Attr.name _ _ _ hnodup, hfirst, Option.filter_map,
    fieldAt]
  have htype : ((fun a : Attr => a.type == p.type) ∘ blobmsgAddJsonElement p.name) =
      fun v => valueType v == p.type := by
    funext v
    rw [Function.comp_apply, blobmsgAddJsonElement_type]
  rw [htype]

/-- A lookup in any value; what is not an object has no named fields. -/
theorem find_children (name : String) (v : Value) (p : Policy) (hp : p.type ≠ .unspec)
    (hname : p.name ≠ "") :
    (blobmsgAddJsonElement name v).children.find? p.accepts =
      (fieldAt v.fields p).map (blobmsgAddJsonElement p.name) := by
  cases v with
  | scalar s =>
    rw [blobmsgAddJsonElement, (addScalar_spec name s).2.2]
    rfl
  | array items =>
    rw [blobmsgAddJsonElement, addItems_eq]
    have hnone : (items.map (blobmsgAddJsonElement "")).find? p.accepts = none := by
      rw [List.find?_eq_none]
      intro a ha haccepts
      obtain ⟨v, -, rfl⟩ := List.mem_map.mp ha
      rw [Policy.accepts, blobmsgAddJsonElement_name, Bool.and_eq_true, beq_iff_eq] at haccepts
      exact hname haccepts.2.symm
    exact hnone
  | object fields => exact find_blobmsgAddObject fields p hp

theorem children_items (name : String) (v : Value) (hv : valueType v ≠ .table) :
    (blobmsgAddJsonElement name v).children = v.items.map (blobmsgAddJsonElement "") := by
  cases v with
  | scalar s =>
    rw [blobmsgAddJsonElement, (addScalar_spec name s).2.2]
    rfl
  | array items =>
    rw [blobmsgAddJsonElement, addItems_eq]
    rfl
  | object fields => exact absurd rfl hv

/-- An object that is cut after its first attribute. -/
theorem find_take_one (fields : List (Str × Value)) (p : Policy) (hp : p.type ≠ .unspec) :
    ((blobmsgAddObject fields).take 1).find? p.accepts =
      if fields.head?.map keyName = some p.name then
        (fieldAt fields p).map (blobmsgAddJsonElement p.name)
      else none := by
  have hhead := head_puts Attr.name (addFields fields)
  have hkeys : (addFields fields).head?.map Attr.name = fields.head?.map keyName := by
    rw [addFields_eq, List.head?_map, Option.map_map]
    congr 1
    funext f
    exact blobmsgAddJsonElement_name _ _
  rw [← find_blobmsgAddObject fields p hp]
  rw [hkeys] at hhead
  have hnodup := nodup_puts Attr.name (addFields fields)
  unfold blobmsgAddObject
  cases hputs : puts Attr.name (addFields fields) with
  | nil => exact (ite_self none).symm
  | cons a rest =>
    rw [hputs, List.head?_cons, Option.map_some] at hhead
    rw [hputs, List.map_cons, List.nodup_cons] at hnodup
    rw [← hhead, List.take_succ_cons, List.take_zero, List.find?_cons, List.find?_cons,
      List.find?_nil]
    by_cases ha : a.name = p.name
    · -- no other attribute has the name of the first
      have hrest : rest.find? p.accepts = none := by
        rw [List.find?_eq_none]
        intro b hb haccepts
        rw [Policy.accepts, Bool.and_eq_true, beq_iff_eq] at haccepts
        exact hnodup.1 (ha.trans haccepts.2.symm ▸ List.mem_map_of_mem hb)
      rw [if_pos (congrArg some ha), hrest]
    · have hreject : p.accepts a = false := by
        rw [Policy.accepts, beq_eq_false_iff_ne.mpr ha, Bool.and_false]
      rw [if_neg fun h => ha (Option.some.inj h), hreject]

end Sysmngr.Blobmsg
