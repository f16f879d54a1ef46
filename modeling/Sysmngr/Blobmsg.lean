import Sysmngr.Text

/-!
# Blob messages

Attributes as `libubox` builds them from JSON, and the lookup by policy.
-/

namespace Sysmngr.Blobmsg
open Text

inductive BlobmsgType where
  | unspec
  | array
  | table
  | string
  | int64
  | int32
  | bool
  | double
  deriving DecidableEq, Repr

/-- A named attribute; the entries of an array have the empty name. -/
inductive Attr where
  | unspec (name : String)
  | array (name : String) (items : List Attr)
  | table (name : String) (fields : List Attr)
  | string (name : String) (value : Str)
  | int64 (name : String) (value : UInt64)
  | int32 (name : String) (value : UInt32)
  | bool (name : String) (value : Bool)
  | double (name : String) (text : Str)

def Attr.name : Attr → String
  | .unspec n | .array n _ | .table n _ | .string n _ => n
  | .int64 n _ | .int32 n _ | .bool n _ | .double n _ => n

def Attr.type : Attr → BlobmsgType
  | .unspec _ => .unspec
  | .array _ _ => .array
  | .table _ _ => .table
  | .string _ _ => .string
  | .int64 _ _ => .int64
  | .int32 _ _ => .int32
  | .bool _ _ => .bool
  | .double _ _ => .double

def Attr.children : Attr → List Attr
  | .array _ items => items
  | .table _ fields => fields
  | _ => []

structure Policy where
  name : String
  type : BlobmsgType
  deriving DecidableEq, Repr

def Policy.accepts (p : Policy) (a : Attr) : Bool :=
  (p.type == .unspec || a.type == p.type) && a.name == p.name

theorem Policy.accepts_type (p : Policy) (a : Attr) (hp : p.type ≠ .unspec)
    (h : p.accepts a = true) : a.type = p.type := by
  simp only [Policy.accepts, Bool.and_eq_true, Bool.or_eq_true, beq_iff_eq] at h
  exact h.1.resolve_left hp

/-- `blobmsg_parse`: for each policy the first attribute of its name and type;
`none` when there is nothing to parse. -/
def blobmsgParse (policies : List Policy) (data : List Attr) : Option (List (Option Attr)) :=
  if data.isEmpty then none else some (policies.map fun p => data.find? p.accepts)

/-- `blobmsg_add_blob` appends the one attribute that starts at `data`. -/
def blobmsgAddBlob (buf data : List Attr) : List Attr := buf ++ data.take 1

end Sysmngr.Blobmsg
