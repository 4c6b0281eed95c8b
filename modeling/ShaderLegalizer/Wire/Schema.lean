import ShaderLegalizer.Wire.Mismatch

/-!
How data are read from JSON values and written to them. A `Codec` does both for one type. A record
is described by a `Schema`: its fields in declaration order, each with a key, a codec and its place
in the record. From that one description follow the object form, the positional array form and the
written form.
-/

set_option autoImplicit false

namespace ShaderLegalizer.Wire

structure Codec (α : Type) where
  read : Json → Except Mismatch α
  write : α → Json

namespace Codec

def refuse {α : Type} (v : Json) (want : Want) : Except Mismatch α :=
  .error (.wrongType (.ofJson v) want)

def u32 : Codec UInt32 where
  read
    | .num (.integer n) =>
      if 0 ≤ n ∧ n ≤ 0xFFFFFFFF then .ok (UInt32.ofNat n.toNat) else .error (.outOfRange n)
    | v => refuse v .u32
  write n := .num (.integer n.toNat)

def text : Codec String where
  read
    | .str s => .ok s
    | v => refuse v .text
  write s := .str s

def flag : Codec Bool where
  read
    | .bool b => .ok b
    | v => refuse v .flag
  write b := .bool b

def list {α : Type} (c : Codec α) : Codec (List α) where
  read
    | .arr items => items.mapM c.read
    | v => refuse v .sequence
  write as := .arr (as.map c.write)

def optional {α : Type} (c : Codec α) : Codec (Option α) where
  read
    | .null => .ok none
    | v => (c.read v).map some
  write
    | none => .null
    | some a => c.write a

def through {α β : Type} (c : Codec α) (decode : α → β) (encode : β → α) : Codec β where
  read v := (c.read v).map decode
  write b := c.write (encode b)

end Codec

structure Field (α : Type) where
  key : String
  {Carrier : Type}
  codec : Codec Carrier
  get : α → Carrier
  set : Carrier → α → α

def Field.store {α : Type} (f : Field α) (v : Json) (a : α) : Except Mismatch α :=
  (f.codec.read v).map fun c => f.set c a

def Field.member {α : Type} (f : Field α) (a : α) : String × Json :=
  (f.key, f.codec.write (f.get a))

structure Schema (α : Type) where
  name : String
  blank : α
  fields : List (Field α)

namespace Schema

variable {α : Type}

def field? (s : Schema α) (key : String) : Option (Field α) :=
  s.fields.find? fun f => f.key == key

/-- Reads one member of an object. A member of no field is passed over. -/
def storeMember (s : Schema α) (a : α) (m : String × Json) : Except Mismatch α :=
  match s.field? m.1 with
  | some f => f.store m.2 a
  | none => .ok a

/-- Reads the elements of an array into the fields, in declaration order. Fields beyond the end of
the array stay as they are; elements beyond the last field are given back. -/
def storeItems : List (Field α) → List Json → α → Except Mismatch (α × List Json)
  | f :: fs, v :: vs, a => do
    let b ← f.store v a
    storeItems fs vs b
  | [], vs, a => .ok (a, vs)
  | _ :: _, [], a => .ok (a, [])

def read (s : Schema α) : Json → Except Mismatch α
  | .obj members => members.foldlM s.storeMember s.blank
  | .arr items => do
    let (a, rest) ← storeItems s.fields items s.blank
    if rest.isEmpty then .ok a else .error (.tooLong items.length)
  | v => Codec.refuse v (.record s.name)

/-- The object form, fields in declaration order, null members left out. -/
def write (s : Schema α) (a : α) : Json :=
  .obj ((s.fields.map fun f => f.member a).filter fun m => !m.2.isNull)

def codec (s : Schema α) : Codec α where
  read := s.read
  write := s.write

end Schema

end ShaderLegalizer.Wire
