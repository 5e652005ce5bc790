import Restyle.Json.Reading
import Restyle.Text.Quoted

/-!
Decoding: from a reading of a JSON text to a typed value. A decoder looks at the reading in the
order of the text and stops at the first complaint. It is given the number of nested values that may
still be entered.

A record is described by its fields (`Field`). It is decoded from an object, in which each field
stands at most once and unknown members are passed over, or from an array that holds the fields in
their order.
-/

namespace Restyle

/-- Decodes a reading; the number says how many levels may still be entered. -/
abbrev Decoder (α : Type) := Nat → Reading → Except Complaint α

namespace Decoder

/-- How many levels a text may be deep. -/
def maxDepth : Nat := 128

/-! ### Passing over -/

mutual

/-- The first complaint of who passes over a value. -/
def passOver : Reading → Option Complaint
  | .array items fault => (passOverItems items).orElse fun _ => fault.map Fault.lenient
  | .object members fault => (passOverMembers members).orElse fun _ => fault.map Fault.lenient
  | .broken _ fault => some fault.lenient
  | .unreached c => some c
  | _ => none

def passOverItems : List Reading → Option Complaint
  | [] => none
  | v :: vs => (passOver v).orElse fun _ => passOverItems vs

def passOverMembers : List (Except Complaint String × Reading) → Option Complaint
  | [] => none
  | (_, v) :: ms => (passOver v).orElse fun _ => passOverMembers ms

end

/-! ### Complaints about types -/

/-- What a complaint calls the value that it found. -/
def found : Reading → Except Complaint String
  | .null => .ok "null"
  | .bool b => .ok ("boolean `" ++ (if b then "true" else "false") ++ "`")
  | .number n =>
    n.map fun
      | .whole n => "integer `" ++ toString n ++ "`"
      | .real x => "floating point `" ++ x.scientific ++ "`"
  | .string s => s.map fun s => "string " ++ Text.quote s
  | .array .. => .ok "sequence"
  | .object .. => .ok "map"
  | .broken _ fault => .error fault.strict
  | .unreached c => .error c

/-- The complaint that a value is not what was expected. -/
def mismatch (expected : String) (r : Reading) : Complaint :=
  match found r with
  | .ok what => .invalidType what expected
  | .error c => c

/-- Enters a value, unless it lies too deep. -/
def enter {α : Type} (levels : Nat) (f : Nat → Except Complaint α) : Except Complaint α :=
  match levels with
  | 0 | 1 => .error .recursionLimit
  | levels + 1 => f levels

/-! ### Simple values -/

def string : Decoder String := fun _ r =>
  match r with
  | .string s => s
  | r => .error (mismatch "a string" r)

def bool : Decoder Bool := fun _ r =>
  match r with
  | .bool b => .ok b
  | r => .error (mismatch "a boolean" r)

/-- A value that may be `null`. -/
def nullable {α : Type} (d : Decoder α) : Decoder (Option α) := fun levels r =>
  match r with
  | .null => .ok none
  | r => (d levels r).map some

/-- A value that is made from a string under a rule of the domain. -/
def parsed {α : Type} (parse : String → Except String α) : Decoder α := fun levels r =>
  match string levels r with
  | .error c => .error c
  | .ok s => (parse s).mapError .custom

def items {α : Type} (d : Decoder α) (levels : Nat) : List Reading → Except Complaint (List α)
  | [] => .ok []
  | r :: rs =>
    match d levels r with
    | .error c => .error c
    | .ok a => (items d levels rs).map (a :: ·)

/-- An array of values. -/
def list {α : Type} (d : Decoder α) : Decoder (List α) := fun levels r =>
  match r with
  | .array rs fault =>
    enter levels fun levels =>
      match items d levels rs, fault with
      | .error c, _ => .error c
      | .ok _, some fault => .error fault.strict
      | .ok as, none => .ok as
  | r => .error (mismatch "a sequence" r)

def members {α : Type} (d : Decoder α) (levels : Nat) :
    List (Except Complaint String × Reading) → Except Complaint (List (String × α))
  | [] => .ok []
  | (.error c, _) :: _ => .error c
  | (.ok key, r) :: ms =>
    match d levels r with
    | .error c => .error c
    | .ok a => (members d levels ms).map ((key, a) :: ·)

/-- An object of like values, member by member. -/
def pairs {α : Type} (d : Decoder α) : Decoder (List (String × α)) := fun levels r =>
  match r with
  | .object ms fault =>
    enter levels fun levels =>
      match members d levels ms, fault with
      | .error c, _ => .error c
      | .ok _, some fault => .error fault.strict
      | .ok as, none => .ok as
  | r => .error (mismatch "a map" r)

/-! ### JSON values -/

mutual

/-- Any value. -/
def json : Decoder Json := fun levels r =>
  match r with
  | .null => .ok .null
  | .bool b => .ok (.bool b)
  | .number n => n.map .number
  | .string s => s.map .string
  | .array rs fault =>
    enter levels fun levels =>
      match jsonItems levels rs, fault with
      | .error c, _ => .error c
      | .ok _, some fault => .error fault.strict
      | .ok vs, none => .ok (.array vs)
  | .object ms fault =>
    enter levels fun levels =>
      match jsonMembers levels ms [], fault with
      | .error c, _ => .error c
      | .ok _, some fault => .error fault.strict
      | .ok vs, none => .ok (.object vs)
  | .broken _ fault => .error fault.strict
  | .unreached c => .error c

def jsonItems (levels : Nat) : List Reading → Except Complaint (List Json)
  | [] => .ok []
  | r :: rs =>
    match json levels r with
    | .error c => .error c
    | .ok v => (jsonItems levels rs).map (v :: ·)

/-- The members of an object, added to those that are there. -/
def jsonMembers (levels : Nat) :
    List (Except Complaint String × Reading) → List (String × Json) →
      Except Complaint (List (String × Json))
  | [], vs => .ok vs
  | (.error c, _) :: _, _ => .error c
  | (.ok key, r) :: ms, vs =>
    match json levels r with
    | .error c => .error c
    | .ok v => jsonMembers levels ms (Json.insert key v vs)

end

/-- An object of any values. -/
def jsonObject : Decoder (List (String × Json)) := fun levels r =>
  match r with
  | .object ms fault =>
    enter levels fun levels =>
      match jsonMembers levels ms [], fault with
      | .error c, _ => .error c
      | .ok _, some fault => .error fault.strict
      | .ok vs, none => .ok vs
  | r => .error (mismatch "a map" r)

/-! ### Enumerations -/

/-- A constructor without fields, written as its name or as an object from its name to `null`. -/
def enumeration {α : Type} (cases : List (String × α)) : Decoder α := fun levels r =>
  let pick (name : Except Complaint String) : Except Complaint α :=
    match name with
    | .error c => .error c
    | .ok name =>
      match cases.find? fun c => c.1 = name with
      | some (_, a) => .ok a
      | none => .error (.unknownVariant name (cases.map Prod.fst))
  match r with
  | .string s => pick s
  | .object [] fault =>
    enter levels fun _ => .error ((fault.map Fault.strict).getD .expectedValue)
  | .object ((name, content) :: more) fault =>
    enter levels fun _ =>
      match pick name with
      | .error c => .error c
      | .ok a =>
        match content with
        | .null =>
          if !more.isEmpty then .error .expectedValue
          else
            match fault with
            | none => .ok a
            | some ⟨.eofObject, _⟩ => .error .eofObject
            | some _ => .error .expectedValue
        | r => .error (mismatch "unit" r)
  | .broken true fault => .error fault.strict
  | .unreached c => .error c
  | _ => .error .expectedValue

/-! ### Records -/

/-- A field of a record that is being put together in a `σ`. -/
structure Field (σ : Type) where
  /-- The names that the field goes by; the first is its own. -/
  names : List String
  isSet : σ → Bool
  decode : Nat → Reading → σ → Except Complaint σ
  /-- What becomes of the record if the text lacks the field; `none` if it must not. -/
  absent : Option (σ → σ)
  /-- Whether the field may also be lacking at the end of an array. -/
  optionalInArray : Bool

/-- A kind of record: its name and its fields in order. -/
structure Record (σ : Type) where
  name : String
  fields : List (Field σ)

namespace Record

variable {σ : Type}

/-- Decodes members into a record. -/
def members (record : Record σ) (levels : Nat) :
    List (Except Complaint String × Reading) → σ → Except Complaint σ
  | [], s => .ok s
  | (.error c, _) :: _, _ => .error c
  | (.ok key, r) :: ms, s =>
    match record.fields.find? fun f => f.names.contains key with
    | none =>
      match passOver r with
      | some c => .error c
      | none => members record levels ms s
    | some f =>
      if f.isSet s then .error (.duplicateField (f.names.headD ""))
      else
        match f.decode levels r s with
        | .error c => .error c
        | .ok s => members record levels ms s

/-- Settles the fields that the members did not set. -/
def settle : List (Field σ) → σ → Except Complaint σ
  | [], s => .ok s
  | f :: fs, s =>
    if f.isSet s then settle fs s
    else
      match f.absent with
      | some set => settle fs (set s)
      | none => .error (.missingField (f.names.headD ""))

/-- Decodes the items of an array into the fields in order. -/
def inOrder (name : String) (total : Nat) (levels : Nat) (fault : Option Fault) :
    Nat → List (Field σ) → List Reading → σ → Except Complaint σ
  | _, [], [], s =>
    match fault with
    | none => .ok s
    | some ⟨.expectedListEnd, _⟩ | some ⟨.eofValue, _⟩ => .error .trailingCharacters
    | some fault => .error fault.strict
  | _, [], _ :: _, _ => .error .trailingCharacters
  | count, f :: fs, [], s =>
    match fault with
    | some fault => .error fault.strict
    | none =>
      match f.optionalInArray, f.absent with
      | true, some set => inOrder name total levels fault (count + 1) fs [] (set s)
      | _, _ =>
        .error (.invalidLength count ("struct " ++ name ++ " with " ++ toString total ++
          (if total = 1 then " element" else " elements")))
  | count, f :: fs, r :: rs, s =>
    match f.decode levels r s with
    | .error c => .error c
    | .ok s => inOrder name total levels fault (count + 1) fs rs s

/-- Decodes a record, starting from `empty`. -/
def decode (record : Record σ) (empty : σ) : Decoder σ := fun levels r =>
  match r with
  | .object ms fault =>
    enter levels fun levels =>
      match members record levels ms empty, fault with
      | .error c, _ => .error c
      | .ok _, some fault => .error fault.strict
      | .ok s, none => settle record.fields s
  | .array rs fault =>
    enter levels fun levels =>
      inOrder record.name record.fields.length levels fault 0 record.fields rs empty
  | r => .error (mismatch ("struct " ++ record.name) r)

end Record

namespace Field

variable {σ α : Type}

/-- A field that must be there. -/
def required (name : String) (get : σ → Option α) (set : α → σ → σ) (d : Decoder α) : Field σ where
  names := [name]
  isSet s := (get s).isSome
  decode levels r s := (d levels r).map fun a => set a s
  absent := none
  optionalInArray := false

/-- A field that takes a value of its own if it is not there. -/
def defaulted (name : String) (value : α) (get : σ → Option α) (set : α → σ → σ) (d : Decoder α) :
    Field σ where
  names := [name]
  isSet s := (get s).isSome
  decode levels r s := (d levels r).map fun a => set a s
  absent := some (set value)
  optionalInArray := true

/-- The same field, which goes by one more name. -/
def withName (f : Field σ) (name : String) : Field σ :=
  { f with names := f.names ++ [name] }

end Field

/-! ### Texts -/

/-- Decodes a whole text. -/
def text {α : Type} (d : Decoder α) (json : String) : Except Complaint α :=
  let document := Reading.ofText json
  match d maxDepth document.value with
  | .error c => .error c
  | .ok a => if document.more then .error .trailingCharacters else .ok a

end Decoder

end Restyle
