import PicBoard.Json.Basic

/-!
# Records as JSON

A record may be an object, whose members may come in any order, or an array of its fields in
order.  Members that the record does not know are passed over; a known member given twice is
refused.  At the end of an array only fields with a default may be missing.
-/

namespace PicBoard.Json

/-! ## Plain values -/

/-- A value that is a text. -/
def toText? : Json → Option String
  | .string s => Bytes.toText? s
  | _ => none

/-- A value that is a signed 64-bit integer. -/
def toInt64? : Json → Option Int64
  | .number (.integer n) =>
    if Int64.minValue.toInt ≤ n ∧ n ≤ Int64.maxValue.toInt then some (Int64.ofInt n) else none
  | _ => none

/-- A value that is an array of values of one kind. -/
def toList? {α : Type} (item : Json → Option α) : Json → Option (List α)
  | .array items => items.mapM item
  | _ => none

/-- A value that may be null. -/
def toOption? {α : Type} (item : Json → Option α) : Json → Option (Option α)
  | .null => some none
  | j => (item j).map some

/-! ## Texts by name -/

/-- The entries without those that an entry of the same name follows directly. -/
def lastOfEach : List (String × String) → List (String × String)
  | [] => []
  | [e] => [e]
  | e :: e' :: rest => if e.1 = e'.1 then lastOfEach (e' :: rest) else e :: lastOfEach (e' :: rest)

/-- A value that is an object of texts, in ascending order of names.  Of members with one name
the last counts: sorting keeps the order of such members. -/
def toEntries? : Json → Option (List (String × String))
  | .object members => do
    let entries ← members.mapM fun (k, v) => do
      let k ← Bytes.toText? k
      let v ← v.toText?
      return (k, v)
    return lastOfEach (entries.mergeSort fun e e' => e.1 ≤ e'.1)
  | _ => none

/-- Texts by name as a value. -/
def ofEntries (entries : List (String × String)) : Json :=
  ofFields (entries.map fun (k, v) => (k, ofText v))

/-! ## Fields of records -/

/-- What a JSON value gives for one field of a record. -/
inductive Slot where
  | value (j : Json)
  /-- An object without such a member. -/
  | unnamed
  /-- An array that ends before the field. -/
  | beyondEnd
deriving Repr

namespace Slot

/-- A field that must be given. -/
def required {α : Type} (item : Json → Option α) : Slot → Option α
  | .value j => item j
  | _ => none

/-- A field that has a value when it is not given. -/
def withDefault {α : Type} (item : Json → Option α) (default : α) : Slot → Option α
  | .value j => item j
  | _ => some default

/-- A field that may be null, or missing from an object. -/
def nullable {α : Type} (item : Json → Option α) : Slot → Option (Option α)
  | .value j => toOption? item j
  | .unnamed => some none
  | .beyondEnd => none

/-- A field that may be null or missing. -/
def optional {α : Type} (item : Json → Option α) : Slot → Option (Option α)
  | .value j => toOption? item j
  | _ => some none

end Slot

/-- Takes in the members of an object in turn: each goes to the slot of its name, which must be
free. -/
def fillSlots (names : List Bytes) : List (Bytes × Json) → List Slot → Option (List Slot)
  | [], slots => some slots
  | (k, v) :: members, slots =>
    if (Bytes.toText? k).isNone then none
    else
      match names.idxOf? k with
      | none => fillSlots names members slots
      | some i =>
        match slots[i]? with
        | some .unnamed => fillSlots names members (slots.set i (.value v))
        | _ => none

/-- The slots of a record with these field names. -/
def slots? (names : List String) : Json → Option (List Slot)
  | .object members =>
    fillSlots (names.map Bytes.ofText) members (names.map fun _ => .unnamed)
  | .array items =>
    if names.length < items.length then none
    else
      some (items.map .value ++ List.replicate (names.length - items.length) .beyondEnd)
  | _ => none

end PicBoard.Json
