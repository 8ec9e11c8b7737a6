import RecordLogic.Model.Basic

/-!
# Names of types

A scalar name in any case, followed by question marks for nullable types and brackets for arrays, with
blanks around every part.
-/

namespace RecordLogic.ValueType

open Text

/-- A scalar type by one of its names in small letters. -/
def scalar? (name : String) : Option ValueType :=
  match name with
  | "bool" | "boolean" => some .bool
  | "i8" | "sbyte" => some (.number .i8)
  | "u8" | "byte" => some (.number .u8)
  | "i16" | "short" => some (.number .i16)
  | "u16" | "ushort" => some (.number .u16)
  | "i32" | "int" => some (.number .i32)
  | "u32" | "uint" => some (.number .u32)
  | "i64" | "long" => some (.number .i64)
  | "u64" | "ulong" => some (.number .u64)
  | "f32" | "float" => some (.number .f32)
  | "f64" | "double" => some (.number .f64)
  | "decimal" => some (.number .decimal)
  | "string" => some .string
  | "datetime" => some .dateTime
  | "timespan" => some .timeSpan
  | "guid" | "uuid" => some .guid
  | _ => none

/-- A name from its last character to its first; a name that is none comes back without its suffixes. -/
def readReversed (cs : List Char) : Except String ValueType :=
  match _h : trimStart (trimStart cs.reverse).reverse with
  | ']' :: '[' :: rest => (readReversed rest).map .array
  | '?' :: rest => (readReversed rest).map orNull
  | cs =>
    let name := String.ofList cs.reverse
    match scalar? (String.ofList (cs.reverse.map Char.toLower)) with
    | some t => .ok t
    | none => .error name
termination_by cs.length
decreasing_by
  all_goals
    have h₁ : (trimStart (trimStart cs.reverse).reverse).length ≤ cs.length := by
      have a := (List.dropWhile_suffix isBlank (l := (trimStart cs.reverse).reverse)).length_le
      have b := (List.dropWhile_suffix isBlank (l := cs.reverse)).length_le
      simp only [trimStart, List.length_reverse] at a b ⊢
      omega
    rw [_h] at h₁
    simp only [List.length_cons] at h₁
    omega

def ofName (name : String) : Except String ValueType := readReversed name.toList.reverse

end RecordLogic.ValueType
