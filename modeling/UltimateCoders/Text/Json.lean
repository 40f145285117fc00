/-! # JSON texts

Values are written without blanks. In a string the quotation mark, the backslash and the
control characters are escaped, all else stands for itself.
-/

namespace Text

/-- A character as it stands in a string. -/
def escapeChar (char : Char) : List Char :=
  match char with
  | '\x22' => ['\\', '\x22']
  | '\\' => ['\\', '\\']
  | '\x08' => ['\\', 'b']
  | '\t' => ['\\', 't']
  | '\n' => ['\\', 'n']
  | '\x0c' => ['\\', 'f']
  | '\r' => ['\\', 'r']
  | char =>
    if char.toNat < 0x20 then
      ['\\', 'u', '0', '0', Nat.digitChar (char.toNat / 16), Nat.digitChar (char.toNat % 16)]
    else [char]

def jsonString (text : String) : String :=
  "\x22" ++ String.ofList (text.toList.flatMap escapeChar) ++ "\x22"

def jsonBool (value : Bool) : String := if value then "true" else "false"

def jsonArray (items : List String) : String := "[" ++ ",".intercalate items ++ "]"

/-- An object with its fields in the order that is given. -/
def jsonObject (fields : List (String × String)) : String :=
  "\x7b" ++ ",".intercalate (fields.map fun field => jsonString field.1 ++ ":" ++ field.2) ++ "\x7d"

example : jsonString "a\x22\n\x01" = "\x22a\\\x22\\n\\u0001\x22" := by decide +kernel

theorem utf8ByteSize_jsonBool_true_lt :
    (jsonBool true).utf8ByteSize < (jsonBool false).utf8ByteSize := by
  decide

/-- One item more does not make an array shorter. -/
theorem utf8ByteSize_jsonArray_concat_le (items : List String) (item : String) :
    (jsonArray items).utf8ByteSize ≤ (jsonArray (items ++ [item])).utf8ByteSize := by
  simp only [jsonArray, String.utf8ByteSize_append]
  by_cases empty : items = []
  · simp [empty]
  · rw [String.intercalate_append_of_ne_nil empty (by simp)]
    simp only [String.utf8ByteSize_append]
    omega

end Text
