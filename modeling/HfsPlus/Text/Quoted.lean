import HfsPlus.Text.Number
import HfsPlus.Text.Printable

/-!
# Texts of values, for inspection

How a value is shown so that its structure stays visible: a text in quotes with
everything that would not show spelled out, a list in brackets, a structure as
its name and named fields, an alternative as its name and what it carries.
-/

namespace HfsPlus.Text

/-- One character inside quotes. Quote and backslash are escaped, the common
controls have short names, and what does not show as itself is written by its
number in hexadecimal. -/
def quotedChar (char : Char) : String :=
  match char with
  | '\x00' => "\\0"
  | '\t' => "\\t"
  | '\r' => "\\r"
  | '\n' => "\\n"
  | '"' => "\\\""
  | '\\' => "\\\\"
  | char =>
    if Printable.isPlain char then char.toString
    else "\\u\x7b" ++ String.ofList (digitsIn 16 char.toNat) ++ "\x7d"

/-- A text in quotes. -/
def quoted (text : String) : String :=
  "\"" ++ String.join (text.toList.map quotedChar) ++ "\""

/-- Items in brackets. -/
def listed (items : List String) : String := "[" ++ ", ".intercalate items ++ "]"

/-- A structure: its name and its fields in order. -/
def structured (name : String) (fields : List (String × String)) : String :=
  name ++ " \x7b " ++ ", ".intercalate (fields.map fun (field, value) => field ++ ": " ++ value)
    ++ " \x7d"

/-- An alternative and the values it carries. -/
def tagged (name : String) (values : List String) : String :=
  name ++ "(" ++ ", ".intercalate values ++ ")"

/-- A value that may be absent. -/
def optional : Option String → String
  | none => "None"
  | some value => tagged "Some" [value]

end HfsPlus.Text
