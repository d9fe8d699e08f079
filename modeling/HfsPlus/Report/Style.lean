import HfsPlus.Structure.Fork
import HfsPlus.Structure.Volume
import HfsPlus.Text.Size

/-!
# The look of reports

A report is a heading and fields below it. A field is a label in a column of 24
characters and a value; what belongs to a field stands below it, further in.
Headings and labels may be painted, which is never counted as width.
-/

namespace HfsPlus.Report

/-- Whether reports are painted. -/
structure Style where
  color : Bool
  deriving DecidableEq, Repr

/-- What a piece of text is painted as. -/
inductive Paint where
  | heading
  | label
  | record
  deriving DecidableEq, Repr

/-- The terminal's number for a paint. -/
def Paint.code : Paint → String
  | heading => "1;34"
  | label => "1;36"
  | record => "1;33"

/-- The width of the column of labels. -/
def labelWidth : Nat := 24

namespace Style

/-- A piece of text, painted if the style asks for it. -/
def paint (style : Style) (paint : Paint) (text : String) : String :=
  if style.color then "\x1b[" ++ paint.code ++ "m" ++ text ++ "\x1b[0m" else text

/-- A heading on a line of its own. -/
def heading (style : Style) (text : String) : String := style.paint .heading text ++ "\n"

/-- A field on a line of its own. -/
def field (style : Style) (label value : String) : String :=
  "  " ++ style.paint .label (Text.padRight labelWidth label) ++ " " ++ value ++ "\n"

/-- Fields, each on its line. -/
def fields (style : Style) (fields : List (String × String)) : String :=
  String.join (fields.map fun (label, value) => style.field label value)

end Style

/-- A date with its seconds since 1970. -/
def date (value : UInt32) : String :=
  match unixTime value with
  | some seconds => s!"{value} (unix {seconds})"
  | none => "never"

/-- A number in hexadecimal with the names of the bits that are set in it. -/
def flags (value : UInt32) (names : List (UInt32 × String)) : String :=
  match (names.filter fun (bit, _) => value &&& bit != 0).map (·.2) with
  | [] => Text.hex value.toNat
  | set => Text.hex value.toNat ++ " (" ++ ", ".intercalate set ++ ")"

/-- A fork's data: a field, and a line for each run in use. -/
def forkData (style : Style) (label : String) (data : ForkData) : String :=
  let runs := data.extents.used.zipIdx.map fun (extent, index) =>
    s!"    extent {index}: start {extent.startBlock} count {extent.blockCount}\n"
  style.field label
    s!"{Text.size data.logicalSize.toNat} ({data.totalBlocks} blocks, clump {data.clumpSize})" ++
    String.join runs

end HfsPlus.Report
