/-!
Records in messages: a name, then its fields in braces, on one line or with one line per field.
-/

namespace Fieldbus

/-- A record to print: its name, and each field with the text of its value. -/
structure RecordText where
  /-- Name of the record. -/
  name : String
  /-- Fields in the order they are printed. -/
  fields : List (String × String)

namespace RecordText

/-- The record on one line. -/
def line (r : RecordText) : String :=
  r.name ++ " \x7b " ++ ", ".intercalate (r.fields.map fun (k, v) => k ++ ": " ++ v) ++ " \x7d"

/-- The record with one indented line per field, each closed by a comma. -/
def lines (r : RecordText) : String :=
  r.name ++ " \x7b\n" ++ String.join (r.fields.map fun (k, v) => "    " ++ k ++ ": " ++ v ++ ",\n")
    ++ "\x7d"

example : (RecordText.mk "P" [("x", "1"), ("y", "2")]).line = "P \x7b x: 1, y: 2 \x7d" := by
  decide +kernel

end RecordText
end Fieldbus
