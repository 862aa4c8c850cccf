/-
The text that shows how a value is built: a constructor's name with its argument in
parentheses, or with its named fields in braces.
-/
namespace LineCalc.Inspect

/-- A constructor with one unnamed argument: `Name(argument)`. -/
def applied (name argument : String) : String := name ++ "(" ++ argument ++ ")"

/-- A constructor with named fields, in order. -/
def record (name : String) (fields : List (String × String)) : String :=
  let texts := fields.map fun (field, text) => field ++ ": " ++ text
  name ++ " \x7b " ++ ", ".intercalate texts ++ " \x7d"

end LineCalc.Inspect
