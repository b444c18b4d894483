import OData.Form
import OData.Part

/-!
# Option texts

The texts of the six options as a request gives them.  An option that is not
given has an empty text.
-/

namespace OData

/-- The text of every option. -/
structure Options where
  filter : String := ""
  orderBy : String := ""
  top : String := ""
  skip : String := ""
  select : String := ""
  expand : String := ""
deriving DecidableEq

namespace Options

/-- The text of an option. -/
def get (options : Options) : Part → String
  | .filter => options.filter
  | .orderBy => options.orderBy
  | .top => options.top
  | .skip => options.skip
  | .select => options.select
  | .expand => options.expand

/-- Change the text of an option. -/
def set (options : Options) (part : Part) (text : String) : Options :=
  match part with
  | .filter => { options with filter := text }
  | .orderBy => { options with orderBy := text }
  | .top => { options with top := text }
  | .skip => { options with skip := text }
  | .select => { options with select := text }
  | .expand => { options with expand := text }

/-- Set the option with this key, if there is one. -/
def setKey (options : Options) (key text : String) : Options :=
  match Part.ofKey? key with
  | some part => options.set part text
  | none => options

/-- The options among key and value pairs.  Of several pairs with one key the
last counts. -/
def ofPairs (pairs : List (String × String)) : Options :=
  pairs.foldl (fun options pair => options.setKey pair.1 pair.2) {}

/-- The options of a query string, with or without its question mark. -/
def ofQueryString (text : String) : Options :=
  match text.toList with
  | '?' :: rest => ofPairs (Form.decode rest)
  | form => ofPairs (Form.decode form)

@[simp]
theorem get_empty (part : Part) : ({} : Options).get part = "" := by
  cases part <;> rfl

@[simp]
theorem get_set_self (options : Options) (part : Part) (text : String) :
    (options.set part text).get part = text := by
  cases part <;> rfl

theorem get_set_of_ne {options : Options} {part other : Part} {text : String}
    (differ : part ≠ other) : (options.set part text).get other = options.get other := by
  cases part <;> cases other <;> first | rfl | exact absurd rfl differ

end Options

end OData
