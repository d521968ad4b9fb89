/-
**JSON texts.**

The parser and the printer of JSON texts are those of a library, so what depends on them takes them
as a parameter.  A text that the printer makes of a value is read back as that value; where a proof
needs it, it says so for the values it prints.  For tests there is a parser that knows a few texts
only, with a printer for values that need no escapes.

Main definitions:

* `Json.SerdeJson` — a parser and a printer;
* `Json.SerdeJson.ReadsBack` — the parser reads back what the printer makes of a value;
* `Json.Value.compact`, `Json.SerdeJson.ofTexts` — a printer and a parser for tests.
-/

import SparklRouter.Text.Json

set_option relaxedAutoImplicit false
set_option autoImplicit false

namespace Json

/-- `serde_json::from_str` and `serde_json::to_string`, for values. -/
structure SerdeJson where
  fromStr : Text → Option Value
  toString : Value → Text

/-- The parser reads back what the printer makes of the value. -/
def SerdeJson.ReadsBack (json : SerdeJson) (v : Value) : Prop :=
  json.fromStr (json.toString v) = some v

/-! ### A printer and a parser for tests -/

def quoted (t : Text) : Text := '"' :: t ++ ['"']

def Number.compact : Number → Text
  | .posInt n => Nat.toDigits 10 n.toNat
  | .negInt i => '-' :: Nat.toDigits 10 i.natAbs
  | .float _ => "0.0".toList

mutual

/-- The text of a value without spaces. There are no escapes, and all floating-point numbers are
zero. -/
def Value.compact : Value → Text
  | .null => "null".toList
  | .bool b => if b then "true".toList else "false".toList
  | .number n => n.compact
  | .string s => quoted s
  | .array items => '[' :: Value.compactItems items ++ [']']
  | .object fields => '\x7b' :: Value.compactFields fields ++ ['\x7d']

def Value.compactItems : List Value → Text
  | [] => []
  | [v] => v.compact
  | v :: rest => v.compact ++ ',' :: Value.compactItems rest

def Value.compactFields : List (Σ _ : Text, Value) → Text
  | [] => []
  | [⟨name, v⟩] => quoted name ++ ':' :: v.compact
  | ⟨name, v⟩ :: rest => quoted name ++ ':' :: v.compact ++ ',' :: Value.compactFields rest

end

/-- The parser that knows the compact texts of these values. -/
def SerdeJson.ofTexts (known : List Value) : SerdeJson where
  fromStr t := known.find? fun v => v.compact = t
  toString := Value.compact

end Json
