import Mathlib.Data.Int.Notation
import Mathlib.Data.List.Basic

/-!
# Values of JavaScript

The values that `JSON.parse` makes, with the conversions `String`, `Boolean` and `BigInt`.  A number
is kept as the text that `String` makes of it, so that nothing here depends on how numbers are
rounded; of an object only that it is one is kept.
-/

namespace Js

inductive Value
  | null
  | bool (b : Bool)
  | num (text : String)
  | str (s : String)
  | arr (items : List Value)
  | obj

namespace Value

mutual

/-- `String(value)`. -/
def text : Value → String
  | .null => "null"
  | .bool b => if b then "true" else "false"
  | .num t => t
  | .str s => s
  | .arr items => join items
  | .obj => "[object Object]"

/-- `items.join()`, where `null` is empty. -/
def join : List Value → String
  | [] => ""
  | [.null] => ""
  | [v] => text v
  | .null :: items => "," ++ join items
  | v :: items => text v ++ "," ++ join items

end

/-- `Boolean(value)`. -/
def truthy : Value → Bool
  | .null => false
  | .bool b => b
  | .num t => t != "0" && t != "NaN"
  | .str s => s != ""
  | .arr _ | .obj => true

/-- `value ?? other`. -/
def orElse (v other : Value) : Value :=
  match v with
  | .null => other
  | v => v

/-- `value[i]` of an array; what is not there is `undefined`, which behaves like `null` here. -/
def item (items : List Value) (i : ℕ) : Value := items[i]?.getD .null

end Value

/-- The white space and line ends that `BigInt` trims. -/
def isSpace (c : Char) : Bool :=
  c.toNat ∈ [9, 10, 11, 12, 13, 32, 160, 5760, 8232, 8233, 8239, 8287, 12288, 65279] ||
    (8192 ≤ c.toNat && c.toNat ≤ 8202)

/-- The value of a digit, of a base up to 16. -/
def digit (base : ℕ) (c : Char) : Option ℕ :=
  let value :=
    if '0' ≤ c ∧ c ≤ '9' then some (c.toNat - '0'.toNat)
    else if 'a' ≤ c ∧ c ≤ 'f' then some (c.toNat - 'a'.toNat + 10)
    else if 'A' ≤ c ∧ c ≤ 'F' then some (c.toNat - 'A'.toNat + 10)
    else none
  value.filter (· < base)

/-- The number that some digits write, at least one. -/
def digits (base : ℕ) : List Char → Option ℕ
  | [] => none
  | cs => cs.foldlM (fun n c => (digit base c).map fun d => n * base + d) 0

/-- `BigInt(s)` of a string; `none` is a `SyntaxError`. -/
def bigInt (s : String) : Option ℤ :=
  match ((s.toList.dropWhile isSpace).reverse.dropWhile isSpace).reverse with
  | [] => some 0
  | '0' :: 'x' :: cs | '0' :: 'X' :: cs => (digits 16 cs).map Int.ofNat
  | '0' :: 'o' :: cs | '0' :: 'O' :: cs => (digits 8 cs).map Int.ofNat
  | '0' :: 'b' :: cs | '0' :: 'B' :: cs => (digits 2 cs).map Int.ofNat
  | '+' :: cs => (digits 10 cs).map Int.ofNat
  | '-' :: cs => (digits 10 cs).map fun n => -(n : ℤ)
  | cs => (digits 10 cs).map Int.ofNat

example : bigInt " -12 " = some (-12) := by decide

example : bigInt "1e21" = none := by decide

end Js
