import Closures.Decimal.Text

/-!
# JSON values

`Json` is the type of JSON values with ordered fields. `compact` writes a value
on one line, `pretty` over several lines with an indent of two blanks.

Doubles are written by their shortest decimal: without an exponent from `1e-5`
up to below `1e16`, and then always with a point; with a signed exponent
otherwise. What JSON has no number for is written as `null`.
-/

set_option autoImplicit false

namespace Closures

/-- A JSON value. -/
inductive Json where
  | null
  | bool (value : Bool)
  | int (value : Int)
  | float (value : Float)
  | str (value : String)
  | arr (items : List Json)
  | obj (fields : List (String × Json))
deriving Inhabited

namespace Json

/-- A natural number as a JSON value. -/
def nat (n : Nat) : Json := int n

/-- A 32-bit number as a JSON value. -/
def u32 (n : UInt32) : Json := nat n.toNat

/-- `null` for an absent value. -/
def option {α : Type} (write : α → Json) : Option α → Json
  | none => null
  | some a => write a

/-- A list of written values. -/
def list {α : Type} (write : α → Json) (items : List α) : Json := arr (items.map write)

/-! ## Text -/

/-- A lower-case hexadecimal digit. -/
def hexDigit (n : Nat) : Char := if n < 10 then Char.ofNat (48 + n) else Char.ofNat (87 + n)

/-- A character inside a quoted text. -/
def escape (c : Char) : String :=
  if c = '"' then "\\\""
  else if c = '\\' then "\\\\"
  else if c = '\n' then "\\n"
  else if c = '\r' then "\\r"
  else if c = '\t' then "\\t"
  else if c.toNat = 8 then "\\b"
  else if c.toNat = 12 then "\\f"
  else if c.toNat < 32 then
    "\\u00" ++ String.ofList [hexDigit (c.toNat / 16), hexDigit (c.toNat % 16)]
  else c.toString

/-- A text in quotes. -/
def quoted (s : String) : String :=
  "\"" ++ s.foldl (fun acc c => acc ++ escape c) "" ++ "\""

/-- The least and the largest decimal exponent that is not written. -/
def plainExponents : Int × Int := (-5, 15)

/-- A double as a JSON number. -/
def floatText (x : Float) : String :=
  if !Binary64.isFinite x then "null"
  else
    let d := Binary64.decimal .even x
    let exponent := d.point - 1
    Binary64.signText x ++
      if d.digits = 0 then "0.0"
      else if plainExponents.1 ≤ exponent && exponent ≤ plainExponents.2 then
        if 0 ≤ d.exponent then d.positional ++ ".0" else d.positional
      else d.pointed ++ (if exponent < 0 then "e-" else "e+") ++ exponent.natAbs.repr

mutual

/-- A value on one line. -/
def compact : Json → String
  | null => "null"
  | bool true => "true"
  | bool false => "false"
  | int n => toString n
  | float x => floatText x
  | str s => quoted s
  | arr items => "[" ++ ",".intercalate (compactItems items) ++ "]"
  | obj fields => "\x7b" ++ ",".intercalate (compactFields fields) ++ "\x7d"

/-- Each item of a list on one line. -/
def compactItems : List Json → List String
  | [] => []
  | v :: vs => compact v :: compactItems vs

/-- Each field of an object on one line. -/
def compactFields : List (String × Json) → List String
  | [] => []
  | (k, v) :: fs => (quoted k ++ ":" ++ compact v) :: compactFields fs

end

/-- The start of a line at a depth of nesting. -/
def indent (depth : Nat) : String := "\n" ++ String.ofList (List.replicate (2 * depth) ' ')

/-- Lines between brackets, one level deeper than the brackets; none, and the brackets touch. -/
def bracketed (opening closing : String) (depth : Nat) : List String → String
  | [] => opening ++ closing
  | lines =>
    opening ++ indent (depth + 1) ++ ("," ++ indent (depth + 1)).intercalate lines
      ++ indent depth ++ closing

mutual

/-- A value over several lines, inside `depth` brackets. -/
def prettyAt (depth : Nat) : Json → String
  | null => "null"
  | bool true => "true"
  | bool false => "false"
  | int n => toString n
  | float x => floatText x
  | str s => quoted s
  | arr items => bracketed "[" "]" depth (prettyItems (depth + 1) items)
  | obj fields => bracketed "\x7b" "\x7d" depth (prettyFields (depth + 1) fields)

/-- Each item of a list. -/
def prettyItems (depth : Nat) : List Json → List String
  | [] => []
  | v :: vs => prettyAt depth v :: prettyItems depth vs

/-- Each field of an object. -/
def prettyFields (depth : Nat) : List (String × Json) → List String
  | [] => []
  | (k, v) :: fs => (quoted k ++ ": " ++ prettyAt depth v) :: prettyFields depth fs

end

/-- A value over several lines. -/
def pretty (v : Json) : String := prettyAt 0 v

end Json

end Closures
