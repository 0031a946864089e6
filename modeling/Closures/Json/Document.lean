import Closures.Json.Value

/-!
# Documents

A `Doc` is a JSON text as far as it could be read: every value with the place where it starts, and,
if the text breaks off or goes wrong, a `cut` where that happens. Reading never fails; what a flaw
means is decided when the document is used, because

* a value that is skipped is held to fewer rules than one that is used: its texts may hold half a
  surrogate pair, its numbers may be out of range, its nesting is not limited;
* of all flaws the first in the text counts, also when it is a value of the wrong kind.

Places are counted in characters from the start of the text.
-/

set_option autoImplicit false

namespace Closures

/-- What is wrong with a text. -/
inductive Flaw.Kind where
  /-- It ends too early. -/
  | ended
  /-- It is not JSON, or nested too deeply. -/
  | malformed
  /-- It is JSON, but not what was asked for. -/
  | unfit
deriving DecidableEq, Inhabited, Repr

/-- A flaw and where it was met. -/
structure Flaw where
  kind : Flaw.Kind
  pos : Nat
deriving DecidableEq, Inhabited, Repr

/-- A number as written. -/
inductive Numeral where
  /-- A whole number that fits 64 bits. -/
  | int (value : Int)
  /-- Any other number. -/
  | float (value : Float)
  /-- A number beyond every double. -/
  | huge
deriving Inhabited

/-- How a list or record ends. -/
inductive Doc.Close where
  /-- By its bracket. -/
  | sealed (pos : Nat)
  /-- By a flaw. -/
  | broken (flaw : Flaw)
deriving Inhabited

mutual

/-- A text as far as it could be read as a value. -/
inductive Doc where
  | null (pos : Nat)
  | bool (pos : Nat) (value : Bool)
  | number (pos : Nat) (value : Numeral)
  /-- A quoted text, or the place where half a surrogate pair stands in it. -/
  | text (pos : Nat) (value : Except Nat String)
  /-- A list; `deep` when it is nested beyond the limit. -/
  | list (pos : Nat) (deep : Bool) (items : List Doc) (close : Doc.Close)
  | record (pos : Nat) (deep : Bool) (entries : List Doc.Entry) (close : Doc.Close)
  /-- No value: how it starts, and the flaw that using or skipping it meets. -/
  | cut (pos : Nat) (lead : Option Char) (used skipped : Flaw)

/-- A field of a record. -/
structure Doc.Entry where
  /-- The comma before it, or its own start if it is the first. -/
  lead : Nat
  key : Doc
  value : Doc

end

namespace Doc

instance : Inhabited Doc := ⟨.null 0⟩

/-- Where a value starts. -/
def pos : Doc → Nat
  | .null p | .bool p _ | .number p _ | .text p _ | .list p _ _ _ | .record p _ _ _
  | .cut p _ _ _ => p

/-- A value that is missing because of a flaw. -/
def missing (flaw : Flaw) : Doc := .cut flaw.pos none flaw flaw

mutual

/-- The levels of nesting. -/
def height : Doc → Nat
  | .null _ => 1
  | .bool _ _ => 1
  | .number _ _ => 1
  | .text _ _ => 1
  | .cut _ _ _ _ => 1
  | .list _ _ items _ => heightItems items + 1
  | .record _ _ entries _ => heightEntries entries + 1

/-- The levels of nesting of the items of a list. -/
def heightItems : List Doc → Nat
  | [] => 0
  | d :: ds => max d.height (heightItems ds)

/-- The levels of nesting of the values of a record. -/
def heightEntries : List Entry → Nat
  | [] => 0
  | ⟨_, _, value⟩ :: es => max value.height (heightEntries es)

end

/-! ## Skipping -/

/-- The flaw at the end of a list or record. -/
def Close.flaw? : Close → Option Flaw
  | .sealed _ => none
  | .broken flaw => some flaw

/-- Where a list or record ends. -/
def Close.pos : Close → Nat
  | .sealed p => p
  | .broken flaw => flaw.pos

/-- The flaw of a key that must be a text, when it is skipped. -/
def skipKey? : Doc → Option Flaw
  | .text _ _ => none
  | .cut _ (some '"') _ skipped => some skipped
  | .cut _ none _ skipped => some skipped
  | d => some ⟨.malformed, d.pos⟩

mutual

/-- The flaw that skipping a value meets. -/
def skip? : Doc → Option Flaw
  | .null _ => none
  | .bool _ _ => none
  | .number _ _ => none
  | .text _ _ => none
  | .cut _ _ _ skipped => some skipped
  | .list _ _ items close => skipItems? items close
  | .record _ _ entries close => skipEntries? entries close

/-- The flaw that skipping the rest of a list meets. -/
def skipItems? : List Doc → Close → Option Flaw
  | [], close => close.flaw?
  | d :: ds, close => d.skip? <|> skipItems? ds close

/-- The flaw that skipping the rest of a record meets. -/
def skipEntries? : List Entry → Close → Option Flaw
  | [], close => close.flaw?
  | ⟨_, key, value⟩ :: es, close => key.skipKey? <|> value.skip? <|> skipEntries? es close

end

/-! ## Documents of values -/

mutual

/-- The JSON value of a whole document. None if it has flaws or a number beyond every double. -/
def toJson? : Doc → Option Json
  | .null _ => some .null
  | .bool _ b => some (.bool b)
  | .number _ (.int n) => some (.int n)
  | .number _ (.float x) => some (.float x)
  | .number _ .huge => none
  | .text _ (.ok s) => some (.str s)
  | .text _ (.error _) => none
  | .list _ _ items (.sealed _) => (toItems? items).map .arr
  | .list _ _ _ (.broken _) => none
  | .record _ _ entries (.sealed _) => (toFields? entries).map .obj
  | .record _ _ _ (.broken _) => none
  | .cut _ _ _ _ => none

/-- The JSON values of documents. -/
def toItems? : List Doc → Option (List Json)
  | [] => some []
  | d :: ds => do return (← toJson? d) :: (← toItems? ds)

/-- The fields of an object for entries. -/
def toFields? : List Entry → Option (List (String × Json))
  | [] => some []
  | ⟨_, .text _ (.ok key), value⟩ :: es => do return (key, ← toJson? value) :: (← toFields? es)
  | _ :: _ => none

end

mutual

/-- The document of a JSON value. All places are the start, for there is nothing
to report. What JSON has no number for is `null`. -/
def ofJson : Json → Doc
  | .null => .null 0
  | .bool b => .bool 0 b
  | .int n => .number 0 (.int n)
  | .float x => if Binary64.isFinite x then .number 0 (.float x) else .null 0
  | .str s => .text 0 (.ok s)
  | .arr items => .list 0 false (ofItems items) (.sealed 0)
  | .obj fields => .record 0 false (ofFields fields) (.sealed 0)

/-- The documents of a list of values. -/
def ofItems : List Json → List Doc
  | [] => []
  | v :: vs => ofJson v :: ofItems vs

/-- The entries for the fields of an object. -/
def ofFields : List (String × Json) → List Entry
  | [] => []
  | (k, v) :: fs => ⟨0, .text 0 (.ok k), ofJson v⟩ :: ofFields fs

end

end Doc

end Closures
