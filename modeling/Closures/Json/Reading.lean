import Closures.Json.Reader

/-!
# Reading values out of documents

A `Reading` is a value or the first flaw that stood in its way. Readings combine as an applicative
that keeps, of two flaws, the one that stands earlier in the text; so the parts of a value may be
read in any order, and the flaw reported is still the first of the text.

* `Doc.record?` reads a record through a `Shape`: named fields, which may also be given as a list in
  the order of their names. Fields of other names are skipped.
* `Doc.variant` reads an alternative: its name alone, or a record with its name as the only key.
* `Doc.items` reads lists; the scalar readers are beside it.
-/

set_option autoImplicit false

namespace Closures

/-- A value, or the first flaw that stood in its way. -/
inductive Reading (α : Type) where
  | ok (value : α)
  | flawed (flaw : Flaw)
deriving Inhabited

namespace Reading

variable {α β : Type}

/-- Of two flaws the earlier; of two at one place the first. -/
def earlier (a b : Flaw) : Flaw := if b.pos < a.pos then b else a

/-- Apply a read function to a read argument. -/
def seq (f : Reading (α → β)) (x : Reading α) : Reading β :=
  match f, x with
  | .ok f, .ok a => .ok (f a)
  | .ok _, .flawed b => .flawed b
  | .flawed a, .ok _ => .flawed a
  | .flawed a, .flawed b => .flawed (earlier a b)

instance : Applicative Reading where
  pure := .ok
  seq f x := seq f (x ())

/-- A flaw of its own, to be held against other flaws. -/
def ofFlaw? : Option Flaw → Reading Unit
  | none => .ok ()
  | some flaw => .flawed flaw

/-- Go on with a value, or keep the flaw. -/
def bind (x : Reading α) (f : α → Reading β) : Reading β :=
  match x with
  | .ok a => f a
  | .flawed flaw => .flawed flaw

/-- Read each element of a list. -/
def list (read : β → Reading α) : List β → Reading (List α)
  | [] => pure []
  | b :: bs => List.cons <$> read b <*> list read bs

/-- The value, if there is one. -/
def toOption : Reading α → Option α
  | .ok a => some a
  | .flawed _ => none

end Reading

namespace Doc

variable {α : Type}

/-- The flaw of a value that stands where one of another kind is due. -/
def mismatch : Doc → Flaw
  | .number p .huge => ⟨.malformed, p⟩
  | .text _ (.error p) => ⟨.malformed, p⟩
  | .cut _ _ used _ => used
  | d => ⟨.unfit, d.pos⟩

/-- A value that does not fit although its kind does. -/
def unfit (d : Doc) : Reading α := .flawed ⟨.unfit, d.pos⟩

/-! ## Scalars -/

/-- A whole number. -/
def int : Doc → Reading Int
  | .number _ (.int n) => .ok n
  | d => .flawed d.mismatch

/-- A whole number between two bounds, both included. -/
def intBetween (low high : Int) (d : Doc) : Reading Int :=
  d.int.bind fun n => if low ≤ n ∧ n ≤ high then .ok n else d.unfit

/-- An unsigned 32-bit number. -/
def u32 (d : Doc) : Reading UInt32 :=
  (fun n => n.toNat.toUInt32) <$> d.intBetween 0 (UInt32.size - 1)

/-- A signed 32-bit number. -/
def i32 (d : Doc) : Reading Int32 :=
  Int32.ofInt <$> d.intBetween Int32.minValue.toInt Int32.maxValue.toInt

/-- A signed 64-bit number. -/
def i64 (d : Doc) : Reading Int64 :=
  Int64.ofInt <$> d.intBetween Int64.minValue.toInt Int64.maxValue.toInt

/-- The double nearest to a whole number that fits 64 bits. -/
def floatOfInt (n : Int) : Float :=
  if 0 ≤ n then n.toNat.toUInt64.toFloat else -(n.natAbs.toUInt64.toFloat)

/-- A number as a double. -/
def float : Doc → Reading Float
  | .number _ (.int n) => .ok (floatOfInt n)
  | .number _ (.float x) => .ok x
  | d => .flawed d.mismatch

/-- A truth value. -/
def boolean : Doc → Reading Bool
  | .bool _ b => .ok b
  | d => .flawed d.mismatch

/-- A text. -/
def string : Doc → Reading String
  | .text _ (.ok s) => .ok s
  | d => .flawed d.mismatch

/-- A text of one character. -/
def char (d : Doc) : Reading Char :=
  d.string.bind fun s =>
    match s.toList with
    | [c] => .ok c
    | _ => d.unfit

/-- `null`, or a value. -/
def orNull (read : Doc → Reading α) : Doc → Reading (Option α)
  | .null _ => .ok none
  | .cut _ (some 'n') used _ => .flawed used
  | d => some <$> read d

/-- A list. -/
def items (read : Doc → Reading α) : Doc → Reading (List α)
  | .list pos true _ _ => .flawed ⟨.malformed, pos⟩
  | .list _ false docs close =>
    (fun values _ => values) <$> Reading.list read docs <*> Reading.ofFlaw? close.flaw?
  | d => .flawed d.mismatch

/-! ## Alternatives -/

/-- How an alternative is written. -/
inductive Variant (α : Type) where
  /-- By its name. -/
  | plain (value : α)
  /-- By its name and what it carries. -/
  | carrying (read : Doc → Reading α)

/-- What an alternative carries: `null` if nothing. -/
def Variant.payload (v : Variant α) (d : Doc) : Reading α :=
  match v, d with
  | .plain a, .null _ => .ok a
  | .plain _, d => .flawed d.mismatch
  | .carrying read, d => read d

/-- The flaw of a record that should end after its first entry. -/
def afterOnly (rest : List Entry) (close : Close) : Option Flaw :=
  match rest with
  | [] => close.flaw?
  | e :: _ => some ⟨.malformed, e.lead⟩

/-- An alternative out of a table by name. -/
def variant (table : String → Option (Variant α)) : Doc → Reading α
  | .text pos (.ok name) =>
    match table name with
    | some (.plain a) => .ok a
    | some (.carrying _) | none => .flawed ⟨.unfit, pos⟩
  | .text _ (.error p) => .flawed ⟨.malformed, p⟩
  | .record pos true _ _ => .flawed ⟨.malformed, pos⟩
  | .record _ false [] (.sealed p) => .flawed ⟨.malformed, p⟩
  | .record _ false [] (.broken flaw) => .flawed flaw
  | .record _ false (⟨_, key, value⟩ :: rest) close =>
    key.string.bind fun name =>
      match table name with
      | none => key.unfit
      | some v => (fun a _ => a) <$> v.payload value <*> Reading.ofFlaw? (afterOnly rest close)
  | .cut _ none used _ => .flawed used
  | .cut _ (some '"') used _ => .flawed used
  | d => .flawed ⟨.malformed, d.pos⟩

/-- An alternative without anything carried, out of a list of names. -/
def choice (table : List (String × α)) : Doc → Reading α :=
  variant fun name => (table.lookup name).map .plain

/-! ## Records -/

/-- The fields of a record as found. -/
structure Fields where
  /-- What is given for a field. -/
  find : String → Option Doc
  /-- Where a missing field is noticed. -/
  stop : Nat
  /-- Given as a list: nothing may be left out but what has a default. -/
  positional : Bool

/-- A way to read records: the names of the fields in order, and how to put them together. -/
structure Shape (α : Type) where
  names : List String
  read : Fields → Reading α

namespace Shape

variable {β : Type}

instance : Applicative Shape where
  pure a := ⟨[], fun _ => .ok a⟩
  seq f x := ⟨f.names ++ (x ()).names, fun fs => Reading.seq (f.read fs) ((x ()).read fs)⟩

/-- A field that must be given. -/
def required (name : String) (read : Doc → Reading α) : Shape α :=
  ⟨[name], fun fs =>
    match fs.find name with
    | some d => read d
    | none => .flawed ⟨.unfit, fs.stop⟩⟩

/-- A field with a default. -/
def defaulted (name : String) (default : α) (read : Doc → Reading α) : Shape α :=
  ⟨[name], fun fs =>
    match fs.find name with
    | some d => read d
    | none => .ok default⟩

/-- A field that may be `null`, or left out of a record with named fields. -/
def optional (name : String) (read : Doc → Reading α) : Shape (Option α) :=
  ⟨[name], fun fs =>
    match fs.find name with
    | some d => d.orNull read
    | none => if fs.positional then .flawed ⟨.unfit, fs.stop⟩ else .ok none⟩

/-- A field that may be `null` or left out. -/
def absentable (name : String) (read : Doc → Reading α) : Shape (Option α) :=
  defaulted name none (orNull read)

end Shape

/-- The flaw of a key that must be a text, when it is used. -/
def keyFlaw? : Doc → Option Flaw
  | .text _ (.ok _) => none
  | .text _ (.error p) => some ⟨.malformed, p⟩
  | .cut _ (some '"') used _ => some used
  | .cut _ none used _ => some used
  | d => some ⟨.malformed, d.pos⟩

/-- The name that a key gives. -/
def keyName? : Doc → Option String
  | .text _ (.ok s) => some s
  | _ => none

/-- The first flaw of the entries of a record apart from those of its named
fields: a bad key, a name given twice, or a flaw in a skipped value. -/
def entriesFlaw? (names : List String) : List Entry → List String → Close → Option Flaw
  | [], _, close => close.flaw?
  | ⟨_, key, value⟩ :: rest, seen, close =>
    match key.keyName? with
    | none => key.keyFlaw?
    | some name =>
      if !names.contains name then value.skip? <|> entriesFlaw? names rest seen close
      else if seen.contains name then some ⟨.unfit, key.pos⟩
      else entriesFlaw? names rest (name :: seen) close

/-- The value of the first entry with a name. -/
def findEntry? (name : String) (entries : List Entry) : Option Doc :=
  (entries.find? fun e => e.key.keyName? == some name).map (·.value)

/-- The flaw of a list that gives more than the named fields, or is broken. -/
def surplus? (extra : List Doc) (close : Close) : Option Flaw :=
  match extra with
  | [] => close.flaw?
  | d :: _ => some ⟨.malformed, d.pos⟩

/-- Read a record. -/
def record? (shape : Shape α) : Doc → Reading α
  | .record pos true _ _ | .list pos true _ _ => .flawed ⟨.malformed, pos⟩
  | .record _ false entries close =>
    (fun _ a => a) <$> Reading.ofFlaw? (entriesFlaw? shape.names entries [] close)
      <*> shape.read ⟨fun name => findEntry? name entries, close.pos, false⟩
  | .list _ false docs close =>
    (fun _ a => a) <$> Reading.ofFlaw? (surplus? (docs.drop shape.names.length) close)
      <*> shape.read ⟨fun name => (shape.names.zip docs).lookup name, close.pos, true⟩
  | d => .flawed d.mismatch

/-- Read a whole text. -/
def readText (limit : Option Nat) (read : Doc → Reading α) (text : String) : Reading α :=
  let (d, trailing) := Doc.read limit text
  (fun a _ => a) <$> read d <*> Reading.ofFlaw? trailing

end Doc

end Closures
