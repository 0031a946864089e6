import Closures.Decimal.Read
import Closures.Text.Split

/-!
# Configuration files

A reader for configuration files in the TOML format: tables with headers, dotted
and quoted keys, texts, numbers, truth values, times, lists and inline tables. A
key is set once, and a table is opened once. Of numbers and times only the form
and the range are checked and nothing is kept.

* `Toml` is what a file says;
* `Toml.Scan` reads from the front of a text;
* `Toml.Table.insert`, `Toml.Table.openTable` and `Toml.Table.openElement` put
  the lines of a file together.
-/

set_option autoImplicit false

namespace Closures

/-- How a table came to be. -/
inductive Toml.Origin where
  /-- By a header of its own. -/
  | header
  /-- By the header of a table inside it. -/
  | inner
  /-- By a dotted key. -/
  | dotted
  /-- In braces. -/
  | inline
deriving DecidableEq, Repr, Inhabited

/-- A value of a configuration file. -/
inductive Toml where
  | text (value : String)
  | bool (value : Bool)
  | number
  | time
  | list (items : List Toml)
  | table (origin : Toml.Origin) (entries : List (String × Toml))
  /-- The tables of repeated headers, last first. -/
  | tables (elements : List (List (String × Toml)))
deriving Repr, Inhabited

namespace Toml

/-- Whether a list or a table holds nothing. -/
def isEmpty : Toml → Bool
  | .list items => items.isEmpty
  | .table _ entries => entries.isEmpty
  | .text _ | .bool _ | .number | .time | .tables _ => false

/-- The entries of a table, in order. -/
abbrev Table := List (String × Toml)

/-! ## Putting tables together -/

namespace Table

/-- The value of a key. -/
def find? (t : Table) (key : String) : Option Toml := t.lookup key

/-- Set the value of a key. -/
def set (key : String) (v : Toml) : Table → Table
  | [] => [(key, v)]
  | (k, w) :: t => if k == key then (k, v) :: t else (k, w) :: set key v t

/-- Set a dotted key in a table that may not hold it yet. On the way to its last
part it may pass tables that no header has opened, and the last of repeated
tables, but of those only a table that a dotted key made takes a further
entry. -/
def insert (t : Table) : List String → Toml → Option Table
  | [], _ => none
  | [key], v => if (t.find? key).isSome then none else some (t ++ [(key, v)])
  | key :: more, v =>
    match t.find? key with
    | none => do return t ++ [(key, .table .dotted (← insert [] more v))]
    | some (.table .dotted entries) => do
      return t.set key (.table .dotted (← insert entries more v))
    | some (.table .inner entries) => do
      if more.length = 1 then none
      else return t.set key (.table .inner (← insert entries more v))
    | some (.tables (last :: others)) => do
      if more.length = 1 then none
      else return t.set key (.tables ((← insert last more v) :: others))
    | some _ => none

/-- Change the table with a path, which is made if it is not there. Of repeated tables the last is
changed. -/
def within (change : Table → Option Table) : List String → Table → Option Table
  | [], t => change t
  | key :: path, t =>
    match t.find? key with
    | none => do return t ++ [(key, .table .inner (← within change path []))]
    | some (.table .inline _) => none
    | some (.table origin entries) => do
      return t.set key (.table origin (← within change path entries))
    | some (.tables (last :: others)) => do
      return t.set key (.tables ((← within change path last) :: others))
    | some _ => none

/-- Open the table of a header. -/
def openTable (t : Table) (path : List String) (key : String) : Option Table :=
  within (fun t =>
    match t.find? key with
    | none => some (t ++ [(key, .table .header [])])
    | some (.table .inner entries) => some (t.set key (.table .header entries))
    | some _ => none) path t

/-- Open the next table of a repeated header. -/
def openElement (t : Table) (path : List String) (key : String) : Option Table :=
  within (fun t =>
    match t.find? key with
    | none => some (t ++ [(key, .tables [[]])])
    | some (.tables elements) => some (t.set key (.tables ([] :: elements)))
    | some _ => none) path t

end Table

/-! ## Reading from the front of a text -/

/-- A reader: it fails, or takes something from the front of the text. -/
abbrev Scan := StateT (List Char) Option

namespace Scan

/-- Take a given beginning. -/
def token (expected : List Char) : Scan Unit := fun cs =>
  if expected.isPrefixOf cs then some ((), cs.drop expected.length) else none

/-- Take a given beginning, if it is there. -/
def token? (expected : List Char) : Scan Bool := fun cs =>
  if expected.isPrefixOf cs then some (true, cs.drop expected.length) else some (false, cs)

/-- Take characters as long as they are of a kind. -/
def takeWhile (p : Char → Bool) : Scan (List Char) := fun cs =>
  some (cs.takeWhile p, cs.dropWhile p)

/-- Whether the text is at its end. -/
def atEnd : Scan Bool := fun cs => some (cs.isEmpty, cs)

/-- Control characters, which only strings with escapes can hold. -/
def isControl (c : Char) : Bool := (c.toNat < 32 && c != '\t') || c.toNat = 127

/-- Skip spaces and tabs. -/
def blanks : Scan Unit := do
  let _ ← takeWhile fun c => c = ' ' || c = '\t'

/-- Skip a comment, if there is one. -/
def comment : Scan Unit := do
  if ← token? ['#'] then
    let _ ← takeWhile fun c => !isControl c

/-- Take the end of a line, if it is there. -/
def lineEnd? : Scan Bool := do
  if ← token? ['\n'] then return true
  else token? ['\r', '\n']

/-- Skip blanks, comments and line ends, `n` lines at most. -/
def gap : Nat → Scan Unit
  | 0 => return ()
  | n + 1 => do
    blanks
    comment
    if ← lineEnd? then gap n

/-! ### Texts -/

/-- The value of a hexadecimal digit. -/
def hexValue? (c : Char) : Option Nat :=
  if c.isDigit then some (c.toNat - '0'.toNat)
  else if 'a' ≤ c && c ≤ 'f' then some (c.toNat - 'a'.toNat + 10)
  else if 'A' ≤ c && c ≤ 'F' then some (c.toNat - 'A'.toNat + 10)
  else none

/-- The character with a hexadecimal number. -/
def hexChar? (digits : List Char) : Option Char := do
  let n ← digits.foldlM (fun n c => do return 16 * n + (← hexValue? c)) 0
  if n.isValidChar then some (Char.ofNat n) else none

/-- What stands for a character after a backslash, and the rest. -/
def escaped? : List Char → Option (Char × List Char)
  | 'b' :: cs => some (Char.ofNat 8, cs)
  | 't' :: cs => some ('\t', cs)
  | 'n' :: cs => some ('\n', cs)
  | 'f' :: cs => some (Char.ofNat 12, cs)
  | 'r' :: cs => some ('\r', cs)
  | '"' :: cs => some ('"', cs)
  | '\\' :: cs => some ('\\', cs)
  | 'u' :: cs => do
    if cs.length < 4 then none else return (← hexChar? (cs.take 4), cs.drop 4)
  | 'U' :: cs => do
    if cs.length < 8 then none else return (← hexChar? (cs.take 8), cs.drop 8)
  | _ => none

/-- The rest of a text in quotes on one line, of at most `n` characters. -/
def quotedRest (quote : Char) (escapes : Bool) : Nat → Scan (List Char)
  | 0 => failure
  | n + 1 => do
    match ← get with
    | [] => failure
    | c :: cs =>
      if c = quote then
        set cs
        return []
      else if c = '\\' && escapes then
        let (e, cs) ← escaped? cs
        set cs
        return e :: (← quotedRest quote escapes n)
      else if isControl c then failure
      else
        set cs
        return c :: (← quotedRest quote escapes n)

/-- The end of a line inside a text. -/
def lineEndLength : List Char → Nat
  | '\n' :: _ => 1
  | '\r' :: '\n' :: _ => 2
  | _ => 0

/-- What follows blanks and line ends. -/
def pastBlankLines : List Char → List Char
  | ' ' :: cs => pastBlankLines cs
  | '\t' :: cs => pastBlankLines cs
  | '\n' :: cs => pastBlankLines cs
  | '\r' :: '\n' :: cs => pastBlankLines cs
  | cs => cs

/-- A backslash at the end of a line joins it with the next that is not blank: the rest after that,
without the backslash. -/
def joined? (cs : List Char) : Option (List Char) :=
  let line := cs.dropWhile fun c => c = ' ' || c = '\t'
  if lineEndLength line = 0 then none else some (pastBlankLines line)

/-- The rest of a text in triple quotes, of at most `n` characters. Up to two
quotes may stand right before the closing ones. -/
def longRest (quote : Char) (escapes : Bool) : Nat → Scan (List Char)
  | 0 => failure
  | n + 1 => do
    let cs ← get
    let quotes := (cs.takeWhile (· = quote)).length
    if 3 ≤ quotes then
      if 5 < quotes then failure
      else
        set (cs.drop quotes)
        return List.replicate (quotes - 3) quote
    else
      match cs with
      | [] => failure
      | c :: cs =>
        let ending := lineEndLength (c :: cs)
        if 0 < ending then
          set ((c :: cs).drop ending)
          return '\n' :: (← longRest quote escapes n)
        else if c = '\\' && escapes then
          match joined? cs with
          | some cs =>
            set cs
            longRest quote escapes n
          | none =>
            let (e, cs) ← escaped? cs
            set cs
            return e :: (← longRest quote escapes n)
        else if isControl c then failure
        else
          set cs
          return c :: (← longRest quote escapes n)

/-- A text in quotes on one line. -/
def quoted (quote : Char) : Scan String := do
  token [quote]
  return String.ofList (← quotedRest quote (quote = '"') ((← get).length + 1))

/-- A text in triple quotes. A line end right after the opening quotes does not count. -/
def long (quote : Char) : Scan String := do
  token [quote, quote, quote]
  let _ ← lineEnd?
  return String.ofList (← longRest quote (quote = '"') ((← get).length + 1))

/-! ### Keys -/

/-- Characters of a key without quotes. -/
def isBare (c : Char) : Bool := c.isAlphanum || c = '_' || c = '-'

/-- A part of a key. -/
def keyPart : Scan String := do
  match ← get with
  | '"' :: _ => quoted '"'
  | '\'' :: _ => quoted '\''
  | _ =>
    let name ← takeWhile isBare
    if name.isEmpty then failure else return String.ofList name

/-- A key of at most `n` parts. -/
def dottedKey : Nat → Scan (List String)
  | 0 => failure
  | n + 1 => do
    blanks
    let part ← keyPart
    blanks
    if ← token? ['.'] then return part :: (← dottedKey n)
    else return [part]

/-- How deep keys lead, and how deep lists and inline tables are nested, at most. -/
def depthLimit : Nat := 79

/-- A key. -/
def key : Scan (List String) := dottedKey depthLimit

/-! ### Words: truth values, numbers and times -/

/-- Digits with single underscores between them. -/
def isGrouped (isDigit : Char → Bool) (cs : List Char) : Bool :=
  (split '_' cs).all fun part => !part.isEmpty && part.all isDigit

/-- Take away a sign. -/
def unsigned : List Char → List Char
  | '+' :: cs => cs
  | '-' :: cs => cs
  | cs => cs

/-- The value of grouped digits. -/
def groupedValue (base : Nat) (cs : List Char) : Nat :=
  (cs.filter (· != '_')).foldl (fun n c => base * n + (hexValue? c).getD 0) 0

/-- The value of grouped digits after a sign, zero for none. -/
def groupedExponent (cs : List Char) : Int :=
  let n : Int := groupedValue 10 (unsigned cs)
  if cs.head? = some '-' then -n else n

/-- Decimal digits without a needless zero in front. -/
def isWholePart (digits : List Char) : Bool :=
  isGrouped Char.isDigit digits && (digits.length = 1 || digits.head? != some '0')

/-- Whole numbers, which fit 64 bits. -/
def isInteger (word : List Char) : Bool :=
  match word with
  | '0' :: 'x' :: cs => isGrouped (fun c => (hexValue? c).isSome) cs && groupedValue 16 cs < Nat.pow 2 63
  | '0' :: 'o' :: cs => isGrouped (fun c => '0' ≤ c && c ≤ '7') cs && groupedValue 8 cs < Nat.pow 2 63
  | '0' :: 'b' :: cs => isGrouped (fun c => c = '0' || c = '1') cs && groupedValue 2 cs < Nat.pow 2 63
  | _ =>
    let digits := unsigned word
    let bound := if word.head? = some '-' then Nat.pow 2 63 else Nat.pow 2 63 - 1
    isWholePart digits && groupedValue 10 digits ≤ bound

/-- Numbers with a point, an exponent or both, and those that are not finite. A
literal that is not the word for infinity is not so great that it rounds to it;
one so far below zero is. -/
def isFloat (word : List Char) : Bool :=
  let body := unsigned word
  if body = ['i', 'n', 'f'] || body = ['n', 'a', 'n'] then true
  else
    let isExponent (c : Char) : Bool := c = 'e' || c = 'E'
    let mantissa := body.takeWhile fun c => !isExponent c
    let whole := mantissa.takeWhile (· != '.')
    let fraction := mantissa.drop (whole.length + 1)
    let hasPoint := mantissa.length != whole.length
    let exponent := body.drop (mantissa.length + 1)
    let hasExponent := body.length != mantissa.length
    isWholePart whole
      && (!hasPoint || isGrouped Char.isDigit fraction)
      && (!hasExponent || isGrouped Char.isDigit (unsigned exponent))
      && (hasPoint || hasExponent)
      && (word.head? = some '-'
        || !Decimal.overflows (groupedValue 10 (whole ++ fraction))
          (groupedExponent exponent - ((fraction.filter (· != '_')).length : Int)))

/-- A number of `count` digits between two bounds, and the rest. -/
def fixed? (count low high : Nat) (cs : List Char) : Option (Nat × List Char) :=
  let digits := cs.take count
  let n := groupedValue 10 digits
  if digits.length = count && digits.all Char.isDigit && low ≤ n && n ≤ high then
    some (n, cs.drop count)
  else none

/-- What follows a given character. -/
def past? (c : Char) : List Char → Option (List Char)
  | [] => none
  | d :: cs => if d = c then some cs else none

/-- Years with a day more than others. -/
def isLeapYear (year : Nat) : Bool := year % 4 = 0 && (year % 100 != 0 || year % 400 = 0)

/-- The days of a month. -/
def daysOf (year month : Nat) : Nat :=
  if month = 2 then (if isLeapYear year then 29 else 28)
  else if month = 4 || month = 6 || month = 9 || month = 11 then 30
  else 31

/-- What follows a date. -/
def date? (cs : List Char) : Option (List Char) := do
  let (year, cs) ← fixed? 4 0 9999 cs
  let (month, cs) ← fixed? 2 1 12 (← past? '-' cs)
  let (_, cs) ← fixed? 2 1 (daysOf year month) (← past? '-' cs)
  return cs

/-- What follows a time of day. -/
def clock? (cs : List Char) : Option (List Char) := do
  let (_, cs) ← fixed? 2 0 23 cs
  let (_, cs) ← fixed? 2 0 59 (← past? ':' cs)
  let (_, cs) ← fixed? 2 0 60 (← past? ':' cs)
  match cs with
  | '.' :: cs =>
    let digits := cs.takeWhile Char.isDigit
    if digits.isEmpty then none else some (cs.drop digits.length)
  | cs => some cs

/-- What follows the distance from universal time, in hours and minutes. -/
def offset? (cs : List Char) : Option (List Char) := do
  let (_, cs) ← fixed? 2 0 23 cs
  let (_, cs) ← fixed? 2 0 59 (← past? ':' cs)
  return cs

/-- Whether a word is nothing, or the distance from universal time. -/
def isZone : List Char → Bool
  | [] => true
  | ['Z'] => true
  | ['z'] => true
  | c :: cs => (c = '+' || c = '-') && offset? cs = some []

/-- Dates, times of day, and both. -/
def isTime (word : List Char) : Bool :=
  match date? word with
  | some [] => true
  | some (c :: cs) =>
    (c = 'T' || c = 't' || c = ' ')
      && match clock? cs with
        | some rest => isZone rest
        | none => false
  | none => clock? word = some []

/-- Characters of words. -/
def isWordChar (c : Char) : Bool := c.isAlphanum || c = '+' || c = '-' || c = '_' || c = '.' || c = ':'

/-- A word. A blank between a date and a time of day belongs to it. -/
def word : Scan (List Char) := do
  let first ← takeWhile isWordChar
  match ← get with
  | ' ' :: c :: cs =>
    if date? first = some [] && c.isDigit then
      set (c :: cs)
      return first ++ ' ' :: (← takeWhile isWordChar)
    else return first
  | _ => return first

/-- What a word means. -/
def ofWord? (word : List Char) : Option Toml :=
  if word = ['t', 'r', 'u', 'e'] then some (.bool true)
  else if word = ['f', 'a', 'l', 's', 'e'] then some (.bool false)
  else if isInteger word || isFloat word then some .number
  else if isTime word then some .time
  else none

/-! ### Values -/

/-- The items of a list and its closing bracket, at most `n`. -/
def items (item : Scan Toml) : Nat → Scan (List Toml)
  | 0 => failure
  | n + 1 => do
    gap ((← get).length)
    if ← token? [']'] then return []
    else
      let v ← item
      gap ((← get).length)
      if ← token? [','] then return v :: (← items item n)
      else
        token [']']
        return [v]

/-- A key, an equals sign and a value. -/
def keyValue (item : Scan Toml) : Scan (List String × Toml) := do
  let k ← key
  token ['=']
  blanks
  return (k, ← item)

/-- The entries of an inline table and its closing brace, at most `n`. -/
def entries (item : Scan Toml) : Nat → Table → Scan Table
  | 0, _ => failure
  | n + 1, t => do
    let (k, v) ← keyValue item
    let t ← t.insert k v
    blanks
    if ← token? [','] then entries item n t
    else
      token ['\x7d']
      return t

/-- A value that holds no others. -/
def plain : Scan Toml := do
  match ← get with
  | '"' :: '"' :: '"' :: _ => return .text (← long '"')
  | '"' :: _ => return .text (← quoted '"')
  | '\'' :: '\'' :: '\'' :: _ => return .text (← long '\'')
  | '\'' :: _ => return .text (← quoted '\'')
  | _ => do
    let w ← word
    ofWord? w

/-- A value in which lists and inline tables are nested at most `n` deep. -/
def valueWithin : Nat → Scan Toml
  | 0 => plain
  | n + 1 => do
    match ← get with
    | '[' :: rest =>
      set rest
      return .list (← items (valueWithin n) (rest.length + 1))
    | '\x7b' :: rest =>
      set rest
      blanks
      if ← token? ['\x7d'] then return .table .inline []
      else return .table .inline (← entries (valueWithin n) (rest.length + 1) [])
    | _ => plain

/-- A value. -/
def value : Scan Toml := valueWithin depthLimit

/-! ### Lines -/

/-- A line of a file. -/
inductive Line where
  | nothing
  | entry (key : List String) (value : Toml)
  | header (key : List String)
  | element (key : List String)

/-- What a line says, up to its end. -/
def line : Scan Line := do
  blanks
  match ← get with
  | '[' :: '[' :: rest =>
    set rest
    let k ← key
    token [']', ']']
    return .element k
  | '[' :: rest =>
    set rest
    let k ← key
    token [']']
    return .header k
  | c :: _ =>
    if c = '#' || c = '\n' || c = '\r' then return .nothing
    else
      let (k, v) ← keyValue value
      return .entry k v
  | [] => return .nothing

/-- Lines up to the end of the text, at most `n`. -/
def lines : Nat → Scan (List Line)
  | 0 => failure
  | n + 1 => do
    let l ← line
    blanks
    comment
    if ← lineEnd? then return l :: (← lines n)
    else if ← atEnd then return [l]
    else failure

end Scan

/-- Put lines together. `section_` is the path of the table that entries belong to. -/
def build : List Scan.Line → List String → Table → Option Table
  | [], _, t => some t
  | .nothing :: ls, section_, t => build ls section_ t
  | .entry k v :: ls, section_, t => do
    build ls section_ (← Table.within (fun inner => inner.insert k v) section_ t)
  | .header k :: ls, _, t => do
    build ls k (← t.openTable k.dropLast (← k.getLast?))
  | .element k :: ls, _, t => do
    build ls k (← t.openElement k.dropLast (← k.getLast?))

/-- Read a file. A mark of the byte order in front does not count. -/
def read? (text : String) : Option Table := do
  let cs := text.toList
  let cs := if cs.head? = some (Char.ofNat 0xFEFF) then cs.drop 1 else cs
  let (lines, _) ← (Scan.lines (cs.length + 1)).run cs
  build lines [] []

end Toml

end Closures
