import Closures.Json.Numeral

/-!
# Lexemes

`Lexeme.scan` cuts a text into brackets, separators, words, numbers and quoted
texts. It is a fold: one step per character, with the part-read lexeme in the
state. A character that fits nowhere ends the scan with a `bad` lexeme.
-/

set_option autoImplicit false

namespace Closures

/-- The kinds of lexeme. -/
inductive Lexeme.Kind where
  | openList | closeList | openRecord | closeRecord | comma | colon
  | null
  | bool (value : Bool)
  | number (value : Numeral)
  | text (value : Except Nat String)
  /-- What starts like a value and goes wrong, or starts like none. -/
  | bad (lead : Char) (used skipped : Flaw)

/-- A lexeme and where it starts. -/
structure Lexeme where
  pos : Nat
  kind : Lexeme.Kind

namespace Lexeme

/-- How far a number has been read. -/
inductive Phase where
  /-- After the sign. -/
  | sign
  /-- After a leading zero. -/
  | zero
  | whole
  /-- After the point. -/
  | point
  | fraction
  /-- After the exponent mark. -/
  | mark
  /-- After the sign of the exponent. -/
  | markSign
  | exponent
deriving DecidableEq, Inhabited, Repr

/-- Whether a number may end here. -/
def Phase.complete : Phase → Bool
  | .zero | .whole | .fraction | .exponent => true
  | .sign | .point | .mark | .markSign => false

/-- What goes on inside a quoted text. -/
inductive Escape where
  | none
  /-- After a backslash. -/
  | start
  /-- After `\u`: the bytes read, and the value of the digits if all are digits. -/
  | hex (bytes : Nat) (value : Option Nat)
deriving DecidableEq, Inhabited, Repr

/-- A part-read lexeme. The collected characters and digits are in reverse. -/
inductive Mode where
  | between
  | word (start : Nat) (lead : Char) (rest : List Char) (kind : Kind)
  /-- `half` is the first half of a surrogate pair that waits for the second; `lone` is the place
  where a half was found without the other. -/
  | text (start : Nat) (chars : List Char) (escape : Escape) (half : Option Nat) (lone : Option Nat)
  | number (start : Nat) (lead : Char) (phase : Phase) (parts : Numeral.Parts)
  | stopped

/-- The state of a scan. -/
structure Scan where
  pos : Nat
  mode : Mode
  /-- The lexemes read, last first. -/
  done : List Lexeme

namespace Scan

/-- Add a lexeme. -/
def emit (s : Scan) (start : Nat) (kind : Kind) : Scan :=
  { s with mode := .between, done := ⟨start, kind⟩ :: s.done }

/-- End the scan with a flaw. -/
def stop (s : Scan) (start : Nat) (lead : Char) (used skipped : Flaw) : Scan :=
  { s with mode := .stopped, done := ⟨start, .bad lead used skipped⟩ :: s.done }

/-- End the scan because of the character at hand. -/
def reject (s : Scan) (start : Nat) (lead : Char) : Scan :=
  s.stop start lead ⟨.malformed, s.pos⟩ ⟨.malformed, s.pos⟩

/-- A character between lexemes. -/
def startWith (s : Scan) (c : Char) : Scan :=
  let number (phase : Phase) (parts : Numeral.Parts) : Scan :=
    { s with mode := .number s.pos c phase parts }
  match c with
  | ' ' | '\n' | '\t' | '\r' => { s with mode := .between }
  | '[' => s.emit s.pos .openList
  | ']' => s.emit s.pos .closeList
  | '\x7b' => s.emit s.pos .openRecord
  | '\x7d' => s.emit s.pos .closeRecord
  | ',' => s.emit s.pos .comma
  | ':' => s.emit s.pos .colon
  | '"' => { s with mode := .text s.pos [] .none none none }
  | 'n' => { s with mode := .word s.pos c "ull".toList .null }
  | 't' => { s with mode := .word s.pos c "rue".toList (.bool true) }
  | 'f' => { s with mode := .word s.pos c "alse".toList (.bool false) }
  | '-' => number .sign ⟨true, [], [], none⟩
  | '0' => number .zero ⟨false, [0], [], none⟩
  | _ =>
    if c.isDigit then number .whole ⟨false, [c.toNat - 48], [], none⟩
    else s.reject s.pos c

/-- The finished number of parts whose digits are in reverse. -/
def numeral (p : Numeral.Parts) : Numeral :=
  .ofParts ⟨p.negative, p.whole.reverse, p.fraction.reverse,
    p.exponent.map fun (down, ds) => (down, ds.reverse)⟩

/-- A digit in a number. -/
def digit (phase : Phase) (p : Numeral.Parts) (d : Nat) : Option (Phase × Numeral.Parts) :=
  match phase with
  | .sign => some (if d = 0 then .zero else .whole, { p with whole := [d] })
  | .zero => none
  | .whole => some (.whole, { p with whole := d :: p.whole })
  | .point | .fraction => some (.fraction, { p with fraction := d :: p.fraction })
  | .mark => some (.exponent, { p with exponent := some (false, [d]) })
  | .markSign | .exponent =>
    some (.exponent, { p with exponent := p.exponent.map fun (down, ds) => (down, d :: ds) })

/-- A character after part of a number. -/
def inNumber (s : Scan) (start : Nat) (lead : Char) (phase : Phase) (p : Numeral.Parts) (c : Char) :
    Scan :=
  if c.isDigit then
    match digit phase p (c.toNat - 48) with
    | some (next, q) => { s with mode := .number start lead next q }
    | none => s.reject start lead
  else if c = '.' ∧ (phase = .zero ∨ phase = .whole) then
    { s with mode := .number start lead .point p }
  else if (c = 'e' ∨ c = 'E') ∧ (phase = .zero ∨ phase = .whole ∨ phase = .fraction) then
    { s with mode := .number start lead .mark p }
  else if (c = '+' ∨ c = '-') ∧ phase = .mark then
    { s with mode := .number start lead .markSign { p with exponent := some (c == '-', []) } }
  else if phase.complete then (s.emit start (.number (numeral p))).startWith c
  else s.reject start lead

/-- The value of a hexadecimal digit. -/
def hexValue? (c : Char) : Option Nat :=
  if c.isDigit then some (c.toNat - 48)
  else if 'a' ≤ c ∧ c ≤ 'f' then some (c.toNat - 87)
  else if 'A' ≤ c ∧ c ≤ 'F' then some (c.toNat - 55)
  else none

/-- What a character after a backslash stands for. -/
def unescape? : Char → Option Char
  | '"' => some '"'
  | '\\' => some '\\'
  | '/' => some '/'
  | 'b' => some (Char.ofNat 8)
  | 'f' => some (Char.ofNat 12)
  | 'n' => some '\n'
  | 'r' => some '\r'
  | 't' => some '\t'
  | _ => none

/-- End the scan inside a quoted text. A half pair met before counts first when the text is used. -/
def rejectText (s : Scan) (start : Nat) (lone : Option Nat) (used skipped : Flaw) : Scan :=
  s.stop start '"' (match lone with | some p => ⟨.malformed, p⟩ | none => used) skipped

/-- A completed `\u` escape. -/
def codeUnit (s : Scan) (start : Nat) (chars : List Char) (half lone : Option Nat) (unit : Nat) :
    Scan :=
  let isLow := 0xDC00 ≤ unit && unit ≤ 0xDFFF
  let isHigh := 0xD800 ≤ unit && unit ≤ 0xDBFF
  match half with
  | some high =>
    if isLow then
      let c := Char.ofNat ((high - 0xD800) * 0x400 + (unit - 0xDC00) + 0x10000)
      { s with mode := .text start (c :: chars) .none none lone }
    else { s with mode := .text start chars .none none (lone <|> some s.pos) }
  | none =>
    if isLow then { s with mode := .text start chars .none none (lone <|> some s.pos) }
    else if isHigh then { s with mode := .text start chars .none (some unit) lone }
    else { s with mode := .text start (Char.ofNat unit :: chars) .none none lone }

/-- A character inside a quoted text. -/
def inText (s : Scan) (start : Nat) (chars : List Char) (escape : Escape) (half lone : Option Nat)
    (c : Char) : Scan :=
  -- a first half must be followed by another escape at once
  let lone' := if half.isSome then lone <|> some s.pos else lone
  match escape with
  | .none =>
    if c = '\\' then { s with mode := .text start chars .start half lone }
    else if c = '"' then
      s.emit start (.text (match lone' with
        | some p => .error p
        | none => .ok (String.ofList chars.reverse)))
    else if c.toNat < 32 then
      -- where the text is skipped, the character itself has not been read
      s.rejectText start lone' ⟨.malformed, s.pos⟩ ⟨.malformed, s.pos - 1⟩
    else { s with mode := .text start (c :: chars) .none none lone' }
  | .start =>
    if c = 'u' then { s with mode := .text start chars (.hex 0 (some 0)) half lone }
    else
      match unescape? c with
      | some d => { s with mode := .text start (d :: chars) .none none lone' }
      | none => s.rejectText start lone' ⟨.malformed, s.pos⟩ ⟨.malformed, s.pos⟩
  | .hex bytes value =>
    let value := value.bind fun n => (hexValue? c).map fun d => n * 16 + d
    if bytes + c.utf8Size < 4 then
      { s with mode := .text start chars (.hex (bytes + c.utf8Size) value) half lone }
    else
      match value with
      | some unit => s.codeUnit start chars half lone unit
      | none => s.rejectText start lone ⟨.malformed, s.pos⟩ ⟨.malformed, s.pos⟩

/-- One character. -/
def step (s : Scan) (c : Char) : Scan :=
  let next :=
    match s.mode with
    | .between => s.startWith c
    | .word start lead rest kind =>
      match rest with
      | [] => (s.emit start kind).startWith c
      | r :: rest =>
        if c ≠ r then s.reject start lead
        else if rest.isEmpty then s.emit start kind
        else { s with mode := .word start lead rest kind }
    | .text start chars escape half lone => s.inText start chars escape half lone c
    | .number start lead phase parts => s.inNumber start lead phase parts c
    | .stopped => s
  { next with pos := s.pos + 1 }

/-- The end of the text. -/
def finish (s : Scan) : List Lexeme :=
  let ended : Flaw := ⟨.ended, s.pos⟩
  let final :=
    match s.mode with
    | .between | .stopped => s
    | .word start lead _ _ => s.stop start lead ended ended
    | .text start _ _ _ lone => s.rejectText start lone ended ended
    | .number start lead phase parts =>
      if phase.complete then s.emit start (.number (numeral parts))
      else s.stop start lead ended ⟨.malformed, s.pos⟩
  final.done.reverse

end Scan

/-- The lexemes of a text, in order. -/
def scan (text : String) : List Lexeme :=
  (text.foldl Scan.step ⟨0, .between, []⟩).finish

end Lexeme

end Closures
