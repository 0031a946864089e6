import Closures.Json.Lexeme

/-!
# Reading documents

`Doc.read` assembles the lexemes of a text into a document with a stack of part-read lists and
records, one step per lexeme. Where a lexeme does not fit, the document is cut and the part-read
lists and records around it are left broken.
-/

set_option autoImplicit false

namespace Closures

namespace Doc

/-- A list or record that is being read; what it holds so far, last first. -/
inductive Frame where
  | list (pos : Nat) (deep : Bool) (items : List Doc)
  /-- The key of the entry at hand has been read. -/
  | record (pos : Nat) (deep : Bool) (entries : List Entry) (lead : Nat) (key : Doc)

/-- What may come next. -/
inductive Due where
  | value
  /-- The first item of a list, or its end. -/
  | firstItem (pos : Nat) (deep : Bool)
  /-- The first key of a record, or its end. -/
  | firstKey (pos : Nat) (deep : Bool)
  /-- A key after a comma. -/
  | nextKey (pos : Nat) (deep : Bool) (entries : List Entry) (lead : Nat)
  /-- The colon after a key. -/
  | colon (pos : Nat) (deep : Bool) (entries : List Entry) (lead : Nat) (key : Doc)
  /-- A comma, or the end of a list. -/
  | moreItems (pos : Nat) (deep : Bool) (items : List Doc)
  /-- A comma, or the end of a record. -/
  | moreEntries (pos : Nat) (deep : Bool) (entries : List Entry)
  /-- Nothing: the document is complete. -/
  | nothing (doc : Doc)

/-- Close everything that is open around a value at which reading stopped. -/
def abandon (flaw : Flaw) : List Frame → Doc → Doc
  | [], d => d
  | .list pos deep items :: stack, d =>
    abandon flaw stack (.list pos deep (d :: items).reverse (.broken flaw))
  | .record pos deep entries lead key :: stack, d =>
    abandon flaw stack (.record pos deep (⟨lead, key, d⟩ :: entries).reverse (.broken flaw))

/-- What is due after a value. -/
def Due.after (d : Doc) : List Frame → List Frame × Due
  | [] => ([], .nothing d)
  | .list pos deep items :: stack => (stack, .moreItems pos deep (d :: items))
  | .record pos deep entries lead key :: stack =>
    (stack, .moreEntries pos deep (⟨lead, key, d⟩ :: entries))

/-- The scalar that a lexeme is. -/
def ofLexeme? (l : Lexeme) : Option Doc :=
  match l.kind with
  | .null => some (.null l.pos)
  | .bool b => some (.bool l.pos b)
  | .number n => some (.number l.pos n)
  | .text t => some (.text l.pos t)
  | .openList | .closeList | .openRecord | .closeRecord | .comma | .colon | .bad _ _ _ => none

/-- The value where a lexeme is none: broken off, or something else altogether. -/
def ofMisfit (l : Lexeme) : Doc :=
  match l.kind with
  | .bad lead used skipped => .cut l.pos (some lead) used skipped
  | _ => missing ⟨.malformed, l.pos⟩

/-- Where a key is due and something else stands: what that is. -/
def ofKeyMisfit (l : Lexeme) : Doc :=
  match l.kind with
  | .openList => .list l.pos false [] (.broken ⟨.malformed, l.pos⟩)
  | .openRecord => .record l.pos false [] (.broken ⟨.malformed, l.pos⟩)
  | _ => (ofLexeme? l).getD (ofMisfit l)

/-- The flaw that a value at which reading stops leaves to what is around it. -/
def finalFlaw : Doc → Flaw
  | .cut _ _ used _ => used
  | d => ⟨.malformed, d.pos⟩

/-- Whether there are at least `n` frames. No more than those are looked at. -/
def hasFrames : Nat → List Frame → Bool
  | 0, _ => true
  | _ + 1, [] => false
  | n + 1, _ :: stack => hasFrames n stack

/-- Whether a list or record inside `stack` is nested beyond the limit. -/
def isDeep (limit : Option Nat) (stack : List Frame) : Bool :=
  match limit with
  | some n => hasFrames n stack
  | none => false

/-- Stop at a value. -/
def stopAt (stack : List Frame) (d : Doc) : Doc := abandon (finalFlaw d) stack d

/-- Stop at a key. -/
def stopAtKey (stack : List Frame) (pos : Nat) (deep : Bool) (entries : List Entry) (lead : Nat)
    (key : Doc) : Doc :=
  let flaw := finalFlaw key
  abandon flaw stack (.record pos deep (⟨lead, key, missing flaw⟩ :: entries).reverse (.broken flaw))

/-- Stop because a value is not there at all. -/
def stopBefore (flaw : Flaw) (stack : List Frame) : Due → Doc
  | .value => stopAt stack (missing flaw)
  | .firstItem pos deep => abandon flaw stack (.list pos deep [] (.broken flaw))
  | .firstKey pos deep => abandon flaw stack (.record pos deep [] (.broken flaw))
  | .nextKey pos deep entries lead => stopAtKey stack pos deep entries lead (missing flaw)
  | .colon pos deep entries lead key =>
    abandon flaw stack
      (.record pos deep (⟨lead, key, missing flaw⟩ :: entries).reverse (.broken flaw))
  | .moreItems pos deep items => abandon flaw stack (.list pos deep items.reverse (.broken flaw))
  | .moreEntries pos deep entries =>
    abandon flaw stack (.record pos deep entries.reverse (.broken flaw))
  | .nothing d => d

/-- Whether a lexeme starts a value, and what is due then. -/
def Due.opened (limit : Option Nat) (stack : List Frame) (l : Lexeme) : Option (List Frame × Due) :=
  match l.kind with
  | .openList => some (stack, .firstItem l.pos (isDeep limit stack))
  | .openRecord => some (stack, .firstKey l.pos (isDeep limit stack))
  | _ => (ofLexeme? l).map fun d => Due.after d stack

/-- Assemble lexemes. `stop` is the end of the text. The flaw is that of what follows a complete
document. -/
def assemble (limit : Option Nat) (stop : Nat) :
    List Lexeme → List Frame → Due → Doc × Option Flaw
  | [], _, .nothing d => (d, none)
  | [], stack, due => (stopBefore ⟨.ended, stop⟩ stack due, none)
  | l :: ls, stack, due =>
    let misfit : Flaw := ⟨.malformed, l.pos⟩
    let continue_ (next : List Frame × Due) : Doc × Option Flaw :=
      assemble limit stop ls next.1 next.2
    match due with
    | .value =>
      match Due.opened limit stack l with
      | some next => continue_ next
      | none => (stopAt stack (ofMisfit l), none)
    | .firstItem pos deep =>
      match l.kind with
      | .closeList => continue_ (Due.after (.list pos deep [] (.sealed l.pos)) stack)
      | _ =>
        let stack := .list pos deep [] :: stack
        match Due.opened limit stack l with
        | some next => continue_ next
        | none => (stopAt stack (ofMisfit l), none)
    | .firstKey pos deep =>
      match l.kind with
      | .closeRecord => continue_ (Due.after (.record pos deep [] (.sealed l.pos)) stack)
      | .text t => continue_ (stack, .colon pos deep [] l.pos (.text l.pos t))
      | _ => (stopAtKey stack pos deep [] l.pos (ofKeyMisfit l), none)
    | .nextKey pos deep entries lead =>
      match l.kind with
      | .text t => continue_ (stack, .colon pos deep entries lead (.text l.pos t))
      | _ => (stopAtKey stack pos deep entries lead (ofKeyMisfit l), none)
    | .colon pos deep entries lead key =>
      match l.kind with
      | .colon => continue_ (.record pos deep entries lead key :: stack, .value)
      | _ => (stopBefore misfit stack due, none)
    | .moreItems pos deep items =>
      match l.kind with
      | .closeList => continue_ (Due.after (.list pos deep items.reverse (.sealed l.pos)) stack)
      | .comma => continue_ (.list pos deep items :: stack, .value)
      | _ => (stopBefore misfit stack due, none)
    | .moreEntries pos deep entries =>
      match l.kind with
      | .closeRecord => continue_ (Due.after (.record pos deep entries.reverse (.sealed l.pos)) stack)
      | .comma => continue_ (stack, .nextKey pos deep entries l.pos)
      | _ => (stopBefore misfit stack due, none)
    | .nothing d => (d, some misfit)

/-- Read a text as a document in which lists and records are nested at most `limit` deep, and find
the flaw of what follows it. -/
def read (limit : Option Nat) (text : String) : Doc × Option Flaw :=
  assemble limit text.length (Lexeme.scan text) [] .value

end Doc

end Closures
