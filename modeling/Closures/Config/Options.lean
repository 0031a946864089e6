import Closures.Config.Toml
import Closures.Tree.Basic

/-!
# Options

The options of lowering and their configuration file. The file has one table,
`lowering`, in which each option may be set; other names in it do not matter,
other tables are refused.
-/

set_option autoImplicit false

namespace Closures

/-- The options of lowering. -/
structure Options where
  /-- When shared instances of closures without captures are created. -/
  singleton : SingletonInit := .onDemand
  /-- Whether top-level types may be lowered at the same time. The result does not depend on it. -/
  parallel : Bool := true
deriving DecidableEq, Repr, Inhabited

namespace Options

/-- The policy that a word names. -/
def policy? (word : String) : Option SingletonInit :=
  if word = "lazy" then some .onDemand
  else if word = "eager" then some .atStart
  else none

/-- The policy of a setting: its word, or a table with the word alone that says nothing about it. -/
def policyOf? : Toml → Option SingletonInit
  | .text word => policy? word
  | .table _ [(word, about)] => if about.isEmpty then policy? word else none
  | _ => none

/-- The options for given settings; one that is not given has its default. -/
def ofSettings? (singleton parallel : Option Toml) : Option Options := do
  let singleton ←
    match singleton with
    | none => some .onDemand
    | some v => policyOf? v
  let parallel ←
    match parallel with
    | none => some true
    | some (.bool b) => some b
    | some _ => none
  return { singleton, parallel }

/-- The options that a value sets. A list, also one of repeated tables, gives
them in order; a time is taken for a table without any. -/
def ofValue? : Toml → Option Options
  | .table _ entries =>
    ofSettings? (Toml.Table.find? entries "singleton") (Toml.Table.find? entries "parallel")
  | .list items => ofSettings? items[0]? items[1]?
  | .tables elements =>
    let items := elements.reverse.map (Toml.table .header)
    ofSettings? items[0]? items[1]?
  | .time => some {}
  | .text _ | .bool _ | .number => none

/-- The options of a configuration file. -/
def ofTable? (t : Toml.Table) : Option Options :=
  if t.any fun (key, _) => key != "lowering" then none
  else
    match t.find? "lowering" with
    | none => some {}
    | some v => ofValue? v

/-- Read a configuration file. -/
def read? (text : String) : Option Options := (Toml.read? text).bind ofTable?

end Options

end Closures
