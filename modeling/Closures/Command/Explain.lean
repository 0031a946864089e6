import Closures.Command.Arguments
import Closures.Diagnostic.Render
import Closures.Text.Uppercase

/-!
# Explanations

What each diagnostic code means, with an example and advice.
-/

set_option autoImplicit false

namespace Closures

/-- What a code means. -/
structure Explanation where
  code : DiagnosticCode
  title : String
  description : String
  example_ : String
  suggestion : String
  related : List DiagnosticCode
deriving DecidableEq, Repr

namespace Explanation

/-- The explanation of a code. -/
def of : DiagnosticCode → Explanation
  | code@(.lowering .ambiguousOrMissingSam) => {
      code
      title := "Ambiguous or Missing Functional Interface Method"
      description := "A lambda or method reference targets a type that does not have exactly one abstract "
        ++ "method. Methods that restate a public member of Object and default methods do not count."
      example_ := "interface Pair \x7b void first(); void second(); \x7d\n"
        ++ "Pair p = () -> \x7b\x7d;  // two abstract methods"
      suggestion := "Target an interface with a single abstract method, or add default bodies to the "
        ++ "others."
      related := [.lowering .incompatibleArity] }
  | code@(.lowering .invalidCapture) => {
      code
      title := "Invalid Capture"
      description := "The closure body uses a local that is assigned more than once, or an enclosing "
        ++ "instance that is not reachable from the closure site (for example from a static context)."
      example_ := "int i = 0;\n"
        ++ "i++;\n"
        ++ "Runnable r = () -> System.out.println(i);  // i is not effectively final"
      suggestion := "Copy the value into a new local that is never reassigned and capture that instead."
      related := [] }
  | code@(.lowering .unresolvableReference) => {
      code
      title := "Unresolvable Method Reference"
      description := "A method reference matches no member, or several members equally well, for the "
        ++ "parameter types of the functional interface method."
      example_ := "Function<String, Integer> f = String::nosuch;"
      suggestion := "Check the member name and its parameter types, or use a lambda with explicit "
        ++ "argument types."
      related := [.lowering .incompatibleArity] }
  | code@(.lowering .incompatibleArity) => {
      code
      title := "Incompatible Arity"
      description := "The functional interface method and the closure disagree on the number of "
        ++ "parameters, or a value-returning method is implemented by a body that yields nothing."
      example_ := "Supplier<Integer> s = x -> 1;  // get() takes no arguments"
      suggestion := "Match the parameter list of the interface method and return a value when it "
        ++ "expects one."
      related := [.lowering .ambiguousOrMissingSam, .lowering .unresolvableReference] }
  | code@.invalidInput => {
      code
      title := "Invalid Input"
      description := "The input file is not a resolved compilation unit. Either it is not well-formed "
        ++ "JSON, it ends early, or a node is missing a field or carries a value of the wrong kind."
      example_ := "\x7b \"name\": \"Main\", types: [] \x7d  // object keys must be quoted"
      suggestion := "Regenerate the unit with the front end instead of editing it by hand."
      related := [] }

/-- The explanation of a code in upper case. -/
def find? (code : String) : Option Explanation :=
  (DiagnosticCode.all.find? fun c => c.text = code).map of

/-- A text with display codes around it, if they are wanted. -/
def styled (colored : Bool) (codes text : String) : String :=
  if colored then codes ++ text ++ Palette.ansi.reset else text

/-- The lines of an explanation, for people. -/
def lines (colored : Bool) (e : Explanation) : List String :=
  let code := e.code.text
  let rule := Diagnostic.fill (code.utf8ByteSize + e.title.utf8ByteSize + 2) '='
  let related := ", ".intercalate (e.related.map DiagnosticCode.text)
  ["", styled colored "\x1b[36m\x1b[1m" code ++ ": " ++ styled colored "\x1b[1m" e.title, rule,
    "", e.description, "",
    styled colored "\x1b[1m" "Example" ++ ":"]
    ++ (split '\n' e.example_.toList).map (fun l => "  " ++ String.ofList l)
    ++ ["", styled colored "\x1b[32m\x1b[1m" "Suggestion" ++ ":", "  " ++ e.suggestion, ""]
    ++ if e.related.isEmpty then [] else [styled colored "\x1b[2m" "Related" ++ ": " ++ related]

/-- An explanation for tools. -/
def toJson (e : Explanation) : Json :=
  .obj [("code", .str e.code.text), ("description", .str e.description),
    ("example", .str e.example_), ("related", .list (fun c => .str c.text) e.related),
    ("suggestion", .str e.suggestion), ("title", .str e.title)]

end Explanation

end Closures
