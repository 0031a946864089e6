import Closures.Proofs.SiteMarks
import Closures.Proofs.UnitLowering

/-!
# Lexical scoping

A local is visible from its declaration to the end of what it was declared in: a
parameter in the body of its method or lambda, a declared local in the
statements after it, what a for-loop declares at first in its other parts, a
for-each variable and a catch parameter in their blocks. `Expr.located` and its
relatives follow these rules: they list every expression of a tree **with the
locals that are visible at it**, innermost first. A tree is well-scoped if every
use of a local in the list finds it among them (`Expr.isBound`).

The rest of the module says how the list goes along the shape of trees, and that
it does not change when a value is adapted or the returns of a body are changed.
-/

set_option autoImplicit false

namespace Closures

open Lowering (declares Scope.enter)

/-! ## Visible locals -/

mutual

/-- The expressions in an expression, each with the locals that are visible
there. -/
def Expr.located (s : Scope) : Expr → List (Scope × Expr)
  | .null => [(s, .null)]
  | .bool b => [(s, .bool b)]
  | .int v => [(s, .int v)]
  | .long v => [(s, .long v)]
  | .double v => [(s, .double v)]
  | .char c => [(s, .char c)]
  | .string t => [(s, .string t)]
  | .localGet id => [(s, .localGet id)]
  | .localSet id v => (s, .localSet id v) :: v.located s
  | .this q => [(s, .this q)]
  | .fieldGet r f => (s, .fieldGet r f) :: Expr.locatedOption s r
  | .fieldSet r f v => (s, .fieldSet r f v) :: (Expr.locatedOption s r ++ v.located s)
  | .call r m args => (s, .call r m args) :: (r.located s ++ Expr.locatedList s args)
  | .new t c o args => (s, .new t c o args) :: (Expr.locatedOption s o ++ Expr.locatedList s args)
  | .newArray t n => (s, .newArray t n) :: n.located s
  | .arrayLit t vs => (s, .arrayLit t vs) :: Expr.locatedList s vs
  | .arrayGet a i => (s, .arrayGet a i) :: (a.located s ++ i.located s)
  | .arraySet a i v => (s, .arraySet a i v) :: (a.located s ++ (i.located s ++ v.located s))
  | .arrayLength a => (s, .arrayLength a) :: a.located s
  | .binary op l r => (s, .binary op l r) :: (l.located s ++ r.located s)
  | .compare op l r => (s, .compare op l r) :: (l.located s ++ r.located s)
  | .logical op l r => (s, .logical op l r) :: (l.located s ++ r.located s)
  | .unary op e => (s, .unary op e) :: e.located s
  | .cond c t e => (s, .cond c t e) :: (c.located s ++ (t.located s ++ e.located s))
  | .cast e t => (s, .cast e t) :: e.located s
  | .instanceOf e t => (s, .instanceOf e t) :: e.located s
  | .box e k => (s, .box e k) :: e.located s
  | .unbox e k => (s, .unbox e k) :: e.located s
  | .convert e k => (s, .convert e k) :: e.located s
  | .nullCheck e => (s, .nullCheck e) :: e.located s
  | .intrinsic op args => (s, .intrinsic op args) :: Expr.locatedList s args
  | .lambda ⟨ps, b, bt, t, sp⟩ =>
    (s, .lambda ⟨ps, b, bt, t, sp⟩) :: b.located (Scope.enter s ps)
  | .methodRef ⟨q, m, ts, t, sp⟩ => (s, .methodRef ⟨q, m, ts, t, sp⟩) :: q.located s
  | .newClosure a cs => (s, .newClosure a cs) :: Expr.locatedList s cs
  | .singleton a => [(s, .singleton a)]

/-- The same for each expression of a list. -/
def Expr.locatedList (s : Scope) : List Expr → List (Scope × Expr)
  | [] => []
  | e :: es => e.located s ++ Expr.locatedList s es

/-- The same for an expression that may be absent. -/
def Expr.locatedOption (s : Scope) : Option Expr → List (Scope × Expr)
  | none => []
  | some e => e.located s

/-- The same for the object that a receiver names. -/
def Receiver.located (s : Scope) : Receiver → List (Scope × Expr)
  | .implicit => []
  | .static => []
  | .expr e => e.located s
  | .super _ => []
  | .nonVirtual e => e.located s

/-- The same for a lambda body. -/
def LambdaBody.located (s : Scope) : LambdaBody → List (Scope × Expr)
  | .expr e => e.located s
  | .block b => Stmt.locatedAll s b

/-- The same for the object that a reference qualifier names. -/
def RefQualifier.located (s : Scope) : RefQualifier → List (Scope × Expr)
  | .type _ => []
  | .expr e _ => e.located s
  | .super _ => []

/-- The same for a statement. -/
def Stmt.located (s : Scope) : Stmt → List (Scope × Expr)
  | .declare _ init => Expr.locatedOption s init
  | .expr e => e.located s
  | .ret v => Expr.locatedOption s v
  | .cond c t e => c.located s ++ (Stmt.locatedAll s t ++ Stmt.locatedOption s e)
  | .whileLoop c b => c.located s ++ Stmt.locatedAll s b
  | .forLoop i c u b =>
    let inner := Scope.enter s (i.flatMap declares)
    Stmt.locatedAll s i
      ++ (Expr.locatedOption inner c ++ (Expr.locatedList inner u ++ Stmt.locatedAll inner b))
  | .forEach v e b => e.located s ++ Stmt.locatedAll (Scope.enter s [v]) b
  | .block b => Stmt.locatedAll s b
  | .raise e => e.located s
  | .tryCatch b c f =>
    Stmt.locatedAll s b ++ (CatchClause.locatedOption s c ++ Stmt.locatedOption s f)
  | .breakLoop => []
  | .continueLoop => []

/-- The same for statements in order, of which each sees what those before it
declare. -/
def Stmt.locatedAll (s : Scope) : List Stmt → List (Scope × Expr)
  | [] => []
  | t :: ts => t.located s ++ Stmt.locatedAll (Scope.enter s (declares t)) ts

/-- The same for statements that may be absent. -/
def Stmt.locatedOption (s : Scope) : Option (List Stmt) → List (Scope × Expr)
  | none => []
  | some b => Stmt.locatedAll s b

/-- The same for a handler that may be absent. -/
def CatchClause.locatedOption (s : Scope) : Option CatchClause → List (Scope × Expr)
  | none => []
  | some ⟨p, b⟩ => Stmt.locatedAll (Scope.enter s [p]) b

end

/-- The expressions of a declaration, each with the locals that are visible
there. -/
def TypeDecl.located (d : TypeDecl) : List (Scope × Expr) :=
  d.fields.flatMap (fun f => Expr.locatedOption [] f.init)
    ++ (d.initializers.flatMap (fun i => Stmt.locatedAll [] i.body)
      ++ d.methods.flatMap fun m => Stmt.locatedOption (Scope.enter [] m.params) m.body)

/-- Whether the local that an expression reads or assigns is visible. -/
def Expr.isBound (s : Scope) : Expr → Bool
  | .localGet id | .localSet id _ => (s.lookup? id).isSome
  | _ => true

/-- Every use of a local is bound by a declaration around it. -/
def CompilationUnit.WellScoped (u : CompilationUnit) : Prop :=
  ∀ d ∈ u.types, ∀ x ∈ d.located, x.2.isBound x.1 = true

instance (u : CompilationUnit) : Decidable u.WellScoped :=
  inferInstanceAs (Decidable (∀ d ∈ u.types, ∀ x ∈ d.located, x.2.isBound x.1 = true))

/-! ## Along the shape -/

theorem Expr.locatedList_eq (s : Scope) (es : List Expr) :
    Expr.locatedList s es = es.flatMap (Expr.located s) := by
  induction es with
  | nil => rfl
  | cons e es ih => rw [Expr.locatedList, ih, List.flatMap_cons]

theorem Expr.locatedOption_eq (s : Scope) (o : Option Expr) :
    Expr.locatedOption s o = o.toList.flatMap (Expr.located s) := by
  cases o <;> simp [Expr.locatedOption]

theorem Receiver.located_eq (s : Scope) (r : Receiver) :
    r.located s = r.children.flatMap (Expr.located s) := by
  cases r <;> simp [located, children]

theorem RefQualifier.located_eq (s : Scope) (q : RefQualifier) :
    q.located s = q.children.flatMap (Expr.located s) := by
  cases q <;> simp [located, children]

/-- What is visible at an expression is visible at its children. -/
theorem Expr.located_eq (s : Scope) {e : Expr} (he : e.isLambda = false) :
    e.located s = (s, e) :: e.children.flatMap (Expr.located s) := by
  cases e
  case lambda => cases he
  case methodRef r =>
    obtain ⟨q, m, ts, t, sp⟩ := r
    rw [located, RefQualifier.located_eq]
    rfl
  all_goals simp [located, children, locatedList_eq, locatedOption_eq, Receiver.located_eq]

/-- The expressions of a part, each with the locals that are visible there. -/
def Part.located (s : Scope) : Part → List (Scope × Expr)
  | .exprs bs es => es.flatMap (Expr.located (Scope.enter s bs))
  | .stmts bs ss => Stmt.locatedAll (Scope.enter s bs) ss

theorem Expr.located_lambda (s : Scope) (l : Lambda) :
    (Expr.lambda l).located s = (s, .lambda l) :: (l.body.part l.params).located s := by
  obtain ⟨ps, b, bt, t, sp⟩ := l
  cases b <;> simp [located, LambdaBody.located, LambdaBody.part, Part.located]

theorem Expr.mem_located (s : Scope) (e : Expr) : (s, e) ∈ e.located s := by
  cases he : e.isLambda with
  | false =>
    rw [located_eq s he]
    exact List.mem_cons_self
  | true =>
    cases e
    case lambda l =>
      rw [located_lambda]
      exact List.mem_cons_self
    all_goals cases he

theorem Stmt.located_eq (s : Scope) (st : Stmt) :
    st.located s = st.parts.flatMap (Part.located s) := by
  cases st
  case cond c t e =>
    cases e <;> simp [located, locatedOption, parts, Part.located, Lowering.enter_nil]
  case tryCatch b handler final =>
    rcases handler with _ | ⟨p, h⟩ <;> cases final <;>
      simp [located, locatedOption, CatchClause.locatedOption, parts, Part.located,
        Lowering.enter_nil]
  all_goals simp [located, parts, Part.located, Lowering.enter_nil, Expr.locatedList_eq,
    Expr.locatedOption_eq]

theorem Lowering.enter_append (s : Scope) (ps ps' : List Param) :
    Scope.enter s (ps ++ ps') = Scope.enter (Scope.enter s ps) ps' := by
  simp [Scope.enter]

theorem Stmt.locatedAll_append (s : Scope) (ss ss' : List Stmt) :
    Stmt.locatedAll s (ss ++ ss') =
      Stmt.locatedAll s ss ++ Stmt.locatedAll (Scope.enter s (ss.flatMap declares)) ss' := by
  induction ss generalizing s with
  | nil => rfl
  | cons t ts ih =>
    rw [List.cons_append, locatedAll, ih, locatedAll, List.flatMap_cons, Lowering.enter_append,
      List.append_assoc]

/-! ## Properties of located expressions -/

/-- A property of every expression of a tree at the locals that are visible
there. -/
abbrev Everywhere (P : Scope → Expr → Prop) (xs : List (Scope × Expr)) : Prop := ∀ x ∈ xs, P x.1 x.2

section Everywhere

variable {P : Scope → Expr → Prop} {s : Scope}

theorem everywhere_append {xs ys : List (Scope × Expr)} :
    Everywhere P (xs ++ ys) ↔ Everywhere P xs ∧ Everywhere P ys := List.forall_mem_append

theorem everywhere_flatMap {α : Type} {f : α → List (Scope × Expr)} {as : List α} :
    Everywhere P (as.flatMap f) ↔ ∀ a ∈ as, Everywhere P (f a) := by
  simp only [Everywhere, List.mem_flatMap]
  exact ⟨fun h a ha x hx => h x ⟨a, ha, hx⟩, fun h x ⟨a, ha, hx⟩ => h a ha x hx⟩

theorem everywhere_expr {e : Expr} (he : e.isLambda = false) :
    Everywhere P (e.located s) ↔ P s e ∧ ∀ c ∈ e.children, Everywhere P (c.located s) := by
  rw [Expr.located_eq s he, Everywhere, List.forall_mem_cons]
  exact and_congr_right fun _ => everywhere_flatMap

theorem everywhere_stmt {st : Stmt} :
    Everywhere P (st.located s) ↔ ∀ part ∈ st.parts, Everywhere P (part.located s) := by
  rw [Stmt.located_eq, everywhere_flatMap]

end Everywhere

/-! ## Located expressions are nodes -/

theorem Part.mem_walk_of_mem_located {p : Part} {s : Scope} {x : Scope × Expr}
    (hx : x ∈ p.located s) (h : p.All (fun e => ∀ s x, x ∈ e.located s → Node.expr x.2 ∈ e.nodes)
      fun st => ∀ s x, x ∈ st.located s → Node.expr x.2 ∈ st.walk fun _ => true) :
    Node.expr x.2 ∈ p.walk fun _ => true := by
  cases p with
  | exprs bs es =>
    obtain ⟨e, he, hx⟩ := List.mem_flatMap.mp hx
    rw [walk, Expr.walkList_eq, List.mem_flatMap]
    exact ⟨e, he, h e he _ x hx⟩
  | stmts bs ss =>
    rw [walk, Stmt.walkAll_eq]
    rw [Part.located] at hx
    generalize Scope.enter s bs = s at hx
    induction ss generalizing s with
    | nil => cases hx
    | cons t ts ih =>
      obtain ⟨ht, hts⟩ := List.forall_mem_cons.mp h
      rw [List.flatMap_cons, List.mem_append]
      rcases List.mem_append.mp hx with hx | hx
      · exact .inl (ht _ x hx)
      · exact .inr (ih hts _ hx)

theorem shapeSteps_mem_nodes : ShapeSteps
    (fun e => ∀ s x, x ∈ e.located s → Node.expr x.2 ∈ e.nodes)
    (fun st => ∀ s x, x ∈ st.located s → Node.expr x.2 ∈ st.walk fun _ => true) where
  node e he hc s x hx := by
    rw [Expr.located_eq s he, List.mem_cons] at hx
    rw [Expr.nodes, Expr.walk_eq _ he, Node.reach, if_pos rfl, List.mem_cons]
    rcases hx with rfl | hx
    · exact .inl rfl
    · obtain ⟨c, hmem, hx⟩ := List.mem_flatMap.mp hx
      exact .inr (List.mem_flatMap.mpr ⟨c, hmem, hc c hmem s x hx⟩)
  lambda l hbody s x hx := by
    rw [Expr.located_lambda, List.mem_cons] at hx
    obtain ⟨ps, b, bt, t, sp⟩ := l
    rw [Expr.nodes, Expr.walk, Node.reach, if_pos rfl, List.mem_cons]
    rcases hx with rfl | hx
    · exact .inl rfl
    · rw [LambdaBody.walk_eq _ ps]
      exact .inr (Part.mem_walk_of_mem_located hx hbody)
  stmt st hparts s x hx := by
    rw [Stmt.located_eq] at hx
    obtain ⟨p, hp, hx⟩ := List.mem_flatMap.mp hx
    rw [Stmt.walk_eq, Node.reach, if_pos rfl, List.mem_cons, List.mem_flatMap]
    exact .inr ⟨p, hp, Part.mem_walk_of_mem_located hx (hparts p hp)⟩

/-- What is located in a lambda body is one of its nodes. -/
theorem LambdaBody.mem_nodes {b : LambdaBody} {params : List Param} {s : Scope} {x : Scope × Expr}
    (hx : x ∈ (b.part params).located s) : Node.expr x.2 ∈ b.nodes := by
  rw [LambdaBody.nodes, LambdaBody.walk_eq _ params]
  refine Part.mem_walk_of_mem_located hx ?_
  cases b with
  | expr e => exact List.forall_mem_singleton.mpr (shapeSteps_mem_nodes.expr e)
  | block b => exact shapeSteps_mem_nodes.stmts b

/-! ## Adapting -/

section Adapting

variable {P : Scope → Expr → Prop} {s : Scope}

/-- Statements one by one for others, that declare the same locals. -/
theorem everywhere_locatedAll {ss ss' : List Stmt} (h : List.Forall₂ (fun st st' =>
      declares st' = declares st ∧ ∀ s, Everywhere P (st.located s) → Everywhere P (st'.located s))
    ss ss') : ∀ {s}, Everywhere P (Stmt.locatedAll s ss) →
      Everywhere P (Stmt.locatedAll s ss') := by
  induction h with
  | nil => exact fun h => h
  | cons hst _ ih =>
    intro s hss
    rw [Stmt.locatedAll, everywhere_append] at hss
    rw [Stmt.locatedAll, everywhere_append, hst.1]
    exact ⟨hst.2 s hss.1, ih hss.2⟩

variable (hconv : ∀ s e, e.isConversion = true → P s e)

include hconv

theorem Expr.Wraps.everywhere {e w : Expr} (h : e.Wraps w) (he : Everywhere P (e.located s)) :
    Everywhere P (w.located s) := by
  induction h with
  | refl => exact he
  | step _ hw hc ih =>
    rw [everywhere_expr (isLambda_eq_false hw), hc]
    exact ⟨hconv s _ hw, List.forall_mem_singleton.mpr ih⟩

theorem everywhere_mapReturnsM {f : Option Expr → Except Cause (Option Expr)}
    (hf : ∀ v v', f v = .ok v' → List.Forall₂ Expr.Wraps v.toList v'.toList) :
    ShapeSteps (fun _ => True) (fun st => ∀ st', st.mapReturnsM f = .ok st' →
      ∀ s, Everywhere P (st.located s) → Everywhere P (st'.located s)) where
  node _ _ _ := trivial
  lambda _ _ := trivial
  stmt st ih st' h s hst := by
    rw [everywhere_stmt] at hst ⊢
    rcases Stmt.mapReturnsM_eq_ok h with ⟨v, v', rfl, hv, rfl⟩ | hparts
    · have hv := hf v v' hv
      refine List.forall_mem_singleton.mpr (everywhere_flatMap.mpr fun e' he' => ?_)
      obtain ⟨e, he, hw⟩ := exists_of_forall₂_right hv he'
      have hoperand : Everywhere P (Part.located s (.exprs [] v.toList)) := hst _ List.mem_cons_self
      exact hw.everywhere hconv (everywhere_flatMap.mp hoperand e he)
    · intro p' hp'
      have hall :=
        (List.forall₂_and_left _ _).mpr ⟨fun p hp => And.intro (ih p hp) (hst p hp), hparts⟩
      obtain ⟨p, -, ⟨hp, hlocated⟩, hrun⟩ := exists_of_forall₂_right hall hp'
      cases p with
      | exprs bs es =>
        cases hrun
        exact hlocated
      | stmts bs ss =>
        obtain ⟨ss', rfl, hss⟩ := Part.mapReturnsM_stmts hrun
        refine everywhere_locatedAll (((List.forall₂_and_left _ _).mpr ⟨hp, hss⟩).imp ?_) hlocated
        exact fun t t' ht => ⟨Stmt.declares_mapReturnsM ht.2, ht.1 t' ht.2⟩

/-- **The body of the method that a lambda becomes holds what the lambda
holds.** -/
theorem Lowering.everywhere_lambdaStatements {u : CompilationUnit} {body : LambdaBody} {t : Ty}
    {sam : FunctionalInterface} {ss : List Stmt} (h : lambdaStatements u body t sam = .ok ss)
    {params : List Param} (hbody : Everywhere P ((body.part params).located s)) :
    Everywhere P (Stmt.locatedAll (Scope.enter s params) ss) := by
  cases body with
  | expr value =>
    rw [lambdaStatements] at h
    cases hv : returnValue u value t sam.returnType sam.erasedReturn with
    | none => rw [hv] at h; cases h
    | some ss' =>
      rw [hv] at h
      cases h
      have hvalue := List.forall_mem_singleton.mp (everywhere_flatMap.mp hbody)
      obtain ⟨w, hw, rfl | rfl⟩ := exists_wraps_of_returnValue hv <;>
      · simp only [Stmt.locatedAll, Stmt.located, Expr.locatedOption, List.append_nil]
        exact hw.everywhere hconv hvalue
  | block b =>
    rw [lambdaStatements] at h
    split at h
    · cases h
    · rw [Stmt.mapReturnsListM_eq] at h
      have hsteps := everywhere_mapReturnsM hconv (f := adaptReturn u t sam)
        fun _ _ => forall₂_wraps_adaptReturn
      have hss := (List.forall₂_and_left _ _).mpr ⟨hsteps.stmts b, forall₂_of_mapM_ok h⟩
      exact everywhere_locatedAll
        (hss.imp fun t t' ht => ⟨Stmt.declares_mapReturnsM ht.2, ht.1 t' ht.2⟩) hbody

end Adapting

end Closures
