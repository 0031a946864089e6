import Mathlib.Data.List.Basic
import Closures.Lowering.Program
import Closures.Proofs.ReferenceForms
import Closures.Proofs.TreeShape

/-!
# Sites and constructions

The **marks** of a tree are its closure sites and the constructions of adapters
in it, in the order of the walk. They are what lowering trades: it takes the
sites away and puts constructions in their place. Everything else that is done
to a body on the way, adapting values, changing returns and redirecting to the
fields of an adapter, leaves the marks as they are; this module proves so.
-/

set_option autoImplicit false

namespace Closures

/-- What a node says about closures. -/
inductive Mark where
  /-- A site, with its span. -/
  | site (span : Span)
  /-- The construction of an adapter, with the number of captures unless it is
  the shared instance. -/
  | construct (adapter : ClassId) (captures : Option Nat)
deriving DecidableEq

/-- The mark of a node. -/
def Node.mark? : Node → Option Mark
  | .expr (.lambda l) => some (.site l.span)
  | .expr (.methodRef r) => some (.site r.span)
  | .expr (.newClosure a cs) => some (.construct a (some cs.length))
  | .expr (.singleton a) => some (.construct a none)
  | _ => none

/-- The marks of nodes, in order. -/
def marks (ns : List Node) : List Mark := ns.filterMap Node.mark?

/-- The marks of an expression. -/
def Expr.marks (e : Expr) : List Mark := Closures.marks e.nodes

/-- The marks of a statement. -/
def Stmt.marks (s : Stmt) : List Mark := Closures.marks (s.walk fun _ => true)

/-- The marks of a part. -/
def Part.marks : Part → List Mark
  | .exprs _ es => es.flatMap Expr.marks
  | .stmts _ ss => ss.flatMap Stmt.marks

/-! ## Marks along the shape -/

theorem marks_append (ns ns' : List Node) : marks (ns ++ ns') = marks ns ++ marks ns' :=
  List.filterMap_append

theorem marks_cons (n : Node) (ns : List Node) : marks (n :: ns) = n.mark?.toList ++ marks ns := by
  rw [marks, marks, List.filterMap_cons]
  cases n.mark? <;> rfl

theorem marks_flatMap {α : Type} (f : α → List Node) (as : List α) :
    marks (as.flatMap f) = as.flatMap fun a => marks (f a) :=
  List.filterMap_flatMap

theorem Part.marks_walk (p : Part) : Closures.marks (p.walk fun _ => true) = p.marks := by
  cases p with
  | exprs bs es => rw [walk, Expr.walkList_eq, marks_flatMap]; rfl
  | stmts bs ss => rw [walk, Stmt.walkAll_eq, marks_flatMap]; rfl

theorem Expr.marks_eq {e : Expr} (he : e.isLambda = false) :
    e.marks = (Node.expr e).mark?.toList ++ e.children.flatMap Expr.marks := by
  rw [marks, nodes, walk_eq _ he, Node.reach, if_pos rfl, marks_cons, marks_flatMap]
  rfl

theorem Expr.marks_congr {e e' : Expr} (he : e.isLambda = false) (he' : e'.isLambda = false)
    (hm : (Node.expr e').mark? = (Node.expr e).mark?)
    (hc : e'.children.flatMap Expr.marks = e.children.flatMap Expr.marks) : e'.marks = e.marks := by
  rw [marks_eq he, marks_eq he', hm, hc]

/-- An expression around a single other one has the marks of that one. -/
theorem Expr.marks_wrap {e w : Expr} (hw : w.isLambda = false) (hm : (Node.expr w).mark? = none)
    (hc : w.children = [e]) : w.marks = e.marks := by
  rw [marks_eq hw, hm, hc, List.flatMap_singleton]
  rfl

theorem Expr.marks_lambda (l : Lambda) :
    (Expr.lambda l).marks = .site l.span :: (l.body.part l.params).marks := by
  obtain ⟨ps, b, bt, t, s⟩ := l
  rw [marks, nodes, walk, Node.reach, if_pos rfl, marks_cons, LambdaBody.walk_eq _ ps,
    Part.marks_walk]
  rfl

theorem Stmt.marks_eq (s : Stmt) : s.marks = s.parts.flatMap Part.marks := by
  rw [marks, walk_eq, Node.reach, if_pos rfl, marks_cons, marks_flatMap]
  simp only [Part.marks_walk]
  rfl

/-- Other children do not change the mark of an expression. -/
theorem Expr.mark?_withChildren {e : Expr} {cs : List Expr} (h : cs.length = e.children.length) :
    (Node.expr (e.withChildren cs)).mark? = (Node.expr e).mark? := by
  cases e
  case newClosure a es => rw [withChildren, Node.mark?, Node.mark?, h]; rfl
  all_goals rfl

/-! ## Marks of statement lists -/

/-- The marks of statements in order. -/
def Stmt.marksAll (ss : List Stmt) : List Mark := ss.flatMap Stmt.marks

theorem Stmt.marks_nodes (ss : List Stmt) : Closures.marks (Stmt.nodes ss) = Stmt.marksAll ss := by
  rw [Stmt.nodes, Stmt.walkAll_eq, marks_flatMap]
  rfl

/-! ## Replacing -/

theorem Stmt.declares_replace (f : Expr → Expr) (s : Stmt) :
    Lowering.declares (s.replace f) = Lowering.declares s := by
  rw [replace_eq, declares_withParts]

/-- Replacing leaves parts of the same kind. -/
theorem Part.like_replace (f : Expr → Expr) (p : Part) : p.Like (p.replace f) := by
  cases p with
  | exprs bs es => exact ⟨rfl, List.length_map _⟩
  | stmts bs ss =>
    refine ⟨rfl, ?_⟩
    rw [List.map_map]
    exact List.map_congr_left fun s _ => s.declares_replace f

theorem Stmt.parts_replace (f : Expr → Expr) (s : Stmt) :
    (s.replace f).parts = s.parts.map (Part.replace f) := by
  rw [replace_eq]
  refine parts_withParts ?_
  rw [List.forall₂_map_right_iff]
  exact List.forall₂_same.mpr fun p _ => p.like_replace f

theorem Part.marks_replace {f : Expr → Expr} {p : Part}
    (h : p.All (fun e => (e.replace f).marks = e.marks) fun s => (s.replace f).marks = s.marks) :
    (p.replace f).marks = p.marks := by
  cases p <;> exact (List.flatMap_map ..).trans (List.flatMap_congr h)

/-- **A replacement that keeps the marks of single expressions keeps those of
trees.** -/
theorem marks_replace {f : Expr → Expr} (hf : ∀ e, (f e).marks = e.marks) :
    ShapeSteps (fun e => (e.replace f).marks = e.marks)
      (fun s => (s.replace f).marks = s.marks) where
  node e he ih := by
    have hlen : (e.children.map (·.replace f)).length = e.children.length := List.length_map _
    rw [Expr.replace_eq he, hf, Expr.marks_eq (Expr.isLambda_withChildren he),
      Expr.mark?_withChildren hlen, Expr.children_withChildren hlen, List.flatMap_map,
      Expr.marks_eq he, List.flatMap_congr ih]
  lambda l ih := by
    rw [Expr.replace_lambda, hf, Expr.marks_lambda, Expr.marks_lambda]
    dsimp only
    rw [LambdaBody.part_replace, Part.marks_replace ih]
  stmt s ih := by
    rw [Stmt.marks_eq, Stmt.parts_replace, List.flatMap_map, Stmt.marks_eq]
    exact List.flatMap_congr fun p hp => Part.marks_replace (ih p hp)

/-! ## Redirecting -/

@[simp] theorem CaptureSet.marks_slotRead (adapter : ClassId) (slot : Nat) :
    (slotRead adapter slot).marks = [] := rfl

theorem CaptureSet.marks_readInstance? {c : CaptureSet} {adapter : ClassId}
    {depth : Except Cause Nat} {e : Expr} (h : c.readInstance? adapter depth = some e) :
    e.marks = [] := by
  obtain ⟨d, i, -, rfl⟩ := readInstance?_eq_some h
  rfl

/-- A redirected expression reads from slots where it read locals and instances
before. -/
theorem CaptureSet.marks_redirect (s : Site) (c : CaptureSet) (adapter : ClassId) (e : Expr) :
    (c.redirect s adapter e).marks = e.marks := by
  cases e
  case localGet id => rw [redirect]; split <;> rfl
  case this q =>
    rw [redirect]
    cases h : c.readInstance? adapter (s.thisDepth q) with
    | none => rfl
    | some e => exact marks_readInstance? h
  case fieldGet r f =>
    cases r with
    | some r => rfl
    | none =>
      rw [redirect]
      split
      · cases h : c.readInstance? adapter (s.memberDepth f.owner) with
        | none => rfl
        | some e =>
          exact Expr.marks_congr rfl rfl rfl (by simp [Expr.children, marks_readInstance? h])
      · rfl
  case fieldSet r f v =>
    cases r with
    | some r => rfl
    | none =>
      rw [redirect]
      split
      · cases h : c.readInstance? adapter (s.memberDepth f.owner) with
        | none => rfl
        | some e =>
          exact Expr.marks_congr rfl rfl rfl (by simp [Expr.children, marks_readInstance? h])
      · rfl
  case call r m args =>
    cases r with
    | implicit =>
      rw [redirect]
      split
      · cases h : c.readInstance? adapter (s.memberDepth m.owner) with
        | none => rfl
        | some e =>
          exact Expr.marks_congr rfl rfl rfl
            (by simp [Expr.children, Receiver.children, marks_readInstance? h])
      · rfl
    | super q =>
      rw [redirect]
      cases h : c.readInstance? adapter (s.thisDepth q) with
      | none => rfl
      | some e =>
        exact Expr.marks_congr rfl rfl rfl
          (by simp [Expr.children, Receiver.children, marks_readInstance? h])
    | static | expr _ | nonVirtual _ => rfl
  case new t ctor o args =>
    cases o with
    | some o => rfl
    | none =>
      rw [redirect]
      split
      · rename_i depth _
        cases h : c.readInstance? adapter (.ok depth) with
        | none => rfl
        | some e =>
          exact Expr.marks_congr rfl rfl rfl (by simp [Expr.children, marks_readInstance? h])
      · rfl
      · rfl
  all_goals rfl

theorem CaptureSet.marks_redirectAll (s : Site) (c : CaptureSet) (adapter : ClassId)
    (ss : List Stmt) : Stmt.marksAll (c.redirectAll s adapter ss) = Stmt.marksAll ss := by
  rw [redirectAll, Stmt.replaceAll_eq, Stmt.marksAll, List.flatMap_map]
  exact List.flatMap_congr ((marks_replace (c.marks_redirect s adapter)).stmts ss)

/-! ## Adapting -/

theorem Expr.mark?_eq_none {w : Expr} (h : w.isConversion = true) : (Node.expr w).mark? = none := by
  cases w
  case lambda | methodRef | newClosure | singleton => cases h
  all_goals rfl

theorem Expr.Wraps.marks_eq {e w : Expr} (h : e.Wraps w) : w.marks = e.marks := by
  induction h with
  | refl => rfl
  | step _ hw hc ih =>
    exact (Expr.marks_wrap (isLambda_eq_false hw) (mark?_eq_none hw) hc).trans ih

/-! ## Changing returns -/

section Returns

variable {f : Option Expr → Except Cause (Option Expr)}

theorem Stmt.declares_mapReturnsM {s s' : Stmt} (h : s.mapReturnsM f = .ok s') :
    Lowering.declares s' = Lowering.declares s := by
  cases hs : s.isReturn with
  | true =>
    cases s
    case ret v =>
      obtain ⟨v', -, h⟩ := bind_eq_ok.mp h
      cases h
      rfl
    all_goals cases hs
  | false =>
    rw [mapReturnsM_eq hs, map_eq_ok] at h
    obtain ⟨ps, -, rfl⟩ := h
    exact s.declares_withParts ps

theorem Part.mapReturnsM_stmts {bs : List Param} {ss : List Stmt} {p' : Part}
    (h : Part.mapReturnsM f (.stmts bs ss) = .ok p') :
    ∃ ss', p' = .stmts bs ss' ∧ List.Forall₂ (fun s s' => s.mapReturnsM f = .ok s') ss ss' := by
  rw [mapReturnsM, Stmt.mapReturnsListM_eq, map_eq_ok] at h
  obtain ⟨ss', hss, rfl⟩ := h
  exact ⟨ss', rfl, forall₂_of_mapM_ok hss⟩

theorem Part.like_mapReturnsM {p p' : Part} (h : p.mapReturnsM f = .ok p') : p.Like p' := by
  cases p with
  | exprs bs es =>
    cases h
    exact ⟨rfl, rfl⟩
  | stmts bs ss =>
    obtain ⟨ss', rfl, hss⟩ := mapReturnsM_stmts h
    exact ⟨rfl, map_eq_of_forall₂ (hss.imp fun _ _ h => Stmt.declares_mapReturnsM h)⟩

/-- What becomes of a statement when returns are changed: a `return` has its
operand changed, and of any other statement the parts are gone through. -/
theorem Stmt.mapReturnsM_eq_ok {s s' : Stmt} (h : s.mapReturnsM f = .ok s') :
    (∃ v v', s = .ret v ∧ f v = .ok v' ∧ s' = .ret v') ∨
      List.Forall₂ (fun p p' => p.mapReturnsM f = .ok p') s.parts s'.parts := by
  cases hs : s.isReturn with
  | true =>
    cases s
    case ret v =>
      obtain ⟨v', hv, h⟩ := bind_eq_ok.mp h
      cases h
      exact .inl ⟨v, v', rfl, hv, rfl⟩
    all_goals cases hs
  | false =>
    rw [mapReturnsM_eq hs, map_eq_ok] at h
    obtain ⟨ps, hps, rfl⟩ := h
    have hps := forall₂_of_mapM_ok hps
    rw [parts_withParts (hps.imp fun _ _ h => Part.like_mapReturnsM h)]
    exact .inr hps

/-- **Changes of returns that keep the marks of operands keep those of
trees.** -/
theorem marks_mapReturnsM
    (hf : ∀ v v', f v = .ok v' → v'.toList.flatMap Expr.marks = v.toList.flatMap Expr.marks) :
    ShapeSteps (fun _ => True) (fun s => ∀ s', s.mapReturnsM f = .ok s' → s'.marks = s.marks) where
  node _ _ _ := trivial
  lambda _ _ := trivial
  stmt s ih s' h := by
    rw [Stmt.marks_eq, Stmt.marks_eq]
    rcases Stmt.mapReturnsM_eq_ok h with ⟨v, v', rfl, hv, rfl⟩ | hps
    · simpa [Stmt.parts, Part.marks] using hf v v' hv
    · refine flatMap_eq_of_forall₂ (((List.forall₂_and_left _ _).mpr ⟨ih, hps⟩).imp ?_)
      rintro p p' ⟨hp, h⟩
      cases p with
      | exprs bs es => cases h; rfl
      | stmts bs ss =>
        obtain ⟨ss', rfl, hss⟩ := Part.mapReturnsM_stmts h
        exact flatMap_eq_of_forall₂
          (((List.forall₂_and_left _ _).mpr ⟨hp, hss⟩).imp fun s s' hs => hs.1 s' hs.2)

end Returns

/-! ## The pieces of an adapter -/

theorem Stmt.marksAll_append (ss ss' : List Stmt) :
    Stmt.marksAll (ss ++ ss') = Stmt.marksAll ss ++ Stmt.marksAll ss' := List.flatMap_append

theorem marksAll_returnValue {u : CompilationUnit} {value : Expr} {result inst erased : Ty}
    {ss : List Stmt} (h : returnValue u value result inst erased = some ss) :
    Stmt.marksAll ss = value.marks := by
  obtain ⟨w, hw, rfl | rfl⟩ := exists_wraps_of_returnValue h <;>
    simp [Stmt.marksAll, Stmt.marks_eq, Stmt.parts, Part.marks, hw.marks_eq]

namespace Lowering

/-- The body of the method that a lambda becomes has the marks of the lambda. -/
theorem marksAll_lambdaStatements {u : CompilationUnit} {body : LambdaBody} {t : Ty}
    {sam : FunctionalInterface} {ss : List Stmt} (h : lambdaStatements u body t sam = .ok ss)
    (params : List Param) : Stmt.marksAll ss = (body.part params).marks := by
  cases body with
  | expr value =>
    rw [lambdaStatements] at h
    cases hv : returnValue u value t sam.returnType sam.erasedReturn with
    | none => rw [hv] at h; cases h
    | some ss' =>
      rw [hv] at h
      cases h
      rw [marksAll_returnValue hv]
      exact (List.flatMap_singleton ..).symm
  | block b =>
    rw [lambdaStatements] at h
    split at h
    · cases h
    · rw [Stmt.mapReturnsListM_eq] at h
      have hf : ∀ v v', adaptReturn u t sam v = .ok v' →
          v'.toList.flatMap Expr.marks = v.toList.flatMap Expr.marks := fun v v' hv =>
        flatMap_eq_of_forall₂ ((forall₂_wraps_adaptReturn hv).imp fun _ _ hw => hw.marks_eq)
      have hss := (List.forall₂_and_left _ _).mpr
        ⟨(marks_mapReturnsM hf).stmts b, forall₂_of_mapM_ok h⟩
      exact flatMap_eq_of_forall₂ (hss.imp fun s s' hs => hs.1 s' hs.2)

end Lowering

/-- An operand has no marks, unless it is that of a receiver. -/
theorem CaptureSet.marks_operand (s : Site) (receiver : Option Expr) (slot : Slot)
    (h : receiver = none ∨ ∀ t, slot ≠ .receiver t) : (operand s receiver slot).marks = [] := by
  rcases slot with _ | ⟨_ | _, _⟩ | t
  · rfl
  · rfl
  · rfl
  · rcases h with rfl | h
    · rfl
    · exact absurd rfl (h t)

theorem Expr.marks_eq_nil {e : Expr} (he : e.isLambda = false) (hm : (Node.expr e).mark? = none)
    (hc : ∀ c ∈ e.children, c.marks = []) : e.marks = [] := by
  rw [Expr.marks_eq he, hm, List.flatMap_eq_nil_iff.mpr hc]
  rfl

theorem Expr.marks_eq_nil_of_isGlue (e : Expr) (he : e.isGlue = true)
    (hc : ∀ c ∈ e.children, c.marks = []) : e.marks = [] := by
  refine Expr.marks_eq_nil (isLambda_of_isGlue he) ?_ hc
  cases e
  case lambda | methodRef | newClosure | singleton => cases he
  all_goals rfl

/-- The call that a method reference becomes has no marks. -/
theorem Lowering.marks_referenceCall {u : CompilationUnit} {adapter : ClassId}
    {captures : CaptureSet}
    {r : Reference} {args : List (Expr × Ty)} {call : Expr} (hargs : ∀ a ∈ args, a.1.marks = [])
    (h : referenceCall u adapter captures r args = .ok call) : call.marks = [] :=
  referenceCall_induction Expr.marks_eq_nil_of_isGlue
    (fun _ _ _ _ has => Expr.marks_eq_nil rfl rfl has) (fun _ _ => rfl) hargs h

end Closures
