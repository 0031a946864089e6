import Mathlib.Data.List.Forall2
import Closures.Lowering.Body
import Closures.Proofs.Computation

/-!
# The shape of trees

Walking, replacing and lowering go through trees in the same way, and differ in
what they do at a node. This module says once how a tree is made of its parts,
so that a property of such a traversal needs no look at the single forms:

* an expression that is not a lambda is made of its **children**
  (`Expr.children`), and `Expr.withChildren` puts others in their place;
* a statement and a lambda are made of **parts** (`Part`), lists of expressions
  or statements that stand in the scope of some binders;
* `Expr.shapeInduction` is induction along children and parts.
-/

set_option autoImplicit false

namespace Closures

/-! ## Children -/

/-- Put another expression in the place of one that may be absent. -/
def refill : Option Expr → List Expr → Option Expr
  | none, _ => none
  | some e, cs => some (cs.headD e)

/-- Put another expression in the place of the object that a receiver names. -/
def Receiver.refill : Receiver → List Expr → Receiver
  | .expr e, cs => .expr (cs.headD e)
  | .nonVirtual e, cs => .nonVirtual (cs.headD e)
  | r, _ => r

/-- Put another expression in the place of the object that a reference qualifier
names. -/
def RefQualifier.refill : RefQualifier → List Expr → RefQualifier
  | .expr e t, cs => .expr (cs.headD e) t
  | q, _ => q

/-- The same expression with other children. -/
def Expr.withChildren : Expr → List Expr → Expr
  | .localSet id v, cs => .localSet id (cs.headD v)
  | .fieldGet r f, cs => .fieldGet (refill r cs) f
  | .fieldSet r f v, cs => .fieldSet (refill r cs) f (cs.getLastD v)
  | .call r m _, cs => .call (r.refill cs) m (cs.drop r.children.length)
  | .new t c o _, cs => .new t c (refill o cs) (cs.drop o.toList.length)
  | .newArray t n, cs => .newArray t (cs.headD n)
  | .arrayLit t _, cs => .arrayLit t cs
  | .arrayGet a i, cs => .arrayGet (cs.getD 0 a) (cs.getD 1 i)
  | .arraySet a i v, cs => .arraySet (cs.getD 0 a) (cs.getD 1 i) (cs.getD 2 v)
  | .arrayLength a, cs => .arrayLength (cs.headD a)
  | .binary op l r, cs => .binary op (cs.getD 0 l) (cs.getD 1 r)
  | .compare op l r, cs => .compare op (cs.getD 0 l) (cs.getD 1 r)
  | .logical op l r, cs => .logical op (cs.getD 0 l) (cs.getD 1 r)
  | .unary op e, cs => .unary op (cs.headD e)
  | .cond c t e, cs => .cond (cs.getD 0 c) (cs.getD 1 t) (cs.getD 2 e)
  | .cast e t, cs => .cast (cs.headD e) t
  | .instanceOf e t, cs => .instanceOf (cs.headD e) t
  | .box e k, cs => .box (cs.headD e) k
  | .unbox e k, cs => .unbox (cs.headD e) k
  | .convert e k, cs => .convert (cs.headD e) k
  | .nullCheck e, cs => .nullCheck (cs.headD e)
  | .intrinsic op _, cs => .intrinsic op cs
  | .methodRef site, cs => .methodRef { site with qualifier := site.qualifier.refill cs }
  | .newClosure a _, cs => .newClosure a cs
  | e, _ => e

/-- Whether an expression is a lambda. -/
def Expr.isLambda : Expr → Bool
  | .lambda _ => true
  | _ => false

theorem Receiver.walk_eq (d : Node → Bool) (r : Receiver) :
    r.walk d = r.children.flatMap fun e => e.walk d := by
  cases r <;> simp [walk, children]

theorem Receiver.children_refill {r : Receiver} {cs : List Expr}
    (h : r.children.length ≤ cs.length) :
    (r.refill cs).children = cs.take r.children.length := by
  cases r <;> cases cs <;> simp_all [refill, children]

theorem RefQualifier.children_refill {q : RefQualifier} {cs : List Expr}
    (h : cs.length = q.children.length) : (q.refill cs).children = cs := by
  cases q with
  | expr e t =>
    obtain ⟨a, rfl⟩ := List.length_eq_one_iff.mp h
    rfl
  | type | super => exact (List.length_eq_zero_iff.mp h).symm

theorem toList_refill {o : Option Expr} {cs : List Expr} (h : o.toList.length ≤ cs.length) :
    (refill o cs).toList = cs.take o.toList.length := by
  cases o <;> cases cs <;> simp_all [refill]

namespace Expr

theorem walkList_eq (d : Node → Bool) (es : List Expr) :
    walkList d es = es.flatMap fun e => e.walk d := by
  induction es with
  | nil => rfl
  | cons e es ih => rw [walkList, ih, List.flatMap_cons]

theorem walkOption_eq (d : Node → Bool) (o : Option Expr) :
    walkOption d o = o.toList.flatMap fun e => e.walk d := by
  cases o <;> simp [walkOption]

/-- The nodes of an expression are itself and those of its children. -/
theorem walk_eq (d : Node → Bool) {e : Expr} (he : e.isLambda = false) :
    e.walk d = Node.reach d (.expr e) (e.children.flatMap fun c => c.walk d) := by
  cases e
  case lambda => cases he
  case methodRef site =>
    obtain ⟨q, m, ts, t, s⟩ := site
    cases q <;> simp [walk, children, RefQualifier.walk, RefQualifier.children]
  all_goals simp [walk, children, walkList_eq, walkOption_eq, Receiver.walk_eq]

theorem children_withChildren {e : Expr} {cs : List Expr} (h : cs.length = e.children.length) :
    (e.withChildren cs).children = cs := by
  cases e
  case fieldSet r f v =>
    cases r with
    | none =>
      obtain ⟨a, rfl⟩ := List.length_eq_one_iff.mp h
      rfl
    | some r =>
      obtain ⟨a, b, rfl⟩ := List.length_eq_two.mp h
      rfl
  case call r m args =>
    have hr : r.children.length ≤ cs.length := by simp [h, children]
    simp [withChildren, children, Receiver.children_refill hr]
  case new t c o args =>
    have ho : o.toList.length ≤ cs.length := by simp [h, children]
    simp [withChildren, children, toList_refill ho]
  case fieldGet r f =>
    have hr : r.toList.length ≤ cs.length := by simp [h, children]
    rw [withChildren, children, toList_refill hr]
    exact List.take_of_length_le (Nat.le_of_eq h)
  case methodRef site =>
    exact RefQualifier.children_refill h
  case arrayLit | intrinsic | newClosure => rfl
  case null | bool | int | long | double | char | string | localGet | this | singleton | lambda =>
    exact (List.length_eq_zero_iff.mp h).symm
  case arrayGet | binary | compare | logical =>
    obtain ⟨a, b, rfl⟩ := List.length_eq_two.mp h
    rfl
  case arraySet | cond =>
    obtain ⟨a, b, c, rfl⟩ := List.length_eq_three.mp h
    rfl
  case localSet | newArray | arrayLength | unary | cast | instanceOf | box | unbox | convert |
      nullCheck =>
    obtain ⟨a, rfl⟩ := List.length_eq_one_iff.mp h
    rfl

end Expr

theorem Expr.isLambda_withChildren {e : Expr} (he : e.isLambda = false) {cs : List Expr} :
    (e.withChildren cs).isLambda = false := by
  cases e
  case lambda => cases he
  all_goals rfl

/-! ## Lowering children -/

namespace Lowering

variable {cx : Context} {scope : Scope}

/-- **Lowering leaves an expression that is no site as it is, and lowers its
children in order.** -/
theorem lowerExpr_eq {e : Expr} (he : e.isSite = false) :
    lowerExpr cx scope e = e.withChildren <$> lowerExprs cx scope e.children := by
  cases e
  case lambda | methodRef => cases he
  case fieldGet r f =>
    cases r <;> simp [lowerExpr, lowerOption, lowerExprs, Expr.children, Expr.withChildren, refill]
  case fieldSet r f v =>
    cases r <;> simp [lowerExpr, lowerOption, lowerExprs, Expr.children, Expr.withChildren, refill]
  case call r m args =>
    cases r <;> simp [lowerExpr, lowerReceiver, lowerExprs, Expr.children, Expr.withChildren,
      Receiver.children, Receiver.refill] <;> rfl
  case new t c o args =>
    cases o with
    | none =>
      simp [lowerExpr, lowerOption, Expr.children]
      rfl
    | some o => simp [lowerExpr, lowerOption, lowerExprs, Expr.children, Expr.withChildren, refill]
  case arrayLit | intrinsic | newClosure =>
    simp [lowerExpr, Expr.children]
    rfl
  all_goals simp [lowerExpr, lowerExprs, Expr.children, Expr.withChildren]

/-- The qualifier of a method reference is lowered through the child it has. -/
theorem lowerQualifier_eq (q : RefQualifier) :
    lowerQualifier cx scope q = q.refill <$> lowerExprs cx scope q.children := by
  cases q <;> simp [lowerQualifier, lowerExprs, RefQualifier.children, RefQualifier.refill]

end Lowering

/-! ## Parts -/

/-- A part of a statement or of a lambda: expressions or statements, and the
locals that stand for them beyond those around. -/
inductive Part where
  | exprs (binders : List Param) (es : List Expr)
  | stmts (binders : List Param) (ss : List Stmt)

namespace Part

/-- The locals that a part can see beyond those around. -/
def binders : Part → List Param
  | exprs bs _ | stmts bs _ => bs

/-- The nodes of a part, pre-order. -/
def walk (d : Node → Bool) : Part → List Node
  | exprs _ es => Expr.walkList d es
  | stmts _ ss => Stmt.walkAll d ss

/-- A property of the expressions of a part, or of its statements. -/
def All (P : Expr → Prop) (Q : Stmt → Prop) : Part → Prop
  | exprs _ es => ∀ e ∈ es, P e
  | stmts _ ss => ∀ s ∈ ss, Q s

end Part

/-- The body of a lambda, in which its parameters are bound. -/
def LambdaBody.part (params : List Param) : LambdaBody → Part
  | .expr e => .exprs params [e]
  | .block b => .stmts params b

/-- The parts of a statement, in order. What a for-loop declares at first is
bound in its other parts. -/
def Stmt.parts : Stmt → List Part
  | .declare _ init => [.exprs [] init.toList]
  | .expr e | .raise e => [.exprs [] [e]]
  | .ret v => [.exprs [] v.toList]
  | .cond c t e => .exprs [] [c] :: .stmts [] t :: e.toList.map (.stmts [])
  | .whileLoop c b => [.exprs [] [c], .stmts [] b]
  | .forLoop i c u b =>
    let inner := i.flatMap Lowering.declares
    [.stmts [] i, .exprs inner c.toList, .exprs inner u, .stmts inner b]
  | .forEach v e b => [.exprs [] [e], .stmts [v] b]
  | .block b => [.stmts [] b]
  | .tryCatch b handler final =>
    .stmts [] b :: (handler.toList.map (fun h => .stmts [h.param] h.body)
      ++ final.toList.map (.stmts []))
  | .breakLoop | .continueLoop => []

theorem Stmt.walkAll_eq (d : Node → Bool) (ss : List Stmt) :
    walkAll d ss = ss.flatMap fun s => s.walk d := by
  induction ss with
  | nil => rfl
  | cons s ss ih => rw [walkAll, ih, List.flatMap_cons]

/-- The nodes of a statement are itself and those of its parts. -/
theorem Stmt.walk_eq (d : Node → Bool) (s : Stmt) :
    s.walk d = Node.reach d (.stmt s) (s.parts.flatMap (Part.walk d)) := by
  cases s
  case cond c t e =>
    cases e <;> simp [walk, walkOption, parts, Part.walk, Expr.walkList]
  case tryCatch b handler final =>
    rcases handler with _ | ⟨p, h⟩ <;> cases final <;>
      simp [walk, walkOption, CatchClause.walkOption, parts, Part.walk]
  all_goals simp [walk, parts, Part.walk, Expr.walkList, Expr.walkList_eq, Expr.walkOption_eq]

theorem LambdaBody.walk_eq (d : Node → Bool) (params : List Param) (b : LambdaBody) :
    b.walk d = (b.part params).walk d := by
  cases b <;> simp [walk, part, Part.walk, Expr.walkList]

/-- The expressions of a part. -/
def exprsAt (ps : List Part) (i : Nat) : List Expr :=
  match ps[i]? with
  | some (.exprs _ es) => es
  | _ => []

/-- The statements of a part. -/
def stmtsAt (ps : List Part) (i : Nat) : List Stmt :=
  match ps[i]? with
  | some (.stmts _ ss) => ss
  | _ => []

/-- The same statement with other parts. -/
def Stmt.withParts : Stmt → List Part → Stmt
  | .declare p _, ps => .declare p (exprsAt ps 0).head?
  | .expr e, ps => .expr ((exprsAt ps 0).headD e)
  | .ret _, ps => .ret (exprsAt ps 0).head?
  | .cond c _ e, ps => .cond ((exprsAt ps 0).headD c) (stmtsAt ps 1) (e.map fun _ => stmtsAt ps 2)
  | .whileLoop c _, ps => .whileLoop ((exprsAt ps 0).headD c) (stmtsAt ps 1)
  | .forLoop _ _ _ _, ps =>
    .forLoop (stmtsAt ps 0) (exprsAt ps 1).head? (exprsAt ps 2) (stmtsAt ps 3)
  | .forEach v e _, ps => .forEach v ((exprsAt ps 0).headD e) (stmtsAt ps 1)
  | .block _, ps => .block (stmtsAt ps 0)
  | .raise e, ps => .raise ((exprsAt ps 0).headD e)
  | .tryCatch _ handler final, ps =>
    .tryCatch (stmtsAt ps 0) (handler.map fun h => ⟨h.param, stmtsAt ps 1⟩)
      (final.map fun _ => stmtsAt ps (handler.toList.length + 1))
  | .breakLoop, _ => .breakLoop
  | .continueLoop, _ => .continueLoop

/-- Parts of the same kind with the same binders, that declare the same locals
for what follows. -/
def Part.Like : Part → Part → Prop
  | .exprs bs es, .exprs bs' es' => bs' = bs ∧ es'.length = es.length
  | .stmts bs ss, .stmts bs' ss' => bs' = bs ∧ ss'.map Lowering.declares = ss.map Lowering.declares
  | _, _ => False

theorem Part.Like.exprs_left {bs : List Param} {es : List Expr} {p : Part}
    (h : (Part.exprs bs es).Like p) : ∃ es', p = .exprs bs es' ∧ es'.length = es.length := by
  cases p with
  | exprs bs' es' => exact ⟨es', by rw [h.1], h.2⟩
  | stmts _ _ => exact h.elim

theorem Part.Like.stmts_left {bs : List Param} {ss : List Stmt} {p : Part}
    (h : (Part.stmts bs ss).Like p) :
    ∃ ss', p = .stmts bs ss' ∧ ss'.map Lowering.declares = ss.map Lowering.declares := by
  cases p with
  | exprs _ _ => exact h.elim
  | stmts bs' ss' => exact ⟨ss', by rw [h.1], h.2⟩

theorem toList_head? {es : List Expr} {o : Option Expr} (h : es.length = o.toList.length) :
    es.head?.toList = es := by
  cases o with
  | none => rw [List.length_eq_zero_iff.mp h]; rfl
  | some e =>
    obtain ⟨a, rfl⟩ := List.length_eq_one_iff.mp h
    rfl

theorem Stmt.parts_withParts {s : Stmt} {ps : List Part} (h : List.Forall₂ Part.Like s.parts ps) :
    (s.withParts ps).parts = ps := by
  cases s
  case declare p init =>
    rcases h with _ | ⟨h₁, _ | _⟩
    obtain ⟨es, rfl, hlen⟩ := h₁.exprs_left
    simp [withParts, parts, exprsAt, toList_head? hlen]
  case ret v =>
    rcases h with _ | ⟨h₁, _ | _⟩
    obtain ⟨es, rfl, hlen⟩ := h₁.exprs_left
    simp [withParts, parts, exprsAt, toList_head? hlen]
  case expr e | raise e =>
    rcases h with _ | ⟨h₁, _ | _⟩
    obtain ⟨es, rfl, hlen⟩ := h₁.exprs_left
    obtain ⟨a, rfl⟩ := List.length_eq_one_iff.mp hlen
    rfl
  case cond c t e =>
    cases e with
    | none =>
      rcases h with _ | ⟨h₁, _ | ⟨h₂, _ | _⟩⟩
      obtain ⟨es, rfl, hlen⟩ := h₁.exprs_left
      obtain ⟨a, rfl⟩ := List.length_eq_one_iff.mp hlen
      obtain ⟨ss, rfl, -⟩ := h₂.stmts_left
      rfl
    | some e =>
      rcases h with _ | ⟨h₁, _ | ⟨h₂, _ | ⟨h₃, _ | _⟩⟩⟩
      obtain ⟨es, rfl, hlen⟩ := h₁.exprs_left
      obtain ⟨a, rfl⟩ := List.length_eq_one_iff.mp hlen
      obtain ⟨ss, rfl, -⟩ := h₂.stmts_left
      obtain ⟨ss', rfl, -⟩ := h₃.stmts_left
      rfl
  case whileLoop c b =>
    rcases h with _ | ⟨h₁, _ | ⟨h₂, _ | _⟩⟩
    obtain ⟨es, rfl, hlen⟩ := h₁.exprs_left
    obtain ⟨a, rfl⟩ := List.length_eq_one_iff.mp hlen
    obtain ⟨ss, rfl, -⟩ := h₂.stmts_left
    rfl
  case forLoop i c u b =>
    rcases h with _ | ⟨h₁, _ | ⟨h₂, _ | ⟨h₃, _ | ⟨h₄, _ | _⟩⟩⟩⟩
    obtain ⟨i', rfl, hi⟩ := h₁.stmts_left
    obtain ⟨c', rfl, hlen⟩ := h₂.exprs_left
    obtain ⟨u', rfl, -⟩ := h₃.exprs_left
    obtain ⟨b', rfl, -⟩ := h₄.stmts_left
    have hinner : i'.flatMap Lowering.declares = i.flatMap Lowering.declares := by
      rw [List.flatMap_def, List.flatMap_def, hi]
    simp [withParts, parts, exprsAt, stmtsAt, toList_head? hlen, hinner]
  case forEach v e b =>
    rcases h with _ | ⟨h₁, _ | ⟨h₂, _ | _⟩⟩
    obtain ⟨es, rfl, hlen⟩ := h₁.exprs_left
    obtain ⟨a, rfl⟩ := List.length_eq_one_iff.mp hlen
    obtain ⟨ss, rfl, -⟩ := h₂.stmts_left
    rfl
  case block b =>
    rcases h with _ | ⟨h₁, _ | _⟩
    obtain ⟨ss, rfl, -⟩ := h₁.stmts_left
    rfl
  case tryCatch b handler final =>
    rcases handler with _ | ⟨p, hb⟩ <;> rcases final with _ | f
    · rcases h with _ | ⟨h₁, _ | _⟩
      obtain ⟨ss, rfl, -⟩ := h₁.stmts_left
      rfl
    · rcases h with _ | ⟨h₁, _ | ⟨h₂, _ | _⟩⟩
      obtain ⟨ss, rfl, -⟩ := h₁.stmts_left
      obtain ⟨ss', rfl, -⟩ := h₂.stmts_left
      rfl
    · rcases h with _ | ⟨h₁, _ | ⟨h₂, _ | _⟩⟩
      obtain ⟨ss, rfl, -⟩ := h₁.stmts_left
      obtain ⟨ss', rfl, -⟩ := h₂.stmts_left
      rfl
    · rcases h with _ | ⟨h₁, _ | ⟨h₂, _ | ⟨h₃, _ | _⟩⟩⟩
      obtain ⟨ss, rfl, -⟩ := h₁.stmts_left
      obtain ⟨ss', rfl, -⟩ := h₂.stmts_left
      obtain ⟨ss'', rfl, -⟩ := h₃.stmts_left
      rfl
  case breakLoop | continueLoop =>
    cases h
    rfl

/-- Other parts leave what a statement declares for those after it. -/
theorem Stmt.declares_withParts (s : Stmt) (ps : List Part) :
    Lowering.declares (s.withParts ps) = Lowering.declares s := by
  cases s <;> rfl

namespace Lowering

variable {cx : Context} {scope : Scope}

/-- Lower a part. -/
def lowerPart (cx : Context) (scope : Scope) : Part → Step Part
  | .exprs bs es => .exprs bs <$> lowerExprs cx (Scope.enter scope bs) es
  | .stmts bs ss => .stmts bs <$> lowerStmts cx (Scope.enter scope bs) ss

theorem enter_nil : Scope.enter scope [] = scope := rfl

theorem lowerOption_eq (o : Option Expr) :
    lowerOption cx scope o = List.head? <$> lowerExprs cx scope o.toList := by
  cases o <;> simp [lowerOption, lowerExprs]

/-- **Lowering leaves a statement as it is, and lowers its parts in order.** -/
theorem lowerStmt_eq (s : Stmt) :
    lowerStmt cx scope s = s.withParts <$> s.parts.mapM (lowerPart cx scope) := by
  cases s
  case cond c t e =>
    cases e <;> simp [lowerStmt, lowerBlock, lowerPart, enter_nil, lowerExprs, Stmt.parts,
      Stmt.withParts, exprsAt, stmtsAt]
  case tryCatch b handler final =>
    rcases handler with _ | ⟨p, h⟩ <;> cases final <;>
      simp [lowerStmt, lowerHandler, lowerBlock, lowerPart, enter_nil, Stmt.parts, Stmt.withParts,
        stmtsAt]
  all_goals simp [lowerStmt, lowerOption_eq, lowerPart, enter_nil, lowerExprs, Stmt.parts,
    Stmt.withParts, exprsAt, stmtsAt]

end Lowering

/-! ## Replacing children and parts -/

/-- Replace the nodes of each expression of a list. -/
def Expr.replaceList (f : Expr → Expr) (es : List Expr) : List Expr :=
  Id.run (Expr.replaceListM (fun e => pure (f e)) es)

/-- Replace the nodes of an expression that may be absent. -/
def Expr.replaceOption (f : Expr → Expr) (e : Option Expr) : Option Expr :=
  Id.run (Expr.replaceOptionM (fun e => pure (f e)) e)

/-- Replace the nodes of the object that a receiver names. -/
def Receiver.replace (f : Expr → Expr) (r : Receiver) : Receiver :=
  Id.run (r.replaceM fun e => pure (f e))

/-- Replace the expressions in a statement. -/
def Stmt.replace (f : Expr → Expr) (s : Stmt) : Stmt := Id.run (s.replaceM fun e => pure (f e))

/-- Replace the expressions in a statement list that may be absent. -/
def Stmt.replaceOption (f : Expr → Expr) (b : Option (List Stmt)) : Option (List Stmt) :=
  Id.run (Stmt.replaceOptionM (fun e => pure (f e)) b)

/-- Replace the expressions in a handler that may be absent. -/
def CatchClause.replaceOption (f : Expr → Expr) (h : Option CatchClause) : Option CatchClause :=
  Id.run (CatchClause.replaceOptionM (fun e => pure (f e)) h)

/-- Replace the expressions in a part. -/
def Part.replace (f : Expr → Expr) : Part → Part
  | .exprs bs es => .exprs bs (es.map (·.replace f))
  | .stmts bs ss => .stmts bs (ss.map (·.replace f))

section Replace

variable {f : Expr → Expr}

theorem Expr.replaceList_eq (es : List Expr) : Expr.replaceList f es = es.map (·.replace f) := by
  induction es with
  | nil => rfl
  | cons e es ih =>
    rw [List.map_cons, ← ih]
    rfl

theorem Stmt.replaceAll_eq (ss : List Stmt) : Stmt.replaceAll f ss = ss.map (·.replace f) := by
  induction ss with
  | nil => rfl
  | cons s ss ih =>
    rw [List.map_cons, ← ih]
    rfl

/-- Replacing goes through the children and then to the expression itself. -/
theorem Expr.replace_eq {e : Expr} (he : e.isLambda = false) :
    e.replace f = f (e.withChildren (e.children.map (·.replace f))) := by
  cases e
  case lambda => cases he
  case fieldGet r _ | fieldSet r _ _ => cases r <;> rfl
  case methodRef site =>
    obtain ⟨q, m, ts, t, s⟩ := site
    cases q <;> rfl
  case call r m args =>
    have hargs : ∀ r', f (.call r' m (Expr.replaceList f args)) =
        f (.call r' m (args.map (·.replace f))) := fun r' => by rw [Expr.replaceList_eq]
    cases r <;> exact hargs _
  case new t c o args =>
    have hargs : ∀ o', f (.new t c o' (Expr.replaceList f args)) =
        f (.new t c o' (args.map (·.replace f))) := fun o' => by rw [Expr.replaceList_eq]
    cases o <;> exact hargs _
  case arrayLit t es => exact congrArg (fun es => f (.arrayLit t es)) (Expr.replaceList_eq es)
  case intrinsic op es => exact congrArg (fun es => f (.intrinsic op es)) (Expr.replaceList_eq es)
  case newClosure a es => exact congrArg (fun es => f (.newClosure a es)) (Expr.replaceList_eq es)
  all_goals rfl

theorem Expr.replace_lambda (l : Lambda) :
    (Expr.lambda l).replace f = f (.lambda { l with body := l.body.replace f }) := by
  obtain ⟨ps, b, bt, t, s⟩ := l
  rfl

theorem LambdaBody.part_replace (params : List Param) (b : LambdaBody) :
    (b.replace f).part params = (b.part params).replace f := by
  cases b with
  | expr e => rfl
  | block b => exact congrArg (Part.stmts params) (Stmt.replaceAll_eq b)

/-- Replacing in a statement goes through its parts. -/
theorem Stmt.replace_eq (s : Stmt) : s.replace f = s.withParts (s.parts.map (Part.replace f)) := by
  cases s
  case declare p init => cases init <;> rfl
  case ret v => cases v <;> rfl
  case cond c t e =>
    cases e with
    | none => exact congrArg (fun t => Stmt.cond _ t none) (Stmt.replaceAll_eq t)
    | some e =>
      change Stmt.cond _ (Stmt.replaceAll f t) (some (Stmt.replaceAll f e)) = _
      rw [Stmt.replaceAll_eq, Stmt.replaceAll_eq]
      rfl
  case whileLoop c b => exact congrArg (Stmt.whileLoop _) (Stmt.replaceAll_eq b)
  case forLoop i c u b =>
    cases c <;>
    · change Stmt.forLoop (Stmt.replaceAll f i) _ (Expr.replaceList f u) (Stmt.replaceAll f b) = _
      rw [Stmt.replaceAll_eq, Stmt.replaceAll_eq, Expr.replaceList_eq]
      rfl
  case forEach v e b => exact congrArg (Stmt.forEach v _) (Stmt.replaceAll_eq b)
  case block b => exact congrArg Stmt.block (Stmt.replaceAll_eq b)
  case tryCatch b handler final =>
    have hall := Stmt.replaceAll_eq (f := f)
    rcases handler with _ | ⟨p, h⟩ <;> rcases final with _ | d
    · exact congrArg (Stmt.tryCatch · none none) (hall b)
    · change Stmt.tryCatch (Stmt.replaceAll f b) none (some (Stmt.replaceAll f d)) = _
      rw [hall, hall]
      rfl
    · change Stmt.tryCatch (Stmt.replaceAll f b) (some ⟨p, Stmt.replaceAll f h⟩) none = _
      rw [hall, hall]
      rfl
    · change Stmt.tryCatch (Stmt.replaceAll f b) (some ⟨p, Stmt.replaceAll f h⟩)
        (some (Stmt.replaceAll f d)) = _
      rw [hall, hall, hall]
      rfl
  all_goals rfl

end Replace

/-! ## Changing returns -/

section Returns

variable {m : Type → Type} [Monad m] [LawfulMonad m] {f : Option Expr → m (Option Expr)}

/-- Change the operands of the `return` statements in a part. -/
def Part.mapReturnsM (f : Option Expr → m (Option Expr)) : Part → m Part
  | .exprs bs es => pure (.exprs bs es)
  | .stmts bs ss => .stmts bs <$> Stmt.mapReturnsListM f ss

theorem Stmt.mapReturnsListM_eq (ss : List Stmt) :
    Stmt.mapReturnsListM f ss = ss.mapM (Stmt.mapReturnsM f) := by
  induction ss with
  | nil => simp [mapReturnsListM]
  | cons s ss ih => simp [mapReturnsListM, ih]

/-- Whether a statement is a `return`. -/
def Stmt.isReturn : Stmt → Bool
  | .ret _ => true
  | _ => false

/-- A statement that is no `return` is kept, and its parts are gone through in
order. -/
theorem Stmt.mapReturnsM_eq {s : Stmt} (hs : s.isReturn = false) :
    s.mapReturnsM f = s.withParts <$> s.parts.mapM (Part.mapReturnsM f) := by
  cases s
  case ret => cases hs
  case cond c t e =>
    cases e <;> simp [mapReturnsM, mapReturnsOptionM, Part.mapReturnsM, parts, withParts, exprsAt,
      stmtsAt]
  case tryCatch b handler final =>
    rcases handler with _ | ⟨p, h⟩ <;> cases final <;>
      simp [mapReturnsM, mapReturnsOptionM, CatchClause.mapReturnsOptionM, Part.mapReturnsM, parts,
        withParts, stmtsAt]
  all_goals simp [mapReturnsM, Part.mapReturnsM, parts, withParts, exprsAt, stmtsAt]

end Returns

/-! ## Conversions -/

/-- Whether an expression converts the value of another one. -/
def Expr.isConversion : Expr → Bool
  | .box _ _ | .unbox _ _ | .convert _ _ | .cast _ _ => true
  | _ => false

/-- An expression inside conversions. -/
inductive Expr.Wraps (e : Expr) : Expr → Prop where
  | refl : Wraps e e
  | step {w w' : Expr} (h : Wraps e w) (hw : w'.isConversion = true) (hc : w'.children = [w]) :
    Wraps e w'

namespace Expr.Wraps

theorem trans {e w w' : Expr} (h : Wraps e w) (h' : Wraps w w') : Wraps e w' := by
  induction h' with
  | refl => exact h
  | step _ hw hc ih => exact .step ih hw hc

theorem convertFrom (e : Expr) (source target : Primitive) :
    Wraps e (e.convertFrom source target) := by
  rw [Expr.convertFrom]
  split
  · exact .refl
  · exact .step .refl rfl rfl

/-- **Adapting puts nothing around a value but conversions.** -/
theorem adaptValue (u : CompilationUnit) (e : Expr) (source target : Ty) :
    Wraps e (adaptValue u e source target) := by
  unfold Closures.adaptValue
  split
  · exact .refl
  · split
    · exact convertFrom ..
    · exact .step (convertFrom ..) rfl rfl
    · exact .step .refl rfl rfl
    · exact .trans (.step .refl rfl rfl) (convertFrom ..)
    · exact .step (.step .refl rfl rfl) rfl rfl
    · split
      · exact .refl
      · exact .step .refl rfl rfl

theorem isLambda_eq_false {w : Expr} (h : w.isConversion = true) : w.isLambda = false := by
  cases w
  case lambda => cases h
  all_goals rfl

end Expr.Wraps

/-- Adapting the operand of a `return` leaves one that is there, inside
conversions, and adds none. -/
theorem Lowering.forall₂_wraps_adaptReturn {u : CompilationUnit} {t : Ty}
    {sam : FunctionalInterface} {v v' : Option Expr} (h : adaptReturn u t sam v = .ok v') :
    List.Forall₂ Expr.Wraps v.toList v'.toList := by
  cases v with
  | none =>
    rw [adaptReturn] at h
    split at h <;> cases h
    exact .nil
  | some v =>
    rw [adaptReturn] at h
    split at h <;> cases h
    exact .cons (.trans (.adaptValue ..) (.adaptValue ..)) .nil

theorem exists_wraps_of_returnValue {u : CompilationUnit} {value : Expr} {result inst erased : Ty}
    {ss : List Stmt} (h : returnValue u value result inst erased = some ss) :
    ∃ w, value.Wraps w ∧ (ss = [.expr w] ∨ ss = [.ret (some w)]) := by
  rw [returnValue] at h
  split at h
  · cases h
    exact ⟨value, .refl, .inl rfl⟩
  · split at h <;> cases h
    exact ⟨_, .trans (.adaptValue ..) (.adaptValue ..), .inr rfl⟩

/-! ## Induction -/

/-- What has to be shown to know something about all expressions and all
statements. -/
structure ShapeSteps (P : Expr → Prop) (Q : Stmt → Prop) : Prop where
  node : ∀ e : Expr, e.isLambda = false → (∀ c ∈ e.children, P c) → P e
  lambda : ∀ l : Lambda, (l.body.part l.params).All P Q → P (.lambda l)
  stmt : ∀ s : Stmt, (∀ part ∈ s.parts, part.All P Q) → Q s

namespace ShapeSteps

variable {P : Expr → Prop} {Q : Stmt → Prop}

mutual

/-- **Induction along children and parts**, for expressions. -/
theorem expr (h : ShapeSteps P Q) (e : Expr) : P e := by
  cases e
  case lambda l =>
    obtain ⟨ps, b, bt, t, s⟩ := l
    refine h.lambda _ ?_
    cases b with
    | expr e => exact List.forall_mem_singleton.mpr (expr h e)
    | block b => exact stmts h b
  case methodRef r =>
    obtain ⟨q, m, ts, t, s⟩ := r
    refine h.node _ rfl ?_
    cases q with
    | expr e t => exact List.forall_mem_singleton.mpr (expr h e)
    | type | super => exact fun _ h => nomatch h
  case fieldGet r f => exact h.node _ rfl (option h r)
  case fieldSet r f v =>
    exact h.node _ rfl
      (List.forall_mem_append.mpr ⟨option h r, List.forall_mem_singleton.mpr (expr h v)⟩)
  case call r m args =>
    refine h.node _ rfl (List.forall_mem_append.mpr ⟨?_, exprs h args⟩)
    cases r with
    | expr e | nonVirtual e => exact List.forall_mem_singleton.mpr (expr h e)
    | implicit | static | super => exact fun _ h => nomatch h
  case new t c o args =>
    exact h.node _ rfl (List.forall_mem_append.mpr ⟨option h o, exprs h args⟩)
  case arrayLit t es => exact h.node _ rfl (exprs h es)
  case intrinsic op es => exact h.node _ rfl (exprs h es)
  case newClosure a es => exact h.node _ rfl (exprs h es)
  case arrayGet l r | binary op l r | compare op l r | logical op l r =>
    exact h.node _ rfl (List.forall_mem_cons.mpr
      ⟨expr h l, List.forall_mem_singleton.mpr (expr h r)⟩)
  case arraySet a b c | cond a b c =>
    exact h.node _ rfl (List.forall_mem_cons.mpr ⟨expr h a, List.forall_mem_cons.mpr
      ⟨expr h b, List.forall_mem_singleton.mpr (expr h c)⟩⟩)
  case localSet id e | newArray t e | unary op e =>
    exact h.node _ rfl (List.forall_mem_singleton.mpr (expr h e))
  case arrayLength e | nullCheck e => exact h.node _ rfl (List.forall_mem_singleton.mpr (expr h e))
  case cast e t | instanceOf e t | box e t | unbox e t | convert e t =>
    exact h.node _ rfl (List.forall_mem_singleton.mpr (expr h e))
  case null | bool | int | long | double | char | string | localGet | this | singleton =>
    exact h.node _ rfl fun _ h => nomatch h

theorem exprs (h : ShapeSteps P Q) (es : List Expr) : ∀ e ∈ es, P e := by
  cases es with
  | nil => exact fun _ h => nomatch h
  | cons e es => exact List.forall_mem_cons.mpr ⟨expr h e, exprs h es⟩

theorem option (h : ShapeSteps P Q) (o : Option Expr) : ∀ e ∈ o.toList, P e := by
  cases o with
  | none => exact fun _ h => nomatch h
  | some e => exact List.forall_mem_singleton.mpr (expr h e)

/-- **Induction along children and parts**, for statements. -/
theorem statement (h : ShapeSteps P Q) (s : Stmt) : Q s := by
  cases s
  case declare p init => exact h.stmt _ (List.forall_mem_singleton.mpr (option h init))
  case ret v => exact h.stmt _ (List.forall_mem_singleton.mpr (option h v))
  case expr e | raise e =>
    exact h.stmt _ (List.forall_mem_singleton.mpr (List.forall_mem_singleton.mpr (expr h e)))
  case cond c t e =>
    refine h.stmt _ (List.forall_mem_cons.mpr ⟨List.forall_mem_singleton.mpr (expr h c),
      List.forall_mem_cons.mpr ⟨stmts h t, ?_⟩⟩)
    cases e with
    | none => exact fun _ h => nomatch h
    | some e => exact List.forall_mem_singleton.mpr (stmts h e)
  case whileLoop c b =>
    exact h.stmt _ (List.forall_mem_cons.mpr ⟨List.forall_mem_singleton.mpr (expr h c),
      List.forall_mem_singleton.mpr (stmts h b)⟩)
  case forLoop i c u b =>
    exact h.stmt _ (List.forall_mem_cons.mpr ⟨stmts h i, List.forall_mem_cons.mpr
      ⟨option h c, List.forall_mem_cons.mpr ⟨exprs h u,
        List.forall_mem_singleton.mpr (stmts h b)⟩⟩⟩)
  case forEach v e b =>
    exact h.stmt _ (List.forall_mem_cons.mpr ⟨List.forall_mem_singleton.mpr (expr h e),
      List.forall_mem_singleton.mpr (stmts h b)⟩)
  case block b => exact h.stmt _ (List.forall_mem_singleton.mpr (stmts h b))
  case tryCatch b handler final =>
    refine h.stmt _ (List.forall_mem_cons.mpr ⟨stmts h b, List.forall_mem_append.mpr ⟨?_, ?_⟩⟩)
    · cases handler with
      | none => exact fun _ h => nomatch h
      | some clause =>
        obtain ⟨p, hb⟩ := clause
        exact List.forall_mem_singleton.mpr (stmts h hb)
    · cases final with
      | none => exact fun _ h => nomatch h
      | some f => exact List.forall_mem_singleton.mpr (stmts h f)
  case breakLoop | continueLoop => exact h.stmt _ fun _ h => nomatch h

theorem stmts (h : ShapeSteps P Q) (ss : List Stmt) : ∀ s ∈ ss, Q s := by
  cases ss with
  | nil => exact fun _ h => nomatch h
  | cons s ss => exact List.forall_mem_cons.mpr ⟨statement h s, stmts h ss⟩

end

end ShapeSteps

end Closures
