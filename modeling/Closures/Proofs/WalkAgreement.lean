import Closures.Proofs.TreeShape

/-!
# Walks agree

A tree is gone through in four ways: walks list its nodes (`Expr.walk`,
`Stmt.walkAll`), replacements visit its expressions and put others in their
place (`Expr.replaceM`), `Expr.children` and `Stmt.listAll` list the children of
an expression and the statements of a body, and `Stmt.mapReturnsM` changes
returns. This module says that they all see the same tree.

* A node has a **position**, the places that lead to it from the roots. A walk
  lists the nodes at the positions it can get to, by position (`Enumerates`,
  `enumeratesSteps`).
* A replacement that changes nothing acts on the expressions among these nodes,
  and gives the tree back (`Visits`, `visitedSteps`).
* Statements are listed as a walk meets them that enters no lambda
  (`listSteps`), and the returns among them are those that are changed
  (`mapsReturnsSteps`).

Each is an induction along children and parts, so the single forms of
expressions and statements are looked at only where a traversal is shown to go
through children and parts.
-/

set_option autoImplicit false

namespace Closures

/-! ## Own children and parts -/

/-- An expression is made of its own children. -/
theorem Expr.withChildren_self (e : Expr) : e.withChildren e.children = e := by
  cases e
  case fieldGet r _ | fieldSet r _ _ | call r _ _ => cases r <;> rfl
  case new t c o args => cases o <;> rfl
  case methodRef site =>
    obtain ⟨q, m, ts, t, s⟩ := site
    cases q <;> rfl
  all_goals rfl

/-- A statement is made of its own parts. -/
theorem Stmt.withParts_self (s : Stmt) : s.withParts s.parts = s := by
  cases s
  case declare p init => cases init <;> rfl
  case ret v => cases v <;> rfl
  case cond c t e => cases e <;> rfl
  case forLoop i c u b => cases c <;> rfl
  case tryCatch b handler final => rcases handler with _ | ⟨p, h⟩ <;> cases final <;> rfl
  all_goals rfl

section Replace

variable {m : Type → Type} [Monad m] [LawfulMonad m] {f : Expr → m Expr}

theorem Expr.replaceListM_eq (es : List Expr) :
    Expr.replaceListM f es = es.mapM (Expr.replaceM f) := by
  induction es with
  | nil => simp [replaceListM]
  | cons e es ih => simp [replaceListM, ih]

theorem Expr.replaceOptionM_eq (o : Option Expr) :
    Expr.replaceOptionM f o = List.head? <$> o.toList.mapM (Expr.replaceM f) := by
  cases o <;> simp [replaceOptionM]

theorem Stmt.replaceListM_eq (ss : List Stmt) :
    Stmt.replaceListM f ss = ss.mapM (Stmt.replaceM f) := by
  induction ss with
  | nil => simp [replaceListM]
  | cons s ss ih => simp [replaceListM, ih]

/-- Replacing goes through the children in order, and then to the expression
itself. -/
theorem Expr.replaceM_eq {e : Expr} (he : e.isLambda = false) :
    e.replaceM f = e.children.mapM (Expr.replaceM f) >>= fun cs => f (e.withChildren cs) := by
  cases e
  case lambda => cases he
  case fieldGet r _ =>
    cases r <;> simp [replaceM, replaceOptionM, children, withChildren, refill]
  case fieldSet r _ v => cases r <;> simp [replaceM, replaceOptionM, children, withChildren, refill]
  case call r _ args =>
    cases r <;> simp [replaceM, Receiver.replaceM, replaceListM_eq, children,
      withChildren, Receiver.children, Receiver.refill]
  case new t c o args =>
    cases o <;> simp [replaceM, replaceOptionM, replaceListM_eq, children, withChildren, refill]
  case methodRef site =>
    obtain ⟨q, mem, ts, t, s⟩ := site
    cases q <;> simp [replaceM, RefQualifier.replaceM, children, withChildren,
      RefQualifier.children, RefQualifier.refill]
  all_goals simp [replaceM, replaceListM_eq, children, withChildren]

/-- Replace the expressions in a part. -/
def Part.replaceM (f : Expr → m Expr) : Part → m Part
  | .exprs bs es => .exprs bs <$> es.mapM (Expr.replaceM f)
  | .stmts bs ss => .stmts bs <$> ss.mapM (Stmt.replaceM f)

/-- Replacing in a statement goes through its parts in order. -/
theorem Stmt.replaceM_eq (s : Stmt) :
    s.replaceM f = s.withParts <$> s.parts.mapM (Part.replaceM f) := by
  cases s
  case cond c t e =>
    cases e <;> simp [replaceM, replaceOptionM, replaceListM_eq, Part.replaceM,
      parts, withParts, exprsAt, stmtsAt]
  case tryCatch b handler final =>
    rcases handler with _ | ⟨p, h⟩ <;> cases final <;>
      simp [replaceM, replaceOptionM, CatchClause.replaceOptionM, replaceListM_eq,
        Part.replaceM, parts, withParts, stmtsAt]
  all_goals simp [replaceM, Expr.replaceOptionM_eq, Expr.replaceListM_eq, replaceListM_eq,
    Part.replaceM, parts, withParts, exprsAt, stmtsAt]

end Replace

theorem Expr.replaceM_lambda {m : Type → Type} [Monad m] (f : Expr → m Expr) (l : Lambda) :
    (Expr.lambda l).replaceM f = l.body.replaceM f >>= fun b =>
      f (.lambda { l with body := b }) := by
  obtain ⟨ps, b, bt, t, s⟩ := l
  rfl

theorem Expr.walk_lambda (d : Node → Bool) (l : Lambda) :
    (Expr.lambda l).walk d = Node.reach d (.expr (.lambda l)) ((l.body.part l.params).walk d) := by
  obtain ⟨ps, b, bt, t, s⟩ := l
  rw [Expr.walk, LambdaBody.walk_eq d ps]

/-! ## Visitors that change nothing -/

/-- The expression that a node is. -/
def Node.expr? : Node → Option Expr
  | .expr e => some e
  | .stmt _ => none

/-- The statement that a node is. -/
def Node.stmt? : Node → Option Stmt
  | .expr _ => none
  | .stmt s => some s

/-- Act on an expression and leave it as it is. -/
def noting {m : Type → Type} [Monad m] (act : Expr → m Unit) (e : Expr) : m Expr := do
  act e
  return e

/-- **A replacement visits the expressions among some nodes**: if nothing is
changed, then it acts on each of them as often as it is there, in an order of
its own, and gives the tree back. -/
def Visits {α : Type} (replace : ∀ (m : Type → Type) [Monad m], (Expr → m Expr) → α → m α) (a : α)
    (nodes : List Node) : Prop :=
  ∃ visited : List Expr, visited.Perm (nodes.filterMap Node.expr?) ∧
    ∀ (m : Type → Type) [Monad m] [LawfulMonad m] (act : Expr → m Unit),
      replace m (noting act) a = do
        visited.forM act
        return a

namespace Visits

variable {α β : Type} {replace : ∀ (m : Type → Type) [Monad m], (Expr → m Expr) → α → m α}
  {replace' : ∀ (m : Type → Type) [Monad m], (Expr → m Expr) → β → m β} {a : α}
  {b : β} {ns : List Node}

/-- What goes through one thing to make another of it visits what it visits
there. -/
theorem map (g : α → β) (hb : g a = b)
    (hreplace : ∀ (m : Type → Type) [Monad m] [LawfulMonad m] (f : Expr → m Expr),
      replace' m f b = g <$> replace m f a)
    (h : Visits replace a ns) : Visits replace' b ns := by
  obtain ⟨visited, hperm, heq⟩ := h
  refine ⟨visited, hperm, fun m _ _ act => ?_⟩
  rw [hreplace, heq]
  simp [hb]

/-- An expression is visited after what it is made of. -/
theorem last {e : Expr} (g : α → Expr) (he : g a = e)
    (hreplace : ∀ (m : Type → Type) [Monad m] [LawfulMonad m] (f : Expr → m Expr),
      e.replaceM f = replace m f a >>= fun x => f (g x))
    (h : Visits replace a ns) : Visits (fun _ _ => Expr.replaceM) e (.expr e :: ns) := by
  obtain ⟨visited, hperm, heq⟩ := h
  refine ⟨visited ++ [e], ?_, fun m _ _ act => ?_⟩
  · exact List.perm_append_comm.trans (hperm.cons e)
  · dsimp only
    rw [hreplace, heq]
    simp [noting, he]

theorem mapM {as : List α} {nodes : α → List Node} (h : ∀ a ∈ as, Visits replace a (nodes a)) :
    Visits (fun m _ f as => as.mapM (replace m f)) as (as.flatMap nodes) := by
  induction as with
  | nil => exact ⟨[], .nil, fun m _ _ act => by simp⟩
  | cons a as ih =>
    obtain ⟨first, hfirst, hreplace⟩ := h a List.mem_cons_self
    obtain ⟨rest, hrest, hmapM⟩ := ih fun a ha => h a (List.mem_cons_of_mem _ ha)
    refine ⟨first ++ rest, ?_, fun m _ _ act => ?_⟩
    · rw [List.flatMap_cons, List.filterMap_append]
      exact hfirst.append hrest
    · simp [hreplace, hmapM]

end Visits

/-- The expressions of an expression are visited. -/
def Expr.Visited (e : Expr) : Prop := Visits (fun _ _ => Expr.replaceM) e e.nodes

/-- The expressions of a statement are visited. -/
def Stmt.Visited (s : Stmt) : Prop := Visits (fun _ _ => Stmt.replaceM) s (s.walk fun _ => true)

theorem Part.visits {part : Part} (h : part.All Expr.Visited Stmt.Visited) :
    Visits (fun _ _ => Part.replaceM) part (part.walk fun _ => true) := by
  cases part with
  | exprs bs es =>
    rw [Part.walk, Expr.walkList_eq]
    exact (Visits.mapM h).map (.exprs bs) rfl fun _ _ _ _ => rfl
  | stmts bs ss =>
    rw [Part.walk, Stmt.walkAll_eq]
    exact (Visits.mapM h).map (.stmts bs) rfl fun _ _ _ _ => rfl

theorem LambdaBody.visits {params : List Param} {b : LambdaBody}
    (h : (b.part params).All Expr.Visited Stmt.Visited) :
    Visits (fun _ _ => LambdaBody.replaceM) b ((b.part params).walk fun _ => true) := by
  cases b with
  | expr e =>
    rw [← LambdaBody.walk_eq]
    exact (h e List.mem_cons_self).map .expr rfl fun _ _ _ _ => by simp [replaceM]
  | block ss =>
    rw [part, Part.walk, Stmt.walkAll_eq]
    exact (Visits.mapM h).map .block rfl fun _ _ _ _ => by simp [replaceM, Stmt.replaceListM_eq]

/-- **Replacing visits every expression of a tree.** -/
theorem visitedSteps : ShapeSteps Expr.Visited Stmt.Visited where
  node e he hchildren := by
    rw [Expr.Visited, Expr.nodes, Expr.walk_eq _ he]
    exact (Visits.mapM hchildren).last e.withChildren e.withChildren_self fun _ _ _ _ =>
      Expr.replaceM_eq he
  lambda l hbody := by
    rw [Expr.Visited, Expr.nodes, Expr.walk_lambda]
    obtain ⟨ps, b, bt, t, s⟩ := l
    exact (LambdaBody.visits hbody).last (fun b => .lambda ⟨ps, b, bt, t, s⟩) rfl
      fun _ _ _ f => Expr.replaceM_lambda f _
  stmt s hparts := by
    rw [Stmt.Visited, Stmt.walk_eq]
    -- the statement itself is no expression and adds nothing to those of its parts
    obtain ⟨visited, hperm, heq⟩ :=
      (Visits.mapM fun part hpart => Part.visits (hparts part hpart)).map s.withParts
        s.withParts_self
        fun _ _ _ _ => Stmt.replaceM_eq s
    exact ⟨visited, hperm, heq⟩

/-! ## Positions -/

/-- The expressions or statements that a part holds. -/
def Part.roots : Part → List Node
  | .exprs _ es => es.map .expr
  | .stmts _ ss => ss.map .stmt

/-- The nodes directly below a node, in order. -/
def Node.below : Node → List Node
  | .stmt s => s.parts.flatMap Part.roots
  | .expr (.lambda l) => (l.body.part l.params).roots
  | .expr e => e.children.map .expr

theorem Node.below_expr {e : Expr} (he : e.isLambda = false) :
    (Node.expr e).below = e.children.map .expr := by
  cases e
  case lambda => cases he
  all_goals rfl

/-- The node at a position: the place of a root, and then, on the way down, the
place below each node. The way goes on only below nodes that pass a test. -/
def Node.find? (d : Node → Bool) : List Node → List Nat → Option Node
  | _, [] => none
  | roots, i :: p => roots[i]?.bind fun n =>
      if p = [] then some n else if d n then Node.find? d n.below p else none

/-- **Some nodes are those found from the roots**: one for each position, in the
order of positions, in which a node comes before all below it, and these before
what is to its right. -/
def Enumerates (d : Node → Bool) (roots ns : List Node) : Prop :=
  ∃ ps : List (List Nat), ps.Pairwise (· < ·) ∧ (∀ p, p ∈ ps ↔ (Node.find? d roots p).isSome) ∧
    ps.map (Node.find? d roots) = ns.map some

namespace Enumerates

variable {d : Node → Bool} {roots roots' ns ns' : List Node}

theorem nil : Enumerates d [] [] := by
  refine ⟨[], .nil, fun p => ?_, rfl⟩
  cases p <;> simp [Node.find?]

theorem node {n : Node} (h : Enumerates d n.below ns) : Enumerates d [n] (Node.reach d n ns) := by
  obtain ⟨ps, hlt, hmem, hfind⟩ := h
  have hne (p : List Nat) (hp : p ∈ ps) : p ≠ [] := by
    rintro rfl
    cases (hmem []).mp hp
  have hbelow (p : List Nat) (hp : p ≠ []) :
      Node.find? d [n] (0 :: p) = if d n then Node.find? d n.below p else none := by
    rw [Node.find?, List.getElem?_cons_zero, Option.bind_some, if_neg hp]
  refine ⟨[0] :: if d n then ps.map (0 :: ·) else [], ?_, fun p => ?_, ?_⟩
  · refine List.pairwise_cons.mpr ⟨fun q hq => ?_, ?_⟩
    · split at hq
      · obtain ⟨p, hp, rfl⟩ := List.mem_map.mp hq
        obtain ⟨i, p, rfl⟩ := List.exists_cons_of_ne_nil (hne p hp)
        exact List.cons_lt_cons_iff.mpr (.inr ⟨rfl, List.nil_lt_cons i p⟩)
      · cases hq
    · split
      · exact List.pairwise_map.mpr (hlt.imp fun h => List.cons_lt_cons_iff.mpr (.inr ⟨rfl, h⟩))
      · exact .nil
  · rcases p with _ | ⟨_ | i, p⟩
    · split <;> simp [Node.find?]
    · by_cases hp : p = []
      · simp [hp, Node.find?]
      · rw [hbelow p hp]
        split <;> simp [hp, hmem]
    · split <;> simp [Node.find?]
  · rw [Node.reach, List.map_cons, List.map_cons]
    congr 1
    split
    · rename_i hd
      rw [← hfind, List.map_map]
      exact List.map_congr_left fun p hp => by rw [Function.comp_apply,
        hbelow p (hne p hp), if_pos hd]
    · rfl

/-- A position starts with the place of a root. -/
theorem exists_root {p : List Nat} (hp : (Node.find? d roots p).isSome) :
    ∃ i q, p = i :: q ∧ i < roots.length := by
  cases p with
  | nil => cases hp
  | cons i q =>
    refine ⟨i, q, rfl, ?_⟩
    by_contra hi
    rw [Node.find?, List.getElem?_eq_none (by omega)] at hp
    cases hp

theorem append (h : Enumerates d roots ns) (h' : Enumerates d roots' ns') :
    Enumerates d (roots ++ roots') (ns ++ ns') := by
  obtain ⟨ps, hlt, hmem, hfind⟩ := h
  obtain ⟨ps', hlt', hmem', hfind'⟩ := h'
  have hleft (i : Nat) (p : List Nat) (hi : i < roots.length) :
      Node.find? d (roots ++ roots') (i :: p) = Node.find? d roots (i :: p) := by
    rw [Node.find?, Node.find?, List.getElem?_append_left hi]
  have hright (i : Nat) (p : List Nat) :
      Node.find? d (roots ++ roots') ((roots.length + i) :: p) = Node.find? d roots' (i :: p) := by
    rw [Node.find?, Node.find?, List.getElem?_append_right (by omega), Nat.add_sub_cancel_left]
  have hplace (p : List Nat) (hp : p ∈ ps) := exists_root ((hmem p).mp hp)
  have hplace' (p : List Nat) (hp : p ∈ ps') := exists_root ((hmem' p).mp hp)
  -- below the roots on the right, only the first place of a position moves
  refine ⟨ps ++ ps'.map (List.modifyHead (roots.length + ·)), ?_, fun p => ?_, ?_⟩
  · refine List.pairwise_append.mpr ⟨hlt, List.pairwise_map.mpr (hlt'.imp_of_mem ?_), ?_⟩
    · intro p q hp hq hpq
      obtain ⟨i, p, rfl, -⟩ := hplace' p hp
      obtain ⟨j, q, rfl, -⟩ := hplace' q hq
      rcases List.cons_lt_cons_iff.mp hpq with hij | ⟨rfl, hrest⟩
      · exact List.cons_lt_cons_iff.mpr (.inl (Nat.add_lt_add_left hij _))
      · exact List.cons_lt_cons_iff.mpr (.inr ⟨rfl, hrest⟩)
    · intro p hp _ hshifted
      obtain ⟨q, hq, rfl⟩ := List.mem_map.mp hshifted
      obtain ⟨i, p, rfl, hi⟩ := hplace p hp
      obtain ⟨j, q, rfl, -⟩ := hplace' q hq
      exact List.cons_lt_cons_iff.mpr (.inl (Nat.lt_add_right j hi))
  · rw [List.mem_append, hmem, List.mem_map]
    constructor
    · rintro (hp | ⟨q, hq, rfl⟩)
      · obtain ⟨i, p, rfl, hi⟩ := exists_root hp
        rwa [hleft i p hi]
      · obtain ⟨j, q, rfl, -⟩ := hplace' q hq
        rw [List.modifyHead_cons, hright]
        exact (hmem' _).mp hq
    · intro hp
      cases p with
      | nil => cases hp
      | cons i p =>
        by_cases hi : i < roots.length
        · rw [hleft i p hi] at hp
          exact .inl hp
        · obtain ⟨j, rfl⟩ := Nat.exists_eq_add_of_le (Nat.le_of_not_lt hi)
          rw [hright] at hp
          exact .inr ⟨j :: p, (hmem' _).mpr hp, rfl⟩
  · rw [List.map_append, List.map_append, ← hfind, ← hfind', List.map_map]
    congr 1
    · refine List.map_congr_left fun p hp => ?_
      obtain ⟨i, p, rfl, hi⟩ := hplace p hp
      exact hleft i p hi
    · refine List.map_congr_left fun p hp => ?_
      obtain ⟨i, p, rfl, -⟩ := hplace' p hp
      exact hright i p

theorem flatMap {α : Type} {as : List α} {root walk : α → List Node}
    (h : ∀ a ∈ as, Enumerates d (root a) (walk a)) :
      Enumerates d (as.flatMap root) (as.flatMap walk) := by
  induction as with
  | nil => exact nil
  | cons a as ih =>
    rw [List.flatMap_cons, List.flatMap_cons]
    exact (h a List.mem_cons_self).append (ih fun a ha => h a (List.mem_cons_of_mem _ ha))

end Enumerates

theorem Part.enumerates {d : Node → Bool} {part : Part}
    (h : part.All (fun e => Enumerates d [.expr e] (e.walk d)) fun s =>
      Enumerates d [.stmt s] (s.walk d)) :
    Enumerates d part.roots (part.walk d) := by
  cases part with
  | exprs bs es =>
    rw [Part.walk, Expr.walkList_eq, Part.roots, List.map_eq_flatMap]
    exact .flatMap h
  | stmts bs ss =>
    rw [Part.walk, Stmt.walkAll_eq, Part.roots, List.map_eq_flatMap]
    exact .flatMap h

/-- **A walk lists the nodes of a tree by their positions.** -/
theorem enumeratesSteps (d : Node → Bool) :
    ShapeSteps (fun e => Enumerates d [.expr e] (e.walk d)) fun s => Enumerates d [.stmt s]
      (s.walk d) where
  node e he hchildren := by
    rw [Expr.walk_eq d he]
    refine .node ?_
    rw [Node.below_expr he, List.map_eq_flatMap]
    exact .flatMap hchildren
  lambda l hbody := by
    rw [Expr.walk_lambda]
    exact .node (Part.enumerates hbody)
  stmt s hparts := by
    rw [Stmt.walk_eq]
    exact .node (.flatMap fun part hpart => Part.enumerates (hparts part hpart))

/-! ## Statements outside lambdas -/

/-- Whether a node is a lambda. -/
def Node.isLambda : Node → Bool
  | .expr e => e.isLambda
  | .stmt _ => false

/-- The statements of a part and those nested in them, outside lambdas. -/
def Part.list : Part → List Stmt
  | .exprs _ _ => []
  | .stmts _ ss => Stmt.listAll ss

theorem Stmt.listAll_eq (ss : List Stmt) : Stmt.listAll ss = ss.flatMap Stmt.list := by
  induction ss with
  | nil => rfl
  | cons s ss ih => rw [listAll, ih, List.flatMap_cons]

theorem Stmt.list_eq (s : Stmt) : s.list = s :: s.parts.flatMap Part.list := by
  cases s
  case cond c t e => cases e <;> simp [list, listOption, parts, Part.list]
  case tryCatch b handler final =>
    rcases handler with _ | ⟨p, h⟩ <;> cases final <;>
      simp [list, listOption, CatchClause.listOption, parts, Part.list]
  all_goals simp [list, parts, Part.list]

theorem Part.list_eq {d : Node → Bool} {part : Part}
    (h : part.All (fun e => (e.walk d).filterMap Node.stmt? = []) fun s =>
      (s.walk d).filterMap Node.stmt? = s.list) : (part.walk d).filterMap Node.stmt? =
        part.list := by
  cases part with
  | exprs bs es =>
    rw [Part.walk, Expr.walkList_eq, List.filterMap_flatMap, Part.list]
    exact List.flatMap_eq_nil_iff.mpr h
  | stmts bs ss =>
    rw [Part.walk, Stmt.walkAll_eq, List.filterMap_flatMap, Part.list, Stmt.listAll_eq]
    exact List.flatMap_congr h

/-- **The list of statements is what a walk that enters no lambda meets of
them.** -/
theorem listSteps : ShapeSteps (fun e => (e.walk fun n => !n.isLambda).filterMap Node.stmt? = [])
    fun s => (s.walk fun n => !n.isLambda).filterMap Node.stmt? = s.list where
  node e he hchildren := by
    have hnode : (!(Node.expr e).isLambda) = true := by rw [Node.isLambda, he]; rfl
    rw [Expr.walk_eq _ he, Node.reach, if_pos hnode, List.filterMap_cons_none rfl,
      List.filterMap_flatMap]
    exact List.flatMap_eq_nil_iff.mpr hchildren
  lambda l _ := by
    rw [Expr.walk_lambda]
    rfl
  stmt s hparts := by
    have hnode : (!(Node.stmt s).isLambda) = true := rfl
    have hself : (Node.stmt s).stmt? = some s := rfl
    rw [Stmt.walk_eq, Node.reach, if_pos hnode, List.filterMap_cons_some hself,
      List.filterMap_flatMap, Stmt.list_eq]
    exact congrArg (s :: ·) (List.flatMap_congr fun part hpart => Part.list_eq (hparts part hpart))

/-! ## Returns -/

/-- The operand of a `return`. -/
def Stmt.operand? : Stmt → Option (Option Expr)
  | .ret v => some v
  | _ => none

/-- The operands of the `return` statements in a statement, outside lambdas, in
order. -/
def Stmt.operands (s : Stmt) : List (Option Expr) := s.list.filterMap Stmt.operand?

/-- The operands of the `return` statements of a body, outside lambdas, in
order. -/
def Stmt.returns (ss : List Stmt) : List (Option Expr) := (Stmt.listAll ss).filterMap Stmt.operand?

/-- The operands of the `return` statements of a part, outside lambdas, in
order. -/
def Part.returns : Part → List (Option Expr)
  | .exprs _ _ => []
  | .stmts _ ss => Stmt.returns ss

theorem Stmt.returns_cons (s : Stmt) (ss : List Stmt) :
    Stmt.returns (s :: ss) = s.operands ++ Stmt.returns ss := by
  rw [returns, listAll, List.filterMap_append]
  rfl

theorem Stmt.operands_eq (s : Stmt) :
    s.operands = s.operand?.toList ++ s.parts.flatMap Part.returns := by
  have hparts (part : Part) : part.list.filterMap operand? = part.returns := by cases part <;> rfl
  rw [operands, list_eq, List.filterMap_cons, List.filterMap_flatMap, funext hparts]
  cases s.operand? <;> rfl

section Returns

variable {m : Type → Type} [Monad m] [LawfulMonad m] {f : Option Expr → m (Option Expr)}

/-- The operands in the statement that is made are those that are made of the
operands, in order. -/
def Stmt.MapsReturns (f : Option Expr → m (Option Expr)) (s : Stmt) : Prop :=
  Stmt.operands <$> s.mapReturnsM f = s.operands.mapM f

theorem Stmt.returns_mapReturnsListM {ss : List Stmt} (h : ∀ s ∈ ss, s.MapsReturns f) :
    Stmt.returns <$> Stmt.mapReturnsListM f ss = (Stmt.returns ss).mapM f := by
  induction ss with
  | nil => simp [mapReturnsListM, returns, listAll]
  | cons s ss ih =>
    have hfirst : operands <$> s.mapReturnsM f = s.operands.mapM f := h s List.mem_cons_self
    have hrest := ih fun s hs => h s (List.mem_cons_of_mem _ hs)
    rw [returns_cons, List.mapM_append, ← hfirst, ← hrest]
    simp [mapReturnsListM, returns_cons]

theorem Part.returns_mapReturnsM {part : Part} (h : part.All (fun _ => True) (Stmt.MapsReturns f)) :
    part.returns.mapM f = Part.returns <$> part.mapReturnsM f := by
  cases part with
  | exprs bs es => simp [returns, mapReturnsM]
  | stmts bs ss =>
    rw [returns, ← Stmt.returns_mapReturnsListM h]
    simp [mapReturnsM, returns]

/-- **Changing returns changes all that are listed.** -/
theorem mapsReturnsSteps : ShapeSteps (fun _ => True) (Stmt.MapsReturns f) where
  node _ _ _ := trivial
  lambda _ _ := trivial
  stmt s hparts := by
    have hreturns : ∀ part ∈ s.parts, part.returns.mapM f = Part.returns <$> part.mapReturnsM f :=
      fun part hpart => Part.returns_mapReturnsM (hparts part hpart)
    rw [Stmt.MapsReturns]
    -- the new parts exist only inside the monad, where `Stmt.parts_withParts` has no hold on them
    cases s
    case cond c t e =>
      cases e <;>
      · simp only [Stmt.parts, Option.toList, List.map, List.forall_mem_cons,
          Part.returns, Part.mapReturnsM, Functor.map_map] at hreturns
        simp [Stmt.mapReturnsM, Stmt.mapReturnsOptionM, Stmt.operands_eq, Stmt.operand?,
          Stmt.parts, Part.returns, hreturns]
    case tryCatch b handler final =>
      rcases handler with _ | ⟨p, h⟩ <;> cases final <;>
      · simp only [Stmt.parts, Option.toList, List.map, List.forall_mem_cons, List.nil_append,
          List.cons_append, Part.returns, Part.mapReturnsM, Functor.map_map] at hreturns
        simp [Stmt.mapReturnsM, Stmt.mapReturnsOptionM, CatchClause.mapReturnsOptionM,
          Stmt.operands_eq, Stmt.operand?, Stmt.parts, Part.returns, hreturns]
    case whileLoop | forLoop | forEach | block =>
      simp only [Stmt.parts, List.forall_mem_cons, Part.returns, Part.mapReturnsM,
        Functor.map_map] at hreturns
      simp [Stmt.mapReturnsM, Stmt.operands_eq, Stmt.operand?, Stmt.parts, Part.returns, hreturns]
    all_goals simp [Stmt.mapReturnsM, Stmt.operands_eq, Stmt.operand?, Stmt.parts, Part.returns]

theorem mapM_eq_pure {α : Type} {g : α → m α} {as : List α} (h : ∀ a ∈ as, g a = pure a) :
    as.mapM g = pure as := by
  induction as with
  | nil => simp
  | cons a as ih =>
    rw [List.forall_mem_cons] at h
    simp [h.1, ih h.2]

/-- Changing no return leaves a statement as it is. -/
theorem keepsReturnsSteps :
    ShapeSteps (fun _ => True) fun s => s.mapReturnsM (m := m) pure = pure s where
  node _ _ _ := trivial
  lambda _ _ := trivial
  stmt s hparts := by
    have hkept (part : Part) (hpart : part ∈ s.parts) : part.mapReturnsM (m := m) pure =
        pure part := by
      cases part with
      | exprs bs es => rfl
      | stmts bs ss =>
        rw [Part.mapReturnsM, Stmt.mapReturnsListM_eq, mapM_eq_pure (hparts _ hpart), map_pure]
    cases hs : s.isReturn with
    | true =>
      cases s
      case ret v => simp [Stmt.mapReturnsM]
      all_goals cases hs
    | false => rw [Stmt.mapReturnsM_eq hs, mapM_eq_pure hkept, map_pure, Stmt.withParts_self]

end Returns

/-- **Walks, replacements and lists go through the same tree.** A walk lists the
nodes at all positions that it can get to, each once and in order. Replacing
visits the expressions that a walk through everything does, and leaves the tree
if they are left. An expression that is not a lambda comes before the nodes of
its children. The statements in a list are those that a walk meets outside
lambdas, so a change of returns reaches all of these, and a lambda body is
lowered with all its returns adapted. -/
theorem walks_agree (ss : List Stmt) (e : Expr) :
    (∀ d, Enumerates d (ss.map .stmt) (Stmt.walkAll d ss) ∧ Enumerates d [.expr e] (e.walk d)) ∧
    Visits (fun _ _ => Stmt.replaceListM) ss (Stmt.nodes ss) ∧
      Visits (fun _ _ => Expr.replaceM) e e.nodes ∧
    (e.isLambda = false → e.nodes = .expr e :: e.children.flatMap Expr.nodes) ∧
    Stmt.listAll ss = (Stmt.walkAll (fun n => !n.isLambda) ss).filterMap Node.stmt? ∧
    (∀ (m : Type → Type) [Monad m] [LawfulMonad m], Stmt.mapReturnsListM (m := m)
      pure ss = pure ss ∧
      ∀ f : Option Expr → m (Option Expr),
        Stmt.returns <$> Stmt.mapReturnsListM f ss = (Stmt.returns ss).mapM f) ∧
    ∀ (u : CompilationUnit) (t : Ty) (sam : FunctionalInterface) (lowered : List Stmt),
      Lowering.lambdaStatements u (.block ss) t sam = .ok lowered →
        (Stmt.returns ss).mapM (Lowering.adaptReturn u t sam) = .ok (Stmt.returns lowered) := by
  refine ⟨fun d => ⟨?_, (enumeratesSteps d).expr e⟩, ?_, visitedSteps.expr e, fun he =>
    ?_, ?_, ?_, ?_⟩
  · rw [Stmt.walkAll_eq, List.map_eq_flatMap]
    exact .flatMap ((enumeratesSteps d).stmts ss)
  · rw [Stmt.nodes, Stmt.walkAll_eq]
    exact (Visits.mapM (visitedSteps.stmts ss)).map id rfl fun _ _ _ _ => by rw [id_map,
      Stmt.replaceListM_eq]
  · rw [Expr.nodes, Expr.walk_eq _ he]
    rfl
  · rw [Stmt.walkAll_eq, List.filterMap_flatMap, Stmt.listAll_eq]
    exact (List.flatMap_congr (listSteps.stmts ss)).symm
  · intro m _ _
    refine ⟨?_, fun f => Stmt.returns_mapReturnsListM (mapsReturnsSteps.stmts ss)⟩
    rw [Stmt.mapReturnsListM_eq, mapM_eq_pure (keepsReturnsSteps.stmts ss)]
  · intro u t sam lowered hlowered
    rw [Lowering.lambdaStatements] at hlowered
    split at hlowered
    · cases hlowered
    · rw [← Stmt.returns_mapReturnsListM (mapsReturnsSteps.stmts ss), hlowered]
      rfl

namespace Nested

/-- A lambda with a `return` of its own. -/
def supplier : Expr :=
  .lambda ⟨[], .block [.ret (some (.int 7))], .primitive .int, .object, ⟨0, 0, 0⟩⟩

/-- A `return` in a loop and one in a final block. -/
def body : List Stmt :=
  [.tryCatch [.whileLoop (.bool true) [.expr supplier, .ret (some (.int 1))]] none
    (some [.ret none])]

/-- The lambda below another expression. -/
def check : Expr := .nullCheck supplier

end Nested

theorem walks_agree_nested :
    Nested.check.isLambda = false ∧
    Nested.check.nodes = .expr Nested.check :: Nested.check.children.flatMap Expr.nodes ∧
    Stmt.returns Nested.body = [some (.int 1), none] ∧
    Stmt.returns (Stmt.mapReturns (fun _ => some .null) Nested.body) =
      [some .null, some .null] := by
  obtain ⟨-, -, -, hnodes, -, hreturns, -⟩ := walks_agree Nested.body Nested.check
  exact ⟨rfl, hnodes rfl, rfl, (hreturns Id).2 fun _ => pure (some .null)⟩

end Closures
