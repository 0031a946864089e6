import Closures.Lowering.Capture
import Closures.Proofs.EnclosingInstances

/-!
# What capture analysis finds

`CaptureSet.ofLambda` walks a body and adds bindings as it goes. What one node
adds does not depend on what was found before it, so the analysis has a
declarative reading: every node has its **needs** (`Node.needs`), a list of
bindings or the reason why there is none, and the captures of a body are the
needs of its nodes, each once, in order (`ofLambda_eq`).

Three things follow for an analysis that succeeds: every need of every node is
among the captures (`Served`), every capture is a need of some node, and a
capture set is empty exactly if it has no slots.
-/

set_option autoImplicit false

namespace Closures

/-! ## Needs -/

namespace Site

/-- The binding for the enclosing instance at a depth. -/
def instanceAt (s : Site) (depth : Nat) : Binding := .enclosingInstance depth (s.instanceType depth)

end Site

/-- What an expression of a closure body needs from outside; `declared` are the
locals of the closure itself. -/
def Expr.needs (s : Site) (declared : List LocalId) : Expr → Except Cause (List Binding)
  | .localGet id =>
    if declared.contains id then .ok []
    else
      match s.scope.lookup? id with
      | none => .error (.invisibleLocal id)
      | some p =>
        if p.effectivelyFinal then .ok [.localValue p.id p.name p.ty]
        else .error (.mutableLocal p.name)
  | .localSet id _ =>
    if declared.contains id then .ok []
    else .error (.assignedLocal (((s.scope.lookup? id).map (·.name)).getD s!"#{id}"))
  | .this q => do return [s.instanceAt (← s.thisDepth q)]
  | .fieldGet none f | .fieldSet none f _ => do
    if (← s.field f).isStatic then return []
    let depth ← s.memberDepth f.owner
    return [s.instanceAt depth, .outerField depth f]
  | .call .implicit m _ => do
    if (← s.method m).isStatic then return []
    return [s.instanceAt (← s.memberDepth m.owner)]
  | .call (.super q) m _ => do return [s.instanceAt (← s.thisDepth q), .superDispatch m.owner]
  | .new t _ none _ => do return ((← s.creationDepth t.id).map s.instanceAt).toList
  | .lambda _ | .methodRef _ => .error .nestedSite
  | _ => .ok []

/-- What a node of a closure body needs from outside. -/
def Node.needs (s : Site) (declared : List LocalId) : Node → Except Cause (List Binding)
  | .expr e => e.needs s declared
  | .stmt _ => .ok []

namespace CaptureSet

variable {s : Site} {declared : List LocalId} {c : CaptureSet}

/-- Add bindings in order. -/
def addAll (c : CaptureSet) (bs : List Binding) : CaptureSet := bs.foldl add c

/-- **A node adds its needs**, whatever was found before. -/
theorem visitNode_eq (s : Site) (declared : List LocalId) (c : CaptureSet) (n : Node) :
    visitNode s declared c n = (n.needs s declared).map c.addAll := by
  cases n with
  | stmt st => rfl
  | expr e =>
    rw [visitNode, Node.needs]
    cases e
    case localGet id =>
      rw [visit, Expr.needs]
      split
      · rfl
      · cases s.scope.lookup? id with
        | none => rfl
        | some p => dsimp only; split <;> rfl
    case localSet id v => rw [visit, Expr.needs]; split <;> rfl
    case this q => rw [visit, Expr.needs]; cases s.thisDepth q <;> rfl
    case fieldGet r f | fieldSet r f v =>
      cases r with
      | some r => rfl
      | none =>
        rw [visit, Expr.needs]
        rcases s.field f with e | ⟨_, _, isStatic, _, _⟩
        · rfl
        · cases isStatic <;> cases s.memberDepth f.owner <;> rfl
    case call r m args =>
      cases r with
      | implicit =>
        rw [visit, Expr.needs]
        rcases s.method m with e | ⟨_, _, _, _, _, _, isStatic, _, _, _, _, _⟩
        · rfl
        · cases isStatic <;> cases s.memberDepth m.owner <;> rfl
      | super q => rw [visit, Expr.needs]; cases s.thisDepth q <;> rfl
      | static | expr _ | nonVirtual _ => rfl
    case new t ctor outer args =>
      cases outer with
      | some o => rfl
      | none => rw [visit, Expr.needs]; rcases s.creationDepth t.id with e | _ | depth <;> rfl
    all_goals rfl

/-- A walk adds the needs of its nodes in order, or fails at the first node that
has none. -/
theorem foldlM_visitNode (ns : List Node) : ∀ c : CaptureSet,
    ns.foldlM (visitNode s declared) c =
      (ns.mapM (Node.needs s declared)).map fun needs => c.addAll needs.flatten := by
  induction ns with
  | nil => exact fun _ => rfl
  | cons n ns ih =>
    intro c
    rw [List.foldlM_cons, visitNode_eq, List.mapM_cons]
    cases n.needs s declared with
    | error e => rfl
    | ok bs =>
      change ns.foldlM (visitNode s declared) (c.addAll bs) = _
      rw [ih]
      cases ns.mapM (Node.needs s declared) with
      | error e => rfl
      | ok bss =>
        change Except.ok _ = Except.ok (c.addAll (bs ++ bss.flatten))
        simp only [addAll, List.foldl_append]

/-- **The captures of a body are the needs of its nodes**, each once, in
order. -/
theorem ofLambda_eq (s : Site) (params : List Param) (body : LambdaBody) :
    ofLambda s params body =
      (body.nodes.mapM (Node.needs s (params.map (·.id) ++ declaredIn body.nodes))).map
        fun needs => empty.addAll needs.flatten :=
  foldlM_visitNode body.nodes empty

/-! ## Bindings and slots -/

/-- The slots are those that the bindings need. -/
def Consistent (c : CaptureSet) : Prop :=
  ∀ x, x ∈ c.slots ↔ ∃ b ∈ c.bindings, b.slot? = some x

theorem mem_addNew {α : Type} [BEq α] [LawfulBEq α] {xs : List α} {x y : α} :
    y ∈ addNew xs x ↔ y ∈ xs ∨ y = x := by
  rw [addNew]
  split
  · rename_i h
    rw [List.contains_iff_mem] at h
    exact ⟨.inl, fun hy => hy.elim id fun hyx => hyx ▸ h⟩
  · rw [List.mem_append, List.mem_singleton]

theorem mem_bindings_add {b b' : Binding} :
    b' ∈ (c.add b).bindings ↔ b' ∈ c.bindings ∨ b' = b := by
  rw [add]
  split
  · rename_i h
    rw [List.contains_iff_mem] at h
    exact ⟨.inl, fun hb => hb.elim id fun hbb => hbb ▸ h⟩
  · rw [List.mem_append, List.mem_singleton]

theorem Consistent.empty : Consistent empty := fun x => by simp [CaptureSet.empty]

theorem Consistent.add (h : Consistent c) (b : Binding) : Consistent (c.add b) := by
  intro x
  by_cases hb : c.bindings.contains b = true
  · rw [CaptureSet.add, if_pos hb]
    exact h x
  · have hslots : x ∈ (c.add b).slots ↔ x ∈ c.slots ∨ b.slot? = some x := by
      rw [CaptureSet.add, if_neg hb]
      cases b.slot? with
      | none => simp
      | some y => simp [mem_addNew, eq_comm]
    rw [hslots, h x]
    constructor
    · rintro (⟨b', hb', hx⟩ | hx)
      · exact ⟨b', mem_bindings_add.mpr (.inl hb'), hx⟩
      · exact ⟨b, mem_bindings_add.mpr (.inr rfl), hx⟩
    · rintro ⟨b', hb', hx⟩
      rcases mem_bindings_add.mp hb' with hb' | rfl
      · exact .inl ⟨b', hb', hx⟩
      · exact .inr hx

theorem Consistent.addAll (h : Consistent c) (bs : List Binding) : Consistent (c.addAll bs) := by
  induction bs generalizing c with
  | nil => exact h
  | cons b bs ih => exact ih (h.add b)

theorem mem_bindings_addAll {bs : List Binding} {b : Binding} :
    b ∈ (c.addAll bs).bindings ↔ b ∈ c.bindings ∨ b ∈ bs := by
  induction bs generalizing c with
  | nil => simp [addAll]
  | cons a bs ih =>
    change b ∈ ((c.add a).addAll bs).bindings ↔ _
    rw [ih, mem_bindings_add, List.mem_cons, or_assoc]

end CaptureSet

/-- What a node needs is there, and has its slot. -/
def Node.Served (s : Site) (declared : List LocalId) (c : CaptureSet) (n : Node) : Prop :=
  ∃ bs, n.needs s declared = .ok bs ∧ ∀ b ∈ bs, ∀ x, b.slot? = some x → x ∈ c.slots

namespace CaptureSet

variable {s : Site} {params : List Param} {body : LambdaBody} {c : CaptureSet}

theorem consistent_ofLambda (h : ofLambda s params body = .ok c) : c.Consistent := by
  rw [ofLambda_eq] at h
  cases hn : body.nodes.mapM (Node.needs s (params.map (·.id) ++ declaredIn body.nodes)) with
  | error e => rw [hn] at h; cases h
  | ok needs =>
    rw [hn] at h
    cases h
    exact Consistent.empty.addAll _

/-- The bindings of a successful analysis are the needs of the nodes. -/
theorem mem_bindings_ofLambda (h : ofLambda s params body = .ok c) :
    (∀ n ∈ body.nodes, ∃ bs, n.needs s (params.map (·.id) ++ declaredIn body.nodes) = .ok bs ∧
        ∀ b ∈ bs, b ∈ c.bindings) ∧
      ∀ b ∈ c.bindings, ∃ n ∈ body.nodes, ∃ bs,
        n.needs s (params.map (·.id) ++ declaredIn body.nodes) = .ok bs ∧ b ∈ bs := by
  rw [ofLambda_eq] at h
  cases hn : body.nodes.mapM (Node.needs s (params.map (·.id) ++ declaredIn body.nodes)) with
  | error e => rw [hn] at h; cases h
  | ok needs =>
    rw [hn] at h
    cases h
    obtain ⟨hl, hr⟩ := exists_of_mapM_ok hn
    constructor
    · intro n hmem
      obtain ⟨bs, hbs, hneeds⟩ := hl n hmem
      exact ⟨bs, hneeds, fun b hb =>
        mem_bindings_addAll.mpr (.inr (List.mem_flatten.mpr ⟨bs, hbs, hb⟩))⟩
    · intro b hb
      rcases mem_bindings_addAll.mp hb with hb | hb
      · cases hb
      · obtain ⟨bs, hbs, hb⟩ := List.mem_flatten.mp hb
        obtain ⟨n, hn, hneeds⟩ := hr bs hbs
        exact ⟨n, hn, bs, hneeds, hb⟩

/-- **A successful analysis serves every node** of the body. -/
theorem served_ofLambda (h : ofLambda s params body = .ok c) :
    ∀ n ∈ body.nodes, n.Served s (params.map (·.id) ++ declaredIn body.nodes) c := by
  intro n hn
  obtain ⟨bs, hneeds, hbs⟩ := (mem_bindings_ofLambda h).1 n hn
  exact ⟨bs, hneeds, fun b hb x hx => (consistent_ofLambda h x).mpr ⟨b, hbs b hb, hx⟩⟩

/-- Every slot holds what some node of the body needs. -/
theorem mem_slots_ofLambda (h : ofLambda s params body = .ok c) {x : Slot} (hx : x ∈ c.slots) :
    ∃ n ∈ body.nodes, ∃ bs,
      n.needs s (params.map (·.id) ++ declaredIn body.nodes) = .ok bs ∧
        ∃ b ∈ bs, b.slot? = some x := by
  obtain ⟨b, hb, hbx⟩ := (consistent_ofLambda h x).mp hx
  obtain ⟨n, hn, bs, hneeds, hmem⟩ := (mem_bindings_ofLambda h).2 b hb
  exact ⟨n, hn, bs, hneeds, b, hmem, hbx⟩

end CaptureSet

/-! ## What being served means for each node -/

theorem Scope.mem_of_lookup? {scope : Scope} {id : LocalId} {p : Param}
    (h : scope.lookup? id = some p) : p ∈ scope ∧ p.id = id := by
  rw [Scope.lookup?] at h
  have hid := List.find?_some h
  exact ⟨List.mem_of_find?_eq_some h, eq_of_beq hid⟩

/-- The field that is accessed without receiver. -/
def Expr.implicitField? : Expr → Option FieldId
  | .fieldGet none f | .fieldSet none f _ => some f
  | _ => none

/-- Nodes that never reach out of a closure. -/
def Expr.isInert : Expr → Bool
  | .localGet _ | .localSet _ _ | .this _ | .fieldGet none _ | .fieldSet none _ _
  | .call .implicit _ _ | .call (.super _) _ _ | .new _ _ none _ | .lambda _ | .methodRef _ => false
  | _ => true

/-- The ways in which a node of a closure body can be resolved, each with its
needs. -/
inductive Expr.Resolved (s : Site) (declared : List LocalId) : Expr → List Binding → Prop where
  | own {id : LocalId} (h : id ∈ declared) : Resolved s declared (.localGet id) []
  /-- Outer locals must be visible and effectively final. -/
  | captured {id : LocalId} {name : String} {ty : Ty} (h : id ∉ declared)
    (hp : s.scope.lookup? id = some ⟨id, name, ty, true⟩) :
    Resolved s declared (.localGet id) [.localValue id name ty]
  | assigned {id : LocalId} {v : Expr} (h : id ∈ declared) : Resolved s declared (.localSet id v) []
  | this {q : Option ClassId} {depth : Nat} (h : s.thisDepth q = .ok depth) :
    Resolved s declared (.this q) [s.instanceAt depth]
  | super {q : Option ClassId} {m : MethodId} {args : List Expr} {depth : Nat}
    (h : s.thisDepth q = .ok depth) :
    Resolved s declared (.call (.super q) m args) [s.instanceAt depth, .superDispatch m.owner]
  | staticField {e : Expr} {f : FieldId} {fld : Field} (he : e.implicitField? = some f)
    (hf : s.unit.field? f = some fld) (hs : fld.isStatic = true) : Resolved s declared e []
  | instanceField {e : Expr} {f : FieldId} {fld : Field} {depth : Nat}
    (he : e.implicitField? = some f) (hf : s.unit.field? f = some fld) (hs : fld.isStatic = false)
    (hd : s.memberDepth f.owner = .ok depth) :
    Resolved s declared e [s.instanceAt depth, .outerField depth f]
  | staticCall {m : MethodId} {args : List Expr} {decl : Method} (hm : s.unit.method? m = some decl)
    (hs : decl.isStatic = true) : Resolved s declared (.call .implicit m args) []
  | instanceCall {m : MethodId} {args : List Expr} {decl : Method} {depth : Nat}
    (hm : s.unit.method? m = some decl) (hs : decl.isStatic = false)
    (hd : s.memberDepth m.owner = .ok depth) :
    Resolved s declared (.call .implicit m args) [s.instanceAt depth]
  | create {t : ClassType} {ctor : Option MethodId} {args : List Expr} {depth? : Option Nat}
    (h : s.creationDepth t.id = .ok depth?) :
    Resolved s declared (.new t ctor none args) (depth?.map s.instanceAt).toList
  | inert {e : Expr} (h : e.isInert = true) : Resolved s declared e []

/-- A node that has its needs is resolved in one of these ways. -/
theorem Expr.resolved_of_needs {s : Site} {declared : List LocalId} {e : Expr} {bs : List Binding}
    (h : e.needs s declared = .ok bs) : e.Resolved s declared bs := by
  have hfield : ∀ f, e.implicitField? = some f → (do
      if (← s.field f).isStatic then return []
      let depth ← s.memberDepth f.owner
      return [s.instanceAt depth, .outerField depth f] : Except Cause (List Binding)) = .ok bs →
      e.Resolved s declared bs := by
    intro f he hrun
    rw [Site.field] at hrun
    rcases hf : s.unit.field? f with _ | fld
    · rw [hf] at hrun; cases hrun
    · rw [hf] at hrun
      dsimp only at hrun
      rw [ok_bind] at hrun
      cases hs : fld.isStatic <;> rw [hs] at hrun
      · rcases hd : s.memberDepth f.owner with _ | depth <;> rw [hd] at hrun <;> cases hrun
        exact .instanceField he hf hs hd
      · cases hrun
        exact .staticField he hf hs
  cases e
  case localGet id =>
    rw [Expr.needs] at h
    split at h
    · rename_i hmem
      cases h
      exact .own (List.contains_iff_mem.mp hmem)
    · rename_i hmem
      split at h
      · cases h
      · rename_i p hp
        split at h
        · rename_i hfinal
          cases h
          obtain ⟨-, rfl⟩ := Scope.mem_of_lookup? hp
          refine .captured (fun hm => hmem (List.contains_iff_mem.mpr hm)) (hp.trans ?_)
          rw [← hfinal]
        · cases h
  case localSet id v =>
    rw [Expr.needs] at h
    split at h
    · rename_i hmem
      cases h
      exact .assigned (List.contains_iff_mem.mp hmem)
    · cases h
  case this q =>
    rw [Expr.needs] at h
    rcases hd : s.thisDepth q with _ | depth <;> rw [hd] at h <;> cases h
    exact .this hd
  case fieldGet r f =>
    cases r with
    | none => exact hfield f rfl h
    | some r => cases h; exact .inert rfl
  case fieldSet r f v =>
    cases r with
    | none => exact hfield f rfl h
    | some r => cases h; exact .inert rfl
  case call r m args =>
    cases r with
    | implicit =>
      rw [Expr.needs, Site.method] at h
      rcases hm : s.unit.method? m with _ | decl
      · rw [hm] at h; cases h
      · rw [hm] at h
        dsimp only at h
        rw [ok_bind] at h
        cases hs : decl.isStatic <;> rw [hs] at h
        · rcases hd : s.memberDepth m.owner with _ | depth <;> rw [hd] at h <;> cases h
          exact .instanceCall hm hs hd
        · cases h
          exact .staticCall hm hs
    | super q =>
      rw [Expr.needs] at h
      rcases hd : s.thisDepth q with _ | depth <;> rw [hd] at h <;> cases h
      exact .super hd
    | static | expr _ | nonVirtual _ => cases h; exact .inert rfl
  case new t ctor o args =>
    cases o with
    | none =>
      rw [Expr.needs] at h
      rcases hd : s.creationDepth t.id with _ | depth? <;> rw [hd] at h <;> cases h
      exact .create hd
    | some o => cases h; exact .inert rfl
  case lambda | methodRef => cases h
  all_goals
    cases h
    exact .inert rfl

namespace Node.Served

variable {s : Site} {declared : List LocalId} {c : CaptureSet}

theorem resolved {e : Expr} (h : (Node.expr e).Served s declared c) :
    ∃ bs, e.Resolved s declared bs ∧ ∀ b ∈ bs, ∀ x, b.slot? = some x → x ∈ c.slots := by
  obtain ⟨bs, hneeds, hbs⟩ := h
  exact ⟨bs, e.resolved_of_needs hneeds, hbs⟩

theorem localGet {id : LocalId} (h : (Node.expr (.localGet id)).Served s declared c) :
    id ∈ declared ∨ ∃ name ty, Slot.localValue id name ty ∈ c.slots := by
  obtain ⟨bs, hr, hbs⟩ := h.resolved
  cases hr with
  | own h => exact .inl h
  | captured h hp => exact .inr ⟨_, _, hbs _ List.mem_cons_self _ rfl⟩
  | staticField he | instanceField he => cases he
  | inert h => cases h

theorem localSet {id : LocalId} {v : Expr} (h : (Node.expr (.localSet id v)).Served s declared c) :
    id ∈ declared := by
  obtain ⟨bs, hr, -⟩ := h.resolved
  cases hr with
  | assigned h => exact h
  | staticField he | instanceField he => cases he
  | inert h => cases h

theorem this {q : Option ClassId} (h : (Node.expr (.this q)).Served s declared c) :
    ∃ depth, s.thisDepth q = .ok depth ∧ Slot.instance_ depth (s.instanceType depth) ∈ c.slots := by
  obtain ⟨bs, hr, hbs⟩ := h.resolved
  cases hr with
  | this hd => exact ⟨_, hd, hbs _ List.mem_cons_self _ rfl⟩
  | staticField he | instanceField he => cases he
  | inert h => cases h

theorem super {q : Option ClassId} {m : MethodId} {args : List Expr}
    (h : (Node.expr (.call (.super q) m args)).Served s declared c) :
    ∃ depth, s.thisDepth q = .ok depth ∧ Slot.instance_ depth (s.instanceType depth) ∈ c.slots := by
  obtain ⟨bs, hr, hbs⟩ := h.resolved
  cases hr with
  | super hd => exact ⟨_, hd, hbs _ List.mem_cons_self _ rfl⟩
  | staticField he | instanceField he => cases he
  | inert h => cases h

/-- A field without receiver is a static one, or one of a captured instance. -/
theorem field {e : Expr} {f : FieldId} (he : e.implicitField? = some f)
    (h : (Node.expr e).Served s declared c) :
    ∃ fld, s.unit.field? f = some fld ∧ (fld.isStatic = true ∨ fld.isStatic = false ∧
      ∃ depth, s.memberDepth f.owner = .ok depth ∧
        Slot.instance_ depth (s.instanceType depth) ∈ c.slots) := by
  obtain ⟨bs, hr, hbs⟩ := h.resolved
  cases hr with
  | staticField he' hf hs =>
    cases he.symm.trans he'
    exact ⟨_, hf, .inl hs⟩
  | instanceField he' hf hs hd =>
    cases he.symm.trans he'
    exact ⟨_, hf, .inr ⟨hs, _, hd, hbs _ List.mem_cons_self _ rfl⟩⟩
  | inert h =>
    unfold Expr.implicitField? at he
    split at he
    · cases h
    · cases h
    · cases he
  | _ => cases he

/-- An unqualified call is of a static method, or of a method of a captured
instance. -/
theorem implicit {m : MethodId} {args : List Expr}
    (h : (Node.expr (.call .implicit m args)).Served s declared c) :
    ∃ decl, s.unit.method? m = some decl ∧ (decl.isStatic = true ∨ decl.isStatic = false ∧
      ∃ depth, s.memberDepth m.owner = .ok depth ∧
        Slot.instance_ depth (s.instanceType depth) ∈ c.slots) := by
  obtain ⟨bs, hr, hbs⟩ := h.resolved
  cases hr with
  | staticCall hm hs => exact ⟨_, hm, .inl hs⟩
  | instanceCall hm hs hd => exact ⟨_, hm, .inr ⟨hs, _, hd, hbs _ List.mem_cons_self _ rfl⟩⟩
  | staticField he | instanceField he => cases he
  | inert h => cases h

/-- A creation that names no enclosing instance needs none, or a captured
one. -/
theorem new {t : ClassType} {ctor : Option MethodId} {args : List Expr}
    (h : (Node.expr (.new t ctor none args)).Served s declared c) :
    ∃ depth?, s.creationDepth t.id = .ok depth? ∧
      ∀ depth, depth? = some depth → Slot.instance_ depth (s.instanceType depth) ∈ c.slots := by
  obtain ⟨bs, hr, hbs⟩ := h.resolved
  cases hr with
  | create hd =>
    refine ⟨_, hd, ?_⟩
    rintro depth rfl
    exact hbs _ List.mem_cons_self _ rfl
  | staticField he | instanceField he => cases he
  | inert h => cases h

/-- No site is left in a body that is served. -/
theorem not_site {e : Expr} (h : (Node.expr e).Served s declared c) : e.isSite = false := by
  obtain ⟨bs, hneeds, -⟩ := h
  cases e with
  | lambda _ | methodRef _ => cases hneeds
  | _ => rfl

end Node.Served

/-! ## What the slots are for -/

/-- A slot of a lambda: an effectively final local from around it, or an
enclosing instance within reach. -/
def Slot.Reachable (s : Site) (declared : List LocalId) : Slot → Prop
  | .localValue id name ty => id ∉ declared ∧ s.scope.lookup? id = some ⟨id, name, ty, true⟩
  | .instance_ depth type => depth < s.chain.length ∧ type = s.instanceType depth
  | .receiver _ => False

theorem Site.reachable_of_instanceAt {s : Site} {declared : List LocalId} {depth : Nat}
    (hdepth : depth < s.chain.length) {x : Slot} (hx : (s.instanceAt depth).slot? = some x) :
    x.Reachable s declared := by
  cases hx
  exact ⟨hdepth, rfl⟩

theorem Expr.Resolved.reachable {s : Site} {declared : List LocalId} {e : Expr} {bs : List Binding}
    (h : e.Resolved s declared bs) {b : Binding} (hb : b ∈ bs) {x : Slot} (hx : b.slot? = some x) :
    x.Reachable s declared := by
  cases h with
  | own | assigned | staticField | staticCall | inert => cases hb
  | captured hid hp =>
    obtain rfl := List.mem_singleton.mp hb
    cases hx
    exact ⟨hid, hp⟩
  | this hd =>
    obtain rfl := List.mem_singleton.mp hb
    exact Site.reachable_of_instanceAt (Site.thisDepth_lt hd) hx
  | super hd =>
    rcases List.mem_cons.mp hb with rfl | hb
    · exact Site.reachable_of_instanceAt (Site.thisDepth_lt hd) hx
    · obtain rfl := List.mem_singleton.mp hb
      cases hx
  | instanceField _ _ _ hd =>
    rcases List.mem_cons.mp hb with rfl | hb
    · exact Site.reachable_of_instanceAt (Site.memberDepth_lt hd) hx
    · obtain rfl := List.mem_singleton.mp hb
      cases hx
  | instanceCall _ _ hd =>
    obtain rfl := List.mem_singleton.mp hb
    exact Site.reachable_of_instanceAt (Site.memberDepth_lt hd) hx
  | @create _ _ _ depth? hd =>
    cases depth? with
    | none => cases hb
    | some depth =>
      obtain rfl := List.mem_singleton.mp hb
      exact Site.reachable_of_instanceAt (Site.creationDepth_lt hd) hx

/-- **Every slot is within reach of the site.** -/
theorem CaptureSet.reachable_ofLambda {s : Site} {params : List Param} {body : LambdaBody}
    {c : CaptureSet} (h : ofLambda s params body = .ok c) {x : Slot} (hx : x ∈ c.slots) :
    x.Reachable s (params.map (·.id) ++ declaredIn body.nodes) := by
  obtain ⟨n, -, bs, hneeds, b, hb, hbx⟩ := mem_slots_ofLambda h hx
  cases n with
  | stmt st =>
    cases hneeds
    cases hb
  | expr e => exact (e.resolved_of_needs hneeds).reachable hb hbx

/-! ## Looking up slots -/

namespace CaptureSet

variable {c : CaptureSet} {i : Nat}

theorem slot_of_localSlot? {id : LocalId} (h : c.localSlot? id = some i) :
    ∃ name ty, c.slots[i]? = some (.localValue id name ty) := by
  obtain ⟨hlt, htest, -⟩ := List.findIdx?_eq_some_iff_getElem.mp h
  rw [List.getElem?_eq_getElem hlt]
  split at htest
  · rename_i id' name ty heq
    exact ⟨name, ty, by rw [heq, beq_iff_eq.mp htest]⟩
  · cases htest

theorem localSlot?_eq_none {id : LocalId} (h : c.localSlot? id = none) (name : String) (ty : Ty) :
    Slot.localValue id name ty ∉ c.slots := by
  intro hmem
  have := List.findIdx?_eq_none_iff.mp h _ hmem
  simp at this

theorem slot_of_instanceSlot? {depth : Nat} (h : c.instanceSlot? depth = some i) :
    ∃ type, c.slots[i]? = some (.instance_ depth type) := by
  obtain ⟨hlt, htest, -⟩ := List.findIdx?_eq_some_iff_getElem.mp h
  rw [List.getElem?_eq_getElem hlt]
  split at htest
  · rename_i depth' type heq
    exact ⟨type, by rw [heq, beq_iff_eq.mp htest]⟩
  · cases htest

theorem instanceSlot?_of_mem {depth : Nat} {type : ClassId}
    (h : Slot.instance_ depth type ∈ c.slots) : ∃ i, c.instanceSlot? depth = some i := by
  cases hi : c.instanceSlot? depth with
  | some i => exact ⟨i, rfl⟩
  | none =>
    have := List.findIdx?_eq_none_iff.mp hi _ h
    simp at this

theorem localSlot?_lt {id : LocalId} (h : c.localSlot? id = some i) : i < c.slots.length := by
  obtain ⟨name, ty, hi⟩ := slot_of_localSlot? h
  exact (List.getElem?_eq_some_iff.mp hi).1

theorem readInstance?_eq_some {adapter : ClassId} {depth : Except Cause Nat} {e : Expr}
    (h : c.readInstance? adapter depth = some e) :
    ∃ d i, depth = .ok d ∧ e = slotRead adapter i := by
  cases depth with
  | error cause => cases h
  | ok d =>
    obtain ⟨i, -, rfl⟩ := Option.map_eq_some_iff.mp h
    exact ⟨d, i, rfl, rfl⟩

/-- A captured enclosing instance is read from its slot. -/
theorem readInstance?_of_mem {depth : Nat} {type : ClassId}
    (h : Slot.instance_ depth type ∈ c.slots) (adapter : ClassId) :
    ∃ i < c.slots.length, c.readInstance? adapter (.ok depth) = some (slotRead adapter i) := by
  obtain ⟨i, hi⟩ := instanceSlot?_of_mem h
  obtain ⟨type', hget⟩ := slot_of_instanceSlot? hi
  refine ⟨i, (List.getElem?_eq_some_iff.mp hget).1, ?_⟩
  rw [readInstance?, hi]
  rfl

end CaptureSet

/-! ## Emptiness -/

/-- What a node needs starts with something that has a slot. -/
theorem Expr.Resolved.exists_slot {s : Site} {declared : List LocalId} {e : Expr}
    {bs : List Binding}
    (h : e.Resolved s declared bs) {b : Binding} (hb : b ∈ bs) :
      ∃ b' ∈ bs, ∃ x, b'.slot? = some x := by
  cases h with
  | own | assigned | staticField | staticCall | inert => cases hb
  | captured => exact ⟨_, List.mem_cons_self, _, rfl⟩
  | this | super | instanceField | instanceCall => exact ⟨_, List.mem_cons_self, _, rfl⟩
  | @create _ _ _ depth? =>
    cases depth? with
    | none => cases hb
    | some depth => exact ⟨_, List.mem_cons_self, _, rfl⟩

namespace CaptureSet

/-- **A lambda captures nothing exactly if its adapter has no fields.** -/
theorem isEmpty_ofLambda {s : Site} {params : List Param} {body : LambdaBody} {c : CaptureSet}
    (h : ofLambda s params body = .ok c) : c.isEmpty = c.slots.isEmpty := by
  rw [Bool.eq_iff_iff, isEmpty, List.isEmpty_iff, List.isEmpty_iff]
  constructor
  · intro hnil
    refine List.eq_nil_iff_forall_not_mem.mpr fun x hx => ?_
    obtain ⟨b, hb, -⟩ := (consistent_ofLambda h x).mp hx
    rw [hnil] at hb
    cases hb
  · intro hnil
    refine List.eq_nil_iff_forall_not_mem.mpr fun b hb => ?_
    obtain ⟨n, hn, bs, hneeds, hmem⟩ := (mem_bindings_ofLambda h).2 b hb
    cases n with
    | stmt st =>
      cases hneeds
      cases hmem
    | expr e =>
      obtain ⟨b', hb', x, hx⟩ := (e.resolved_of_needs hneeds).exists_slot hmem
      obtain ⟨bs', hneeds', hbs'⟩ := (mem_bindings_ofLambda h).1 _ hn
      cases hneeds.symm.trans hneeds'
      have hslot := (consistent_ofLambda h x).mpr ⟨b', hbs' b' hb', hx⟩
      rw [hnil] at hslot
      cases hslot

/-- The same for a method reference. -/
theorem isEmpty_ofReference (s : Site) (form : Reference.Form) :
    (ofReference s form).isEmpty = (ofReference s form).slots.isEmpty := by
  rcases form with _ | _ | ⟨_, _ | _⟩ | ⟨_, _, _ | _⟩ | _ | _ <;> rfl

end CaptureSet

end Closures
