import Closures.Proofs.Simulation

/-!
# Paired evaluation

Two units with the same code evaluate every tree alike: from paired stores and
paired frames to paired stores and paired results. This is proved of one tree at
a time, for calls that are simulated already, by recursion on the tree;
`Calls.Sim` for a budget then follows by induction on it.

The first of the two runs is **cautious**: it is stopped where the text of a
value would show the serial of an instance. Serials count the instances made so
far, so they are the one thing in a text that tells the two runs apart.
-/

set_option autoImplicit false

namespace Closures

/-- Calls that simulate others. -/
structure Calls.Sim (u : CompilationUnit) (k k' : Calls) : Prop where
  invoke : ∀ {ρ : Pairing} (m : MethodId) {this this' : Option Ref} {args args' : List Value},
    Option.Rel ρ this this' → List.Forall₂ (Value.Paired ρ) args args' →
      Action.Sim u Value.Paired ρ (k.invoke m this args) (k'.invoke m this' args')
  construct : ∀ {ρ : Pairing} (type : ClassId) (ctor : Option MethodId) {outer outer' : Option Ref}
    {args args' : List Value}, Option.Rel ρ outer outer' →
      List.Forall₂ (Value.Paired ρ) args args' →
      Action.Sim u Value.Paired ρ (k.construct type ctor outer args)
        (k'.construct type ctor outer' args')
  text : ∀ {ρ : Pairing} {v w : Value}, v.Paired ρ w →
    Action.Sim u (fun _ => Eq) ρ (k.text v) (k'.text w)
  rounds : k'.rounds = k.rounds

namespace Sim

variable {u u' : CompilationUnit} {k k' : Calls} {ρ : Pairing}

/-! ## Calls and operators -/

theorem callVirtual (hu : u.SameCode u') (hk : k.Sim u k') {r r' : Ref} (hr : ρ r r') (m : MethodId)
    {args args' : List Value} (hargs : List.Forall₂ (Value.Paired ρ) args args') :
    Action.Sim u Value.Paired ρ (callVirtual u k r m args) (callVirtual u' k' r' m args') := by
  unfold Closures.callVirtual
  rw [hu.method?, hu.resolveVirtual?, hu.className]
  refine get_bind fun s t hs => ofExcept_bind (hs.heap.instanceType _ hr) fun type _ htype => ?_
  subst htype
  cases u.resolveVirtual? type m with
  | some target => exact hk.invoke target (.some hr) hargs
  | none => exact fault (.same rfl)

theorem stringifyAll (hk : k.Sim u k') {vs ws : List Value}
    (hvs : List.Forall₂ (Value.Paired ρ) vs ws) :
    Action.Sim u (fun _ => Eq) ρ (stringifyAll k vs) (stringifyAll k' ws) := by
  induction vs generalizing ws ρ with
  | nil =>
    cases hvs
    exact .pure rfl
  | cons v vs ih =>
    obtain _ | ⟨hv, hrest⟩ := hvs
    refine (hk.text hv).bind fun _ hρ _ _ hleft => (ih (forall₂_paired_mono hρ hrest)).bind
      fun _ _ _ _ hright => ?_
    rw [hleft, hright]
    exact .pure rfl

theorem binaryOp (hk : k.Sim u k') (op : BinaryOp) {v v' w w' : Value} (hv : v.Paired ρ v')
    (hw : w.Paired ρ w') :
    Action.Sim u Value.Paired ρ (binaryOp k op v w) (binaryOp k' op v' w') := by
  unfold Closures.binaryOp
  rw [← hv.isText_eq, ← hw.isText_eq]
  split
  · refine (hk.text hv).bind fun _ hρ _ _ hleft =>
      (hk.text (hw.mono hρ)).bind fun _ _ _ _ hright => ?_
    rw [hleft, hright]
    exact .pure (.plain rfl)
  · exact get_bind fun s t hs => ofExcept (hs.heap.arithmetic op hv hw)

end Sim

section Trees

variable {u u' : CompilationUnit} {ρ : Pairing} {h h' : Heap}

theorem castTo_paired (hu : u.SameCode u') (hh : Heap.Paired ρ h h') {v w : Value}
    (hv : v.Paired ρ w)
    (t : Ty) : Outcome (Fault.Paired ρ) (Value.Paired ρ) (castTo u v t h) (castTo u' w t h') := by
  unfold castTo
  split
  · exact hh.convert hv _
  · rw [← isInstance_eq hu hh hv, ← hv.isNull_eq, ← hh.kindName_eq hv]
    split
    · exact .ok hv
    · exact .error (.same rfl)

theorem implicitOuter_paired (hu : u.SameCode u') (hh : Heap.Paired ρ h h')
    {this this' : Option Ref}
    (hthis : Option.Rel ρ this this') {d d' : TypeDecl} (hd : d'.bare = d.bare) :
    Outcome (Fault.Paired ρ) (Option.Rel ρ) (implicitOuter u h this d)
      (implicitOuter u' h' this' d') := by
  rw [TypeDecl.eq_of_bare hd]
  unfold implicitOuter
  cases d.outer with
  | none => exact .ok .none
  | some owner =>
    dsimp only
    split
    · exact (enclosing_paired hu hh hthis owner).bind fun _ _ ho => .ok (.some ho)
    · exact .ok .none

theorem elementAt_paired (index : Int32) {vs ws : Array Value}
    (h : List.Forall₂ (Value.Paired ρ) vs.toList ws.toList) :
    Outcome (Fault.Paired ρ) Eq (elementAt index vs) (elementAt index ws) := by
  have hsize : ws.size = vs.size := h.length_eq.symm
  unfold elementAt
  rw [hsize]
  split
  · exact .ok rfl
  · exact .error (.same rfl)

theorem getD_paired {vs ws : Array Value} (h : List.Forall₂ (Value.Paired ρ) vs.toList ws.toList)
    (i : Nat) :
    (vs.getD i .null).Paired ρ (ws.getD i .null) := by
  rw [Array.getD_eq_getD_getElem?, Array.getD_eq_getD_getElem?, ← Array.getElem?_toList,
    ← Array.getElem?_toList]
  by_cases hi : i < vs.toList.length
  · have hi' : i < ws.toList.length := h.length_eq ▸ hi
    rw [List.getElem?_eq_getElem hi, List.getElem?_eq_getElem hi']
    exact h.get hi hi'
  · have hi' : ¬i < ws.toList.length := h.length_eq ▸ hi
    rw [List.getElem?_eq_none (Nat.le_of_not_lt hi), List.getElem?_eq_none (Nat.le_of_not_lt hi')]
    exact .plain rfl

end Trees

/-! ## Expressions -/

section Evaluation

variable {u u' : CompilationUnit} {k k' : Calls}

mutual

/-- **Expressions are evaluated alike.** -/
theorem evalExpr_sim (hu : u.SameCode u') (hk : k.Sim u k') (e : Expr) (ρ : Pairing) :
    Eval.Sim u Value.Paired ρ (evalExpr u k e) (evalExpr u' k' e) := by
  cases e <;> rw [evalExpr, evalExpr]
  case null | bool | int | long | double | char | string => exact .pure (.plain rfl)
  case lambda | methodRef => exact .halt (.fault (.same rfl))
  case localGet id => exact .readLocal id
  case localSet id e =>
    exact (evalExpr_sim hu hk e ρ).bind fun _ _ _ _ hv =>
      (Sim.writeLocal id hv).bind fun _ hρ _ _ _ => .pure (hv.mono hρ)
  case this q =>
    refine .get_bind fun c c' hc => ?_
    exact .onHeap_bind (fun _ _ hh => thisObject_paired hu hh hc.frame.this q) fun _ _ hr =>
      .pure (.ref hr)
  case fieldGet r f =>
    refine .get_bind fun c c' hc => ?_
    have hget := hc.store.statics.get? f
    generalize c.store.statics.get? f = x, c'.store.statics.get? f = y at hget ⊢
    cases hget with
    | some hv => exact .pure hv
    | none =>
      exact (evalFieldOwner_sim hu hk f r ρ).bind fun _ _ _ _ hr => .onHeap fun _ _ hh =>
        hh.loadField f hr
  case fieldSet r f e =>
    refine .get_bind fun c c' hc => ?_
    have hget := hc.store.statics.get? f
    generalize c.store.statics.get? f = x, c'.store.statics.get? f = y at hget ⊢
    cases hget with
    | some =>
      exact (evalExpr_sim hu hk e ρ).bind fun _ _ _ _ hv =>
        (Sim.writeStatic f hv).bind fun _ hρ _ _ _ => .pure (hv.mono hρ)
    | none =>
      exact (evalFieldOwner_sim hu hk f r ρ).bind fun ρ₁ _ _ _ hr => (evalExpr_sim hu hk e ρ₁).bind
        fun _ hρ _ _ hv => (Sim.inFrame (.storeField (hρ _ _ hr) f hv)).bind fun _ hρ' _ _ _ =>
          .pure (hv.mono hρ')
  case call r m args =>
    rw [hu.method?]
    cases u.method? m with
    | none => exact .halt (.fault (.same rfl))
    | some declared => exact evalCall_sim hu hk m declared (evalExprs_sim hu hk args) r ρ
  case new t ctor outer args =>
    refine .onHeap_bind (fun _ _ _ => declOf_paired hu t.id) fun d d' hd => ?_
    exact (evalOuter_sim hu hk hd outer ρ).bind fun ρ₁ _ _ _ ho =>
      (evalExprs_sim hu hk args ρ₁).bind
      fun _ hρ _ _ hargs => .inFrame (hk.construct t.id ctor (optionRel_mono hρ ho) hargs)
  case newArray t e =>
    refine (evalExpr_sim hu hk e ρ).bind fun ρ₁ _ _ _ hv => .onHeap_bind (fun _ _ hh => hh.asInt hv)
      fun length _ hlength => ?_
    subst hlength
    have hnew : Eval.Sim u Value.Paired ρ₁
        (newObject (.array t (Array.replicate length.toInt.toNat (.defaultFor t)))).inFrame
        (newObject (.array t (Array.replicate length.toInt.toNat (.defaultFor t)))).inFrame := by
      -- the elements start from a default value, which refers to no object
      refine .inFrame (.newObject (.array (List.forall₂_same.mpr fun v hv => ?_)))
      rw [Array.toList_replicate] at hv
      rw [List.eq_of_mem_replicate hv]
      exact .plain (Value.ref?_defaultFor t)
    split
    · exact .halt_bind (.fault (.same rfl))
    · exact hnew
  case arrayLit t es =>
    exact (evalExprs_sim hu hk es ρ).bind fun _ _ _ _ hvs => .inFrame (.newObject (.array hvs))
  case arrayGet a i =>
    refine (evalExpr_sim hu hk a ρ).bind fun ρ₁ _ _ _ ha =>
      (evalExpr_sim hu hk i ρ₁).bind fun _ hρ _ _ hi => ?_
    refine .onHeap fun _ _ hh => (hh.asInt hi).bind fun index _ hindex => ?_
    subst hindex
    refine (Heap.Paired.nonNull _ (ha.mono hρ)).bind fun _ _ hr =>
      (hh.elements _ hr).bind fun _ _ hvs => ?_
    refine (elementAt_paired index hvs).bind fun place _ hplace => ?_
    subst hplace
    exact .ok (getD_paired hvs place)
  case arraySet a i e =>
    refine (evalExpr_sim hu hk a ρ).bind fun ρ₁ _ array array' ha =>
      (evalExpr_sim hu hk i ρ₁).bind fun ρ₂ hρ₂ _ _ hi => ?_
    refine .onHeap_bind (fun _ _ hh => hh.asInt hi) fun index _ hindex => ?_
    subst hindex
    refine (evalExpr_sim hu hk e ρ₂).bind fun ρ₃ hρ₃ _ _ hv => ?_
    -- the array is opened after its new element was evaluated, when the pairing has grown twice
    have harray : array.Paired ρ₃ array' := ha.mono (hρ₂.trans hρ₃)
    refine .onHeap_bind (Q := fun (x y : Ref × Nat) => ρ₃ x.1 y.1 ∧ x.2 = y.2)
      (fun _ _ hh => (Heap.Paired.nonNull _ harray).bind fun _ _ hr =>
        (hh.elements _ hr).bind fun _ _ hvs =>
        (elementAt_paired index hvs).bind fun _ _ hplace => .ok ⟨hr, hplace⟩) ?_
    rintro ⟨object, place⟩ ⟨object', place'⟩ ⟨hr, rfl⟩
    exact (Sim.inFrame (.storeElement hr place hv)).bind fun _ hρ₄ _ _ _ => .pure (hv.mono hρ₄)
  case arrayLength a =>
    refine (evalExpr_sim hu hk a ρ).bind fun _ _ _ _ ha => .onHeap fun _ _ hh =>
      (Heap.Paired.nonNull _ ha).bind fun _ _ hr => (hh.elements _ hr).bind fun vs ws hvs => ?_
    have hsize : ws.size = vs.size := hvs.length_eq.symm
    rw [hsize]
    exact .ok (.plain rfl)
  case binary op l r =>
    exact (evalExpr_sim hu hk l ρ).bind fun ρ₁ _ _ _ hv =>
      (evalExpr_sim hu hk r ρ₁).bind fun _ hρ _ _ hw => .inFrame (.binaryOp hk op (hv.mono hρ) hw)
  case compare op l r =>
    refine (evalExpr_sim hu hk l ρ).bind fun ρ₁ _ _ _ hv =>
      (evalExpr_sim hu hk r ρ₁).bind fun _ hρ _ _ hw =>
      .onHeap_bind (fun _ _ hh => hh.compareOp op (hv.mono hρ) hw) fun b _ hb => ?_
    subst hb
    exact .pure (.plain rfl)
  case logical op l r =>
    refine (evalExpr_sim hu hk l ρ).bind fun ρ₁ _ _ _ hv =>
      .onHeap_bind (fun _ _ hh => hh.asBool hv) fun left _ hleft => ?_
    subst hleft
    have hright : Eval.Sim u Value.Paired ρ₁
        (do
          let w ← evalExpr u k r
          return .bool (← Eval.onHeap fun h => w.asBool h))
        (do
          let w ← evalExpr u' k' r
          return .bool (← Eval.onHeap fun h => w.asBool h)) := by
      refine (evalExpr_sim hu hk r ρ₁).bind fun _ _ _ _ hw =>
        .onHeap_bind (fun _ _ hh => hh.asBool hw) fun b _ hb => ?_
      subst hb
      exact .pure (.plain rfl)
    cases op <;> cases left
    · exact .pure (.plain rfl)
    · exact hright
    · exact hright
    · exact .pure (.plain rfl)
  case unary op e =>
    exact (evalExpr_sim hu hk e ρ).bind fun _ _ _ _ hv => .onHeap fun _ _ hh => hh.unaryOp op hv
  case cond c t e =>
    refine (evalExpr_sim hu hk c ρ).bind fun ρ₁ _ _ _ hv =>
      .onHeap_bind (fun _ _ hh => hh.asBool hv) fun b _ hb => ?_
    subst hb
    cases b
    · exact evalExpr_sim hu hk e ρ₁
    · exact evalExpr_sim hu hk t ρ₁
  case cast e t =>
    exact (evalExpr_sim hu hk e ρ).bind fun _ _ _ _ hv => .onHeap fun _ _ hh =>
      castTo_paired hu hh hv t
  case instanceOf e t =>
    refine (evalExpr_sim hu hk e ρ).bind fun _ _ _ _ hv => .get_bind fun c c' hc => ?_
    rw [isInstance_eq hu hc.store.heap hv t]
    exact .pure (.plain rfl)
  case box e kind =>
    exact (evalExpr_sim hu hk e ρ).bind fun _ _ _ _ hv =>
      .onHeap_bind (fun _ _ hh => hh.convert hv kind)
      fun _ _ hw => .inFrame (.newObject (.boxed hw))
  case unbox e kind =>
    exact (evalExpr_sim hu hk e ρ).bind fun _ _ _ _ hv => .onHeap fun _ _ hh =>
      (hh.unboxed hv).bind fun _ _ hw => hh.convert hw kind
  case convert e kind =>
    exact (evalExpr_sim hu hk e ρ).bind fun _ _ _ _ hv => .onHeap fun _ _ hh => hh.convert hv kind
  case nullCheck e =>
    refine (evalExpr_sim hu hk e ρ).bind fun _ _ _ _ hv => ?_
    rw [← hv.isNull_eq]
    split
    · exact .halt (.fault (.same rfl))
    · exact .pure hv
  case intrinsic op args =>
    refine (evalExprs_sim hu hk args ρ).bind fun ρ₁ _ vs ws hvs => ?_
    have hprint : Action.Sim u (fun _ => Eq) ρ₁ (do printLine (← stringifyAll k vs))
        (do printLine (← stringifyAll k' ws)) := by
      refine (Sim.stringifyAll hk hvs).bind fun _ _ line _ hline => ?_
      subst hline
      exact .printLine line
    exact (Sim.inFrame hprint).bind fun _ _ _ _ _ => .pure (.plain rfl)
  case newClosure adapter es =>
    exact (evalExprs_sim hu hk es ρ).bind fun _ _ _ _ hvs => .inFrame (.newClosure hu adapter hvs)
  case singleton adapter => exact .inFrame (.singleton hu adapter)

/-- So are expressions in order. -/
theorem evalExprs_sim (hu : u.SameCode u') (hk : k.Sim u k') (es : List Expr) (ρ : Pairing) :
    Eval.Sim u (fun ρ => List.Forall₂ (Value.Paired ρ)) ρ (evalExprs u k es)
      (evalExprs u' k' es) := by
  cases es with
  | nil => exact .pure .nil
  | cons e es =>
    rw [evalExprs, evalExprs]
    exact (evalExpr_sim hu hk e ρ).bind fun ρ₁ _ _ _ hv =>
      (evalExprs_sim hu hk es ρ₁).bind fun _ hρ _ _ hvs => .pure (.cons (hv.mono hρ) hvs)

/-- The same object is the one whose field is accessed. -/
theorem evalFieldOwner_sim (hu : u.SameCode u') (hk : k.Sim u k') (f : FieldId) (r : Option Expr)
    (ρ : Pairing) :
    Eval.Sim u (fun ρ => ρ) ρ (evalFieldOwner u k f r) (evalFieldOwner u' k' f r) := by
  cases r <;> rw [evalFieldOwner, evalFieldOwner]
  case none =>
    exact .get_bind fun c c' hc => .onHeap fun _ _ hh =>
      enclosing_paired hu hh hc.frame.this f.owner
  case some e =>
    exact (evalExpr_sim hu hk e ρ).bind fun _ _ _ _ hv => .onHeap fun _ _ _ =>
      Heap.Paired.nonNull _ hv

/-- The same object encloses a new instance. -/
theorem evalOuter_sim (hu : u.SameCode u') (hk : k.Sim u k') {d d' : TypeDecl}
    (hd : d'.bare = d.bare) (o : Option Expr) (ρ : Pairing) :
    Eval.Sim u (fun ρ => Option.Rel ρ) ρ (evalOuter u k d o) (evalOuter u' k' d' o) := by
  cases o <;> rw [evalOuter, evalOuter]
  case none =>
    exact .get_bind fun c c' hc => .onHeap fun _ _ hh => implicitOuter_paired hu hh hc.frame.this hd
  case some e =>
    exact (evalExpr_sim hu hk e ρ).bind fun _ _ _ _ hv =>
      .onHeap_bind (fun _ _ _ => Heap.Paired.nonNull _ hv) fun _ _ hr => .pure (.some hr)

/-- Calls are made alike if their arguments are evaluated alike. -/
theorem evalCall_sim (hu : u.SameCode u') (hk : k.Sim u k') (m : MethodId) (declared : Method)
    {args args' : Eval (List Value)}
    (ha : ∀ ρ, Eval.Sim u (fun ρ => List.Forall₂ (Value.Paired ρ)) ρ args args')
    (r : Receiver) (ρ : Pairing) :
    Eval.Sim u Value.Paired ρ (evalCall u k m declared args r)
      (evalCall u' k' m declared args' r) := by
  -- how a call goes on once its receiver is known: without one, by dispatch, or to the very method
  have hstatic : Eval.Sim u Value.Paired ρ (do
      let vs ← args
      (k.invoke m none vs).inFrame) (do
      let vs ← args'
      (k'.invoke m none vs).inFrame) :=
    (ha ρ).bind fun _ _ _ _ hvs => .inFrame (hk.invoke m .none hvs)
  have hvirtual : ∀ {ρ : Pairing} {r r' : Ref}, ρ r r' → Eval.Sim u Value.Paired ρ (do
      let vs ← args
      (callVirtual u k r m vs).inFrame) (do
      let vs ← args'
      (callVirtual u' k' r' m vs).inFrame) :=
    fun {ρ} _ _ hr => (ha ρ).bind fun _ hρ _ _ hvs =>
      .inFrame (.callVirtual hu hk (hρ _ _ hr) m hvs)
  have hdirect : ∀ {ρ : Pairing} {r r' : Ref}, ρ r r' → Eval.Sim u Value.Paired ρ (do
      let vs ← args
      (k.invoke m (some r) vs).inFrame) (do
      let vs ← args'
      (k'.invoke m (some r') vs).inFrame) :=
    fun {ρ} _ _ hr => (ha ρ).bind fun _ hρ _ _ hvs => .inFrame (hk.invoke m (.some (hρ _ _ hr)) hvs)
  cases r <;> rw [evalCall, evalCall]
  case static => exact hstatic
  case implicit =>
    split
    · exact hstatic
    · exact .get_bind fun c c' hc =>
        .onHeap_bind (fun _ _ hh => enclosing_paired hu hh hc.frame.this m.owner) fun _ _ =>
          hvirtual
  case expr e =>
    exact (evalExpr_sim hu hk e ρ).bind fun _ _ _ _ hv =>
      .onHeap_bind (fun _ _ _ => Heap.Paired.nonNull _ hv) fun _ _ => hvirtual
  case super q =>
    exact .get_bind fun c c' hc =>
      .onHeap_bind (fun _ _ hh => thisObject_paired hu hh hc.frame.this q) fun _ _ => hdirect
  case nonVirtual e =>
    exact (evalExpr_sim hu hk e ρ).bind fun _ _ _ _ hv =>
      .onHeap_bind (fun _ _ _ => Heap.Paired.nonNull _ hv) fun _ _ => hdirect

end

theorem evalCondition_sim (hu : u.SameCode u') (hk : k.Sim u k') (e : Expr) (ρ : Pairing) :
    Eval.Sim u (fun _ => Eq) ρ (evalCondition u k e) (evalCondition u' k' e) :=
  (evalExpr_sim hu hk e ρ).bind fun _ _ _ _ hv => .onHeap fun _ _ hh => hh.asBool hv

theorem evalOption_sim (hu : u.SameCode u') (hk : k.Sim u k') {otherwise : Value}
    (ho : otherwise.ref? = none) (e : Option Expr) (ρ : Pairing) :
    Eval.Sim u Value.Paired ρ (evalOption u k otherwise e) (evalOption u' k' otherwise e) := by
  cases e with
  | none => exact .pure (.plain ho)
  | some e => exact evalExpr_sim hu hk e ρ

/-! ## Statements -/

mutual

/-- **Statements are executed alike.** -/
theorem execStmt_sim (hu : u.SameCode u') (hk : k.Sim u k') (st : Stmt) (ρ : Pairing) :
    Eval.Sim u Flow.Paired ρ (execStmt u k st) (execStmt u' k' st) := by
  cases st <;> rw [execStmt, execStmt]
  case declare p init =>
    exact (evalOption_sim hu hk (Value.ref?_defaultFor p.ty) init ρ).bind fun _ _ _ _ hv =>
      (Sim.writeLocal p.id hv).bind fun _ _ _ _ _ => .pure .next
  case expr e => exact (evalExpr_sim hu hk e ρ).bind fun _ _ _ _ _ => .pure .next
  case ret e => exact (evalOption_sim hu hk rfl e ρ).bind fun _ _ _ _ hv => .pure (.ret hv)
  case cond c t e =>
    refine (evalCondition_sim hu hk c ρ).bind fun ρ₁ _ b _ hb => ?_
    subst hb
    cases b
    · exact execOption_sim hu hk e ρ₁
    · exact execStmts_sim hu hk t ρ₁
  case whileLoop c b =>
    rw [hk.rounds]
    refine Sim.iterate (fun ρ => ?_) k.rounds ρ
    refine (evalCondition_sim hu hk c ρ).bind fun ρ₁ _ go _ hgo => ?_
    subst hgo
    cases go
    · exact .pure (.some .next)
    · exact (execStmts_sim hu hk b ρ₁).bind fun _ _ _ _ hflow => .pure hflow.endsLoop?
  case forLoop i c update b =>
    -- a round, once its condition is known; a condition that is absent holds
    have hround : ∀ (go : Bool) (ρ : Pairing), Eval.Sim u (fun ρ => Option.Rel (Flow.Paired ρ)) ρ
        (do
          if go then
            match (← execStmts u k b).endsLoop? with
            | some flow => return some flow
            | none => do
              let _ ← evalExprs u k update
              return none
          else return some .next)
        (do
          if go then
            match (← execStmts u' k' b).endsLoop? with
            | some flow => return some flow
            | none => do
              let _ ← evalExprs u' k' update
              return none
          else return some .next) := by
      intro go ρ
      cases go
      · exact .pure (.some .next)
      · refine (execStmts_sim hu hk b ρ).bind fun ρ₁ _ flow flow' hflow => ?_
        have hends := hflow.endsLoop?
        generalize flow.endsLoop? = x, flow'.endsLoop? = y at hends ⊢
        cases hends with
        | some hflow => exact .pure (.some hflow)
        | none => exact (evalExprs_sim hu hk update ρ₁).bind fun _ _ _ _ _ => .pure .none
    rw [hk.rounds]
    refine (execStmts_sim hu hk i ρ).bind fun ρ₁ _ _ _ hflow => ?_
    cases hflow with
    | ret hv => exact .pure (.ret hv)
    | next | breakLoop | continueLoop =>
      refine Sim.iterate (fun ρ => ?_) k.rounds ρ₁
      cases c with
      | none =>
        have htrue : Eval.Sim u (fun _ => Eq) ρ (pure true) (pure true) := .pure rfl
        exact htrue.bind fun ρ₂ _ go _ hgo => hgo ▸ hround go ρ₂
      | some c => exact (evalCondition_sim hu hk c ρ).bind fun ρ₂ _ go _ hgo => hgo ▸ hround go ρ₂
  case forEach p e b =>
    refine (evalExpr_sim hu hk e ρ).bind fun _ _ _ _ hv => .onHeap_bind
      (fun _ _ hh => (Heap.Paired.nonNull _ hv).bind fun _ _ hr => hh.elements _ hr) fun _ _ hvs =>
        ?_
    exact .forEachValue (fun _ _ _ hw => (Sim.writeLocal p.id hw).bind fun ρ₁ _ _ _ _ =>
      execStmts_sim hu hk b ρ₁) hvs
  case block b => exact execStmts_sim hu hk b ρ
  case raise e =>
    refine (evalExpr_sim hu hk e ρ).bind fun _ _ _ _ hv => ?_
    rw [← hv.isNull_eq]
    split
    · exact .halt (.fault (.same rfl))
    · exact .halt (.fault (.thrown hv))
  case tryCatch b handler final =>
    exact execFinal_sim hu hk (execHandled_sim hu hk (execStmts_sim hu hk b) handler) final ρ
  case breakLoop => exact .pure .breakLoop
  case continueLoop => exact .pure .continueLoop

/-- So are statements in order. -/
theorem execStmts_sim (hu : u.SameCode u') (hk : k.Sim u k') (ss : List Stmt) (ρ : Pairing) :
    Eval.Sim u Flow.Paired ρ (execStmts u k ss) (execStmts u' k' ss) := by
  cases ss with
  | nil => exact .pure .next
  | cons st ss =>
    rw [execStmts, execStmts]
    refine (execStmt_sim hu hk st ρ).bind fun ρ₁ _ _ _ hflow => ?_
    cases hflow with
    | next => exact execStmts_sim hu hk ss ρ₁
    | ret hv => exact .pure (.ret hv)
    | breakLoop => exact .pure .breakLoop
    | continueLoop => exact .pure .continueLoop

/-- So are statements that may be absent. -/
theorem execOption_sim (hu : u.SameCode u') (hk : k.Sim u k') (b : Option (List Stmt))
    (ρ : Pairing) :
    Eval.Sim u Flow.Paired ρ (execOption u k b) (execOption u' k' b) := by
  cases b with
  | none => exact .pure .next
  | some b =>
    rw [execOption, execOption]
    exact execStmts_sim hu hk b ρ

/-- So is a body under a handler. -/
theorem execHandled_sim (hu : u.SameCode u') (hk : k.Sim u k') {body body' : Eval Flow}
    (hbody : ∀ ρ, Eval.Sim u Flow.Paired ρ body body') (handler : Option CatchClause)
    (ρ : Pairing) :
    Eval.Sim u Flow.Paired ρ (execHandled u k body handler) (execHandled u' k' body' handler) := by
  cases handler with
  | none => exact hbody ρ
  | some c =>
    obtain ⟨p, b⟩ := c
    rw [execHandled, execHandled]
    exact .handling (hbody ρ) (fun _ _ _ hh _ _ hv => isInstance_eq hu hh hv p.ty) fun _ _ _ hv =>
      (Sim.writeLocal p.id hv).bind fun ρ₁ _ _ _ _ => execStmts_sim hu hk b ρ₁

/-- So is a body with a final block. -/
theorem execFinal_sim (hu : u.SameCode u') (hk : k.Sim u k') {body body' : Eval Flow}
    (hbody : ∀ ρ, Eval.Sim u Flow.Paired ρ body body') (final : Option (List Stmt)) (ρ : Pairing) :
    Eval.Sim u Flow.Paired ρ (execFinal u k body final) (execFinal u' k' body' final) := by
  cases final with
  | none => exact hbody ρ
  | some b =>
    rw [execFinal, execFinal]
    exact .finally_ (hbody ρ) (execStmts_sim hu hk b)

end

/-! ## Methods and instances -/

theorem bindParams_paired {ρ : Pairing} (params : List Param) {args args' : List Value}
    (hargs : List.Forall₂ (Value.Paired ρ) args args') :
    (bindParams params args).Paired ρ (bindParams params args') := by
  -- the fold starts from any two paired tables, so that the induction on the arguments goes through
  have hfold : ∀ {t t' : Table LocalId Value}, t.Paired ρ t' →
      ((params.zip args).foldl (fun t b => t.put b.1.id b.2) t).Paired ρ
        ((params.zip args').foldl (fun t b => t.put b.1.id b.2) t') := by
    induction hargs generalizing params with
    | nil => exact fun ht => by simpa using ht
    | cons hv _ ih =>
      cases params with
      | nil => exact fun ht => ht
      | cons p params => exact fun ht => ih params (ht.put p.id hv)
  exact hfold .nil

variable (hu : u.SameCode u') (hk : k.Sim u k')

include hu hk

theorem runMethod_sim {ρ : Pairing} (id : MethodId) {this this' : Option Ref}
    {args args' : List Value}
    (hthis : Option.Rel ρ this this') (hargs : List.Forall₂ (Value.Paired ρ) args args') :
    Action.Sim u Value.Paired ρ (runMethod u k id this args) (runMethod u' k' id this' args') := by
  unfold runMethod
  rw [hu.method?, hu.className, ← hargs.length_eq]
  cases u.method? id with
  | none => exact .fault (.same rfl)
  | some m =>
    dsimp only
    cases m.body with
    | none => exact .fault (.same rfl)
    | some body =>
      dsimp only
      split
      · exact .fault (.same rfl)
      · refine .get_bind fun s t hs => ?_
        rw [hs.depth]
        split
        · exact .fault (.same rfl)
        · have hframe : Frame.Paired ρ ⟨this, bindParams m.params args⟩
            ⟨this', bindParams m.params args'⟩ :=
            ⟨hthis, bindParams_paired m.params hargs⟩
          refine (Sim.oneDeeper
            ((execStmts_sim hu hk body ρ).within hframe)).bind fun _ _ _ _ hflow => ?_
          cases hflow with
          | ret hv => exact .pure hv
          | next | breakLoop | continueLoop => exact .pure (.plain rfl)

section Initializers

variable {ρ : Pairing} {write write' : FieldId → Value → Eval Unit}

theorem initFields_sim
    (hwrite : ∀ ρ', ρ ≤ ρ' → ∀ f v w, v.Paired ρ' w →
      Eval.Sim u (fun _ => Eq) ρ' (write f v) (write' f w))
    (fs : List (FieldId × Field)) :
    Eval.Sim u (fun _ => Eq) ρ (initFields u k write fs) (initFields u' k' write' fs) := by
  induction fs generalizing ρ with
  | nil => exact .pure rfl
  | cons x rest ih =>
    obtain ⟨id, f⟩ := x
    rw [initFields, initFields]
    cases f.init with
    | none => exact ih hwrite
    | some e =>
      exact (evalExpr_sim hu hk e ρ).bind fun _ hρ _ _ hv =>
        (hwrite _ hρ id _ _ hv).bind fun _ hρ' _ _ _ =>
        ih fun _ hle => hwrite _ (hρ.trans (hρ'.trans hle))

theorem runInitializers_sim (is : List Initializer) :
    Eval.Sim u (fun _ => Eq) ρ (runInitializers u k is) (runInitializers u' k' is) := by
  induction is generalizing ρ with
  | nil => exact .pure rfl
  | cons i rest ih => exact (execStmts_sim hu hk i.body ρ).bind fun _ _ _ _ _ => ih

theorem initDecl_sim (isStatic : Bool)
    (hwrite : ∀ ρ', ρ ≤ ρ' → ∀ f v w, v.Paired ρ' w →
      Eval.Sim u (fun _ => Eq) ρ' (write f v) (write' f w))
    {d d' : TypeDecl} (hd : d'.bare = d.bare) :
    Eval.Sim u (fun _ => Eq) ρ (initDecl u k isStatic write d)
      (initDecl u' k' isStatic write' d') := by
  rw [TypeDecl.eq_of_bare hd]
  exact (initFields_sim hu hk hwrite _).bind fun _ _ _ _ _ => runInitializers_sim hu hk _

end Initializers

theorem initInstance_sim {ρ : Pairing} {r r' : Ref} (hr : ρ r r') {ds ds' : List TypeDecl}
    (hds : List.Forall₂ (fun d d' => d'.bare = d.bare) ds ds') :
    Eval.Sim u (fun _ => Eq) ρ (initInstance u k r ds) (initInstance u' k' r' ds') := by
  induction hds generalizing ρ with
  | nil => exact .pure rfl
  | cons hd _ ih =>
    exact (initDecl_sim hu hk false (fun _ hρ f _ _ hv =>
      .inFrame (.storeField (hρ _ _ hr) f hv)) hd).bind fun _ hρ _ _ _ => ih (hρ _ _ hr)

omit hk in
theorem mapM_declOf_paired {ρ : Pairing} (cs : List ClassId) :
    Outcome (Fault.Paired ρ) (List.Forall₂ fun d d' => d'.bare = d.bare) (cs.mapM (declOf u))
      (cs.mapM (declOf u')) := by
  induction cs with
  | nil => exact .ok .nil
  | cons c cs ih =>
    rw [List.mapM_cons, List.mapM_cons]
    exact (declOf_paired hu c).bind fun _ _ hd => ih.bind fun _ _ hds => .ok (.cons hd hds)

theorem createInstance_sim {ρ : Pairing} (type : ClassId) (ctor : Option MethodId)
    {outer outer' : Option Ref} {args args' : List Value} (houter : Option.Rel ρ outer outer')
    (hargs : List.Forall₂ (Value.Paired ρ) args args') :
    Action.Sim u Value.Paired ρ (createInstance u k type ctor outer args)
      (createInstance u' k' type ctor outer' args') := by
  have hempty : args'.isEmpty = args.isEmpty := by cases hargs <;> rfl
  refine .ofExcept_bind (declOf_paired hu type) fun d d' hd => ?_
  rw [TypeDecl.eq_of_bare hd]
  dsimp only
  cases d.isInterface || d.isAbstract with
  | true => exact .halt_bind (.fault (.same rfl))
  | false =>
    refine .allocate_bind hu type houter fun ρ₁ hρ₁ r r' hr => ?_
    rw [hu.lineage]
    refine .ofExcept_bind (mapM_declOf_paired hu _) fun ds ds' hds => ?_
    -- initializers run in a frame of the new instance, before its constructor
    have hframe : Frame.Paired ρ₁ ⟨some r, []⟩ ⟨some r', []⟩ := ⟨.some hr, .nil⟩
    have hinit := initInstance_sim hu hk hr (List.forall₂_reverse_iff.mpr hds)
    refine (hinit.within hframe).bind fun ρ₂ hρ₂ _ _ _ => ?_
    cases ctor with
    | some c =>
      exact (hk.invoke c (.some (hρ₂ _ _ hr)) (forall₂_paired_mono (hρ₁.trans hρ₂) hargs)).bind
        fun _ hρ₃ _ _ _ => .pure (.ref (hρ₃ _ _ (hρ₂ _ _ hr)))
    | none =>
      dsimp only
      rw [hempty]
      split
      · exact .halt_bind (.fault (.same rfl))
      · exact .pure (.ref (hρ₂ _ _ hr))

end Evaluation

/-! ## Cautious calls -/

/-- Be stopped: the budget counts as used up, and the call depth is one too
high. -/
def stop {α : Type} : Action α := fun s => (.error .exhausted, { s with depth := s.depth + 1 })

/-- The text of a value that is not asked for its own, stopped where it would
show a serial. -/
def cautiousPlainText (steps : Nat) (v : Value) : Action String := do
  if v.showsSerial (← get).heap steps then stop else plainText steps v

/-- The text of a value, stopped where it would show a serial. -/
def cautiousText (u : CompilationUnit) (invoke : MethodId → Option Ref → List Value → Action Value)
    (steps : Nat) (v : Value) : Action String := do
  match v with
  | .ref r =>
    match (← get).heap[r]? with
    | some (.inst type _ _ _) =>
      match u.findByArity? type "toString" 0 with
      | some method => do cautiousPlainText steps (← invoke method (some r) [])
      | none => stop
    | _ => cautiousPlainText steps v
  | _ => cautiousPlainText steps v

/-- How evaluation leaves a tree, within a budget, if no text may show the
serial of an instance. -/
def cautious (u : CompilationUnit) : Nat → Calls
  | 0 =>
    ⟨fun _ _ _ => throw .exhausted, fun _ _ _ _ => throw .exhausted,
      cautiousText u (fun _ _ _ => throw .exhausted) 0, 0⟩
  | n + 1 =>
    ⟨runMethod u (cautious u n), createInstance u (cautious u n),
      cautiousText u (runMethod u (cautious u n)) (n + 1), n + 1⟩

section Cautious

variable {u u' : CompilationUnit}

theorem stop_sim {α β : Type} {R : Pairing → α → β → Prop} {ρ : Pairing} (b : Action β) :
    Action.Sim u R ρ stop b := ⟨fun _ _ _ => .inl ⟨rfl, rfl⟩⟩

theorem cautiousPlainText_sim {ρ : Pairing} (steps : Nat) {v w : Value} (hv : v.Paired ρ w) :
    Action.Sim u (fun _ => Eq) ρ (cautiousPlainText steps v) (plainText steps w) := by
  constructor
  intro s t hs
  rw [cautiousPlainText, get_bind_apply]
  cases hshow : v.showsSerial s.heap steps with
  | true => exact (stop_sim _).run s t hs
  | false =>
    -- no serial is shown, so both texts are the same
    rw [if_neg Bool.false_ne_true, plainText, plainText, get_bind_apply, get_bind_apply,
      ← hv.textWithin_eq hs.heap steps hshow]
    cases v.textWithin s.heap steps with
    | some text => exact .inr ⟨ρ, le_rfl, hs, rfl, .ok rfl⟩
    | none => exact .inr ⟨ρ, le_rfl, hs, rfl, .error .exhausted⟩

theorem cautiousText_sim (hu : u.SameCode u')
    {invoke invoke' : MethodId → Option Ref → List Value → Action Value}
    (hinvoke : ∀ {ρ : Pairing} (m : MethodId) {this this' : Option Ref} {args args' : List Value},
      Option.Rel ρ this this' → List.Forall₂ (Value.Paired ρ) args args' →
        Action.Sim u Value.Paired ρ (invoke m this args) (invoke' m this' args'))
    (steps : Nat) {ρ : Pairing} {v w : Value} (hv : v.Paired ρ w) :
    Action.Sim u (fun _ => Eq) ρ (cautiousText u invoke steps v)
      (stringify u' invoke' steps w) := by
  have hplain := cautiousPlainText_sim (u := u) steps hv
  cases hv with
  | plain hv =>
    cases v with
    | ref => cases hv
    | _ => exact hplain
  | ref hr =>
    refine .get_bind fun s t hs => ?_
    obtain ⟨o, o', ho, ho', hpair⟩ := hs.heap.obj hr
    rw [ho, ho']
    cases hpair with
    | boxed | array => exact hplain
    | @inst type =>
      rw [hu.findByArity?]
      dsimp only
      cases u.findByArity? type "toString" 0 with
      | some m =>
        exact (hinvoke m (.some hr) .nil).bind fun _ _ _ _ hw => cautiousPlainText_sim steps hw
      | none => exact stop_sim _

/-- **Calls that show no serial are made alike** in two units with the same
code. -/
theorem cautious_sim (hu : u.SameCode u') (n : Nat) : (cautious u n).Sim u (callsWithin u' n) := by
  induction n with
  | zero =>
    exact ⟨fun _ _ _ _ _ _ _ => .halt .exhausted, fun _ _ _ _ _ _ _ _ => .halt .exhausted,
      cautiousText_sim hu (fun _ _ _ _ _ _ _ => .halt .exhausted) 0, rfl⟩
  | succ n ih =>
    exact ⟨runMethod_sim hu ih, createInstance_sim hu ih,
      cautiousText_sim hu (runMethod_sim hu ih) (n + 1), rfl⟩

end Cautious

end Closures
