import Mathlib.Algebra.Group.Nat.Defs
import Closures.Proofs.LiveClosure
import Closures.Proofs.TreeShape

/-!
# Closure bodies keep their meaning

A body that was redirected to the fields of its adapter does inside what the
original does outside (`evalExpr_agree`, `execStmt_agree`). The proof goes along
the tree. Most nodes are left as they are and only hand on what their parts do;
the others are those that reach out of the closure:

* a captured **local** is read from its slot;
* `this`, members and creations without a receiver, and super calls go to the
  **instance** that a slot holds, which is the one that the search at run time
  would have found.

`closure_keeps_meaning` puts this together with the evaluation of the site,
which fills the slots.
-/

set_option autoImplicit false

namespace Closures

namespace LiveClosure

variable {x : LiveClosure} {k : Calls}

/-! ## Reaching out -/

/-- What the proof needs to know about a node: it is served, it leaves the
fields of the adapter alone, and it declares none but the locals of the
closure. -/
structure Covers (x : LiveClosure) (n : Node) : Prop where
  served : n.Served x.site x.declared x.captures
  writes : n.WritesOnly x.Writable
  declares : ∀ id ∈ n.declared, id ∈ x.declared

/-- A captured instance is read back from its slot. -/
theorem readInstance?_eq {depth : Nat} {type : ClassId}
    (h : Slot.instance_ depth type ∈ x.captures.slots) :
    ∃ i type', x.captures.slots[i]? = some (.instance_ depth type') ∧
      x.captures.readInstance? x.adapter (.ok depth) = some (CaptureSet.slotRead x.adapter i) := by
  obtain ⟨i, hi⟩ := CaptureSet.instanceSlot?_of_mem h
  obtain ⟨type', htype⟩ := CaptureSet.slot_of_instanceSlot? hi
  exact ⟨i, type', htype, by rw [CaptureSet.readInstance?, hi]; rfl⟩

/-- **Search outside, slot inside.** Where a search always ends at the object of
the frame, the slot of an instance may stand for it. -/
theorem Agree.innermost (hx : x.Valid) (search : Heap → Option Ref → Except Fault Ref)
    (hsearch : ∀ st, x.Held st → ∃ t, x.frame.this = some t ∧ search st.heap x.frame.this = .ok t)
    {i depth : Nat} {type : ClassId} (hi : x.captures.slots[i]? = some (.instance_ depth type))
    (what : String) :
    x.Agree
      (do
        let this := (← get).frame.this
        Eval.onHeap fun h => search h this)
      (do
        let v ← evalExpr x.unit k (CaptureSet.slotRead x.adapter i)
        Eval.onHeap fun h => nonNull h what v) := by
  intro c d h
  obtain ⟨t, ht, hfound⟩ := hsearch c.store h.held
  obtain ⟨v, hv, hread⟩ := slot_read (k := k) hx h hi
  obtain rfl : Value.ref t = v := by simpa [Slot.contents?, ht] using hv
  rw [get_bind_apply, h.thisOutside, onHeap_of_ok hfound, bind_apply, hread]
  exact ⟨rfl, h⟩

/-- The same before a continuation. -/
theorem Agree.innermost_bind {β : Type} (hx : x.Valid)
    (search : Heap → Option Ref → Except Fault Ref)
    (hsearch : ∀ st, x.Held st → ∃ t, x.frame.this = some t ∧ search st.heap x.frame.this = .ok t)
    {i depth : Nat} {type : ClassId} (hi : x.captures.slots[i]? = some (.instance_ depth type))
    (what : String) {f f' : Ref → Eval β} (hf : ∀ r, x.Agree (f r) (f' r)) :
    x.Agree
      (do
        let this := (← get).frame.this
        let r ← Eval.onHeap fun h => search h this
        f r)
      (do
        let v ← evalExpr x.unit k (CaptureSet.slotRead x.adapter i)
        let r ← Eval.onHeap fun h => nonNull h what v
        f' r) := by
  simpa only [bind_assoc] using (Agree.innermost (k := k) hx search hsearch hi what).bind hf

/-- `this` outside is the slot of the instance inside. -/
theorem Agree.this (hx : x.Valid) {q : Option ClassId}
    (h : (Node.expr (.this q)).Served x.site x.declared x.captures) :
    x.Agree (evalExpr x.unit k (.this q)) (evalExpr x.unit k (x.redirect (.this q))) := by
  obtain ⟨depth, hdepth, hslot⟩ := h.this
  obtain ⟨i, type, hi, hread⟩ := readInstance?_eq hslot
  have hre : x.redirect (.this q) = CaptureSet.slotRead x.adapter i := by
    rw [redirect, CaptureSet.redirect, hdepth, hread]
    rfl
  rw [hre]
  intro c d hlink
  obtain ⟨-, t, ht, hfound⟩ := thisObject_eq hx hlink.held hdepth
  obtain ⟨v, hv, hslotRead⟩ := slot_read (k := k) hx hlink hi
  obtain rfl : Value.ref t = v := by simpa [Slot.contents?, ht] using hv
  rw [hslotRead, evalExpr, get_bind_apply, hlink.thisOutside, bind_apply, onHeap_of_ok hfound]
  exact ⟨rfl, hlink⟩

/-- A local is read from its slot if it is a captured one. -/
theorem Agree.localGet (hx : x.Valid) {id : LocalId}
    (h : (Node.expr (.localGet id)).Served x.site x.declared x.captures) :
    x.Agree (evalExpr x.unit k (.localGet id)) (evalExpr x.unit k (x.redirect (.localGet id))) := by
  rw [redirect, CaptureSet.redirect]
  cases hi : x.captures.localSlot? id with
  | none =>
    have hdecl : id ∈ x.declared := h.localGet.resolve_right fun ⟨name, ty, hmem⟩ =>
      CaptureSet.localSlot?_eq_none hi name ty hmem
    rw [evalExpr]
    exact .readLocal hdecl
  | some i =>
    obtain ⟨name, ty, hslot⟩ := CaptureSet.slot_of_localSlot? hi
    intro c d hlink
    obtain ⟨v, hv, hread⟩ := slot_read (k := k) hx hlink hslot
    have hout : c.frame.locals.get? id = some v :=
      (hlink.captured id name ty (List.mem_of_getElem? hslot)).trans hv
    rw [hread, evalExpr, Closures.readLocal, get_bind_apply, hout]
    exact ⟨rfl, hlink⟩

/-- A static field that the analysis saw is there at run time. -/
theorem Held.static (hx : x.Valid) {st : Store} (hst : x.Held st) {f : FieldId} {fld : Field}
    (hf : x.site.unit.field? f = some fld) (hs : fld.isStatic = true) :
    ∃ v, st.statics.get? f = some v := by
  obtain ⟨fld', hf', hs'⟩ := hx.extended.field? hf
  rw [← Option.isSome_iff_exists, hst.statics f, hf', Option.any_some, hs', hs]

/-- The owner of a field without receiver: the slot of the instance that has
it. -/
theorem Agree.fieldOwner (hx : x.Valid) {f : FieldId} {depth : Nat}
    (hdepth : x.site.memberDepth f.owner = .ok depth)
    (hslot : Slot.instance_ depth (x.site.instanceType depth) ∈ x.captures.slots) :
    ∃ e, x.captures.readInstance? x.adapter (x.site.memberDepth f.owner) = some e ∧
      x.Agree (evalFieldOwner x.unit k f none) (evalFieldOwner x.unit k f (some e)) := by
  obtain ⟨i, type, hi, hread⟩ := readInstance?_eq hslot
  refine ⟨_, hdepth ▸ hread, ?_⟩
  rw [evalFieldOwner, evalFieldOwner]
  exact .innermost hx (fun h this => enclosing x.unit h this f.owner)
    (fun st hst => (enclosing_eq hx hst hdepth).2) hi _

/-- The enclosing instance of a creation that names none. -/
theorem Agree.outer (hx : x.Valid) {t : ClassType} {ctor : Option MethodId} {args : List Expr}
    (h : (Node.expr (.new t ctor none args)).Served x.site x.declared x.captures)
    (args' : List Expr) :
    ∃ outer, x.redirect (.new t ctor none args') = .new t ctor outer args' ∧
      ∀ d, x.unit.decl? t.id = some d →
        x.Agree (evalOuter x.unit k d none) (evalOuter x.unit k d outer) := by
  obtain ⟨depth?, hdepth, hslot⟩ := h.new
  obtain ⟨⟨d₀, hd₀⟩, hcarrier⟩ := Site.creationDepth_eq_ok.mp hdepth
  have hsame := hx.extended.carrier?_eq hd₀
  rw [redirect, CaptureSet.redirect, hdepth]
  rcases hcarrier with ⟨hnone, rfl⟩ | ⟨owner, depth, hsome, hmember, rfl⟩
  · refine ⟨none, rfl, fun d hd => ?_⟩
    have hi : ∀ h this, implicitOuter x.unit h this d = .ok none := fun h this => by
      rw [implicitOuter_eq hd (hx.adapters d (List.mem_of_getElem? hd)), hsame, hnone]
    rw [evalOuter]
    simp only [hi]
    exact fun c d hlink => ⟨rfl, hlink⟩
  · obtain ⟨i, type, hi, hread⟩ := readInstance?_eq (hslot depth rfl)
    refine ⟨some (CaptureSet.slotRead x.adapter i), by simp only [hread], fun d hd => ?_⟩
    have ho : ∀ h this, implicitOuter x.unit h this d =
        (enclosing x.unit h this owner).map some := fun h this => by
      rw [implicitOuter_eq hd (hx.adapters d (List.mem_of_getElem? hd)), hsame, hsome]
    rw [evalOuter, evalOuter]
    simp only [ho]
    intro c d hlink
    obtain ⟨-, t, ht, hfound⟩ := enclosing_eq hx hlink.held hmember
    obtain ⟨v, hv, hslotRead⟩ := slot_read (k := k) hx hlink hi
    obtain rfl : Value.ref t = v := by simpa [Slot.contents?, ht] using hv
    rw [get_bind_apply, hlink.thisOutside, onHeap_of_ok (congrArg (Except.map some) hfound),
      bind_apply, hslotRead]
    exact ⟨rfl, hlink⟩

/-! ## Trees -/

/-- A field read without receiver. -/
theorem Agree.fieldGet_none (hx : x.Valid) {f : FieldId}
    (h : (Node.expr (.fieldGet none f)).Served x.site x.declared x.captures) :
    x.Agree (evalExpr x.unit k (.fieldGet none f))
      (evalExpr x.unit k (x.redirect (.fieldGet none f))) := by
  obtain ⟨fld, hf, hs | ⟨hs, depth, hdepth, hslot⟩⟩ := h.field rfl
  · have hre : x.redirect (.fieldGet none f) = .fieldGet none f := by
      simp [redirect, CaptureSet.redirect, hf, hs]
    rw [hre, evalExpr]
    refine .read fun c d hlink => ?_
    obtain ⟨v, hv⟩ := hlink.held.static hx hf hs
    rw [hlink.store, hv]
    exact .pure v
  · obtain ⟨e, hread, howner⟩ := Agree.fieldOwner (k := k) hx hdepth hslot
    have hre : x.redirect (.fieldGet none f) = .fieldGet (some e) f := by
      simp [redirect, CaptureSet.redirect, hf, hs, hread]
    rw [hre, evalExpr, evalExpr]
    refine .read fun c d hlink => ?_
    rw [hlink.store]
    cases c.store.statics.get? f with
    | some v => exact .pure v
    | none => exact .bind howner fun _ => .onHeap _

/-- An assignment to a field, once it is known whose it is. A static field is
there when the value has been found, as it was before. -/
theorem Agree.assign (hx : x.Valid) {f : FieldId} (hw : x.Writable f) {owner owner' : Eval Ref}
    {m m' : Eval Value} (ho : ¬(x.unit.field? f).any (·.isStatic) → x.Agree owner owner')
    (hm : x.Agree m m') :
    x.Agree
      (do
        match (← get).store.statics.get? f with
        | some _ => do
          let v ← m
          modify fun c => { c with store := { c.store with statics := c.store.statics.put f v } }
          return v
        | none => do
          let object ← owner
          let v ← m
          (storeField object f v).inFrame
          return v)
      (do
        match (← get).store.statics.get? f with
        | some _ => do
          let v ← m'
          modify fun c => { c with store := { c.store with statics := c.store.statics.put f v } }
          return v
        | none => do
          let object ← owner'
          let v ← m'
          (storeField object f v).inFrame
          return v) := by
  refine .read fun c d hlink => ?_
  have hstatics := hlink.held.statics f
  rw [hlink.store]
  cases hf : c.store.statics.get? f with
  | some w =>
    refine .bind hm fun v => ?_
    intro c' d' hlink'
    rw [hf, Option.isSome_some, ← hlink'.held.statics f] at hstatics
    have hch : Store.Changes x.unit x.Writable x.mark c'.store
        { c'.store with statics := c'.store.statics.put f v } :=
      .single ⟨_, .static c'.store f v hstatics.symm⟩
    have hheld := hlink'.held.changes hx.below hch
    refine ⟨rfl, { hlink' with store := ?_, size := hlink'.size, held := hheld }⟩
    change { d'.store with statics := d'.store.statics.put f v } = _
    rw [hlink'.store]
    rfl
  | none =>
    rw [hf] at hstatics
    refine .bind (ho (by rw [← hstatics]; simp)) fun object => .bind hm fun v => ?_
    exact .bind (.inFrame hx.below (.storeField hw _ v)) fun _ => .pure v

theorem Agree.fieldOwner_some {f : FieldId} {e e' : Expr}
    (h : x.Agree (evalExpr x.unit k e) (evalExpr x.unit k e')) :
    x.Agree (evalFieldOwner x.unit k f (some e)) (evalFieldOwner x.unit k f (some e')) := by
  rw [evalFieldOwner, evalFieldOwner]
  exact .bind h fun _ => .onHeap _

theorem Agree.outer_some {d : TypeDecl} {e e' : Expr}
    (h : x.Agree (evalExpr x.unit k e) (evalExpr x.unit k e')) :
    x.Agree (evalOuter x.unit k d (some e)) (evalOuter x.unit k d (some e')) := by
  rw [evalOuter, evalOuter]
  exact .bind h fun _ => .bind (.onHeap _) fun _ => .pure _

/-- A creation, once it is known which enclosing instance is given. -/
theorem Agree.create (hx : x.Valid) (hk : k.Confined x.unit x.Writable) {t : ClassType}
    {ctor : Option MethodId} {outer outer' : Option Expr} {args args' : List Expr}
    (ho : ∀ d, x.unit.decl? t.id = some d →
      x.Agree (evalOuter x.unit k d outer) (evalOuter x.unit k d outer'))
    (ha : x.Agree (evalExprs x.unit k args) (evalExprs x.unit k args')) :
    x.Agree (evalExpr x.unit k (.new t ctor outer args))
      (evalExpr x.unit k (.new t ctor outer' args')) := by
  rw [evalExpr, evalExpr]
  cases hd : x.unit.decl? t.id with
  | none =>
    have hdecl : declOf x.unit t.id = .error (.invalid (.unknownType t.id)) := by rw [declOf, hd]
    simp only [hdecl]
    exact fun _ _ hlink => ⟨rfl, hlink⟩
  | some d =>
    have hdecl : declOf x.unit t.id = .ok d := by rw [declOf, hd]
    have hrest := (ho d hd).bind fun o => ha.bind fun vs =>
      Agree.inFrame hx.below (hk.construct x.mark t.id ctor o vs)
    simp only [hdecl]
    exact fun c c' hlink => hrest c c' hlink

/-- An assignment without receiver. -/
theorem Agree.fieldSet_none (hx : x.Valid) {f : FieldId} {v v' : Expr}
    (h : (Node.expr (.fieldSet none f v)).Served x.site x.declared x.captures) (hw : x.Writable f)
    (hv : x.Agree (evalExpr x.unit k v) (evalExpr x.unit k v')) :
    x.Agree (evalExpr x.unit k (.fieldSet none f v))
      (evalExpr x.unit k (x.redirect (.fieldSet none f v'))) := by
  obtain ⟨fld, hf, hs | ⟨hs, depth, hdepth, hslot⟩⟩ := h.field rfl
  · have hre : x.redirect (.fieldSet none f v') = .fieldSet none f v' := by
      simp [redirect, CaptureSet.redirect, hf, hs]
    obtain ⟨fld', hf', hs'⟩ := hx.extended.field? hf
    rw [hre, evalExpr, evalExpr]
    exact .assign hx hw (fun hn => absurd (hs'.trans hs) (by simpa [hf'] using hn)) hv
  · obtain ⟨e, hread, howner⟩ := Agree.fieldOwner (k := k) hx hdepth hslot
    have hre : x.redirect (.fieldSet none f v') = .fieldSet (some e) f v' := by
      simp [redirect, CaptureSet.redirect, hf, hs, hread]
    rw [hre, evalExpr, evalExpr]
    exact .assign hx hw (fun _ => howner) hv

/-! ### Calls -/

/-- A call of a declared method. -/
theorem Agree.call {r r' : Receiver} {m : MethodId} {args args' : List Expr}
    (h : ∀ declared, x.unit.method? m = some declared →
      x.Agree (evalCall x.unit k m declared (evalExprs x.unit k args) r)
        (evalCall x.unit k m declared (evalExprs x.unit k args') r')) :
    x.Agree (evalExpr x.unit k (.call r m args)) (evalExpr x.unit k (.call r' m args')) := by
  rw [evalExpr, evalExpr]
  cases hm : x.unit.method? m with
  | none => exact .fault _
  | some declared => exact h declared hm

/-- An unqualified call. -/
theorem Agree.implicitCall (hx : x.Valid) (hk : k.Confined x.unit x.Writable) {m : MethodId}
    {args args' : List Expr}
    (h : (Node.expr (.call .implicit m args)).Served x.site x.declared x.captures)
    (ha : x.Agree (evalExprs x.unit k args) (evalExprs x.unit k args')) :
    x.Agree (evalExpr x.unit k (.call .implicit m args))
      (evalExpr x.unit k (x.redirect (.call .implicit m args'))) := by
  obtain ⟨decl, hm, hcase⟩ := h.implicit
  obtain ⟨decl', hm', hs'⟩ := hx.extended.method? hm
  rcases hcase with hs | ⟨hs, depth, hdepth, hslot⟩
  · have hre : x.redirect (.call .implicit m args') = .call .implicit m args' := by
      simp [redirect, CaptureSet.redirect, hm, hs]
    rw [hre]
    refine .call fun declared hdeclared => ?_
    obtain rfl : decl' = declared := Option.some.inj (hm'.symm.trans hdeclared)
    rw [evalCall, evalCall, if_pos (hs'.trans hs), if_pos (hs'.trans hs)]
    exact .bind ha fun _ => .inFrame hx.below (hk.invoke _ _ _ _)
  · obtain ⟨i, type, hi, hread⟩ := readInstance?_eq hslot
    have hre : x.redirect (.call .implicit m args') =
        .call (.expr (CaptureSet.slotRead x.adapter i)) m args' := by
      simp [redirect, CaptureSet.redirect, hm, hs, hdepth, hread]
    rw [hre]
    refine .call fun declared hdeclared => ?_
    obtain rfl : decl' = declared := Option.some.inj (hm'.symm.trans hdeclared)
    rw [evalCall, evalCall, if_neg (by rw [hs', hs]; exact Bool.false_ne_true)]
    exact .innermost_bind hx (fun h this => enclosing x.unit h this m.owner)
      (fun st hst => (enclosing_eq hx hst hdepth).2) hi _
      fun _ => .bind ha fun _ => .inFrame hx.below (callVirtual_confined hk _ _ _)

/-- A super call. -/
theorem Agree.superCall (hx : x.Valid) (hk : k.Confined x.unit x.Writable) {q : Option ClassId}
    {m : MethodId} {args args' : List Expr}
    (h : (Node.expr (.call (.super q) m args)).Served x.site x.declared x.captures)
    (ha : x.Agree (evalExprs x.unit k args) (evalExprs x.unit k args')) :
    x.Agree (evalExpr x.unit k (.call (.super q) m args))
      (evalExpr x.unit k (x.redirect (.call (.super q) m args'))) := by
  obtain ⟨depth, hdepth, hslot⟩ := h.super
  obtain ⟨i, type, hi, hread⟩ := readInstance?_eq hslot
  have hre : x.redirect (.call (.super q) m args') =
      .call (.nonVirtual (CaptureSet.slotRead x.adapter i)) m args' := by
    simp [redirect, CaptureSet.redirect, hdepth, hread]
  rw [hre]
  refine .call fun declared hdeclared => ?_
  rw [evalCall, evalCall]
  exact .innermost_bind hx (fun h this => thisObject x.unit h this q)
    (fun st hst => (thisObject_eq hx hst hdepth).2) hi _
    fun _ => .bind ha fun _ => .inFrame hx.below (hk.invoke _ _ _ _)

/-! ### Expressions -/

mutual

/-- **A redirected expression does inside what the original does outside.** -/
theorem evalExpr_agree (hx : x.Valid) (hk : k.Confined x.unit x.Writable) (e : Expr)
    (he : ∀ n ∈ e.nodes, x.Covers n) :
    x.Agree (evalExpr x.unit k e) (evalExpr x.unit k (e.replace x.redirect)) := by
  cases e <;> simp only [Expr.nodes, Expr.walk, Node.reach, ↓reduceIte, List.forall_mem_cons,
    List.forall_mem_append] at he
  case null | bool | int | long | double | char | string => exact fun _ _ h => ⟨rfl, h⟩
  case lambda l =>
    obtain ⟨ps, b, bt, t, s⟩ := l
    exact nomatch (he _ List.mem_cons_self).served.not_site
  case methodRef r =>
    obtain ⟨q, m, ts, t, s⟩ := r
    exact nomatch (he _ List.mem_cons_self).served.not_site
  case localGet id => exact .localGet hx he.1.served
  case localSet id v =>
    change x.Agree _ (evalExpr x.unit k (.localSet id (v.replace x.redirect)))
    rw [evalExpr, evalExpr]
    exact .bind (evalExpr_agree hx hk v he.2) fun _ =>
      .bind (.writeLocal hx.free he.1.served.localSet _) fun _ => .pure _
  case this q => exact .this hx he.1.served
  case fieldGet r f =>
    cases r with
    | none => exact .fieldGet_none hx he.1.served
    | some r =>
      change x.Agree _ (evalExpr x.unit k (.fieldGet (some (r.replace x.redirect)) f))
      rw [evalExpr, evalExpr]
      refine .read fun c d hlink => ?_
      rw [hlink.store]
      cases c.store.statics.get? f with
      | some v => exact .pure v
      | none => exact .bind (.fieldOwner_some (evalExpr_agree hx hk r he.2)) fun _ => .onHeap _
  case fieldSet r f v =>
    have hv := evalExpr_agree hx hk v he.2.2
    cases r with
    | none => exact .fieldSet_none hx he.1.served he.1.writes hv
    | some r =>
      change x.Agree _
        (evalExpr x.unit k (.fieldSet (some (r.replace x.redirect)) f (v.replace x.redirect)))
      rw [evalExpr, evalExpr]
      exact .assign hx he.1.writes (fun _ => .fieldOwner_some (evalExpr_agree hx hk r he.2.1)) hv
  case call r m args =>
    have hargs := evalExprs_agree hx hk args he.2.2
    cases r with
    | implicit => exact .implicitCall hx hk he.1.served hargs
    | super q => exact .superCall hx hk he.1.served hargs
    | static =>
      change x.Agree _ (evalExpr x.unit k (.call .static m (Expr.replaceList x.redirect args)))
      refine .call fun declared _ => ?_
      rw [evalCall, evalCall]
      exact .bind hargs fun _ => .inFrame hx.below (hk.invoke _ _ _ _)
    | expr e =>
      change x.Agree _ (evalExpr x.unit k
        (.call (.expr (e.replace x.redirect)) m (Expr.replaceList x.redirect args)))
      refine .call fun declared _ => ?_
      rw [evalCall, evalCall]
      exact .bind (evalExpr_agree hx hk e he.2.1) fun _ => .bind (.onHeap _) fun _ =>
        .bind hargs fun _ => .inFrame hx.below (callVirtual_confined hk _ _ _)
    | nonVirtual e =>
      change x.Agree _ (evalExpr x.unit k
        (.call (.nonVirtual (e.replace x.redirect)) m (Expr.replaceList x.redirect args)))
      refine .call fun declared _ => ?_
      rw [evalCall, evalCall]
      exact .bind (evalExpr_agree hx hk e he.2.1) fun _ => .bind (.onHeap _) fun _ =>
        .bind hargs fun _ => .inFrame hx.below (hk.invoke _ _ _ _)
  case new t ctor o args =>
    have hargs := evalExprs_agree hx hk args he.2.2
    cases o with
    | none =>
      obtain ⟨outer, hre, ho⟩ :=
        Agree.outer (k := k) hx he.1.served (Expr.replaceList x.redirect args)
      change x.Agree _
        (evalExpr x.unit k (x.redirect (.new t ctor none (Expr.replaceList x.redirect args))))
      rw [hre]
      exact .create hx hk ho hargs
    | some o =>
      exact .create hx hk (fun _ _ => .outer_some (evalExpr_agree hx hk o he.2.1)) hargs
  case newArray t n =>
    change x.Agree _ (evalExpr x.unit k (.newArray t (n.replace x.redirect)))
    rw [evalExpr, evalExpr]
    refine .bind (evalExpr_agree hx hk n he.2) fun v => .bind (.onHeap _) fun length => ?_
    split
    · exact .bind (.fault _) fun _ => .inFrame hx.below (.array _ _)
    · exact .inFrame hx.below (.array _ _)
  case arrayLit t es =>
    change x.Agree _ (evalExpr x.unit k (.arrayLit t (Expr.replaceList x.redirect es)))
    rw [evalExpr, evalExpr]
    exact .bind (evalExprs_agree hx hk es he.2) fun _ => .inFrame hx.below (.array _ _)
  case arrayGet a i =>
    change x.Agree _ (evalExpr x.unit k (.arrayGet (a.replace x.redirect) (i.replace x.redirect)))
    rw [evalExpr, evalExpr]
    exact .bind (evalExpr_agree hx hk a he.2.1) fun _ =>
      .bind (evalExpr_agree hx hk i he.2.2) fun _ => .onHeap _
  case arraySet a i v =>
    change x.Agree _ (evalExpr x.unit k
      (.arraySet (a.replace x.redirect) (i.replace x.redirect) (v.replace x.redirect)))
    rw [evalExpr, evalExpr]
    exact .bind (evalExpr_agree hx hk a he.2.1) fun _ =>
      .bind (evalExpr_agree hx hk i he.2.2.1) fun _ => .bind (.onHeap _) fun _ =>
      .bind (evalExpr_agree hx hk v he.2.2.2) fun _ => .bind (.onHeap _) fun _ =>
      .bind (.inFrame hx.below (.storeElement _ _ _)) fun _ => .pure _
  case arrayLength a =>
    change x.Agree _ (evalExpr x.unit k (.arrayLength (a.replace x.redirect)))
    rw [evalExpr, evalExpr]
    exact .bind (evalExpr_agree hx hk a he.2) fun _ => .onHeap _
  case binary op l r =>
    change x.Agree _ (evalExpr x.unit k (.binary op (l.replace x.redirect) (r.replace x.redirect)))
    rw [evalExpr, evalExpr]
    exact .bind (evalExpr_agree hx hk l he.2.1) fun _ =>
      .bind (evalExpr_agree hx hk r he.2.2) fun _ => .inFrame hx.below (binaryOp_confined hk _ _ _)
  case compare op l r =>
    change x.Agree _ (evalExpr x.unit k (.compare op (l.replace x.redirect) (r.replace x.redirect)))
    rw [evalExpr, evalExpr]
    exact .bind (evalExpr_agree hx hk l he.2.1) fun _ =>
      .bind (evalExpr_agree hx hk r he.2.2) fun _ => .bind (.onHeap _) fun _ => .pure _
  case logical op l r =>
    change x.Agree _ (evalExpr x.unit k (.logical op (l.replace x.redirect) (r.replace x.redirect)))
    rw [evalExpr, evalExpr]
    refine .bind (evalExpr_agree hx hk l he.2.1) fun _ => .bind (.onHeap _) fun left => ?_
    have hr := (evalExpr_agree hx hk r he.2.2).bind fun w =>
      (Agree.onHeap fun h => w.asBool h).bind fun b => .pure (Value.bool b)
    cases op <;> cases left
    · exact .pure _
    · exact hr
    · exact hr
    · exact .pure _
  case unary op e =>
    change x.Agree _ (evalExpr x.unit k (.unary op (e.replace x.redirect)))
    rw [evalExpr, evalExpr]
    exact .bind (evalExpr_agree hx hk e he.2) fun _ => .onHeap _
  case cond c t e =>
    change x.Agree _ (evalExpr x.unit k
      (.cond (c.replace x.redirect) (t.replace x.redirect) (e.replace x.redirect)))
    rw [evalExpr, evalExpr]
    refine .bind (evalExpr_agree hx hk c he.2.1) fun _ => .bind (.onHeap _) fun b => ?_
    cases b
    · exact evalExpr_agree hx hk e he.2.2.2
    · exact evalExpr_agree hx hk t he.2.2.1
  case cast e t =>
    change x.Agree _ (evalExpr x.unit k (.cast (e.replace x.redirect) t))
    rw [evalExpr, evalExpr]
    exact .bind (evalExpr_agree hx hk e he.2) fun _ => .onHeap _
  case instanceOf e t =>
    change x.Agree _ (evalExpr x.unit k (.instanceOf (e.replace x.redirect) t))
    rw [evalExpr, evalExpr]
    refine .bind (evalExpr_agree hx hk e he.2) fun v => .read fun c d hlink => ?_
    rw [hlink.store]
    exact .pure _
  case box e kind =>
    change x.Agree _ (evalExpr x.unit k (.box (e.replace x.redirect) kind))
    rw [evalExpr, evalExpr]
    exact .bind (evalExpr_agree hx hk e he.2) fun _ => .bind (.onHeap _) fun _ =>
      .inFrame hx.below (.box _ _)
  case unbox e kind =>
    change x.Agree _ (evalExpr x.unit k (.unbox (e.replace x.redirect) kind))
    rw [evalExpr, evalExpr]
    exact .bind (evalExpr_agree hx hk e he.2) fun _ => .onHeap _
  case convert e kind =>
    change x.Agree _ (evalExpr x.unit k (.convert (e.replace x.redirect) kind))
    rw [evalExpr, evalExpr]
    exact .bind (evalExpr_agree hx hk e he.2) fun _ => .onHeap _
  case nullCheck e =>
    change x.Agree _ (evalExpr x.unit k (.nullCheck (e.replace x.redirect)))
    rw [evalExpr, evalExpr]
    refine .bind (evalExpr_agree hx hk e he.2) fun v => ?_
    split
    · exact .fault _
    · exact .pure _
  case intrinsic op args =>
    change x.Agree _ (evalExpr x.unit k (.intrinsic op (Expr.replaceList x.redirect args)))
    rw [evalExpr, evalExpr]
    refine .bind (evalExprs_agree hx hk args he.2) fun vs => .bind (.inFrame hx.below ?_) fun _ =>
      .pure _
    exact .bind (stringifyAll_confined hk vs) fun _ => .printLine _
  case newClosure adapter es =>
    change x.Agree _ (evalExpr x.unit k (.newClosure adapter (Expr.replaceList x.redirect es)))
    rw [evalExpr, evalExpr]
    exact .bind (evalExprs_agree hx hk es he.2) fun _ =>
      .inFrame hx.below (newClosure_confined _ _)
  case singleton adapter =>
    change x.Agree _ (evalExpr x.unit k (.singleton adapter))
    rw [evalExpr]
    exact .inFrame hx.below (singleton_confined adapter)

/-- So do redirected expressions in order. -/
theorem evalExprs_agree (hx : x.Valid) (hk : k.Confined x.unit x.Writable) (es : List Expr)
    (he : ∀ n ∈ Expr.walkList (fun _ => true) es, x.Covers n) :
    x.Agree (evalExprs x.unit k es) (evalExprs x.unit k (Expr.replaceList x.redirect es)) := by
  cases es with
  | nil => exact .pure _
  | cons e es =>
    simp only [Expr.walkList, List.forall_mem_append] at he
    change x.Agree _ (evalExprs x.unit k (e.replace x.redirect :: Expr.replaceList x.redirect es))
    rw [evalExprs, evalExprs]
    exact .bind (evalExpr_agree hx hk e he.1) fun _ =>
      .bind (evalExprs_agree hx hk es he.2) fun _ => .pure _

end

theorem Agree.condition {e e' : Expr} (h : x.Agree (evalExpr x.unit k e) (evalExpr x.unit k e')) :
    x.Agree (evalCondition x.unit k e) (evalCondition x.unit k e') := .bind h fun _ => .onHeap _

theorem evalOption_agree (hx : x.Valid) (hk : k.Confined x.unit x.Writable) (otherwise : Value)
    {e : Option Expr} (he : ∀ n ∈ Expr.walkOption (fun _ => true) e, x.Covers n) :
    x.Agree (evalOption x.unit k otherwise e)
      (evalOption x.unit k otherwise (Expr.replaceOption x.redirect e)) := by
  cases e with
  | none => exact .pure _
  | some e => exact evalExpr_agree hx hk e he

/-! ### Statements -/

mutual

/-- **A redirected statement does inside what the original does outside.** -/
theorem execStmt_agree (hx : x.Valid) (hk : k.Confined x.unit x.Writable) (st : Stmt)
    (hst : ∀ n ∈ st.walk (fun _ => true), x.Covers n) :
    x.Agree (execStmt x.unit k st) (execStmt x.unit k (st.replace x.redirect)) := by
  cases st <;> simp only [Stmt.walk, Node.reach, ↓reduceIte, List.forall_mem_cons,
    List.forall_mem_append] at hst
  case declare p init =>
    change x.Agree _ (execStmt x.unit k (.declare p (Expr.replaceOption x.redirect init)))
    rw [execStmt, execStmt]
    have hp : p.id ∈ x.declared := hst.1.declares p.id (List.mem_singleton_self _)
    exact .bind (evalOption_agree hx hk _ hst.2) fun _ =>
      .bind (.writeLocal hx.free hp _) fun _ => .pure _
  case expr e =>
    change x.Agree _ (execStmt x.unit k (.expr (e.replace x.redirect)))
    rw [execStmt, execStmt]
    exact .bind (evalExpr_agree hx hk e hst.2) fun _ => .pure _
  case ret e =>
    change x.Agree _ (execStmt x.unit k (.ret (Expr.replaceOption x.redirect e)))
    rw [execStmt, execStmt]
    exact .bind (evalOption_agree hx hk _ hst.2) fun _ => .pure _
  case cond c t e =>
    change x.Agree _ (execStmt x.unit k (.cond (c.replace x.redirect)
      (Stmt.replaceAll x.redirect t) (Stmt.replaceOption x.redirect e)))
    rw [execStmt, execStmt]
    refine .bind (.condition (evalExpr_agree hx hk c hst.2.1)) fun b => ?_
    cases b
    · exact execOption_agree hx hk e hst.2.2.2
    · exact execStmts_agree hx hk t hst.2.2.1
  case whileLoop c b =>
    change x.Agree _ (execStmt x.unit k (.whileLoop (c.replace x.redirect)
      (Stmt.replaceAll x.redirect b)))
    rw [execStmt, execStmt]
    refine .iterate (.bind (.condition (evalExpr_agree hx hk c hst.2.1)) fun go => ?_) _
    cases go
    · exact .pure _
    · exact .bind (execStmts_agree hx hk b hst.2.2) fun _ => .pure _
  case forLoop i c update b =>
    change x.Agree _ (execStmt x.unit k (.forLoop (Stmt.replaceAll x.redirect i)
      (Expr.replaceOption x.redirect c) (Expr.replaceList x.redirect update)
      (Stmt.replaceAll x.redirect b)))
    rw [execStmt, execStmt]
    have hround : ∀ go : Bool, x.Agree
        (do
          if go then
            match (← execStmts x.unit k b).endsLoop? with
            | some flow => return some flow
            | none => do
              let _ ← evalExprs x.unit k update
              return none
          else return some .next)
        (do
          if go then
            match (← execStmts x.unit k (Stmt.replaceAll x.redirect b)).endsLoop? with
            | some flow => return some flow
            | none => do
              let _ ← evalExprs x.unit k (Expr.replaceList x.redirect update)
              return none
          else return some .next) := by
      intro go
      cases go
      · exact .pure _
      · refine .bind (execStmts_agree hx hk b hst.2.2.2.2) fun flow => ?_
        cases flow.endsLoop? with
        | some flow => exact .pure _
        | none => exact .bind (evalExprs_agree hx hk update hst.2.2.2.1) fun _ => .pure _
    refine .bind (execStmts_agree hx hk i hst.2.1) fun flow => ?_
    cases flow with
    | ret v => exact .pure _
    | next | breakLoop | continueLoop =>
      refine .iterate ?_ _
      cases c with
      | none => exact .bind (.pure true) hround
      | some c => exact .bind (.condition (evalExpr_agree hx hk c hst.2.2.1)) hround
  case forEach p e b =>
    change x.Agree _ (execStmt x.unit k (.forEach p (e.replace x.redirect)
      (Stmt.replaceAll x.redirect b)))
    rw [execStmt, execStmt]
    have hp : p.id ∈ x.declared := hst.1.declares p.id (List.mem_singleton_self _)
    exact .bind (evalExpr_agree hx hk e hst.2.1) fun _ => .bind (.onHeap _) fun _ =>
      .forEachValue (fun _ => .bind (.writeLocal hx.free hp _) fun _ =>
        execStmts_agree hx hk b hst.2.2) _
  case block b =>
    change x.Agree _ (execStmt x.unit k (.block (Stmt.replaceAll x.redirect b)))
    rw [execStmt, execStmt]
    exact execStmts_agree hx hk b hst.2
  case raise e =>
    change x.Agree _ (execStmt x.unit k (.raise (e.replace x.redirect)))
    rw [execStmt, execStmt]
    refine .bind (evalExpr_agree hx hk e hst.2) fun v => ?_
    split
    · exact .fault _
    · exact .fault _
  case tryCatch b handler final =>
    change x.Agree _ (execStmt x.unit k (.tryCatch (Stmt.replaceAll x.redirect b)
      (CatchClause.replaceOption x.redirect handler) (Stmt.replaceOption x.redirect final)))
    rw [execStmt, execStmt]
    have hp : ∀ p b, handler = some ⟨p, b⟩ → p.id ∈ x.declared := by
      rintro p b rfl
      exact hst.1.declares p.id (List.mem_singleton_self _)
    exact execFinal_agree hx hk
      (execHandled_agree hx hk (execStmts_agree hx hk b hst.2.1) handler hp hst.2.2.1)
        final hst.2.2.2
  case breakLoop | continueLoop => exact fun _ _ h => ⟨rfl, h⟩

/-- So do redirected statements in order. -/
theorem execStmts_agree (hx : x.Valid) (hk : k.Confined x.unit x.Writable) (ss : List Stmt)
    (hss : ∀ n ∈ Stmt.walkAll (fun _ => true) ss, x.Covers n) :
    x.Agree (execStmts x.unit k ss) (execStmts x.unit k (Stmt.replaceAll x.redirect ss)) := by
  cases ss with
  | nil => exact .pure _
  | cons st ss =>
    simp only [Stmt.walkAll, List.forall_mem_append] at hss
    change x.Agree _ (execStmts x.unit k (st.replace x.redirect :: Stmt.replaceAll x.redirect ss))
    rw [execStmts, execStmts]
    refine .bind (execStmt_agree hx hk st hss.1) fun flow => ?_
    cases flow with
    | next => exact execStmts_agree hx hk ss hss.2
    | ret | breakLoop | continueLoop => exact .pure _

/-- So do redirected statements that may be absent. -/
theorem execOption_agree (hx : x.Valid) (hk : k.Confined x.unit x.Writable)
    (b : Option (List Stmt)) (hb : ∀ n ∈ Stmt.walkOption (fun _ => true) b, x.Covers n) :
    x.Agree (execOption x.unit k b) (execOption x.unit k (Stmt.replaceOption x.redirect b)) := by
  cases b with
  | none => exact .pure _
  | some b =>
    change x.Agree _ (execOption x.unit k (some (Stmt.replaceAll x.redirect b)))
    rw [execOption, execOption]
    exact execStmts_agree hx hk b hb

/-- So does a body under a redirected handler. -/
theorem execHandled_agree (hx : x.Valid) (hk : k.Confined x.unit x.Writable)
    {body body' : Eval Flow} (hbody : x.Agree body body') (handler : Option CatchClause)
    (hp : ∀ p b, handler = some ⟨p, b⟩ → p.id ∈ x.declared)
    (hh : ∀ n ∈ CatchClause.walkOption (fun _ => true) handler, x.Covers n) :
    x.Agree (execHandled x.unit k body handler)
      (execHandled x.unit k body' (CatchClause.replaceOption x.redirect handler)) := by
  cases handler with
  | none => exact hbody
  | some h =>
    obtain ⟨p, b⟩ := h
    change x.Agree _ (execHandled x.unit k body' (some ⟨p, Stmt.replaceAll x.redirect b⟩))
    rw [execHandled, execHandled]
    exact .handling hbody fun _ => .bind (.writeLocal hx.free (hp p b rfl) _) fun _ =>
      execStmts_agree hx hk b hh

/-- So does a body with a redirected final block. -/
theorem execFinal_agree (hx : x.Valid) (hk : k.Confined x.unit x.Writable)
    {body body' : Eval Flow} (hbody : x.Agree body body') (final : Option (List Stmt))
    (hf : ∀ n ∈ Stmt.walkOption (fun _ => true) final, x.Covers n) :
    x.Agree (execFinal x.unit k body final)
      (execFinal x.unit k body' (Stmt.replaceOption x.redirect final)) := by
  cases final with
  | none => exact hbody
  | some b =>
    change x.Agree _ (execFinal x.unit k body' (some (Stmt.replaceAll x.redirect b)))
    rw [execFinal, execFinal]
    exact .finally_ hbody (execStmts_agree hx hk b hf)

end

end LiveClosure

/-! ## Evaluating the site -/

section Site

variable {u : CompilationUnit}

/-- The operands of a site evaluate to what its slots are filled with. -/
theorem evalExprs_operands (s : Site) (frame : Frame) (st : Store) :
    ∀ slots : List Slot, (∀ x ∈ slots, (x.contents? frame).isSome) →
      (∀ depth type, Slot.instance_ depth type ∈ slots → depth = 0) →
      ∃ vs : List Value, vs.map some = slots.map (Slot.contents? frame) ∧ ∀ k,
        evalExprs u k (slots.map (CaptureSet.operand s none)) ⟨frame, st⟩ = (.ok vs, ⟨frame, st⟩)
  | [], _, _ => ⟨[], rfl, fun _ => rfl⟩
  | x :: slots, hx, hdepth => by
    rw [List.forall_mem_cons] at hx
    obtain ⟨vs, hvs, hrun⟩ := evalExprs_operands s frame st slots hx.2
      fun depth type hmem => hdepth depth type (List.mem_cons_of_mem _ hmem)
    obtain ⟨v, hv⟩ := Option.isSome_iff_exists.mp hx.1
    have hfirst : ∀ k,
        evalExpr u k (CaptureSet.operand s none x) ⟨frame, st⟩ = (.ok v, ⟨frame, st⟩) := by
      intro k
      cases x with
      | localValue id name ty =>
        have hget : frame.locals.get? id = some v := hv
        rw [CaptureSet.operand, evalExpr, readLocal, get_bind_apply, hget]
        rfl
      | instance_ depth type =>
        obtain rfl := hdepth depth type List.mem_cons_self
        obtain ⟨t, ht, rfl⟩ := Option.map_eq_some_iff.mp hv
        rw [CaptureSet.operand, evalExpr, get_bind_apply, ht]
        rfl
      | receiver ty => cases hv
    refine ⟨v :: vs, by rw [List.map_cons, List.map_cons, hvs, hv], fun k => ?_⟩
    rw [List.map_cons, evalExprs, bind_apply, hfirst]
    dsimp only
    rw [bind_apply, hrun]
    rfl

/-- **Evaluating a site** makes an object whose fields hold what the slots are
filled with. -/
theorem evalExpr_site (s : Site) {c : CaptureSet} {frame : Frame} (st : Store) (adapter : ClassId)
    (hslots : c.slots.length ≤ 2 ^ 32) (hfilled : ∀ x ∈ c.slots, (x.contents? frame).isSome)
    (hzero : ∀ depth type, Slot.instance_ depth type ∈ c.slots → depth = 0) :
    ∃ st' serial fields,
      (∀ k, evalExpr u k (.newClosure adapter (c.operands s none)) ⟨frame, st⟩ =
        (.ok (.ref st.heap.size), ⟨frame, st'⟩)) ∧
      (∀ writable, Store.Changes u writable st.heap.size st st') ∧
      st'.heap[st.heap.size]? = some (.inst adapter serial fields none) ∧
      ∀ (i : Nat) x, c.slots[i]? = some x →
        ∃ v, x.contents? frame = some v ∧ fields.get? ⟨adapter, i.toUInt32⟩ = some v := by
  obtain ⟨vs, hvs, hoperands⟩ := evalExprs_operands (u := u) s frame st c.slots hfilled hzero
  have hlen : vs.length = c.slots.length := by simpa using congrArg List.length hvs
  have hset := get?_capturedFields adapter vs 0 (blankInstance u adapter)
    (by rw [Nat.zero_add, hlen]; exact hslots)
  refine ⟨st.withClosure u adapter vs, st.serial + 1, _, fun k => ?_, fun writable => ?_,
    Array.getElem?_push_size, fun i x hi => ?_⟩
  · rw [evalExpr, CaptureSet.operands, bind_apply, hoperands k]
    dsimp only
    rw [Action.inFrame, newClosure_eq]
  · exact .single ⟨_, .closure st adapter vs⟩
  · have hi' : (vs.map some)[i]? = some (x.contents? frame) := by
      rw [hvs, List.getElem?_map, hi]
      rfl
    rw [List.getElem?_map] at hi'
    obtain ⟨v, hv, hcontents⟩ := Option.map_eq_some_iff.mp hi'
    exact ⟨v, hcontents.symm, Nat.zero_add i ▸ hset i v hv⟩

end Site

/-! ## Running the body -/

/-- The frame at a site with the parameters of a closure bound. -/
def Frame.withParams (frame : Frame) (params : List Param) (args : List Value) : Frame :=
  { frame with locals := (params.zip args).foldl (fun t (p, v) => t.put p.id v) frame.locals }

/-- Run the body of a lambda; the value of an expression counts as returned. -/
def LambdaBody.run (u : CompilationUnit) (k : Calls) : LambdaBody → Eval Flow
  | .expr e => do return .ret (← evalExpr u k e)
  | .block b => execStmts u k b

/-- Binding parameters keeps two tables as equal at a key as they were. -/
theorem get?_bind_congr {id : LocalId} : ∀ (ps : List (Param × Value)) (t t' : Table LocalId Value),
    t.get? id = t'.get? id →
      (ps.foldl (fun t (p, v) => t.put p.id v) t).get? id =
        (ps.foldl (fun t (p, v) => t.put p.id v) t').get? id
  | [], _, _, h => h
  | (p, v) :: ps, t, t', h => by
    refine get?_bind_congr ps _ _ ?_
    by_cases hid : id = p.id
    · rw [hid, Table.get?_put_self, Table.get?_put_self]
    · rw [Table.get?_put_ne hid, Table.get?_put_ne hid, h]

/-- Binding parameters leaves other locals alone. -/
theorem get?_bind_of_notMem {id : LocalId} :
    ∀ (ps : List (Param × Value)) (t : Table LocalId Value),
    (∀ p ∈ ps, p.1.id ≠ id) → (ps.foldl (fun t (p, v) => t.put p.id v) t).get? id = t.get? id
  | [], _, _ => rfl
  | (p, v) :: ps, t, h => by
    rw [List.forall_mem_cons] at h
    refine (get?_bind_of_notMem ps _ h.2).trans (Table.get?_put_ne (Ne.symm h.1) v t)

namespace LiveClosure

variable {x : LiveClosure} {k : Calls}

theorem run_agree (hx : x.Valid) (hk : k.Confined x.unit x.Writable) {body : LambdaBody}
    (hb : ∀ n ∈ body.nodes, x.Covers n) :
    x.Agree (body.run x.unit k) ((body.replace x.redirect).run x.unit k) := by
  cases body with
  | expr e => exact .bind (evalExpr_agree hx hk e hb) fun _ => .pure _
  | block b => exact execStmts_agree hx hk b hb

/-- What agrees from linked configurations does the same to the store. -/
theorem Agree.within_eq {α : Type} {m m' : Eval α} (h : x.Agree m m') {f f' : Frame} {st : Store}
    (hlink : x.Linked ⟨f, st⟩ ⟨f', st⟩) : m'.within f' st = m.within f st := by
  obtain ⟨hr, hlink'⟩ := h _ _ hlink
  exact Prod.ext hr hlink'.store

/-- With its parameters bound on both sides, a body starts linked. -/
theorem linked_start {params : List Param} {args : List Value} {st : Store} (hst : x.Held st)
    (hsize : x.mark ≤ st.heap.size) (hparams : ∀ p ∈ params, p.id ∈ x.declared)
    (hfree : ∀ id name ty, Slot.localValue id name ty ∈ x.captures.slots → id ∉ x.declared)
    (hunbound : ∀ id ∈ x.declared, x.frame.locals.get? id = none) :
    x.Linked ⟨x.frame.withParams params args, st⟩
      ⟨⟨some x.object, bindParams params args⟩, st⟩ where
  store := rfl
  size := hsize
  held := hst
  thisOutside := rfl
  thisInside := rfl
  captured id name ty hmem := get?_bind_of_notMem _ _ fun p hp hid =>
    hfree id name ty hmem (hid ▸ hparams p.1 (List.of_mem_zip hp).1)
  declared id hid := get?_bind_congr _ _ _ (by rw [hunbound id hid]; rfl)

end LiveClosure

/-- **Closure bodies keep their meaning.** Evaluating the site of a lambda that
was analysed successfully makes a closure object, and from then on, in whatever
the program has made of the store, the redirected body does in a frame of the
adapter what the original body does in the frame of the site, for all arguments
and budgets: it ends in the same way and leaves the same store.

The site reaches one enclosing instance at most. The program may declare more
than the unit that the site was analysed in, as it does after lowering. -/
theorem closure_keeps_meaning {u : CompilationUnit} {s : Site} (hunit : s.unit.ExtendedBy u)
    (hchain : s.chain.length ≤ 1) {params : List Param} {body : LambdaBody} {c : CaptureSet}
    (hc : CaptureSet.ofLambda s params body = .ok c) (hslots : c.slots.length ≤ 2 ^ 32)
    {adapter : ClassId} (hfields : ∀ i f, u.field? ⟨adapter, i⟩ = some f → f.isStatic = false)
    (hadapters : ∀ d ∈ u.types, d.kind = .adapter → d.isStatic = true)
    (hprogram : u.WritesOnly fun f => f.owner ≠ adapter)
    (hbody : ∀ n ∈ body.nodes, n.WritesOnly fun f => f.owner ≠ adapter)
    {frame : Frame} {st : Store} (hstatics : st.HasStatics u)
    (hthis : ∀ c ∈ s.chain, ∃ t, frame.this = some t ∧ isInstanceOf u st.heap c t = true)
    (hcaptured : ∀ id name ty, Slot.localValue id name ty ∈ c.slots →
      (frame.locals.get? id).isSome)
    (hdeclared : ∀ id ∈ params.map (·.id) ++ declaredIn body.nodes,
      frame.locals.get? id = none) :
    ∃ r st', (∀ k, evalExpr u k (.newClosure adapter (c.operands s none)) ⟨frame, st⟩ =
        (.ok (.ref r), ⟨frame, st'⟩)) ∧
      ∀ later depth, Store.Changes u (fun f => f.owner ≠ adapter) st'.heap.size st' later →
        ∀ args budget,
          ((c.redirectBody s adapter body).run u (callsWithin u budget)).within
              ⟨some r, bindParams params args⟩ { later with depth } =
            (body.run u (callsWithin u budget)).within (frame.withParams params args)
              { later with depth } := by
  have hreach := fun x hx => CaptureSet.reachable_ofLambda hc (x := x) hx
  have hzero : ∀ depth type, Slot.instance_ depth type ∈ c.slots →
    depth = 0 := fun depth type hx => by
    have := (hreach _ hx).1
    omega
  have hfilled : ∀ x ∈ c.slots, (x.contents? frame).isSome := by
    intro x hx
    cases x with
    | localValue id name ty => exact hcaptured id name ty hx
    | instance_ depth type =>
      obtain ⟨t, ht, -⟩ := hthis _ (List.getElem_mem (hreach _ hx).1)
      rw [Slot.contents?, ht]
      rfl
    | receiver ty => exact (hreach _ hx).elim
  obtain ⟨st', serial, fields, heval, hmake, ho, hslot⟩ :=
    evalExpr_site (u := u) s st adapter hslots hfilled hzero
  refine ⟨st.heap.size, st', heval, fun later depth hlater args budget => ?_⟩
  have hbelow : ∀ c ∈ s.chain, ∀ t, frame.this = some t → t < st.heap.size := by
    intro c hc t ht
    obtain ⟨t', ht', hinst⟩ := hthis c hc
    obtain rfl : t' = t := Option.some.inj (ht'.symm.trans ht)
    exact lt_size_of_isInstanceOf hinst
  let x : LiveClosure :=
    ⟨u, s, c, adapter, params.map (·.id) ++ declaredIn body.nodes, frame, st.heap.size,
      st'.heap.size⟩
  have hmark : st.heap.size < st'.heap.size := (Array.getElem?_eq_some_iff.mp ho).1
  have hx : x.Valid :=
    { below := ⟨hmark, fun c hc t ht => Nat.lt_trans (hbelow c hc t ht) hmark⟩
      extended := hunit
      chain := hchain
      adapters := hadapters
      fields := hfields
      free := fun id name ty hmem => (hreach _ hmem).1 }
  have hheld : x.Held st' :=
    { object := ⟨adapter, serial, fields, none, ho, hslot⟩
      this := fun c hc => by
        obtain ⟨t, ht, hinst⟩ := hthis c hc
        exact ⟨t, ht, LiveClosure.isInstanceOf_of_changes (hmake fun _ => True)
          (hbelow c hc t ht) hinst⟩
      statics := (hmake fun _ => True).hasStatics hstatics }
  have hheld' : x.Held { later with depth } := ⟨(hheld.changes hx.below hlater).object,
    (hheld.changes hx.below hlater).this, (hheld.changes hx.below hlater).statics⟩
  have hcovers : ∀ n ∈ body.nodes, x.Covers n := fun n hn =>
    { served := CaptureSet.served_ofLambda hc n hn
      writes := hbody n hn
      declares := fun id hid =>
        List.mem_append_right _ (List.mem_flatMap.mpr ⟨n, hn, hid⟩) }
  refine (LiveClosure.run_agree hx (callsWithin_confined hprogram budget) hcovers).within_eq ?_
  exact LiveClosure.linked_start hheld' hlater.size_le
    (fun p hp => List.mem_append_left _ (List.mem_map_of_mem hp)) hx.free hdeclared

/-! ## A closure at work -/

namespace Gauge

/-- A gauge with a level, a kind of gauge, and the adapter of the closure
below. -/
def program : CompilationUnit where
  name := "gauge"
  sourcePath := none
  types := [
    { TypeDecl.empty 0 "Gauge" .topLevel with fields := [⟨"level", .int, false, false, none⟩] },
    { TypeDecl.empty 1 "FineGauge" .topLevel with superclass := some (.raw 0) },
    { TypeDecl.empty 2 "Gauge_$Lambda$1" .adapter with
      isStatic := true
      fields := [⟨"val$step", .int, false, true, none⟩, ⟨"this$0", .raw 0, false, true, none⟩] }]

/-- A place in a method of the gauge where the local `step` is visible. -/
def site : Site := ⟨program, 0, [0], [⟨1, "step", .int, true⟩]⟩

def params : List Param := [⟨2, "x", .int, true⟩]

/-- `x -> { int y = x + step; level = y; return y; }` -/
def body : LambdaBody := .block [
  .declare ⟨3, "y", .int, true⟩ (some (.binary .add (.localGet 2) (.localGet 1))),
  .expr (.fieldSet none ⟨0, 0⟩ (.localGet 3)),
  .ret (some (.localGet 3))]

def captures : CaptureSet :=
  ⟨[.localValue 1 "step" .int, .enclosingInstance 0 0, .outerField 0 ⟨0, 0⟩],
    [.localValue 1 "step" .int, .instance_ 0 0]⟩

def frame : Frame := ⟨some 0, [(1, .int 5)]⟩

def store : Store := { Store.empty with heap := #[.inst 1 1 [(⟨0, 0⟩, .int 3)] none], serial := 1 }

theorem field_not_static {id : FieldId} {f : Field} (h : program.field? id = some f) :
    f.isStatic = false := by
  have hall : ∀ d ∈ program.types, ∀ f ∈ d.fields, f.isStatic = false := by
    simp [program, TypeDecl.empty]
  obtain ⟨d, hd, hf⟩ := Option.bind_eq_some_iff.mp h
  exact hall d (List.mem_of_getElem? hd) f (List.mem_of_getElem? hf)

theorem hasStatics : store.HasStatics program := by
  intro id
  rcases hf : program.field? id with _ | f
  · rfl
  · simp [field_not_static hf, store, Store.empty, Table.get?]

end Gauge

/-- The theorem at a closure that captures a local and its instance, which is of
a subclass, and assigns to a field of it. -/
theorem closure_keeps_meaning_gauge :
    CaptureSet.ofLambda Gauge.site Gauge.params Gauge.body = .ok Gauge.captures ∧
      ∃ r st', (∀ k, evalExpr Gauge.program k
          (.newClosure 2 (Gauge.captures.operands Gauge.site none)) ⟨Gauge.frame, Gauge.store⟩ =
          (.ok (.ref r), ⟨Gauge.frame, st'⟩)) ∧
        ∀ later depth,
          Store.Changes Gauge.program (fun f => f.owner ≠ 2) st'.heap.size st' later →
          ∀ args budget,
            ((Gauge.captures.redirectBody Gauge.site 2 Gauge.body).run Gauge.program
                (callsWithin Gauge.program budget)).within
                ⟨some r, bindParams Gauge.params args⟩ { later with depth } =
              (Gauge.body.run Gauge.program (callsWithin Gauge.program budget)).within
                (Gauge.frame.withParams Gauge.params args) { later with depth } := by
  have hcaptures : CaptureSet.ofLambda Gauge.site Gauge.params Gauge.body = .ok Gauge.captures :=
    rfl
  have hunit : Gauge.site.unit.ExtendedBy Gauge.program := CompilationUnit.ExtendedBy.refl _
  refine ⟨hcaptures, closure_keeps_meaning hunit (by decide) hcaptures (by decide)
    (fun _ _ => Gauge.field_not_static) ?_ ?_ ?_ Gauge.hasStatics ?_ ?_ ?_⟩
  · simp [Gauge.program, TypeDecl.empty]
  · simp [CompilationUnit.WritesOnly, Gauge.program, TypeDecl.nodes, TypeDecl.empty,
      Expr.walkOption]
  · simp [Gauge.body, LambdaBody.nodes, LambdaBody.walk, Stmt.walkAll, Stmt.walk, Expr.walk,
      Expr.walkOption, Node.reach, Node.WritesOnly]
  · intro c hc
    obtain rfl := List.mem_singleton.mp hc
    exact ⟨0, rfl, by decide⟩
  · intro id name ty hmem
    obtain ⟨rfl, -, -⟩ : id = 1 ∧ name = "step" ∧ ty = .int := by simpa [Gauge.captures] using hmem
    rfl
  · intro id hid
    have hid : id ∈ [2, 3] := hid
    rcases List.mem_cons.mp hid with rfl | hid
    · rfl
    · obtain rfl := List.mem_singleton.mp hid
      rfl

end Closures
