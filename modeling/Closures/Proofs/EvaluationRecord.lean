import Closures.Proofs.Recording

/-!
# The record of an evaluation

The record of an evaluation is put together along the tree as the evaluation is
(`recordExpr` to `recordCalls`). What happens within a call stands between the
moment at which the call is entered and the one at which it is left. This is the
one induction over the forms of expressions and statements on which all facts
about the moments of a run rest: such a fact needs no more than what a single
change keeps.

A run reaches as far as two parameters say: `writable` are the fields that an
assignment in the program may name, and every instance that is being made stands
at or above `mark` on the heap.
-/

set_option autoImplicit false

namespace Closures

/-! ## What a run may assign to -/

/-- A node assigns to none but the given fields of objects. -/
def Node.WritesOnly (writable : FieldId → Prop) : Node → Prop
  | .expr (.fieldSet _ f _) => writable f
  | _ => True

instance {writable : FieldId → Prop} [DecidablePred writable] :
    DecidablePred (Node.WritesOnly writable) := fun n => by
  unfold Node.WritesOnly
  split <;> infer_instance

/-- The code of a unit assigns to none but the given fields of objects. -/
def CompilationUnit.WritesOnly (writable : FieldId → Prop) (u : CompilationUnit) : Prop :=
  ∀ d ∈ u.types, ∀ n ∈ d.nodes, n.WritesOnly writable

instance {writable : FieldId → Prop} [DecidablePred writable] (u : CompilationUnit) :
    Decidable (u.WritesOnly writable) :=
  inferInstanceAs (Decidable (∀ d ∈ u.types, ∀ n ∈ d.nodes, n.WritesOnly writable))

theorem CompilationUnit.WritesOnly.decl {writable : FieldId → Prop} {u : CompilationUnit}
    (hu : u.WritesOnly writable) {c : ClassId} {d : TypeDecl} (hd : u.decl? c = some d) :
    ∀ n ∈ d.nodes, n.WritesOnly writable :=
  hu d (List.mem_of_getElem? hd)

theorem declOf_eq_ok {u : CompilationUnit} {id : ClassId} {d : TypeDecl} :
    declOf u id = .ok d ↔ u.decl? id = some d := by
  rw [declOf]
  cases u.decl? id with
  | none => exact ⟨(nomatch ·), (nomatch ·)⟩
  | some d' => exact ⟨fun h => by cases h; rfl, fun h => by cases h; rfl⟩

namespace TypeDecl

variable {d : TypeDecl} {n : Node}

theorem nodes_of_init {f : Field} (hf : f ∈ d.fields)
    (hn : n ∈ Expr.walkOption (fun _ => true) f.init) : n ∈ d.nodes :=
  List.mem_append_left _ (List.mem_flatMap.mpr ⟨f, hf, hn⟩)

theorem nodes_of_initializer {i : Initializer} (hi : i ∈ d.initializers)
    (hn : n ∈ Stmt.nodes i.body) : n ∈ d.nodes :=
  List.mem_append_right _ (List.mem_append_left _ (List.mem_flatMap.mpr ⟨i, hi, hn⟩))

theorem nodes_of_method {m : Method} (hm : m ∈ d.methods)
    (hn : n ∈ Stmt.walkOption (fun _ => true) m.body) : n ∈ d.nodes :=
  List.mem_append_right _ (List.mem_append_right _ (List.mem_flatMap.mpr ⟨m, hm, hn⟩))

end TypeDecl

/-- Whether a new instance of a type has a field set by an initializer: one of a
field that the type or one of its superclasses declares. -/
def CompilationUnit.Initializes (u : CompilationUnit) (type : ClassId) (f : FieldId) : Prop :=
  ∃ c ∈ u.lineage type, ∃ d, u.decl? c = some d ∧
    ∃ x ∈ d.fieldIds d.id, x.1 = f ∧ x.2.isStatic = false ∧ x.2.init.isSome

/-- The fields that a run sets: those that the program assigns to, and those
that the initializers of an instance set while it is being made. -/
def CompilationUnit.Fills (u : CompilationUnit) (writable : FieldId → Prop) (mark : Nat)
    (s : Store) (r : Ref) (f : FieldId) : Prop :=
  writable f ∨ mark ≤ r ∧ ∃ type, s.HasInstance type r ∧ u.Initializes type f

/-- What happens in a run of a unit. -/
abbrev CompilationUnit.Happens (u : CompilationUnit) (writable : FieldId → Prop) (mark : Nat) :
    Store → Moment → Prop :=
  Store.Change u (u.Fills writable mark)

/-- The heap reaches the mark. -/
def Store.Above (mark : Nat) (s : Store) : Prop := mark ≤ s.heap.size

/-- The heap reaches the mark, and a static field is there. -/
def Store.HasStatic (mark : Nat) (f : FieldId) (s : Store) : Prop :=
  s.Above mark ∧ (s.statics.get? f).isSome

/-- An instance is being made above the mark. -/
def Store.Making (mark : Nat) (type : ClassId) (r : Ref) (s : Store) : Prop :=
  s.Above mark ∧ mark ≤ r ∧ s.HasInstance type r

section Stable

variable {u : CompilationUnit} {fills : Store → Ref → FieldId → Prop} {mark : Nat}

instance : Stable (Store.Change u fills) (Store.Above mark) where
  stays _ _ hs h := Nat.le_trans hs h.size_le

instance {f : FieldId} : Stable (Store.Change u fills) (Store.HasStatic mark f) where
  stays _ _ hs h := ⟨Nat.le_trans hs.1 h.size_le, h.isSome_static hs.2⟩

instance {type : ClassId} {r : Ref} :
    Stable (Store.Change u fills) (Store.Making mark type r) where
  stays s m hs h := by
    obtain ⟨hsize, hr, serial, fields, outer, ho⟩ := hs
    obtain ⟨fields', ho', -⟩ := h.inst ho
    exact ⟨Nat.le_trans hsize h.size_le, hr, serial, fields', outer, ho'⟩

end Stable

section Runs

variable (u : CompilationUnit) (writable : FieldId → Prop) (mark : Nat)

/-- A recorded action of a run. -/
abbrev Action.Recorded {α : Type} (a : Action α) : Type :=
  Closures.Recorded (u.Happens writable mark) (Store.Above mark) id a

/-- A recorded evaluation of a run. -/
abbrev Eval.Recorded {α : Type} (e : Eval α) : Type :=
  Closures.Recorded (u.Happens writable mark) (Store.Above mark) Config.store e

/-- Recorded ways to leave a tree. -/
structure Calls.Recorded (k : Calls) where
  invoke : ∀ m this args, (k.invoke m this args).Recorded u writable mark
  construct : ∀ type ctor outer args,
    (k.construct type ctor outer args).Recorded u writable mark
  text : ∀ v, (k.text v).Recorded u writable mark

end Runs

section Effects

variable {u : CompilationUnit} {writable : FieldId → Prop} {mark : Nat} {k : Calls}

/-! ## Single effects -/

def recordBox (kind : Primitive) (v : Value) :
    (newObject (.boxed kind v)).Recorded u writable mark :=
  .one (fun _ => .change) (fun s _ => .box s kind v) fun _ => rfl

def recordArray (t : Ty) (vs : Array Value) :
    (newObject (.array t vs)).Recorded u writable mark :=
  .one (fun _ => .change) (fun s _ => .array s t vs) fun _ => rfl

def recordField {f : FieldId} (hf : writable f) (r : Ref) (v : Value) :
    (storeField r f v).Recorded u writable mark :=
  .one (fun _ => .change) (fun s _ => .field s r f v (.inl hf)) fun _ => rfl

def recordElement (r : Ref) (i : Nat) (v : Value) :
    (storeElement r i v).Recorded u writable mark :=
  .one (fun _ => .change) (fun s _ => .element s r i v) fun _ => rfl

def recordPrint (line : String) : (printLine line).Recorded u writable mark :=
  .one (fun _ => .change) (fun s _ => .print s line) fun _ => rfl

def recordClosure (adapter : ClassId) (captures : List Value) :
    (newClosure u adapter captures).Recorded u writable mark :=
  .one (fun s => .closure adapter captures s.heap.size)
    (fun s _ => by
      rw [newClosure_eq]
      exact .closure s adapter captures)
    (fun s => by
      rw [newClosure_eq]
      rfl)

theorem singleton_eq (u : CompilationUnit) (adapter : ClassId) (s : Store) :
    singleton u adapter s =
      match s.singletons.get? adapter with
      | some v => (.ok v, s)
      | none => (.ok (.ref s.heap.size), s.withShared u adapter) := by
  rw [singleton, get_bind_apply]
  cases s.singletons.get? adapter <;> rfl

def recordSingleton (adapter : ClassId) : (singleton u adapter).Recorded u writable mark :=
  .one (fun s => .shared adapter ((s.singletons.get? adapter).getD (.ref s.heap.size)))
    (fun s _ => by
      simp only [id, singleton_eq]
      cases hs : s.singletons.get? adapter with
      | some v => exact .had s adapter v hs
      | none => exact .share s adapter hs)
    (fun s => by
      simp only [id, singleton_eq]
      cases s.singletons.get? adapter <;> rfl)

/-- The record of an action one call deeper starts when the call is entered and
ends when it is left. -/
def recordDeeper {α : Type} {a : Action α} (t : a.Recorded u writable mark) :
    Recorded (u.Happens writable mark) (fun s => s.Above mark ∧ s.depth < maxCallDepth) id
      (oneDeeper a) where
  log s := ⟨.enter, { s with depth := s.depth + 1 }⟩ ::
    (t.log { s with depth := s.depth + 1 } ++ [⟨.leave, (oneDeeper a s).2⟩])
  path s hs :=
    .cons (.enter s hs.2) ((t.path { s with depth := s.depth + 1 } hs.1).append
      (.single (.leave (a { s with depth := s.depth + 1 }).2)))
  level s := congrArg (· - 1) (t.level { s with depth := s.depth + 1 })

/-! ## Trees -/

def recordVirtual (hk : k.Recorded u writable mark) (object : Ref) (m : MethodId)
    (args : List Value) : (callVirtual u k object m args).Recorded u writable mark :=
  Recorded.read.bind fun _ => (Recorded.ofExcept _).bind fun type =>
    match u.resolveVirtual? type m with
    | some _ => hk.invoke _ _ _
    | none => .halt _

def recordPlainText (steps : Nat) (v : Value) :
    (plainText steps v).Recorded u writable mark :=
  Recorded.read.bind fun s =>
    match v.textWithin s.heap steps with
    | some _ => .pure _
    | none => .halt _

def recordText {invoke : MethodId → Option Ref → List Value → Action Value}
    (hinvoke : ∀ m this args, (invoke m this args).Recorded u writable mark) (steps : Nat) :
    ∀ v, (stringify u invoke steps v).Recorded u writable mark
  | .ref r => Recorded.read.bind fun s =>
    match s.heap[r]? with
    | some (.inst type _ _ _) => by
      dsimp only
      exact match u.findByArity? type "toString" 0 with
        | some _ => (hinvoke _ _ _).bind fun _ => recordPlainText _ _
        | none => .pure _
    | some (.boxed _ _) | some (.array _ _) | none => recordPlainText _ _
  | .null | .bool _ | .int _ | .long _ | .double _ | .char _ | .str _ | .void =>
    recordPlainText _ _

def recordTexts (hk : k.Recorded u writable mark) :
    ∀ vs, (stringifyAll k vs).Recorded u writable mark
  | [] => .pure _
  | v :: vs => (hk.text v).bind fun _ => (recordTexts hk vs).bind fun _ => .pure _

def recordBinary (hk : k.Recorded u writable mark) (op : BinaryOp) (v w : Value) :
    (binaryOp k op v w).Recorded u writable mark :=
  .ite _ ((hk.text v).bind fun _ => (hk.text w).bind fun _ => .pure _)
    (Recorded.read.bind fun _ => .ofExcept _)

/-- A field that is set is a static field if there is one. -/
def recordOnStatic {f : FieldId} {a b : Eval Value}
    (t : Recorded (u.Happens writable mark) (Store.HasStatic mark f) Config.store a)
    (t' : b.Recorded u writable mark) :
    Eval.Recorded u writable mark (do
      match (← get).store.statics.get? f with
      | some _ => a
      | none => b) where
  log c := match c.store.statics.get? f with
    | some _ => t.log c
    | none => t'.log c
  path c hc := by
    rw [get_bind_apply]
    cases hf : c.store.statics.get? f with
    | some v => exact t.path c ⟨hc, by rw [hf]; rfl⟩
    | none => exact t'.path c hc
  level c := by
    rw [get_bind_apply]
    cases c.store.statics.get? f with
    | some v => exact t.level c
    | none => exact t'.level c

def recordStatic (f : FieldId) (v : Value) :
    Recorded (u.Happens writable mark) (Store.HasStatic mark f) Config.store
      (modify fun c => { c with store := { c.store with statics := c.store.statics.put f v } } :
        Eval Unit) :=
  .one (fun _ => .change) (fun c hc => .static c.store f v hc.2) fun _ => rfl

variable (hk : k.Recorded u writable mark)

mutual

/-- The record of an expression. -/
def recordExpr : (e : Expr) → (∀ n ∈ e.nodes, n.WritesOnly writable) →
    (evalExpr u k e).Recorded u writable mark
  | .null, _ | .bool _, _ | .int _, _ | .long _, _ | .double _, _ | .char _, _
  | .string _, _ => .pure _
  | .lambda _, _ | .methodRef _, _ => .halt _
  | .localGet id, _ => .readLocal id
  | .localSet id e, he => by
    simp only [Expr.nodes, Expr.walk, Node.reach, ↓reduceIte, List.forall_mem_cons] at he
    exact (recordExpr e he.2).bind fun _ => (Recorded.writeLocal id _).bind fun _ => .pure _
  | .this _, _ => Recorded.read.bind fun _ => (Recorded.onHeap _).bind fun _ => .pure _
  | .fieldGet r f, he => by
    simp only [Expr.nodes, Expr.walk, Node.reach, ↓reduceIte, List.forall_mem_cons] at he
    exact Recorded.read.bind fun c =>
      match c.store.statics.get? f with
      | some _ => .pure _
      | none => (recordOwner f r he.2).bind fun _ => .onHeap _
  | .fieldSet r f e, he => by
    simp only [Expr.nodes, Expr.walk, Node.reach, ↓reduceIte, List.forall_mem_cons,
      List.forall_mem_append] at he
    exact recordOnStatic
      (((recordExpr e he.2.2).mono fun _ hs => hs.1).bind fun v =>
        (recordStatic f v).bind fun _ => .pure _)
      ((recordOwner f r he.2.1).bind fun object => (recordExpr e he.2.2).bind fun v =>
        (recordField he.1 object v).inFrame.bind fun _ => .pure _)
  | .call r m args, he => by
    simp only [Expr.nodes, Expr.walk, Node.reach, ↓reduceIte, List.forall_mem_cons,
      List.forall_mem_append] at he
    change Eval.Recorded u writable mark (match u.method? m with
      | none => Eval.fault (.invalid .danglingMethod)
      | some declared => evalCall u k m declared (evalExprs u k args) r)
    exact match u.method? m with
      | none => .halt _
      | some declared => recordCall m declared (recordExprs args he.2.2) r he.2.1
  | .new t ctor outer args, he => by
    simp only [Expr.nodes, Expr.walk, Node.reach, ↓reduceIte, List.forall_mem_cons,
      List.forall_mem_append] at he
    exact (Recorded.onHeap _).bind fun d => (recordOuter d outer he.2.1).bind fun _ =>
      (recordExprs args he.2.2).bind fun _ => (hk.construct _ _ _ _).inFrame
  | .newArray _ e, he => by
    simp only [Expr.nodes, Expr.walk, Node.reach, ↓reduceIte, List.forall_mem_cons] at he
    exact (recordExpr e he.2).bind fun _ => (Recorded.onHeap _).bind fun _ =>
      .ite _ ((Recorded.halt _).bind fun _ => (recordArray _ _).inFrame) (recordArray _ _).inFrame
  | .arrayLit _ es, he => by
    simp only [Expr.nodes, Expr.walk, Node.reach, ↓reduceIte, List.forall_mem_cons] at he
    exact (recordExprs es he.2).bind fun _ => (recordArray _ _).inFrame
  | .arrayGet a i, he => by
    simp only [Expr.nodes, Expr.walk, Node.reach, ↓reduceIte, List.forall_mem_cons,
      List.forall_mem_append] at he
    exact (recordExpr a he.2.1).bind fun _ => (recordExpr i he.2.2).bind fun _ => .onHeap _
  | .arraySet a i e, he => by
    simp only [Expr.nodes, Expr.walk, Node.reach, ↓reduceIte, List.forall_mem_cons,
      List.forall_mem_append] at he
    exact (recordExpr a he.2.1).bind fun _ => (recordExpr i he.2.2.1).bind fun _ =>
      (Recorded.onHeap _).bind fun _ => (recordExpr e he.2.2.2).bind fun _ =>
      (Recorded.onHeap _).bind fun _ => (recordElement _ _ _).inFrame.bind fun _ => .pure _
  | .arrayLength a, he => by
    simp only [Expr.nodes, Expr.walk, Node.reach, ↓reduceIte, List.forall_mem_cons] at he
    exact (recordExpr a he.2).bind fun _ => .onHeap _
  | .binary _ l r, he => by
    simp only [Expr.nodes, Expr.walk, Node.reach, ↓reduceIte, List.forall_mem_cons,
      List.forall_mem_append] at he
    exact (recordExpr l he.2.1).bind fun _ => (recordExpr r he.2.2).bind fun _ =>
      (recordBinary hk _ _ _).inFrame
  | .compare _ l r, he => by
    simp only [Expr.nodes, Expr.walk, Node.reach, ↓reduceIte, List.forall_mem_cons,
      List.forall_mem_append] at he
    exact (recordExpr l he.2.1).bind fun _ => (recordExpr r he.2.2).bind fun _ =>
      (Recorded.onHeap _).bind fun _ => .pure _
  | .logical op l r, he => by
    simp only [Expr.nodes, Expr.walk, Node.reach, ↓reduceIte, List.forall_mem_cons,
      List.forall_mem_append] at he
    exact (recordExpr l he.2.1).bind fun _ => (Recorded.onHeap _).bind fun left =>
      match op, left with
      | .and, false | .or, true => .pure _
      | .and, true | .or, false =>
        (recordExpr r he.2.2).bind fun _ => (Recorded.onHeap _).bind fun _ => .pure _
  | .cond c t e, he => by
    simp only [Expr.nodes, Expr.walk, Node.reach, ↓reduceIte, List.forall_mem_cons,
      List.forall_mem_append] at he
    exact (recordExpr c he.2.1).bind fun _ => (Recorded.onHeap _).bind fun _ =>
      .ite _ (recordExpr t he.2.2.1) (recordExpr e he.2.2.2)
  | .unary _ e, he => by
    simp only [Expr.nodes, Expr.walk, Node.reach, ↓reduceIte, List.forall_mem_cons] at he
    exact (recordExpr e he.2).bind fun _ => .onHeap _
  | .cast e _, he => by
    simp only [Expr.nodes, Expr.walk, Node.reach, ↓reduceIte, List.forall_mem_cons] at he
    exact (recordExpr e he.2).bind fun _ => .onHeap _
  | .unbox e _, he => by
    simp only [Expr.nodes, Expr.walk, Node.reach, ↓reduceIte, List.forall_mem_cons] at he
    exact (recordExpr e he.2).bind fun _ => .onHeap _
  | .convert e _, he => by
    simp only [Expr.nodes, Expr.walk, Node.reach, ↓reduceIte, List.forall_mem_cons] at he
    exact (recordExpr e he.2).bind fun _ => .onHeap _
  | .instanceOf e _, he => by
    simp only [Expr.nodes, Expr.walk, Node.reach, ↓reduceIte, List.forall_mem_cons] at he
    exact (recordExpr e he.2).bind fun _ => Recorded.read.bind fun _ => .pure _
  | .box e _, he => by
    simp only [Expr.nodes, Expr.walk, Node.reach, ↓reduceIte, List.forall_mem_cons] at he
    exact (recordExpr e he.2).bind fun _ => (Recorded.onHeap _).bind fun _ =>
      (recordBox _ _).inFrame
  | .nullCheck e, he => by
    simp only [Expr.nodes, Expr.walk, Node.reach, ↓reduceIte, List.forall_mem_cons] at he
    exact (recordExpr e he.2).bind fun _ => .ite _ (.halt _) (.pure _)
  | .intrinsic .println args, he => by
    simp only [Expr.nodes, Expr.walk, Node.reach, ↓reduceIte, List.forall_mem_cons] at he
    exact (recordExprs args he.2).bind fun vs =>
      (((recordTexts hk vs).bind fun _ => recordPrint _).inFrame).bind fun _ => .pure _
  | .newClosure adapter es, he => by
    simp only [Expr.nodes, Expr.walk, Node.reach, ↓reduceIte, List.forall_mem_cons] at he
    exact (recordExprs es he.2).bind fun vs => (recordClosure adapter vs).inFrame
  | .singleton adapter, _ => (recordSingleton adapter).inFrame

/-- The record of expressions in order. -/
def recordExprs : (es : List Expr) →
    (∀ n ∈ Expr.walkList (fun _ => true) es, n.WritesOnly writable) →
    (evalExprs u k es).Recorded u writable mark
  | [], _ => .pure _
  | e :: es, he => by
    simp only [Expr.walkList, List.forall_mem_append] at he
    exact (recordExpr e he.1).bind fun _ => (recordExprs es he.2).bind fun _ => .pure _

/-- The record of finding the object whose field is accessed. -/
def recordOwner (f : FieldId) : (r : Option Expr) →
    (∀ n ∈ Expr.walkOption (fun _ => true) r, n.WritesOnly writable) →
    (evalFieldOwner u k f r).Recorded u writable mark
  | some e, he => (recordExpr e he).bind fun _ => .onHeap _
  | none, _ => Recorded.read.bind fun _ => .onHeap _

/-- The record of finding the enclosing instance of a new instance. -/
def recordOuter (d : TypeDecl) : (o : Option Expr) →
    (∀ n ∈ Expr.walkOption (fun _ => true) o, n.WritesOnly writable) →
    (evalOuter u k d o).Recorded u writable mark
  | some e, he => (recordExpr e he).bind fun _ => (Recorded.onHeap _).bind fun _ => .pure _
  | none, _ => Recorded.read.bind fun _ => .onHeap _

/-- The record of a call with recorded arguments. -/
def recordCall (m : MethodId) (declared : Method) {args : Eval (List Value)}
    (ha : args.Recorded u writable mark) : (r : Receiver) →
    (∀ n ∈ r.walk (fun _ => true), n.WritesOnly writable) →
    (evalCall u k m declared args r).Recorded u writable mark
  | .static, _ => ha.bind fun _ => (hk.invoke _ _ _).inFrame
  | .implicit, _ =>
    .ite _ (ha.bind fun _ => (hk.invoke _ _ _).inFrame)
      (Recorded.read.bind fun _ => (Recorded.onHeap _).bind fun _ => ha.bind fun _ =>
        (recordVirtual hk _ _ _).inFrame)
  | .expr e, he => (recordExpr e he).bind fun _ => (Recorded.onHeap _).bind fun _ =>
    ha.bind fun _ => (recordVirtual hk _ _ _).inFrame
  | .super _, _ => Recorded.read.bind fun _ => (Recorded.onHeap _).bind fun _ =>
    ha.bind fun _ => (hk.invoke _ _ _).inFrame
  | .nonVirtual e, he => (recordExpr e he).bind fun _ => (Recorded.onHeap _).bind fun _ =>
    ha.bind fun _ => (hk.invoke _ _ _).inFrame

end

/-- **Making a closure is noted**, with the values of its operands. -/
theorem log_newClosure {a : ClassId} {es : List Expr}
    (he : ∀ n ∈ (Expr.newClosure a es).nodes, n.WritesOnly writable)
    (hes : ∀ n ∈ Expr.walkList (fun _ => true) es, n.WritesOnly writable) {c c₁ : Config}
    {vs : List Value} (h : evalExprs u k es c = (.ok vs, c₁)) :
    ∃ o c₂, evalExpr u k (.newClosure a es) c = (.ok (.ref o), c₂) ∧
      (recordExpr hk (.newClosure a es) he).log c =
        (recordExprs hk es hes).log c ++ [⟨.closure a vs o, c₂.store⟩] := by
  refine ⟨c₁.store.heap.size, ⟨c₁.frame, c₁.store.withClosure u a vs⟩, ?_, ?_⟩
  · rw [evalExpr, bind_apply, h]
    dsimp only
    rw [Action.inFrame, newClosure_eq]
  · have hlog : (recordExpr hk (.newClosure a es) he).log c = (recordExprs hk es hes).log c ++
        Recorded.log _ (evalExprs u k es c).2 := rfl
    rw [hlog, h]
    exact congrArg (fun t => _ ++ [Moment.mk (.closure a vs c₁.store.heap.size) t])
      (congrArg Prod.snd (newClosure_eq u a vs c₁.store))

/-- **Having a shared instance is noted.** -/
theorem log_singleton {a : ClassId}
    (he : ∀ n ∈ (Expr.singleton a).nodes, n.WritesOnly writable) (c : Config) :
    ∃ v c', evalExpr u k (.singleton a) c = (.ok v, c') ∧
      (recordExpr hk (.singleton a) he).log c = [⟨.shared a v, c'.store⟩] := by
  have hlog : (recordExpr hk (.singleton a) he).log c =
      [⟨.shared a ((c.store.singletons.get? a).getD (.ref c.store.heap.size)),
        (singleton u a c.store).2⟩] := rfl
  rw [hlog, evalExpr, Action.inFrame, singleton_eq]
  cases c.store.singletons.get? a with
  | some v => exact ⟨v, c, rfl, rfl⟩
  | none => exact ⟨_, ⟨c.frame, _⟩, rfl, rfl⟩

def recordCondition (e : Expr) (he : ∀ n ∈ e.nodes, n.WritesOnly writable) :
    (evalCondition u k e).Recorded u writable mark :=
  (recordExpr hk e he).bind fun _ => .onHeap _

def recordOption (otherwise : Value) : (e : Option Expr) →
    (∀ n ∈ Expr.walkOption (fun _ => true) e, n.WritesOnly writable) →
    (evalOption u k otherwise e).Recorded u writable mark
  | some e, he => recordExpr hk e he
  | none, _ => .pure _

mutual

/-- The record of a statement. -/
def recordStmt : (st : Stmt) → (∀ n ∈ st.walk (fun _ => true), n.WritesOnly writable) →
    (execStmt u k st).Recorded u writable mark
  | .declare _ init, hs => by
    simp only [Stmt.walk, Node.reach, ↓reduceIte, List.forall_mem_cons] at hs
    exact (recordOption hk _ init hs.2).bind fun _ => (Recorded.writeLocal _ _).bind fun _ =>
      .pure _
  | .expr e, hs => by
    simp only [Stmt.walk, Node.reach, ↓reduceIte, List.forall_mem_cons] at hs
    exact (recordExpr hk e hs.2).bind fun _ => .pure _
  | .ret e, hs => by
    simp only [Stmt.walk, Node.reach, ↓reduceIte, List.forall_mem_cons] at hs
    exact (recordOption hk _ e hs.2).bind fun _ => .pure _
  | .cond c t e, hs => by
    simp only [Stmt.walk, Node.reach, ↓reduceIte, List.forall_mem_cons,
      List.forall_mem_append] at hs
    exact (recordCondition hk c hs.2.1).bind fun _ =>
      .ite _ (recordStmts t hs.2.2.1) (recordOptional e hs.2.2.2)
  | .whileLoop c b, hs => by
    simp only [Stmt.walk, Node.reach, ↓reduceIte, List.forall_mem_cons,
      List.forall_mem_append] at hs
    exact .iterate ((recordCondition hk c hs.2.1).bind fun _ =>
      .ite _ ((recordStmts b hs.2.2).bind fun _ => .pure _) (.pure _)) _
  | .forLoop i c update b, hs => by
    simp only [Stmt.walk, Node.reach, ↓reduceIte, List.forall_mem_cons,
      List.forall_mem_append] at hs
    let round (go : Bool) : Eval.Recorded u writable mark (do
        if go then
          match (← execStmts u k b).endsLoop? with
          | some flow => return some flow
          | none => do
            let _ ← evalExprs u k update
            return none
        else return some .next) :=
      .ite _
        ((recordStmts b hs.2.2.2.2).bind fun flow =>
          match flow.endsLoop? with
          | some _ => .pure _
          | none => (recordExprs hk update hs.2.2.2.1).bind fun _ => .pure _)
        (.pure _)
    exact (recordStmts i hs.2.1).bind fun flow =>
      match flow with
      | .ret _ => .pure _
      | .next | .breakLoop | .continueLoop =>
        match c, hs.2.2.1 with
        | some c, hc => .iterate ((recordCondition hk c hc).bind round) _
        | none, _ => .iterate ((Recorded.pure true).bind round) _
  | .forEach _ e b, hs => by
    simp only [Stmt.walk, Node.reach, ↓reduceIte, List.forall_mem_cons,
      List.forall_mem_append] at hs
    exact (recordExpr hk e hs.2.1).bind fun _ => (Recorded.onHeap _).bind fun _ =>
      .forEachValue (fun _ => (Recorded.writeLocal _ _).bind fun _ => recordStmts b hs.2.2) _
  | .block b, hs => by
    simp only [Stmt.walk, Node.reach, ↓reduceIte, List.forall_mem_cons] at hs
    exact recordStmts b hs.2
  | .raise e, hs => by
    simp only [Stmt.walk, Node.reach, ↓reduceIte, List.forall_mem_cons] at hs
    exact (recordExpr hk e hs.2).bind fun _ => .ite _ (.halt _) (.halt _)
  | .tryCatch b handler final, hs => by
    simp only [Stmt.walk, Node.reach, ↓reduceIte, List.forall_mem_cons,
      List.forall_mem_append] at hs
    exact recordFinal (recordHandled (recordStmts b hs.2.1) handler hs.2.2.1) final hs.2.2.2
  | .breakLoop, _ | .continueLoop, _ => .pure _

/-- The record of statements in order. -/
def recordStmts : (ss : List Stmt) →
    (∀ n ∈ Stmt.walkAll (fun _ => true) ss, n.WritesOnly writable) →
    (execStmts u k ss).Recorded u writable mark
  | [], _ => .pure _
  | st :: ss, hs => by
    simp only [Stmt.walkAll, List.forall_mem_append] at hs
    exact (recordStmt st hs.1).bind fun flow =>
      match flow with
      | .next => recordStmts ss hs.2
      | .ret _ | .breakLoop | .continueLoop => .pure _

/-- The record of statements that may be absent. -/
def recordOptional : (b : Option (List Stmt)) →
    (∀ n ∈ Stmt.walkOption (fun _ => true) b, n.WritesOnly writable) →
    (execOption u k b).Recorded u writable mark
  | some b, hb => recordStmts b hb
  | none, _ => .pure _

/-- The record of a body under a handler. -/
def recordHandled {body : Eval Flow} (hbody : body.Recorded u writable mark) :
    (handler : Option CatchClause) →
    (∀ n ∈ CatchClause.walkOption (fun _ => true) handler, n.WritesOnly writable) →
    (execHandled u k body handler).Recorded u writable mark
  | some ⟨p, b⟩, hb => by
    change Eval.Recorded u writable mark
      (handling body (fun h v => isInstance u h v p.ty) fun v => do
        writeLocal p.id v
        execStmts u k b)
    exact .handling hbody fun v => (Recorded.writeLocal p.id v).bind fun _ => recordStmts b hb
  | none, _ => hbody

/-- The record of a body with a final block. -/
def recordFinal {body : Eval Flow} (hbody : body.Recorded u writable mark) :
    (final : Option (List Stmt)) →
    (∀ n ∈ Stmt.walkOption (fun _ => true) final, n.WritesOnly writable) →
    (execFinal u k body final).Recorded u writable mark
  | some b, hb => .finally_ hbody (recordStmts b hb)
  | none, _ => hbody

end

/-! ## Methods -/

/-- The body of a method and the frame in which it is executed, unless the
method cannot be run. -/
def activation (u : CompilationUnit) (id : MethodId) (this : Option Ref) (args : List Value)
    (s : Store) : Except Fault (List Stmt × Frame) :=
  match u.method? id with
  | none => .error (.invalid .danglingMethod)
  | some m =>
    match m.body with
    | none => .error (.noSuchMethod (u.className id.owner) (m.name ++ " (abstract)"))
    | some body =>
      if args.length ≠ m.params.length then
        .error (.invalid (.wrongArity m.name m.params.length args.length))
      else if maxCallDepth ≤ s.depth then .error .stackOverflow
      else .ok (body, ⟨this, bindParams m.params args⟩)

/-- What a call yields when its body ends. -/
def Flow.result : Flow → Value
  | .ret v => v
  | _ => .void

/-- **Running a method is executing its body one call deeper**, if it can be
run. -/
theorem runMethod_eq (u : CompilationUnit) (k : Calls) (id : MethodId) (this : Option Ref)
    (args : List Value) (s : Store) :
    runMethod u k id this args s =
      match activation u id this args s with
      | .error f => (.error (.fault f), s)
      | .ok (body, frame) =>
        (oneDeeper ((execStmts u k body).within frame) >>= fun flow => pure flow.result) s := by
  rw [runMethod, activation]
  cases u.method? id with
  | none => rfl
  | some m =>
    dsimp only
    cases m.body with
    | none => rfl
    | some body =>
      dsimp only
      split
      · rfl
      · rw [get_bind_apply]
        split
        · rfl
        · dsimp only
          rw [bind_apply, bind_apply]
          rcases oneDeeper _ s with ⟨_ | flow, t⟩
          · rfl
          · cases flow <;> rfl

/-- A body that is entered is that of a method of the unit, and the limit on
calls has not been reached. -/
theorem of_activation {id : MethodId} {this : Option Ref} {args : List Value} {s : Store}
    {body : List Stmt} {frame : Frame} (h : activation u id this args s = .ok (body, frame)) :
    s.depth < maxCallDepth ∧ ∃ m, u.method? id = some m ∧ m.body = some body := by
  rw [activation] at h
  split at h
  · cases h
  · rename_i m hm
    split at h
    · cases h
    · rename_i hbody
      split at h
      · cases h
      · split at h
        · cases h
        · rename_i hdepth
          cases h
          exact ⟨Nat.not_le.mp hdepth, m, hm, hbody⟩

theorem CompilationUnit.WritesOnly.activation (hu : u.WritesOnly writable) {id : MethodId}
    {this : Option Ref} {args : List Value} {s : Store} {body : List Stmt} {frame : Frame}
    (h : activation u id this args s = .ok (body, frame)) :
    ∀ n ∈ Stmt.walkAll (fun _ => true) body, n.WritesOnly writable := by
  obtain ⟨-, m, hm, hbody⟩ := of_activation h
  obtain ⟨d, hd, hmem⟩ := Option.bind_eq_some_iff.mp hm
  intro n hn
  refine hu.decl hd n (d.nodes_of_method (List.mem_of_getElem? hmem) ?_)
  rw [hbody]
  exact hn

theorem store_bind_pure {σ α β : Type} (m : ExceptT Halt (StateM σ) α) (g : α → β) (c : σ) :
    ((m >>= fun a => (pure (g a) : ExceptT Halt (StateM σ) β)) c).2 = (m c).2 := by
  rw [bind_apply]
  rcases m c with ⟨_ | a, c'⟩ <;> rfl

theorem store_runMethod_error {id : MethodId} {this : Option Ref} {args : List Value} {s : Store}
    {f : Fault} (h : activation u id this args s = .error f) :
    (runMethod u k id this args s).2 = s := by
  rw [runMethod_eq, h]

theorem store_runMethod_ok {id : MethodId} {this : Option Ref} {args : List Value} {s : Store}
    {body : List Stmt} {frame : Frame} (h : activation u id this args s = .ok (body, frame)) :
    (runMethod u k id this args s).2 =
      (oneDeeper ((execStmts u k body).within frame) s).2 := by
  rw [runMethod_eq, h]
  exact store_bind_pure _ Flow.result s

/-- The record of a call is that of the body, one call deeper. -/
def recordMethod (hu : u.WritesOnly writable) (id : MethodId) (this : Option Ref)
    (args : List Value) : (runMethod u k id this args).Recorded u writable mark where
  log s := match h : activation u id this args s with
    | .error _ => []
    | .ok (body, frame) =>
      (recordDeeper ((recordStmts hk body (hu.activation h)).within frame)).log s
  path s hs := by
    split
    · rename_i h
      rw [store_runMethod_error h]
      exact .nil s
    · rename_i h
      rw [store_runMethod_ok h]
      exact Recorded.path _ s ⟨hs, (of_activation h).1⟩
  level s := by
    cases h : activation u id this args s with
    | error f => rw [store_runMethod_error h]
    | ok r =>
      rw [store_runMethod_ok h]
      exact (recordDeeper ((recordStmts hk _ (hu.activation h)).within _)).level s

/-- **What happens within a call is noted** between entering the call and
leaving it. -/
theorem log_method (hu : u.WritesOnly writable) {id : MethodId} {this : Option Ref}
    {args : List Value} {s : Store} {body : List Stmt} {frame : Frame}
    (h : activation u id this args s = .ok (body, frame))
    (hbody : ∀ n ∈ Stmt.walkAll (fun _ => true) body, n.WritesOnly writable) :
    (recordMethod hk hu id this args).log s =
      ⟨.enter, { s with depth := s.depth + 1 }⟩ ::
        ((recordStmts hk body hbody).log ⟨frame, { s with depth := s.depth + 1 }⟩ ++
          [⟨.leave, (runMethod u k id this args s).2⟩]) := by
  rw [store_runMethod_ok h]
  dsimp only [recordMethod]
  split
  · rename_i h'
    rw [h] at h'
    cases h'
  · rename_i h'
    rw [h] at h'
    cases h'
    rfl

/-! ## Instances -/

section Initializers

variable {Q : Store → Prop} [Stable (u.Happens writable mark) Q] (hQ : ∀ s, Q s → s.Above mark)
  {write : FieldId → Value → Eval Unit}

/-- The record of initializers of fields, where handing on the values is
recorded. -/
def recordInitFields : (fs : List (FieldId × Field)) →
    (∀ f ∈ fs, f.2.init.isSome → ∀ v,
      Recorded (u.Happens writable mark) Q Config.store (write f.1 v)) →
    (∀ f ∈ fs, ∀ n ∈ Expr.walkOption (fun _ => true) f.2.init, n.WritesOnly writable) →
    Recorded (u.Happens writable mark) Q Config.store (initFields u k write fs)
  | [], _, _ => .pure _
  | (id, f) :: rest, hwrite, hfs => by
    let others := recordInitFields rest (fun f hf => hwrite f (List.mem_cons_of_mem _ hf))
      fun f hf => hfs f (List.mem_cons_of_mem _ hf)
    dsimp only [initFields]
    exact match hf : f.init with
      | none => others
      | some e =>
        ((recordExpr hk e fun n hn => hfs (id, f) List.mem_cons_self n (by
            rw [hf]
            exact hn)).mono hQ).bind fun v =>
          (hwrite (id, f) List.mem_cons_self (by
            rw [hf]
            rfl) v).bind fun _ => others

def recordInitializers : (is : List Initializer) →
    (∀ i ∈ is, ∀ n ∈ Stmt.nodes i.body, n.WritesOnly writable) →
    Recorded (u.Happens writable mark) Q Config.store (runInitializers u k is)
  | [], _ => .pure _
  | i :: rest, his =>
    ((recordStmts hk i.body (his i List.mem_cons_self)).mono hQ).bind fun _ =>
      recordInitializers rest fun i hi => his i (List.mem_cons_of_mem _ hi)

def recordInitDecl (isStatic : Bool) {d : TypeDecl} (hd : ∀ n ∈ d.nodes, n.WritesOnly writable)
    (hwrite : ∀ f ∈ d.fieldIds d.id, f.2.isStatic = isStatic → f.2.init.isSome → ∀ v,
      Recorded (u.Happens writable mark) Q Config.store (write f.1 v)) :
    Recorded (u.Happens writable mark) Q Config.store (initDecl u k isStatic write d) :=
  (recordInitFields hk hQ _
    (fun f hf => hwrite f (List.mem_filter.mp hf).1 (beq_iff_eq.mp (List.mem_filter.mp hf).2))
    (by
      intro f hf n hn
      obtain ⟨⟨fld, i⟩, hmem, rfl⟩ := List.mem_map.mp (List.mem_filter.mp hf).1
      exact hd n (d.nodes_of_init (List.fst_mem_of_mem_zipIdx hmem) hn))).bind fun _ =>
  recordInitializers hk hQ _ fun _ hi n hn =>
    hd n (d.nodes_of_initializer (List.mem_filter.mp hi).1 hn)

end Initializers

/-- The record of the initializers of an instance, while it is being made. -/
def recordInitInstance (hu : u.WritesOnly writable) (type : ClassId) (object : Ref) :
    (ds : List TypeDecl) → (∀ d ∈ ds, ∃ c ∈ u.lineage type, u.decl? c = some d) →
    Recorded (u.Happens writable mark) (Store.Making mark type object) Config.store
      (initInstance u k object ds)
  | [], _ => .pure _
  | d :: ds, hds =>
    (recordInitDecl hk (fun _ hs => hs.1) false
      (by
        obtain ⟨c, -, hd⟩ := hds d List.mem_cons_self
        exact hu.decl hd)
      (fun f hf hstatic hinit v => .inFrame (.one (fun _ => .change)
        (fun s hs => .field s object f.1 v (.inr (by
          obtain ⟨c, hc, hd⟩ := hds d List.mem_cons_self
          exact ⟨hs.2.1, type, hs.2.2, c, hc, d, hd, f, hf, rfl, hstatic, hinit⟩)))
        fun _ => rfl))).bind fun _ =>
    recordInitInstance hu type object ds fun d hd => hds d (List.mem_cons_of_mem _ hd)

/-- The record of what is done with a new instance starts when it is made. -/
def recordAllocate {α : Type} {type : ClassId} {outer : Option Ref} {f : Value → Action α}
    (t : ∀ r, Recorded (u.Happens writable mark) (Store.Making mark type r) id (f (.ref r))) :
    (allocate u type outer >>= f).Recorded u writable mark where
  log s := ⟨.change, s.withInstance u type outer⟩ ::
    (t s.heap.size).log (s.withInstance u type outer)
  path s hs := by
    have hnew : (s.withInstance u type outer).HasInstance type s.heap.size :=
      ⟨s.serial + 1, blankInstance u type, outer, Array.getElem?_push_size⟩
    have hcreate : u.Happens writable mark s ⟨.change, s.withInstance u type outer⟩ :=
      .create s type outer
    exact .cons hcreate ((t s.heap.size).path _ ⟨Stable.stays _ _ hs hcreate, hs, hnew⟩)
  level s := (t s.heap.size).level (s.withInstance u type outer)

/-- The record of a creation. -/
def recordCreation (hu : u.WritesOnly writable) (type : ClassId) (ctor : Option MethodId)
    (outer : Option Ref) (args : List Value) :
    (createInstance u k type ctor outer args).Recorded u writable mark :=
  .ofExceptBind fun d _ => by
    let made : Action.Recorded u writable mark (do
        let v ← allocate u type outer
        match v with
        | .ref object => do
          let decls ← Action.ofExcept ((u.lineage type).mapM (declOf u))
          (initInstance u k object decls.reverse).within ⟨some object, []⟩
          match ctor with
          | some c => do let _ ← k.invoke c (some object) args
          | none => if !args.isEmpty then Action.fault (.invalid .implicitConstructorArgs)
          return v
        | _ => return v) :=
      recordAllocate fun object => .ofExceptBind fun decls hdecls =>
        ((recordInitInstance hk hu type object decls.reverse (by
          intro d hd
          obtain ⟨c, hc, hdecl⟩ := (exists_of_mapM_ok hdecls).2 d (List.mem_reverse.mp hd)
          exact ⟨c, hc, declOf_eq_ok.mp hdecl⟩)).within _).bind fun _ =>
        match ctor with
        | some c => ((hk.invoke c _ args).mono fun _ hs => hs.1).bind fun _ => .pure _
        | none => .ite _ ((Recorded.halt _).bind fun _ => .pure _) (.pure _)
    exact .ite _ ((Recorded.halt _).bind fun _ => made) made

/-! ## Calls -/

/-- **The record of calls**, whatever the budget. -/
def recordCalls (hu : u.WritesOnly writable) :
    ∀ n, (callsWithin u n).Recorded u writable mark
  | 0 => ⟨fun _ _ _ => .halt _, fun _ _ _ _ => .halt _, recordText (fun _ _ _ => .halt _) 0⟩
  | n + 1 =>
    ⟨fun m this args => recordMethod (recordCalls hu n) hu m this args,
      fun type ctor outer args => recordCreation (recordCalls hu n) hu type ctor outer args,
      recordText (fun m this args => recordMethod (recordCalls hu n) hu m this args) (n + 1)⟩

end Effects

/-! ## Confined computations -/

section Confined

variable (u : CompilationUnit) (writable : FieldId → Prop) (mark : Nat)

/-- An action that makes nothing but the listed changes. -/
def Action.Confined {α : Type} (a : Action α) : Prop :=
  ∀ s, mark ≤ s.heap.size → Store.Changes u writable mark s (a s).2

/-- Ways to leave a tree that can be recorded, wherever the mark is. -/
def Calls.Confined (k : Calls) : Prop := ∀ mark, Nonempty (k.Recorded u writable mark)

variable {u writable mark} {k : Calls} {α β : Type}

theorem Path.changes {s t : Store} {ms : List Moment}
    (h : Path (u.Happens writable mark) s ms t) : Store.Changes u writable mark s t := by
  induction h with
  | nil => exact .refl
  | cons hm _ ih =>
    refine .head ⟨_, hm.mono ?_⟩ ih
    rintro s r f (hf | ⟨hr, -⟩)
    · exact .inl hf
    · exact .inr hr

/-- **What is recorded makes nothing but the listed changes.** -/
theorem Recorded.confined {a : Action α} (t : a.Recorded u writable mark) :
    a.Confined u writable mark := fun s hs => (t.path s hs).changes

namespace Action.Confined

theorem bind {a : Action α} {f : α → Action β} (ha : a.Confined u writable mark)
    (hf : ∀ x, (f x).Confined u writable mark) : (a >>= f).Confined u writable mark := by
  intro s hs
  have hfirst := ha s hs
  rw [bind_apply]
  rcases hr : a s with ⟨_ | x, s'⟩ <;> rw [hr] at hfirst
  · exact hfirst
  · exact hfirst.trans (hf x s' (Nat.le_trans hs hfirst.size_le))

theorem box (kind : Primitive) (v : Value) :
    (newObject (.boxed kind v)).Confined u writable mark := (recordBox kind v).confined

theorem array (t : Ty) (vs : Array Value) : (newObject (.array t vs)).Confined u writable mark :=
  (recordArray t vs).confined

theorem storeField {f : FieldId} (h : writable f) (r : Ref) (v : Value) :
    (storeField r f v).Confined u writable mark := (recordField h r v).confined

theorem storeElement (r : Ref) (i : Nat) (v : Value) :
    (storeElement r i v).Confined u writable mark := (recordElement r i v).confined

theorem printLine (line : String) : (printLine line).Confined u writable mark :=
  (recordPrint line).confined

end Action.Confined

namespace Calls.Confined

variable (hk : k.Confined u writable) (mark)

include hk

theorem invoke (m : MethodId) (this : Option Ref) (args : List Value) :
    (k.invoke m this args).Confined u writable mark := by
  obtain ⟨t⟩ := hk mark
  exact (t.invoke m this args).confined

theorem construct (type : ClassId) (ctor : Option MethodId) (outer : Option Ref)
    (args : List Value) : (k.construct type ctor outer args).Confined u writable mark := by
  obtain ⟨t⟩ := hk mark
  exact (t.construct type ctor outer args).confined

end Calls.Confined

theorem callVirtual_confined (hk : k.Confined u writable) (object : Ref) (m : MethodId)
    (args : List Value) : (callVirtual u k object m args).Confined u writable mark := by
  obtain ⟨t⟩ := hk mark
  exact (recordVirtual t object m args).confined

theorem stringifyAll_confined (hk : k.Confined u writable) (vs : List Value) :
    (stringifyAll k vs).Confined u writable mark := by
  obtain ⟨t⟩ := hk mark
  exact (recordTexts t vs).confined

theorem binaryOp_confined (hk : k.Confined u writable) (op : BinaryOp) (v w : Value) :
    (binaryOp k op v w).Confined u writable mark := by
  obtain ⟨t⟩ := hk mark
  exact (recordBinary t op v w).confined

theorem newClosure_confined (adapter : ClassId) (captures : List Value) :
    (newClosure u adapter captures).Confined u writable mark :=
  (recordClosure adapter captures).confined

theorem singleton_confined (adapter : ClassId) : (singleton u adapter).Confined u writable mark :=
  (recordSingleton adapter).confined

theorem callsWithin_confined (hu : u.WritesOnly writable) (n : Nat) :
    (callsWithin u n).Confined u writable := fun _ => ⟨recordCalls hu n⟩

end Confined

end Closures
