import Closures.Proofs.TreeShape
import Closures.Proofs.ValueReading

/-!
# Reading trees back

Each reader of a part of a tree gives back what was written for it, with or
without the idle fields. For types the induction is on the type; for code it is
along children and parts, and the doubles in the code have to be numbers that
JSON has.
-/

set_option autoImplicit false

namespace Closures

open Doc (Reads Recovers Shape)

variable {n : Nat} {rest : List (String × Json)}

/-! ## Types -/

theorem Primitive.reads (k : Primitive) : Reads n Doc.primitive k.toJson k :=
  .choice (by cases k <;> rfl)

theorem MethodId.reads (m : MethodId) : Reads n Doc.methodId m.toJson m :=
  (Shape.Reads.required "class" rfl (.u32 m.owner)).map MethodId.mk
    |>.seq (.required "index" rfl (.u32 m.index))
    |>.record (by simp)

theorem FieldId.reads (f : FieldId) : Reads n Doc.fieldId f.toJson f :=
  (Shape.Reads.required "class" rfl (.u32 f.owner)).map FieldId.mk
    |>.seq (.required "index" rfl (.u32 f.index))
    |>.record (by simp)

theorem Span.reads (s : Span) : Reads n Doc.span s.toJson s :=
  (Shape.Reads.required "file_id" rfl (.u32 s.file)).map Span.mk
    |>.seq (.required "start" rfl (.u32 s.start))
    |>.seq (.required "end" rfl (.u32 s.stop))
    |>.record (by simp)

theorem Ty.toJsonList_eq (ts : List Ty) : Ty.toJsonList ts = ts.map Ty.toJson := by
  induction ts with
  | nil => rfl
  | cons t ts ih => exact congrArg (List.cons t.toJson) ih

theorem Ty.reads_items {read : Doc → Reading Ty} {ts : List Ty}
    (h : ∀ t ∈ ts, Reads n read t.toJson t) : Reads n (Doc.items read) (Ty.listToJson ts) ts := by
  rw [Ty.listToJson, Ty.toJsonList_eq]
  exact .items ts h

mutual

theorem Ty.reads_within (t : Ty) : ∀ n, Reads n (Doc.tyWithin n) t.toJson t := by
  refine .within fun n => ?_
  cases t with
  | void | null | object | string => exact .plain rfl
  | primitive k => exact .carrying rfl rfl (k.reads.map Ty.primitive)
  | boxed k => exact .carrying rfl rfl (k.reads.map Ty.boxed)
  | declared id args =>
    exact .carrying rfl rfl ((Shape.Reads.required "id" rfl (.u32 id)).map Ty.declared
      |>.seq (.required "args" rfl (Ty.reads_items fun t ht => Ty.reads_mem args t ht n))
      |>.record (by simp))
  | array t => exact .carrying rfl rfl ((Ty.reads_within t n).map Ty.array)
  | var name => exact .carrying rfl rfl ((Reads.string name).map Ty.var)
  | inter ts =>
    exact .carrying rfl rfl ((Ty.reads_items fun t ht => Ty.reads_mem ts t ht n).map Ty.inter)

theorem Ty.reads_mem (ts : List Ty) : ∀ t ∈ ts, ∀ n, Reads n (Doc.tyWithin n) t.toJson t := by
  cases ts with
  | nil => exact fun _ h => nomatch h
  | cons t ts => exact List.forall_mem_cons.mpr ⟨Ty.reads_within t, Ty.reads_mem ts⟩

end

theorem Ty.reads (t : Ty) : Reads n Doc.ty t.toJson t := .of_height t.reads_within

theorem Ty.reads_list (ts : List Ty) : Reads n (Doc.items Doc.ty) (Ty.listToJson ts) ts :=
  Ty.reads_items fun t _ => t.reads

theorem ClassType.reads (c : ClassType) : Reads n Doc.classType c.toJson c :=
  (Shape.Reads.required "id" rfl (.u32 c.id)).map ClassType.mk
    |>.seq (.required "args" rfl (Ty.reads_list c.args))
    |>.record (by simp)

theorem TypeParam.reads (p : TypeParam) : Reads n Doc.typeParam p.toJson p :=
  (Shape.Reads.required "name" rfl (.string p.name)).map TypeParam.mk
    |>.seq (.optional "bound" rfl p.bound fun t _ => t.reads)
    |>.record (by simp)

/-! ## What code is made of -/

theorem BinaryOp.reads (op : BinaryOp) : Reads n Doc.binaryOp (.str op.tag) op :=
  .choice (by cases op <;> rfl)

theorem UnaryOp.reads (op : UnaryOp) : Reads n Doc.unaryOp (.str op.tag) op :=
  .choice (by cases op <;> rfl)

theorem CompareOp.reads (op : CompareOp) : Reads n Doc.compareOp (.str op.tag) op :=
  .choice (by cases op <;> rfl)

theorem LogicalOp.reads (op : LogicalOp) : Reads n Doc.logicalOp (.str op.tag) op :=
  .choice (by cases op <;> rfl)

theorem Intrinsic.reads (op : Intrinsic) : Reads n Doc.intrinsicOp (.str op.tag) op :=
  .choice (by cases op; rfl)

@[simp]
theorem Param.map_fst_fields (p : Param) :
    p.fields.map Prod.fst = ["id", "name", "ty", "effectively_final"] := rfl

theorem Param.shape_reads (p : Param) (rest : List (String × Json)) :
    Doc.paramShape.Reads n (p.fields ++ rest) rest p :=
  (Shape.Reads.required "id" rfl (.u32 p.id)).map Param.mk
    |>.seq (.required "name" rfl (.string p.name))
    |>.seq (.required "ty" rfl p.ty.reads)
    |>.seq (.required "effectively_final" rfl (.boolean p.effectivelyFinal))

theorem Param.reads (p : Param) : Reads n Doc.param p.toJson p :=
  (p.shape_reads []).record (by simp)

theorem RefMember.reads (m : RefMember) : Reads n Doc.refMember m.toJson m := by
  refine Reads.of_succ ?_
  cases m with
  | method name => exact .carrying rfl rfl ((Reads.string name).map RefMember.method)
  | new => exact .plain rfl

theorem reads_qualifier (q : Option ClassId) :
    Doc.qualifierShape.Reads n [("qualifier", .option .u32 q)] [] q :=
  .optional "qualifier" rfl q fun id _ => .u32 id

/-! ## Code -/

/-- An expression is read back, at any depth. -/
def Expr.ReadBack (e : Expr) : Prop := ∀ n, Reads n (Doc.codeWithin n).expr e.toJson e

/-- A statement is read back, at any depth. -/
def Stmt.ReadBack (s : Stmt) : Prop := ∀ n, Reads n (Doc.codeWithin n).stmt s.toJson s

namespace Expr

theorem listToJson_eq (es : List Expr) : listToJson es = es.map toJson := by
  induction es with
  | nil => rfl
  | cons e es ih => exact congrArg (List.cons e.toJson) ih

theorem reads_items {es : List Expr} (h : ∀ e ∈ es, e.ReadBack) :
    Reads n (Doc.items (Doc.codeWithin n).expr) (.arr (listToJson es)) es := by
  rw [listToJson_eq]
  exact .items es fun e he => h e he n

theorem optionToJson_eq (o : Option Expr) : optionToJson o = .option toJson o := by
  cases o <;> rfl

theorem recovers_option {o : Option Expr} (h : ∀ e ∈ o.toList, e.ReadBack) :
    Recovers n (Doc.orNull (Doc.codeWithin n).expr) (optionToJson o) o := by
  rw [optionToJson_eq]
  exact .orNull fun e he => h e (Option.mem_toList.mpr he) n

theorem reads_option (k : String) (hk : Json.hasDefault k = false) {o : Option Expr}
    (h : ∀ e ∈ o.toList, e.ReadBack) :
    (Shape.optional k (Doc.codeWithin n).expr).Reads n ((k, optionToJson o) :: rest) rest o := by
  rw [optionToJson_eq]
  exact .optional k hk o fun e he => h e (Option.mem_toList.mpr he) n

end Expr

namespace Stmt

theorem listToJson_eq (ss : List Stmt) : listToJson ss = ss.map toJson := by
  induction ss with
  | nil => rfl
  | cons s ss ih => exact congrArg (List.cons s.toJson) ih

theorem reads_items {ss : List Stmt} (h : ∀ s ∈ ss, s.ReadBack) :
    Reads n (Doc.items (Doc.codeWithin n).stmt) (.arr (listToJson ss)) ss := by
  rw [listToJson_eq]
  exact .items ss fun s hs => h s hs n

theorem optionToJson_eq (o : Option (List Stmt)) : optionToJson o = .option blockToJson o := by
  cases o <;> rfl

theorem reads_option (k : String) (hk : Json.hasDefault k = false) {o : Option (List Stmt)}
    (h : ∀ ss ∈ o.toList, ∀ s ∈ ss, s.ReadBack) :
    (Shape.optional k (Doc.items (Doc.codeWithin n).stmt)).Reads n ((k, optionToJson o) :: rest)
      rest o := by
  rw [optionToJson_eq]
  exact .optional k hk o fun ss hs => reads_items (h ss (Option.mem_toList.mpr hs))

end Stmt

theorem Receiver.reads (r : Receiver) (h : ∀ e ∈ r.children, e.ReadBack) :
    ∀ n, Reads n (Doc.codeWithin n).receiver r.toJson r := by
  refine .within fun n => ?_
  cases r with
  | implicit | static => exact .plain rfl
  | expr e => exact .carrying rfl rfl ((h e List.mem_cons_self n).map Receiver.expr)
  | super q => exact .carrying rfl rfl (((reads_qualifier q).map Receiver.super).record (by simp))
  | nonVirtual e => exact .carrying rfl rfl ((h e List.mem_cons_self n).map Receiver.nonVirtual)

theorem RefQualifier.reads (q : RefQualifier) (h : ∀ e ∈ q.children, e.ReadBack) :
    ∀ n, Reads n (Doc.codeWithin n).refQualifier q.toJson q := by
  refine .within fun n => ?_
  cases q with
  | type t => exact .carrying rfl rfl (t.reads.map RefQualifier.type)
  | expr e t =>
    have he : e.ReadBack := h e List.mem_cons_self
    exact .carrying rfl rfl ((Shape.Reads.required "expr" rfl (he n)).map RefQualifier.expr
      |>.seq (.required "ty" rfl t.reads)
      |>.record (by simp))
  | super q =>
    exact .carrying rfl rfl (((reads_qualifier q).map RefQualifier.super).record (by simp))

/-- The range of a node without a source text may be left out. -/
theorem Span.reads_default (s : Span) :
    (Shape.defaulted "span" .dummy Doc.span).Reads n (("span", s.toJson) :: rest) rest s :=
  .defaulted "span" s.reads.recovers fun h =>
    Reads.unique (fun _ => s.reads) fun _ => h.span_eq ▸ Span.dummy.reads

/-- No type arguments may be left out. -/
theorem Ty.reads_default (ts : List Ty) :
    (Shape.defaulted "type_args" [] (Doc.items Doc.ty)).Reads n
      (("type_args", Ty.listToJson ts) :: rest) rest ts :=
  .defaulted "type_args" (Ty.reads_list ts).recovers fun h =>
    Reads.unique (fun _ => Ty.reads_list ts) fun _ => h.typeArgs_eq ▸ Ty.reads_list []

theorem MethodRef.reads (r : MethodRef) (h : ∀ e ∈ r.qualifier.children, e.ReadBack) :
    ∀ n, Reads n (Doc.codeWithin n).methodRef r.toJson r := by
  obtain ⟨q, m, ts, t, s⟩ := r
  refine .within fun n => ?_
  exact (Shape.Reads.required "qualifier" rfl (q.reads h n)).map MethodRef.mk
    |>.seq (.required "member" rfl m.reads)
    |>.seq (Ty.reads_default ts)
    |>.seq (.required "target" rfl t.reads)
    |>.seq s.reads_default
    |>.record_succ (by simp)

theorem LambdaBody.reads (b : LambdaBody) {params : List Param}
    (h : (b.part params).All Expr.ReadBack Stmt.ReadBack) :
    ∀ n, Reads n (Doc.codeWithin n).body b.toJson b := by
  refine .within fun n => ?_
  cases b with
  | expr e => exact .carrying rfl rfl ((h e List.mem_cons_self n).map LambdaBody.expr)
  | block ss => exact .carrying rfl rfl ((Stmt.reads_items h).map LambdaBody.block)

theorem Lambda.reads (l : Lambda)
    (h : (l.body.part l.params).All Expr.ReadBack Stmt.ReadBack) :
    ∀ n, Reads n (Doc.codeWithin n).lambda l.toJson l := by
  obtain ⟨ps, b, bt, t, s⟩ := l
  refine .within fun n => ?_
  exact (Shape.Reads.required "params" rfl (.items ps fun p _ => p.reads)).map Lambda.mk
    |>.seq (.required "body" rfl (b.reads h n))
    |>.seq (.required "body_type" rfl bt.reads)
    |>.seq (.required "target" rfl t.reads)
    |>.seq s.reads_default
    |>.record_succ (by simp)

theorem CatchClause.reads (c : CatchClause) (h : ∀ s ∈ c.body, s.ReadBack) :
    ∀ n, Reads n (Doc.codeWithin n).handler (CatchClause.optionToJson (some c)) c := by
  obtain ⟨p, b⟩ := c
  refine .within fun n => ?_
  exact (Shape.Reads.required "param" rfl p.reads).map CatchClause.mk
    |>.seq (.required "body" rfl (Stmt.reads_items h))
    |>.record_succ (by simp)

theorem CatchClause.reads_option (k : String) (hk : Json.hasDefault k = false)
    {o : Option CatchClause} (h : ∀ c ∈ o.toList, ∀ s ∈ c.body, s.ReadBack) :
    (Shape.optional k (Doc.codeWithin n).handler).Reads n
      ((k, CatchClause.optionToJson o) :: rest) rest o := by
  have ho : optionToJson o = .option (fun c => optionToJson (some c)) o := by cases o <;> rfl
  rw [ho]
  exact .optional k hk o fun c hc => c.reads (h c (Option.mem_toList.mpr hc)) n

/-- An expression other than a lambda is read back when its children are. -/
theorem Expr.readBack_of_children {e : Expr} (hl : e.isLambda = false)
    (hd : ∀ x, e = .double x → Binary64.isFinite x = true) (h : ∀ c ∈ e.children, c.ReadBack) :
    e.ReadBack := by
  refine .within fun n => ?_
  cases e with
  | lambda => cases hl
  | null => exact .plain rfl
  | bool b => exact .carrying rfl rfl ((Reads.boolean b).map Expr.bool)
  | int v => exact .carrying rfl rfl ((Reads.i32 v).map Expr.int)
  | long v => exact .carrying rfl rfl ((Reads.i64 v).map Expr.long)
  | double x => exact .carrying rfl rfl ((Reads.float (hd x rfl)).map Expr.double)
  | char c => exact .carrying rfl rfl ((Reads.char c).map Expr.char)
  | string s => exact .carrying rfl rfl ((Reads.string s).map Expr.string)
  | localGet id => exact .carrying rfl rfl ((Reads.u32 id).map Expr.localGet)
  | localSet id v =>
    have hv : v.ReadBack := by simpa [children] using h
    exact .carrying rfl rfl ((Shape.Reads.required "local" rfl (.u32 id)).map Expr.localSet
      |>.seq (.required "value" rfl (hv n))
      |>.record (by simp))
  | this q => exact .carrying rfl rfl (((reads_qualifier q).map Expr.this).record (by simp))
  | fieldGet r f =>
    exact .carrying rfl rfl ((reads_option "receiver" rfl h).map Expr.fieldGet
      |>.seq (.required "field" rfl f.reads)
      |>.record (by simp))
  | fieldSet r f v =>
    obtain ⟨hr, hv⟩ := List.forall_mem_append.mp h
    exact .carrying rfl rfl ((reads_option "receiver" rfl hr).map Expr.fieldSet
      |>.seq (.required "field" rfl f.reads)
      |>.seq (.required "value" rfl (hv v List.mem_cons_self n))
      |>.record (by simp))
  | call r m args =>
    obtain ⟨hr, hargs⟩ := List.forall_mem_append.mp h
    exact .carrying rfl rfl ((Shape.Reads.required "receiver" rfl (r.reads hr n)).map Expr.call
      |>.seq (.required "method" rfl m.reads)
      |>.seq (.required "args" rfl (reads_items hargs))
      |>.record (by simp))
  | new t c o args =>
    obtain ⟨ho, hargs⟩ := List.forall_mem_append.mp h
    exact .carrying rfl rfl ((Shape.Reads.required "class" rfl t.reads).map Expr.new
      |>.seq (.optional "ctor" rfl c fun m _ => m.reads)
      |>.seq (reads_option "outer" rfl ho)
      |>.seq (.required "args" rfl (reads_items hargs))
      |>.record (by simp))
  | newArray t e =>
    have he : e.ReadBack := by simpa [children] using h
    exact .carrying rfl rfl ((Shape.Reads.required "element" rfl t.reads).map Expr.newArray
      |>.seq (.required "length" rfl (he n))
      |>.record (by simp))
  | arrayLit t vs =>
    exact .carrying rfl rfl ((Shape.Reads.required "element" rfl t.reads).map Expr.arrayLit
      |>.seq (.required "values" rfl (reads_items h))
      |>.record (by simp))
  | arrayGet a i =>
    obtain ⟨ha, hi⟩ : a.ReadBack ∧ i.ReadBack := by simpa [children] using h
    exact .carrying rfl rfl ((Shape.Reads.required "array" rfl (ha n)).map Expr.arrayGet
      |>.seq (.required "index" rfl (hi n))
      |>.record (by simp))
  | arraySet a i v =>
    obtain ⟨ha, hi, hv⟩ : a.ReadBack ∧ i.ReadBack ∧ v.ReadBack := by simpa [children] using h
    exact .carrying rfl rfl ((Shape.Reads.required "array" rfl (ha n)).map Expr.arraySet
      |>.seq (.required "index" rfl (hi n))
      |>.seq (.required "value" rfl (hv n))
      |>.record (by simp))
  | arrayLength e =>
    have he : e.ReadBack := by simpa [children] using h
    exact .carrying rfl rfl ((he n).map Expr.arrayLength)
  | binary op l r =>
    obtain ⟨hl, hr⟩ : l.ReadBack ∧ r.ReadBack := by simpa [children] using h
    exact .carrying rfl rfl ((Shape.Reads.required "op" rfl op.reads).map Expr.binary
      |>.seq (.required "left" rfl (hl n))
      |>.seq (.required "right" rfl (hr n))
      |>.record (by simp))
  | compare op l r =>
    obtain ⟨hl, hr⟩ : l.ReadBack ∧ r.ReadBack := by simpa [children] using h
    exact .carrying rfl rfl ((Shape.Reads.required "op" rfl op.reads).map Expr.compare
      |>.seq (.required "left" rfl (hl n))
      |>.seq (.required "right" rfl (hr n))
      |>.record (by simp))
  | logical op l r =>
    obtain ⟨hl, hr⟩ : l.ReadBack ∧ r.ReadBack := by simpa [children] using h
    exact .carrying rfl rfl ((Shape.Reads.required "op" rfl op.reads).map Expr.logical
      |>.seq (.required "left" rfl (hl n))
      |>.seq (.required "right" rfl (hr n))
      |>.record (by simp))
  | unary op e =>
    have he : e.ReadBack := by simpa [children] using h
    exact .carrying rfl rfl ((Shape.Reads.required "op" rfl op.reads).map Expr.unary
      |>.seq (.required "operand" rfl (he n))
      |>.record (by simp))
  | cond c t e =>
    obtain ⟨hc, ht, he⟩ : c.ReadBack ∧ t.ReadBack ∧ e.ReadBack := by simpa [children] using h
    exact .carrying rfl rfl ((Shape.Reads.required "condition" rfl (hc n)).map Expr.cond
      |>.seq (.required "then_expr" rfl (ht n))
      |>.seq (.required "else_expr" rfl (he n))
      |>.record (by simp))
  | cast e t =>
    have he : e.ReadBack := by simpa [children] using h
    exact .carrying rfl rfl ((Shape.Reads.required "expr" rfl (he n)).map Expr.cast
      |>.seq (.required "ty" rfl t.reads)
      |>.record (by simp))
  | instanceOf e t =>
    have he : e.ReadBack := by simpa [children] using h
    exact .carrying rfl rfl ((Shape.Reads.required "expr" rfl (he n)).map Expr.instanceOf
      |>.seq (.required "ty" rfl t.reads)
      |>.record (by simp))
  | box e k =>
    have he : e.ReadBack := by simpa [children] using h
    exact .carrying rfl rfl ((Shape.Reads.required "expr" rfl (he n)).map Expr.box
      |>.seq (.required "kind" rfl k.reads)
      |>.record (by simp))
  | unbox e k =>
    have he : e.ReadBack := by simpa [children] using h
    exact .carrying rfl rfl ((Shape.Reads.required "expr" rfl (he n)).map Expr.unbox
      |>.seq (.required "kind" rfl k.reads)
      |>.record (by simp))
  | convert e k =>
    have he : e.ReadBack := by simpa [children] using h
    exact .carrying rfl rfl ((Shape.Reads.required "expr" rfl (he n)).map Expr.convert
      |>.seq (.required "to" rfl k.reads)
      |>.record (by simp))
  | nullCheck e =>
    have he : e.ReadBack := by simpa [children] using h
    exact .carrying rfl rfl ((he n).map Expr.nullCheck)
  | intrinsic op args =>
    exact .carrying rfl rfl ((Shape.Reads.required "op" rfl op.reads).map Expr.intrinsic
      |>.seq (.required "args" rfl (reads_items h))
      |>.record (by simp))
  | methodRef site => exact .carrying rfl rfl ((site.reads h n).map Expr.methodRef)
  | newClosure id cs =>
    exact .carrying rfl rfl ((Shape.Reads.required "adapter" rfl (.u32 id)).map Expr.newClosure
      |>.seq (.required "captures" rfl (reads_items h))
      |>.record (by simp))
  | singleton id =>
    exact .carrying rfl rfl
      (((Shape.Reads.required "adapter" rfl (.u32 id)).map Expr.singleton).record (by simp))

/-- A lambda is read back when its body is. -/
theorem Expr.readBack_lambda (l : Lambda)
    (h : (l.body.part l.params).All Expr.ReadBack Stmt.ReadBack) : (Expr.lambda l).ReadBack := by
  refine .within fun n => ?_
  exact .carrying rfl rfl ((l.reads h n).map Expr.lambda)

/-- A statement is read back when its parts are. -/
theorem Stmt.readBack_of_parts {s : Stmt}
    (h : ∀ part ∈ s.parts, part.All Expr.ReadBack Stmt.ReadBack) : s.ReadBack := by
  refine .within fun n => ?_
  cases s with
  | declare p init =>
    have hi : ∀ e ∈ init.toList, e.ReadBack := h _ List.mem_cons_self
    exact .carrying rfl rfl ((p.shape_reads _).map Stmt.declare
      |>.seq (Expr.reads_option "init" rfl hi)
      |>.record (by simp))
  | expr e =>
    have he : e.ReadBack := h _ List.mem_cons_self e List.mem_cons_self
    exact .carrying rfl rfl ((he n).map Stmt.expr)
  | ret v =>
    -- What is returned is not a field: it is written as `null` when there is nothing.
    have hv : ∀ e ∈ v.toList, e.ReadBack := h _ List.mem_cons_self
    exact .tagged rfl rfl ((Expr.recovers_option hv).map Stmt.ret)
  | cond c t e =>
    obtain ⟨hc, ht, he⟩ : c.ReadBack ∧ (∀ s ∈ t, s.ReadBack) ∧
        ∀ ss ∈ e.toList, ∀ s ∈ ss, s.ReadBack := by simpa [parts, Part.All] using h
    exact .carrying rfl rfl ((Shape.Reads.required "condition" rfl (hc n)).map Stmt.cond
      |>.seq (.required "then_branch" rfl (reads_items ht))
      |>.seq (reads_option "else_branch" rfl he)
      |>.record (by simp))
  | whileLoop c b =>
    obtain ⟨hc, hb⟩ : c.ReadBack ∧ ∀ s ∈ b, s.ReadBack := by simpa [parts, Part.All] using h
    exact .carrying rfl rfl ((Shape.Reads.required "condition" rfl (hc n)).map Stmt.whileLoop
      |>.seq (.required "body" rfl (reads_items hb))
      |>.record (by simp))
  | forLoop i c u b =>
    obtain ⟨hi, hc, hu, hb⟩ : (∀ s ∈ i, s.ReadBack) ∧ (∀ e ∈ c.toList, e.ReadBack) ∧
        (∀ e ∈ u, e.ReadBack) ∧ ∀ s ∈ b, s.ReadBack := by simpa [parts, Part.All] using h
    exact .carrying rfl rfl ((Shape.Reads.required "init" rfl (reads_items hi)).map Stmt.forLoop
      |>.seq (Expr.reads_option "condition" rfl hc)
      |>.seq (.required "update" rfl (Expr.reads_items hu))
      |>.seq (.required "body" rfl (reads_items hb))
      |>.record (by simp))
  | forEach v e b =>
    obtain ⟨he, hb⟩ : e.ReadBack ∧ ∀ s ∈ b, s.ReadBack := by simpa [parts, Part.All] using h
    exact .carrying rfl rfl ((Shape.Reads.required "var" rfl v.reads).map Stmt.forEach
      |>.seq (.required "iterable" rfl (he n))
      |>.seq (.required "body" rfl (reads_items hb))
      |>.record (by simp))
  | block b =>
    have hb : ∀ s ∈ b, s.ReadBack := h _ List.mem_cons_self
    exact .carrying rfl rfl ((reads_items hb).map Stmt.block)
  | raise e =>
    have he : e.ReadBack := h _ List.mem_cons_self e List.mem_cons_self
    exact .carrying rfl rfl ((he n).map Stmt.raise)
  | tryCatch b c f =>
    obtain ⟨hb, hc, hf⟩ : (∀ s ∈ b, s.ReadBack) ∧ (∀ k ∈ c.toList, ∀ s ∈ k.body, s.ReadBack) ∧
        ∀ ss ∈ f.toList, ∀ s ∈ ss, s.ReadBack := by
      simpa only [parts, List.forall_mem_cons, List.forall_mem_append, List.forall_mem_map,
        Part.All] using h
    exact .carrying rfl rfl ((Shape.Reads.required "body" rfl (reads_items hb)).map Stmt.tryCatch
      |>.seq (CatchClause.reads_option "catch" rfl hc)
      |>.seq (reads_option "finally" rfl hf)
      |>.record (by simp))
  | breakLoop | continueLoop => exact .plain rfl

/-! ### Doubles that JSON has numbers for -/

/-- Every double literal among some nodes is finite. -/
def FiniteDoubles (ns : List Node) : Prop :=
  ∀ x : Float, Node.expr (.double x) ∈ ns → Binary64.isFinite x = true

theorem FiniteDoubles.subset {ns ms : List Node} (h : FiniteDoubles ns) (hm : ms ⊆ ns) :
    FiniteDoubles ms :=
  fun x hx => h x (hm hx)

theorem Part.all_readBack {part : Part}
    (ih : part.All (fun e => FiniteDoubles e.nodes → e.ReadBack)
      (fun s => FiniteDoubles (s.walk fun _ => true) → s.ReadBack))
    (hf : FiniteDoubles (part.walk fun _ => true)) : part.All Expr.ReadBack Stmt.ReadBack := by
  cases part with
  | exprs bs es =>
    rw [walk, Expr.walkList_eq] at hf
    exact fun e he => ih e he (hf.subset fun m hm => List.mem_flatMap.mpr ⟨e, he, hm⟩)
  | stmts bs ss =>
    rw [walk, Stmt.walkAll_eq] at hf
    exact fun s hs => ih s hs (hf.subset fun m hm => List.mem_flatMap.mpr ⟨s, hs, hm⟩)

/-- **Code is read back** when its double literals are finite. -/
theorem shapeSteps_readBack : ShapeSteps (fun e => FiniteDoubles e.nodes → e.ReadBack)
    (fun s => FiniteDoubles (s.walk fun _ => true) → s.ReadBack) where
  node e hl ih hf := by
    rw [Expr.nodes, Expr.walk_eq _ hl] at hf
    refine Expr.readBack_of_children hl (fun x hx => hf x ?_) fun c hc => ih c hc (hf.subset ?_)
    · exact hx ▸ List.mem_cons_self
    · exact fun m hm => List.mem_cons_of_mem _ (List.mem_flatMap.mpr ⟨c, hc, hm⟩)
  lambda l ih hf := by
    obtain ⟨ps, b, bt, t, s⟩ := l
    refine Expr.readBack_lambda _ (Part.all_readBack ih (hf.subset ?_))
    rw [← LambdaBody.walk_eq]
    exact List.subset_cons_self _ _
  stmt s ih hf := by
    rw [Stmt.walk_eq] at hf
    refine Stmt.readBack_of_parts fun part hp => Part.all_readBack (ih part hp) (hf.subset ?_)
    exact fun m hm => List.mem_cons_of_mem _ (List.mem_flatMap.mpr ⟨part, hp, hm⟩)

theorem Stmt.readBack_of_mem {ss : List Stmt} (hf : FiniteDoubles (Stmt.nodes ss)) :
    ∀ s ∈ ss, s.ReadBack := by
  intro s hs
  rw [Stmt.nodes, Stmt.walkAll_eq] at hf
  exact shapeSteps_readBack.statement s
    (hf.subset fun m hm => List.mem_flatMap.mpr ⟨s, hs, hm⟩)

/-! ## Declarations -/

theorem TypeKind.reads (k : TypeKind) : Reads n Doc.typeKind (.str k.tag) k :=
  .choice (by cases k <;> rfl)

theorem MethodKind.reads (k : MethodKind) : Reads n Doc.methodKind (.str k.tag) k :=
  .choice (by cases k <;> rfl)

theorem SingletonInit.reads (i : SingletonInit) : Reads n Doc.singletonInit (.str i.tag) i :=
  .choice (by cases i <;> rfl)

theorem CaptureKind.reads (c : CaptureKind) : Reads n Doc.captureKind c.toJson c := by
  refine Reads.of_succ ?_
  cases c with
  | localValue id name =>
    exact .carrying rfl rfl ((Shape.Reads.required "id" rfl (.u32 id)).map CaptureKind.localValue
      |>.seq (.required "name" rfl (.string name))
      |>.record (by simp))
  | enclosingInstance depth =>
    exact .carrying rfl rfl
      (((Shape.Reads.required "depth" rfl (.u32 depth)).map CaptureKind.enclosingInstance).record
        (by simp))
  | boundReceiver => exact .plain rfl

theorem Instantiation.reads (i : Instantiation) : Reads n Doc.instantiation i.toJson i := by
  refine Reads.of_succ ?_
  cases i with
  | singleton init => exact .carrying rfl rfl (init.reads.map Instantiation.singleton)
  | perEvaluation => exact .plain rfl

theorem Stmt.reads_block {ss : List Stmt} (hf : FiniteDoubles (Stmt.nodes ss)) :
    Reads n (Doc.items Doc.stmt) (Stmt.blockToJson ss) ss := by
  rw [Stmt.blockToJson, Stmt.listToJson_eq]
  exact .items ss fun s hs => .of_height (Stmt.readBack_of_mem hf s hs)

theorem Field.reads {f : Field} (hf : ∀ e ∈ f.init, FiniteDoubles e.nodes) :
    Reads n Doc.field f.toJson f := by
  rw [Field.toJson, Expr.optionToJson_eq]
  exact (Shape.Reads.required "name" rfl (.string f.name)).map Field.mk
    |>.seq (.required "ty" rfl f.ty.reads)
    |>.seq (.required "is_static" rfl (.boolean f.isStatic))
    |>.seq (.required "is_final" rfl (.boolean f.isFinal))
    |>.seq (.optional "init" rfl f.init fun e he =>
      .of_height (shapeSteps_readBack.expr e (hf e he)))
    |>.record (by simp)

theorem Method.reads {m : Method} (hf : ∀ b ∈ m.body, FiniteDoubles (Stmt.nodes b)) :
    Reads n Doc.method m.toJson m := by
  rw [Method.toJson, Stmt.optionToJson_eq]
  exact (Shape.Reads.required "name" rfl (.string m.name)).map Method.mk
    |>.seq (.required "type_params" rfl (.items m.typeParams fun p _ => p.reads))
    |>.seq (.required "params" rfl (.items m.params fun p _ => p.reads))
    |>.seq (.required "return_type" rfl m.returnType.reads)
    |>.seq (.required "throws" rfl (Ty.reads_list m.throws))
    |>.seq (.required "kind" rfl m.kind.reads)
    |>.seq (.required "is_static" rfl (.boolean m.isStatic))
    |>.seq (.required "is_abstract" rfl (.boolean m.isAbstract))
    |>.seq (.required "is_default" rfl (.boolean m.isDefault))
    |>.seq (.required "is_varargs" rfl (.boolean m.isVarargs))
    |>.seq (.optional "body" rfl m.body fun b hb => Stmt.reads_block (hf b hb))
    |>.seq m.span.reads_default
    |>.record (by simp)

theorem Initializer.reads {i : Initializer} (hf : FiniteDoubles (Stmt.nodes i.body)) :
    Reads n Doc.initializer i.toJson i :=
  (Shape.Reads.required "is_static" rfl (.boolean i.isStatic)).map Initializer.mk
    |>.seq (.required "body" rfl (Stmt.reads_block hf))
    |>.record (by simp)

theorem AdapterInfo.reads (a : AdapterInfo) : Reads n Doc.adapterInfo a.toJson a :=
  (Shape.Reads.required "site" rfl a.site.reads).map AdapterInfo.mk
    |>.seq (.required "enclosing" rfl (.u32 a.enclosing))
    |>.seq (.required "functional_interface" rfl a.functionalInterface.reads)
    |>.seq (.required "sam" rfl (.string a.sam))
    |>.seq (.required "markers" rfl (.items a.markers fun c _ => c.reads))
    |>.seq (.required "captures" rfl (.items a.captures fun c _ => c.reads))
    |>.seq (.optional "super_dispatch" rfl a.superDispatch fun id _ => .u32 id)
    |>.seq (.required "instantiation" rfl a.instantiation.reads)
    |>.record (by simp)

theorem TypeDecl.reads {d : TypeDecl} (hf : FiniteDoubles d.nodes) :
    Reads n Doc.typeDecl d.toJson d := by
  have hfield : ∀ f ∈ d.fields, ∀ e ∈ f.init, FiniteDoubles e.nodes := by
    intro f hm e he
    refine hf.subset fun m h => List.mem_append_left _ (List.mem_flatMap.mpr ⟨f, hm, ?_⟩)
    rwa [Option.mem_def.mp he, Expr.walkOption]
  have hinit : ∀ i ∈ d.initializers, FiniteDoubles (Stmt.nodes i.body) := fun i hm =>
    hf.subset fun m h => List.mem_append_right _
      (List.mem_append_left _ (List.mem_flatMap.mpr ⟨i, hm, h⟩))
  have hmethod : ∀ m ∈ d.methods, ∀ b ∈ m.body, FiniteDoubles (Stmt.nodes b) := by
    intro m hm b hb
    refine hf.subset fun x h => List.mem_append_right _
      (List.mem_append_right _ (List.mem_flatMap.mpr ⟨m, hm, ?_⟩))
    rwa [Option.mem_def.mp hb, Stmt.walkOption]
  exact (Shape.Reads.required "id" rfl (.u32 d.id)).map TypeDecl.mk
    |>.seq (.required "name" rfl (.string d.name))
    |>.seq (.required "kind" rfl d.kind.reads)
    |>.seq (.required "is_interface" rfl (.boolean d.isInterface))
    |>.seq (.required "is_abstract" rfl (.boolean d.isAbstract))
    |>.seq (.required "is_static" rfl (.boolean d.isStatic))
    |>.seq (.optional "outer" rfl d.outer fun id _ => .u32 id)
    |>.seq (.required "type_params" rfl (.items d.typeParams fun p _ => p.reads))
    |>.seq (.optional "superclass" rfl d.superclass fun c _ => c.reads)
    |>.seq (.required "interfaces" rfl (.items d.interfaces fun c _ => c.reads))
    |>.seq (.required "fields" rfl (.items d.fields fun f hm => Field.reads (hfield f hm)))
    |>.seq (.required "methods" rfl (.items d.methods fun m hm => Method.reads (hmethod m hm)))
    |>.seq (.required "initializers" rfl (.items d.initializers fun i hm =>
      Initializer.reads (hinit i hm)))
    |>.seq (.absentable "adapter" rfl d.adapter fun a _ => a.reads)
    |>.seq d.span.reads_default
    |>.record (by simp)

/-- Every double literal in the code of a unit is finite. -/
def CompilationUnit.FiniteDoubles (u : CompilationUnit) : Prop :=
  ∀ d ∈ u.types, Closures.FiniteDoubles d.nodes

theorem CompilationUnit.reads {u : CompilationUnit} (hf : u.FiniteDoubles) :
    Reads n Doc.compilationUnit u.toJson u :=
  (Shape.Reads.required "name" rfl (.string u.name)).map CompilationUnit.mk
    |>.seq (.absentable "source_path" rfl u.sourcePath fun s _ => .string s)
    |>.seq (.required "types" rfl (.items u.types fun d hd => TypeDecl.reads (hf d hd)))
    |>.record (by simp)

/-- **A unit survives JSON.** Decoding what a unit with finite doubles is
encoded as gives the unit back. So does decoding any document of that value from
which absent values, empty type arguments and dummy spans are left out,
whichever of them and however deep. -/
theorem unit_survives_json {u : CompilationUnit} (hu : u.FiniteDoubles) :
    Doc.compilationUnit (Doc.ofJson u.toJson) = .ok u ∧
      ∀ v : Json, u.toJson.Trims v → ∀ d : Doc, d.Shows v → Doc.compilationUnit d = .ok u := by
  have hread : ∀ d : Doc, d.Carries u.toJson → Doc.compilationUnit d = .ok u := fun d hd =>
    (CompilationUnit.reads hu).recovers d hd (Nat.le_refl d.height)
  exact ⟨hread _ ⟨_, .refl _, Doc.shows_ofJson _⟩, fun v hv d hd => hread d ⟨v, hv, hd⟩⟩

namespace Tariff

/-- A method reference without type arguments or a source text. -/
def maker : MethodRef := ⟨.type (.declared 0 []), .new, [], .object, .dummy⟩

/-- A class with fields that start as a double, as a closure, as `null`, and as
nothing. -/
def unit : CompilationUnit where
  name := "tariff"
  sourcePath := none
  types := [
    { TypeDecl.empty 0 "Tariff" .topLevel with
      fields := [
        ⟨"rate", .primitive .double, true, false, some (.double 2.5)⟩,
        ⟨"maker", .object, true, false, some (.methodRef maker)⟩,
        ⟨"label", .string, true, false, some .null⟩,
        ⟨"note", .string, true, false, none⟩] }]

/-- A static field that is not final, with or without an initializer. -/
def field (name : String) (ty : Json) (init : List (String × Json)) : Json :=
  .obj ([("name", .str name), ("ty", ty), ("is_static", .bool true), ("is_final", .bool false)]
    ++ init)

/-- The unit as JSON without anything that may be left out. -/
def brief : Json :=
  .obj [("name", .str "tariff"), ("types", .arr [.obj [
    ("id", .u32 0), ("name", .str "Tariff"), ("kind", .str "TopLevel"),
    ("is_interface", .bool false), ("is_abstract", .bool false), ("is_static", .bool true),
    ("type_params", .arr []), ("interfaces", .arr []),
    ("fields", .arr [
      field "rate" (.tagged "Primitive" (.str "Double")) [("init", .tagged "Double" (.float 2.5))],
      field "maker" (.str "Object") [("init", .tagged "MethodRef" (.obj [
        ("qualifier", .tagged "Type" (Ty.declared 0 []).toJson), ("member", .str "New"),
        ("target", .str "Object")]))],
      field "label" (.str "String") [("init", .str "Null")],
      field "note" (.str "String") []]),
    ("methods", .arr []), ("initializers", .arr [])]])]

theorem finiteDoubles : unit.FiniteDoubles := by
  intro d hd x hx
  obtain rfl := List.mem_singleton.mp hd
  have hx : Node.expr (.double x) ∈
      [.expr (.double 2.5), .expr (.methodRef maker), Node.expr .null] := hx
  have hx : x = 2.5 := by simpa using hx
  rw [hx]
  decide

theorem trims_brief : unit.toJson.Trims brief := by
  have hmaker : maker.toJson.Trims _ :=
    .obj (.keep (.refl _) (.keep (.refl _) (.drop .typeArgs (.keep (.refl _) (.drop .span .nil)))))
  have hfield : (Field.toJson ⟨"maker", .object, true, false, some (.methodRef maker)⟩).Trims _ :=
    .obj (.append [_, _, _, _] (.keep (.obj (.keep hmaker .nil)) .nil))
  have hnote : (Field.toJson ⟨"note", .string, true, false, none⟩).Trims _ :=
    .obj (.append [_, _, _, _] (.drop (.absent (by decide)) .nil))
  have hdecl : List.Forall₂ Json.Trims (unit.types.map TypeDecl.toJson) _ :=
    .cons (.obj (.append [_, _, _, _, _, _] (.drop (.absent (by decide)) (.keep (.refl _)
      (.drop (.absent (by decide)) (.keep (.refl _)
        (.keep (.arr (.cons (.refl _) (.cons hfield (.cons (.refl _) (.cons hnote .nil)))))
          (.append [_, _] (.drop (.absent (by decide)) (.drop .span .nil)))))))))) .nil
  exact .obj (.keep (.refl _) (.drop (.absent (by decide)) (.keep (.arr hdecl) .nil)))

end Tariff

/-- The unit with a double, an empty list of type arguments and both kinds of
`null` comes back from its brief form. -/
theorem unit_survives_json_tariff :
    Tariff.unit.FiniteDoubles ∧ Tariff.unit.toJson.Trims Tariff.brief ∧
      Doc.compilationUnit (Doc.ofJson Tariff.unit.toJson) = .ok Tariff.unit ∧
      Doc.compilationUnit (Doc.ofJson Tariff.brief) = .ok Tariff.unit := by
  have h := unit_survives_json Tariff.finiteDoubles
  exact ⟨Tariff.finiteDoubles, Tariff.trims_brief, h.1,
    h.2 _ Tariff.trims_brief _ (Doc.shows_ofJson _)⟩

end Closures
