import Closures.Proofs.SiteMarks
import Closures.Proofs.UnitLowering

/-!
# Sites and their adapters

Lowering takes sites away and puts constructions in their place, one for one.
`Trade` says so about a piece of the work: which adapters it made, that their
numbers follow each other in the order in which the walk meets the sites, and
that every construction there is afterwards, in the tree or in a new adapter,
was there before or is that of one new adapter. Trades follow one another
(`Trade.append`), and a site adds one adapter to the trade of what is inside it
(`Trade.site`). Along the shape of trees this becomes a statement about bodies,
declarations, partitions and whole units.
-/

set_option autoImplicit false

namespace Closures

/-! ## Spans and constructions -/

/-- The span of a site. -/
def Mark.span? : Mark → Option Span
  | .site span => some span
  | .construct _ _ => none

/-- What a construction names and how many captures it has. -/
def Mark.construction? : Mark → Option (ClassId × Option Nat)
  | .site _ => none
  | .construct a n => some (a, n)

/-- The spans of the sites among marks. -/
def spans (ms : List Mark) : List Span := ms.filterMap Mark.span?

/-- The constructions among marks. -/
def constructions (ms : List Mark) : List (ClassId × Option Nat) := ms.filterMap Mark.construction?

theorem spans_append (ms ms' : List Mark) : spans (ms ++ ms') = spans ms ++ spans ms' :=
  List.filterMap_append

theorem spans_site_cons (span : Span) (ms : List Mark) :
    spans (.site span :: ms) = span :: spans ms := rfl

theorem constructions_site_cons (span : Span) (ms : List Mark) :
    constructions (.site span :: ms) = constructions ms := rfl

theorem constructions_append (ms ms' : List Mark) :
    constructions (ms ++ ms') = constructions ms ++ constructions ms' := List.filterMap_append

/-- The marks of the initializer of a field. -/
def Field.marks (f : Field) : List Mark := f.init.toList.flatMap Expr.marks

/-- The marks of an initializer block. -/
def Initializer.marks (i : Initializer) : List Mark := Stmt.marksAll i.body

/-- The marks of the body of a method. -/
def Method.marks (m : Method) : List Mark := m.body.toList.flatMap Stmt.marksAll

namespace TypeDecl

/-- The marks of a declaration. -/
def marks (d : TypeDecl) : List Mark := Closures.marks d.nodes

theorem marks_eq (d : TypeDecl) :
    d.marks = d.fields.flatMap Field.marks
      ++ (d.initializers.flatMap Initializer.marks ++ d.methods.flatMap Method.marks) := by
  rw [marks, nodes, marks_append, marks_append, marks_flatMap, marks_flatMap, marks_flatMap]
  congr 1
  · refine List.flatMap_congr fun f _ => ?_
    rw [Expr.walkOption_eq, marks_flatMap]
    rfl
  congr 1
  · exact List.flatMap_congr fun i _ => Stmt.marks_nodes i.body
  · refine List.flatMap_congr fun m _ => ?_
    cases hm : m.body with
    | none => rw [Method.marks, hm]; rfl
    | some b =>
      rw [Method.marks, hm, Option.toList_some, List.flatMap_singleton]
      exact Stmt.marks_nodes b

/-- The sites of a declaration are as many as their spans. -/
theorem siteCount_eq (d : TypeDecl) : d.siteCount = (spans d.marks).length := by
  rw [siteCount, marks]
  induction d.nodes with
  | nil => rfl
  | cons n ns ih =>
    rw [List.countP_cons, ih, marks_cons, spans_append, List.length_append, Nat.add_comm]
    congr 1
    rcases n with s | e
    · rfl
    · cases e <;> rfl

/-- Where the site of an adapter is. -/
def site? (d : TypeDecl) : Option Span := d.adapter.map (·.site)

/-- The construction that makes instances of an adapter. -/
def construction (d : TypeDecl) : ClassId × Option Nat :=
  (d.id, if Lowering.isPerEvaluation d then some d.fields.length else none)

/-- The mark of that construction. -/
def mark (d : TypeDecl) : Mark := .construct d.construction.1 d.construction.2

theorem constructions_mark_cons (d : TypeDecl) (ms : List Mark) :
    constructions (d.mark :: ms) = d.construction :: constructions ms := rfl

/-- An adapter as lowering makes them. -/
structure IsAdapter (d : TypeDecl) : Prop where
  kind : d.kind = .adapter
  /-- It records one capture for each field. -/
  captures : ∃ info, d.adapter = some info ∧ info.captures.length = d.fields.length
  /-- Instances are made at each evaluation exactly if there are fields. -/
  perEvaluation : Lowering.isPerEvaluation d = !d.fields.isEmpty
  /-- No site is left in it. -/
  clean : spans d.marks = []

end TypeDecl

/-! ## The adapter of a closure -/

namespace Closure

variable {u : CompilationUnit} {policy : SingletonInit} {c : Closure}

theorem marks_decl : (c.decl u policy).marks = Stmt.marksAll c.body := by
  have hfields : (c.captures.slots.map field).flatMap
      (fun f => Expr.walkOption (fun _ => true) f.init) = [] :=
    List.flatMap_eq_nil_iff.mpr (List.forall_mem_map.mpr fun _ _ => rfl)
  rw [TypeDecl.marks, TypeDecl.nodes, decl, hfields]
  change marks (Stmt.nodes c.body ++ []) = _
  rw [List.append_nil, Stmt.marks_nodes]

theorem isPerEvaluation_decl : Lowering.isPerEvaluation (c.decl u policy) = c.isCapturing := by
  change (c.instantiation policy == .perEvaluation) = _
  rw [instantiation]
  cases c.isCapturing <;> rfl

theorem isAdapter_decl (hslots : c.captures.isEmpty = c.captures.slots.isEmpty)
    (hbody : spans (Stmt.marksAll c.body) = []) : (c.decl u policy).IsAdapter where
  kind := rfl
  captures := ⟨c.info policy, rfl, by simp [info, decl]⟩
  perEvaluation := by
    rw [isPerEvaluation_decl, isCapturing, hslots]
    change _ = !(c.captures.slots.map field).isEmpty
    rw [List.isEmpty_map]
  clean := by rw [marks_decl, hbody]

/-- **What stands for a site constructs its adapter**, with one operand for each
field. -/
theorem marks_replacement (u : CompilationUnit) (policy : SingletonInit) {operands : List Expr}
    (hslots : c.captures.isEmpty = c.captures.slots.isEmpty)
    (hlen : operands.length = c.captures.slots.length) :
    (c.replacement operands).marks = (c.decl u policy).mark :: operands.flatMap Expr.marks := by
  have hfields : (c.decl u policy).fields.length = c.captures.slots.length := List.length_map _
  rw [TypeDecl.mark, TypeDecl.construction, isPerEvaluation_decl, hfields, replacement]
  cases hc : c.isCapturing with
  | true =>
    rw [if_pos rfl, if_pos rfl, Expr.marks_eq rfl, ← hlen]
    rfl
  | false =>
    rw [isCapturing, hslots, Bool.not_eq_false', List.isEmpty_iff] at hc
    rw [hc] at hlen
    rw [List.length_eq_zero_iff.mp hlen]
    rfl

end Closure

/-! ## Numbers -/

/-- Sites numbered from a first number on. -/
def numbered : ClassId → List Span → List (ClassId × Option Span)
  | _, [] => []
  | next, span :: rest => (next, some span) :: numbered (next + 1) rest

theorem toUInt32_add (m n : Nat) : (m + n).toUInt32 = m.toUInt32 + n.toUInt32 :=
  UInt32.ofNat_add m n

theorem add_toUInt32_add (next : ClassId) (m n : Nat) :
    next + (m + n).toUInt32 = next + m.toUInt32 + n.toUInt32 := by
  rw [toUInt32_add, UInt32.add_assoc]

theorem numbered_append (next : ClassId) (ss ss' : List Span) :
    numbered next (ss ++ ss') = numbered next ss ++ numbered (next + ss.length.toUInt32) ss' := by
  induction ss generalizing next with
  | nil => simp [numbered]
  | cons s ss ih =>
    rw [List.cons_append, numbered, ih, numbered, List.cons_append, List.length_cons,
      Nat.add_comm ss.length, add_toUInt32_add]
    rfl

/-! ## Trades -/

namespace Lowering

/-- **A piece of lowering**: it leads from one state of progress to another and
from marks to marks, and makes the adapters `new`, last first. -/
structure Trade (p p' : Progress) (ms ms' : List Mark) (new : List TypeDecl) : Prop where
  adapters : p'.adapters = new ++ p.adapters
  next : p'.nextAdapter = p.nextAdapter + (spans ms).length.toUInt32
  /-- No site is left. -/
  clean : spans ms' = []
  /-- Constructions are kept, and each new adapter has one. -/
  built : ∀ x, (constructions ms').count x + (new.flatMap fun d => constructions d.marks).count x =
    (constructions ms).count x + (new.map TypeDecl.construction).count x
  /-- Adapters are numbered in the order of the sites. -/
  sites : (new.map fun d => (d.id, d.site?)).Perm (numbered p.nextAdapter (spans ms))
  wellFormed : ∀ d ∈ new, d.IsAdapter

namespace Trade

variable {p p₁ p₂ p' : Progress} {ms ms₁ ms₂ ms₁' ms₂' : List Mark} {new₁ new₂ : List TypeDecl}

/-- Where there are no sites nothing happens. -/
theorem refl (h : spans ms = []) : Trade p p ms ms [] where
  adapters := rfl
  next := by rw [h]; exact (UInt32.add_zero _).symm
  clean := h
  built x := rfl
  sites := by rw [h]; exact .nil
  wellFormed := fun _ h => nomatch h

/-- Trades follow one another. -/
theorem append (h₁ : Trade p p₁ ms₁ ms₁' new₁) (h₂ : Trade p₁ p' ms₂ ms₂' new₂) :
    Trade p p' (ms₁ ++ ms₂) (ms₁' ++ ms₂') (new₂ ++ new₁) where
  adapters := by rw [h₂.adapters, h₁.adapters, List.append_assoc]
  next := by rw [h₂.next, h₁.next, spans_append, List.length_append, add_toUInt32_add]
  clean := by rw [spans_append, h₁.clean, h₂.clean]; rfl
  built x := by
    have e₁ := h₁.built x
    have e₂ := h₂.built x
    simp only [constructions_append, List.flatMap_append, List.map_append, List.count_append]
    omega
  sites := by
    rw [spans_append, numbered_append, ← h₁.next, List.map_append]
    exact List.perm_append_comm.trans (h₁.sites.append h₂.sites)
  wellFormed := List.forall_mem_append.mpr ⟨h₂.wellFormed, h₁.wellFormed⟩

/-- **A site makes one more adapter.** What was inside the site is afterwards
among the operands of its replacement or in the body of its adapter. -/
theorem site {cx : Context} {c : Closure} {operands : List Expr} {inner inner' : List Mark}
    {new : List TypeDecl} (h : Trade (cx.allocated p) p₁ inner inner' new) (hsame : p₁.SameSites p₂)
    (hid : c.adapter = p.nextAdapter) (hslots : c.captures.isEmpty = c.captures.slots.isEmpty)
    (hlen : operands.length = c.captures.slots.length)
    (hinner : operands.flatMap Expr.marks ++ Stmt.marksAll c.body = inner') :
    Trade p (cx.finished c p₂) (.site c.span :: inner) (c.replacement operands).marks
      (c.decl cx.unit cx.policy :: new) := by
  obtain ⟨next, rfl⟩ := hsame
  subst hinner
  have hclean := h.clean
  rw [spans_append, List.append_eq_nil_iff] at hclean
  rw [Closure.marks_replacement cx.unit cx.policy hslots hlen]
  refine ⟨?_, ?_, hclean.1, fun x => ?_, ?_, List.forall_mem_cons.mpr
    ⟨Closure.isAdapter_decl hslots hclean.2, h.wellFormed⟩⟩
  · exact congrArg _ h.adapters
  · refine h.next.trans ?_
    rw [spans_site_cons, List.length_cons, Nat.add_comm, add_toUInt32_add]
    rfl
  · have e := h.built x
    simp only [constructions_append, List.count_append] at e
    simp only [TypeDecl.constructions_mark_cons, constructions_site_cons, List.flatMap_cons,
      List.map_cons, List.count_append, List.count_cons, Closure.marks_decl]
    omega
  · change List.Perm ((c.adapter, some c.span) :: _) ((p.nextAdapter, some c.span) :: _)
    rw [hid]
    exact h.sites.cons _

end Trade

/-! ## Trees -/

/-- Some adapters make a trade. -/
def Trades (p p' : Progress) (ms ms' : List Mark) : Prop := ∃ new, Trade p p' ms ms' new

theorem Trades.refl {p : Progress} {ms : List Mark} (h : spans ms = []) : Trades p p ms ms :=
  ⟨[], .refl h⟩

theorem Trades.append {p p₁ p' : Progress} {ms₁ ms₂ ms₁' ms₂' : List Mark}
    (h₁ : Trades p p₁ ms₁ ms₁') (h₂ : Trades p₁ p' ms₂ ms₂') :
    Trades p p' (ms₁ ++ ms₂) (ms₁' ++ ms₂') := by
  obtain ⟨new₁, h₁⟩ := h₁
  obtain ⟨new₂, h₂⟩ := h₂
  exact ⟨_, h₁.append h₂⟩

/-- A run through a list trades for each of its elements. -/
theorem Trades.mapM {α β : Type} {f : α → Step β} {μ : α → List Mark} {ν : β → List Mark}
    {as : List α} {p p' : Progress} {bs : List β} (h : as.mapM f p = .ok (bs, p'))
    (hf : ∀ a ∈ as, ∀ p b p', f a p = .ok (b, p') → Trades p p' (μ a) (ν b)) :
    Trades p p' (as.flatMap μ) (bs.flatMap ν) := by
  induction as generalizing p bs with
  | nil =>
    cases h
    exact .refl rfl
  | cons a as ih =>
    rw [List.mapM_cons, bind_run_eq_ok] at h
    obtain ⟨b, p₁, hb, h⟩ := h
    obtain ⟨rest, p₂, hrest, h⟩ := bind_run_eq_ok.mp h
    cases h
    rw [List.forall_mem_cons] at hf
    exact (hf.1 p b p₁ hb).append (ih hrest hf.2)

/-! ### Sites -/

theorem Bridge.marksAll_eq {p : Param} {r : Param × List Stmt} (h : Bridge p r) :
    Stmt.marksAll r.2 = [] := by
  cases h with
  | same => rfl
  | declared hw _ =>
    have hmarks : _ = [] := hw.marks_eq
    simpa [Stmt.marksAll, Stmt.marks_eq, Stmt.parts, Part.marks] using hmarks

theorem LambdaRun.marks_eq {cx : Context} {scope : Scope} {l : Lambda} {start : Progress}
    (run : LambdaRun cx scope l start) :
    run.operands.flatMap Expr.marks ++ Stmt.marksAll run.closure.body =
      (run.body.part l.params).marks := by
  have hoperands : run.operands.flatMap Expr.marks = [] := by
    rw [operands, CaptureSet.operands, List.flatMap_map, List.flatMap_eq_nil_iff]
    exact fun slot _ => CaptureSet.marks_operand _ none slot (.inl rfl)
  have hbridged : Stmt.marksAll (run.bridged.flatMap (·.2)) = [] := by
    rw [Stmt.marksAll, List.flatMap_assoc, List.flatMap_eq_nil_iff]
    intro r hr
    obtain ⟨p, hbridge⟩ := run.exists_bridge hr
    exact hbridge.marksAll_eq
  rw [hoperands, closure, Stmt.marksAll_append, hbridged, CaptureSet.marks_redirectAll,
    marksAll_lambdaStatements run.stmts_eq l.params]
  rfl

theorem marks_operands_of_formOf {s : Site} {q : RefQualifier} {form : Reference.Form}
    (h : Reference.FormOf s q form) :
    ((CaptureSet.ofReference s form).operands s (receiverOf form q)).flatMap Expr.marks =
      q.children.flatMap Expr.marks := by
  cases h with
  | value e t m => exact congrArg (· ++ []) (Expr.marks_wrap rfl rfl rfl)
  | @instance_ _ _ _ depth => cases depth <;> rfl
  | @constructor _ _ _ depth? => rcases depth? with _ | _ | _ <;> rfl
  | @super _ _ depth => cases depth <;> rfl
  | static | unbound | newArray => rfl

theorem ReferenceRun.marks_eq {cx : Context} {scope : Scope} {ref : MethodRef} {start : Progress}
    (run : ReferenceRun cx scope ref start) :
    run.operands.flatMap Expr.marks ++ Stmt.marksAll run.closure.body =
      run.qualifier.children.flatMap Expr.marks := by
  have hargs : ∀ a ∈ referenceArgs cx.unit run.sam run.params, a.1.marks = [] := by
    intro a ha
    obtain ⟨p, -, hw⟩ := referenceArgs_wraps ha
    exact hw.marks_eq
  rw [operands, captures, marks_operands_of_formOf (Reference.formOf_resolve run.resolved_eq),
    closure,
    marksAll_returnValue run.body_eq, marks_referenceCall hargs run.call_eq, List.append_nil]

/-! ### Nodes -/

section Trees

variable {cx : Context}

/-- Lowering an expression is a trade. -/
def ExprTrades (cx : Context) (e : Expr) : Prop :=
  ∀ scope p e' p', lowerExpr cx scope e p = .ok (e', p') → Trades p p' e.marks e'.marks

/-- Lowering a statement is a trade. -/
def StmtTrades (cx : Context) (s : Stmt) : Prop :=
  ∀ scope p s' p', lowerStmt cx scope s p = .ok (s', p') → Trades p p' s.marks s'.marks

theorem trades_exprs {es : List Expr} (hes : ∀ e ∈ es, ExprTrades cx e) {scope : Scope} :
    ∀ {p es' p'}, lowerExprs cx scope es p = .ok (es', p') →
      Trades p p' (es.flatMap Expr.marks) (es'.flatMap Expr.marks) := by
  induction es with
  | nil =>
    intro p es' p' h
    cases h
    exact .refl rfl
  | cons e es ih =>
    intro p es' p' h
    rw [List.forall_mem_cons] at hes
    obtain ⟨e', p₁, rest, he, hrest, rfl⟩ := lowerExprs_cons_eq_ok h
    exact (hes.1 scope p e' p₁ he).append (ih hes.2 hrest)

theorem trades_stmts {ss : List Stmt} (hss : ∀ s ∈ ss, StmtTrades cx s) :
    ∀ {scope p ss' p'}, lowerStmts cx scope ss p = .ok (ss', p') →
      Trades p p' (Stmt.marksAll ss) (Stmt.marksAll ss') := by
  induction ss with
  | nil =>
    intro scope p ss' p' h
    cases h
    exact .refl rfl
  | cons s ss ih =>
    intro scope p ss' p' h
    rw [List.forall_mem_cons] at hss
    obtain ⟨s', p₁, rest, hs, hrest, rfl⟩ := lowerStmts_cons_eq_ok h
    exact (hss.1 scope p s' p₁ hs).append (ih hss.2 hrest)

theorem trades_part {part part' : Part} (h : part.All (ExprTrades cx) (StmtTrades cx))
    {scope : Scope} {p p' : Progress} (hrun : lowerPart cx scope part p = .ok (part', p')) :
    Trades p p' part.marks part'.marks := by
  cases part with
  | exprs bs es =>
    obtain ⟨es', p₁, hes, hpart⟩ := map_run_eq_ok.mp hrun
    cases hpart
    exact trades_exprs h hes
  | stmts bs ss =>
    obtain ⟨ss', p₁, hss, hpart⟩ := map_run_eq_ok.mp hrun
    cases hpart
    exact trades_stmts h hss

theorem spans_mark? {e : Expr} (he : e.isSite = false) : spans (Node.expr e).mark?.toList = [] := by
  cases e
  case lambda | methodRef => cases he
  all_goals rfl

/-- The lowering of a node that is no site trades what is below it. -/
theorem exprTrades_of_children {e : Expr} (he : e.isSite = false)
    (hc : ∀ c ∈ e.children, ExprTrades cx c) : ExprTrades cx e := by
  intro scope p e' p' h
  have hlambda : e.isLambda = false := by
    cases e
    case lambda => cases he
    all_goals rfl
  obtain ⟨cs, hcs, hlen, rfl⟩ := lowerExpr_eq_ok he h
  rw [Expr.marks_eq hlambda, Expr.marks_eq (Expr.isLambda_withChildren hlambda),
    Expr.mark?_withChildren hlen, Expr.children_withChildren hlen]
  exact (Trades.refl (spans_mark? he)).append (trades_exprs hc hcs)

/-- The lowering of a method reference makes an adapter for it, and trades what
is in its qualifier. -/
theorem exprTrades_methodRef {ref : MethodRef}
    (hc : ∀ c ∈ ref.qualifier.children, ExprTrades cx c) : ExprTrades cx (.methodRef ref) := by
  intro scope p e' p' h
  obtain ⟨run, rfl, rfl⟩ := exists_referenceRun h
  obtain ⟨new, htrade⟩ := trades_exprs hc run.children_eq
  rw [Expr.marks_eq rfl]
  exact ⟨_, htrade.site run.sameSites rfl (CaptureSet.isEmpty_ofReference ..) (List.length_map _)
    run.marks_eq⟩

/-- The lowering of a lambda makes an adapter for it, and trades what is in its
body. -/
theorem exprTrades_lambda {l : Lambda}
    (hbody : (l.body.part l.params).All (ExprTrades cx) (StmtTrades cx)) :
    ExprTrades cx (.lambda l) := by
  intro scope p e' p' h
  obtain ⟨run, rfl, rfl⟩ := exists_lambdaRun h
  obtain ⟨new, htrade⟩ := trades_part hbody (lowerPart_of_lowerBody run.body_eq)
  rw [Expr.marks_lambda]
  exact ⟨_, htrade.site run.sameSites rfl (CaptureSet.isEmpty_ofLambda run.captures_eq)
    (List.length_map _) run.marks_eq⟩

/-- **Lowering trades**, for all expressions and statements. -/
theorem shapeSteps_trades (cx : Context) : ShapeSteps (ExprTrades cx) (StmtTrades cx) where
  node e he hc := by
    cases e
    case lambda => cases he
    case methodRef ref => exact exprTrades_methodRef hc
    all_goals exact exprTrades_of_children rfl hc
  lambda l hbody := exprTrades_lambda hbody
  stmt s hparts := by
    intro scope p s' p' h
    rw [Stmt.marks_eq, Stmt.marks_eq]
    exact Trades.mapM (lowerStmt_eq_ok h) fun part hpart _ _ _ => trades_part (hparts part hpart)

end Trees

/-! ## Declarations -/

theorem trades_field {cx : Bool → Context} {f f' : Field} {p p' : Progress}
    (h : lowerField cx f p = .ok (f', p')) : Trades p p' f.marks f'.marks := by
  obtain ⟨init, p₁, hinit, h⟩ := bind_run_eq_ok.mp h
  cases h
  rw [lowerOption_eq] at hinit
  obtain ⟨es, p₁, hes, h⟩ := map_run_eq_ok.mp hinit
  cases h
  rw [Field.marks, Field.marks, toList_head? (length_lowerExprs hes)]
  exact trades_exprs ((shapeSteps_trades _).option f.init) hes

theorem trades_initializer {cx : Bool → Context} {i i' : Initializer} {p p' : Progress}
    (h : lowerInitializer cx i p = .ok (i', p')) : Trades p p' i.marks i'.marks := by
  obtain ⟨body, p₁, hbody, h⟩ := bind_run_eq_ok.mp h
  cases h
  exact trades_stmts ((shapeSteps_trades _).stmts i.body) hbody

theorem trades_method {cx : Bool → Context} {m m' : Method} {p p' : Progress}
    (h : lowerMethod cx m p = .ok (m', p')) : Trades p p' m.marks m'.marks := by
  obtain ⟨body, p₁, hbody, h⟩ := bind_run_eq_ok.mp h
  cases h
  cases hm : m.body with
  | none =>
    rw [hm] at hbody
    cases hbody
    rw [Method.marks, hm]
    exact .refl rfl
  | some b =>
    rw [hm, lowerBlock] at hbody
    obtain ⟨b', p₁, hb, h⟩ := bind_run_eq_ok.mp hbody
    cases h
    rw [Method.marks, Method.marks, hm, Option.toList_some, Option.toList_some,
      List.flatMap_singleton, List.flatMap_singleton]
    exact trades_stmts ((shapeSteps_trades _).stmts b) hb

/-- **Lowering a declaration trades.** -/
theorem trades_decl {u : CompilationUnit} {policy : SingletonInit} {d d' : TypeDecl}
    {p p' : Progress}
    (h : lowerDecl u policy d p = .ok (d', p')) : Trades p p' d.marks d'.marks := by
  obtain ⟨run⟩ := exists_declRun h
  rw [TypeDecl.marks_eq, TypeDecl.marks_eq]
  exact (Trades.mapM run.fields_eq fun _ _ _ _ _ => trades_field).append
    ((Trades.mapM run.initializers_eq fun _ _ _ _ _ => trades_initializer).append
      (Trades.mapM run.methods_eq fun _ _ _ _ _ => trades_method))

/-! ## Units -/

/-- A trade can start from any progress with the same next number. -/
theorem Trade.rebase {p p' q : Progress} {ms ms' : List Mark} {new : List TypeDecl}
    (h : Trade p p' ms ms' new) (hq : q.nextAdapter = p.nextAdapter) :
    Trade q { q with nextAdapter := p'.nextAdapter, adapters := new ++ q.adapters } ms ms' new where
  adapters := rfl
  next := by rw [hq, ← h.next]
  clean := h.clean
  built := h.built
  sites := by rw [hq]; exact h.sites
  wellFormed := h.wellFormed

theorem siteCount_eq (u : CompilationUnit) (top : ClassId) :
    siteCount u top = (spans ((declsOf u top).flatMap TypeDecl.marks)).length := by
  rw [siteCount]
  induction declsOf u top with
  | nil => rfl
  | cons d ds ih =>
    rw [List.foldr_cons, ih, List.flatMap_cons, spans_append, List.length_append,
      TypeDecl.siteCount_eq]

/-- **The work on a unit is one trade**, from the first free number on. -/
theorem UnitRun.trade {u v : CompilationUnit} {policy : SingletonInit} {summary : Summary}
    (run : UnitRun u policy v summary) :
    ∃ new stop, run.adapters.Perm new ∧
      Trade ⟨u.types.length.toUInt32, firstLocal u, [], []⟩ stop
        ((activeDecls u).flatMap TypeDecl.marks) (run.lowered.flatMap TypeDecl.marks) new := by
  suffices h : ∃ new stop, (run.results.flatMap (·.adapters)).Perm new ∧
      Trade ⟨u.types.length.toUInt32, firstLocal u, [], []⟩ stop
        ((activeDecls u).flatMap TypeDecl.marks) (run.lowered.flatMap TypeDecl.marks) new by
    obtain ⟨new, stop, hperm, htrade⟩ := h
    exact ⟨new, stop, (List.mergeSort_perm ..).trans hperm, htrade⟩
  rw [activeDecls, lowered]
  have hresults := run.results_eq
  generalize run.results = rs at hresults ⊢
  generalize u.types.length.toUInt32 = next at hresults ⊢
  generalize activeTops u = ts at hresults ⊢
  induction ts generalizing next rs with
  | nil =>
    cases hresults
    exact ⟨[], _, .nil, .refl rfl⟩
  | cons t ts ih =>
    rw [number] at hresults
    cases hresults with
    | @cons _ r _ rs hr hrs =>
      obtain ⟨stop, hdecls, hadapters⟩ := lowerPartition_eq_ok hr
      obtain ⟨new, hfirst⟩ := Trades.mapM hdecls fun _ _ _ _ _ => trades_decl
      obtain ⟨new', stop', hperm, hrest⟩ := ih _ _ hrs
      have hnext : stop.nextAdapter = next + (siteCount u t).toUInt32 := by
        rw [siteCount_eq, hfirst.next]
      have hall := hfirst.append (hrest.rebase hnext)
      rw [← List.flatMap_append, ← List.flatMap_append] at hall
      refine ⟨_, _, ?_, hall⟩
      have hstop : stop.adapters = new := hfirst.adapters.trans (List.append_nil _)
      rw [hstop] at hadapters
      rw [List.flatMap_cons, hadapters]
      exact List.perm_append_comm.trans (hperm.append (List.mergeSort_perm ..))

end Lowering

end Closures
