import Closures.Proofs.AdapterCorrespondence
import Closures.Proofs.RunInduction

/-!
# Lowering touches nothing but sites

Two trees agree outside some of their nodes if they become equal once these are
covered by one and the same expression (`Expr.cover`). A lowered declaration
agrees in this sense with the given one: the outermost sites of the latter are
where the constructions of new adapters are in the former, and all the rest is
in its place (`lower_frame`).

Covering is a replacement, and so is doing nothing. What is shared is the
induction along runs of lowering: two replacements give the same result, one
before and one after lowering, if they agree on nodes that are no sites and
treat a site as the construction that takes its place (`Lowering.Matching`).
-/

set_option autoImplicit false

namespace Closures

/-! ## Keeping children and parts -/

/-- An expression is made of its own children. -/
theorem Expr.withChildren_children (e : Expr) : e.withChildren e.children = e := by
  cases e
  case fieldGet r _ | fieldSet r _ _ => cases r <;> rfl
  case call r m args => cases r <;> rfl
  case new t c o args => cases o <;> rfl
  case methodRef site =>
    obtain ⟨q, m, ts, t, s⟩ := site
    cases q <;> rfl
  all_goals rfl

/-- Of children that are put in one after the other, the last ones count. -/
theorem Expr.withChildren_withChildren {e : Expr} {cs cs' : List Expr}
    (h : cs.length = e.children.length) (h' : cs'.length = e.children.length) :
    (e.withChildren cs).withChildren cs' = e.withChildren cs' := by
  cases e
  case fieldGet r f =>
    cases r with
    | none => rfl
    | some r =>
      obtain ⟨a, rfl⟩ := List.length_eq_one_iff.mp h'
      rfl
  case fieldSet r f v =>
    cases r with
    | none =>
      obtain ⟨a, rfl⟩ := List.length_eq_one_iff.mp h'
      rfl
    | some r =>
      obtain ⟨a, b, rfl⟩ := List.length_eq_two.mp h'
      rfl
  case call r m args =>
    cases r with
    | implicit | static | super => rfl
    | expr r | nonVirtual r =>
      obtain ⟨a, as, rfl⟩ := List.exists_cons_of_length_eq_add_one h'
      rfl
  case new t c o args =>
    cases o with
    | none => rfl
    | some o =>
      obtain ⟨a, as, rfl⟩ := List.exists_cons_of_length_eq_add_one h'
      rfl
  case methodRef site =>
    obtain ⟨q, m, ts, t, s⟩ := site
    cases q with
    | type | super => rfl
    | expr r t =>
      obtain ⟨a, rfl⟩ := List.length_eq_one_iff.mp h'
      rfl
  case arrayGet | binary | compare | logical =>
    obtain ⟨a, b, rfl⟩ := List.length_eq_two.mp h'
    rfl
  case arraySet | cond =>
    obtain ⟨a, b, c, rfl⟩ := List.length_eq_three.mp h'
    rfl
  case localSet | newArray | arrayLength | unary | cast | instanceOf | box | unbox | convert |
      nullCheck =>
    obtain ⟨a, rfl⟩ := List.length_eq_one_iff.mp h'
    rfl
  all_goals rfl

/-- A statement is made of its own parts. -/
theorem Stmt.withParts_parts (s : Stmt) : s.withParts s.parts = s := by
  cases s
  case declare p init => cases init <;> rfl
  case ret v => cases v <;> rfl
  case cond c t e => cases e <;> rfl
  case forLoop i c u b => cases c <;> rfl
  case tryCatch b handler final => rcases handler with _ | ⟨p, h⟩ <;> cases final <;> rfl
  all_goals rfl

/-- Of parts that are put in one after the other, the last ones count. -/
theorem Stmt.withParts_withParts {s : Stmt} (ps : List Part) {ps' : List Part}
    (h : List.Forall₂ Part.Like s.parts ps') :
    (s.withParts ps).withParts ps' = s.withParts ps' := by
  cases s
  case expr e | raise e | whileLoop e b | forEach v e b =>
    rcases h with _ | ⟨h₁, -⟩
    obtain ⟨es, rfl, hlen⟩ := h₁.exprs_left
    obtain ⟨a, rfl⟩ := List.length_eq_one_iff.mp hlen
    rfl
  case cond c t e =>
    rcases h with _ | ⟨h₁, -⟩
    obtain ⟨es, rfl, hlen⟩ := h₁.exprs_left
    obtain ⟨a, rfl⟩ := List.length_eq_one_iff.mp hlen
    cases e <;> rfl
  case tryCatch b handler final => cases handler <;> cases final <;> rfl
  all_goals rfl

/-! ## Replacing -/

section Replace

variable {f : Expr → Expr}

/-- Replace the expressions in the initializer of a field. -/
def Field.replace (f : Expr → Expr) (x : Field) : Field :=
  { x with init := x.init.map (Expr.replace f) }

/-- Replace the expressions in an initializer block. -/
def Initializer.replace (f : Expr → Expr) (i : Initializer) : Initializer :=
  { i with body := i.body.map (Stmt.replace f) }

/-- Replace the expressions in the body of a method. -/
def Method.replace (f : Expr → Expr) (m : Method) : Method :=
  { m with body := m.body.map (List.map (Stmt.replace f)) }

/-- Replace the expressions in the code of a declaration. -/
def TypeDecl.replace (f : Expr → Expr) (d : TypeDecl) : TypeDecl :=
  { d with
    fields := d.fields.map (Field.replace f)
    initializers := d.initializers.map (Initializer.replace f)
    methods := d.methods.map (Method.replace f) }

theorem LambdaBody.part_injective (params : List Param) : Function.Injective (part params) := by
  intro b b' h
  cases b <;> cases b' <;> cases h <;> rfl

section Fixed

variable {M : Mark → Prop}

theorem Part.replace_eq_self {p : Part} (h : p.All (fun e => (∀ m ∈ e.marks, M m) → e.replace f = e)
    fun s => (∀ m ∈ s.marks, M m) → s.replace f = s) (hm : ∀ m ∈ p.marks, M m) :
      p.replace f = p := by
  cases p with
  | exprs bs es =>
    rw [marks, List.forall_mem_flatMap] at hm
    rw [replace, List.map_congr_left fun e he => h e he (hm e he), List.map_id']
  | stmts bs ss =>
    rw [marks, List.forall_mem_flatMap] at hm
    rw [replace, List.map_congr_left fun s hs => h s hs (hm s hs), List.map_id']

/-- A replacement that leaves all nodes as they are leaves trees as they are,
where only certain marks occur. -/
theorem shapeSteps_replace_eq_self (hf : ∀ e : Expr, (∀ m ∈ (Node.expr e).mark?, M m) → f e = e) :
    ShapeSteps (fun e => (∀ m ∈ e.marks, M m) → e.replace f = e)
      fun s => (∀ m ∈ s.marks, M m) → s.replace f = s where
  node e he ih hm := by
    rw [Expr.marks_eq he, List.forall_mem_append, List.forall_mem_flatMap] at hm
    rw [Expr.replace_eq he, List.map_congr_left fun c hc => ih c hc (hm.2 c hc), List.map_id',
      Expr.withChildren_children]
    exact hf e fun m h => hm.1 m (Option.mem_toList.mpr h)
  lambda l ih hm := by
    rw [Expr.marks_lambda, List.forall_mem_cons] at hm
    obtain ⟨ps, b, bt, t, s⟩ := l
    have hbody : b.replace f = b := by
      apply LambdaBody.part_injective ps
      rw [LambdaBody.part_replace, Part.replace_eq_self ih hm.2]
    rw [Expr.replace_lambda, hbody]
    refine hf _ fun m h => ?_
    cases h
    exact hm.1
  stmt s ih hm := by
    rw [Stmt.marks_eq, List.forall_mem_flatMap] at hm
    have hparts : s.parts.map (Part.replace f) = s.parts := by
      rw [List.map_congr_left fun p hp => Part.replace_eq_self (ih p hp) (hm p hp), List.map_id']
    rw [Stmt.replace_eq, hparts, Stmt.withParts_parts]

theorem TypeDecl.replace_eq_self (hf : ∀ e : Expr, (∀ m ∈ (Node.expr e).mark?, M m) → f e = e)
    {d : TypeDecl} (hm : ∀ m ∈ d.marks, M m) : d.replace f = d := by
  have hfix := shapeSteps_replace_eq_self hf
  have hstmts : ∀ ss : List Stmt, (∀ m ∈ Stmt.marksAll ss, M m) → ss.map (Stmt.replace f) = ss := by
    intro ss hm
    rw [Stmt.marksAll, List.forall_mem_flatMap] at hm
    rw [List.map_congr_left fun s hs => hfix.statement s (hm s hs), List.map_id']
  rw [marks_eq, List.forall_mem_append, List.forall_mem_append, List.forall_mem_flatMap,
    List.forall_mem_flatMap, List.forall_mem_flatMap] at hm
  have hfields : d.fields.map (Field.replace f) = d.fields := by
    refine (List.map_congr_left fun x hx => ?_).trans (List.map_id' _)
    have hmarks := hm.1 x hx
    rw [Field.marks] at hmarks
    have hinit : x.init.map (Expr.replace f) = x.init := by
      cases h : x.init with
      | none => rfl
      | some e =>
        rw [h, Option.toList_some, List.flatMap_singleton] at hmarks
        exact congrArg some (hfix.expr e hmarks)
    rw [Field.replace, hinit]
  have hinitializers : d.initializers.map (Initializer.replace f) = d.initializers := by
    refine (List.map_congr_left fun i hi => ?_).trans (List.map_id' _)
    rw [Initializer.replace, hstmts i.body (hm.2.1 i hi)]
  have hmethods : d.methods.map (Method.replace f) = d.methods := by
    refine (List.map_congr_left fun x hx => ?_).trans (List.map_id' _)
    have hmarks := hm.2.2 x hx
    rw [Method.marks] at hmarks
    have hbody : x.body.map (List.map (Stmt.replace f)) = x.body := by
      cases h : x.body with
      | none => rfl
      | some b =>
        rw [h, Option.toList_some, List.flatMap_singleton] at hmarks
        exact congrArg some (hstmts b hmarks)
    rw [Method.replace, hbody]
  rw [replace, hfields, hinitializers, hmethods]

end Fixed

end Replace

/-! ## Matching replacements -/

namespace Lowering

/-- Two replacements that give the same result, one before and one after
lowering, where adapters have numbers from `n` on and only certain marks occur:
they agree on nodes that are no sites, and treat a site as the construction that
takes its place. -/
structure Matching (n : Nat) (M : Mark → Prop) (f g : Expr → Expr) : Prop where
  node : ∀ e : Expr, e.isSite = false → (∀ m ∈ (Node.expr e).mark?, M m) → g e = f e
  site : ∀ e : Expr, e.isSite = true → (∀ m ∈ (Node.expr e).mark?, M m) →
    ∀ (c : Closure) (operands : List Expr), n ≤ c.adapter.toNat → g (c.replacement operands) = f e

/-- Once all adapters have numbers from `n` on, what certain marks occur in
gives the same result before and after lowering. -/
def Agrees (n : Nat) (M : Mark → Prop) {α β : Type} (marks : α → List Mark) (before after : α → β)
    (a a' : α) (p p' : Progress) : Prop :=
  p.adapters ⊆ p'.adapters ∧
    ((∀ m ∈ marks a, M m) → (∀ d ∈ p'.adapters, n ≤ d.id.toNat) → after a' = before a)

section Runs

variable {n : Nat} {M : Mark → Prop} {f g : Expr → Expr}

theorem Agrees.along {α β : Type} {marks : α → List Mark} {before after : α → β} {as as' : List α}
    {p p' : Progress} (h : Along (Agrees n M marks before after) as as' p p') :
    Agrees n M (List.flatMap marks) (List.map before) (List.map after) as as' p p' := by
  induction h with
  | nil => exact ⟨List.Subset.refl _, fun _ _ => rfl⟩
  | cons hr _ ih =>
    refine ⟨List.Subset.trans hr.1 ih.1, fun hm hd => ?_⟩
    rw [List.flatMap_cons, List.forall_mem_append] at hm
    rw [List.map_cons, List.map_cons, ih.2 hm.2 hd, hr.2 hm.1 fun d h => hd d (ih.1 h)]

theorem Agrees.part {part part' : Part} {p p' : Progress}
    (h : PartAlong (Agrees n M Expr.marks (Expr.replace f) (Expr.replace g))
      (Agrees n M Stmt.marks (Stmt.replace f) (Stmt.replace g)) part part' p p') :
    Agrees n M Part.marks (Part.replace f) (Part.replace g) part part' p p' := by
  cases h with
  | exprs bs h => exact ⟨(along h).1, fun hm hd => congrArg (Part.exprs bs) ((along h).2 hm hd)⟩
  | stmts bs h => exact ⟨(along h).1, fun hm hd => congrArg (Part.stmts bs) ((along h).2 hm hd)⟩

theorem Agrees.parts {ps ps' : List Part} {p p' : Progress}
    (h : Along (PartAlong (Agrees n M Expr.marks (Expr.replace f) (Expr.replace g))
      (Agrees n M Stmt.marks (Stmt.replace f) (Stmt.replace g))) ps ps' p p') :
    Agrees n M (List.flatMap Part.marks) (List.map (Part.replace f))
      (List.map (Part.replace g)) ps ps' p p' :=
  Agrees.along (h.imp Agrees.part)

/-- The construction of an adapter is replaced as one. -/
theorem exists_replace_replacement (c : Closure) (operands : List Expr) :
    ∃ operands', (c.replacement operands).replace g = g (c.replacement operands') := by
  rw [Closure.replacement]
  split
  · refine ⟨operands.map (·.replace g), ?_⟩
    rw [Expr.replace_eq rfl, Closure.replacement, if_pos ‹_›]
    rfl
  · refine ⟨[], ?_⟩
    rw [Expr.replace_eq rfl, Closure.replacement, if_neg ‹_›]
    rfl

/-- A site and the construction that takes its place are treated alike. -/
theorem Agrees.site {cx : Context} {e e' : Expr} {c : Closure} {operands : List Expr}
    {start inner outer : Progress} (h : Matching n M f g) (he : e'.isSite = true)
    (hreplace : e.replace f = f e') (hmark : (Node.expr e').mark? = (Node.expr e).mark?)
    (hmem : ∀ m ∈ (Node.expr e).mark?, m ∈ e.marks)
    (hinner : (cx.allocated start).adapters ⊆ inner.adapters) (hsame : inner.SameSites outer) :
    Agrees n M Expr.marks (Expr.replace f) (Expr.replace g) e (c.replacement operands) start
      (cx.finished c outer) := by
  obtain ⟨next, rfl⟩ := hsame
  refine ⟨fun d hd => List.mem_cons_of_mem _ (hinner hd), fun hm hd => ?_⟩
  obtain ⟨operands', hg⟩ := exists_replace_replacement (g := g) c operands
  have hnew : n ≤ c.adapter.toNat := hd _ List.mem_cons_self
  rw [hg, hreplace]
  exact h.site e' he (fun m hm' => hm m (hmem m (hmark ▸ hm'))) c operands' hnew

theorem runSteps_agrees (h : Matching n M f g) (cx : Context) :
    RunSteps (Agrees n M Expr.marks (Expr.replace f) (Expr.replace g))
      (Agrees n M Stmt.marks (Stmt.replace f) (Stmt.replace g)) cx where
  node {e cs p p'} hsite hlen hcs := by
    have he : e.isLambda = false := by
      cases e
      case lambda => cases hsite
      all_goals rfl
    refine ⟨(Agrees.along hcs).1, fun hm hd => ?_⟩
    rw [Expr.marks_eq he, List.forall_mem_append] at hm
    have hchildren := (Agrees.along hcs).2 hm.2 hd
    have hlen' : (e.children.map (Expr.replace f)).length = e.children.length := List.length_map _
    rw [Expr.replace_eq he, Expr.replace_eq (Expr.isLambda_withChildren he),
      Expr.children_withChildren hlen, hchildren, Expr.withChildren_withChildren hlen hlen']
    refine h.node _ ?_ fun m hm' => hm.1 m ?_
    · cases e <;> first | rfl | cases hsite
    · rw [Expr.mark?_withChildren hlen'] at hm'
      exact Option.mem_toList.mpr hm'
  lambda run hbody := by
    refine Agrees.site h rfl (Expr.replace_lambda _) rfl (fun m hm => ?_) (Agrees.part hbody).1
      run.sameSites
    cases hm
    rw [Expr.marks_lambda]
    exact List.mem_cons_self
  methodRef {scope ref start} run hcs := by
    refine Agrees.site h ?_ (Expr.replace_eq rfl) ?_ (fun m hm => ?_)
      (Agrees.along hcs).1 run.sameSites
    · rfl
    · rfl
    · rw [Expr.marks_eq rfl]
      exact List.mem_append_left _ (Option.mem_toList.mpr hm)
  stmt {st st' p p'} hst hparts := by
    refine ⟨(Agrees.parts hparts).1, fun hm hd => ?_⟩
    rw [Stmt.marks_eq] at hm
    have hlike : List.Forall₂ Part.Like st.parts (st.parts.map (Part.replace f)) :=
      List.forall₂_map_right_iff.mpr (List.forall₂_same.mpr fun p _ => p.like_replace f)
    rw [Stmt.replace_eq, (Agrees.parts hparts).2 hm hd, Stmt.replace_eq]
    conv_lhs => rw [hst]
    exact Stmt.withParts_withParts _ hlike

/-- **Matching replacements give the same result before and after lowering**,
for declarations. -/
theorem agrees_decl (h : Matching n M f g) {u : CompilationUnit} {policy : SingletonInit}
    {d d' : TypeDecl} {p p' : Progress} (hrun : lowerDecl u policy d p = .ok (d', p')) :
    Agrees n M TypeDecl.marks (TypeDecl.replace f) (TypeDecl.replace g) d d' p p' := by
  obtain ⟨members⟩ := RunSteps.members (fun _ => runSteps_agrees h _) hrun
  have hfields : Agrees n M (List.flatMap Field.marks) (List.map (Field.replace f))
      (List.map (Field.replace g)) d.fields d'.fields p members.afterFields := by
    refine Agrees.along (members.fields.imp ?_)
    rintro x x' p p' ⟨hx, hinit⟩
    refine ⟨(Agrees.part hinit).1, fun hm hd => ?_⟩
    have hinit := (Agrees.part hinit).2 hm hd
    rw [hx, Field.replace, Field.replace]
    cases h : x.init <;> cases h' : x'.init <;> simp_all [Part.replace]
  have hinitializers : Agrees n M (List.flatMap Initializer.marks)
    (List.map (Initializer.replace f))
      (List.map (Initializer.replace g)) d.initializers d'.initializers members.afterFields
      members.afterInitializers := by
    refine Agrees.along (members.initializers.imp ?_)
    rintro i i' p p' ⟨hi, hbody⟩
    refine ⟨(Agrees.part hbody).1, fun hm hd => ?_⟩
    have hbody := Part.stmts.inj ((Agrees.part hbody).2 hm hd)
    rw [hi, Initializer.replace, Initializer.replace, hbody.2]
  have hmethods : Agrees n M (List.flatMap Method.marks) (List.map (Method.replace f))
      (List.map (Method.replace g)) d.methods d'.methods members.afterInitializers p' := by
    refine Agrees.along (members.methods.imp ?_)
    rintro m m' p p' ⟨hm, hbody⟩
    refine ⟨(Agrees.parts hbody).1, fun hmarks hd => ?_⟩
    have hall : (m.body.toList.map (Part.stmts m.params)).flatMap Part.marks = m.marks := by
      rw [List.flatMap_map]
      rfl
    have hbody := (Agrees.parts hbody).2 (by rwa [hall]) hd
    rw [hm, Method.replace, Method.replace]
    cases h : m.body <;> cases h' : m'.body <;> simp_all [Part.replace]
  refine ⟨List.Subset.trans hfields.1 (List.Subset.trans hinitializers.1 hmethods.1), fun hm hd =>
    ?_⟩
  rw [TypeDecl.marks_eq, List.forall_mem_append, List.forall_mem_append] at hm
  have hf := hfields.2 hm.1 fun d h => hd d (hmethods.1 (hinitializers.1 h))
  have hi := hinitializers.2 hm.2.1 fun d h => hd d (hmethods.1 h)
  have hm := hmethods.2 hm.2.2 hd
  rw [TypeDecl.replace, TypeDecl.replace, hf, hi, hm, members.rest_eq]

end Runs

/-! ## Units -/

/-- Doing nothing matches where there are no sites. -/
theorem matching_id (n : Nat) : Matching n (fun m => m.span? = none) id id where
  node _ _ _ := rfl
  site e he hm := by
    cases e
    case lambda l => cases hm _ rfl
    case methodRef r => cases hm _ rfl
    all_goals cases he

section Units

variable {u v : CompilationUnit} {policy : SingletonInit} {summary : Summary}

/-- If adapters are only added along a list, then those after one of its steps
are among the last ones. -/
theorem Along.exists_of_mem {α β : Type} {R : α → β → Progress → Progress → Prop} {as : List α}
    {bs : List β} {p p' : Progress} (h : Along R as bs p p')
    (hadds : ∀ {a b p p'}, R a b p p' → p.adapters ⊆ p'.adapters) :
    p.adapters ⊆ p'.adapters ∧
      ∀ b ∈ bs, ∃ a ∈ as, ∃ p₀ p₁, R a b p₀ p₁ ∧ p₁.adapters ⊆ p'.adapters := by
  induction h with
  | nil => exact ⟨List.Subset.refl _, fun _ h => nomatch h⟩
  | cons hr _ ih =>
    refine ⟨List.Subset.trans (hadds hr) ih.1, List.forall_mem_cons.mpr ⟨?_, fun b hb => ?_⟩⟩
    · exact ⟨_, List.mem_cons_self, _, _, hr, ih.1⟩
    · obtain ⟨a, ha, h⟩ := ih.2 b hb
      exact ⟨a, List.mem_cons_of_mem _ ha, h⟩

/-- Each declaration of a partition was lowered when no other adapters were
there than those of the partition. -/
theorem lowerPartition_lowered {first : LocalId} {top next : ClassId} {r : PartitionResult}
    (h : lowerPartition u policy first top next = .ok r) {d' : TypeDecl} (hd' : d' ∈ r.types) :
    ∃ d ∈ declsOf u top, ∃ p p', lowerDecl u policy d p = .ok (d', p') ∧
      p'.adapters ⊆ r.adapters := by
  obtain ⟨stop, hrun, hadapters⟩ := lowerPartition_eq_ok h
  have halong : Along (fun d d' p p' => lowerDecl u policy d p = .ok (d', p'))
    (declsOf u top) r.types
      ⟨next, first, [], []⟩ stop := .of_mapM hrun fun _ _ _ _ _ => id
  obtain ⟨d, hd, p, p', hdecl, hsub⟩ :=
    (halong.exists_of_mem fun h => (agrees_decl (matching_id 0) h).1).2 d' hd'
  refine ⟨d, hd, p, p', hdecl, fun a ha => ?_⟩
  rw [hadapters, byId, List.mem_mergeSort]
  exact hsub ha

/-- A declaration of a lowered unit was lowered when no other adapters were
there than those of the unit. -/
theorem UnitRun.exists_lowerDecl (run : UnitRun u policy v summary) {d' : TypeDecl}
    (hd' : d' ∈ run.lowered) :
    ∃ d ∈ u.types, d.kind ≠ .adapter ∧
      ∃ p p', lowerDecl u policy d p = .ok (d', p') ∧ p'.adapters ⊆ run.adapters := by
  obtain ⟨r, hr, hd'⟩ := List.mem_flatMap.mp hd'
  obtain ⟨partition, -, hpartition⟩ := exists_of_forall₂_right run.results_eq hr
  obtain ⟨d, hd, p, p', hdecl, hsub⟩ := lowerPartition_lowered hpartition hd'
  obtain ⟨hmem, hlowered⟩ := List.mem_filter.mp hd
  rw [Bool.and_eq_true, isLowered, bne_iff_ne] at hlowered
  refine ⟨d, hmem, hlowered.1, p, p', hdecl, fun a ha => ?_⟩
  rw [adapters, byId, List.mem_mergeSort]
  exact List.mem_flatMap.mpr ⟨r, hr, hsub ha⟩

/-- **Matching replacements give the same result in both units.** -/
theorem UnitRun.replace_eq (run : UnitRun u policy v summary) (hu : u.IsArena)
    (hroom : u.types.length + summary.sites ≤ 2 ^ 32) {i : Nat} {d : TypeDecl}
    (hd : u.types[i]? = some d) :
    ∃ d', v.types[i]? = some d' ∧ (d' = d ∧ isActive u d = false ∨ d.kind ≠ .adapter ∧
      ∀ M f g, Matching u.types.length M f g → (∀ m ∈ d.marks, M m) →
        d'.replace g = d.replace f) := by
  obtain ⟨d', hd', h⟩ := run.exists_placed hu hd
  refine ⟨d', hd', ?_⟩
  rcases h with ⟨hmem, hid⟩ | h
  · obtain ⟨d₀, hd₀, hkind, p, p', hdecl, hsub⟩ := run.exists_lowerDecl hmem
    obtain ⟨declRun⟩ := exists_declRun hdecl
    have hid₀ : d'.id = d₀.id := by rw [declRun.rest_eq]
    obtain rfl := InPlace.eq_of_id hu hd₀ (List.mem_of_getElem? hd) (hid₀.symm.trans hid)
    refine .inr ⟨hkind, fun M f g hmatch hm => (agrees_decl hmatch hdecl).2 hm fun a ha => ?_⟩
    obtain ⟨k, hk⟩ := List.mem_iff_getElem?.mp (hsub ha)
    rw [run.toNat_id_adapters hroom hk]
    exact Nat.le_add_right _ _
  · exact .inl h

end Units

end Lowering

/-! ## Covering -/

/-- Whether an expression constructs an adapter with a number from `n` on. -/
def Expr.isNewClosure (n : Nat) : Expr → Bool
  | .newClosure a _ | .singleton a => n ≤ a.toNat
  | _ => false

/-- Put an expression in the place of each outermost one of a kind, in the code
of a declaration. -/
def TypeDecl.cover (hidden : Expr → Bool) (hole : Expr) (d : TypeDecl) : TypeDecl :=
  d.replace fun e => if hidden e then hole else e

/-- A mark that is no construction of an adapter with a number from `n` on. -/
def Mark.Below (n : Nat) : Mark → Prop
  | .site _ => True
  | .construct a _ => a.toNat < n

theorem isNewClosure_eq_false {n : Nat} {e : Expr} (h : ∀ m ∈ (Node.expr e).mark?, m.Below n) :
    e.isNewClosure n = false := by
  cases e
  case newClosure a cs | singleton a => exact decide_eq_false (Nat.not_le_of_lt (h _ rfl))
  all_goals rfl

/-- Covering the sites before lowering matches covering the new constructions
after it. -/
theorem matching_cover (n : Nat) (hole : Expr) :
    Lowering.Matching n (Mark.Below n) (fun e => if e.isSite then hole else e)
      (fun e => if e.isNewClosure n then hole else e) where
  node e he hm := by simp [he, isNewClosure_eq_false hm]
  site e he _ c operands hc := by
    have hnew : (c.replacement operands).isNewClosure n = true := by
      rw [Closure.replacement]
      split <;> simpa [Expr.isNewClosure] using hc
    simp [he, hnew]

theorem below_of_constructions {u : CompilationUnit} {n : Nat}
    (h : ∀ c ∈ u.constructions, c.1.toNat < n)
    {d : TypeDecl} (hd : d ∈ u.types) : ∀ m ∈ d.marks, m.Below n := by
  rintro (span | ⟨a, k⟩) hm
  · trivial
  · exact h (a, k) (List.mem_flatMap.mpr ⟨d, hd, List.mem_filterMap.mpr ⟨_, hm, rfl⟩⟩)

theorem cover_isNewClosure_eq_self {n : Nat} (hole : Expr) {d : TypeDecl}
    (h : ∀ m ∈ d.marks, m.Below n) :
    d.cover (Expr.isNewClosure n) hole = d := by
  refine TypeDecl.replace_eq_self (fun e hm => if_neg ?_) h
  simp [isNewClosure_eq_false hm]

theorem cover_isSite_eq_self (hole : Expr) {d : TypeDecl} (h : ∀ m ∈ d.marks, m.span? = none) :
    d.cover Expr.isSite hole = d := by
  refine TypeDecl.replace_eq_self (fun e hm => if_neg fun he => ?_) h
  cases e
  case lambda | methodRef => cases hm _ rfl
  all_goals cases he

/-- Without sites there are only constructions. -/
theorem span?_eq_none_of_siteCount {d : TypeDecl} (h : d.siteCount = 0) :
    ∀ m ∈ d.marks, m.span? = none := by
  rwa [d.siteCount_eq, List.length_eq_zero_iff, spans, List.filterMap_eq_nil_iff] at h

/-- There are no sites in a declaration that is not lowered, unless it is an
adapter. -/
theorem siteCount_of_isActive {u : CompilationUnit} {d : TypeDecl} (hd : d ∈ u.types)
    (hkind : d.kind ≠ .adapter) (h : Lowering.isActive u d = false) : d.siteCount = 0 := by
  have hlowered : Lowering.isLowered d = true := bne_iff_ne.mpr hkind
  have hzero : Lowering.siteCount u (u.topLevel d.id) =
    0 := by simpa [Lowering.isActive, hlowered] using h
  rw [Lowering.siteCount_eq, List.length_eq_zero_iff, Lowering.spans_flatMap,
    List.flatMap_eq_nil_iff] at hzero
  rw [d.siteCount_eq, hzero d (List.mem_filter.mpr ⟨hd, by simp [hlowered]⟩), List.length_nil]

open Lowering in
/-- **Lowering touches nothing but sites.** Cover the outermost sites of a given
declaration, and the constructions of new adapters in the lowered one, by one
expression: the two are equal. Adapters that were there before are not lowered.
They, and declarations without sites, are returned as they are. -/
theorem lower_frame {u v : CompilationUnit} {policy : SingletonInit} {summary : Summary}
    (hu : u.IsArena) (hfree : ∀ c ∈ u.constructions, c.1.toNat < u.types.length)
    (h : u.lower policy = .ok (v, summary)) (hroom : u.types.length + summary.sites ≤ 2 ^ 32)
    {i : Nat} {d : TypeDecl} (hd : u.types[i]? = some d) :
    ∃ d', v.types[i]? = some d' ∧
      (d.kind ≠ .adapter →
        ∀ hole, d'.cover (Expr.isNewClosure u.types.length) hole = d.cover Expr.isSite hole) ∧
      (d.kind = .adapter ∨ d.siteCount = 0 → d' = d) := by
  obtain ⟨run⟩ := exists_unitRun h
  obtain ⟨d', hd', hcases⟩ := run.replace_eq hu hroom hd
  refine ⟨d', hd', ?_⟩
  have hmem := List.mem_of_getElem? hd
  have hbelow := below_of_constructions hfree hmem
  rcases hcases with ⟨rfl, hactive⟩ | ⟨hkind, heq⟩
  · refine ⟨fun hkind hole => ?_, fun _ => rfl⟩
    have hzero := siteCount_of_isActive hmem hkind hactive
    rw [cover_isNewClosure_eq_self hole hbelow, cover_isSite_eq_self hole
      (span?_eq_none_of_siteCount hzero)]
  · refine ⟨fun _ hole => heq _ _ _ (matching_cover _ hole) hbelow, ?_⟩
    rintro (hadapter | hzero)
    · exact absurd hadapter hkind
    · have hid := heq _ _ _ (matching_id _) (span?_eq_none_of_siteCount hzero)
      have hsame : ∀ d : TypeDecl, d.replace id = d := fun d =>
        TypeDecl.replace_eq_self (M := fun _ => True) (fun _ _ => rfl) fun _ _ => trivial
      rwa [hsame, hsame] at hid

/-- In a meter, the one outermost site is all that changes, and the interface
stays. -/
theorem lower_frame_meter :
    ∃ v summary meter, Meter.unit.lower .onDemand = .ok (v, summary) ∧ summary.sites = 2 ∧
      v.types[1]? = some meter ∧
      (∀ hole, some (meter.cover (Expr.isNewClosure 2) hole) =
        Meter.unit.types[1]?.map (TypeDecl.cover Expr.isSite hole)) ∧
      v.types[0]? = Meter.unit.types[0]? := by
  have hrun : ((Meter.unit.lower .onDemand).map fun r => r.2.sites) = .ok 2 := by cbv
  obtain ⟨⟨v, summary⟩, h, hsites⟩ := map_eq_ok.mp hrun
  have hfree : Meter.unit.constructions = [] := rfl
  have hroom : Meter.unit.types.length + summary.sites ≤ 2 ^ 32 := by
    rw [← hsites]
    decide
  have hframe := fun i d (hd : Meter.unit.types[i]? = some d) =>
    lower_frame Meter.isArena (by simp [hfree]) h hroom hd
  obtain ⟨meter, hmeter, hcover, -⟩ := hframe 1 _ rfl
  obtain ⟨step, hstep, -, hsame⟩ := hframe 0 _ rfl
  refine ⟨v, summary, meter, h, hsites.symm, hmeter, fun hole => ?_, ?_⟩
  · exact congrArg some (hcover (by decide) hole)
  · rw [hstep, hsame (.inr rfl)]
    rfl

end Closures
