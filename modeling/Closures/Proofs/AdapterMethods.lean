import Closures.Proofs.ClosedAdapters
import Closures.Proofs.MemberSearch
import Closures.Proofs.SiteRuns

/-!
# The methods of adapters

The method that a lambda becomes opens with the declarations of those parameters
whose types differ from the erased ones, and goes on with the redirected body.
Every parameter of the lambda is visible there, as final as it was
(`keeps_bridgedScope`), so the method is **closed** (`LambdaRun.fitAll_body`).
The method that a method reference becomes is a single call, and closed as well
(`ReferenceRun.fitAll_body`).
-/

set_option autoImplicit false

namespace Closures

open Lowering (declares Scope.enter)

/-! ## Parameters -/

namespace FunctionalInterface

variable {u : CompilationUnit}

theorem mem_candidates {ms : List ClassType} {c : Candidate} (h : c ∈ candidates u ms) :
    (c.id, c.method) ∈ u.methodsOf c.owner.id ∧ c.erased = u.erasedParams c.id := by
  obtain ⟨⟨m, i⟩, -, h⟩ := List.mem_flatMap.mp h
  obtain ⟨owner, -, h⟩ := List.mem_flatMap.mp h
  obtain ⟨⟨id, method⟩, hmem, rfl⟩ := List.mem_map.mp h
  exact ⟨(List.mem_filter.mp hmem).1, rfl⟩

/-- A candidate was reached from a member of the target. -/
theorem member_lt_of_mem_candidates {ms : List ClassType} {c : Candidate}
    (h : c ∈ candidates u ms) :
    c.member < ms.length := by
  obtain ⟨⟨m, i⟩, hm, h⟩ := List.mem_flatMap.mp h
  obtain ⟨owner, -, h⟩ := List.mem_flatMap.mp h
  obtain ⟨x, -, rfl⟩ := List.mem_map.mp h
  exact (List.getElem?_eq_some_iff.mp (List.mem_zipIdx_iff_getElem?.mp hm)).1

/-- What is resolved is one of the candidates. -/
theorem resolve_eq_ok {target : Ty} {sam : FunctionalInterface} (h : resolve u target = .ok sam) :
    ∃ ms, members u target = .ok ms ∧ ∃ c ∈ candidates u ms, sam = ofCandidate u ms c := by
  rw [resolve] at h
  obtain ⟨ms, hms, h⟩ := bind_eq_ok.mp h
  dsimp only at h
  split at h
  · cases h
  · rename_i c rest _ heq _
    cases h
    have hmem : c ∈ abstractOnes u (candidates u ms) := by
      rw [heq]
      exact List.mem_cons_self
    exact ⟨ms, hms, c, (List.mem_filter.mp hmem).1, rfl⟩
  · cases h

/-- An implementation has as many parameters as the method has. -/
theorem length_erasedParams (hu : u.NumbersMethods) {target : Ty} {sam : FunctionalInterface}
    (h : resolve u target = .ok sam) : sam.erasedParams.length = sam.params.length := by
  obtain ⟨ms, -, c, hc, rfl⟩ := resolve_eq_ok h
  obtain ⟨hmem, herased⟩ := mem_candidates hc
  have hm : u.method? c.id = some c.method := CompilationUnit.method?_of_mem_methodsOf hu hmem
  rw [ofCandidate, herased, CompilationUnit.erasedParams, hm]
  simp

end FunctionalInterface

/-! ## The method of a lambda -/

namespace Lowering

section Bridge

variable {ps : List Param} {bridged : List (Param × List Stmt)}

/-- The locals that the opening of the method declares. -/
def opened (bridged : List (Param × List Stmt)) : List Param :=
  (bridged.flatMap (·.2)).flatMap declares

/-- The locals that are visible after the opening of the method. -/
def bridgedScope (bridged : List (Param × List Stmt)) : Scope :=
  Scope.enter (Scope.enter [] (bridged.map (·.1))) (opened bridged)

theorem mem_bridgedScope {q : Param} :
    q ∈ bridgedScope bridged ↔ ∃ r ∈ bridged, q = r.1 ∨ q ∈ r.2.flatMap declares := by
  simp only [bridgedScope, opened, Scope.enter, List.append_nil, List.mem_append, List.mem_reverse,
    List.flatMap_assoc, List.mem_flatMap (l := bridged), List.mem_map]
  constructor
  · rintro (⟨r, hr, hq⟩ | ⟨r, hr, rfl⟩)
    · exact ⟨r, hr, .inr hq⟩
    · exact ⟨r, hr, .inl rfl⟩
  · rintro ⟨r, hr, rfl | hq⟩
    · exact .inr ⟨r, hr, rfl⟩
    · exact .inl ⟨r, hr, hq⟩

/-- Bridging declares the parameter, and otherwise only what is final. -/
theorem Bridge.mem {p : Param} {r : Param × List Stmt} (h : Bridge p r) :
    (p = r.1 ∨ p ∈ r.2.flatMap declares) ∧
      ∀ q, q = r.1 ∨ q ∈ r.2.flatMap declares → q = p ∨ q.effectivelyFinal = true := by
  cases h with
  | same =>
    refine ⟨.inl rfl, fun q hq => .inl ?_⟩
    rcases hq with rfl | hq
    · rfl
    · cases hq
  | declared hw hfinal =>
    refine ⟨.inr List.mem_cons_self, fun q hq => ?_⟩
    rcases hq with rfl | hq
    · exact .inr hfinal
    · exact .inl (List.mem_singleton.mp hq)

/-- **The parameters of a lambda are visible in its method**, and as final as
they were. -/
theorem keeps_bridgedScope (h : List.Forall₂ Bridge ps bridged) (hps : (ps.map (·.id)).Nodup)
    {scope : Scope} {ids : List LocalId} (hids : ∀ id ∈ ids, scope.lookup? id = none) :
    Scope.Keeps (ps.map (·.id) ++ ids) (Scope.enter scope ps) (bridgedScope bridged) := by
  intro id hid p hp
  have hmem : p ∈ ps ∧ p.id = id := by
    rw [Scope.lookup?_enter] at hp
    cases hfind : ps.reverse.find? (·.id == id) with
    | some q =>
      rw [hfind] at hp
      cases hp
      have hlookup : Scope.lookup? ps.reverse id = some p := hfind
      exact (Scope.mem_of_lookup? hlookup).imp_left List.mem_reverse.mp
    | none =>
      -- what is not a parameter was not visible
      rw [hfind] at hp
      rcases List.mem_append.mp hid with hid | hid
      · obtain ⟨q, hq, heq⟩ := List.mem_map.mp hid
        exact absurd (beq_iff_eq.mpr heq) (List.find?_eq_none.mp hfind q (List.mem_reverse.mpr hq))
      · rw [hids id hid] at hp
        cases hp
  obtain ⟨hmem, rfl⟩ := hmem
  obtain ⟨r, hr, hbridge⟩ := exists_of_forall₂_right h.flip hmem
  have hvisible : p ∈ bridgedScope bridged := mem_bridgedScope.mpr ⟨r, hr, hbridge.mem.1⟩
  cases hq : (bridgedScope bridged).lookup? p.id with
  | none => exact absurd (beq_self_eq_true p.id) (List.find?_eq_none.mp hq p hvisible)
  | some q =>
    refine ⟨q, rfl, fun hfinal => ?_⟩
    obtain ⟨hq, hid⟩ := Scope.mem_of_lookup? hq
    obtain ⟨r', hr', hq⟩ := mem_bridgedScope.mp hq
    obtain ⟨p', hp', hbridge'⟩ := exists_of_forall₂_right h hr'
    rcases hbridge'.mem.2 q hq with rfl | hq
    · rw [List.inj_on_of_nodup_map hps hp' hmem hid]
      exact hfinal
    · exact hq

variable {given : List ClassId} {v : CompilationUnit} {adapter : ClassId} {slots : Nat}

theorem fitAll_bridged (h : List.Forall₂ Bridge ps bridged) {s : Scope}
    (hs : ∀ r ∈ bridged, (s.lookup? r.1.id).isSome = true) :
    Stmt.FitAll given v adapter slots s (bridged.flatMap (·.2)) := by
  induction h generalizing s with
  | nil => exact Stmt.fitAll_nil
  | cons hb _ ih =>
    obtain ⟨hr, hrest⟩ := List.forall_mem_cons.mp hs
    cases hb with
    | same => exact ih hrest
    | declared hw _ =>
      refine Stmt.fitAll_cons (Stmt.fits_of_parts (List.forall_mem_singleton.mpr ?_)) (ih ?_)
      · refine Part.fits_exprs (List.forall_mem_singleton.mpr ?_)
        exact hw.induction (fun _ => Expr.fits_of_isGlue) (Expr.fits_localGet hr)
      · intro r hr
        rw [Scope.lookup?_enter, Option.isSome_or, hrest r hr, Bool.or_true]

end Bridge

variable {given : List ClassId} {v : CompilationUnit} {cx : Context} {scope : Scope}
  {start : Progress}

/-- **The method of a lambda is closed.** -/
theorem LambdaRun.fitAll_body {l : Lambda} (run : LambdaRun cx scope l start)
    (hext : cx.unit.ExtendedBy v) (hu : cx.unit.NumbersMethods) (hps : (l.params.map (·.id)).Nodup)
    (hids : ∀ id ∈ declaredIn run.body.nodes, scope.lookup? id = none)
    (hsound : Everywhere (Expr.Sound given) ((run.body.part l.params).located scope)) :
    Stmt.FitAll given v start.nextAdapter run.captures.slots.length
      (Scope.enter [] run.closure.params) run.closure.body := by
  have hbridge : List.Forall₂ Bridge l.params run.bridged := by
    have hlen : l.params.length ≤ (run.sam.erasedParams.zip run.sam.params).length := by
      rw [List.length_zip, FunctionalInterface.length_erasedParams hu run.sam_eq,
        Nat.min_self, run.arity]
    have h := List.forall₂_map_left_iff.mpr run.forall₂_bridge
    rwa [List.map_fst_zip hlen] at h
  have hready : Everywhere (Expr.Ready (cx.site scope) run.captures
      (l.params.map (·.id) ++ declaredIn run.body.nodes) given)
      ((run.body.part l.params).located scope) := fun x hx =>
    ⟨hsound x hx, CaptureSet.served_ofLambda run.captures_eq _ (LambdaBody.mem_nodes hx)⟩
  have hstmts :=
    everywhere_lambdaStatements (fun _ _ => Expr.ready_of_isConversion) run.stmts_eq hready
  refine Stmt.fitAll_append (fitAll_bridged hbridge fun r hr => ?_) ?_
  · have hmem : r.1 ∈ Scope.enter [] run.closure.params := by
      rw [Scope.enter, List.append_nil, List.mem_reverse]
      exact List.mem_map_of_mem hr
    exact List.find?_isSome.mpr ⟨r.1, hmem, beq_self_eq_true _⟩
  · exact CaptureSet.fitAll_redirectAll hext (keeps_bridgedScope hbridge hps hids) hstmts

/-- **The method of a method reference is closed.** -/
theorem ReferenceRun.fitAll_body {ref : MethodRef} (run : ReferenceRun cx scope ref start)
    (hext : cx.unit.ExtendedBy v) :
    Stmt.FitAll given v start.nextAdapter run.captures.slots.length
      (Scope.enter [] run.closure.params) run.closure.body := by
  have hcall : run.call.Fits given v start.nextAdapter run.captures.slots.length
      (Scope.enter [] run.params) := by
    refine referenceCall_induction (fun _ => Expr.fits_of_isGlue) ?_
      (fun _ => Expr.fits_slotRead) ?_ run.call_eq
    · intro t ctor as hform has
      have hof : Reference.FormOf (cx.site scope) run.qualifier (.constructor t ctor none) :=
        hform ▸ Reference.formOf_resolve run.resolved_eq
      generalize run.qualifier = q at hof
      cases hof with
      | constructor hdepth => exact Expr.fits_new hdepth hext has
    · intro a ha
      obtain ⟨p, hp, hw⟩ := referenceArgs_wraps ha
      refine hw.induction (fun _ => Expr.fits_of_isGlue) (Expr.fits_localGet ?_)
      have hmem : p ∈ Scope.enter [] run.params := by
        rw [Scope.enter, List.append_nil, List.mem_reverse]
        exact hp
      exact List.find?_isSome.mpr ⟨p, hmem, beq_self_eq_true _⟩
  obtain ⟨w, hw, hbody⟩ := exists_wraps_of_returnValue run.body_eq
  have hw := hw.induction (fun _ => Expr.fits_of_isGlue) hcall
  change Stmt.FitAll given v _ _ _ run.body
  rcases hbody with hbody | hbody <;> rw [hbody] <;>
  · refine Stmt.fitAll_cons (Stmt.fits_of_parts (List.forall_mem_singleton.mpr ?_)) Stmt.fitAll_nil
    exact Part.fits_exprs (List.forall_mem_singleton.mpr hw)

end Lowering

/-! ## Closed declarations -/

/-- A declaration that is sound everywhere and whose methods get by with their
parameters and the fields. -/
structure TypeDecl.IsClosed (given : List ClassId) (v : CompilationUnit) (d : TypeDecl) : Prop where
  sound : Everywhere (Expr.Sound given) d.located
  selfContained : ∀ m ∈ d.methods, ∀ body, m.body = some body →
    ∀ n ∈ Stmt.nodesBesideSlots d.id d.fields.length body, n.isSelfContained v = true

theorem Closure.isClosed_decl {given : List ClassId} {v u : CompilationUnit}
    {policy : SingletonInit}
    {c : Closure} (h : Stmt.FitAll given v c.adapter c.captures.slots.length
      (Scope.enter [] c.params) c.body) : (c.decl u policy).IsClosed given v where
  sound := by
    rw [TypeDecl.located, everywhere_append, everywhere_append]
    refine ⟨everywhere_flatMap.mpr (List.forall_mem_map.mpr fun _ _ _ hx => nomatch hx),
      fun _ hx => (nomatch hx), everywhere_flatMap.mpr (List.forall_mem_singleton.mpr h.sound)⟩
  selfContained := by
    refine List.forall_mem_singleton.mpr fun body hbody => ?_
    cases hbody
    have hlen : (c.decl u policy).fields.length = c.captures.slots.length := List.length_map _
    rw [hlen]
    exact h.selfContained

end Closures
