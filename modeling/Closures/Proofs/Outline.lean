import Closures.Proofs.Assignability
import Closures.Proofs.UnitLowering

/-!
# Outlines

The **outline** of a declaration is everything but its code: field initializers,
initializer blocks and method bodies are left out. To lower the code of one
declaration takes a look at the others, at their supertypes, members, nesting
and names, but only at their outlines. So each lookup, each choice and in the
end `lowerDecl` give the same on a unit and on its outline.

Most of these facts are simp lemmas `f_outline`, one per function of the library
that takes a unit. What hands out declarations, methods or fields hands out
their outlines instead.
-/

set_option autoImplicit false

namespace Closures

/-- A field without its initializer. -/
def Field.outline (f : Field) : Field := { f with init := none }

/-- A method without its body. -/
def Method.outline (m : Method) : Method := { m with body := none }

/-- A declaration without its code. -/
def TypeDecl.outline (d : TypeDecl) : TypeDecl :=
  { d with
    fields := d.fields.map Field.outline
    methods := d.methods.map Method.outline
    initializers := [] }

/-- A unit without its code. -/
def CompilationUnit.outline (u : CompilationUnit) : CompilationUnit :=
  { u with types := u.types.map TypeDecl.outline }

namespace CompilationUnit

variable (u : CompilationUnit)

/-! ## Lookups -/

@[simp] theorem decl?_outline (id : ClassId) :
    u.outline.decl? id = (u.decl? id).map TypeDecl.outline := by
  simp [decl?, outline]

@[simp] theorem method?_outline (id : MethodId) :
    u.outline.method? id = (u.method? id).map Method.outline := by
  cases h : u.decl? id.owner <;> simp [method?, h, TypeDecl.outline]

@[simp] theorem field?_outline (id : FieldId) :
    u.outline.field? id = (u.field? id).map Field.outline := by
  cases h : u.decl? id.owner <;> simp [field?, h, TypeDecl.outline]

@[simp] theorem methodsOf_outline (id : ClassId) :
    u.outline.methodsOf id = (u.methodsOf id).map fun (i, m) => (i, m.outline) := by
  cases h : u.decl? id <;>
    simp [methodsOf, h, TypeDecl.outline, TypeDecl.methodIds, List.zipIdx_map]

@[simp] theorem className_outline : u.outline.className = u.className := by
  funext id
  cases h : u.decl? id <;> simp [className, h, TypeDecl.outline]

mutual

@[simp] theorem typeName_outline (t : Ty) : u.outline.typeName t = u.typeName t := by
  cases t <;> simp [typeName, typeNames_outline, typeName_outline]

@[simp] theorem typeNames_outline (ts : List Ty) : u.outline.typeNames ts = u.typeNames ts := by
  cases ts <;> simp [typeNames, typeNames_outline, typeName_outline]

end

/-! ## Nesting -/

@[simp] theorem length_types_outline : u.outline.types.length = u.types.length := List.length_map ..

@[simp] theorem outer?_outline : u.outline.outer? = u.outer? := by
  funext id
  cases h : u.decl? id <;> simp [outer?, h, TypeDecl.outline]

@[simp] theorem outward_outline : u.outline.outward = u.outward := by
  funext id
  simp [outward]

@[simp] theorem topLevel_outline : u.outline.topLevel = u.topLevel := by
  funext id
  simp [topLevel]

@[simp] theorem isNamed_outline : u.outline.isNamed = u.isNamed := by
  funext id
  cases h : u.decl? id <;> simp [isNamed, h, TypeDecl.outline]

@[simp] theorem nearestNamed_outline : u.outline.nearestNamed = u.nearestNamed := by
  funext id
  simp [nearestNamed]

@[simp] theorem pathWithin_outline (steps : Nat) (id : ClassId) :
    u.outline.pathWithin steps id = u.pathWithin steps id := by
  induction steps generalizing id with
  | zero => simp [pathWithin]
  | succ steps ih => cases h : u.decl? id <;> simp [pathWithin, h, ih, TypeDecl.outline]

@[simp] theorem qualifiedPath_outline : u.outline.qualifiedPath = u.qualifiedPath := by
  funext id
  simp [qualifiedPath]

@[simp] theorem carrier?_outline : u.outline.carrier? = u.carrier? := by
  funext id
  cases h : u.decl? id <;> simp [carrier?, h, TypeDecl.outline]

@[simp] theorem enclosingChain_outline : u.outline.enclosingChain = u.enclosingChain := by
  funext id isStatic
  simp [enclosingChain]

/-! ## Supertypes -/

@[simp] theorem supertypesOf_outline : u.outline.supertypesOf = u.supertypesOf := by
  funext id
  cases h : u.decl? id <;> simp [supertypesOf, h, TypeDecl.outline, TypeDecl.supertypes]

@[simp] theorem edgeCount_outline : u.outline.edgeCount = u.edgeCount := by
  simp [edgeCount, outline, List.flatMap_map, TypeDecl.outline, TypeDecl.supertypes]

@[simp] theorem ancestors_outline : u.outline.ancestors = u.ancestors := by
  funext id
  simp [ancestors]

@[simp] theorem isSubclass_outline : u.outline.isSubclass = u.isSubclass := by
  funext sub sup
  simp [isSubclass]

@[simp] theorem directSupertypes_outline : u.outline.directSupertypes = u.directSupertypes := by
  funext t
  cases h : u.decl? t.id <;> simp [directSupertypes, h, TypeDecl.outline, TypeDecl.supertypes]

@[simp] theorem asSuperWithin_outline (ancestor : ClassId) (steps : Nat) :
    u.outline.asSuperWithin ancestor steps = u.asSuperWithin ancestor steps := by
  induction steps with
  | zero => rfl
  | succ steps ih =>
    funext t
    simp [asSuperWithin, ih]

@[simp] theorem asSuper?_outline : u.outline.asSuper? = u.asSuper? := by
  funext t ancestor
  simp [asSuper?]

@[simp] theorem isAssignable_outline : u.outline.isAssignable = u.isAssignable := by
  funext source target
  fun_induction isAssignable u source target <;> rw [isAssignable.eq_def] <;> simp_all

@[simp] theorem isLooselyAssignable_outline :
    u.outline.isLooselyAssignable = u.isLooselyAssignable := by
  funext source target
  cases source <;> cases target <;> simp [isLooselyAssignable]

/-! ## Members -/

@[simp] theorem typeParamsOf_outline : u.outline.typeParamsOf = u.typeParamsOf := by
  funext id
  cases h : u.decl? id.owner <;> cases h' : u.method? id <;>
    simp [typeParamsOf, h, h', TypeDecl.outline, Method.outline]

@[simp] theorem erasedParams_outline : u.outline.erasedParams = u.erasedParams := by
  funext id
  cases h : u.method? id <;> simp [erasedParams, h, Method.outline]

@[simp] theorem findMethods_outline : u.outline.findMethods = u.findMethods := by
  funext id name
  have hadd : u.outline.addUnlessOverridden = u.addUnlessOverridden := by
    funext found id
    simp [addUnlessOverridden]
  have hnamed : u.outline.methodsNamed id name = u.methodsNamed id name := by
    simp [methodsNamed, List.filter_map, Function.comp_def, Method.outline]
  rw [findMethods, findMethods, hadd, hnamed]

end CompilationUnit

/-- The wording of a failure needs no code. -/
theorem Cause.message_outline (u : CompilationUnit) (c : Cause) :
    c.message u.outline = c.message u := by
  unfold message
  simp only [CompilationUnit.typeName_outline, CompilationUnit.typeNames_outline,
    CompilationUnit.className_outline, CompilationUnit.qualifiedPath_outline]

/-! ## Adapting values -/

section Adapting

variable (u : CompilationUnit)

@[simp] theorem adaptValue_outline : adaptValue u.outline = adaptValue u := by
  funext e source target
  unfold adaptValue
  simp only [CompilationUnit.isAssignable_outline]

@[simp] theorem Phase.fits_outline : Phase.fits u.outline = Phase.fits u := by
  funext phase a p
  cases phase <;> simp [fits]

@[simp] theorem applicable?_outline : applicable? u.outline = applicable? u := by
  funext isVarargs params args phase
  cases phase <;> simp [applicable?]

@[simp] theorem moreSpecific_outline : moreSpecific u.outline = moreSpecific u := by
  funext a b
  simp [moreSpecific]

@[simp] theorem adaptEach_outline (args : List (Expr × Ty)) (params : List Ty) :
    adaptEach u.outline args params = adaptEach u args params := by
  fun_induction adaptEach u args params <;> simp_all [adaptEach]

@[simp] theorem buildArguments_outline : buildArguments u.outline = buildArguments u := by
  funext args params mode
  cases mode <;> simp [buildArguments]

@[simp] theorem returnValue_outline : returnValue u.outline = returnValue u := by
  funext value result instantiated erased
  simp [returnValue]

end Adapting

/-! ## Functional interfaces -/

namespace FunctionalInterface

variable (u : CompilationUnit)

/-- A candidate without its body. -/
def Candidate.outline (c : Candidate) : Candidate := { c with method := c.method.outline }

@[simp] theorem bindingsOf_outline : bindingsOf u.outline = bindingsOf u := by
  funext owner
  cases h : u.decl? owner.id <;> simp [bindingsOf, h, TypeDecl.outline]

@[simp] theorem reachable_outline : reachable u.outline = reachable u := by
  funext member
  simp [reachable]

@[simp] theorem candidatesOf_outline (member : Nat) :
    candidatesOf u.outline member = fun owner =>
      (candidatesOf u member owner).map Candidate.outline := by
  funext owner
  simp [candidatesOf, List.filter_map, Function.comp_def, Method.outline, Candidate.outline]

@[simp] theorem candidates_outline (members : List ClassType) :
    candidates u.outline members = (candidates u members).map Candidate.outline := by
  simp [candidates, List.map_flatMap]

@[simp] theorem abstractOnes_outline (all : List Candidate) :
    abstractOnes u.outline (all.map Candidate.outline) =
      (abstractOnes u all).map Candidate.outline := by
  rw [abstractOnes, abstractOnes, List.filter_map]
  congr 2
  funext c
  simp [Function.comp_def, Candidate.outline, Method.outline, Candidate.retires,
    Candidate.isObjectMethod]

@[simp] theorem members_outline : members u.outline = members u := by
  have h : ∀ inIntersection, listedMember u.outline inIntersection =
      listedMember u inIntersection := by
    intro inIntersection
    funext t
    cases t with
    | declared id args => cases h : u.decl? id <;> simp [listedMember, h, TypeDecl.outline]
    | _ => rfl
  funext target
  simp only [members, h]

@[simp] theorem ofCandidate_outline (members : List ClassType) (c : Candidate) :
    ofCandidate u.outline members c.outline = ofCandidate u members c := by
  simp [ofCandidate, Candidate.outline, Method.outline]

/-- **The method that a target asks for is found in the outlines.** -/
@[simp] theorem resolve_outline : resolve u.outline = resolve u := by
  funext target
  simp only [resolve, members_outline, candidates_outline, abstractOnes_outline, List.map_map]
  refine congrArg _ (funext fun ms => ?_)
  have hkey : Candidate.key ∘ Candidate.outline = Candidate.key := rfl
  rw [hkey]
  cases abstractOnes u (candidates u ms) with
  | nil => rfl
  | cons c cs =>
    simp only [List.map_cons]
    generalize (Candidate.key c :: cs.map Candidate.key).eraseDups = keys
    rcases keys with _ | ⟨key, _ | ⟨key', keys⟩⟩ <;> simp

end FunctionalInterface

/-! ## Sites -/

namespace Site

variable (s : Site)

/-- A site in a unit without its code. -/
def outline : Site := { s with unit := s.unit.outline }

@[simp] theorem unit_outline : s.outline.unit = s.unit.outline := rfl

@[simp] theorem owner_outline : s.outline.owner = s.owner := rfl

@[simp] theorem chain_outline : s.outline.chain = s.chain := rfl

@[simp] theorem scope_outline : s.outline.scope = s.scope := rfl

@[simp] theorem decl_outline (id : ClassId) :
    s.outline.decl id = TypeDecl.outline <$> s.decl id := by
  cases h : s.unit.decl? id <;> simp [decl, h]

@[simp] theorem method_outline (id : MethodId) :
    s.outline.method id = Method.outline <$> s.method id := by
  cases h : s.unit.method? id <;> simp [method, h]

@[simp] theorem field_outline (id : FieldId) :
    s.outline.field id = Field.outline <$> s.field id := by
  cases h : s.unit.field? id <;> simp [field, h]

@[simp] theorem thisDepth_outline : s.outline.thisDepth = s.thisDepth := by
  funext q
  cases q with
  | none => rfl
  | some c =>
    simp only [thisDepth, chain_outline, decl_outline, bind_map_left]
    rfl

@[simp] theorem memberDepth_outline : s.outline.memberDepth = s.memberDepth := by
  funext owner
  simp [memberDepth]

@[simp] theorem creationDepth_outline : s.outline.creationDepth = s.creationDepth := by
  funext type
  simp [creationDepth]

end Site

/-! ## Method references -/

namespace Reference

variable (s : Site)

@[simp] theorem pick_outline : pick s.outline = pick s := by
  have happlicable : applicableOnes s.unit.outline = applicableOnes s.unit := by
    funext cs args phase
    simp [applicableOnes]
  have hbest : isBest s.unit.outline = isBest s.unit := by
    funext hits i c
    simp [isBest]
  funext cs args phase
  simp [pick, happlicable, hbest, Function.comp_def, Method.outline]

@[simp] theorem select_outline (cs : List Candidate) (args : List Ty) (phases : List Phase) :
    select s.outline cs args phases = select s cs args phases := by
  induction phases with
  | nil => rfl
  | cons phase phases ih => simp [select, ih]

@[simp] theorem selectOr_outline : selectOr s.outline = selectOr s := by
  funext cs owner name args
  simp [selectOr]

@[simp] theorem instantiate_outline : instantiate s.outline = instantiate s := by
  funext id receiver typeArgs
  simp [instantiate, TypeDecl.outline, Method.outline]

/-- A test that does not look at bodies keeps the same methods. -/
theorem candidates_outline (owner : ClassType) (name : String) (typeArgs : List Ty)
    (keep : Method → Bool) (hkeep : ∀ m, keep m.outline = keep m) :
    candidates s.outline owner name typeArgs keep = candidates s owner name typeArgs keep := by
  simp [candidates, hkeep]

theorem resolveNewArray_outline : resolveNewArray s.outline = resolveNewArray s := by
  funext element sam
  simp [resolveNewArray]

theorem resolveConstructor_outline : resolveConstructor s.outline = resolveConstructor s := by
  have hconstructors : ∀ d type, constructors d.outline type = constructors d type := by
    intro d type
    simp [constructors, TypeDecl.outline, TypeDecl.methodIds, List.zipIdx_map, List.filter_map,
      Function.comp_def, Method.outline]
  funext t sam
  simp only [resolveConstructor, Site.decl_outline, bind_map_left, Site.creationDepth_outline,
    hconstructors, selectOr_outline]
  rfl

theorem resolveTypeMemberIn_outline (t : Ty) (owner : ClassType) (name : String)
    (statics instances : List Candidate) (args : List Ty) (phases : List Phase) :
    resolveTypeMemberIn s.outline t owner name statics instances args phases =
      resolveTypeMemberIn s t owner name statics instances args phases := by
  have hunbound : unboundArgs? s.outline t = unboundArgs? s t := by
    funext args
    cases args <;> simp [unboundArgs?]
  induction phases with
  | nil => rfl
  | cons phase phases ih => simp [resolveTypeMemberIn, hunbound, ih]

theorem resolveTypeMember_outline : resolveTypeMember s.outline = resolveTypeMember s := by
  funext t name typeArgs sam
  have hstatics := fun owner => candidates_outline s owner name typeArgs (·.isStatic) fun _ => rfl
  have hinstances := fun owner =>
    candidates_outline s owner name typeArgs (!·.isStatic) fun _ => rfl
  simp only [resolveTypeMember, hstatics, hinstances, resolveTypeMemberIn_outline]

theorem resolveBound_outline : resolveBound s.outline = resolveBound s := by
  have hobject : ∀ t, boundObject s.outline t = boundObject s t := by
    intro t
    funext e
    cases e <;> simp [boundObject]
  funext object t name typeArgs sam
  have hcs := fun owner => candidates_outline s owner name typeArgs (!·.isStatic) fun _ => rfl
  simp only [resolveBound, hcs, hobject, selectOr_outline]

theorem superStart_outline : superStart s.outline = superStart s := by
  funext q depth
  cases q with
  | none =>
    simp only [superStart, Site.decl_outline, bind_map_left]
    rfl
  | some q =>
    simp only [superStart, Site.decl_outline, bind_map_left]
    rfl

theorem resolveSuper_outline : resolveSuper s.outline = resolveSuper s := by
  funext q name typeArgs sam
  have hcs := fun start =>
    candidates_outline s start name typeArgs (fun m => !m.isStatic && !m.isAbstract) fun _ => rfl
  simp only [resolveSuper, Site.thisDepth_outline, superStart_outline, hcs, selectOr_outline]

/-- **What a method reference means is found in the outlines.** -/
@[simp] theorem resolve_outline : resolve s.outline = resolve s := by
  funext r sam
  simp only [resolve, resolveNewArray_outline, resolveConstructor_outline,
    resolveTypeMember_outline, resolveBound_outline, resolveSuper_outline]

end Reference

/-! ## Captures -/

namespace CaptureSet

variable (s : Site)

theorem visit_outline : visit s.outline = visit s := by
  funext declared c e
  unfold visit
  simp only [Site.scope_outline, Site.thisDepth_outline, Site.memberDepth_outline,
    Site.creationDepth_outline, Site.field_outline, Site.method_outline, bind_map_left]
  rfl

@[simp] theorem ofLambda_outline : ofLambda s.outline = ofLambda s := by
  have hnode : visitNode s.outline = visitNode s := by
    funext declared c n
    cases n <;> simp [visitNode, visit_outline]
  funext params body
  simp only [ofLambda, hnode]

@[simp] theorem ofReference_outline : ofReference s.outline = ofReference s := rfl

theorem redirect_outline : redirect s.outline = redirect s := by
  funext c adapter e
  unfold redirect
  simp only [Site.unit_outline, Site.thisDepth_outline, Site.memberDepth_outline,
    Site.creationDepth_outline, CompilationUnit.field?_outline, CompilationUnit.method?_outline,
    Option.any_map]
  rfl

@[simp] theorem redirectAll_outline : redirectAll s.outline = redirectAll s := by
  funext c adapter body
  simp [redirectAll, redirect_outline]

@[simp] theorem operands_outline : operands s.outline = operands s := rfl

end CaptureSet

/-! ## Lowering -/

namespace Lowering

section Sites

variable (u : CompilationUnit) (cx : Context)

/-- A context in a unit without its code. -/
def Context.outline : Context := { cx with unit := cx.unit.outline }

@[simp] theorem Context.unit_outline : cx.outline.unit = cx.unit.outline := rfl

@[simp] theorem Context.site_outline (scope : Scope) :
    cx.outline.site scope = (cx.site scope).outline := rfl

@[simp] theorem Context.allocate_outline : cx.outline.allocate = cx.allocate := by
  simp [allocate, Naming.add, Naming.name, outline]

@[simp] theorem Context.finish_outline : cx.outline.finish = cx.finish := by
  funext c operands
  simp [finish, Closure.decl, outline]

theorem lambdaStatements_outline : lambdaStatements u.outline = lambdaStatements u := by
  have hreturn : adaptReturn u.outline = adaptReturn u := by
    funext bodyType sam v
    cases v <;> simp [adaptReturn]
  funext body bodyType sam
  cases body <;> simp [lambdaStatements, hreturn]

theorem bridgeParam_outline : bridgeParam u.outline = bridgeParam u := by
  funext p erased instantiated
  simp [bridgeParam]

theorem finishLambda_outline : finishLambda cx.outline = finishLambda cx := by
  funext scope adapter name sam l
  simp only [finishLambda, Context.site_outline, Context.unit_outline, CaptureSet.ofLambda_outline,
    lambdaStatements_outline, bridgeParam_outline, CaptureSet.redirectAll_outline,
    CaptureSet.operands_outline, Context.finish_outline]
  rfl

theorem referenceCall_outline : referenceCall u.outline = referenceCall u := by
  funext adapter captures r args
  simp [referenceCall]

theorem finishReference_outline : finishReference cx.outline = finishReference cx := by
  funext scope adapter name sam ref
  simp only [finishReference, Context.site_outline, Context.unit_outline, Reference.resolve_outline,
    CaptureSet.ofReference_outline, adaptValue_outline, referenceCall_outline, returnValue_outline,
    CaptureSet.operands_outline, Context.finish_outline]
  rfl

end Sites

section Trees

variable {cx : Context}

theorem lowerExprs_outline {es : List Expr}
    (h : ∀ e ∈ es, ∀ scope, lowerExpr cx.outline scope e = lowerExpr cx scope e) (scope : Scope) :
    lowerExprs cx.outline scope es = lowerExprs cx scope es := by
  induction es with
  | nil => simp [lowerExprs]
  | cons e es ih =>
    rw [List.forall_mem_cons] at h
    simp only [lowerExprs, h.1, ih h.2]

theorem lowerStmts_outline {ss : List Stmt}
    (h : ∀ st ∈ ss, ∀ scope, lowerStmt cx.outline scope st = lowerStmt cx scope st)
    (scope : Scope) :
    lowerStmts cx.outline scope ss = lowerStmts cx scope ss := by
  induction ss generalizing scope with
  | nil => simp [lowerStmts]
  | cons st ss ih =>
    rw [List.forall_mem_cons] at h
    simp only [lowerStmts, h.1, ih h.2]

theorem lowerPart_outline {part : Part}
    (h : part.All (fun e => ∀ scope, lowerExpr cx.outline scope e = lowerExpr cx scope e)
      fun st => ∀ scope, lowerStmt cx.outline scope st = lowerStmt cx scope st) (scope : Scope) :
    lowerPart cx.outline scope part = lowerPart cx scope part := by
  cases part with
  | exprs bs es => rw [lowerPart, lowerPart, lowerExprs_outline h]
  | stmts bs ss => rw [lowerPart, lowerPart, lowerStmts_outline h]

/-- **Lowering code looks at declarations only through their outlines.** -/
theorem shapeSteps_outline (cx : Context) : ShapeSteps
    (fun e => ∀ scope, lowerExpr cx.outline scope e = lowerExpr cx scope e)
    (fun st => ∀ scope, lowerStmt cx.outline scope st = lowerStmt cx scope st) where
  node e he hc scope := by
    cases hsite : e.isSite with
    | false => rw [lowerExpr_eq hsite, lowerExpr_eq hsite, lowerExprs_outline hc]
    | true =>
      cases e
      case methodRef ref =>
        obtain ⟨qualifier, member, typeArgs, target, span⟩ := ref
        have hqualifier : lowerQualifier cx.outline scope qualifier =
            lowerQualifier cx scope qualifier := by
          rw [lowerQualifier_eq, lowerQualifier_eq]
          exact congrArg _ (lowerExprs_outline hc scope)
        simp only [lowerExpr, Context.allocate_outline, Context.unit_outline,
          FunctionalInterface.resolve_outline, hqualifier, finishReference_outline]
      case lambda => cases he
      all_goals cases hsite
  lambda l hbody scope := by
    obtain ⟨params, body, bodyType, target, span⟩ := l
    have hlowered : lowerBody cx.outline (Scope.enter scope params) body =
        lowerBody cx (Scope.enter scope params) body := by
      cases body with
      | expr e => simp only [lowerBody, (List.forall_mem_singleton.mp hbody) _]
      | block ss => simp only [lowerBody, lowerStmts_outline hbody]
    simp only [lowerExpr, Context.allocate_outline, Context.unit_outline,
      FunctionalInterface.resolve_outline, hlowered, finishLambda_outline]
  stmt st hparts scope := by
    rw [lowerStmt_eq, lowerStmt_eq]
    exact congrArg _ (mapM_congr fun part hpart => lowerPart_outline (hparts part hpart) scope)

end Trees

/-- **Lowering a declaration looks at the others only through their
outlines.** -/
theorem lowerDecl_outline (u : CompilationUnit) (policy : SingletonInit) (d : TypeDecl) :
    lowerDecl u.outline policy d = lowerDecl u policy d := by
  have hcx : ∀ isStatic, declContext u.outline policy d isStatic =
      (declContext u policy d isStatic).outline := by
    intro isStatic
    simp [declContext, Context.outline]
  have hstmts : ∀ isStatic scope ss, lowerStmts (declContext u.outline policy d isStatic) scope ss =
      lowerStmts (declContext u policy d isStatic) scope ss := by
    intro isStatic scope ss
    rw [hcx, lowerStmts_outline ((shapeSteps_outline _).stmts ss)]
  have hfield : lowerField (declContext u.outline policy d) =
      lowerField (declContext u policy d) := by
    funext f
    rw [lowerField, lowerField, lowerOption_eq, lowerOption_eq, hcx,
      lowerExprs_outline ((shapeSteps_outline _).option f.init)]
  have hinitializer : lowerInitializer (declContext u.outline policy d) =
      lowerInitializer (declContext u policy d) := by
    funext i
    rw [lowerInitializer, lowerInitializer, hstmts]
  have hmethod : lowerMethod (declContext u.outline policy d) =
      lowerMethod (declContext u policy d) := by
    funext m
    rw [lowerMethod, lowerMethod]
    cases m.body with
    | none => rfl
    | some b => rw [lowerBlock, lowerBlock, hstmts]
  change (do
    let fields ← d.fields.mapM (lowerField (declContext u.outline policy d))
    let initializers ← d.initializers.mapM (lowerInitializer (declContext u.outline policy d))
    let methods ← d.methods.mapM (lowerMethod (declContext u.outline policy d))
    return { d with fields, initializers, methods }) = _
  rw [hfield, hinitializer, hmethod]
  rfl

end Lowering

end Closures
