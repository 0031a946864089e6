import Closures.Proofs.SingleAbstractMethod

/-!
# Redeclared methods

An interface may declare the abstract method of the interface it extends once
more, with the parameter types that it inherits. From a target the two
declarations are seen along different ways: the type arguments of the target are
put in before or after those of the extended interface, and what is left of type
variables is erased among the type parameters of the one interface or of the
other.

The first difference does not show (`Bindings.lookup_ofArgs_substList`). The
second one does. A type variable that is left, since the target is a raw use or
since the code around it has type variables of its own, may be bounded in one of
the two scopes and not in the other. Then the declarations count as two methods,
and the interface is refused as ambiguous; otherwise its own declaration is the
one to implement (`redeclared_resolves`).
-/

set_option autoImplicit false

namespace Closures

/-! ## Erasure after substitution -/

namespace Ty

/-- What a type erases to depends on what the type variable that it leads to
erases to. -/
theorem eraseWith_eq_iff {f g : String → Ty} (t : Ty) :
    t.eraseWith f = t.eraseWith g ↔ ∀ x, t.headVar? = some x → f x = g x := by
  induction t using eraseWith.induct with
  | case1 name => simp [eraseWith, headVar?]
  | case3 t ih => simp [eraseWith, headVar?, ih]
  | case5 t ts ih => simp [eraseWith, headVar?, ih]
  | _ => simp [eraseWith, headVar?]

/-- Substitution changes the erasure of a type only at the type variable that it
leads to. -/
theorem eraseWith_subst_eq_iff {f g : String → Ty} {a b c : Bindings} (t : Ty) :
    (t.subst a).eraseWith f = ((t.subst b).subst c).eraseWith g ↔
      ∀ x, t.headVar? = some x →
        ((var x).subst a).eraseWith f = (((var x).subst b).subst c).eraseWith g := by
  induction t using eraseWith.induct with
  | case1 name => simp [headVar?]
  | case3 t ih => simp [subst, eraseWith, headVar?, ih]
  | case5 t ts ih => simp [subst, substList, eraseWith, headVar?, ih]
  | _ => simp [subst, substList, eraseWith, headVar?]

theorem erasure_var_of_boundOf {params : List TypeParam} {name : String}
    (h : boundOf params name = none) :
    (var name).erasure params = object := by
  rw [erasure, eraseWith]
  cases params.length with
  | zero => rfl
  | succ n => rw [eraseVar, h]

theorem erasure_var_of_not_mem {params : List TypeParam} {name : String}
    (h : name ∉ params.map (·.name)) : (var name).erasure params = object := by
  have hbound : boundOf params name = none := by
    cases hb : boundOf params name with
    | none => rfl
    | some bound => exact absurd (mem_of_boundOf hb) h
  exact erasure_var_of_boundOf hbound

end Ty

namespace Bindings

theorem lookup_zip_map {names : List String} {args : List Ty} (f : Ty → Ty) (x : String) :
    (names.zip (args.map f)).lookup x = ((names.zip args).lookup x).map f := by
  induction names generalizing args with
  | nil => rfl
  | cons name names ih =>
    cases args with
    | nil => rfl
    | cons arg args =>
      rw [List.map_cons, List.zip_cons_cons, List.zip_cons_cons, List.lookup_cons, List.lookup_cons]
      cases x == name with
      | true => rfl
      | false => exact ih

/-- **Type arguments may be put in one after the other or all at once.** -/
theorem lookup_ofArgs_substList (params : List TypeParam) (args : List Ty) (b : Bindings)
    (x : String) :
    (ofArgs params (Ty.substList b args)).lookup x =
      ((ofArgs params args).lookup x).map (Ty.subst b) := by
  rw [Ty.substList_eq_map, ofArgs, ofArgs, List.length_map]
  split
  · exact lookup_zip_map _ x
  · rfl

theorem mem_of_lookup_ofArgs {params : List TypeParam} {args : List Ty} {x : String} {t : Ty}
    (h : (ofArgs params args).lookup x = some t) : t ∈ args := by
  rw [ofArgs] at h
  split at h
  · obtain ⟨before, after, hsplit, -⟩ := List.lookup_eq_some_iff.mp h
    have hmem : (x, t) ∈ (params.map (·.name)).zip args := by
      rw [hsplit]
      simp
    exact (List.of_mem_zip hmem).2
  · cases h

theorem not_mem_of_lookup_ofArgs {params : List TypeParam} {args : List Ty} {x : String}
    (hlength : params.length = args.length) (h : (ofArgs params args).lookup x = none) :
    x ∉ params.map (·.name) := by
  rw [ofArgs, if_pos hlength, List.lookup_eq_none_iff] at h
  intro hx
  have hfst : ((params.map (·.name)).zip args).map (·.1) = params.map (·.name) :=
    List.map_fst_zip (by rw [List.length_map, hlength])
  rw [← hfst] at hx
  obtain ⟨binding, hbinding, hname⟩ := List.mem_map.mp hx
  have hno := h binding hbinding
  rw [hname] at hno
  simp at hno

end Bindings

/-! ## Redeclaration -/

/-- Whether a method is left to implementations. -/
def Method.isPending (m : Method) : Bool :=
  !m.isStatic && m.kind == .method && m.isAbstract && !m.isDefault

/-- An interface that extends one type only and declares the one method of that
type again, which is abstract. -/
structure Redeclaration (u : CompilationUnit) where
  /-- The interface, and the type that it extends. -/
  sub : ClassId
  base : ClassId
  subDecl : TypeDecl
  baseDecl : TypeDecl
  /-- The type arguments in the use of the extended type. -/
  args : List Ty
  own : Method
  inherited : Method
  decl_sub : u.decl? sub = some subDecl
  decl_base : u.decl? base = some baseDecl
  isInterface : subDecl.isInterface = true
  supertypes_sub : subDecl.supertypes = [⟨base, args⟩]
  supertypes_base : baseDecl.supertypes = []
  length_args : baseDecl.typeParams.length = args.length
  methods_sub : subDecl.methods = [own]
  methods_base : baseDecl.methods = [inherited]
  isPending_own : own.isPending = true
  isPending_inherited : inherited.isPending = true
  name_own : own.name = inherited.name
  name_inherited : inherited.name ∉ ["equals", "hashCode", "toString"]
  /-- The inherited method has no type parameters of its own. -/
  typeParams_inherited : inherited.typeParams = []
  /-- The parameter types are the inherited ones. -/
  params_own : own.params.map (·.ty) =
    inherited.params.map fun p => p.ty.subst (.ofArgs baseDecl.typeParams args)

namespace Redeclaration

open FunctionalInterface

variable {u : CompilationUnit} (r : Redeclaration u) (targs : List Ty)

/-- The declarations by number. -/
def ownId : MethodId := ⟨r.sub, 0⟩

def inheritedId : MethodId := ⟨r.base, 0⟩

/-- A use of the interface as a target. -/
def target : Ty := .declared r.sub targs

/-- What the type parameters of the interface stand for in the target. -/
def bindings : Bindings := .ofArgs r.subDecl.typeParams targs

/-- The use of the extended type as seen from the target. -/
def baseUse : ClassType := ⟨r.base, Ty.substList (r.bindings targs) r.args⟩

/-- A type variable of the inherited method is the same type in both
declarations, as far as erasure goes. A type argument that is put in for it may
lead to a type variable; this must erase to one type among the type parameters
that either declaration sees. A type variable that the extended type does not
declare erases to the root type there. -/
def Agrees (x : String) : Prop :=
  match (Bindings.ofArgs r.baseDecl.typeParams r.args).lookup x with
  | some t => ∀ y, (t.subst (r.bindings targs)).headVar? = some y →
      (Ty.var y).erasure (u.typeParamsOf r.inheritedId) =
        (Ty.var y).erasure (u.typeParamsOf r.ownId)
  | none => ((Ty.var x).subst (r.bindings targs)).erasure (u.typeParamsOf r.ownId) = .object

/-- The type variables that the inherited parameters lead to agree. -/
def AgreesAll : Prop := ∀ p ∈ r.inherited.params, ∀ x, p.ty.headVar? = some x → r.Agrees targs x

/-- The inherited parameters lead to type parameters of the extended type only,
and no type variable that is left of the arguments is bounded where either
declaration stands. -/
structure Unbounded : Prop where
  declared : ∀ p ∈ r.inherited.params, ∀ x, p.ty.headVar? = some x →
    x ∈ r.baseDecl.typeParams.map (·.name)
  unbounded : ∀ t ∈ r.args, ∀ y, (t.subst (r.bindings targs)).headVar? = some y →
    Ty.boundOf (u.typeParamsOf r.inheritedId) y = none ∧
      Ty.boundOf (u.typeParamsOf r.ownId) y = none

/-- The declaration of the interface itself, as the method that implementations
see. -/
def ownMethod : FunctionalInterface where
  interface := ⟨r.sub, targs⟩
  method := r.ownId
  name := r.own.name
  params := r.own.params.map (·.ty.subst (r.bindings targs))
  returnType := r.own.returnType.subst (r.bindings targs)
  throws := r.own.throws.map (Ty.subst (r.bindings targs))
  erasedParams := u.erasedParams r.ownId
  erasedReturn := r.own.returnType.erasure (u.typeParamsOf r.ownId)
  markers := []

/-! ## The signatures -/

theorem bindingsOf_sub : bindingsOf u ⟨r.sub, targs⟩ = r.bindings targs := by
  rw [bindingsOf, r.decl_sub]
  rfl

theorem bindingsOf_baseUse : bindingsOf u (r.baseUse targs) =
    .ofArgs r.baseDecl.typeParams (Ty.substList (r.bindings targs) r.args) := by
  rw [bindingsOf, baseUse, r.decl_base]

theorem typeParamsOf_inheritedId : u.typeParamsOf r.inheritedId = r.baseDecl.typeParams := by
  have hmethod : u.method? r.inheritedId = some r.inherited := by
    rw [CompilationUnit.method?, inheritedId, r.decl_base, Option.bind_some, r.methods_base]
    rfl
  rw [CompilationUnit.typeParamsOf, hmethod, inheritedId, r.decl_base, Option.map_some,
    Option.map_some, Option.getD_some, Option.getD_some, r.typeParams_inherited, List.append_nil]

/-- **What agreement is about.** The two declarations instantiate and erase a
type variable to one type. -/
theorem agrees_iff (x : String) :
    r.Agrees targs x ↔
      ((Ty.var x).subst (bindingsOf u (r.baseUse targs))).erasure
          (u.typeParamsOf r.inheritedId) =
        (((Ty.var x).subst (.ofArgs r.baseDecl.typeParams r.args)).subst (r.bindings targs)).erasure
          (u.typeParamsOf r.ownId) := by
  have hlookup := Bindings.lookup_ofArgs_substList r.baseDecl.typeParams r.args (r.bindings targs) x
  rw [bindingsOf_baseUse, Agrees]
  cases h : (Bindings.ofArgs r.baseDecl.typeParams r.args).lookup x with
  | some t =>
    -- both sides come to the argument as seen from the target, and differ in the
    -- scope that erases it
    rw [h, Option.map_some] at hlookup
    have hbase :
      (Ty.var x).subst (.ofArgs r.baseDecl.typeParams (Ty.substList (r.bindings targs) r.args)) =
        t.subst (r.bindings targs) := by rw [Ty.subst, hlookup, Option.getD_some]
    have hsub : (Ty.var x).subst (.ofArgs r.baseDecl.typeParams r.args) = t := by
      rw [Ty.subst, h, Option.getD_some]
    rw [hbase, hsub]
    exact (Ty.eraseWith_eq_iff _).symm
  | none =>
    -- no argument is put in, and the extended type, whose method has no type
    -- parameters, does not know the variable
    rw [h, Option.map_none] at hlookup
    have hbase :
      (Ty.var x).subst (.ofArgs r.baseDecl.typeParams (Ty.substList (r.bindings targs) r.args)) =
        .var x := by rw [Ty.subst, hlookup, Option.getD_none]
    have hsub : (Ty.var x).subst (.ofArgs r.baseDecl.typeParams r.args) = .var x := by
      rw [Ty.subst, h, Option.getD_none]
    have hobject : (Ty.var x).erasure (u.typeParamsOf r.inheritedId) = .object := by
      rw [typeParamsOf_inheritedId]
      exact Ty.erasure_var_of_not_mem (Bindings.not_mem_of_lookup_ofArgs r.length_args h)
    rw [hbase, hsub, hobject]
    exact eq_comm

/-- The declarations have one signature exactly if the type variables of their
parameters agree. -/
theorem signature_eq_iff :
    signatureIn u (r.baseUse targs) (r.inheritedId, r.inherited) =
      signatureIn u ⟨r.sub, targs⟩ (r.ownId, r.own) ↔ r.AgreesAll targs := by
  have hown : signatureIn u ⟨r.sub, targs⟩ (r.ownId, r.own) =
      r.inherited.params.map fun p => ((p.ty.subst (.ofArgs r.baseDecl.typeParams r.args)).subst
        (r.bindings targs)).erasure (u.typeParamsOf r.ownId) := by
    have hparams := congrArg
      (List.map fun t => (Ty.subst (r.bindings targs) t).erasure (u.typeParamsOf r.ownId))
        r.params_own
    rw [List.map_map, List.map_map] at hparams
    rw [signatureIn, bindingsOf_sub]
    exact hparams
  rw [hown, signatureIn, List.map_inj_left]
  refine forall₂_congr fun p _ => ?_
  rw [Ty.erasure, Ty.erasure, Ty.eraseWith_subst_eq_iff]
  exact forall₂_congr fun x _ => (r.agrees_iff targs x).symm

theorem agreesAll_of_unbounded (h : r.Unbounded targs) : r.AgreesAll targs := by
  intro p hp x hx
  rw [Agrees]
  cases hlookup : (Bindings.ofArgs r.baseDecl.typeParams r.args).lookup x with
  | none =>
    exact absurd (h.declared p hp x hx) (Bindings.not_mem_of_lookup_ofArgs r.length_args hlookup)
  | some t =>
    intro y hy
    have ht : t ∈ r.args := Bindings.mem_of_lookup_ofArgs hlookup
    obtain ⟨hbase, hsub⟩ := h.unbounded t ht y hy
    rw [Ty.erasure_var_of_boundOf hbase, Ty.erasure_var_of_boundOf hsub]

/-! ## The declarations as candidates -/

/-- The declarations as they are met from the target. -/
def ownCandidate : Candidate :=
  ⟨0, ⟨r.sub, targs⟩, r.ownId, r.own, u.erasedParams r.ownId,
    signatureIn u ⟨r.sub, targs⟩ (r.ownId, r.own)⟩

def inheritedCandidate : Candidate :=
  ⟨0, r.baseUse targs, r.inheritedId, r.inherited, u.erasedParams r.inheritedId,
    signatureIn u (r.baseUse targs) (r.inheritedId, r.inherited)⟩

theorem base_ne_sub : r.base ≠ r.sub := by
  intro h
  have hdecl : r.baseDecl = r.subDecl := by
    have hbase := r.decl_base
    rw [h, r.decl_sub] at hbase
    exact (Option.some.inj hbase).symm
  have hnil := r.supertypes_base
  rw [hdecl, r.supertypes_sub] at hnil
  cases hnil

/-- The target leads to the extended type and no further. -/
theorem reachable_eq : reachable u ⟨r.sub, targs⟩ = [⟨r.sub, targs⟩, r.baseUse targs] := by
  have hsub : u.directSupertypes ⟨r.sub, targs⟩ = [r.baseUse targs] := by
    rw [CompilationUnit.directSupertypes, r.decl_sub]
    dsimp only
    rw [r.supertypes_sub]
    rfl
  have hbase : u.directSupertypes (r.baseUse targs) = [] := by
    rw [CompilationUnit.directSupertypes, baseUse, r.decl_base]
    dsimp only
    rw [r.supertypes_base]
    rfl
  have hsearch := u.searches_reachable ⟨r.sub, targs⟩
  -- the search is followed until its queue is empty, so the number of steps plays no role
  generalize reachable u ⟨r.sub, targs⟩ = out at hsearch ⊢
  cases hsearch with
  | skip hseen => cases hseen
  | visit _ hnext =>
    rw [hsub] at hnext
    cases hnext with
    | skip hseen => exact absurd (List.mem_singleton.mp hseen) r.base_ne_sub
    | visit _ hlast =>
      rw [hbase] at hlast
      cases hlast
      rfl

/-- An interface with one abstract method offers this one. -/
theorem candidatesOf_eq {d : TypeDecl} {m : Method} (owner : ClassType)
    (hd : u.decl? owner.id = some d) (hmethods : d.methods = [m]) (hm : m.isPending = true) :
    candidatesOf u 0 owner = [⟨0, owner, ⟨owner.id, 0⟩, m, u.erasedParams ⟨owner.id, 0⟩,
      signatureIn u owner (⟨owner.id, 0⟩, m)⟩] := by
  have hlist : u.methodsOf owner.id = [(⟨owner.id, 0⟩, m)] := by
    rw [CompilationUnit.methodsOf, hd]
    dsimp only
    rw [TypeDecl.methodIds, hmethods]
    rfl
  simp only [Method.isPending, Bool.and_eq_true, Bool.not_eq_true'] at hm
  rw [candidatesOf, hlist, List.filter_cons_of_pos (by simp [hm])]
  rfl

theorem candidates_eq : candidates u [⟨r.sub, targs⟩] =
    [r.ownCandidate targs, r.inheritedCandidate targs] := by
  rw [candidates, List.zipIdx_singleton, List.flatMap_singleton]
  dsimp only
  rw [reachable_eq, List.flatMap_cons, List.flatMap_singleton,
    candidatesOf_eq _ r.decl_sub r.methods_sub r.isPending_own,
    candidatesOf_eq (r.baseUse targs) r.decl_base r.methods_base r.isPending_inherited]
  rfl

theorem isDefault_of_isPending {m : Method} (h : m.isPending = true) : m.isDefault = false := by
  simp only [Method.isPending, Bool.and_eq_true, Bool.not_eq_true'] at h
  exact h.2

/-- **Neither declaration retires the other**, and both are left to
implement. -/
theorem abstractOnes_eq :
    abstractOnes u [r.ownCandidate targs, r.inheritedCandidate targs] =
      [r.ownCandidate targs, r.inheritedCandidate targs] := by
  have hname : ∀ c ∈ [r.ownCandidate targs, r.inheritedCandidate targs],
      c.method.name = r.inherited.name := by
    simp [ownCandidate, inheritedCandidate, r.name_own]
  have hdefault : ∀ c ∈ [r.ownCandidate targs, r.inheritedCandidate targs],
      c.method.isDefault = false := by
    simp [ownCandidate, inheritedCandidate, isDefault_of_isPending r.isPending_own,
      isDefault_of_isPending r.isPending_inherited]
  refine List.filter_eq_self.mpr fun c hc => ?_
  have hobject : c.isObjectMethod = false := by
    rw [← Bool.not_eq_true, Candidate.isObjectMethod_iff]
    have hno := r.name_inherited
    rw [← hname c hc] at hno
    rintro (⟨h, -⟩ | ⟨h, -⟩ | ⟨h, -⟩) <;> simp [h] at hno
  have hretired : ∀ other ∈ [r.ownCandidate targs, r.inheritedCandidate targs],
      ¬other.retires u c = true := by
    intro other hother h
    rw [Candidate.retires_iff] at h
    exact absurd h.isDefault (by rw [hdefault other hother]; exact Bool.false_ne_true)
  rw [hdefault c hc, hobject, List.any_eq_false.mpr hretired]
  rfl

/-! ## Resolution -/

theorem lists_target : Lists u (r.target targs) [⟨r.sub, targs⟩] where
  listed t ht := by
    cases List.mem_singleton.mp ht
    exact .inr ⟨⟨r.sub, targs⟩, r.subDecl, rfl, r.decl_sub, r.isInterface⟩
  members := rfl
  ne_nil := List.cons_ne_nil _ _

theorem ofCandidate_own :
    ofCandidate u [⟨r.sub, targs⟩] (r.ownCandidate targs) = r.ownMethod targs := by
  rw [ofCandidate, ownCandidate]
  dsimp only
  rw [bindingsOf_sub]
  rfl

/-- The keys of the declarations decide. -/
theorem resolve_target :
    resolve u (r.target targs) =
      if (r.inheritedCandidate targs).key = (r.ownCandidate targs).key then .ok (r.ownMethod targs)
      else .error (.manyAbstractMethods (r.target targs) [r.inherited.name, r.inherited.name]) := by
  rw [resolve, members_eq_ok_iff.mpr (r.lists_target targs), ok_bind]
  dsimp only
  rw [candidates_eq, abstractOnes_eq, List.map_cons, List.map_singleton]
  split_ifs with h
  · have hkeys : [(r.ownCandidate targs).key, (r.inheritedCandidate targs).key].eraseDups =
        [(r.ownCandidate targs).key] := by simp [List.eraseDups_cons, h]
    rw [hkeys, ← ofCandidate_own]
    rfl
  · have hkeys : [(r.ownCandidate targs).key, (r.inheritedCandidate targs).key].eraseDups =
        [(r.ownCandidate targs).key,
          (r.inheritedCandidate targs).key] := by simp [List.eraseDups_cons, h]
    have hnames : [(r.ownCandidate targs).key, (r.inheritedCandidate targs).key].map (·.1) =
        [r.inherited.name, r.inherited.name] := by
      rw [List.map_cons, List.map_singleton]
      exact congrArg (· :: _) r.name_own
    rw [hkeys, ← hnames]
    rfl

theorem key_eq_iff : (r.inheritedCandidate targs).key = (r.ownCandidate targs).key ↔
    r.AgreesAll targs := by
  rw [← signature_eq_iff, Candidate.key, Candidate.key, Prod.mk.injEq]
  exact and_iff_right r.name_own.symm

end Redeclaration

/-- **An interface that redeclares the method it inherits** has this as its
single abstract method exactly if the type variables of the parameters agree,
and is refused as ambiguous otherwise. They agree for a target from which no
bounded type variable is left. -/
theorem redeclared_resolves {u : CompilationUnit} (r : Redeclaration u) (targs : List Ty) :
    (FunctionalInterface.resolve u (r.target targs) = .ok (r.ownMethod targs) ↔ r.AgreesAll targs) ∧
      (FunctionalInterface.resolve u (r.target targs) =
          .error (.manyAbstractMethods (r.target targs) [r.inherited.name, r.inherited.name]) ↔
        ¬r.AgreesAll targs) ∧
      (r.Unbounded targs → FunctionalInterface.resolve u (r.target targs) =
        .ok (r.ownMethod targs)) := by
  have hresolve := r.resolve_target targs
  have hok : r.AgreesAll targs →
      FunctionalInterface.resolve u (r.target targs) = .ok (r.ownMethod targs) := fun h => by
    rw [hresolve, if_pos ((r.key_eq_iff targs).mpr h)]
  have herror : ¬r.AgreesAll targs → FunctionalInterface.resolve u (r.target targs) =
      .error (.manyAbstractMethods (r.target targs) [r.inherited.name,
        r.inherited.name]) := fun h => by
    rw [hresolve, if_neg (mt (r.key_eq_iff targs).mp h)]
  refine ⟨⟨fun h => ?_, hok⟩, ⟨fun h hagree => ?_, herror⟩, fun h =>
    hok (r.agreesAll_of_unbounded targs h)⟩
  · by_contra hagree
    cases h.symm.trans (herror hagree)
  · cases h.symm.trans (hok hagree)

namespace Sink

/-- A method that takes one value of the type that a variable stands for. -/
def accept (id : LocalId) (var : String) : Method :=
  ⟨"accept", [], [⟨id, "value", .var var, true⟩], .void, [], .method, false,
    true, false, false, none, .dummy⟩

/-- `interface Sink<T> { void accept(T value); }`, with a bound of `T`. -/
def sink (bound : Option Ty) : TypeDecl :=
  { TypeDecl.empty 0 "Sink" .topLevel with
    isInterface := true
    typeParams := [⟨"T", bound⟩]
    methods := [accept 1 "T"] }

/-- `interface TextSink<U> extends Sink<U> { void accept(U value); }`, with a
bound of `U`. -/
def textSink (bound : Option Ty) : TypeDecl :=
  { TypeDecl.empty 1 "TextSink" .topLevel with
    isInterface := true
    typeParams := [⟨"U", bound⟩]
    interfaces := [⟨0, [.var "U"]⟩]
    methods := [accept 2 "U"] }

def unit (bound textBound : Option Ty) : CompilationUnit where
  name := "redeclared"
  sourcePath := none
  types := [sink bound, textSink textBound]

/-- `TextSink` redeclares the method of `Sink`, whatever the bounds. -/
def redeclaration (bound textBound : Option Ty) : Redeclaration (unit bound textBound) where
  sub := 1
  base := 0
  subDecl := textSink textBound
  baseDecl := sink bound
  args := [.var "U"]
  own := accept 2 "U"
  inherited := accept 1 "T"
  decl_sub := rfl
  decl_base := rfl
  isInterface := rfl
  supertypes_sub := rfl
  supertypes_base := rfl
  length_args := rfl
  methods_sub := rfl
  methods_base := rfl
  isPending_own := rfl
  isPending_inherited := rfl
  name_own := rfl
  name_inherited := by decide
  typeParams_inherited := rfl
  params_own := rfl

/-- Of the type argument `String` no type variable is left. -/
theorem unbounded_string (bound textBound : Option Ty) :
    (redeclaration bound textBound).Unbounded [.string] where
  declared := by
    intro p hp x hx
    cases List.mem_singleton.mp hp
    cases hx
    exact List.mem_cons_self
  unbounded := by
    intro t ht y hy
    cases List.mem_singleton.mp ht
    cases hy

end Sink

/-- `TextSink<String>` has one method to implement although `U` is bounded. -/
theorem redeclared_resolves_text :
    (Sink.redeclaration none (some .string)).Unbounded [.string] ∧
      FunctionalInterface.resolve (Sink.unit none (some .string)) (.declared 1 [.string]) =
        .ok ((Sink.redeclaration none (some .string)).ownMethod [.string]) :=
  ⟨Sink.unbounded_string none (some .string),
    (redeclared_resolves (Sink.redeclaration none (some .string)) [.string]).2.2
      (Sink.unbounded_string none (some .string))⟩

/-- A raw use of `TextSink<U extends String>` is refused as ambiguous. So is
`TextSink<T>` in the scope of some other `T`, if `Sink` has a `T` that is
bounded as well. -/
theorem Sink.redeclared_refused :
    FunctionalInterface.resolve (unit none (some .string))
      ((redeclaration none (some .string)).target []) =
        .error (.manyAbstractMethods (.declared 1 []) ["accept", "accept"]) ∧
      FunctionalInterface.resolve (unit (some .string) (some .string))
          ((redeclaration (some .string) (some .string)).target [.var "T"]) =
        .error (.manyAbstractMethods (.declared 1 [.var "T"]) ["accept", "accept"]) := by
  constructor
  · cbv
  · cbv

end Closures
