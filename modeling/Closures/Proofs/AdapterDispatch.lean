import Mathlib
import Closures.Machine.Session
import Closures.Proofs.Outline
import Closures.Proofs.SiteTargets
import Closures.Proofs.SuperDispatch
import Closures.Proofs.Superclasses

/-!
# Calls reach adapters

An adapter declares one method, with the erased parameter types of the abstract
method that its site was resolved to. Callers may name another declaration of
the same method, whose erased parameter types differ. Dispatch finds the
adapter's method for all of them, by erased types or by the number of
parameters, unless a default method in between has just the erased types that
are asked for (`calls_reach_adapter`).

Three facts meet here: erasing twice is erasing once (`Ty.erasure_erasure`), an
adapter has no superclass and no default methods, and its interfaces are the
members of the target.
-/

set_option autoImplicit false

namespace Closures

/-! ## Erasing twice -/

namespace Ty

/-- What consists of erased types is erased. -/
theorem eraseWith_eraseWith {f g : String → Ty} (h : ∀ n, (g n).eraseWith f = g n) (t : Ty) :
    (t.eraseWith g).eraseWith f = t.eraseWith g := by
  fun_induction eraseWith g t with
  | case1 name => exact h name
  | case3 t ih => rw [eraseWith, ih]
  | case5 t ts ih => exact ih
  | _ => rfl

theorem eraseWith_eraseVar (f : String → Ty) (params : List TypeParam) (steps : Nat)
    (name : String) :
    (eraseVar params steps name).eraseWith f = eraseVar params steps name := by
  induction steps generalizing name with
  | zero => rfl
  | succ steps ih =>
    rw [eraseVar]
    split
    · exact eraseWith_eraseWith ih _
    · rfl

/-- **Erasing twice is erasing once**, whatever the type parameters are the
second time. -/
theorem erasure_erasure (params others : List TypeParam) (t : Ty) :
    (t.erasure params).erasure others = t.erasure params :=
  eraseWith_eraseWith (eraseWith_eraseVar _ params _) t

end Ty

/-! ## Declarations that keep their outlines -/

namespace CompilationUnit

/-- What `u` declares is declared in `v` too, up to code. -/
def OutlinedIn (u v : CompilationUnit) : Prop :=
  ∀ id d, u.decl? id = some d → ∃ d', v.decl? id = some d' ∧ d'.outline = d.outline

namespace OutlinedIn

variable {u v : CompilationUnit}

theorem method? (h : u.OutlinedIn v) {id : MethodId} {m : Method} (hm : u.method? id = some m) :
    ∃ m', v.method? id = some m' ∧ m'.outline = m.outline := by
  obtain ⟨d, hd, hi⟩ := Option.bind_eq_some_iff.mp hm
  obtain ⟨d', hd', hout⟩ := h _ d hd
  obtain ⟨m', hm', heq⟩ := getElem?_of_map_eq (congrArg TypeDecl.methods hout) hi
  exact ⟨m', Option.bind_eq_some_iff.mpr ⟨d', hd', hm'⟩, heq⟩

/-- Erased parameter types are read off outlines. -/
theorem erasedParams (h : u.OutlinedIn v) {id : MethodId} {m : Method}
    (hm : u.method? id = some m) :
    v.erasedParams id = u.erasedParams id := by
  obtain ⟨m', hm', heq⟩ := h.method? hm
  obtain ⟨d, hd, -⟩ := Option.bind_eq_some_iff.mp hm
  obtain ⟨d', hd', hout⟩ := h _ d hd
  have htype : d'.typeParams = d.typeParams := by
    simpa [TypeDecl.outline] using congrArg TypeDecl.typeParams hout
  have hparams : m'.params = m.params := by simpa [Method.outline] using congrArg Method.params heq
  have htypeParams : m'.typeParams = m.typeParams := by
    simpa [Method.outline] using congrArg Method.typeParams heq
  simp only [CompilationUnit.erasedParams, typeParamsOf, hm, hm', hd, hd', Option.map_some,
    Option.getD_some, htype, hparams, htypeParams]

end OutlinedIn

end CompilationUnit

namespace Lowering

theorem DeclRun.outline_eq {u : CompilationUnit} {policy : SingletonInit} {d d' : TypeDecl}
    {start stop : Progress} (run : DeclRun u policy d d' start stop) : d'.outline = d.outline := by
  have hfields : d'.fields.map Field.outline = d.fields.map Field.outline := by
    refine map_eq_of_forall₂ ((forall₂_of_mapM_run_ok run.fields_eq).imp ?_)
    rintro f f' ⟨p, p', h⟩
    obtain ⟨init, p₁, -, h⟩ := bind_run_eq_ok.mp h
    cases h
    rfl
  have hmethods : d'.methods.map Method.outline = d.methods.map Method.outline := by
    refine map_eq_of_forall₂ ((forall₂_of_mapM_run_ok run.methods_eq).imp ?_)
    rintro m m' ⟨p, p', h⟩
    obtain ⟨body, p₁, -, h⟩ := bind_run_eq_ok.mp h
    cases h
    rfl
  rw [TypeDecl.outline, TypeDecl.outline, hfields, hmethods, run.rest_eq]

/-- **Lowering keeps the outlines of declarations.** -/
theorem UnitRun.outlinedIn {u v : CompilationUnit} {policy : SingletonInit} {summary : Summary}
    (run : UnitRun u policy v summary) (hu : u.IsArena) : u.OutlinedIn v := by
  intro id d hd
  obtain ⟨d', hd', h⟩ := run.exists_placed hu hd
  refine ⟨d', hd', ?_⟩
  rcases h with ⟨hmem, hid⟩ | ⟨rfl, -⟩
  · obtain ⟨d₀, hd₀, p, p', hrun⟩ := exists_of_forall₂_right run.forall₂_lowered hmem
    obtain ⟨declRun⟩ := exists_declRun hrun
    have hid₀ : d'.id = d₀.id := by rw [declRun.rest_eq]
    obtain rfl := InPlace.eq_of_id hu (mem_activeDecls.mp hd₀).1 (List.mem_of_getElem? hd)
      (hid₀.symm.trans hid)
    exact declRun.outline_eq
  · rfl

end Lowering

/-! ## Dispatch to an adapter -/

section Adapter

variable {u v : CompilationUnit} {policy : SingletonInit} {c : Closure}

/-- The number of the one method of an adapter. -/
def Closure.methodId (c : Closure) : MethodId := ⟨c.adapter, 0⟩

namespace Closure

section Declared

variable (hdecl : v.decl? c.adapter = some (c.decl u policy))

include hdecl

theorem methodsOf_adapter : v.methodsOf c.adapter = [(c.methodId, c.implementation)] := by
  rw [CompilationUnit.methodsOf, hdecl]
  rfl

theorem lineage_adapter : v.lineage c.adapter = [c.adapter] := by
  refine CompilationUnit.lineage_eq_singleton ?_
  rw [CompilationUnit.superclass?, hdecl]
  rfl

theorem interfacesOf_adapter :
    v.interfacesOf c.adapter = (c.sam.interface :: c.sam.markers).map (·.id) := by
  rw [CompilationUnit.interfacesOf, hdecl]
  rfl

theorem method?_adapter : v.method? c.methodId = some c.implementation :=
  Option.bind_eq_some_iff.mpr ⟨_, hdecl, rfl⟩

/-- An adapter and its method have no type parameters. -/
theorem erasedParams_adapter :
    v.erasedParams c.methodId = c.params.map fun p => p.ty.erasure [] := by
  rw [CompilationUnit.erasedParams, method?_adapter hdecl]
  have hparams : v.typeParamsOf c.methodId = [] := by
    rw [CompilationUnit.typeParamsOf, method?_adapter hdecl, methodId, hdecl]
    rfl
  simp only [hparams]
  rfl

/-- What the method of an adapter passes for, it is found for. -/
theorem findImplementation?_adapter {test : MethodId → Method → Bool}
    (h : test c.methodId c.implementation = true) :
    v.findImplementation? c.adapter test = some c.methodId := by
  have hconcrete : CompilationUnit.isConcrete c.implementation = true := rfl
  have hfirst : v.firstMethod? [c.adapter] (fun id m => CompilationUnit.isConcrete m && test id m) =
      some c.methodId := by
    simp [CompilationUnit.firstMethod?, methodsOf_adapter hdecl, hconcrete, h]
  simp only [CompilationUnit.findImplementation?, lineage_adapter hdecl, hfirst]

/-- If something else is found, it is a default method of an interface. -/
theorem of_findImplementation?_adapter {test : MethodId → Method → Bool} {id : MethodId}
    (h : v.findImplementation? c.adapter test = some id) :
    id = c.methodId ∨ id.owner ∈ v.interfaceOrder [c.adapter] ∧
      ∃ m, (id, m) ∈ v.methodsOf id.owner ∧ m.isDefault = true ∧ test id m = true := by
  simp only [CompilationUnit.findImplementation?, lineage_adapter hdecl] at h
  split at h
  · rename_i id' hfirst
    cases h
    obtain ⟨howner, m, hm, -⟩ := CompilationUnit.mem_of_firstMethod? hfirst
    rw [List.mem_singleton.mp howner, methodsOf_adapter hdecl, List.mem_singleton] at hm
    exact .inl (congrArg Prod.fst hm)
  · split at h
    · obtain ⟨howner, m, hm, htest⟩ := CompilationUnit.mem_of_firstMethod? h
      rw [Bool.and_eq_true] at htest
      exact .inr ⟨howner, m, hm, htest⟩
    · cases h

/-- By name and number of parameters the method of an adapter is found. -/
theorem findByArity?_adapter :
    v.findByArity? c.adapter c.sam.name c.params.length = some c.methodId := by
  apply findImplementation?_adapter hdecl
  simp [implementation]

/-- **Dispatch falls back on the number of parameters** where no default method
has the erased types that are asked for. -/
theorem resolveVirtual?_adapter {id : MethodId} {m : Method} (hm : v.method? id = some m)
    (hname : m.name = c.sam.name) (hlen : m.params.length = c.params.length)
    (hdefault : ∀ x ∈ v.interfaceOrder [c.adapter], ∀ y ∈ v.methodsOf x, y.2.isDefault = true →
      y.2.name = m.name → v.erasedParams y.1 ≠ v.erasedParams id) :
    v.resolveVirtual? c.adapter id = some c.methodId := by
  simp only [CompilationUnit.resolveVirtual?, hm]
  cases hfind : v.findImplementation? c.adapter
      (fun id' m' => m'.name == m.name && v.erasedParams id' == v.erasedParams id) with
  | none =>
    rw [hname, hlen, findByArity?_adapter hdecl]
    rfl
  | some found =>
    rcases of_findImplementation?_adapter hdecl hfind with rfl | ⟨howner, m',
      hm', hisDefault, htest⟩
    · rfl
    · rw [Bool.and_eq_true, beq_iff_eq, beq_iff_eq] at htest
      exact absurd htest.2 (hdefault _ howner _ hm' hisDefault htest.1)

/-- The declaration that the site was resolved to is met by its erased types. -/
theorem resolveVirtual?_sam {m : Method} (hm : v.method? c.sam.method = some m)
    (hname : m.name = c.sam.name)
    (herased : v.erasedParams c.methodId = v.erasedParams c.sam.method) :
    v.resolveVirtual? c.adapter c.sam.method = some c.methodId := by
  simp only [CompilationUnit.resolveVirtual?, hm]
  rw [findImplementation?_adapter hdecl (by simp [implementation, hname, herased])]
  rfl

end Declared

end Closure

end Adapter

/-! ## Members of targets -/

namespace FunctionalInterface

variable {u : CompilationUnit} {target : Ty} {ms : List ClassType}

/-- The erased parameter types of a method as seen from a use of its type. -/
def signatureIn (u : CompilationUnit) (owner : ClassType) (x : MethodId × Method) : List Ty :=
  x.2.params.map fun p => (p.ty.subst (bindingsOf u owner)).erasure (u.typeParamsOf x.1)

theorem listedMember_eq_ok {inIntersection : Bool} {t : Ty} {o : Option ClassType}
    (h : listedMember u inIntersection t = .ok o) :
    t = .object ∨ ∃ id args, t = .declared id args ∧ o = some ⟨id, args⟩ := by
  cases t
  case object => exact .inl rfl
  case declared id args =>
    rw [listedMember] at h
    split at h <;> cases h
    exact .inr ⟨id, args, rfl, rfl⟩
  all_goals cases h

/-- The types that a target names. -/
def namedTypes : Ty → List Ty
  | .inter ts => ts
  | t => [t]

/-- What a target names is the root type or one of its members. -/
theorem of_members (h : members u target = .ok ms) {t : Ty} (ht : t ∈ namedTypes target) :
    t = .object ∨ ∃ m ∈ ms, t = .declared m.id m.args := by
  obtain ⟨inIntersection, listed, hlisted, rfl⟩ : ∃ inIntersection listed,
      (namedTypes target).mapM (listedMember u inIntersection) = .ok listed ∧
        listed.filterMap id = ms := by
    cases target
    all_goals
      obtain ⟨listed, hlisted, h⟩ := bind_eq_ok.mp h
      refine ⟨_, listed, hlisted, ?_⟩
      dsimp only at h
      split at h <;> cases h
      rfl
  obtain ⟨o, ho, hlisted⟩ := exists_of_forall₂_right (forall₂_of_mapM_ok hlisted).flip ht
  rcases listedMember_eq_ok hlisted with rfl | ⟨id, args, rfl, rfl⟩
  · exact .inl rfl
  · exact .inr ⟨⟨id, args⟩, List.mem_filterMap.mpr ⟨_, ho, rfl⟩, rfl⟩

/-- **An instance of all members is an instance of the target**, and can be cast
to it. -/
theorem isInstance_target (hms : members u target = .ok ms) {v : CompilationUnit} {type : ClassId}
    (hall : ∀ m ∈ ms, v.isSubclass type m.id = true) {h : Heap} {r : Ref} {serial : UInt32}
    {fields : Table FieldId Value} {outer : Option Ref}
    (hr : h[r]? = some (.inst type serial fields outer)) :
    isInstance v h (.ref r) target = true ∧ castTo v (.ref r) target h = .ok (.ref r) := by
  have hnamed : ∀ t ∈ namedTypes target, isInstance v h (.ref r) t = true := by
    intro t ht
    rcases of_members hms ht with rfl | ⟨m, hm, rfl⟩
    · simp [isInstance]
    · simp only [isInstance, hr, hall m hm]
  have hinstance : isInstance v h (.ref r) target = true := by
    cases target
    case inter ts =>
      change ∀ t ∈ ts, _ at hnamed
      simp only [isInstance]
      clear hms
      induction ts with
      | nil => rfl
      | cons t ts ih =>
        rw [List.forall_mem_cons] at hnamed
        rw [isInstanceOfAll, hnamed.1, ih hnamed.2]
        rfl
    all_goals exact hnamed _ (List.mem_singleton_self _)
  refine ⟨hinstance, ?_⟩
  cases target
  case primitive k =>
    rcases of_members hms (List.mem_singleton_self _) with h | ⟨_, _, h⟩ <;> cases h
  all_goals simp [castTo, hinstance]

/-- An implementation declares just the members of the target. -/
theorem mem_interfaces_iff {c : Candidate} (hc : c ∈ candidates u ms) {t : ClassType} :
    t ∈ (ofCandidate u ms c).interface :: (ofCandidate u ms c).markers ↔ t ∈ ms := by
  have hlt := member_lt_of_mem_candidates hc
  have hget : ms.getD c.member c.owner = ms[c.member] := List.getD_eq_getElem _ _ hlt
  simp only [ofCandidate, hget]
  exact (List.getElem_cons_eraseIdx_perm hlt).mem_iff

end FunctionalInterface

/-! ## Calls -/

/-- One of the types that a target leads to declares a default method of a name
and erased parameter types. -/
def CompilationUnit.OffersDefault (u : CompilationUnit) (members : List ClassType) (name : String)
    (erased : List Ty) : Prop :=
  ∃ t ∈ members, ∃ x, u.isSubclass t.id x = true ∧
    ∃ y ∈ u.methodsOf x, y.2.isDefault = true ∧ y.2.name = name ∧ u.erasedParams y.1 = erased

/-- What calls and casts of the instances of an adapter do. The site had a
target in the unit `u` and was resolved to the method `sam`, and `v` is the
lowered unit. -/
structure Reached (u v : CompilationUnit) (target : Ty) (sam : FunctionalInterface)
    (adapter : TypeDecl) :
    Prop where
  /-- The adapter has one method, with the parameters of `sam`, erased. -/
  single : ∃ m, adapter.methods = [m] ∧ m.name = sam.name ∧ m.params.length = sam.params.length ∧
    m.params.map (·.ty) = sam.erasedParams
  /-- It is what a call of the method of the site runs, ... -/
  resolved : v.resolveVirtual? adapter.id sam.method = some ⟨adapter.id, 0⟩
  /-- ... or a call by name and number of arguments, ... -/
  named : v.findByArity? adapter.id sam.name sam.params.length = some ⟨adapter.id, 0⟩
  called : ∀ (budget : Nat) (s : Store) (r : Ref) serial fields outer (args : List Value),
    s.heap[r]? = some (.inst adapter.id serial fields outer) → args.length = sam.params.length →
    Session.call v budget (.ref r) sam.name args s = invoke v budget ⟨adapter.id, 0⟩ (some r) args s
  /-- ... or a call of any method that the target leads to with the same name
  and, as seen from there, the same parameters, unless a default method stands
  in for just that method. -/
  equivalent : ∀ ms, FunctionalInterface.members u target = .ok ms →
    ∀ t ∈ ms, ∀ owner ∈ FunctionalInterface.reachable u t, ∀ x ∈ u.methodsOf owner.id,
      x.2.name = sam.name →
      FunctionalInterface.signatureIn u owner x =
        sam.params.map (Ty.erasure (u.typeParamsOf sam.method)) →
      ¬v.OffersDefault ms x.2.name (u.erasedParams x.1) →
      v.resolveVirtual? adapter.id x.1 = some ⟨adapter.id, 0⟩
  /-- The instances are instances of the target, so casts to it succeed. -/
  instances : ∀ (h : Heap) (r : Ref) serial fields outer,
    h[r]? = some (.inst adapter.id serial fields outer) →
    isInstance v h (.ref r) target = true ∧ castTo v (.ref r) target h = .ok (.ref r)

section Reached

variable {u v : CompilationUnit} {policy : SingletonInit} {c : Closure} {target : Ty}

/-- What is listed among the interfaces of an adapter can be reached from the
members of the target. -/
theorem exists_member_of_interfaceOrder (hdecl : v.decl? c.adapter = some (c.decl u policy))
    {ms : List ClassType} (hms : ∀ t ∈ c.sam.interface :: c.sam.markers, t ∈ ms) {x : ClassId}
    (hx : x ∈ v.interfaceOrder [c.adapter]) : ∃ t ∈ ms, v.isSubclass t.id x = true := by
  obtain ⟨start, hstart, hpath⟩ := reachable_of_mem_breadthFirst hx
  rw [List.flatMap_singleton, Closure.interfacesOf_adapter hdecl] at hstart
  obtain ⟨t, ht, rfl⟩ := List.mem_map.mp hstart
  refine ⟨t, hms t ht, v.isSubclass_iff.mpr (Relation.ReflTransGen.mono ?_ _ _ hpath)⟩
  exact fun a b hb => CompilationUnit.mem_supertypesOf.mpr (.inr hb)

/-- A call by name runs the method that is found. -/
theorem call_eq_invoke {budget : Nat} {s : Store} {r : Ref} {type : ClassId} {serial : UInt32}
    {fields : Table FieldId Value} {outer : Option Ref} {name : String} {args : List Value}
    {id : MethodId} (hr : s.heap[r]? = some (.inst type serial fields outer))
    (hid : v.findByArity? type name args.length = some id) :
    Session.call v budget (.ref r) name args s = invoke v budget id (some r) args s := by
  have htype : instanceType s.heap name r = .ok type := by rw [instanceType, hr]
  rw [Session.call, get_bind_apply, nonNull]
  simp only [Action.ofExcept, pure_bind, htype, hid]

/-- **Calls reach an adapter** that a unit declares. -/
theorem reached_of_decl? (hnumbers : u.NumbersMethods) (hout : u.OutlinedIn v)
    (hdecl : v.decl? c.adapter = some (c.decl u policy))
    (hresolve : FunctionalInterface.resolve u target = .ok c.sam)
    (hparams : c.params.map (·.ty) = c.sam.erasedParams) :
    Reached u v target c.sam (c.decl u policy) := by
  obtain ⟨ms, hms, cand, hcand, hsam⟩ := FunctionalInterface.resolve_eq_ok hresolve
  obtain ⟨hmem, herased⟩ := FunctionalInterface.mem_candidates hcand
  have hinterfaces : ∀ t, t ∈ c.sam.interface :: c.sam.markers ↔ t ∈ ms := fun t => by
    rw [hsam]
    exact FunctionalInterface.mem_interfaces_iff hcand
  have hlen : c.params.length = c.sam.params.length := by
    rw [← FunctionalInterface.length_erasedParams hnumbers hresolve, ← hparams, List.length_map]
  have hmethod : u.method? c.sam.method = some cand.method := by
    rw [hsam]
    exact CompilationUnit.method?_of_mem_methodsOf hnumbers hmem
  have hname : cand.method.name = c.sam.name := by rw [hsam]; rfl
  have hsamErased : c.sam.erasedParams = u.erasedParams c.sam.method := by
    rw [hsam]
    exact herased
  have hsub : ∀ t ∈ ms, v.isSubclass c.adapter t.id = true := by
    intro t ht
    rw [CompilationUnit.isSubclass_iff]
    refine .single (CompilationUnit.mem_supertypesOf.mpr (.inr ?_))
    rw [Closure.interfacesOf_adapter hdecl]
    exact List.mem_map_of_mem ((hinterfaces t).mpr ht)
  have hnamed : v.findByArity? c.adapter c.sam.name c.sam.params.length = some c.methodId := by
    rw [← hlen]
    exact Closure.findByArity?_adapter hdecl
  refine ⟨⟨c.implementation, rfl, rfl, hlen, hparams⟩, ?_, hnamed, ?_, ?_, ?_⟩
  · obtain ⟨m', hm', heq⟩ := hout.method? hmethod
    have hname' : m'.name = c.sam.name := by
      rw [← hname]
      simpa [Method.outline] using congrArg Method.name heq
    refine Closure.resolveVirtual?_sam hdecl hm' hname' ?_
    -- the parameters of the adapter are erased already
    have hfixed : ∀ t ∈ c.sam.erasedParams, t.erasure [] = t := by
      rw [hsamErased, CompilationUnit.erasedParams, hmethod]
      exact List.forall_mem_map.mpr fun p _ => Ty.erasure_erasure _ _ _
    calc v.erasedParams c.methodId
        = (c.params.map (·.ty)).map (Ty.erasure []) := by
          rw [Closure.erasedParams_adapter hdecl, List.map_map]
          rfl
      _ = c.sam.erasedParams := by rw [hparams, List.map_congr_left hfixed, List.map_id']
      _ = v.erasedParams c.sam.method := by rw [hout.erasedParams hmethod, hsamErased]
  · intro budget s r serial fields outer args hr hargs
    exact call_eq_invoke hr (by rw [hargs]; exact hnamed)
  · intro ms' hms' t ht owner howner x hx hxname hsig hdefault
    obtain rfl : ms' = ms := Except.ok.inj (hms'.symm.trans hms)
    have hm := CompilationUnit.method?_of_mem_methodsOf hnumbers hx
    obtain ⟨m', hm', heq⟩ := hout.method? hm
    have hname' : m'.name = x.2.name := by simpa [Method.outline] using congrArg Method.name heq
    have hparams' : m'.params = x.2.params := by
      simpa [Method.outline] using congrArg Method.params heq
    have hlength : x.2.params.length = c.sam.params.length := by
      simpa [FunctionalInterface.signatureIn] using congrArg List.length hsig
    refine Closure.resolveVirtual?_adapter hdecl hm' (hname'.trans hxname) ?_ ?_
    · rw [hparams', hlength, hlen]
    · intro y hy z hz hzdefault hzname hzerased
      obtain ⟨t', ht', hsub'⟩ := exists_member_of_interfaceOrder hdecl
        (fun t h => (hinterfaces t).mp h) hy
      rw [hout.erasedParams hm] at hzerased
      exact hdefault ⟨t', ht', y, hsub', z, hz, hzdefault, hzname.trans hname', hzerased⟩
  · exact fun h r serial fields outer hr => FunctionalInterface.isInstance_target hms hsub hr

end Reached

open Lowering in
/-- **Calls through the functional interface reach the adapter.** This holds of
every unit that can be lowered whose declarations stand at their numbers, as
long as the numbers suffice, whatever the types in it inherit from each other.
The `k`-th new type is the adapter of the `k`-th site. -/
theorem calls_reach_adapter {u v : CompilationUnit} {policy : SingletonInit} {summary : Summary}
    (hu : u.IsArena) (hnumbers : u.NumbersMethods) (h : u.lower policy = .ok (v, summary))
    (hroom : u.types.length + summary.sites ≤ 2 ^ 32) {k : Nat} {adapter : TypeDecl}
    (hadapter : v.types[u.types.length + k]? = some adapter) :
    ∃ target sam, u.targets[k]? = some target ∧ FunctionalInterface.resolve u target = .ok sam ∧
      Reached u v target sam adapter := by
  obtain ⟨run⟩ := exists_unitRun h
  have hk := hadapter
  rw [run.getElem?_types] at hk
  have hid := run.toNat_id_adapters hroom hk
  obtain ⟨target, htarget, hserves⟩ := run.exists_target hnumbers hroom hk
  cases hserves with
  | intro policy' c hresolve hparams =>
    have hdecl : v.decl? c.adapter = some (c.decl u policy') := by
      rw [CompilationUnit.decl?]
      exact hid ▸ hadapter
    exact ⟨target, c.sam, htarget, hresolve,
      reached_of_decl? hnumbers (run.outlinedIn hu) hdecl hresolve hparams⟩

namespace Parse

/-- A generic function, an interface of functions of strings that declares the
method anew, and a site with that interface as its target. The two declarations
of the method have different erased parameters. -/
def unit : CompilationUnit where
  name := "parse"
  sourcePath := none
  types := [
    { TypeDecl.empty 0 "Fun" .topLevel with
      isInterface := true
      typeParams := [⟨"T", none⟩]
      methods :=
        [⟨"apply", [], [⟨1, "x", .var "T", true⟩], .int, [], .method, false, true, false, false,
        none, .dummy⟩] },
    { TypeDecl.empty 1 "Parse" .topLevel with
      isInterface := true
      interfaces := [⟨0, [.string]⟩]
      methods :=
        [⟨"apply", [], [⟨2, "s", .string, true⟩], .int, [], .method, false, true, false, false,
        none, .dummy⟩] },
    { TypeDecl.empty 2 "Use" .topLevel with
      methods := [⟨"make", [], [], .raw 1, [], .method, true, false, false, false,
        some [.ret (some (.lambda ⟨[⟨3, "s", .string, true⟩], .expr (.int 0), .int,
          .inter [.raw 1, .object], .dummy⟩))],
        .dummy⟩] }]

theorem isArena : unit.IsArena := by decide

theorem numbersMethods : unit.NumbersMethods := by decide

end Parse

/-- Calls reach the adapter of a site whose target is an intersection. -/
theorem calls_reach_adapter_parse :
    ∃ v summary adapter sam, Parse.unit.lower .onDemand = .ok (v, summary) ∧
      v.types[3]? = some adapter ∧
      FunctionalInterface.resolve Parse.unit (.inter [.raw 1, .object]) = .ok sam ∧
      Reached Parse.unit v (.inter [.raw 1, .object]) sam adapter := by
  have hrun : ((Parse.unit.lower .onDemand).map fun r => (r.2.sites, r.1.types.length)) =
      .ok (1, 4) := by cbv
  obtain ⟨⟨v, summary⟩, h, hcounts⟩ := map_eq_ok.mp hrun
  obtain ⟨hsites, hlen⟩ := Prod.mk.inj hcounts
  have hroom : Parse.unit.types.length + summary.sites ≤ 2 ^ 32 := by
    rw [← hsites]
    decide
  obtain ⟨adapter, hadapter⟩ : ∃ adapter, v.types[3]? = some adapter :=
    ⟨_, List.getElem?_eq_getElem (by rw [← hlen]; decide)⟩
  obtain ⟨target, sam, htarget, hresolve, hreached⟩ :=
    calls_reach_adapter Parse.isArena Parse.numbersMethods h hroom (k := 0) hadapter
  obtain rfl : target = .inter [.raw 1, .object] := by
    have htargets : Parse.unit.targets = [.inter [.raw 1, .object]] := by cbv
    rw [htargets] at htarget
    exact (Option.some.inj htarget).symm
  exact ⟨v, summary, adapter, sam, h, hadapter, hresolve, hreached⟩

end Closures
