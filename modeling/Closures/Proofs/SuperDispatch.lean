import Closures.Proofs.MemberSearch
import Closures.Proofs.ReferenceForms

/-!
# What `super` references run

A reference `super::m` means one of the methods that the search for members
finds in the superclass, while an instance of the superclass that is asked for
`m` runs what dispatch finds. The two agree on a method of a class. They can
differ on a method of an interface: the search meets the interfaces of a class
before the superclass of its superclass, whereas dispatch leaves interfaces for
last. `Unrivalled` says that dispatch meets nothing before, and the main
theorem, `super_runs_inherited`, that the reference means what the superclass
runs exactly then.
-/

set_option autoImplicit false

namespace Closures

namespace CompilationUnit

/-! ## The first that can be run -/

/-- Whether a method has a name and erased parameters. -/
def hasSignature (u : CompilationUnit) (name : String) (erased : List Ty) (id : MethodId)
    (m : Method) :
    Bool :=
  m.name == name && u.erasedParams id == erased

/-- Whether a type declares a method of a name and erased parameters that can be
run. -/
def provides (u : CompilationUnit) (runs : Method → Bool) (name : String) (erased : List Ty)
    (c : ClassId) : Bool :=
  (u.methodsOf c).any fun x => runs x.2 && u.hasSignature name erased x.1 x.2

section Providers

variable {u : CompilationUnit} {runs : Method → Bool} {name : String} {erased : List Ty}
  {types : List ClassId} {t : MethodId} {m : Method}

theorem firstMethod?_eq_none :
    u.firstMethod? types (fun id m => runs m && u.hasSignature name erased id m) = none ↔
      ∀ c ∈ types, u.provides runs name erased c = false := by
  simp only [firstMethod?, provides, List.findSome?_eq_none_iff, Option.map_eq_none_iff,
    List.find?_eq_none, List.any_eq_false]

theorem mem_of_firstMethod? {test : MethodId → Method → Bool}
    (h : u.firstMethod? types test = some t) :
    t.owner ∈ types ∧ ∃ m, (t, m) ∈ u.methodsOf t.owner ∧ test t m = true := by
  obtain ⟨c, hc, h⟩ := List.exists_of_findSome?_eq_some h
  obtain ⟨⟨t, m⟩, hx, rfl⟩ := Option.map_eq_some_iff.mp h
  have htest := List.find?_some hx
  have hmem := List.mem_of_find?_eq_some hx
  obtain rfl := owner_of_mem_methodsOf hmem
  exact ⟨hc, m, hmem, htest⟩

theorem firstMethod?_cons {test : MethodId → Method → Bool} (c : ClassId) :
    u.firstMethod? (c :: types) test =
      (((u.methodsOf c).find? fun x => test x.1 x.2).map (·.1)).or (u.firstMethod? types test) := by
  rw [firstMethod?, List.findSome?_cons]
  cases (u.methodsOf c).find? fun x => test x.1 x.2 <;> rfl

/-- What is the first of its name and erased parameters is the first that can be
run, if it can be. -/
theorem find?_of_declaredAs? (hdeclared : u.declaredAs? name erased t.owner = some (t, m))
    (hruns : runs m = true)
    (hkind : ∀ x ∈ u.methodsOf t.owner, runs x.2 = true → x.2.kind = .method) :
    (u.methodsOf t.owner).find? (fun x => runs x.2 && u.hasSignature name erased x.1 x.2) =
      some (t, m) := by
  obtain ⟨hp, before, after, hsplit, hbefore⟩ := List.find?_eq_some_iff_append.mp hdeclared
  refine List.find?_eq_some_iff_append.mpr ⟨?_, before, after, hsplit, fun x hx => ?_⟩
  · simp only [Bool.and_eq_true] at hp
    simp only [hasSignature, hruns, hp, Bool.and_self]
  · have hx' : x ∈ u.methodsOf t.owner := hsplit ▸ List.mem_append_left _ hx
    have hno := hbefore x hx
    cases hr : runs x.2 with
    | false => rfl
    | true =>
      rw [hkind x hx' hr] at hno
      simpa [hasSignature] using hno

/-- **The first that can be run** is the nearest one, unless a type before its
own provides another. -/
theorem firstMethod?_eq_some (types : List ClassId)
    (hdeclared : u.declaredAs? name erased t.owner = some (t, m)) (hruns : runs m = true)
    (hkind : ∀ x ∈ u.methodsOf t.owner, runs x.2 = true → x.2.kind = .method) :
    u.firstMethod? types (fun id m => runs m && u.hasSignature name erased id m) = some t ↔
      t.owner ∈ types ∧
        ∀ c ∈ types.takeWhile (· != t.owner), u.provides runs name erased c = false := by
  induction types with
  | nil => simp [firstMethod?]
  | cons c types ih =>
    rw [firstMethod?_cons, List.takeWhile_cons]
    by_cases hc : c = t.owner
    · subst hc
      rw [find?_of_declaredAs? hdeclared hruns hkind]
      simp
    · rw [bne_iff_ne.mpr hc, if_pos rfl, List.forall_mem_cons]
      cases hfind : (u.methodsOf c).find? fun x =>
        runs x.2 && u.hasSignature name erased x.1 x.2 with
      | none =>
        have hno : u.provides runs name erased c = false :=
          List.any_eq_false.mpr (List.find?_eq_none.mp hfind)
        rw [Option.map_none, Option.none_or, ih, List.mem_cons]
        simp [hno, Ne.symm hc]
      | some x =>
        -- what this type provides is not in the type of `t`
        have hmem := List.mem_of_find?_eq_some hfind
        have htest := List.find?_some hfind
        have hyes : u.provides runs name erased c = true := List.any_eq_true.mpr ⟨x, hmem, htest⟩
        have hx : x.1 ≠ t := fun h => hc (h ▸ (owner_of_mem_methodsOf hmem).symm)
        simp [hyes, hx]

end Providers

/-! ## Dispatch to the nearest method -/

/-- Nothing that dispatch would run instead comes before a method: its type is a
superclass, or no superclass provides another and neither does an interface that
comes earlier. -/
def Unrivalled (u : CompilationUnit) (type : ClassId) (name : String) (t : MethodId) : Prop :=
  t.owner ∈ u.lineage type ∨
    (∀ c ∈ u.lineage type, u.provides isConcrete name (u.erasedParams t) c = false) ∧
      ∀ c ∈ (u.interfaceOrder (u.lineage type)).takeWhile (· != t.owner),
        u.provides (·.isDefault) name (u.erasedParams t) c = false

instance (u : CompilationUnit) (type : ClassId) (name : String) (t : MethodId) :
    Decidable (u.Unrivalled type name t) :=
  decidable_of_iff
    (((u.lineage type).contains t.owner ||
      (u.lineage type).all (!u.provides isConcrete name (u.erasedParams t) ·) &&
        ((u.interfaceOrder (u.lineage type)).takeWhile (· != t.owner)).all
          (!u.provides (·.isDefault) name (u.erasedParams t) ·)) = true)
    (by simp [Unrivalled])

theorem mem_of_mem_takeWhile_ne {a c : ClassId} {front rest : List ClassId}
    (h : c ∈ (front ++ a :: rest).takeWhile (· != a)) : c ∈ front := by
  induction front with
  | nil => simp at h
  | cons b front ih =>
    rw [List.cons_append, List.takeWhile_cons] at h
    split at h
    · rcases List.mem_cons.mp h with rfl | h
      · exact List.mem_cons_self
      · exact List.mem_cons_of_mem _ (ih h)
    · cases h

section Dispatch

variable {u : CompilationUnit} {type : ClassId} {name : String} {t : MethodId} {m : Method}

theorem kind_of_isConcrete (h : isConcrete m = true) : m.kind = .method := by
  simp only [isConcrete, Bool.and_eq_true, beq_iff_eq] at h
  exact h.1.1

theorem Nearest.mem (h : u.Nearest type name t m) : (t, m) ∈ u.methodsOf t.owner :=
  List.mem_of_find?_eq_some h.declared

theorem Nearest.name_eq (h : u.Nearest type name t m) : m.name = name := by
  have := List.find?_some h.declared
  simp only [Bool.and_eq_true, beq_iff_eq] at this
  exact this.1.1

theorem Nearest.kind_eq (h : u.Nearest type name t m) : m.kind = .method := by
  have := List.find?_some h.declared
  simp only [Bool.and_eq_true, beq_iff_eq] at this
  exact this.1.2

/-- The tests of dispatch and of the search for members agree on what is not
abstract. -/
theorem Nearest.isConcrete (hwell : u.WellDeclared) (h : u.Nearest type name t m)
    (hstatic : m.isStatic = false) (habstract : m.isAbstract = false) :
    CompilationUnit.isConcrete m = true := by
  obtain ⟨d, hd, hm⟩ := exists_decl?_of_mem_methodsOf h.mem
  have hbody := hwell.abstracts d (mem_of_decl? hd) m hm h.kind_eq hstatic
  have hsome : m.body.isSome = true := by
    rw [← Option.not_isNone, ← hbody, habstract]
    rfl
  simp [CompilationUnit.isConcrete, h.kind_eq, hstatic, hsome]

theorem WellDeclared.isDefault (hwell : u.WellDeclared) {c : ClassId} (hc : u.isClass c = false)
    {x : MethodId × Method} (hx : x ∈ u.methodsOf c) :
    x.2.isDefault = (x.2.kind == .method && !x.2.isStatic && !x.2.isAbstract) := by
  obtain ⟨d, hd, hm⟩ := exists_decl?_of_mem_methodsOf hx
  have hinterface : d.isInterface = true := by simpa [isClass, hd] using hc
  exact hwell.defaults d (mem_of_decl? hd) hinterface x.2 hm

theorem WellDeclared.lineage_declared (hwell : u.WellDeclared) (hclass : u.isClass type = true) :
    ((u.lineage type).all fun c => (u.decl? c).isSome) = true := by
  refine List.all_eq_true.mpr fun c hc => ?_
  have hc := hwell.isClass_lineage hclass c hc
  rw [isClass] at hc
  cases hd : u.decl? c with
  | none => rw [hd] at hc; cases hc
  | some d => rfl

/-- **A class runs its nearest method** if that is a method of a class and can
be run at all. -/
theorem Nearest.findImplementation?_of_mem (hacyclic : u.Acyclic) (hwell : u.WellDeclared)
    (hclass : u.isClass type = true) (h : u.Nearest type name t m)
    (hruns : CompilationUnit.isConcrete m = true) (howner : t.owner ∈ u.lineage type) :
    u.findImplementation? type (u.hasSignature name (u.erasedParams t)) = some t := by
  obtain ⟨before, after, hsplit, hbefore⟩ := h.first
  obtain ⟨front, rest, hlineage, hfront⟩ :=
    exists_lineage_of_ancestors hacyclic hwell hsplit (hwell.isClass_lineage hclass _ howner)
  have hfirst : u.firstMethod? (u.lineage type) (fun id m =>
      CompilationUnit.isConcrete m && u.hasSignature name (u.erasedParams t) id m) = some t := by
    refine (firstMethod?_eq_some _ h.declared hruns fun _ _ => kind_of_isConcrete).mpr
      ⟨howner, fun c hc => ?_⟩
    -- a superclass that comes before is also met before
    have hc : c ∈ front := mem_of_mem_takeWhile_ne (hlineage ▸ hc)
    have hnone := List.find?_eq_none.mp (hbefore c (hfront c hc))
    refine List.any_eq_false.mpr fun x hx hrun => hnone x hx ?_
    rw [Bool.and_eq_true] at hrun
    simp_all [hasSignature, kind_of_isConcrete hrun.1]
  rw [findImplementation?, hfirst]

/-- **A class runs its nearest method of an interface** if nothing rivals it. -/
theorem Nearest.findImplementation?_of_not_mem (hacyclic : u.Acyclic) (hwell : u.WellDeclared)
    (hclass : u.isClass type = true) (h : u.Nearest type name t m) (hstatic : m.isStatic = false)
    (habstract : m.isAbstract = false) (howner : t.owner ∉ u.lineage type) :
    u.findImplementation? type (u.hasSignature name (u.erasedParams t)) = some t ↔
      u.Unrivalled type name t := by
  obtain ⟨before, after, hsplit, -⟩ := h.first
  have hmem : t.owner ∈ u.interfaceOrder (u.lineage type) :=
    (mem_lineage_or_mem_interfaceOrder hacyclic hwell (by rw [hsplit]; simp)).resolve_left howner
  -- the type of `t` is an interface, where what can be run is marked as a default
  obtain ⟨c, hc⟩ := exists_interfacesOf_of_mem hmem
  have hdefault := fun x hx => hwell.isDefault (hwell.not_isClass hc) (x := x) hx
  have hruns : m.isDefault = true := by
    refine (hdefault _ h.mem).trans ?_
    simp [h.kind_eq, hstatic, habstract]
  have hkind : ∀ x ∈ u.methodsOf t.owner, x.2.isDefault = true → x.2.kind = .method := by
    intro x hx hrun
    rw [hdefault x hx, Bool.and_eq_true, Bool.and_eq_true, beq_iff_eq] at hrun
    exact hrun.1.1
  have hsecond := firstMethod?_eq_some (u.interfaceOrder (u.lineage type)) h.declared hruns hkind
  rw [findImplementation?, Unrivalled, ← firstMethod?_eq_none]
  cases hfirst : u.firstMethod? (u.lineage type) (fun id m =>
      CompilationUnit.isConcrete m && u.hasSignature name (u.erasedParams t) id m) with
  | none => simp [hwell.lineage_declared hclass, hsecond, hmem, howner]
  | some r =>
    -- a class provides the method, and that comes first
    have hr : r ≠ t := fun h => howner (h ▸ (mem_of_firstMethod? hfirst).1)
    simp [hr, howner]

/-- If dispatch finds what passes another test as well, it finds something by
that test. -/
theorem exists_findImplementation? {test test' : MethodId → Method → Bool} {r : MethodId}
    (h : u.findImplementation? type test = some r)
    (htest : ∀ m, (r, m) ∈ u.methodsOf r.owner → test' r m = true) :
    u.findImplementation? type test' ≠ none := by
  have hany : ∀ {types : List ClassId} {runs : Method → Bool},
      u.firstMethod? types (fun id m => runs m && test id m) = some r →
      u.firstMethod? types (fun id m => runs m && test' id m) ≠ none := by
    intro types runs h hnone
    obtain ⟨howner, m, hmem, hrun⟩ := mem_of_firstMethod? h
    rw [Bool.and_eq_true] at hrun
    have hno := Option.map_eq_none_iff.mp (List.findSome?_eq_none_iff.mp hnone _ howner)
    exact List.find?_eq_none.mp hno _ hmem (by simp [hrun.1, htest m hmem])
  rw [findImplementation?] at h ⊢
  split at h
  · rename_i hfirst
    cases h
    split
    · exact Option.some_ne_none _
    · rename_i hnone
      exact absurd hnone (hany hfirst)
  · split at h
    · split
      · exact Option.some_ne_none _
      · rw [if_pos ‹_›]
        exact hany h
    · cases h

theorem resolveVirtual?_of_method? (hm : u.method? t = some m) :
    u.resolveVirtual? type t =
      (u.findImplementation? type (u.hasSignature m.name (u.erasedParams t)) <|>
        u.findByArity? type m.name m.params.length) := by
  rw [resolveVirtual?, hm]
  rfl

/-- **The nearest method is the one that is run** exactly if nothing rivals
it. -/
theorem Nearest.resolveVirtual?_eq (hacyclic : u.Acyclic) (hwell : u.WellDeclared)
    (hclass : u.isClass type = true) (h : u.Nearest type name t m) (hstatic : m.isStatic = false)
    (habstract : m.isAbstract = false) :
    u.resolveVirtual? type t = some t ↔ u.Unrivalled type name t := by
  have hexact : u.findImplementation? type (u.hasSignature name (u.erasedParams t)) = some t ↔
      u.Unrivalled type name t := by
    by_cases howner : t.owner ∈ u.lineage type
    · have hruns := h.isConcrete hwell hstatic habstract
      exact iff_of_true (h.findImplementation?_of_mem hacyclic hwell hclass hruns howner)
        (.inl howner)
    · exact h.findImplementation?_of_not_mem hacyclic hwell hclass hstatic habstract howner
  have hm : u.method? t = some m := method?_of_mem_methodsOf hwell.numbers h.mem
  rw [resolveVirtual?_of_method? hm, h.name_eq, ← hexact]
  cases hfound : u.findImplementation? type (u.hasSignature name (u.erasedParams t)) with
  | some r => rfl
  | none =>
    -- the number of parameters alone does not find `t` either
    refine iff_of_false (fun harity => ?_) (Option.some_ne_none t).symm
    refine exists_findImplementation? harity (fun m' hm' => ?_) hfound
    obtain rfl : m = m' :=
      Option.some.inj (hm.symm.trans (method?_of_mem_methodsOf hwell.numbers hm'))
    simp [hasSignature, h.name_eq]

end Dispatch

end CompilationUnit

/-! ## Selection -/

namespace Reference

variable {s : Site} {cs : List Candidate} {args : List Ty} {hit : Candidate × ArgMode} {e : Cause}

theorem mem_applicableOnes {u : CompilationUnit} {phase : Phase}
    (h : hit ∈ applicableOnes u cs args phase) : hit.1 ∈ cs := by
  obtain ⟨c, hc, h⟩ := List.mem_filterMap.mp h
  obtain ⟨mode, -, rfl⟩ := Option.map_eq_some_iff.mp h
  exact hc

/-- What choosing among candidates can come to: one of them, none, or too
many. -/
def IsChoice (cs : List Candidate) : Except Cause (Option (Candidate × ArgMode)) → Prop
  | .ok none => True
  | .ok (some hit) => hit.1 ∈ cs
  | .error e => ∃ name count, e = .ambiguous name count

theorem isChoice_pick (s : Site) (cs : List Candidate) (args : List Ty) (phase : Phase) :
    IsChoice cs (pick s cs args phase) := by
  rw [pick]
  split
  · trivial
  · rename_i hone
    exact mem_applicableOnes (hone ▸ List.mem_singleton_self _)
  · rename_i hmany
    dsimp only
    split
    · rename_i best i hbest
      have hmem := List.fst_mem_of_mem_zipIdx (List.mem_of_find?_eq_some hbest)
      exact mem_applicableOnes (hmany ▸ hmem)
    · exact ⟨_, _, rfl⟩

theorem isChoice_select (s : Site) (cs : List Candidate) (args : List Ty) (phases : List Phase) :
    IsChoice cs (select s cs args phases) := by
  induction phases with
  | nil => trivial
  | cons phase phases ih =>
    have hpick := isChoice_pick s cs args phase
    rw [select]
    generalize pick s cs args phase = choice at hpick
    rcases choice with e | _ | hit
    · exact hpick
    · exact ih
    · exact hpick

theorem mem_of_selectOr {owner : ClassId} {name : String}
    (h : selectOr s cs owner name args = .ok hit) : hit.1 ∈ cs := by
  have hchoice := isChoice_select s cs args Phase.all
  rw [selectOr] at h
  obtain ⟨found?, hselect, h⟩ := bind_eq_ok.mp h
  rw [hselect] at hchoice
  cases found? with
  | none => cases h
  | some found =>
    cases h
    exact hchoice

/-- Selection fails for want of a choice, never for want of a member. -/
theorem selectOr_ne_noMember (s : Site) (cs : List Candidate) (owner : ClassId) (name : String)
    (args : List Ty) (c : ClassId) (n : String) :
    selectOr s cs owner name args ≠ .error (.noMember c n) := by
  have hchoice := isChoice_select s cs args Phase.all
  rw [selectOr]
  generalize select s cs args Phase.all = choice at hchoice
  rcases choice with e | _ | hit
  · obtain ⟨_, _, rfl⟩ := hchoice
    intro h
    cases h
  · intro h
    cases h
  · intro h
    cases h

/-! ## Candidates -/

theorem exists_instantiate {id : MethodId} {m : Method} (h : s.unit.method? id = some m)
    (receiver : ClassType) (typeArgs : List Ty) :
      ∃ c, instantiate s id receiver typeArgs = .ok c := by
  obtain ⟨d, hd, -⟩ := Option.bind_eq_some_iff.mp h
  rw [instantiate, Site.decl, hd, Site.method, h]
  exact ⟨_, rfl⟩

theorem id_of_instantiate {id : MethodId} {receiver : ClassType} {typeArgs : List Ty}
    {c : Candidate} (h : instantiate s id receiver typeArgs = .ok c) : c.id = id := by
  rw [instantiate] at h
  obtain ⟨d, -, h⟩ := bind_eq_ok.mp h
  obtain ⟨m, -, h⟩ := bind_eq_ok.mp h
  cases h
  rfl

/-- **The candidates are the nearest methods that are kept.** -/
theorem exists_candidates (hnumbers : s.unit.NumbersMethods) (owner : ClassType) (name : String)
    (typeArgs : List Ty) (keep : Method → Bool) :
    ∃ cs, candidates s owner name typeArgs keep = .ok cs ∧
      ∀ id, (∃ c ∈ cs, c.id = id) ↔
        id ∈ s.unit.findMethods owner.id name ∧ (s.unit.method? id).any keep = true := by
  have hmethod : ∀ id ∈ s.unit.findMethods owner.id name, ∃ m, s.unit.method? id = some m := by
    intro id hid
    obtain ⟨m, hm, -⟩ := CompilationUnit.nearest_of_mem_findMethods hnumbers hid
    exact ⟨m, hm⟩
  have hkept : (s.unit.findMethods owner.id name).filterM (fun id => return keep (← s.method id)) =
      .ok ((s.unit.findMethods owner.id name).filter fun id => (s.unit.method? id).any keep) := by
    refine filterM_of_ok fun id hid => ?_
    obtain ⟨m, hm⟩ := hmethod id hid
    rw [Site.method, hm]
    rfl
  have hseen : ∀ id ∈ (s.unit.findMethods owner.id name).filter fun id =>
    (s.unit.method? id).any keep,
      ∃ c, instantiate s id owner typeArgs = .ok c := by
    intro id hid
    obtain ⟨m, hm⟩ := hmethod id (List.mem_filter.mp hid).1
    exact exists_instantiate hm owner typeArgs
  obtain ⟨cs, hcs⟩ := exists_mapM_ok hseen
  refine ⟨cs, by rw [candidates, hkept, ok_bind, hcs], fun id => ?_⟩
  obtain ⟨hleft, hright⟩ := exists_of_mapM_ok hcs
  constructor
  · rintro ⟨c, hc, rfl⟩
    obtain ⟨id, hid, h⟩ := hright c hc
    exact id_of_instantiate h ▸ List.mem_filter.mp hid
  · intro hid
    obtain ⟨c, hc, h⟩ := hleft id (List.mem_filter.mpr hid)
    exact ⟨c, hc, id_of_instantiate h⟩

/-! ## References to the superclass -/

section Super

variable {q : Option ClassId} {depth : Nat} {d : TypeDecl} {S : ClassType} {name : String}
  {typeArgs : List Ty} {sam : FunctionalInterface} {r : Reference}

/-- What a `super` reference that no interface qualifies starts from. -/
theorem superStart_of_class (hdepth : s.thisDepth q = .ok depth)
    (hq : ∀ c ∈ q, (s.unit.decl? c).any (·.isInterface) = false)
    (hd : s.unit.decl? (s.instanceType depth) = some d) (hS : d.superclass = some S) :
    superStart s q depth = .ok S := by
  have hdecl : s.decl (s.instanceType depth) = .ok d := by rw [Site.decl, hd]
  cases q with
  | none =>
    rw [superStart, pure_bind]
    dsimp only
    rw [hdecl, ok_bind, hS]
    rfl
  | some c =>
    have hc := hq c rfl
    cases hdc : s.decl c with
    | error e =>
      rw [Site.thisDepth, hdc] at hdepth
      split at hdepth <;> cases hdepth
    | ok e =>
      have he : e.isInterface = false := by
        rw [Site.decl] at hdc
        split at hdc <;> cases hdc
        rename_i hsome
        rw [hsome] at hc
        exact hc
      rw [superStart, hdc, ok_bind, he, if_neg Bool.false_ne_true, pure_bind]
      dsimp only
      rw [hdecl, ok_bind, hS]
      rfl

variable (hdepth : s.thisDepth q = .ok depth) (hstart : superStart s q depth = .ok S)
  (hcs : candidates s S name typeArgs (fun m => !m.isStatic && !m.isAbstract) = .ok cs)

include hdepth hstart hcs

theorem mem_of_resolveSuper (h : resolveSuper s q name typeArgs sam = .ok r) :
    ∃ c ∈ cs, r.form = .super c.id depth := by
  rw [resolveSuper, hdepth, ok_bind, hstart, ok_bind, hcs, ok_bind] at h
  split at h
  · cases h
  · obtain ⟨hit, hselect, h⟩ := bind_eq_ok.mp h
    cases h
    exact ⟨hit.1, mem_of_selectOr hselect, rfl⟩

theorem resolveSuper_ne_noMember (hne : cs ≠ []) (c : ClassId) (n : String) :
    resolveSuper s q name typeArgs sam ≠ .error (.noMember c n) := by
  have hempty : cs.isEmpty = false := by simpa using hne
  rw [resolveSuper, hdepth, ok_bind, hstart, ok_bind, hcs, ok_bind, hempty,
    if_neg Bool.false_ne_true]
  have hselect := selectOr_ne_noMember s cs S.id name sam.params c n
  generalize selectOr s cs S.id name sam.params = choice at hselect
  cases choice with
  | error e =>
    intro h
    cases h
    exact hselect rfl
  | ok hit =>
    intro h
    cases h

end Super

end Reference

open Reference in
/-- **A `super` reference means what the superclass runs exactly if nothing
rivals it.** A reference in a class whose superclass is `S` means the method
that instances of `S` run for it, unless dispatch meets another one first. A
method that instances of `S` run is among the candidates of the reference,
unless a nearer declaration stands for it that is abstract or that dispatch
passes over. -/
theorem super_runs_inherited {s : Site} {q : Option ClassId} {depth : Nat} {d : TypeDecl}
    {S : ClassType} {name : String} {ref : MethodRef} (hacyclic : s.unit.Acyclic)
    (hwell : s.unit.WellDeclared) (hdepth : s.thisDepth q = .ok depth)
    (hq : ∀ c ∈ q, (s.unit.decl? c).any (·.isInterface) = false)
    (hd : s.unit.decl? (s.instanceType depth) = some d) (hS : d.superclass = some S)
    (hqualifier : ref.qualifier = .super q) (hmember : ref.member = .method name) :
    (∀ sam r, resolve s ref sam = .ok r → ∃ t, r.form = .super t depth ∧
      (s.unit.resolveVirtual? S.id t = some t ↔ s.unit.Unrivalled S.id name t)) ∧
    ∀ t ∈ s.unit.findMethods S.id name, ∀ m, s.unit.method? t = some m → m.isStatic = false →
      ∀ r, s.unit.resolveVirtual? S.id t = some r →
        s.unit.erasedParams r = s.unit.erasedParams t →
        ∃ cs, candidates s S name ref.typeArgs (fun m => !m.isStatic && !m.isAbstract) = .ok cs ∧
          ((∃ c ∈ cs, c.id = r) ↔ m.isAbstract = false ∧ s.unit.Unrivalled S.id name t) ∧
          (m.isAbstract = false → ∀ sam, resolve s ref sam ≠ .error (.noMember S.id name)) := by
  have hstart := superStart_of_class hdepth hq hd hS
  have hclass : s.unit.isClass S.id = true :=
    (hwell.superclass d (CompilationUnit.mem_of_decl? hd) S (Option.mem_toList.mpr hS)).2
  have hresolve : ∀ sam, resolve s ref sam = resolveSuper s q name ref.typeArgs sam := fun sam => by
    rw [resolve, hmember, hqualifier]
  obtain ⟨cs, hcs, hids⟩ :=
    exists_candidates hwell.numbers S name ref.typeArgs fun m => !m.isStatic && !m.isAbstract
  constructor
  · intro sam r h
    rw [hresolve] at h
    obtain ⟨c, hc, hform⟩ := mem_of_resolveSuper hdepth hstart hcs h
    obtain ⟨hfound, hkeep⟩ := (hids c.id).mp ⟨c, hc, rfl⟩
    obtain ⟨m, hm, hnearest⟩ := CompilationUnit.nearest_of_mem_findMethods hwell.numbers hfound
    rw [hm, Option.any_some, Bool.and_eq_true, Bool.not_eq_true', Bool.not_eq_true'] at hkeep
    exact ⟨c.id, hform, hnearest.resolveVirtual?_eq hacyclic hwell hclass hkeep.1 hkeep.2⟩
  · intro t ht m hm hstatic r hr herased
    obtain ⟨m', hm', hnearest⟩ := CompilationUnit.nearest_of_mem_findMethods hwell.numbers ht
    obtain rfl : m = m' := Option.some.inj (hm.symm.trans hm')
    have hkept : m.isAbstract = false → ∃ c ∈ cs, c.id = t := fun habstract =>
      (hids t).mpr ⟨ht, by simp [hm, hstatic, habstract]⟩
    refine ⟨cs, hcs, ⟨fun hmem => ?_, fun ⟨habstract, hfree⟩ => ?_⟩, fun habstract sam => ?_⟩
    · -- the only candidate with the erased parameters of `t` is `t`
      obtain ⟨hfound, hkeep⟩ := (hids r).mp hmem
      obtain rfl := CompilationUnit.eq_of_mem_findMethods ht hfound herased
      rw [hm, Option.any_some, Bool.and_eq_true, Bool.not_eq_true', Bool.not_eq_true'] at hkeep
      exact ⟨hkeep.2, (hnearest.resolveVirtual?_eq hacyclic hwell hclass hstatic hkeep.2).mp hr⟩
    · have hrun := (hnearest.resolveVirtual?_eq hacyclic hwell hclass hstatic habstract).mpr hfree
      obtain rfl : r = t := Option.some.inj (hr.symm.trans hrun)
      exact hkept habstract
    · obtain ⟨c, hc, -⟩ := hkept habstract
      rw [hresolve]
      exact resolveSuper_ne_noMember hdepth hstart hcs (List.ne_nil_of_mem hc) _ _

namespace Detour

/-- A method without parameters that returns a number, or an abstract one. -/
def method (name : String) (isDefault : Bool) (result : Option Int32) : Method :=
  ⟨name, [], [], .int, [], .method, false, result.isNone, isDefault, false,
    result.map fun n => [.ret (some (.int n))], .dummy⟩

/-- `Mid` inherits a method from `Root` through `Base`, and from an interface a
default or an abstract one of the same name. -/
def unit (hasDefault : Bool) : CompilationUnit where
  name := "detour"
  sourcePath := none
  types := [
    { TypeDecl.empty 0 "Root" .topLevel with methods := [method "near" false (some 1)] },
    { TypeDecl.empty 1 "Base" .topLevel with superclass := some (.raw 0) },
    { TypeDecl.empty 2 "Side" .topLevel with
      isInterface := true
      methods := [method "near" hasDefault (if hasDefault then some 2 else none),
        method "far" true (some 3)] },
    { TypeDecl.empty 3 "Mid" .topLevel with superclass := some (.raw 1), interfaces := [.raw 2] },
    { TypeDecl.empty 4 "Leaf" .topLevel with superclass := some (.raw 3) }]

/-- A site in `Leaf`. -/
def site (hasDefault : Bool) : Site := ⟨unit hasDefault, 4, [4], []⟩

/-- A `super` reference. -/
def ref (name : String) : MethodRef := ⟨.super none, .method name, [], .raw 5, .dummy⟩

/-- A functional interface whose method has no parameters. -/
def sam : FunctionalInterface := ⟨.raw 5, ⟨5, 0⟩, "get", [], .int, [], [], .int, []⟩

theorem acyclic (hasDefault : Bool) : (unit hasDefault).Acyclic := by
  cases hasDefault <;> exact CompilationUnit.acyclic_of_lt (by decide)

theorem wellDeclared : (unit true).WellDeclared where
  superclass := by decide
  interfaces := by decide
  abstracts := by decide
  defaults := by decide
  numbers := by decide

end Detour

/-- A default method that no class has is what the superclass runs; one that
`Root` has too is not. -/
theorem super_runs_inherited_detour :
    (∃ r t, Reference.resolve (Detour.site true) (Detour.ref "far") Detour.sam = .ok r ∧
      r.form = .super t 0 ∧ (Detour.unit true).Unrivalled 3 "far" t ∧
      (Detour.unit true).resolveVirtual? 3 t = some t) ∧
    ∃ cs, Reference.candidates (Detour.site true) (.raw 3) "near" []
        (fun m => !m.isStatic && !m.isAbstract) = .ok cs ∧
      ¬(Detour.unit true).Unrivalled 3 "near" ⟨2, 0⟩ ∧ ¬∃ c ∈ cs, c.id = ⟨0, 0⟩ := by
  have hrun := fun name => @super_runs_inherited (Detour.site true) none 0 _ _ name
    (Detour.ref name)
    (Detour.acyclic true) Detour.wellDeclared rfl (fun _ h => nomatch h) rfl rfl rfl rfl
  constructor
  · have hresolve : Reference.resolve (Detour.site true) (Detour.ref "far") Detour.sam =
        .ok ⟨.super ⟨2, 1⟩ 0, [], .fixed, .int⟩ := rfl
    have hfree : (Detour.unit true).Unrivalled 3 "far" ⟨2, 1⟩ := by decide
    obtain ⟨t, hform, hruns⟩ := (hrun "far").1 _ _ hresolve
    cases hform
    exact ⟨_, _, hresolve, rfl, hfree, hruns.mpr hfree⟩
  · have hrival : ¬(Detour.unit true).Unrivalled 3 "near" ⟨2, 0⟩ := by decide
    obtain ⟨cs, hcs, hmem, -⟩ := (hrun "near").2 ⟨2, 0⟩ (by decide) _ rfl rfl ⟨0, 0⟩ rfl rfl
    exact ⟨cs, hcs, hrival, fun h => hrival (hmem.mp h).2⟩

/-- **The superclass can run another method than `super` means**, or one that
`super` does not find. An interface of `Mid` hides the method of `Root`, which
instances of `Mid` run: the reference means the default method of the interface,
and nothing if the method of the interface is abstract. -/
theorem Detour.super_differs :
    (∀ hasDefault, (unit hasDefault).Acyclic) ∧
    (Reference.resolve (site true) (ref "near") sam = .ok ⟨.super ⟨2, 0⟩ 0, [], .fixed, .int⟩ ∧
      (unit true).resolveVirtual? 3 ⟨2, 0⟩ = some ⟨0, 0⟩) ∧
    ⟨2, 0⟩ ∈ (unit false).findMethods 3 "near" ∧
      (unit false).resolveVirtual? 3 ⟨2, 0⟩ = some ⟨0, 0⟩ ∧
      (unit false).erasedParams ⟨0, 0⟩ = (unit false).erasedParams ⟨2, 0⟩ ∧
      Reference.resolve (site false) (ref "near") sam = .error (.noMember 3 "near") :=
  ⟨acyclic, ⟨rfl, rfl⟩, by decide, rfl, rfl, rfl⟩

end Closures
