import Mathlib
import Closures.Proofs.MostSpecific
import Closures.Proofs.SuperDispatch

/-!
# Selection of overloads

A method reference means one member, which is chosen among candidates in three
phases.

* `Considers` says which candidates a reference of some form is chosen from,
  with which arguments they are tried, and against which others: a static method
  of `T::m` stands against the instance methods, if the first argument can be
  their receiver.
* `Chosen` says what the choice is: in the first phase in which any candidate is
  applicable, the most specific one of its kind, while none of the other kind
  is.
* The mode in which a member is applicable is the one in which arguments are
  passed. Whatever their number, they fill the parameters, each argument once
  and in order (`passes_of_applicable`).
-/

set_option autoImplicit false

namespace Closures

/-! ## Passing arguments -/

namespace ArgMode

/-- Arguments as they are passed, from arguments one by one. -/
def pack : ArgMode → List Expr → List Expr
  | fixed, es => es
  | variadic count element, es => es.take count ++ [.arrayLit element (es.drop count)]

/-- A number of arguments that can be passed to a number of parameters. -/
def Fits : ArgMode → Nat → Nat → Prop
  | fixed, params, args => args = params
  | variadic count _, params, args => count + 1 = params ∧ count ≤ args

theorem Fits.length_pack {mode : ArgMode} {params : Nat} {es : List Expr}
    (h : mode.Fits params es.length) :
    (mode.pack es).length = params := by
  cases mode with
  | fixed => exact h
  | variadic count element =>
    obtain ⟨hparams, hargs⟩ := h
    rw [pack, List.length_append, List.length_take, List.length_singleton]
    omega

end ArgMode

section Passing

variable {u : CompilationUnit} {isVarargs : Bool} {params args : List Ty} {phase : Phase}
    {mode : ArgMode}

/-- The mode of an applicable member fits the numbers of parameters and
arguments. -/
theorem fits_of_applicable (h : applicable? u isVarargs params args phase = some mode) :
    mode.Fits params.length args.length := by
  have hfixed :
    ∀ phase : Phase, (if allMatch (phase.fits u) args params then some ArgMode.fixed else none) =
      some mode → mode.Fits params.length args.length := by
    intro phase h
    split at h
    · rename_i hall
      cases h
      exact (allMatch_iff.mp hall).length_eq
    · cases h
  cases phase with
  | strict => exact hfixed .strict h
  | loose => exact hfixed .loose h
  | variadic =>
    rw [applicable?] at h
    split at h
    · cases h
    · obtain ⟨last, hlast, h⟩ := Option.bind_eq_some_iff.mp h
      obtain ⟨element, -, h⟩ := Option.bind_eq_some_iff.mp h
      dsimp only at h
      split at h
      · rename_i hall
        cases h
        simp only [Bool.and_eq_true, decide_eq_true_eq] at hall
        have hne : params ≠ [] := by
          rintro rfl
          cases hlast
        have hpos := List.length_pos_iff.mpr hne
        have hleading := hall.1.1
        refine ⟨?_, hleading⟩
        rw [List.length_dropLast]
        omega
      · cases h

theorem forall₂_wraps_adaptEach {as : List (Expr × Ty)} {params : List Ty}
    (h : as.length ≤ params.length) :
    List.Forall₂ Expr.Wraps (as.map (·.1)) (adaptEach u as params) := by
  induction as generalizing params with
  | nil => exact .nil
  | cons a as ih =>
    cases params with
    | nil => cases h
    | cons p params => exact .cons (.adaptValue ..) (ih (Nat.le_of_succ_le_succ h))

/-- **Arguments fill the parameters**, each argument once and in order, if their
numbers fit. -/
theorem buildArguments_eq_pack {as : List (Expr × Ty)} (h : mode.Fits params.length as.length) :
    ∃ passed, List.Forall₂ Expr.Wraps (as.map (·.1)) passed ∧
      buildArguments u as params mode = mode.pack passed := by
  cases mode with
  | fixed => exact ⟨_, forall₂_wraps_adaptEach (Nat.le_of_eq h), rfl⟩
  | variadic count element =>
    obtain ⟨hparams, hargs⟩ := h
    have hmin : min count params.length = count := by omega
    have hleading : List.Forall₂ Expr.Wraps ((as.take count).map (·.1))
        (adaptEach u (as.take count) params) := by
      refine forall₂_wraps_adaptEach ?_
      rw [List.length_take]
      omega
    have htail : List.Forall₂ Expr.Wraps ((as.drop count).map (·.1))
        ((as.drop count).map fun a => adaptValue u a.1 a.2 element) := by
      rw [List.forall₂_map_left_iff, List.forall₂_map_right_iff]
      exact List.forall₂_same.mpr fun a _ => .adaptValue ..
    have hcount : (adaptEach u (as.take count) params).length = count := by
      rw [← hleading.length_eq, List.length_map, List.length_take]
      omega
    refine ⟨adaptEach u (as.take count) params ++ (as.drop count).map fun a =>
      adaptValue u a.1 a.2 element, ?_, ?_⟩
    · have hall := List.rel_append hleading htail
      dsimp only at hall
      rwa [← List.map_append, List.take_append_drop] at hall
    · rw [ArgMode.pack, List.take_left' hcount, List.drop_left' hcount, buildArguments, hmin]

/-- The arguments of an applicable member fill its parameters in the mode in
which it is applicable. -/
theorem passes_of_applicable (h : applicable? u isVarargs params args phase = some mode)
    {values : List Expr} (hvalues : values.length = args.length) :
    ∃ passed, List.Forall₂ Expr.Wraps values passed ∧
      buildArguments u (values.zip args) params mode = mode.pack passed ∧
      (mode.pack passed).length = params.length := by
  have hlength : (values.zip args).length = args.length := by
    rw [List.length_zip, hvalues, Nat.min_self]
  have hfits := fits_of_applicable h
  rw [← hlength] at hfits
  obtain ⟨passed, hpassed, hbuilt⟩ := buildArguments_eq_pack (u := u) hfits
  have hmap : (values.zip args).map (·.1) = values := List.map_fst_zip (Nat.le_of_eq hvalues)
  rw [hmap] at hpassed
  refine ⟨passed, hpassed, hbuilt, ArgMode.Fits.length_pack ?_⟩
  rwa [← hpassed.length_eq, hvalues, ← hlength]

end Passing

namespace Reference

/-! ## The choice -/

/-- Candidates of one kind, and the arguments that they are tried with. -/
structure Kind where
  candidates : List Candidate
  args : List Ty

/-- No candidate of a kind is applicable in a phase. -/
def Kind.Silent (u : CompilationUnit) (k : Kind) (phase : Phase) : Prop :=
  ∀ c ∈ k.candidates, applicable? u c.isVarargs c.params k.args phase = none

/-- A candidate that is chosen in a phase, after others. -/
structure ChosenIn (u : CompilationUnit) (own : Kind) (rivals : List Kind) (before : List Phase)
    (phase : Phase) (hit : Candidate × ArgMode) : Prop where
  mostSpecific : MostSpecific u own.candidates own.args phase hit
  /-- Nothing is applicable in an earlier phase. -/
  earlier : ∀ k ∈ own :: rivals, ∀ p ∈ before, k.Silent u p
  /-- Nothing of another kind is applicable in this one. -/
  alone : ∀ k ∈ rivals, k.Silent u phase

/-- A candidate of a kind that is chosen against the candidates of other
kinds. -/
def Chosen (u : CompilationUnit) (own : Kind) (rivals : List Kind) (hit : Candidate × ArgMode) :
    Prop :=
  ∃ before phase later, Phase.all = before ++ phase :: later ∧
    ChosenIn u own rivals before phase hit

section Choice

variable {s : Site} {cs statics instances : List Candidate} {args : List Ty}
    {hit : Candidate × ArgMode}

theorem silent_of_pick {phase : Phase} (h : pick s cs args phase = .ok none) :
    Kind.Silent s.unit ⟨cs, args⟩ phase :=
  pick_eq_none_iff.mp h

/-- What is chosen in the first phase needs no more than silent rivals. -/
theorem ChosenIn.first {rivals : List Kind} {phase : Phase}
    (h : pick s cs args phase = .ok (some hit))
    (hrivals : ∀ k ∈ rivals, k.Silent s.unit phase) :
      ChosenIn s.unit ⟨cs, args⟩ rivals [] phase hit where
  mostSpecific := mostSpecific_of_pick h
  earlier _ _ _ hp := absurd hp List.not_mem_nil
  alone := hrivals

/-- A silent phase may come before. -/
theorem ChosenIn.cons {u : CompilationUnit} {own : Kind} {rivals : List Kind} {before : List Phase}
    {p phase : Phase} (h : ChosenIn u own rivals before phase hit)
    (hp : ∀ k ∈ own :: rivals, k.Silent u p) : ChosenIn u own rivals (p :: before) phase hit where
  mostSpecific := h.mostSpecific
  earlier k hk := List.forall_mem_cons.mpr ⟨hp k hk, h.earlier k hk⟩
  alone := h.alone

/-- The phases before the one that decides are silent. -/
theorem exists_of_select {phases : List Phase} (h : select s cs args phases = .ok (some hit)) :
    ∃ before phase later, phases = before ++ phase :: later ∧
      ChosenIn s.unit ⟨cs, args⟩ [] before phase hit := by
  induction phases with
  | nil => cases h
  | cons phase phases ih =>
    rw [select] at h
    obtain ⟨hit?, hpick, h⟩ := bind_eq_ok.mp h
    cases hit? with
    | some found =>
      cases h
      exact ⟨[], phase, phases, rfl, .first hpick (List.forall_mem_nil _)⟩
    | none =>
      obtain ⟨before, decisive, later, rfl, hchosen⟩ := ih h
      exact ⟨phase :: before, decisive, later, rfl,
        hchosen.cons (List.forall_mem_singleton.mpr (silent_of_pick hpick))⟩

theorem chosen_of_selectOr {owner : ClassId} {name : String}
    (h : selectOr s cs owner name args = .ok hit) :
    Chosen s.unit ⟨cs, args⟩ [] hit := by
  rw [selectOr] at h
  obtain ⟨hit?, hselect, h⟩ := bind_eq_ok.mp h
  cases hit? with
  | none => cases h
  | some found =>
    cases h
    exact exists_of_select hselect

/-- The instance methods of `T::m`, with the arguments after their receiver, if
there can be one. -/
def unboundKinds (s : Site) (t : Ty) (instances : List Candidate) (args : List Ty) : List Kind :=
  (unboundArgs? s t args).toList.map (⟨instances, ·⟩)

/-- What `T::m` means in some phases: a static method that no instance method
rivals, or the other way round. -/
theorem exists_of_resolveTypeMemberIn {t : Ty} {owner : ClassType} {name : String}
    {phases : List Phase}
    {ref : Reference}
    (h : resolveTypeMemberIn s t owner name statics instances args phases = .ok ref) :
    ∃ before phase later hit, phases = before ++ phase :: later ∧
      (ref = ofCandidate (.static hit.1.id) hit ∧
          ChosenIn s.unit ⟨statics, args⟩ (unboundKinds s t instances args) before phase hit ∨
        ∃ rest, unboundArgs? s t args = some rest ∧ ref = ofCandidate (.unbound hit.1.id t) hit ∧
          ChosenIn s.unit ⟨instances, rest⟩ [⟨statics, args⟩] before phase hit) := by
  induction phases with
  | nil => cases h
  | cons phase phases ih =>
    rw [resolveTypeMemberIn] at h
    obtain ⟨asStatic, hstatic, h⟩ := bind_eq_ok.mp h
    dsimp only at h
    split at h
    · rename_i rest hrest
      have hkinds : unboundKinds s t instances args =
        [⟨instances, rest⟩] := by rw [unboundKinds, hrest]; rfl
      rw [hkinds] at ih ⊢
      obtain ⟨asUnbound, hunbound, h⟩ := bind_eq_ok.mp h
      rcases asStatic with _ | hit <;> rcases asUnbound with _ | hit'
      · obtain ⟨before, decisive, later, hit, rfl, hcase⟩ := ih h
        have hstatics := silent_of_pick hstatic
        have hinstances := silent_of_pick hunbound
        refine ⟨phase :: before, decisive, later, hit, rfl, ?_⟩
        rcases hcase with ⟨href, hchosen⟩ | ⟨rest', hrest', href, hchosen⟩
        · exact .inl ⟨href, hchosen.cons
            (List.forall_mem_cons.mpr ⟨hstatics, List.forall_mem_singleton.mpr hinstances⟩)⟩
        · obtain rfl : rest = rest' := Option.some.inj (hrest.symm.trans hrest')
          exact .inr ⟨rest, hrest, href, hchosen.cons
            (List.forall_mem_cons.mpr ⟨hinstances, List.forall_mem_singleton.mpr hstatics⟩)⟩
      · cases h
        exact ⟨[], phase, phases, hit', rfl, .inr ⟨rest, hrest, rfl, .first hunbound
          (List.forall_mem_singleton.mpr (silent_of_pick hstatic))⟩⟩
      · cases h
        exact ⟨[], phase, phases, hit, rfl, .inl ⟨rfl, .first hstatic
          (List.forall_mem_singleton.mpr (silent_of_pick hunbound))⟩⟩
      · cases h
    · rename_i hrest
      have hkinds : unboundKinds s t instances args = [] := by rw [unboundKinds, hrest]; rfl
      rw [hkinds] at ih ⊢
      rcases asStatic with _ | hit
      · obtain ⟨before, decisive, later, hit, rfl, hcase⟩ := ih h
        refine ⟨phase :: before, decisive, later, hit, rfl, ?_⟩
        rcases hcase with ⟨href, hchosen⟩ | ⟨rest, hrest', -⟩
        · exact .inl ⟨href, hchosen.cons (List.forall_mem_singleton.mpr (silent_of_pick hstatic))⟩
        · cases hrest.symm.trans hrest'
      · cases h
        exact ⟨[], phase, phases, hit, rfl, .inl ⟨rfl, .first hstatic (List.forall_mem_nil _)⟩⟩

end Choice

/-! ## The candidates -/

theorem mem_of_filterM {α ε : Type} {f : α → Except ε Bool} {as kept : List α} {a : α}
    (h : as.filterM f = .ok kept) (ha : a ∈ kept) : f a = .ok true := by
  have hrun : ∀ acc kept, List.filterAuxM f as acc = .ok kept → ∀ a ∈ kept, a ∈ acc ∨
      f a = .ok true := by
    clear h ha
    induction as with
    | nil =>
      intro acc kept h a ha
      cases h
      exact .inl ha
    | cons b as ih =>
      intro acc kept h a ha
      rw [List.filterAuxM] at h
      obtain ⟨test, htest, h⟩ := bind_eq_ok.mp h
      cases test with
      | false => exact ih acc kept h a ha
      | true =>
        rcases ih (b :: acc) kept h a ha with hacc | hok
        · rcases List.mem_cons.mp hacc with rfl | hacc
          · exact .inr htest
          · exact .inl hacc
        · exact .inr hok
  rw [List.filterM] at h
  obtain ⟨reversed, hreversed, h⟩ := bind_eq_ok.mp h
  cases h
  exact (hrun [] reversed hreversed a (List.mem_reverse.mp ha)).resolve_left List.not_mem_nil

section Candidates

variable {s : Site} {owner : ClassType} {name : String} {typeArgs : List Ty} {keep : Method → Bool}
  {cs : List Candidate} {c : Candidate}

theorem method?_of_method {id : MethodId} {m : Method} (h : s.method id = .ok m) :
    s.unit.method? id = some m := by
  rw [Site.method] at h
  split at h <;> cases h
  assumption

/-- A candidate is a method that is kept, with all its parameters. -/
theorem declared_of_mem_candidates (h : candidates s owner name typeArgs keep = .ok cs)
    (hc : c ∈ cs) :
    ∃ m, s.unit.method? c.id = some m ∧ keep m = true ∧ c.params.length = m.params.length := by
  rw [candidates] at h
  obtain ⟨kept, hkept, h⟩ := bind_eq_ok.mp h
  obtain ⟨id, hid, hseen⟩ := (exists_of_mapM_ok h).2 c hc
  have htest := mem_of_filterM hkept hid
  obtain ⟨m, hm, hkeep⟩ := bind_eq_ok.mp htest
  rw [instantiate] at hseen
  obtain ⟨d, -, hseen⟩ := bind_eq_ok.mp hseen
  obtain ⟨m', hm', hseen⟩ := bind_eq_ok.mp hseen
  obtain rfl : m = m' := Except.ok.inj (hm.symm.trans hm')
  cases hseen
  exact ⟨m, method?_of_method hm, Except.ok.inj hkeep, List.length_map _⟩

theorem declared_of_mem_constructors {d : TypeDecl} (hc : c ∈ constructors d owner) :
    ∃ m, (c.id, m) ∈ d.methodIds d.id ∧ m.kind = .constructor ∧ c.params.length =
      m.params.length := by
  rw [constructors] at hc
  obtain ⟨⟨id, m⟩, hmem, rfl⟩ := List.mem_map.mp hc
  obtain ⟨hdeclared, hkind⟩ := List.mem_filter.mp hmem
  exact ⟨m, hdeclared, beq_iff_eq.mp hkind, List.length_map _⟩

end Candidates

/-! ## The forms -/

/-- The declared member that a form runs. -/
def Form.member? : Form → Option MethodId
  | .static id | .unbound id _ | .bound id _ | .super id _ => some id
  | .constructor _ ctor _ => ctor
  | .newArray _ => none

/-- The number of arguments that become the receiver. -/
def Form.receivers : Form → Nat
  | .unbound _ _ => 1
  | _ => 0

/-- The candidates that a reference of a form is chosen from, with the arguments
they are tried with, and those that stand against them. -/
inductive Considers (s : Site) (r : MethodRef) (args : List Ty) :
    Form → Kind → List Kind → Prop where
  /-- The static methods take all arguments. The instance methods take those
  after the first one, if that fits the type. -/
  | static {owner : ClassType} {name : String} {statics instances : List Candidate} (id : MethodId)
    (hqualifier : r.qualifier = .type owner.toTy) (hmember : r.member = .method name)
    (hstatics : candidates s owner name r.typeArgs (·.isStatic) = .ok statics)
    (hinstances : candidates s owner name r.typeArgs (!·.isStatic) = .ok instances) :
    Considers s r args (.static id) ⟨statics, args⟩ (unboundKinds s owner.toTy instances args)
  | unbound {owner : ClassType} {name : String} {statics instances : List Candidate} {first : Ty}
    {rest : List Ty} (id : MethodId)
    (hqualifier : r.qualifier = .type owner.toTy) (hmember : r.member = .method name)
    (hstatics : candidates s owner name r.typeArgs (·.isStatic) = .ok statics)
    (hinstances : candidates s owner name r.typeArgs (!·.isStatic) = .ok instances)
    (hargs : args = first :: rest) (hfirst : s.unit.isLooselyAssignable first owner.toTy = true) :
    Considers s r args (.unbound id owner.toTy) ⟨instances, rest⟩ [⟨statics, args⟩]
  | bound {owner : ClassType} {name : String} {e : Expr} {cs : List Candidate} (id : MethodId)
    (object : BoundObject)
    (hqualifier : r.qualifier = .expr e owner.toTy) (hmember : r.member = .method name)
    (hcs : candidates s owner name r.typeArgs (!·.isStatic) = .ok cs) :
    Considers s r args (.bound id object) ⟨cs, args⟩ []
  /-- The methods of the supertype that can be run. -/
  | super {q : Option ClassId} {depth : Nat} {start : ClassType} {name : String}
    {cs : List Candidate}
    (id : MethodId) (hqualifier : r.qualifier = .super q) (hmember : r.member = .method name)
    (hstart : superStart s q depth = .ok start)
    (hcs : candidates s start name r.typeArgs (fun m => !m.isStatic && !m.isAbstract) = .ok cs) :
    Considers s r args (.super id depth) ⟨cs, args⟩ []
  | constructor {type : ClassType} {d : TypeDecl} (id : MethodId) (depth? : Option Nat)
    (hqualifier : r.qualifier = .type type.toTy) (hmember : r.member = .new)
    (hd : s.unit.decl? type.id = some d) :
    Considers s r args (.constructor type (some id) depth?) ⟨constructors d type, args⟩ []

/-- The declaration of the member that a form runs, with the marks that the form
asks for. -/
inductive Declares (u : CompilationUnit) : Form → Method → Prop where
  | static {id : MethodId} {m : Method} (hm : u.method? id = some m) (hstatic : m.isStatic = true) :
    Declares u (.static id) m
  | unbound {id : MethodId} {m : Method} (t : Ty) (hm : u.method? id = some m)
    (hstatic : m.isStatic = false) : Declares u (.unbound id t) m
  | bound {id : MethodId} {m : Method} (object : BoundObject) (hm : u.method? id = some m)
    (hstatic : m.isStatic = false) : Declares u (.bound id object) m
  | super {id : MethodId} {m : Method} (depth : Nat) (hm : u.method? id = some m)
    (hstatic : m.isStatic = false) (habstract : m.isAbstract = false) :
      Declares u (.super id depth) m
  | constructor {type : ClassType} {d : TypeDecl} {id : MethodId} {m : Method} (depth? : Option Nat)
    (hd : u.decl? type.id = some d) (hm : (id, m) ∈ d.methodIds d.id)
      (hkind : m.kind = .constructor) :
    Declares u (.constructor type (some id) depth?) m

/-- What a reference was resolved to: the choice of a candidate among those that
it considers. -/
structure Selection (s : Site) (r : MethodRef) (args : List Ty) (ref : Reference) (own : Kind)
    (rivals : List Kind) (c : Candidate) (m : Method) : Prop where
  considers : Considers s r args ref.form own rivals
  chosen : Chosen s.unit own rivals (c, ref.mode)
  member : ref.form.member? = some c.id
  params : ref.params = c.params
  declares : Declares s.unit ref.form m
  arity : c.params.length = m.params.length

section Resolve

variable {s : Site} {r : MethodRef} {sam : FunctionalInterface} {ref : Reference}

theorem toTy_of_classOf {t : Ty} {c : ClassType} (h : classOf t = .ok c) : t = c.toTy := by
  rw [classOf] at h
  split at h <;> cases h
  rename_i hclass
  cases t <;> cases hclass
  rfl

theorem selection_resolveTypeMember {t : Ty} {name : String} (hq : r.qualifier = .type t)
    (hm : r.member = .method name) (h : resolveTypeMember s t name r.typeArgs sam = .ok ref) :
    ∃ own rivals c m, Selection s r sam.params ref own rivals c m := by
  rw [resolveTypeMember, bind_eq_ok] at h
  obtain ⟨owner, howner, h⟩ := h
  obtain rfl := toTy_of_classOf howner
  obtain ⟨statics, hstatics, h⟩ := bind_eq_ok.mp h
  obtain ⟨instances, hinstances, h⟩ := bind_eq_ok.mp h
  split at h
  · cases h
  · obtain ⟨before, phase, later, hit, hphases, hcase⟩ := exists_of_resolveTypeMemberIn h
    rcases hcase with ⟨rfl, hchosen⟩ | ⟨rest, hrest, rfl, hchosen⟩
    · obtain ⟨m, hmethod, hkeep, harity⟩ :=
        declared_of_mem_candidates hstatics hchosen.mostSpecific.mem
      exact ⟨_, _, hit.1, m, .static _ hq hm hstatics hinstances,
        ⟨before, phase, later, hphases, hchosen⟩, rfl, rfl, .static hmethod hkeep, harity⟩
    · obtain ⟨m, hmethod, hkeep, harity⟩ :=
        declared_of_mem_candidates hinstances hchosen.mostSpecific.mem
      rw [Bool.not_eq_true'] at hkeep
      obtain ⟨first, hargs, hfirst⟩ : ∃ first, sam.params = first :: rest ∧
          s.unit.isLooselyAssignable first owner.toTy = true := by
        cases hparams : sam.params with
        | nil =>
          rw [hparams] at hrest
          cases hrest
        | cons first others =>
          rw [hparams, unboundArgs?] at hrest
          split at hrest <;> cases hrest
          exact ⟨first, rfl, ‹_›⟩
      exact ⟨_, _, hit.1, m, .unbound _ hq hm hstatics hinstances hargs hfirst,
        ⟨before, phase, later, hphases, hchosen⟩, rfl, rfl, .unbound _ hmethod hkeep, harity⟩

theorem selection_resolveBound {e : Expr} {t : Ty} {name : String} (hq : r.qualifier = .expr e t)
    (hm : r.member = .method name) (h : resolveBound s e t name r.typeArgs sam = .ok ref) :
    ∃ own rivals c m, Selection s r sam.params ref own rivals c m := by
  rw [resolveBound, bind_eq_ok] at h
  obtain ⟨owner, howner, h⟩ := h
  obtain rfl := toTy_of_classOf howner
  obtain ⟨cs, hcs, h⟩ := bind_eq_ok.mp h
  split at h
  · cases h
  · obtain ⟨object, -, h⟩ := bind_eq_ok.mp h
    obtain ⟨hit, hselect, h⟩ := bind_eq_ok.mp h
    cases h
    obtain ⟨m, hmethod, hkeep, harity⟩ := declared_of_mem_candidates hcs (mem_of_selectOr hselect)
    rw [Bool.not_eq_true'] at hkeep
    exact ⟨_, _, hit.1, m, .bound _ object hq hm hcs, chosen_of_selectOr hselect, rfl, rfl,
      .bound object hmethod hkeep, harity⟩

theorem selection_resolveSuper {q : Option ClassId} {name : String} (hq : r.qualifier = .super q)
    (hm : r.member = .method name) (h : resolveSuper s q name r.typeArgs sam = .ok ref) :
    ∃ own rivals c m, Selection s r sam.params ref own rivals c m := by
  rw [resolveSuper] at h
  obtain ⟨depth, -, h⟩ := bind_eq_ok.mp h
  obtain ⟨start, hstart, h⟩ := bind_eq_ok.mp h
  obtain ⟨cs, hcs, h⟩ := bind_eq_ok.mp h
  split at h
  · cases h
  · obtain ⟨hit, hselect, h⟩ := bind_eq_ok.mp h
    cases h
    obtain ⟨m, hmethod, hkeep, harity⟩ := declared_of_mem_candidates hcs (mem_of_selectOr hselect)
    rw [Bool.and_eq_true, Bool.not_eq_true', Bool.not_eq_true'] at hkeep
    exact ⟨_, _, hit.1, m, .super _ hq hm hstart hcs, chosen_of_selectOr hselect, rfl, rfl,
      .super depth hmethod hkeep.1 hkeep.2, harity⟩

theorem selection_resolveConstructor {t : Ty} {id : MethodId} (hq : r.qualifier = .type t)
    (hm : r.member = .new) (h : resolveConstructor s t sam = .ok ref)
    (hid : ref.form.member? = some id) :
    ∃ own rivals c m, Selection s r sam.params ref own rivals c m := by
  rw [resolveConstructor, bind_eq_ok] at h
  obtain ⟨type, htype, h⟩ := h
  obtain rfl := toTy_of_classOf htype
  obtain ⟨d, hd, h⟩ := bind_eq_ok.mp h
  have hd : s.unit.decl? type.id = some d := by
    rw [Site.decl] at hd
    split at hd <;> cases hd
    assumption
  dsimp only at h
  cases hkind : d.isInterface || d.isAbstract <;> rw [hkind] at h
  case true => cases h
  case false =>
    rw [if_neg Bool.false_ne_true] at h
    obtain ⟨depth?, -, h⟩ := bind_eq_ok.mp h
    split at h
    · split at h <;> cases h
      cases hid
    · obtain ⟨⟨c, mode⟩, hselect, h⟩ := bind_eq_ok.mp h
      cases h
      obtain ⟨m, hdeclared, hkind, harity⟩ := declared_of_mem_constructors (mem_of_selectOr hselect)
      exact ⟨_, _, c, m, .constructor _ depth? hq hm hd, chosen_of_selectOr hselect, rfl, rfl,
        .constructor depth? hd hdeclared hkind, harity⟩

/-- **A reference that is resolved to a declared member was chosen for it.** -/
theorem selection_resolve {id : MethodId} (h : resolve s r sam = .ok ref)
    (hid : ref.form.member? = some id) :
    ∃ own rivals c m, Selection s r sam.params ref own rivals c m := by
  rw [resolve] at h
  split at h
  · rw [resolveNewArray] at h
    split at h
    · split at h <;> cases h
      cases hid
    · cases h
  · rename_i hm hq
    exact selection_resolveConstructor hq hm h hid
  · cases h
  · rename_i hm hq
    exact selection_resolveTypeMember hq hm h
  · rename_i hm hq
    exact selection_resolveBound hq hm h
  · rename_i hm hq
    exact selection_resolveSuper hq hm h

end Resolve

/-! ## The call -/

/-- A call of a member with given arguments, on a receiver if one is given. -/
inductive Runs (id : MethodId) (args : List Expr) : List Expr → Expr → Prop where
  | call (receiver : Receiver) : Runs id args [] (.call receiver id args)
  | new (type : ClassType) (outer : Option Expr) : Runs id args [] (.new type (some id) outer args)
  | on {v w : Expr} (h : v.Wraps w) : Runs id args [v] (.call (.expr (.nullCheck w)) id args)

theorem Considers.args_eq {s : Site} {r : MethodRef} {args : List Ty} {form : Form} {own : Kind}
    {rivals : List Kind} (h : Considers s r args form own rivals) :
      own.args = args.drop form.receivers := by
  cases h with
  | unbound _ _ _ _ _ hargs =>
    rw [hargs]
    rfl
  | static | bound | super | constructor => rfl

/-- **The call runs the member with the arguments that were built**, and on the
first one if that is its receiver. -/
theorem runs_of_referenceCall {u : CompilationUnit} {adapter : ClassId} {captures : CaptureSet}
    {ref : Reference} {id : MethodId} {args : List (Expr × Ty)} {e : Expr}
    (hid : ref.form.member? = some id)
    (h : Lowering.referenceCall u adapter captures ref args = .ok e) :
    Runs id (buildArguments u (args.drop ref.form.receivers) ref.params ref.mode)
      ((args.map (·.1)).take ref.form.receivers) e := by
  obtain ⟨form, params, mode, result⟩ := ref
  rw [Lowering.referenceCall] at h
  cases form with
  | static m =>
    cases hid
    cases h
    exact .call _
  | unbound m t =>
    cases hid
    cases args with
    | nil => cases h
    | cons a rest =>
      cases h
      exact .on (.adaptValue ..)
  | bound m object =>
    cases hid
    cases object with
    | instance_ depth =>
      obtain ⟨receiver, -, h⟩ := bind_eq_ok.mp h
      cases h
      exact .call _
    | value t =>
      obtain ⟨receiver, -, h⟩ := bind_eq_ok.mp h
      cases h
      exact .call _
  | constructor type ctor depth? =>
    cases hid
    cases depth? with
    | none =>
      cases h
      exact .new ..
    | some depth =>
      obtain ⟨outer, -, h⟩ := bind_eq_ok.mp h
      cases h
      exact .new ..
  | newArray element => cases hid
  | super m depth =>
    cases hid
    obtain ⟨receiver, -, h⟩ := bind_eq_ok.mp h
    cases h
    exact .call _

end Reference

open Reference in
/-- **Selection of overloads is sound.** A declared member that a reference is
resolved to is chosen among the candidates of its form as the phases demand. The
arguments then fill its parameters: each is used once and in order, the first
one as the receiver if the form asks for it, and the last ones inside an array
if the mode does. -/
theorem overload_selection {s : Site} {r : MethodRef} {sam : FunctionalInterface} {ref : Reference}
    {id : MethodId} (h : resolve s r sam = .ok ref) (hid : ref.form.member? = some id) :
    ∃ own rivals c m, Selection s r sam.params ref own rivals c m ∧ c.id = id ∧
      ∀ values : List Expr, values.length = sam.params.length →
        ∃ passed, List.Forall₂ Expr.Wraps (values.drop ref.form.receivers) passed ∧
          buildArguments s.unit ((values.zip sam.params).drop ref.form.receivers)
            ref.params ref.mode =
            ref.mode.pack passed ∧
          (ref.mode.pack passed).length = m.params.length ∧
          ∀ adapter captures e,
            Lowering.referenceCall s.unit adapter captures ref (values.zip sam.params) = .ok e →
            Runs id (ref.mode.pack passed) (values.take ref.form.receivers) e := by
  obtain ⟨own, rivals, c, m, hsel⟩ := selection_resolve h hid
  refine ⟨own, rivals, c, m, hsel,
    Option.some.inj (hsel.member.symm.trans hid), fun values hvalues => ?_⟩
  obtain ⟨before, phase, later, -, hchosen⟩ := hsel.chosen
  have happ : applicable? s.unit c.isVarargs ref.params (sam.params.drop ref.form.receivers) phase =
      some ref.mode := by
    rw [← hsel.considers.args_eq, hsel.params]
    exact hchosen.mostSpecific.applicable
  have hlength : (values.drop ref.form.receivers).length =
      (sam.params.drop ref.form.receivers).length := by
    rw [List.length_drop, List.length_drop, hvalues]
  obtain ⟨passed, hpassed, hbuilt, hcount⟩ := passes_of_applicable happ hlength
  have hdrop : (values.zip sam.params).drop ref.form.receivers =
      (values.drop ref.form.receivers).zip (sam.params.drop ref.form.receivers) := List.drop_zipWith
  rw [← hdrop] at hbuilt
  refine ⟨passed, hpassed, hbuilt, ?_, fun adapter captures e he => ?_⟩
  · rw [hcount, hsel.params, hsel.arity]
  · have hruns := runs_of_referenceCall hid he
    rwa [hbuilt, List.map_fst_zip (Nat.le_of_eq hvalues)] at hruns

namespace Joining

/-- A class with a static method that takes a number and an instance method that
takes any objects. -/
def unit : CompilationUnit where
  name := "joining"
  sourcePath := none
  types := [
    { TypeDecl.empty 0 "Text" .topLevel with
      methods := [
        ⟨"join", [], [⟨1, "n", .int, true⟩], .int, [], .method, true, false,
          false, false, some [], .dummy⟩,
        ⟨"join", [], [⟨2, "rest", .array .object, true⟩], .int, [], .method,
          false, false, false, true, some [],
          .dummy⟩] }]

/-- A site in the class, and a reference to its method. -/
def site : Site := ⟨unit, 0, [], []⟩

def ref : MethodRef := ⟨.type (.raw 0), .method "join", [], .raw 1, .dummy⟩

/-- A functional interface whose method takes a text, a number and a string. -/
def sam : FunctionalInterface :=
  ⟨.raw 1, ⟨1, 0⟩, "apply", [.raw 0, .int, .string], .int, [], [.raw 0, .int, .string], .int, []⟩

/-- The instance method, which packs what comes after the text. -/
def resolved : Reference := ⟨.unbound ⟨0, 1⟩ (.raw 0), [.array .object], .variadic 0 .object, .int⟩

end Joining

open Reference Joining in
/-- The static method is not applicable, and the instance method in the last
phase only. -/
theorem overload_selection_joining :
    Reference.resolve site ref sam = .ok resolved ∧ resolved.form.member? = some ⟨0, 1⟩ ∧
    ∃ own rivals c m, Selection site ref sam.params resolved own rivals c m ∧
      ∃ passed, List.Forall₂ Expr.Wraps [.localGet 8, .localGet 9] passed ∧
        buildArguments unit [(.localGet 8, .int), (.localGet 9, .string)] [.array .object]
          (.variadic 0 .object) = [.arrayLit .object passed] ∧ m.params.length = 1 := by
  have hresolve : Reference.resolve site ref sam = .ok resolved := by cbv
  obtain ⟨own, rivals, c, m, hsel, -, hpass⟩ := overload_selection hresolve rfl
  obtain ⟨passed, hwraps, hbuilt, hcount, -⟩ := hpass [.localGet 7, .localGet 8, .localGet 9] rfl
  exact ⟨hresolve, rfl, own, rivals, c, m, hsel, passed, hwraps, hbuilt, hcount.symm⟩

end Closures
