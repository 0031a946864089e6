import Closures.Proofs.CaptureAnalysis
import Closures.Proofs.TreeShape

/-!
# The forms of method references

What `Reference.resolve` can answer depends on what stands before the two
colons. `Reference.FormOf` lists the possibilities, with the enclosing instance
that each of them needs, and `Reference.formOf_resolve` says that there are no
others. The call that a reference becomes is put together from few kinds of
nodes around the arguments and the slots it reads;
`Lowering.referenceCall_induction` is induction along them.
-/

set_option autoImplicit false

namespace Closures

namespace Reference

/-- The forms that a reference with a given qualifier can have at a site. -/
inductive FormOf (s : Site) : RefQualifier → Form → Prop where
  | static (t : Ty) (m : MethodId) : FormOf s (.type t) (.static m)
  | unbound (t : Ty) (m : MethodId) : FormOf s (.type t) (.unbound m t)
  | newArray (t : Ty) (element : Ty) : FormOf s (.type t) (.newArray element)
  /-- A constructor is given the enclosing instance that its type asks for. -/
  | constructor {t : Ty} {type : ClassType} {ctor : Option MethodId} {depth? : Option Nat}
    (h : s.creationDepth type.id = .ok depth?) : FormOf s (.type t) (.constructor type ctor depth?)
  /-- Only `this` is bound as an enclosing instance. -/
  | instance_ {q : Option ClassId} {t : Ty} {m : MethodId} {depth : Nat}
    (h : s.thisDepth q = .ok depth) : FormOf s (.expr (.this q) t) (.bound m (.instance_ depth))
  | value (e : Expr) (t : Ty) (m : MethodId) : FormOf s (.expr e t) (.bound m (.value t))
  | super {q : Option ClassId} {m : MethodId} {depth : Nat} (h : s.thisDepth q = .ok depth) :
    FormOf s (.super q) (.super m depth)

section Resolve

variable {s : Site} {sam : FunctionalInterface} {ref : Reference}

theorem formOf_resolveNewArray {t element : Ty} (h : resolveNewArray s element sam = .ok ref) :
    FormOf s (.type t) ref.form := by
  unfold resolveNewArray at h
  split at h
  · split at h <;> cases h
    exact .newArray t element
  · cases h

theorem formOf_resolveConstructor {t : Ty} (h : resolveConstructor s t sam = .ok ref) :
    FormOf s (.type t) ref.form := by
  rw [resolveConstructor] at h
  obtain ⟨type, -, h⟩ := bind_eq_ok.mp h
  obtain ⟨d, -, h⟩ := bind_eq_ok.mp h
  dsimp only at h
  cases hd : d.isInterface || d.isAbstract <;> rw [hd] at h
  case true => cases h
  case false =>
    rw [if_neg Bool.false_ne_true] at h
    obtain ⟨depth?, hdepth, h⟩ := bind_eq_ok.mp h
    split at h
    · split at h <;> cases h
      exact .constructor hdepth
    · obtain ⟨⟨c, mode⟩, -, h⟩ := bind_eq_ok.mp h
      cases h
      exact .constructor hdepth

theorem formOf_resolveTypeMemberIn {t : Ty} {owner : ClassType} {name : String}
    {statics instances : List Candidate} {args : List Ty} {phases : List Phase}
    (h : resolveTypeMemberIn s t owner name statics instances args phases = .ok ref) :
    FormOf s (.type t) ref.form := by
  induction phases with
  | nil => cases h
  | cons phase phases ih =>
    rw [resolveTypeMemberIn] at h
    obtain ⟨asStatic, -, h⟩ := bind_eq_ok.mp h
    dsimp only at h
    split at h
    · obtain ⟨asUnbound, -, h⟩ := bind_eq_ok.mp h
      rcases asStatic with _ | hit <;> rcases asUnbound with _ | hit'
      · exact ih h
      · cases h
        exact .unbound t _
      · cases h
        exact .static t _
      · cases h
    · rcases asStatic with _ | hit
      · exact ih h
      · cases h
        exact .static t _

theorem formOf_resolveTypeMember {t : Ty} {name : String} {typeArgs : List Ty}
    (h : resolveTypeMember s t name typeArgs sam = .ok ref) : FormOf s (.type t) ref.form := by
  rw [resolveTypeMember] at h
  obtain ⟨owner, -, h⟩ := bind_eq_ok.mp h
  obtain ⟨statics, -, h⟩ := bind_eq_ok.mp h
  obtain ⟨instances, -, h⟩ := bind_eq_ok.mp h
  split at h
  · cases h
  · exact formOf_resolveTypeMemberIn h

theorem formOf_boundObject {object : Expr} {t : Ty} {m : MethodId} {receiver : BoundObject}
    (h : boundObject s t object = .ok receiver) :
    FormOf s (.expr object t) (.bound m receiver) := by
  unfold boundObject at h
  split at h
  · obtain ⟨depth, hdepth, h⟩ := bind_eq_ok.mp h
    cases h
    exact .instance_ hdepth
  · cases h
    exact .value ..

theorem formOf_resolveBound {object : Expr} {t : Ty} {name : String} {typeArgs : List Ty}
    (h : resolveBound s object t name typeArgs sam = .ok ref) :
    FormOf s (.expr object t) ref.form := by
  rw [resolveBound] at h
  obtain ⟨owner, -, h⟩ := bind_eq_ok.mp h
  obtain ⟨cs, -, h⟩ := bind_eq_ok.mp h
  split at h
  · cases h
  · obtain ⟨receiver, hreceiver, h⟩ := bind_eq_ok.mp h
    obtain ⟨hit, -, h⟩ := bind_eq_ok.mp h
    cases h
    exact formOf_boundObject hreceiver

theorem formOf_resolveSuper {q : Option ClassId} {name : String} {typeArgs : List Ty}
    (h : resolveSuper s q name typeArgs sam = .ok ref) : FormOf s (.super q) ref.form := by
  rw [resolveSuper] at h
  obtain ⟨depth, hdepth, h⟩ := bind_eq_ok.mp h
  obtain ⟨start, -, h⟩ := bind_eq_ok.mp h
  obtain ⟨cs, -, h⟩ := bind_eq_ok.mp h
  split at h
  · cases h
  · obtain ⟨hit, -, h⟩ := bind_eq_ok.mp h
    cases h
    exact .super hdepth

/-- **The form of a resolved reference is one of those that its qualifier
allows.** -/
theorem formOf_resolve {r : MethodRef} (h : resolve s r sam = .ok ref) :
    FormOf s r.qualifier ref.form := by
  obtain ⟨q, member, typeArgs, target, span⟩ := r
  cases member with
  | new =>
    rcases q with t | ⟨e, t⟩ | q
    · cases t
      case array element => exact formOf_resolveNewArray h
      all_goals exact formOf_resolveConstructor h
    · cases h
    · cases h
  | method name =>
    rcases q with t | ⟨e, t⟩ | q
    · exact formOf_resolveTypeMember h
    · exact formOf_resolveBound h
    · exact formOf_resolveSuper h

end Resolve

end Reference

/-! ## The operands -/

namespace Lowering

/-- A method reference is made of nothing but its qualifier and enclosing
instances. -/
theorem operands_of_formOf {s : Site} {q : RefQualifier} {form : Reference.Form}
    (h : Reference.FormOf s q form) {e : Expr}
    (he : e ∈ (CaptureSet.ofReference s form).operands s (receiverOf form q)) :
    (∃ q, e = .this q) ∨ ∃ x ∈ q.children, e = .nullCheck x := by
  have hinstance : ∀ depth type, ∃ q, CaptureSet.operand s none (.instance_ depth type) =
      .this q := by
    rintro (_ | depth) type <;> exact ⟨_, rfl⟩
  cases h with
  | value x t m => exact .inr ⟨x, List.mem_singleton_self x, List.mem_singleton.mp he⟩
  | instance_ | super => exact .inl (List.mem_singleton.mp he ▸ hinstance ..)
  | @constructor _ _ _ depth? =>
    cases depth? with
    | none => cases he
    | some depth => exact .inl (List.mem_singleton.mp he ▸ hinstance ..)
  | static | unbound | newArray => cases he

end Lowering

/-! ## The call -/

/-- The nodes that a call is put together from, apart from the arguments and the
slots it reads. -/
def Expr.isGlue : Expr → Bool
  | .box _ _ | .unbox _ _ | .convert _ _ | .cast _ _ | .nullCheck _ | .arrayLit _ _ | .int _
  | .newArray _ _ | .call .static _ _ | .call (.expr _) _ _ | .call (.nonVirtual _) _ _
  | .new _ _ (some _) _ => true
  | _ => false

theorem Expr.isGlue_of_isConversion {e : Expr} (h : e.isConversion = true) : e.isGlue = true := by
  cases e
  case box | unbox | convert | cast => rfl
  all_goals cases h

theorem Expr.isLambda_of_isGlue {e : Expr} (h : e.isGlue = true) : e.isLambda = false := by
  cases e
  case lambda => cases h
  all_goals rfl

section Glue

variable {Q : Expr → Prop} (glue : ∀ e : Expr, e.isGlue = true → (∀ c ∈ e.children, Q c) → Q e)

include glue

theorem Expr.Wraps.induction {e w : Expr} (h : e.Wraps w) (he : Q e) : Q w := by
  induction h with
  | refl => exact he
  | step _ hw hc ih =>
    refine glue _ (isGlue_of_isConversion hw) ?_
    rw [hc]
    exact List.forall_mem_singleton.mpr ih

theorem adaptEach_induction {u : CompilationUnit} {args : List (Expr × Ty)} {params : List Ty}
    (h : ∀ a ∈ args, Q a.1) : ∀ e ∈ adaptEach u args params, Q e := by
  induction args generalizing params with
  | nil => exact fun _ h => nomatch h
  | cons a args ih =>
    cases params with
    | nil => exact fun _ h => nomatch h
    | cons p params =>
      rw [List.forall_mem_cons] at h
      exact List.forall_mem_cons.mpr
        ⟨(Expr.Wraps.adaptValue u a.1 a.2 p).induction glue h.1, ih h.2⟩

theorem buildArguments_induction {u : CompilationUnit} {args : List (Expr × Ty)} {params : List Ty}
    {mode : ArgMode} (h : ∀ a ∈ args, Q a.1) : ∀ e ∈ buildArguments u args params mode, Q e := by
  cases mode with
  | fixed => exact adaptEach_induction glue h
  | variadic count element =>
    refine List.forall_mem_append.mpr ⟨adaptEach_induction glue fun a ha =>
      h a (List.mem_of_mem_take ha), List.forall_mem_singleton.mpr (glue _ rfl ?_)⟩
    refine List.forall_mem_map.mpr fun a ha => ?_
    exact (Expr.Wraps.adaptValue u a.1 a.2 element).induction glue (h a (List.mem_of_mem_drop ha))

namespace Lowering

/-- **What holds of the arguments and of slot reads and is kept by the nodes
around them holds of the call** that a method reference becomes. A creation that
is given no enclosing instance is apart: it asks for none. -/
theorem referenceCall_induction {u : CompilationUnit} {adapter : ClassId} {captures : CaptureSet}
    {r : Reference} {args : List (Expr × Ty)} {call : Expr}
    (new : ∀ t ctor as, r.form = .constructor t ctor none → (∀ e ∈ as, Q e) →
      Q (.new t ctor none as))
    (slot : ∀ i < captures.slots.length, Q (CaptureSet.slotRead adapter i))
    (hargs : ∀ a ∈ args, Q a.1) (h : referenceCall u adapter captures r args = .ok call) :
    Q call := by
  have built : ∀ args : List (Expr × Ty), (∀ a ∈ args, Q a.1) →
      ∀ e ∈ buildArguments u args r.params r.mode, Q e := fun args => buildArguments_induction glue
  have read : ∀ {test e}, readSlot adapter (captures.slots.findIdx? test) = .ok e → Q e := by
    intro test e h
    cases hi : captures.slots.findIdx? test with
    | none => rw [hi] at h; cases h
    | some i =>
      rw [hi] at h
      cases h
      exact slot i (List.findIdx?_eq_some_iff_findIdx_eq.mp hi).1
  unfold referenceCall at h
  dsimp only at h
  split at h
  · cases h
    exact glue _ rfl (built args hargs)
  · split at h
    · cases h
      rw [List.forall_mem_cons] at hargs
      refine glue _ rfl (List.forall_mem_cons.mpr ⟨glue _ rfl (List.forall_mem_singleton.mpr ?_),
        built _ hargs.2⟩)
      exact (Expr.Wraps.adaptValue ..).induction glue hargs.1
    · cases h
  · obtain ⟨e, he, h⟩ := bind_eq_ok.mp h
    cases h
    exact glue _ rfl (List.forall_mem_cons.mpr ⟨read he, built args hargs⟩)
  · obtain ⟨e, he, h⟩ := bind_eq_ok.mp h
    cases h
    exact glue _ rfl (List.forall_mem_cons.mpr ⟨read he, built args hargs⟩)
  · rename_i hform
    cases h
    exact new _ _ _ hform (built args hargs)
  · obtain ⟨e, he, h⟩ := bind_eq_ok.mp h
    cases h
    exact glue _ rfl (List.forall_mem_cons.mpr ⟨read he, built args hargs⟩)
  · cases h
    refine glue _ rfl (List.forall_mem_singleton.mpr ?_)
    rcases List.eq_nil_or_concat (buildArguments u args r.params r.mode) with hnil | ⟨as, a, hlast⟩
    · rw [hnil]
      exact glue _ rfl fun _ h => nomatch h
    · rw [List.concat_eq_append] at hlast
      have hall := built args hargs
      rw [hlast, List.forall_mem_append] at hall
      rw [hlast, List.getLastD_concat]
      exact hall.2 a List.mem_cons_self
  · obtain ⟨e, he, h⟩ := bind_eq_ok.mp h
    cases h
    exact glue _ rfl (List.forall_mem_cons.mpr ⟨read he, built args hargs⟩)

end Lowering

end Glue

end Closures
