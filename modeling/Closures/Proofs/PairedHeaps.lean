import Closures.Proofs.SameCode
import Closures.Proofs.StoreChange

/-!
# Paired heaps

Two runs of one program can create their objects in different orders. A
**pairing** says which object of one heap stands for which object of the other.
It is one to one, and paired objects have the same type and paired contents:
fields, enclosing instances, boxed values and array elements. Serials may
differ.

What an operation finds out about a value and what it takes from the heap is
then paired as well. No operation tells two paired heaps apart, but for the text
of an instance, which shows its serial (`Value.Paired.textWithin_eq`). How many
objects there are in all does not matter either: enclosing instances are older
than what they enclose, so a walk outward ends before its steps do
(`outwardFrom_paired`).
-/

set_option autoImplicit false

namespace Closures

/-- Which object of one heap stands for which object of another. -/
abbrev Pairing := Ref → Ref → Prop

/-- A pairing with one more pair. -/
def Pairing.add (ρ : Pairing) (a b : Ref) : Pairing := fun x y => ρ x y ∨ x = a ∧ y = b

theorem Pairing.le_add (ρ : Pairing) (a b : Ref) : ρ ≤ ρ.add a b := fun _ _ => .inl

theorem Pairing.add_self (ρ : Pairing) (a b : Ref) : ρ.add a b a b := .inr ⟨rfl, rfl⟩

/-! ## Values -/

/-- Values that refer to paired objects, or the same value of anything else. -/
inductive Value.Paired (ρ : Pairing) : Value → Value → Prop where
  | ref {a b : Ref} (h : ρ a b) : Paired ρ (.ref a) (.ref b)
  | plain {v : Value} (h : v.ref? = none) : Paired ρ v v

section Mono

variable {ρ ρ' : Pairing} (hρ : ρ ≤ ρ')

include hρ

theorem Value.Paired.mono {v w : Value} (h : v.Paired ρ w) : v.Paired ρ' w := by
  cases h with
  | ref h => exact .ref (hρ _ _ h)
  | plain h => exact .plain h

theorem forall₂_paired_mono {vs ws : List Value} (h : List.Forall₂ (Value.Paired ρ) vs ws) :
    List.Forall₂ (Value.Paired ρ') vs ws := h.imp fun _ _ => .mono hρ

theorem optionRel_mono {a b : Option Ref} (h : Option.Rel ρ a b) : Option.Rel ρ' a b := by
  cases h with
  | some h => exact .some (hρ _ _ h)
  | none => exact .none

end Mono

theorem Value.ref?_defaultFor (t : Ty) : (Value.defaultFor t).ref? = none := by
  unfold Value.defaultFor
  split <;> rfl

/-- A value of every kind but a reference. -/
theorem Value.ref?_ofNum (n : Num) (k : Primitive) : (Value.ofNum n k).ref? = none := by
  cases k <;> rfl

namespace Value.Paired

variable {ρ : Pairing} {v w : Value}

theorem isNull_eq (h : v.Paired ρ w) : v.isNull = w.isNull := by cases h <;> rfl

theorem isText_eq (h : v.Paired ρ w) : v.isText = w.isText := by cases h <;> rfl

theorem isReference_eq (h : v.Paired ρ w) : v.isReference = w.isReference := by cases h <;> rfl

end Value.Paired

/-! ## Tables -/

/-- Tables with the same keys and paired values. -/
def Table.Paired {κ : Type} (ρ : Pairing) (t t' : Table κ Value) : Prop :=
  List.Forall₂ (fun x y => x.1 = y.1 ∧ x.2.Paired ρ y.2) t t'

namespace Table.Paired

variable {κ : Type} {ρ ρ' : Pairing} {t t' : Table κ Value}

theorem mono (hρ : ρ ≤ ρ') (h : t.Paired ρ t') : t.Paired ρ' t' :=
  List.Forall₂.imp (fun _ _ h => ⟨h.1, h.2.mono hρ⟩) h

/-- A table without references is paired with itself. -/
theorem refl (ht : ∀ x ∈ t, x.2.ref? = none) : t.Paired ρ t :=
  List.forall₂_same.mpr fun x hx => ⟨rfl, .plain (ht x hx)⟩

variable [BEq κ]

theorem get? (h : t.Paired ρ t') (k : κ) : Option.Rel (Value.Paired ρ) (t.get? k) (t'.get? k) := by
  induction h with
  | nil => exact .none
  | @cons x y _ _ hxy _ ih =>
    obtain ⟨key, v⟩ := x
    obtain ⟨key', w⟩ := y
    obtain ⟨rfl, hv⟩ := hxy
    rw [Table.get?, Table.get?, List.lookup_cons, List.lookup_cons]
    cases k == key with
    | true => exact .some hv
    | false => exact ih

theorem put (h : t.Paired ρ t') (k : κ) {v w : Value} (hv : v.Paired ρ w) :
    (t.put k v).Paired ρ (t'.put k w) := by
  induction h with
  | nil => exact .cons ⟨rfl, hv⟩ .nil
  | @cons x y _ _ hxy hrest ih =>
    obtain ⟨key, x⟩ := x
    obtain ⟨key', y⟩ := y
    obtain ⟨rfl, hx⟩ := hxy
    rw [Table.put, Table.put]
    split
    · exact .cons ⟨rfl, hv⟩ hrest
    · exact .cons ⟨rfl, hx⟩ ih

end Table.Paired

/-! ## Objects -/

/-- Objects of the same type with paired contents. -/
inductive Obj.Paired (ρ : Pairing) : Obj → Obj → Prop where
  | inst {type : ClassId} {serial serial' : UInt32} {fields fields' : Table FieldId Value}
    {outer outer' : Option Ref} (hfields : fields.Paired ρ fields')
      (houter : Option.Rel ρ outer outer') :
    Paired ρ (.inst type serial fields outer) (.inst type serial' fields' outer')
  | boxed {kind : Primitive} {v w : Value} (h : v.Paired ρ w) :
    Paired ρ (.boxed kind v) (.boxed kind w)
  | array {t : Ty} {vs ws : Array Value} (h : List.Forall₂ (Value.Paired ρ) vs.toList ws.toList) :
    Paired ρ (.array t vs) (.array t ws)

/-- The enclosing instance of an object. -/
def Obj.outer? : Obj → Option Ref
  | .inst _ _ _ outer => outer
  | _ => none

theorem Obj.outer?_withField (f : FieldId) (v : Value) (o : Obj) :
    (o.withField f v).outer? = o.outer? := by
  cases o <;> rfl

theorem Obj.outer?_withElement (i : Nat) (v : Value) (o : Obj) :
    (o.withElement i v).outer? = o.outer? := by
  cases o <;> rfl

theorem forall₂_set {α β : Type} {R : α → β → Prop} {as : List α} {bs : List β}
    (h : List.Forall₂ R as bs) (i : Nat) {a : α} {b : β} (hab : R a b) :
    List.Forall₂ R (as.set i a) (bs.set i b) := by
  induction h generalizing i with
  | nil => exact .nil
  | cons hxy hrest ih =>
    cases i with
    | zero => exact .cons hab hrest
    | succ i => exact .cons hxy (ih i)

namespace Obj.Paired

variable {ρ ρ' : Pairing} {o o' : Obj}

theorem mono (hρ : ρ ≤ ρ') (h : o.Paired ρ o') : o.Paired ρ' o' := by
  cases h with
  | inst hfields houter => exact .inst (hfields.mono hρ) (optionRel_mono hρ houter)
  | boxed h => exact .boxed (h.mono hρ)
  | array h => exact .array (forall₂_paired_mono hρ h)

theorem outer? (h : o.Paired ρ o') : Option.Rel ρ o.outer? o'.outer? := by
  cases h with
  | inst _ houter => exact houter
  | boxed | array => exact .none

theorem withField (h : o.Paired ρ o') (f : FieldId) {v w : Value} (hv : v.Paired ρ w) :
    (o.withField f v).Paired ρ (o'.withField f w) := by
  cases h with
  | inst hfields houter => exact .inst (hfields.put f hv) houter
  | boxed h => exact .boxed h
  | array h => exact .array h

theorem withElement (h : o.Paired ρ o') (i : Nat) {v w : Value} (hv : v.Paired ρ w) :
    (o.withElement i v).Paired ρ (o'.withElement i w) := by
  cases h with
  | inst hfields houter => exact .inst hfields houter
  | boxed h => exact .boxed h
  | array h =>
    refine .array ?_
    rw [Array.toList_setIfInBounds, Array.toList_setIfInBounds]
    exact forall₂_set h i hv

end Obj.Paired

/-! ## Heaps -/

/-- Enclosing instances are older than what they enclose. -/
def Heap.Inward (h : Heap) : Prop :=
  ∀ (r : Ref) (o : Obj), h[r]? = some o → ∀ p, o.outer? = some p → p < r

namespace Heap.Inward

variable {h : Heap}

theorem push (hin : Heap.Inward h) {o : Obj} (ho : ∀ p, o.outer? = some p → p < h.size) :
    Heap.Inward (h.push o) := by
  intro r o' hr
  rw [Array.getElem?_push] at hr
  split at hr
  · rename_i hsize
    cases hr
    rw [hsize]
    exact ho
  · exact hin r o' hr

theorem modify (hin : Heap.Inward h) (a : Ref) {f : Obj → Obj} (hf : ∀ o, (f o).outer? = o.outer?) :
    Heap.Inward (h.modify a f) := by
  intro r o' hr p hp
  rw [Array.getElem?_modify] at hr
  split at hr
  · obtain ⟨o, ho, rfl⟩ := Option.map_eq_some_iff.mp hr
    rw [hf] at hp
    exact hin r o ho p hp
  · exact hin r o' hr p hp

end Heap.Inward

/-- **Paired heaps.** Objects are paired one to one, and paired objects are
alike. -/
structure Heap.Paired (ρ : Pairing) (h h' : Heap) : Prop where
  inj : ∀ {a b a' b'}, ρ a b → ρ a' b' → (a = a' ↔ b = b')
  obj : ∀ {a b}, ρ a b → ∃ o o', h[a]? = some o ∧ h'[b]? = some o' ∧ o.Paired ρ o'
  inward : Heap.Inward h
  inward' : Heap.Inward h'

namespace Heap.Paired

variable {ρ : Pairing} {h h' : Heap}

theorem lt_size (hh : Heap.Paired ρ h h') {a b : Ref} (hab : ρ a b) : a < h.size ∧ b < h'.size := by
  obtain ⟨o, o', ho, ho', -⟩ := hh.obj hab
  exact ⟨(Array.getElem?_eq_some_iff.mp ho).1, (Array.getElem?_eq_some_iff.mp ho').1⟩

/-- One more pair of objects that are not in a pair yet. -/
theorem add (hh : Heap.Paired ρ h h') {k k' : Heap} (hk : Heap.Inward k) (hk' : Heap.Inward k')
    {a b : Ref} (ha : ∀ y, ¬ρ a y) (hb : ∀ x, ¬ρ x b)
    (hkept : ∀ x y, ρ x y → k[x]? = h[x]? ∧ k'[y]? = h'[y]?) {o o' : Obj} (hka : k[a]? = some o)
    (hkb : k'[b]? = some o') (ho : o.Paired (ρ.add a b) o') : Heap.Paired (ρ.add a b) k k' where
  inj := by
    rintro x y x' y' (hxy | ⟨rfl, rfl⟩) (hxy' | ⟨rfl, rfl⟩)
    · exact hh.inj hxy hxy'
    · refine ⟨?_, ?_⟩
      · rintro rfl
        exact absurd hxy (ha y)
      · rintro rfl
        exact absurd hxy (hb x)
    · refine ⟨?_, ?_⟩
      · rintro rfl
        exact absurd hxy' (ha y')
      · rintro rfl
        exact absurd hxy' (hb x')
    · exact iff_of_true rfl rfl
  obj := by
    rintro x y (hxy | ⟨rfl, rfl⟩)
    · obtain ⟨o₁, o₂, ho₁, ho₂, hpair⟩ := hh.obj hxy
      obtain ⟨hx, hy⟩ := hkept x y hxy
      exact ⟨o₁, o₂, hx.trans ho₁, hy.trans ho₂, hpair.mono (ρ.le_add a b)⟩
    · exact ⟨o, o', hka, hkb, ho⟩
  inward := hk
  inward' := hk'

/-- Two new objects make a pair. -/
theorem push (hh : Heap.Paired ρ h h') {o o' : Obj} (ho : o.Paired ρ o') :
    Heap.Paired (ρ.add h.size h'.size) (h.push o) (h'.push o') := by
  have houter := ho.outer?
  refine hh.add (hh.inward.push fun p hp => ?_) (hh.inward'.push fun p hp => ?_) (fun y hy => ?_)
    (fun x hx => ?_) (fun x y hxy => ?_) Array.getElem?_push_size Array.getElem?_push_size
    (ho.mono (ρ.le_add _ _))
  · rw [hp] at houter
    generalize o'.outer? = q at houter
    cases houter with
    | some hpq => exact (hh.lt_size hpq).1
  · rw [hp] at houter
    generalize o.outer? = q at houter
    cases houter with
    | some hpq => exact (hh.lt_size hpq).2
  · exact absurd (hh.lt_size hy).1 (Nat.lt_irrefl _)
  · exact absurd (hh.lt_size hx).2 (Nat.lt_irrefl _)
  · obtain ⟨hx, hy⟩ := hh.lt_size hxy
    rw [Array.getElem?_push, Array.getElem?_push, if_neg (Nat.ne_of_lt hx),
      if_neg (Nat.ne_of_lt hy)]
    exact ⟨rfl, rfl⟩

/-- Paired objects are changed in the same way. -/
theorem modify (hh : Heap.Paired ρ h h') {a b : Ref} (hab : ρ a b) {f f' : Obj → Obj}
    (hf : ∀ {o o'}, o.Paired ρ o' → (f o).Paired ρ (f' o')) (hout : ∀ o, (f o).outer? = o.outer?)
    (hout' : ∀ o, (f' o).outer? = o.outer?) : Heap.Paired ρ (h.modify a f) (h'.modify b f') where
  inj := hh.inj
  obj := by
    intro x y hxy
    obtain ⟨o, o', ho, ho', hpair⟩ := hh.obj hxy
    rw [Array.getElem?_modify, Array.getElem?_modify, ho, ho']
    by_cases hax : a = x
    · rw [if_pos hax, if_pos ((hh.inj hab hxy).mp hax)]
      exact ⟨f o, f' o', rfl, rfl, hf hpair⟩
    · rw [if_neg hax, if_neg fun hby => hax ((hh.inj hab hxy).mpr hby)]
      exact ⟨o, o', rfl, rfl, hpair⟩
  inward := hh.inward.modify a hout
  inward' := hh.inward'.modify b hout'

end Heap.Paired

/-! ## Outcomes -/

/-- The value that a fault throws. -/
def Fault.thrown? : Fault → Option Value
  | .thrown v => some v
  | _ => none

/-- Paired values are thrown, or the fault is the same. -/
inductive Fault.Paired (ρ : Pairing) : Fault → Fault → Prop where
  | thrown {v w : Value} (h : v.Paired ρ w) : Paired ρ (.thrown v) (.thrown w)
  | same {f : Fault} (h : f.thrown? = none) : Paired ρ f f

theorem Fault.Paired.mono {ρ ρ' : Pairing} (hρ : ρ ≤ ρ') {f g : Fault} (h : f.Paired ρ g) :
    f.Paired ρ' g := by
  cases h with
  | thrown h => exact .thrown (h.mono hρ)
  | same h => exact .same h

/-- Two computations that both succeed or both fail, with results or errors that
belong together. -/
inductive Outcome {ε α β : Type} (E : ε → ε → Prop) (R : α → β → Prop) :
    Except ε α → Except ε β → Prop where
  | ok {a : α} {b : β} (h : R a b) : Outcome E R (.ok a) (.ok b)
  | error {e e' : ε} (h : E e e') : Outcome E R (.error e) (.error e')

namespace Outcome

variable {ε α β γ δ : Type} {E : ε → ε → Prop} {R : α → β → Prop} {S : γ → δ → Prop}

protected theorem bind {x : Except ε α} {y : Except ε β} {f : α → Except ε γ} {g : β → Except ε δ}
    (h : Outcome E R x y) (hf : ∀ a b, R a b → Outcome E S (f a) (g b)) :
    Outcome E S (x >>= f) (y >>= g) := by
  cases h with
  | ok h => exact hf _ _ h
  | error h => exact .error h

end Outcome

/-- A computation that gives no reference and throws no value. -/
def Quiet : Except Fault Value → Prop
  | .ok v => v.ref? = none
  | .error f => f.thrown? = none

theorem Quiet.outcome {ρ : Pairing} {x : Except Fault Value} (h : Quiet x) :
    Outcome (Fault.Paired ρ) (Value.Paired ρ) x x := by
  cases x with
  | ok v => exact .ok (.plain h)
  | error f => exact .error (.same h)

/-! ## Numbers -/

theorem shift_quiet (op : BinaryOp) (a b : Num) : Quiet (shift op a b) := by
  cases a with
  | int => cases op <;> rfl
  | long => cases op <;> rfl
  | double => rfl

theorem intOp_quiet (op : BinaryOp) (x y : Int32) : Quiet (intOp op x y) := by
  cases op with
  | div | rem =>
    rw [intOp]
    split <;> rfl
  | _ => rfl

theorem longOp_quiet (op : BinaryOp) (x y : Int64) : Quiet (longOp op x y) := by
  cases op with
  | div | rem =>
    rw [longOp]
    split <;> rfl
  | _ => rfl

theorem doubleOp_quiet (op : BinaryOp) (x y : Float) : Quiet (doubleOp op x y) := by
  cases op <;> rfl

theorem boolOp_quiet (op : BinaryOp) (x y : Bool) : Quiet (boolOp op x y) := by
  cases op <;> rfl

theorem numberOp_quiet (op : BinaryOp) (a b : Num) : Quiet (numberOp op a b) := by
  unfold numberOp
  split
  · exact shift_quiet ..
  · exact shift_quiet ..
  · exact shift_quiet ..
  · split
    · exact intOp_quiet ..
    · exact longOp_quiet ..
    · exact doubleOp_quiet ..

namespace Heap.Paired

variable {ρ : Pairing} {h h' : Heap} (hh : Heap.Paired ρ h h') {v v' w w' : Value}

include hh

theorem kindName_eq (hv : v.Paired ρ v') : v.kindName h = v'.kindName h' := by
  cases hv with
  | ref hr =>
    obtain ⟨o, o', ho, ho', hpair⟩ := hh.obj hr
    rw [Value.kindName, Value.kindName, ho, ho']
    cases hpair <;> rfl
  | plain hv =>
    cases v with
    | ref => cases hv
    | _ => rfl

theorem unboxed (hv : v.Paired ρ v') :
    Outcome (Fault.Paired ρ) (Value.Paired ρ) (v.unboxed h) (v'.unboxed h') := by
  cases hv with
  | ref hr =>
    obtain ⟨o, o', ho, ho', hpair⟩ := hh.obj hr
    rw [Value.unboxed, Value.unboxed, ho, ho']
    cases hpair with
    | boxed hv => exact .ok hv
    | inst | array => exact .error (.same rfl)
  | plain hv =>
    cases v with
    | ref => cases hv
    | null => exact .error (.same rfl)
    | _ => exact .ok (.plain rfl)

theorem numOf (hv : v.Paired ρ v') : Outcome (Fault.Paired ρ) Eq (Num.of h v) (Num.of h' v') := by
  refine (hh.unboxed hv).bind fun w w' hw => ?_
  have hkind := hh.kindName_eq hw
  cases hw with
  | ref hr =>
    dsimp only
    rw [hkind]
    exact .error (.same rfl)
  | plain hw =>
    cases w with
    | ref => cases hw
    | int | char | long | double => exact .ok rfl
    | _ => exact .error (.same rfl)

theorem asBool (hv : v.Paired ρ v') : Outcome (Fault.Paired ρ) Eq (v.asBool h) (v'.asBool h') := by
  refine (hh.unboxed hv).bind fun w w' hw => ?_
  have hkind := hh.kindName_eq hw
  cases hw with
  | ref hr =>
    dsimp only
    rw [hkind]
    exact .error (.same rfl)
  | plain hw =>
    cases w with
    | ref => cases hw
    | bool => exact .ok rfl
    | _ => exact .error (.same rfl)

theorem asInt (hv : v.Paired ρ v') : Outcome (Fault.Paired ρ) Eq (v.asInt h) (v'.asInt h') :=
  (hh.numOf hv).bind fun _ _ hn => .ok (congrArg Num.toInt32 hn)

theorem convert (hv : v.Paired ρ v') (k : Primitive) :
    Outcome (Fault.Paired ρ) (Value.Paired ρ) (v.convert h k) (v'.convert h' k) := by
  unfold Value.convert
  split
  · refine (hh.asBool hv).bind fun b b' hb => ?_
    rw [hb]
    exact .ok (.plain rfl)
  · refine (hh.numOf hv).bind fun n n' hn => ?_
    rw [hn]
    exact .ok (.plain (Value.ref?_ofNum n' k))

/-- Sameness of objects is what the pairing keeps. -/
theorem same_eq (hv : v.Paired ρ v') (hw : w.Paired ρ w') : v.same h w = v'.same h' w' := by
  have hheap : v.same h w = v.same h' w := by cases v <;> cases w <;> rfl
  rw [hheap]
  cases hv with
  | @ref a b hab =>
    cases hw with
    | @ref a' b' hab' => exact decide_eq_decide.mpr (hh.inj hab hab')
    | plain hw =>
      cases w with
      | ref => cases hw
      | _ => rfl
  | plain hv =>
    cases hw with
    | ref =>
      cases v with
      | ref => cases hv
      | _ => rfl
    | plain => rfl

theorem arithmetic (op : BinaryOp) (hv : v.Paired ρ v') (hw : w.Paired ρ w') :
    Outcome (Fault.Paired ρ) (Value.Paired ρ) (arithmetic h op v w) (arithmetic h' op v' w') := by
  have hnum : Outcome (Fault.Paired ρ) (Value.Paired ρ)
      (do numberOp op (← Num.of h v) (← Num.of h w))
        (do numberOp op (← Num.of h' v') (← Num.of h' w')) := by
    refine (hh.numOf hv).bind fun a a' ha => (hh.numOf hw).bind fun b b' hb => ?_
    rw [ha, hb]
    exact (numberOp_quiet op a' b').outcome
  cases hv with
  | ref => exact hnum
  | plain hv =>
    cases v with
    | ref => cases hv
    | bool x =>
      cases hw with
      | ref => exact hnum
      | plain hw =>
        cases w with
        | ref => cases hw
        | bool y => exact (boolOp_quiet op x y).outcome
        | _ => exact hnum
    | _ => exact hnum

theorem unaryOp (op : UnaryOp) (hv : v.Paired ρ v') :
    Outcome (Fault.Paired ρ) (Value.Paired ρ) (unaryOp h op v) (unaryOp h' op v') := by
  cases op with
  | not =>
    refine (hh.asBool hv).bind fun b b' hb => ?_
    rw [hb]
    exact .ok (.plain rfl)
  | neg =>
    refine (hh.numOf hv).bind fun n n' hn => ?_
    rw [hn]
    cases n' <;> exact .ok (.plain rfl)
  | bitNot =>
    refine (hh.numOf hv).bind fun n n' hn => ?_
    rw [hn]
    cases n' with
    | double => exact .error (.same rfl)
    | _ => exact .ok (.plain rfl)

theorem compareNums (f : Option Ordering → Bool) (hv : v.Paired ρ v') (hw : w.Paired ρ w') :
    Outcome (Fault.Paired ρ) Eq (do return f ((← Num.of h v).compare (← Num.of h w)))
      (do return f ((← Num.of h' v').compare (← Num.of h' w'))) := by
  refine (hh.numOf hv).bind fun a a' ha => (hh.numOf hw).bind fun b b' hb => ?_
  rw [ha, hb]
  exact .ok rfl

theorem equal (hv : v.Paired ρ v') (hw : w.Paired ρ w') :
    Outcome (Fault.Paired ρ) Eq (equal h v w) (equal h' v' w') := by
  have hsame := hh.same_eq hv hw
  have hother : Outcome (Fault.Paired ρ) Eq
      (if v.isReference && w.isReference then .ok (v.same h w)
        else do return (← Num.of h v).compare (← Num.of h w) == some .eq)
      (if v'.isReference && w'.isReference then .ok (v'.same h' w')
        else do return (← Num.of h' v').compare (← Num.of h' w') == some .eq) := by
    rw [hv.isReference_eq, hw.isReference_eq]
    split
    · exact .ok hsame
    · exact hh.compareNums (· == some .eq) hv hw
  cases hv with
  | ref => exact hother
  | plain hv =>
    cases v with
    | ref => cases hv
    | bool x =>
      cases hw with
      | ref => exact hother
      | plain hw =>
        cases w with
        | ref => cases hw
        | bool y => exact .ok hsame
        | _ => exact hother
    | _ => exact hother

theorem compareOp (op : CompareOp) (hv : v.Paired ρ v') (hw : w.Paired ρ w') :
    Outcome (Fault.Paired ρ) Eq (compareOp h op v w) (compareOp h' op v' w') := by
  cases op with
  | eq => exact hh.equal hv hw
  | ne =>
    refine (hh.equal hv hw).bind fun b b' hb => ?_
    rw [hb]
    exact .ok rfl
  | lt => exact hh.compareNums (· == some .lt) hv hw
  | gt => exact hh.compareNums (· == some .gt) hv hw
  | le | ge =>
    refine (hh.numOf hv).bind fun a a' ha => (hh.numOf hw).bind fun b b' hb => ?_
    rw [ha, hb]
    cases a'.compare b' <;> exact .ok rfl

/-! ## Objects of values -/

omit hh in
theorem nonNull (what : String) (hv : v.Paired ρ v') :
    Outcome (Fault.Paired ρ) ρ (nonNull h what v) (nonNull h' what v') := by
  cases hv with
  | ref hr => exact .ok hr
  | plain hv =>
    cases v with
    | ref => cases hv
    | _ => exact .error (.same rfl)

variable {r r' : Ref}

theorem instanceType (what : String) (hr : ρ r r') :
    Outcome (Fault.Paired ρ) Eq (instanceType h what r) (instanceType h' what r') := by
  obtain ⟨o, o', ho, ho', hpair⟩ := hh.obj hr
  rw [Closures.instanceType, Closures.instanceType, ho, ho']
  cases hpair with
  | inst => exact .ok rfl
  | boxed | array => exact .error (.same rfl)

theorem loadField (f : FieldId) (hr : ρ r r') :
    Outcome (Fault.Paired ρ) (Value.Paired ρ) (loadField h f r) (loadField h' f r') := by
  obtain ⟨o, o', ho, ho', hpair⟩ := hh.obj hr
  rw [Closures.loadField, Closures.loadField, ho, ho']
  cases hpair with
  | @inst _ _ _ fields fields' _ _ hfields =>
    have hget := hfields.get? f
    dsimp only
    generalize fields.get? f = x, fields'.get? f = y at hget ⊢
    cases hget with
    | some hv => exact .ok hv
    | none => exact .error (.same rfl)
  | boxed | array => exact .error (.same rfl)

theorem elements (otherwise : Invalid) (hr : ρ r r') :
    Outcome (Fault.Paired ρ) (fun vs ws => List.Forall₂ (Value.Paired ρ) vs.toList ws.toList)
      (elements h otherwise r) (elements h' otherwise r') := by
  obtain ⟨o, o', ho, ho', hpair⟩ := hh.obj hr
  rw [Closures.elements, Closures.elements, ho, ho']
  cases hpair with
  | array hvs => exact .ok hvs
  | inst | boxed => exact .error (.same rfl)

end Heap.Paired

/-! ## Types of objects -/

section Types

variable {ρ : Pairing} {h h' : Heap} {u u' : CompilationUnit}

mutual

theorem isInstance_eq (hu : u.SameCode u') (hh : Heap.Paired ρ h h') {v v' : Value}
    (hv : v.Paired ρ v') :
    ∀ t, isInstance u h v t = isInstance u' h' v' t := by
  intro t
  cases t
  case inter ts =>
    have hall := isInstanceOfAll_eq hu hh hv ts
    cases hv with
    | ref => simpa [isInstance] using hall
    | plain => cases v <;> simp [isInstance, hall]
  all_goals
    cases hv with
    | ref hr =>
      obtain ⟨o, o', ho, ho', hpair⟩ := hh.obj hr
      cases hpair <;> simp [isInstance, ho, ho', hu.isSubclass]
    | plain hv =>
      cases v with
      | ref => cases hv
      | _ => simp [isInstance]

theorem isInstanceOfAll_eq (hu : u.SameCode u') (hh : Heap.Paired ρ h h') {v v' : Value}
    (hv : v.Paired ρ v') : ∀ ts, isInstanceOfAll u h v ts = isInstanceOfAll u' h' v' ts
  | [] => by rw [isInstanceOfAll, isInstanceOfAll]
  | t :: ts => by
    rw [isInstanceOfAll, isInstanceOfAll, isInstance_eq hu hh hv t, isInstanceOfAll_eq hu hh hv ts]

end

theorem isInstanceOf_eq (hu : u.SameCode u') (hh : Heap.Paired ρ h h') (owner : ClassId)
    {r r' : Ref} (hr : ρ r r') : isInstanceOf u h owner r = isInstanceOf u' h' owner r' := by
  obtain ⟨o, o', ho, ho', hpair⟩ := hh.obj hr
  rw [isInstanceOf, isInstanceOf, ho, ho', hu.isSubclass]
  cases hpair <;> rfl

/-! ## Enclosing instances -/

/-- As many steps as there are older objects are enough to walk outward. -/
theorem outwardFrom_eq (hin : Heap.Inward h) {n r : Nat} (hr : r ≤ n) :
    outwardFrom h n r = outwardFrom h r r := by
  have hstep : ∀ m r, r ≤ m → outwardFrom h (m + 1) r = outwardFrom h m r := by
    intro m
    induction m with
    | zero =>
      intro r hr
      obtain rfl := Nat.le_zero.mp hr
      simp only [outwardFrom]
      split
      · rename_i ho
        exact absurd (hin 0 _ ho _ rfl) (Nat.not_lt_zero _)
      · rfl
    | succ m ih =>
      intro r hr
      rw [outwardFrom, outwardFrom]
      split
      · rename_i ho
        rw [ih _ (Nat.le_of_lt_succ (Nat.lt_of_lt_of_le (hin r _ ho _ rfl) hr))]
      · rfl
  induction hr with
  | refl => rfl
  | step hle ih => rw [hstep _ _ hle, ih]

theorem outwardFrom_paired_of_steps (hh : Heap.Paired ρ h h') (n : Nat) {r r' : Ref} (hr : ρ r r') :
    List.Forall₂ ρ (outwardFrom h n r) (outwardFrom h' n r') := by
  induction n generalizing r r' with
  | zero => exact .cons hr .nil
  | succ n ih =>
    obtain ⟨o, o', ho, ho', hpair⟩ := hh.obj hr
    rw [outwardFrom, outwardFrom, ho, ho']
    cases hpair with
    | inst _ houter =>
      cases houter with
      | some hp => exact .cons hr (ih hp)
      | none => exact .cons hr .nil
    | boxed | array => exact .cons hr .nil

/-- **Paired objects are enclosed by paired instances**, however many other
objects there are. -/
theorem outwardFrom_paired (hh : Heap.Paired ρ h h') {r r' : Ref} (hr : ρ r r') :
    List.Forall₂ ρ (outwardFrom h h.size r) (outwardFrom h' h'.size r') := by
  obtain ⟨hlt, hlt'⟩ := hh.lt_size hr
  have hleft : outwardFrom h h.size r = outwardFrom h (max r r') r := by
    rw [outwardFrom_eq hh.inward (Nat.le_of_lt hlt),
      outwardFrom_eq hh.inward (Nat.le_max_left r r')]
  have hright : outwardFrom h' h'.size r' = outwardFrom h' (max r r') r' := by
    rw [outwardFrom_eq hh.inward' (Nat.le_of_lt hlt'),
      outwardFrom_eq hh.inward' (Nat.le_max_right r r')]
  rw [hleft, hright]
  exact outwardFrom_paired_of_steps hh _ hr

theorem forall₂_find? {α β : Type} {R : α → β → Prop} {p : α → Bool} {q : β → Bool} {as : List α}
    {bs : List β} (h : List.Forall₂ R as bs) (hp : ∀ a b, R a b → p a = q b) :
    Option.Rel R (as.find? p) (bs.find? q) := by
  induction h with
  | nil => exact .none
  | @cons a b _ _ hab _ ih =>
    rw [List.find?_cons, List.find?_cons, hp a b hab]
    cases q b with
    | true => exact .some hab
    | false => exact ih

theorem enclosing_paired (hu : u.SameCode u') (hh : Heap.Paired ρ h h') {this this' : Option Ref}
    (hthis : Option.Rel ρ this this') (owner : ClassId) :
    Outcome (Fault.Paired ρ) ρ (enclosing u h this owner) (enclosing u' h' this' owner) := by
  unfold enclosing
  cases hthis with
  | none => exact .error (.same rfl)
  | @some r r' hr =>
    have hfind :=
      forall₂_find? (outwardFrom_paired hh hr) fun a b hab => isInstanceOf_eq hu hh owner hab
    simp only [Option.bind_some]
    generalize (outwardFrom h h.size r).find? _ = x, (outwardFrom h' h'.size r').find? _ =
      y at hfind ⊢
    cases hfind with
    | some ho => exact .ok ho
    | none => exact .error (.same rfl)

/-- A declaration is found in both units or in neither, with the same code. -/
theorem declOf_paired (hu : u.SameCode u') (id : ClassId) :
    Outcome (Fault.Paired ρ) (fun d d' => d'.bare = d.bare) (declOf u id) (declOf u' id) := by
  have hdecl := hu.decl? id
  rw [declOf, declOf]
  cases hd : u.decl? id <;> cases hd' : u'.decl? id <;> rw [hd, hd'] at hdecl
  · exact .error (.same rfl)
  · cases hdecl
  · cases hdecl
  · exact .ok (Option.some.inj hdecl)

theorem TypeDecl.eq_of_bare {d d' : TypeDecl} (h : d'.bare = d.bare) :
    d' = { d with adapter := d'.adapter } := by
  obtain ⟨⟩ := d
  obtain ⟨⟩ := d'
  simp only [TypeDecl.bare, TypeDecl.mk.injEq] at h ⊢
  simp [h]

theorem thisObject_paired (hu : u.SameCode u') (hh : Heap.Paired ρ h h') {this this' : Option Ref}
    (hthis : Option.Rel ρ this this') (q : Option ClassId) :
    Outcome (Fault.Paired ρ) ρ (thisObject u h this q) (thisObject u' h' this' q) := by
  unfold thisObject
  cases q with
  | none =>
    cases hthis with
    | some hr => exact .ok hr
    | none => exact .error (.same rfl)
  | some q =>
    refine (declOf_paired hu q).bind fun d d' hd => ?_
    rw [TypeDecl.eq_of_bare hd]
    dsimp only
    split
    · cases hthis with
      | some hr => exact .ok hr
      | none => exact .error (.same rfl)
    · exact enclosing_paired hu hh hthis q

end Types

/-! ## Texts -/

/-- Whether the text of a value, as far as it follows references, shows an
instance by its serial. -/
def Value.showsSerial (h : Heap) : Nat → Value → Bool
  | steps + 1, .ref r =>
    match h[r]? with
    | some (.inst _ _ _ _) => true
    | some (.boxed _ v) => showsSerial h steps v
    | some (.array _ vs) => vs.toList.any (showsSerial h steps)
    | none => false
  | _, _ => false

/-- **Only serials tell paired values apart in a text.** -/
theorem Value.Paired.textWithin_eq {ρ : Pairing} {h h' : Heap} (hh : Heap.Paired ρ h h')
    (steps : Nat) {v w : Value} (hv : v.Paired ρ w) (hshow : v.showsSerial h steps = false) :
    v.textWithin h steps = w.textWithin h' steps := by
  induction steps generalizing v w with
  | zero =>
    cases hv with
    | ref => rfl
    | plain => cases v <;> rfl
  | succ steps ih =>
    cases hv with
    | plain hv =>
      cases v with
      | ref => cases hv
      | _ => rfl
    | ref hr =>
      obtain ⟨o, o', ho, ho', hpair⟩ := hh.obj hr
      simp only [showsSerial, ho] at hshow
      simp only [textWithin, ho, ho']
      cases hpair with
      | inst => cases hshow
      | boxed hv => exact ih hv hshow
      | array hvs =>
        have htexts : ∀ {vs ws : List Value}, List.Forall₂ (Value.Paired ρ) vs ws →
            vs.any (showsSerial h steps) = false →
            vs.mapM (textWithin h steps) = ws.mapM (textWithin h' steps) := by
          intro vs ws hvs hshow
          induction hvs with
          | nil => rfl
          | cons hv _ ihs =>
            rw [List.any_cons, Bool.or_eq_false_iff] at hshow
            rw [List.mapM_cons, List.mapM_cons, ih hv hshow.1, ihs hshow.2]
        exact congrArg (Option.map _) (htexts hvs hshow)

end Closures
