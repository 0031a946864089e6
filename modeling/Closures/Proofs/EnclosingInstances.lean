import Closures.Lowering.Site
import Closures.Machine.Eval
import Closures.Proofs.Computation
import Closures.Proofs.Hierarchy

/-!
# Enclosing instances

Which enclosing instance an expression means is decided twice. The analysis goes
by the **types** around a site (`Site.thisDepth`, `Site.memberDepth`);
evaluation searches the **objects** around the one at hand (`thisObject`,
`enclosing`). This module says what each of them does and where they agree.
-/

set_option autoImplicit false

namespace Closures

/-! ## By types -/

namespace Site

variable {s : Site} {depth : Nat}

theorem thisDepth_none_eq_ok : s.thisDepth none = .ok depth ↔ s.chain ≠ [] ∧ depth = 0 := by
  rcases hc : s.chain with _ | ⟨c, rest⟩
  · simp [thisDepth, hc]
  · simp [thisDepth, hc, eq_comm]

/-- A qualifying interface means the innermost instance, a class the nearest
place where it stands. -/
theorem thisDepth_some_eq_ok {q : ClassId} :
    s.thisDepth (some q) = .ok depth ↔ s.chain ≠ [] ∧ ∃ d, s.unit.decl? q = some d ∧
      if d.isInterface then depth = 0 else s.chain.idxOf? q = some depth := by
  rcases hc : s.chain with _ | ⟨c, rest⟩
  · simp [thisDepth, hc]
  · cases hd : s.unit.decl? q with
    | none =>
      have hrun : s.thisDepth (some q) = .error (.unknownType q) := by
        simp only [thisDepth, hc, decl, hd, error_bind]
        rfl
      simp [hrun]
    | some d =>
      have hrun : s.thisDepth (some q) =
          if d.isInterface then .ok 0
          else ((c :: rest).idxOf? q).elim (.error (.notEnclosing q)) .ok := by
        simp only [thisDepth, hc, decl, hd, ok_bind]
        cases d.isInterface <;> cases (c :: rest).idxOf? q <;> rfl
      rw [hrun]
      cases hi : d.isInterface
      · cases hidx : (c :: rest).idxOf? q <;> simp [hi]
      · simpa [hi] using eq_comm

/-- Members are sought at the nearest type that inherits them. -/
theorem memberDepth_eq_ok {owner : ClassId} :
    s.memberDepth owner = .ok depth ↔
      s.chain.findIdx? (fun c => s.unit.isSubclass c owner) = some depth := by
  rcases hc : s.chain with _ | ⟨c, rest⟩
  · simp [memberDepth, hc]
  · rw [memberDepth, hc]
    cases (c :: rest).findIdx? (fun c => s.unit.isSubclass c owner) <;> simp

/-- A new instance is given the instance that has the members of the type around
its own. -/
theorem creationDepth_eq_ok {type : ClassId} {depth? : Option Nat} :
    s.creationDepth type = .ok depth? ↔ (∃ d, s.unit.decl? type = some d) ∧
      (s.unit.carrier? type = none ∧ depth? = none ∨
        ∃ outer depth, s.unit.carrier? type = some outer ∧ s.memberDepth outer = .ok depth ∧
          depth? = some depth) := by
  rw [creationDepth, decl]
  cases hd : s.unit.decl? type with
  | none => simp [error_bind]
  | some d =>
    dsimp only
    rw [ok_bind]
    cases hc : s.unit.carrier? type with
    | none => simpa [Pure.pure, Except.pure] using eq_comm
    | some outer =>
      dsimp only
      cases hm : s.memberDepth outer with
      | error e =>
        rw [error_bind]
        simp [hm]
      | ok depth =>
        rw [ok_bind]
        simpa [hm, Pure.pure, Except.pure] using eq_comm

theorem thisDepth_lt {q : Option ClassId} (h : s.thisDepth q = .ok depth) :
    depth < s.chain.length := by
  cases q with
  | none =>
    obtain ⟨hne, rfl⟩ := thisDepth_none_eq_ok.mp h
    exact List.length_pos_iff.mpr hne
  | some q =>
    obtain ⟨hne, d, -, hq⟩ := thisDepth_some_eq_ok.mp h
    split at hq
    · rw [hq]
      exact List.length_pos_iff.mpr hne
    · exact (List.findIdx?_eq_some_iff_getElem.mp hq).1

theorem memberDepth_lt {owner : ClassId} (h : s.memberDepth owner = .ok depth) :
    depth < s.chain.length := by
  rw [memberDepth_eq_ok] at h
  exact (List.findIdx?_eq_some_iff_getElem.mp h).1

theorem creationDepth_lt {type : ClassId} (h : s.creationDepth type = .ok (some depth)) :
    depth < s.chain.length := by
  rcases (creationDepth_eq_ok.mp h).2 with ⟨-, hnone⟩ | ⟨outer, depth', -, hm, heq⟩
  · cases hnone
  · cases heq
    exact memberDepth_lt hm

end Site

namespace CompilationUnit

/-- Extension keeps the type of the enclosing instance. -/
theorem ExtendedBy.carrier?_eq {u v : CompilationUnit} (h : u.ExtendedBy v) {type : ClassId}
    {d : TypeDecl} (hd : u.decl? type = some d) : v.carrier? type = u.carrier? type := by
  obtain ⟨d', hd', hshape⟩ := h type d hd
  rw [carrier?, carrier?, hd, hd', Option.bind_some, Option.bind_some, hshape.isStatic, hshape.kind,
    hshape.outer]

end CompilationUnit

/-! ## By objects -/

section Objects

variable {u : CompilationUnit} {h : Heap} {owner : ClassId} {t : Ref}

theorem lt_size_of_isInstanceOf (ht : isInstanceOf u h owner t = true) : t < h.size := by
  rw [isInstanceOf] at ht
  split at ht
  · rename_i ho
    exact (Array.getElem?_eq_some_iff.mp ho).1
  · cases ht

theorem isInstanceOf_trans {c : ClassId} (ht : isInstanceOf u h c t = true)
    (hc : u.isSubclass c owner = true) : isInstanceOf u h owner t = true := by
  rw [isInstanceOf] at ht ⊢
  split at ht
  · exact u.isSubclass_trans ht hc
  · cases ht

/-- The search starts at the object itself. -/
theorem outwardFrom_eq_cons (n : Nat) : ∃ rest, outwardFrom h n t = t :: rest := by
  cases n with
  | zero => exact ⟨[], rfl⟩
  | succ n =>
    rw [outwardFrom]
    split
    · exact ⟨_, rfl⟩
    · exact ⟨[], rfl⟩

theorem enclosing_self (ht : isInstanceOf u h owner t = true) :
    enclosing u h (some t) owner = .ok t := by
  obtain ⟨rest, hrest⟩ := outwardFrom_eq_cons (h := h) (t := t) h.size
  rw [enclosing, Option.bind_some, hrest, List.find?_cons_of_pos ht]

/-- `Q.this` is the object at hand for an interface, and a search for a
class. -/
theorem thisObject_some {q : ClassId} {d : TypeDecl} (hd : u.decl? q = some d) :
    thisObject u h (some t)
      (some q) = if d.isInterface then .ok t else enclosing u h (some t) q := by
  simp only [thisObject, declOf, hd, ok_bind]
  cases d.isInterface <;> rfl

/-- The enclosing instance of a new one, by the type that it carries. Adapters
carry none. -/
theorem implicitOuter_eq {type : ClassId} {d : TypeDecl} (hd : u.decl? type = some d)
    (ha : d.kind = .adapter → d.isStatic = true) {this : Option Ref} :
    implicitOuter u h this d =
      match u.carrier? type with
      | none => .ok none
      | some owner => (enclosing u h this owner).map some := by
  rw [implicitOuter, CompilationUnit.carrier?, hd, Option.bind_some]
  cases d.outer with
  | none => cases (!d.isStatic && d.kind != .topLevel) <;> rfl
  | some owner =>
    cases hs : d.isStatic with
    | true => simp
    | false =>
      have hk : d.kind ≠ .adapter := fun hk => by rw [ha hk] at hs; cases hs
      cases ht : d.kind != .topLevel <;> simp [hk]

end Objects

end Closures
