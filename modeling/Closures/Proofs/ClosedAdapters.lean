import Closures.Proofs.ReferenceForms
import Closures.Proofs.Scoping

/-!
# Closed adapters

The method of an adapter runs away from the site it was made for. It has to get
by with its own parameters and with the fields of the adapter, so in its body

* every local is declared in the body or is a parameter (`Expr.isBound`), and
  what is captured again is effectively final (`Expr.capturesFinal`);
* there is no `this` but to read one of the fields, and nothing that needs one
  implicitly (`Node.isSelfContained`).

`Expr.Fits` puts this together for an expression in a scope. Redirecting a
lambda body to the fields of its adapter makes it fit (`fits_redirectAll`): what
the capture analysis served is read from a slot, and what it left alone is
declared inside.
-/

set_option autoImplicit false

namespace Closures

open Lowering (declares Scope.enter)

/-! ## What a node asks for -/

/-- Whether the operands of a construction that read locals read effectively
final ones. Constructions of given adapters are left alone. -/
def Expr.capturesFinal (given : List ClassId) (s : Scope) : Expr → Bool
  | .newClosure a cs => given.contains a || cs.all fun
    | .localGet id => (s.lookup? id).any (·.effectivelyFinal)
    | _ => true
  | _ => true

/-- An expression whose locals are visible, and final where they are
captured. -/
def Expr.Sound (given : List ClassId) (s : Scope) (e : Expr) : Prop :=
  e.isBound s = true ∧ e.capturesFinal given s = true

/-- Whether a node reads one of the first fields of an adapter on `this`. -/
def Node.readsSlot (adapter : ClassId) (slots : Nat) : Node → Bool
  | .expr (.fieldGet (some (.this none)) f) => f.owner == adapter && decide (f.index.toNat < slots)
  | _ => false

/-- Whether a node needs no instance of the type around it: it is not `this`,
and what it leaves unqualified is static. -/
def Node.isSelfContained (u : CompilationUnit) : Node → Bool
  | .expr (.this _) | .expr (.call (.super _) _ _) => false
  | .expr (.fieldGet none f) | .expr (.fieldSet none f _) => (u.field? f).any (·.isStatic)
  | .expr (.call .implicit m _) => (u.method? m).any (·.isStatic)
  | .expr (.new t _ none _) => (u.carrier? t.id).isNone
  | _ => true

/-- The nodes of a method of an adapter, apart from `this` where it is the
receiver of a slot. -/
def Stmt.nodesBesideSlots (adapter : ClassId) (slots : Nat) (body : List Stmt) : List Node :=
  Stmt.walkAll (fun n => !n.readsSlot adapter slots) body

/-! ## Lookups -/

namespace Scope

theorem lookup?_enter (s : Scope) (bs : List Param) (id : LocalId) :
    (Scope.enter s bs).lookup? id = (bs.reverse.find? (·.id == id)).or (s.lookup? id) :=
  List.find?_append

/-- What was visible of some locals is visible, and final if it was. -/
def Keeps (ids : List LocalId) (s s' : Scope) : Prop :=
  ∀ id ∈ ids, ∀ p, s.lookup? id = some p →
    ∃ p', s'.lookup? id = some p' ∧ (p.effectivelyFinal = true → p'.effectivelyFinal = true)

theorem Keeps.enter {ids : List LocalId} {s s' : Scope} (h : Keeps ids s s') (bs : List Param) :
    Keeps ids (Scope.enter s bs) (Scope.enter s' bs) := by
  intro id hid p hp
  rw [lookup?_enter] at hp ⊢
  cases hb : bs.reverse.find? (·.id == id) with
  | some q =>
    rw [hb] at hp
    cases hp
    exact ⟨_, rfl, fun h => h⟩
  | none =>
    rw [hb] at hp
    exact h id hid p hp

end Scope

/-! ## Fitting -/

section Fits

variable {given : List ClassId} {v : CompilationUnit} {adapter : ClassId} {slots : Nat}

/-- What a piece of code in the method of an adapter is like, by its located
expressions and its nodes. -/
structure Fitting (given : List ClassId) (v : CompilationUnit) (xs : List (Scope × Expr))
    (ns : List Node) : Prop where
  sound : Everywhere (Expr.Sound given) xs
  selfContained : ∀ n ∈ ns, n.isSelfContained v = true

namespace Fitting

theorem append {xs ys : List (Scope × Expr)} {ns ms : List Node} (h : Fitting given v xs ns)
    (h' : Fitting given v ys ms) : Fitting given v (xs ++ ys) (ns ++ ms) where
  sound := everywhere_append.mpr ⟨h.sound, h'.sound⟩
  selfContained := List.forall_mem_append.mpr ⟨h.selfContained, h'.selfContained⟩

theorem flatMap {α : Type} {f : α → List (Scope × Expr)} {g : α → List Node} {as : List α}
    (h : ∀ a ∈ as, Fitting given v (f a) (g a)) :
      Fitting given v (as.flatMap f) (as.flatMap g) where
  sound := everywhere_flatMap.mpr fun a ha => (h a ha).sound
  selfContained n hn := by
    obtain ⟨a, ha, hn⟩ := List.mem_flatMap.mp hn
    exact (h a ha).selfContained n hn

end Fitting

/-- An expression that can stand in the method of an adapter, where some locals
are visible. -/
abbrev Expr.Fits (given : List ClassId) (v : CompilationUnit) (adapter : ClassId) (slots : Nat)
    (s : Scope) (e : Expr) : Prop :=
  Fitting given v (e.located s) (e.walk fun n => !n.readsSlot adapter slots)

/-- The same for a statement. -/
abbrev Stmt.Fits (given : List ClassId) (v : CompilationUnit) (adapter : ClassId) (slots : Nat)
    (s : Scope) (st : Stmt) : Prop :=
  Fitting given v (st.located s) (st.walk fun n => !n.readsSlot adapter slots)

/-- The same for statements in order. -/
abbrev Stmt.FitAll (given : List ClassId) (v : CompilationUnit) (adapter : ClassId) (slots : Nat)
    (s : Scope) (ss : List Stmt) : Prop :=
  Fitting given v (Stmt.locatedAll s ss) (Stmt.nodesBesideSlots adapter slots ss)

/-- The same for a part. -/
abbrev Part.Fits (given : List ClassId) (v : CompilationUnit) (adapter : ClassId) (slots : Nat)
    (s : Scope) (p : Part) : Prop :=
  Fitting given v (p.located s) (p.walk fun n => !n.readsSlot adapter slots)

theorem mem_reach {d : Node → Bool} {n m : Node} {below : List Node}
    (h : m ∈ Node.reach d n below) :
    m = n ∨ m ∈ below := by
  rw [Node.reach, List.mem_cons] at h
  refine h.imp_right fun h => ?_
  split at h
  · exact h
  · cases h

theorem Expr.fits_of_children {s : Scope} {e : Expr} (he : e.isLambda = false)
    (hsound : e.Sound given s) (hself : (Node.expr e).isSelfContained v = true)
    (hc : ∀ c ∈ e.children, c.Fits given v adapter slots s) : e.Fits given v adapter slots s where
  sound := (everywhere_expr he).mpr ⟨hsound, fun c hmem => (hc c hmem).sound⟩
  selfContained n hn := by
    rw [Expr.walk_eq _ he] at hn
    rcases mem_reach hn with rfl | hn
    · exact hself
    · exact (Fitting.flatMap hc).selfContained n hn

theorem Stmt.fits_of_parts {s : Scope} {st : Stmt}
    (h : ∀ p ∈ st.parts, p.Fits given v adapter slots s) : st.Fits given v adapter slots s where
  sound := everywhere_stmt.mpr fun p hp => (h p hp).sound
  selfContained n hn := by
    rw [Stmt.walk_eq] at hn
    rcases mem_reach hn with rfl | hn
    · rfl
    · exact (Fitting.flatMap h).selfContained n hn

theorem Part.fits_exprs {s : Scope} {bs : List Param} {es : List Expr}
    (h : ∀ e ∈ es, e.Fits given v adapter slots (Scope.enter s bs)) :
    (Part.exprs bs es).Fits given v adapter slots s := by
  rw [Part.Fits, Part.walk, Expr.walkList_eq]
  exact Fitting.flatMap h

theorem Stmt.fitAll_nil {s : Scope} : Stmt.FitAll given v adapter slots s [] :=
  ⟨fun _ h => (nomatch h), fun _ h => (nomatch h)⟩

theorem Stmt.fitAll_cons {s : Scope} {st : Stmt} {ss : List Stmt}
    (h : st.Fits given v adapter slots s)
    (hss : Stmt.FitAll given v adapter slots (Scope.enter s (declares st)) ss) :
    Stmt.FitAll given v adapter slots s (st :: ss) := by
  rw [Stmt.FitAll, Stmt.nodesBesideSlots, Stmt.walkAll, Stmt.locatedAll]
  exact h.append hss

theorem Stmt.fitAll_append {s : Scope} {ss ss' : List Stmt}
    (h : Stmt.FitAll given v adapter slots s ss)
    (h' : Stmt.FitAll given v adapter slots (Scope.enter s (ss.flatMap declares)) ss') :
    Stmt.FitAll given v adapter slots s (ss ++ ss') := by
  rw [Stmt.FitAll, Stmt.locatedAll_append, Stmt.nodesBesideSlots, Stmt.walkAll_eq,
    List.flatMap_append, ← Stmt.walkAll_eq, ← Stmt.walkAll_eq]
  exact h.append h'

theorem Expr.fits_localGet {s : Scope} {id : LocalId} (h : (s.lookup? id).isSome = true) :
    (Expr.localGet id).Fits given v adapter slots s :=
  fits_of_children rfl ⟨h, rfl⟩ rfl (List.forall_mem_nil _)

/-- A slot can be read everywhere. -/
theorem Expr.fits_slotRead {s : Scope} {i : Nat} (hi : i < slots) :
    (CaptureSet.slotRead adapter i).Fits given v adapter slots s where
  sound := by
    rw [CaptureSet.slotRead, everywhere_expr rfl]
    refine ⟨⟨rfl, rfl⟩, List.forall_mem_singleton.mpr ?_⟩
    rw [everywhere_expr rfl]
    exact ⟨⟨rfl, rfl⟩, fun _ h => nomatch h⟩
  selfContained n hn := by
    have hindex : i % 2 ^ 32 < slots := Nat.lt_of_le_of_lt (Nat.mod_le ..) hi
    have hreads : (Node.expr (CaptureSet.slotRead adapter i)).readsSlot adapter slots = true := by
      simpa [CaptureSet.slotRead, Node.readsSlot] using hindex
    rw [CaptureSet.slotRead, Expr.walk, Node.reach,
      if_neg (by simpa [CaptureSet.slotRead] using hreads), List.mem_singleton] at hn
    rw [hn]
    rfl

end Fits

/-! ## Inert nodes -/

namespace Expr

theorem isLambda_of_isInert {e : Expr} (h : e.isInert = true) : e.isLambda = false := by
  cases e
  case lambda => cases h
  all_goals rfl

theorem isBound_of_isInert {e : Expr} (h : e.isInert = true) (s : Scope) : e.isBound s = true := by
  cases e
  case localGet | localSet => cases h
  all_goals rfl

theorem isSelfContained_of_isInert {e : Expr} (h : e.isInert = true) (u : CompilationUnit) :
    (Node.expr e).isSelfContained u = true := by
  cases e
  case this => cases h
  case fieldGet r f | fieldSet r f v =>
    cases r with
    | none => cases h
    | some r => rfl
  case call r m args =>
    cases r with
    | implicit | super _ => cases h
    | static | expr _ | nonVirtual _ => rfl
  case new t ctor o args =>
    cases o with
    | none => cases h
    | some o => rfl
  all_goals rfl

theorem isInert_of_isGlue {e : Expr} (h : e.isGlue = true) : e.isInert = true := by
  cases e
  case call r m args =>
    cases r with
    | implicit | super _ => cases h
    | static | expr _ | nonVirtual _ => rfl
  case new t ctor o args =>
    cases o with
    | none => cases h
    | some o => rfl
  case box | unbox | convert | cast | nullCheck | arrayLit | int | newArray => rfl
  all_goals cases h

theorem capturesFinal_of_isGlue {e : Expr} (h : e.isGlue = true) (given : List ClassId)
    (s : Scope) :
    e.capturesFinal given s = true := by
  cases e
  case newClosure => cases h
  all_goals rfl

end Expr

theorem CaptureSet.redirect_of_isInert {e : Expr} (h : e.isInert = true) (s : Site) (c : CaptureSet)
    (adapter : ClassId) : c.redirect s adapter e = e := by
  cases e
  case localGet | this => cases h
  case fieldGet r f | fieldSet r f v =>
    cases r with
    | none => cases h
    | some r => rfl
  case call r m args =>
    cases r with
    | implicit | super _ => cases h
    | static | expr _ | nonVirtual _ => rfl
  case new t ctor o args =>
    cases o with
    | none => cases h
    | some o => rfl
  all_goals rfl

/-! ## Redirecting -/

section Redirect

variable {site : Site} {c : CaptureSet} {adapter : ClassId} {declared : List LocalId}
  {given : List ClassId} {v : CompilationUnit}

/-- What the nodes of a lambda body are known to be before they are
redirected. -/
def Expr.Ready (site : Site) (c : CaptureSet) (declared : List LocalId) (given : List ClassId)
    (s : Scope) (e : Expr) : Prop :=
  e.Sound given s ∧ (Node.expr e).Served site declared c

/-- Adapting a value asks for nothing. -/
theorem Expr.ready_of_isConversion {s : Scope} {e : Expr} (h : e.isConversion = true) :
    e.Ready site c declared given s := by
  have hglue := isGlue_of_isConversion h
  have hinert := isInert_of_isGlue hglue
  refine ⟨⟨isBound_of_isInert hinert s, capturesFinal_of_isGlue hglue given s⟩, [], ?_, ?_⟩
  · cases e
    case box | unbox | convert | cast => rfl
    all_goals cases h
  · exact fun _ hb => nomatch hb

theorem CaptureSet.redirect_eq_localGet {e : Expr} {id : LocalId}
    (h : c.redirect site adapter e = .localGet id) : e = .localGet id ∧ c.localSlot? id = none := by
  cases e
  case localGet id' =>
    rw [redirect] at h
    split at h
    · cases h
    · rename_i hslot
      cases h
      exact ⟨rfl, hslot⟩
  case this q =>
    rw [redirect] at h
    cases hr : c.readInstance? adapter (site.thisDepth q) with
    | none => rw [hr] at h; cases h
    | some e =>
      obtain ⟨d, i, -, rfl⟩ := readInstance?_eq_some hr
      rw [hr] at h
      cases h
  case fieldGet r f | fieldSet r f v =>
    cases r with
    | some r => cases h
    | none => rw [redirect] at h; split at h <;> cases h
  case call r m args =>
    cases r with
    | implicit =>
      rw [redirect] at h
      split at h
      · split at h <;> cases h
      · cases h
    | super q => rw [redirect] at h; split at h <;> cases h
    | static | expr _ | nonVirtual _ => cases h
  case new t ctor o args =>
    cases o with
    | some o => cases h
    | none => rw [redirect] at h; split at h <;> cases h
  all_goals cases h

theorem Expr.withChildren_eq_localGet {e : Expr} {cs : List Expr} {id : LocalId}
    (h : e.withChildren cs = .localGet id) : e = .localGet id := by
  cases e
  case localGet => exact h
  all_goals cases h

/-- Where a local is read after redirecting, it was read before, and has no
slot. -/
theorem CaptureSet.replace_eq_localGet {e : Expr} {id : LocalId}
    (h : e.replace (c.redirect site adapter) = .localGet id) :
    e = .localGet id ∧ c.localSlot? id = none := by
  cases he : e.isLambda with
  | false =>
    rw [Expr.replace_eq he] at h
    exact (redirect_eq_localGet h).imp_left Expr.withChildren_eq_localGet
  | true =>
    cases e
    case lambda l => rw [Expr.replace_lambda] at h; cases h
    all_goals cases he

theorem Expr.needs_withChildren (e : Expr) (cs : List Expr) :
    (e.withChildren cs).needs site declared = e.needs site declared := by
  cases e
  case fieldGet r f | fieldSet r f v => cases r <;> rfl
  case call r m args => cases r <;> rfl
  case new t ctor o args => cases o <;> rfl
  all_goals rfl

theorem Expr.served_withChildren {e : Expr} (h : (Node.expr e).Served site declared c)
    (cs : List Expr) :
    (Node.expr (e.withChildren cs)).Served site declared c := by
  rw [Node.Served, Node.needs, Expr.needs_withChildren]
  exact h

theorem Expr.isBound_withChildren (e : Expr) (cs : List Expr) (s : Scope) :
    (e.withChildren cs).isBound s = e.isBound s := by
  cases e <;> rfl

variable {s s' : Scope}

theorem Expr.fits_of_isInert {e : Expr} {slots : Nat} (he : e.isInert = true)
    (hfinal : e.capturesFinal given s = true)
    (hc : ∀ x ∈ e.children, x.Fits given v adapter slots s) :
    e.Fits given v adapter slots s :=
  fits_of_children (isLambda_of_isInert he) ⟨isBound_of_isInert he s, hfinal⟩
    (isSelfContained_of_isInert he v) hc

theorem Expr.fits_of_isGlue {e : Expr} {slots : Nat} (he : e.isGlue = true)
    (hc : ∀ x ∈ e.children, x.Fits given v adapter slots s) : e.Fits given v adapter slots s :=
  fits_of_isInert (isInert_of_isGlue he) (capturesFinal_of_isGlue he given s) hc

/-- What is created without enclosing instance fits if it carries none. -/
theorem Expr.fits_new {slots : Nat} {t : ClassType} {ctor : Option MethodId} {args : List Expr}
    (hd : site.creationDepth t.id = .ok none) (hext : site.unit.ExtendedBy v)
    (hargs : ∀ x ∈ args, x.Fits given v adapter slots s) :
    (Expr.new t ctor none args).Fits given v adapter slots s := by
  obtain ⟨⟨d, hdecl⟩, hcarrier⟩ := Site.creationDepth_eq_ok.mp hd
  have hnone : site.unit.carrier? t.id = none := by
    rcases hcarrier with ⟨hnone, -⟩ | ⟨_, _, -, -, hsome⟩
    · exact hnone
    · cases hsome
  refine fits_of_children rfl ⟨rfl, rfl⟩ ?_ hargs
  rw [Node.isSelfContained, hext.carrier?_eq hdecl, hnone]
  rfl

/-- **A served node is redirected to one that fits**, if its children fit. -/
theorem CaptureSet.fits_redirect (hext : site.unit.ExtendedBy v) (hkeep : Scope.Keeps declared s s')
    {e : Expr} (hserved : (Node.expr e).Served site declared c) (hbound : e.isBound s = true)
    (hfinal : e.capturesFinal given s' = true)
    (hc : ∀ x ∈ e.children, x.Fits given v adapter c.slots.length s') :
    (c.redirect site adapter e).Fits given v adapter c.slots.length s' := by
  cases he : e.isInert with
  | true =>
    rw [redirect_of_isInert he]
    exact Expr.fits_of_isInert he hfinal hc
  | false =>
    have hvisible : ∀ id ∈ declared, (s.lookup? id).isSome = true →
        (s'.lookup? id).isSome = true := by
      intro id hid hsome
      obtain ⟨p, hp⟩ := Option.isSome_iff_exists.mp hsome
      obtain ⟨p', hp', -⟩ := hkeep id hid p hp
      rw [hp']
      rfl
    cases e
    case localGet id =>
      rw [redirect]
      cases hslot : c.localSlot? id with
      | some slot => exact Expr.fits_slotRead (localSlot?_lt hslot)
      | none =>
        have hid : id ∈ declared := by
          refine hserved.localGet.resolve_right ?_
          rintro ⟨name, ty, hmem⟩
          exact localSlot?_eq_none hslot name ty hmem
        exact Expr.fits_of_children rfl ⟨hvisible id hid hbound, rfl⟩ rfl hc
    case localSet id x =>
      exact Expr.fits_of_children rfl ⟨hvisible id hserved.localSet hbound, rfl⟩ rfl hc
    case this q =>
      obtain ⟨depth, hd, hmem⟩ := hserved.this
      obtain ⟨i, hi, hread⟩ := readInstance?_of_mem hmem adapter
      rw [redirect, hd, hread]
      exact Expr.fits_slotRead hi
    case fieldGet r f =>
      cases r with
      | some r => cases he
      | none =>
        obtain ⟨fld, hf, hs | ⟨hs, depth, hd, hmem⟩⟩ := hserved.field rfl
        · obtain ⟨fld', hf', hs'⟩ := hext.field? hf
          rw [redirect, if_neg (by simp [hf, hs])]
          exact Expr.fits_of_children rfl ⟨rfl, rfl⟩
            (by simp [Node.isSelfContained, hf', hs', hs]) hc
        · obtain ⟨i, hi, hread⟩ := readInstance?_of_mem hmem adapter
          rw [redirect, if_pos (by simp [hf, hs]), hd, hread]
          exact Expr.fits_of_isInert rfl rfl (List.forall_mem_singleton.mpr (Expr.fits_slotRead hi))
    case fieldSet r f x =>
      cases r with
      | some r => cases he
      | none =>
        obtain ⟨fld, hf, hs | ⟨hs, depth, hd, hmem⟩⟩ := hserved.field rfl
        · obtain ⟨fld', hf', hs'⟩ := hext.field? hf
          rw [redirect, if_neg (by simp [hf, hs])]
          exact Expr.fits_of_children rfl ⟨rfl, rfl⟩
            (by simp [Node.isSelfContained, hf', hs', hs]) hc
        · obtain ⟨i, hi, hread⟩ := readInstance?_of_mem hmem adapter
          rw [redirect, if_pos (by simp [hf, hs]), hd, hread]
          exact Expr.fits_of_isInert rfl rfl (List.forall_mem_cons.mpr ⟨Expr.fits_slotRead hi, hc⟩)
    case call r m args =>
      cases r with
      | static | expr _ | nonVirtual _ => cases he
      | implicit =>
        obtain ⟨decl, hm, hs | ⟨hs, depth, hd, hmem⟩⟩ := hserved.implicit
        · obtain ⟨decl', hm', hs'⟩ := hext.method? hm
          rw [redirect, if_neg (by simp [hm, hs])]
          exact Expr.fits_of_children rfl ⟨rfl, rfl⟩
            (by simp [Node.isSelfContained, hm', hs', hs]) hc
        · obtain ⟨i, hi, hread⟩ := readInstance?_of_mem hmem adapter
          rw [redirect, if_pos (by simp [hm, hs]), hd, hread]
          exact Expr.fits_of_isInert rfl rfl (List.forall_mem_cons.mpr ⟨Expr.fits_slotRead hi, hc⟩)
      | super q =>
        obtain ⟨depth, hd, hmem⟩ := hserved.super
        obtain ⟨i, hi, hread⟩ := readInstance?_of_mem hmem adapter
        rw [redirect, hd, hread]
        exact Expr.fits_of_isInert rfl rfl (List.forall_mem_cons.mpr ⟨Expr.fits_slotRead hi, hc⟩)
    case new t ctor o args =>
      cases o with
      | some o => cases he
      | none =>
        obtain ⟨depth?, hd, hslot⟩ := hserved.new
        rw [redirect, hd]
        cases depth? with
        | none => exact Expr.fits_new hd hext hc
        | some depth =>
          obtain ⟨i, hi, hread⟩ := readInstance?_of_mem (hslot depth rfl) adapter
          dsimp only
          rw [hread]
          exact Expr.fits_of_isInert rfl rfl (List.forall_mem_cons.mpr ⟨Expr.fits_slotRead hi, hc⟩)
    case lambda | methodRef => cases hserved.not_site
    all_goals cases he

/-- What captures final locals still does when it is redirected. -/
theorem Expr.capturesFinal_redirected (hkeep : Scope.Keeps declared s s') {e : Expr}
    (h : e.capturesFinal given s = true)
    (hserved : ∀ x ∈ e.children, (Node.expr x).Served site declared c) :
    (e.withChildren (e.children.map (·.replace (c.redirect site adapter)))).capturesFinal given s'
      = true := by
  cases e
  case newClosure a cs =>
    rw [capturesFinal, Bool.or_eq_true, List.all_eq_true] at h
    rw [withChildren, capturesFinal, Bool.or_eq_true, List.all_eq_true]
    refine h.imp_right fun h => List.forall_mem_map.mpr fun x hx => ?_
    split
    · rename_i id hid
      obtain ⟨rfl, hslot⟩ := CaptureSet.replace_eq_localGet hid
      have hdeclared : id ∈ declared := by
        refine (hserved _ hx).localGet.resolve_right ?_
        rintro ⟨name, ty, hmem⟩
        exact CaptureSet.localSlot?_eq_none hslot name ty hmem
      have hfinal : (s.lookup? id).any (·.effectivelyFinal) = true := h _ hx
      rcases hp : s.lookup? id with _ | p
      · rw [hp] at hfinal
        cases hfinal
      · rw [hp] at hfinal
        obtain ⟨p', hp', hfinal'⟩ := hkeep id hdeclared p hp
        rw [hp']
        exact hfinal' hfinal
    · rfl
  all_goals rfl

/-- The claim of the induction along a body, for an expression: wherever its own
locals are visible, it fits once it is redirected. -/
def Expr.FitsRedirected (site : Site) (c : CaptureSet) (declared : List LocalId)
    (given : List ClassId) (v : CompilationUnit) (adapter : ClassId) (e : Expr) : Prop :=
  ∀ s s', Scope.Keeps declared s s' → Everywhere (Expr.Ready site c declared given) (e.located s) →
    (e.replace (c.redirect site adapter)).Fits given v adapter c.slots.length s'

/-- The same for a statement. -/
def Stmt.FitsRedirected (site : Site) (c : CaptureSet) (declared : List LocalId)
    (given : List ClassId) (v : CompilationUnit) (adapter : ClassId) (st : Stmt) : Prop :=
  ∀ s s', Scope.Keeps declared s s' → Everywhere (Expr.Ready site c declared given) (st.located s) →
    (st.replace (c.redirect site adapter)).Fits given v adapter c.slots.length s'

theorem Stmt.fitAll_redirected {ss : List Stmt}
    (h : ∀ st ∈ ss, st.FitsRedirected site c declared given v adapter) :
    ∀ {s s'}, Scope.Keeps declared s s' →
      Everywhere (Expr.Ready site c declared given) (Stmt.locatedAll s ss) →
      Stmt.FitAll given v adapter c.slots.length s'
        (ss.map (·.replace (c.redirect site adapter))) := by
  induction ss with
  | nil => exact fun _ _ => Stmt.fitAll_nil
  | cons t ts ih =>
    intro s s' hkeep hready
    obtain ⟨ht, hts⟩ := List.forall_mem_cons.mp h
    rw [Stmt.locatedAll, everywhere_append] at hready
    refine Stmt.fitAll_cons (ht s s' hkeep hready.1) ?_
    rw [Stmt.declares_replace]
    exact ih hts (hkeep.enter _) hready.2

theorem Part.fits_redirected {p : Part} (hkeep : Scope.Keeps declared s s')
    (hready : Everywhere (Expr.Ready site c declared given) (p.located s))
    (h : p.All (Expr.FitsRedirected site c declared given v adapter)
      (Stmt.FitsRedirected site c declared given v adapter)) :
    (p.replace (c.redirect site adapter)).Fits given v adapter c.slots.length s' := by
  cases p with
  | exprs bs es =>
    refine Part.fits_exprs (List.forall_mem_map.mpr fun e he => ?_)
    exact h e he _ _ (hkeep.enter bs) (everywhere_flatMap.mp hready e he)
  | stmts bs ss => exact Stmt.fitAll_redirected h (hkeep.enter bs) hready

theorem shapeSteps_fitsRedirected (hext : site.unit.ExtendedBy v) :
    ShapeSteps (Expr.FitsRedirected site c declared given v adapter)
      (Stmt.FitsRedirected site c declared given v adapter) where
  node e he ih s s' hkeep hready := by
    obtain ⟨⟨⟨hbound, hfinal⟩, hserved⟩, hchildren⟩ := (everywhere_expr he).mp hready
    have hlen : (e.children.map (·.replace (c.redirect site adapter))).length = e.children.length :=
      List.length_map _
    rw [Expr.replace_eq he]
    refine CaptureSet.fits_redirect hext hkeep (Expr.served_withChildren hserved _) ?_ ?_ ?_
    · rw [Expr.isBound_withChildren]
      exact hbound
    · exact Expr.capturesFinal_redirected hkeep hfinal fun x hx =>
        (hchildren x hx _ (x.mem_located s)).2
    · rw [Expr.children_withChildren hlen]
      exact List.forall_mem_map.mpr fun x hx => ih x hx s s' hkeep (hchildren x hx)
  lambda l _ s s' _ hready := by
    -- no lambda is served
    cases (hready _ (Expr.mem_located s _)).2.not_site
  stmt st ih s s' hkeep hready := by
    refine Stmt.fits_of_parts ?_
    rw [Stmt.parts_replace]
    refine List.forall_mem_map.mpr fun p hp => ?_
    exact Part.fits_redirected hkeep (everywhere_stmt.mp hready p hp) (ih p hp)

/-- **Redirecting makes a body fit into the method of the adapter.** -/
theorem CaptureSet.fitAll_redirectAll (hext : site.unit.ExtendedBy v)
    (hkeep : Scope.Keeps declared s s') {ss : List Stmt}
    (hready : Everywhere (Expr.Ready site c declared given) (Stmt.locatedAll s ss)) :
    Stmt.FitAll given v adapter c.slots.length s' (c.redirectAll site adapter ss) := by
  rw [redirectAll, Stmt.replaceAll_eq]
  exact Stmt.fitAll_redirected ((shapeSteps_fitsRedirected hext).stmts ss) hkeep hready

end Redirect

end Closures
