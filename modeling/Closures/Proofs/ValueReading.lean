import Mathlib.Data.List.Forall2
import Mathlib.Data.List.Nodup
import Closures.Tree.Decode

/-!
# Reading back what was written

A JSON value stands in many documents: the places differ, and fields that say
nothing may be left out. A reader gets a value back when it gives the same
result on all of them.

* `Json.Trims v w`: the value `w` is `v` without some of its **idle** fields.
* `Doc.Shows d w`: the document `d` is one of the value `w`, whatever its
  places.
* `Doc.Recovers n read v a`: `read` gives `a` on every document of what `v`
  trims to, if the document has at most `n` levels; `Doc.Reads` says besides
  that `v` is present, so that it differs from an absent value.

For each way to put readers together there is a lemma that puts these facts
together.
-/

set_option autoImplicit false

namespace Closures

namespace Json

/-- Whether a value is written as something else than `null`. -/
def isPresent : Json → Bool
  | .null => false
  | .float x => Binary64.isFinite x
  | _ => true

/-! ## Fields that may be left out -/

/-- The fields for what may be absent. -/
def optionFields : List String :=
  ["source_path", "outer", "superclass", "adapter", "init", "body", "bound", "super_dispatch",
    "qualifier", "receiver", "ctor", "condition", "else_branch", "catch", "finally"]

/-- The fields with a default of another kind. -/
def defaultFields : List String := ["type_args", "span"]

/-- A field and what it holds when it says nothing. -/
inductive Idle : String → Json → Prop where
  /-- An absent value. -/
  | absent {name : String} (h : name ∈ optionFields) : Idle name .null
  /-- No type arguments. -/
  | typeArgs : Idle "type_args" (.arr [])
  /-- No source text. -/
  | span : Idle "span" Span.dummy.toJson

/-- Whether a field has a default that is not an absent value. -/
def hasDefault (name : String) : Bool := defaultFields.contains name

/-- Whether a field of that name may be left out. -/
def mayBeIdle (name : String) : Bool := optionFields.contains name || hasDefault name

theorem Idle.mayBeIdle_eq_true {name : String} {v : Json} (h : Idle name v) :
    mayBeIdle name = true := by
  cases h with
  | absent h => simp [mayBeIdle, h]
  | typeArgs | span => rfl

/-- Outside the fields with defaults, what is idle is an absent value. -/
theorem Idle.isPresent_eq_false {name : String} {v : Json} (h : Idle name v)
    (hn : hasDefault name = false) : v.isPresent = false := by
  cases h with
  | absent => rfl
  | typeArgs | span => cases hn

theorem Idle.typeArgs_eq {v : Json} (h : Idle "type_args" v) : v = .arr [] := by
  generalize hk : "type_args" = k at h
  cases h with
  | absent h => exact absurd (hk ▸ h) (by decide)
  | typeArgs => rfl
  | span => exact absurd hk (by decide)

theorem Idle.span_eq {v : Json} (h : Idle "span" v) : v = Span.dummy.toJson := by
  generalize hk : "span" = k at h
  cases h with
  | absent h => exact absurd (hk ▸ h) (by decide)
  | typeArgs => exact absurd hk (by decide)
  | span => rfl

/-- Fields of which some idle ones are left out, while `R` relates what the
others hold. -/
inductive Trimmed (R : Json → Json → Prop) :
    List (String × Json) → List (String × Json) → Prop where
  | nil : Trimmed R [] []
  | keep {k : String} {v w : Json} {fs gs : List (String × Json)} (h : R v w)
      (hs : Trimmed R fs gs) : Trimmed R ((k, v) :: fs) ((k, w) :: gs)
  | drop {k : String} {v : Json} {fs gs : List (String × Json)} (h : Idle k v)
      (hs : Trimmed R fs gs) : Trimmed R ((k, v) :: fs) gs

/-- **Leaving out idle fields**, any of them, at any depth. -/
inductive Trims : Json → Json → Prop where
  | refl (v : Json) : Trims v v
  | arr {vs ws : List Json} (h : List.Forall₂ Trims vs ws) : Trims (.arr vs) (.arr ws)
  | obj {fs gs : List (String × Json)} (h : Trimmed Trims fs gs) : Trims (.obj fs) (.obj gs)

theorem Trimmed.append (es : List (String × Json)) {fs gs : List (String × Json)}
    (h : Trimmed Trims fs gs) : Trimmed Trims (es ++ fs) (es ++ gs) := by
  induction es with
  | nil => exact h
  | cons e es ih => exact .keep (.refl e.2) ih

theorem Trimmed.refl (fs : List (String × Json)) : Trimmed Trims fs fs :=
  List.append_nil fs ▸ .append fs .nil

end Json

open Json (Idle Trims Trimmed)

namespace Doc

/-! ## Documents of a value -/

/-- An entry for a field. -/
inductive Entry.Gives (R : Doc → Json → Prop) : Entry → String × Json → Prop where
  | mk (lead p : Nat) {k : String} {d : Doc} {v : Json} (h : R d v) :
      Gives R ⟨lead, .text p (.ok k), d⟩ (k, v)

/-- **A document of a value**, with any places. A double that JSON has no number
for is shown as `null`. -/
inductive Shows : Doc → Json → Prop where
  | null (p : Nat) : Shows (.null p) .null
  | bool (p : Nat) (b : Bool) : Shows (.bool p b) (.bool b)
  | int (p : Nat) (n : Int) : Shows (.number p (.int n)) (.int n)
  | float (p : Nat) {x : Float} (h : Binary64.isFinite x = true) :
      Shows (.number p (.float x)) (.float x)
  | noNumber (p : Nat) {x : Float} (h : Binary64.isFinite x = false) : Shows (.null p) (.float x)
  | str (p : Nat) (s : String) : Shows (.text p (.ok s)) (.str s)
  | arr (p q : Nat) {ds : List Doc} {vs : List Json} (h : List.Forall₂ Shows ds vs) :
      Shows (.list p false ds (.sealed q)) (.arr vs)
  | obj (p q : Nat) {es : List Entry} {fs : List (String × Json)}
      (h : List.Forall₂ (Entry.Gives Shows) es fs) :
      Shows (.record p false es (.sealed q)) (.obj fs)

mutual

/-- Every value has a document. -/
theorem shows_ofJson (v : Json) : (ofJson v).Shows v := by
  cases v with
  | null => exact .null 0
  | bool b => exact .bool 0 b
  | int n => exact .int 0 n
  | float x =>
    rw [ofJson]
    split
    case isTrue h => exact .float 0 h
    case isFalse h => exact .noNumber 0 (eq_false_of_ne_true h)
  | str s => exact .str 0 s
  | arr vs => exact .arr 0 0 (shows_ofItems vs)
  | obj fs => exact .obj 0 0 (gives_ofFields fs)

theorem shows_ofItems (vs : List Json) : List.Forall₂ Shows (ofItems vs) vs := by
  cases vs with
  | nil => exact .nil
  | cons v vs => exact .cons (shows_ofJson v) (shows_ofItems vs)

theorem gives_ofFields (fs : List (String × Json)) :
    List.Forall₂ (Entry.Gives Shows) (ofFields fs) fs := by
  match fs with
  | [] => exact .nil
  | (k, v) :: fs => exact .cons (.mk 0 0 (shows_ofJson v)) (gives_ofFields fs)

end

/-- A document of a value without some of its idle fields. -/
def Carries (d : Doc) (v : Json) : Prop := ∃ w, v.Trims w ∧ d.Shows w

/-- The entries for fields of which some idle ones are left out. -/
inductive Holds : List Entry → List (String × Json) → Prop where
  | nil : Holds [] []
  | keep (lead p : Nat) {k : String} {d : Doc} {v : Json} {es : List Entry}
      {fs : List (String × Json)} (h : d.Carries v) (hs : Holds es fs) :
      Holds (⟨lead, .text p (.ok k), d⟩ :: es) ((k, v) :: fs)
  | drop {k : String} {v : Json} {es : List Entry} {fs : List (String × Json)} (h : Idle k v)
      (hs : Holds es fs) : Holds es ((k, v) :: fs)

theorem holds_of_trimmed {fs gs : List (String × Json)} (h : Trimmed Trims fs gs)
    {es : List Entry} (hs : List.Forall₂ (Entry.Gives Shows) es gs) : Holds es fs := by
  induction h generalizing es with
  | nil =>
    cases hs
    exact .nil
  | keep h _ ih =>
    obtain _ | ⟨⟨lead, p, hd⟩, hs⟩ := hs
    exact .keep lead p ⟨_, h, hd⟩ (ih hs)
  | drop h _ ih => exact .drop h (ih hs)

theorem forall₂_carries_of_trims {vs ws : List Json} (h : List.Forall₂ Trims vs ws)
    {ds : List Doc} (hs : List.Forall₂ Shows ds ws) : List.Forall₂ Carries ds vs := by
  induction h generalizing ds with
  | nil =>
    cases hs
    exact .nil
  | cons h _ ih =>
    obtain _ | ⟨hd, hs⟩ := hs
    exact .cons ⟨_, h, hd⟩ (ih hs)

namespace Carries

variable {d : Doc}

theorem null (h : d.Carries .null) : ∃ p, d = .null p := by
  obtain ⟨w, ⟨⟩, ⟨⟩⟩ := h
  exact ⟨_, rfl⟩

theorem bool {b : Bool} (h : d.Carries (.bool b)) : ∃ p, d = .bool p b := by
  obtain ⟨w, ⟨⟩, ⟨⟩⟩ := h
  exact ⟨_, rfl⟩

theorem int {n : Int} (h : d.Carries (.int n)) : ∃ p, d = .number p (.int n) := by
  obtain ⟨w, ⟨⟩, ⟨⟩⟩ := h
  exact ⟨_, rfl⟩

theorem float {x : Float} (hx : Binary64.isFinite x = true) (h : d.Carries (.float x)) :
    ∃ p, d = .number p (.float x) := by
  obtain ⟨w, ⟨⟩, h⟩ := h
  cases h with
  | float => exact ⟨_, rfl⟩
  | noNumber p h => exact nomatch hx.symm.trans h

theorem str {s : String} (h : d.Carries (.str s)) : ∃ p, d = .text p (.ok s) := by
  obtain ⟨w, ⟨⟩, ⟨⟩⟩ := h
  exact ⟨_, rfl⟩

theorem arr {vs : List Json} (h : d.Carries (.arr vs)) :
    ∃ p q ds, d = .list p false ds (.sealed q) ∧ List.Forall₂ Carries ds vs := by
  obtain ⟨w, ht, hs⟩ := h
  cases ht with
  | refl =>
    obtain _ | _ | _ | _ | _ | _ | ⟨p, q, h⟩ := hs
    exact ⟨p, q, _, rfl, h.imp fun _ v hv => ⟨v, .refl v, hv⟩⟩
  | arr ht =>
    obtain _ | _ | _ | _ | _ | _ | ⟨p, q, h⟩ := hs
    exact ⟨p, q, _, rfl, forall₂_carries_of_trims ht h⟩

theorem obj {fs : List (String × Json)} (h : d.Carries (.obj fs)) :
    ∃ p q es, d = .record p false es (.sealed q) ∧ Holds es fs := by
  obtain ⟨w, ht, hs⟩ := h
  have ⟨gs, hw, hg⟩ : ∃ gs, w = .obj gs ∧ Trimmed Trims fs gs := by
    cases ht with
    | refl => exact ⟨fs, rfl, .refl fs⟩
    | obj h => exact ⟨_, rfl, h⟩
  subst hw
  obtain _ | _ | _ | _ | _ | _ | _ | ⟨p, q, h⟩ := hs
  exact ⟨p, q, _, rfl, holds_of_trimmed hg h⟩

/-- A present value is read past the test for `null`. -/
theorem orNull_eq {α : Type} {v : Json} (h : d.Carries v) (hv : v.isPresent = true)
    (read : Doc → Reading α) : d.orNull read = some <$> read d := by
  obtain ⟨w, ht, hs⟩ := h
  cases hs with
  | null | noNumber =>
    cases ht
    simp_all [Json.isPresent]
  | _ => rfl

end Carries

/-! ## Readings -/

variable {α β : Type} {n m : Nat} {read : Doc → Reading α} {v : Json} {a : α}

theorem one_le_height (d : Doc) : 1 ≤ d.height := by
  cases d <;> simp [height]

/-- **Reading gives a value back** from every document of what was written, up
to a height. -/
def Recovers (n : Nat) (read : Doc → Reading α) (v : Json) (a : α) : Prop :=
  ∀ d : Doc, d.Carries v → d.height ≤ n → read d = .ok a

/-- Reading gives a value back that was written as a present one. -/
structure Reads (n : Nat) (read : Doc → Reading α) (v : Json) (a : α) : Prop where
  present : v.isPresent = true
  recovers : Recovers n read v a

namespace Recovers

theorem map (h : Recovers n read v a) (f : α → β) : Recovers n (fun d => f <$> read d) v (f a) := by
  intro d hd hn
  simp only [h d hd hn]
  rfl

theorem mono (h : Recovers n read v a) (hm : m ≤ n) : Recovers m read v a :=
  fun d hd hn => h d hd (Nat.le_trans hn hm)

end Recovers

namespace Reads

/-- **What is written alike is alike**, for every value has a document. -/
theorem unique {b : α} (ha : ∀ n, Reads n read v a) (hb : ∀ n, Reads n read v b) : a = b := by
  have hv : (ofJson v).Carries v := ⟨v, .refl v, shows_ofJson v⟩
  have ha := (ha _).recovers _ hv (Nat.le_refl _)
  exact Reading.ok.inj (ha.symm.trans ((hb _).recovers _ hv (Nat.le_refl _)))

theorem map (h : Reads n read v a) (f : α → β) : Reads n (fun d => f <$> read d) v (f a) :=
  ⟨h.present, h.recovers.map f⟩

theorem of_succ (h : Reads (n + 1) read v a) : Reads n read v a :=
  ⟨h.present, h.recovers.mono (Nat.le_succ n)⟩

/-- Of a reader that goes down a given number of levels only those that go down
one count. -/
theorem within {within : Nat → Doc → Reading α} (h : ∀ n, Reads (n + 1) (within (n + 1)) v a) :
    ∀ n, Reads n (within n) v a
  | 0 => ⟨(h 0).present, fun d _ hd => absurd (Nat.le_trans d.one_le_height hd) (by decide)⟩
  | n + 1 => h n

/-- A reader that goes down as many levels as a document has. -/
theorem of_height {within : Nat → Doc → Reading α} (h : ∀ n, Reads n (within n) v a) :
    Reads n (fun d => within d.height d) v a :=
  ⟨(h 0).present, fun d hd _ => (h d.height).recovers d hd (Nat.le_refl _)⟩

/-! ### Scalars -/

theorem string (s : String) : Reads n string (.str s) s := by
  refine ⟨rfl, fun d hd _ => ?_⟩
  obtain ⟨p, rfl⟩ := hd.str
  rfl

theorem boolean (b : Bool) : Reads n boolean (.bool b) b := by
  refine ⟨rfl, fun d hd _ => ?_⟩
  obtain ⟨p, rfl⟩ := hd.bool
  rfl

theorem intBetween {low high k : Int} (hk : low ≤ k ∧ k ≤ high) :
    Reads n (intBetween low high) (.int k) k := by
  refine ⟨rfl, fun d hd _ => ?_⟩
  obtain ⟨p, rfl⟩ := hd.int
  exact if_pos hk

theorem u32 (k : UInt32) : Reads n u32 (.u32 k) k := by
  have hk : (0 : Int) ≤ k.toNat ∧ (k.toNat : Int) ≤ UInt32.size - 1 := by
    have := k.toNat_lt_size
    omega
  have h := (intBetween (n := n) hk).map fun i => i.toNat.toUInt32
  rwa [Int.toNat_natCast, Nat.toUInt32_eq, UInt32.ofNat_toNat] at h

theorem i32 (k : Int32) : Reads n i32 (.int k.toInt) k := by
  have h := (intBetween (n := n) ⟨k.minValue_le_toInt, k.toInt_le⟩).map Int32.ofInt
  rwa [Int32.ofInt_toInt] at h

theorem i64 (k : Int64) : Reads n i64 (.int k.toInt) k := by
  have h := (intBetween (n := n) ⟨k.minValue_le_toInt, k.toInt_le⟩).map Int64.ofInt
  rwa [Int64.ofInt_toInt] at h

theorem float {x : Float} (hx : Binary64.isFinite x = true) : Reads n float (.float x) x := by
  refine ⟨hx, fun d hd _ => ?_⟩
  obtain ⟨p, rfl⟩ := hd.float hx
  rfl

theorem char (c : Char) : Reads n char (.str c.toString) c := by
  refine ⟨rfl, fun d hd _ => ?_⟩
  obtain ⟨p, rfl⟩ := hd.str
  simp [Doc.char, Doc.string, Reading.bind]

/-! ### Lists -/

theorem list_of_carries {ds : List Doc} {write : α → Json} {values : List α}
    (hd : List.Forall₂ Carries ds (values.map write)) (hn : heightItems ds ≤ n)
    (h : ∀ a ∈ values, Reads n read (write a) a) : Reading.list read ds = .ok values := by
  induction values generalizing ds with
  | nil =>
    cases hd
    rfl
  | cons a values ih =>
    obtain _ | ⟨ha, hd⟩ := hd
    rw [heightItems, Nat.max_le] at hn
    have hfirst := (h a List.mem_cons_self).recovers _ ha hn.1
    have hrest := ih hd hn.2 fun b hb => h b (List.mem_cons_of_mem a hb)
    rw [Reading.list, hfirst, hrest]
    rfl

/-- A list is given back when each of its elements is. -/
theorem items {write : α → Json} (values : List α)
    (h : ∀ a ∈ values, Reads n read (write a) a) :
    Reads n (items read) (.arr (values.map write)) values := by
  refine ⟨rfl, fun d hd hn => ?_⟩
  obtain ⟨p, q, ds, rfl, hds⟩ := hd.arr
  rw [height] at hn
  rw [Doc.items, list_of_carries hds (Nat.le_of_succ_le hn) h]
  rfl

/-! ### Alternatives -/

variable {table : String → Option (Variant α)} {name : String}

/-- An alternative that is written by its name. -/
theorem plain (ht : table name = some (.plain a)) : Reads n (variant table) (.str name) a := by
  refine ⟨rfl, fun d hd _ => ?_⟩
  obtain ⟨p, rfl⟩ := hd.str
  simp only [variant, ht]

/-- An alternative with what it carries, which may be `null`. Its name is no
field, so it is never left out. -/
theorem tagged (ht : table name = some (.carrying read)) (hname : Json.mayBeIdle name = false)
    (h : Recovers n read v a) :
    Reads (n + 1) (variant table) (.tagged name v) a := by
  refine ⟨rfl, fun d hd hn => ?_⟩
  obtain ⟨p, q, es, rfl, hes⟩ := hd.obj
  cases hes with
  | drop hi => exact nomatch hname.symm.trans hi.mayBeIdle_eq_true
  | keep lead p hv hes =>
    cases hes
    simp only [height, heightEntries, Nat.max_zero, Nat.add_le_add_iff_right] at hn
    simp only [variant, Doc.string, Reading.bind, ht, Variant.payload, h _ hv hn]
    rfl

/-- An alternative that carries a present value. -/
theorem carrying (ht : table name = some (.carrying read)) (hname : Json.mayBeIdle name = false)
    (h : Reads n read v a) :
    Reads (n + 1) (variant table) (.tagged name v) a :=
  tagged ht hname h.recovers

/-- An alternative out of a list of names. -/
theorem choice {names : List (String × α)} (h : names.lookup name = some a) :
    Reads n (choice names) (.str name) a :=
  plain (by rw [h]; rfl)

end Reads

/-- What may be absent is given back when it is given back where present. -/
theorem Recovers.orNull {write : α → Json} {value : Option α}
    (h : ∀ a ∈ value, Reads n read (write a) a) :
    Recovers n (orNull read) (.option write value) value := by
  intro d hd hn
  cases value with
  | none =>
    obtain ⟨p, rfl⟩ := hd.null
    rfl
  | some a =>
    have ha := h a rfl
    rw [hd.orNull_eq ha.present, ha.recovers d hd hn]
    rfl

/-! ## Records -/

namespace Holds

variable {es : List Entry} {fs : List (String × Json)}

theorem findEntry?_eq_none {k : String} (h : Holds es fs) (hk : k ∉ fs.map Prod.fst) :
    findEntry? k es = none := by
  induction h with
  | nil => rfl
  | keep lead p _ _ ih =>
    rw [List.map_cons, List.mem_cons, not_or] at hk
    unfold findEntry?
    rw [List.find?_cons_of_neg (by simpa [keyName?] using Ne.symm hk.1)]
    exact ih hk.2
  | drop _ _ ih => exact ih (mt (List.mem_cons_of_mem _) hk)

/-- Each field is found with what it holds, or is an idle one that was left
out. -/
theorem find (h : Holds es fs) (hn : (fs.map Prod.fst).Nodup) : ∀ f ∈ fs,
    (∃ d, findEntry? f.1 es = some d ∧ d.Carries f.2 ∧ d.height ≤ heightEntries es) ∨
      findEntry? f.1 es = none ∧ Idle f.1 f.2 := by
  induction h with
  | nil => exact fun _ h => nomatch h
  | @keep lead p k d v es fs hv hs ih =>
    obtain ⟨hk, hn⟩ := List.nodup_cons.mp hn
    refine List.forall_mem_cons.mpr ⟨.inl ⟨d, ?_, hv, Nat.le_max_left ..⟩, fun f hf => ?_⟩
    · simp [keyName?, findEntry?]
    · have hne : k ≠ f.1 := fun h => hk (List.mem_map.mpr ⟨f, hf, h.symm⟩)
      have hskip : findEntry? f.1 (⟨lead, .text p (.ok k), d⟩ :: es) = findEntry? f.1 es := by
        simp [keyName?, findEntry?, hne]
      rw [hskip]
      obtain ⟨d', hd', hc, hh⟩ | hi := ih hn f hf
      · exact .inl ⟨d', hd', hc, Nat.le_trans hh (Nat.le_max_right ..)⟩
      · exact .inr hi
  | drop hi hs ih =>
    obtain ⟨hk, hn⟩ := List.nodup_cons.mp hn
    exact List.forall_mem_cons.mpr ⟨.inr ⟨hs.findEntry?_eq_none hk, hi⟩, ih hn⟩

/-- Entries for known fields, each given once, have no flaw. -/
theorem entriesFlaw?_eq_none {names seen : List String} {q : Nat} (h : Holds es fs)
    (hn : (fs.map Prod.fst).Nodup) (hnames : ∀ k ∈ fs.map Prod.fst, k ∈ names)
    (hseen : ∀ k ∈ fs.map Prod.fst, k ∉ seen) : entriesFlaw? names es seen (.sealed q) = none := by
  induction h generalizing seen with
  | nil => rfl
  | @keep lead p k d v es fs _ _ ih =>
    obtain ⟨hk, hn⟩ := List.nodup_cons.mp hn
    rw [List.map_cons, List.forall_mem_cons] at hnames hseen
    have hseen' : ∀ k' ∈ fs.map Prod.fst, k' ∉ k :: seen := by
      intro k' hk' h
      obtain rfl | h := List.mem_cons.mp h
      · exact hk hk'
      · exact hseen.2 k' hk' h
    simp [entriesFlaw?, keyName?, hnames.1, hseen.1, ih hn hnames.2 hseen']
  | drop _ _ ih =>
    rw [List.map_cons, List.forall_mem_cons] at hnames hseen
    exact ih (List.nodup_cons.mp hn).2 hnames.2 hseen.2

end Holds

/-- What is found for some fields: a document up to a height, or nothing for an
idle one. -/
structure Fields.Hold (found : Fields) (n : Nat) (fs : List (String × Json)) : Prop where
  named : found.positional = false
  each : ∀ f ∈ fs, (∃ d, found.find f.1 = some d ∧ d.Carries f.2 ∧ d.height ≤ n) ∨
    (found.find f.1 = none ∧ Idle f.1 f.2)

namespace Shape

/-- **The first fields of a record are given back** out of any fields that hold
what was written; the others are for the rest of the shape. -/
structure Reads (n : Nat) (s : Shape α) (fs rest : List (String × Json)) (a : α) : Prop where
  names : fs.map Prod.fst = s.names ++ rest.map Prod.fst
  others : rest ⊆ fs
  read : ∀ found : Fields, found.Hold n fs → s.read found = .ok a

namespace Reads

variable {fs gs rest : List (String × Json)}

theorem map {s : Shape α} (h : s.Reads n fs rest a) (f : α → β) :
    (f <$> s).Reads n fs rest (f a) where
  names := h.names
  others := h.others
  read found hf := congrArg (Reading.seq (.ok f)) (h.read found hf)

theorem seq {s : Shape (α → β)} {t : Shape α} {f : α → β} (hs : s.Reads n fs gs f)
    (ht : t.Reads n gs rest a) : (s <*> t).Reads n fs rest (f a) where
  names := by
    rw [hs.names, ht.names, ← List.append_assoc]
    rfl
  others := List.Subset.trans ht.others hs.others
  read found hf := congrArg₂ Reading.seq (hs.read found hf)
    (ht.read found ⟨hf.named, fun g hg => hf.each g (hs.others hg)⟩)

/-- A field that must be given holds a present value. -/
theorem required (k : String) (hk : Json.hasDefault k = false) (h : Doc.Reads n read v a) :
    (required k read).Reads n ((k, v) :: rest) rest a where
  names := rfl
  others := List.subset_cons_self _ _
  read found hf := by
    obtain ⟨d, hd, hc, hn⟩ | ⟨_, hi⟩ := hf.each _ List.mem_cons_self
    · simp only [Shape.required, hd, h.recovers d hc hn]
    · exact nomatch h.present.symm.trans (hi.isPresent_eq_false hk)

theorem defaulted (k : String) {default : α} (h : Recovers n read v a)
    (hi : Idle k v → a = default) : (defaulted k default read).Reads n ((k, v) :: rest) rest a where
  names := rfl
  others := List.subset_cons_self _ _
  read found hf := by
    obtain ⟨d, hd, hc, hn⟩ | ⟨hd, hidle⟩ := hf.each _ List.mem_cons_self
    · simp only [Shape.defaulted, hd, h d hc hn]
    · simp only [Shape.defaulted, hd, hi hidle]

theorem eq_none_of_idle {k : String} {write : α → Json} {value : Option α}
    (hk : Json.hasDefault k = false) (h : ∀ a ∈ value, Doc.Reads n read (write a) a)
    (hi : Idle k (.option write value)) : value = none := by
  cases value with
  | none => rfl
  | some a => exact nomatch (h a rfl).present.symm.trans (hi.isPresent_eq_false hk)

theorem absentable (k : String) (hk : Json.hasDefault k = false) {write : α → Json}
    (value : Option α) (h : ∀ a ∈ value, Doc.Reads n read (write a) a) :
    (absentable k read).Reads n ((k, .option write value) :: rest) rest value :=
  defaulted k (.orNull h) (eq_none_of_idle hk h)

/-- With named fields, one that may be `null` may also be left out. -/
theorem optional (k : String) (hk : Json.hasDefault k = false) {write : α → Json}
    (value : Option α) (h : ∀ a ∈ value, Doc.Reads n read (write a) a) :
    (optional k read).Reads n ((k, .option write value) :: rest) rest value where
  names := rfl
  others := List.subset_cons_self _ _
  read found hf := by
    rw [← (absentable k hk value h).read found hf]
    simp [Shape.optional, Shape.absentable, Shape.defaulted, hf.named]

end Reads

end Shape

/-- A record is given back when its fields are, one level further down. -/
theorem Shape.Reads.record_succ {s : Shape α} {fs : List (String × Json)} (h : s.Reads n fs [] a)
    (hn : (fs.map Prod.fst).Nodup) : Doc.Reads (n + 1) (record? s) (.obj fs) a := by
  refine ⟨rfl, fun d hd hh => ?_⟩
  obtain ⟨p, q, es, rfl, hes⟩ := hd.obj
  rw [height, Nat.add_le_add_iff_right] at hh
  have hflaw : entriesFlaw? s.names es [] (.sealed q) = none :=
    hes.entriesFlaw?_eq_none hn (fun k hk => List.append_nil s.names ▸ h.names ▸ hk)
      fun _ _ => List.not_mem_nil
  have hread := h.read ⟨fun name => findEntry? name es, q, false⟩
    ⟨rfl, fun f hf => (hes.find hn f hf).imp_left
      fun ⟨d, hd, hc, hle⟩ => ⟨d, hd, hc, Nat.le_trans hle hh⟩⟩
  rw [record?, hflaw]
  exact congrArg (Reading.seq (.ok id)) hread

theorem Shape.Reads.record {s : Shape α} {fs : List (String × Json)} (h : s.Reads n fs [] a)
    (hn : (fs.map Prod.fst).Nodup) : Doc.Reads n (record? s) (.obj fs) a :=
  (h.record_succ hn).of_succ

end Doc

end Closures
