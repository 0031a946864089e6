import Mathlib.Algebra.Group.Nat.Defs
import Mathlib.Data.List.DropRight
import Closures.Source.Lines

/-!
# Positions in a source text

The line table of a text holds the offsets after its newlines. This module says
what it is made of, and that lines and columns can be turned into offsets and
back.

* In bytes: up to an offset the table holds one entry per newline and one for
  the start of the text, and the last of them is where the line of the offset
  starts (`startsAfter_append`, `getLastD_startsAfter`).
* In characters: a newline byte is never a part of another character, so the
  entries of the table are the ends of whole characters, and the text of a line
  is what lies between two of them (`newline_mem_utf8EncodeChar`,
  `starts_eq_lineOffsets`).

Numbers have 32 bits. A text with fewer bytes than 2 ^ 32 still has one position
whose line or column may have 33: the end of a text of 2 ^ 32 - 1 bytes that has
no newline, or nothing else (`SourceFile.AtLimit`). The main theorem,
`positions_round_trip`, says that this is the only one where the way back is
lost.
-/

set_option autoImplicit false

namespace Closures

namespace SourceFile

/-! ## Line starts in bytes -/

/-- The offsets after the newlines of some bytes, the first of which has offset
`k`. -/
def startsAfter (k : Nat) (bs : List UInt8) : List Nat :=
  (bs.zipIdx k).filterMap fun (b, i) => if b = newline then some (i + 1) else none

section Bytes

variable {k : Nat} {as bs : List UInt8} {b : UInt8}

theorem startsAfter_append (k : Nat) (as bs : List UInt8) :
    startsAfter k (as ++ bs) = startsAfter k as ++ startsAfter (k + as.length) bs := by
  rw [startsAfter, List.zipIdx_append, List.filterMap_append]
  rfl

theorem startsAfter_cons (k : Nat) (b : UInt8) (bs : List UInt8) :
    startsAfter k (b :: bs) = (if b = newline then [k + 1] else []) ++ startsAfter (k + 1) bs := by
  rw [startsAfter, List.zipIdx_cons, List.filterMap_cons]
  by_cases hb : b = newline
  · simp [hb, startsAfter]
  · simp [hb, startsAfter]

theorem startsAfter_eq_nil (hbs : newline ∉ bs) (k : Nat) : startsAfter k bs = [] := by
  induction bs generalizing k with
  | nil => rfl
  | cons b bs ih =>
    rw [List.mem_cons, not_or] at hbs
    rw [startsAfter_cons, if_neg (Ne.symm hbs.1), ih hbs.2, List.nil_append]

theorem length_startsAfter (k : Nat) (bs : List UInt8) :
    (startsAfter k bs).length = bs.count newline := by
  induction bs generalizing k with
  | nil => rfl
  | cons b bs ih =>
    rw [startsAfter_cons, List.length_append, ih, List.count_cons]
    by_cases hb : b = newline
    · simp [hb, Nat.add_comm]
    · simp [hb]

theorem mem_startsAfter {s : Nat} (hs : s ∈ startsAfter k bs) : k < s ∧ s ≤ k + bs.length := by
  obtain ⟨⟨b, i⟩, hmem, hsome⟩ := List.mem_filterMap.mp hs
  have hplace := List.mem_zipIdx hmem
  simp only at hsome
  split at hsome
  · cases hsome
    omega
  · cases hsome

theorem pairwise_startsAfter (k : Nat) (bs : List UInt8) : (startsAfter k bs).Pairwise (· < ·) := by
  induction bs generalizing k with
  | nil => exact .nil
  | cons b bs ih =>
    rw [startsAfter_cons]
    refine List.pairwise_append.mpr ⟨?_, ih _, fun s hs t ht => ?_⟩
    · split
      · exact List.pairwise_singleton _ _
      · exact .nil
    · have hbound := (mem_startsAfter ht).1
      split at hs
      · rw [List.mem_singleton.mp hs]
        exact hbound
      · cases hs

/-- The bytes after the last newline. -/
def lastLine (bs : List UInt8) : List UInt8 := bs.rtakeWhile (· ≠ newline)

theorem length_lastLine_le (bs : List UInt8) : (lastLine bs).length ≤ bs.length :=
  (List.rtakeWhile_suffix _ _).length_le

theorem length_lastLine_eq_iff : (lastLine bs).length = bs.length ↔ newline ∉ bs := by
  have hself : (lastLine bs).length = bs.length ↔ lastLine bs = bs :=
    ⟨(List.rtakeWhile_suffix _ _).eq_of_length, congrArg List.length⟩
  rw [hself, lastLine, List.rtakeWhile_eq_self_iff]
  simp only [decide_eq_true_eq]
  exact List.forall_mem_ne'

/-- The last line starts where the bytes after the last newline do. -/
theorem getLastD_startsAfter (bs : List UInt8) :
    (startsAfter 0 bs).getLastD 0 + (lastLine bs).length = bs.length := by
  -- from the end, where a further byte starts a line or makes the last one longer
  induction bs using List.reverseRecOn with
  | nil => rfl
  | append_singleton bs b ih =>
    rw [startsAfter_append, startsAfter_cons, lastLine, List.rtakeWhile_concat]
    by_cases hb : b = newline
    · simp [hb, startsAfter]
    · rw [if_neg hb, if_pos (by simpa using hb), List.nil_append, List.length_append,
        List.length_append, ← Nat.add_assoc, ← ih]
      simp [startsAfter, lastLine]

end Bytes

/-! ## The line table -/

/-- The bytes before an offset, of which there are no more than the text has. -/
def upTo (f : SourceFile) (o : UInt32) : List UInt8 := f.bytes.take o.toNat

/-- The newlines before an offset. -/
def newlinesBefore (f : SourceFile) (o : UInt32) : Nat := (f.upTo o).count newline

/-- The bytes before an offset that come after the last newline there. -/
def bytesSince (f : SourceFile) (o : UInt32) : Nat := (lastLine (f.upTo o)).length

/-- Where the line of an offset starts. -/
def lineStart (f : SourceFile) (o : UInt32) : UInt32 :=
  ((startsAfter 0 (f.upTo o)).getLastD 0).toUInt32

section Table

variable {f : SourceFile} (hf : f.bytes.length < 2 ^ 32)

theorem lineStarts_eq (f : SourceFile) :
    f.lineStarts = (0 :: startsAfter 0 f.bytes).map Nat.toUInt32 := by
  rw [lineStarts, List.map_cons, startsAfter, List.map_filterMap]
  congr 2
  funext ⟨b, i⟩
  dsimp only
  split <;> rfl

theorem length_lineStarts (f : SourceFile) : f.lineStarts.length = f.bytes.count newline + 1 := by
  rw [lineStarts_eq, List.length_map, List.length_cons, length_startsAfter]

theorem getLast?_starts (f : SourceFile) (o : UInt32) :
    ((0 :: startsAfter 0 (f.upTo o)).map Nat.toUInt32).getLast? = some (f.lineStart o) := by
  rw [List.getLast?_map, List.getLast?_cons, lineStart, List.getLastD_eq_getLast?]
  rfl

/-- An offset is looked up at an entry that is there. -/
theorem offset_eq (f : SourceFile) (line column : UInt32) :
    ∃ start, f.lineStarts[min (pred line).toNat (f.lineStarts.length - 1)]? = some start ∧
      f.offset line column = min (start + pred column) f.size := by
  have hlt : min (pred line).toNat (f.lineStarts.length - 1) < f.lineStarts.length := by
    rw [length_lineStarts]
    omega
  refine ⟨_, List.getElem?_eq_getElem hlt, ?_⟩
  rw [offset, List.getD_eq_getElem?_getD, List.getElem?_eq_getElem hlt, Option.getD_some]

include hf

theorem toNat_size : f.size.toNat = f.bytes.length := UInt32.toNat_ofNat_of_lt' hf

theorem toNat_of_mem {s : Nat} (hs : s ∈ 0 :: startsAfter 0 f.bytes) :
    s ≤ f.bytes.length ∧ s.toUInt32.toNat = s := by
  have hle : s ≤ f.bytes.length := by
    rcases List.mem_cons.mp hs with rfl | hs
    · exact Nat.zero_le _
    · simpa using (mem_startsAfter hs).2
  exact ⟨hle, UInt32.toNat_ofNat_of_lt' (hle.trans_lt hf)⟩

/-- The entries ascend. -/
theorem pairwise_lineStarts : f.lineStarts.Pairwise (· < ·) := by
  rw [lineStarts_eq, List.pairwise_map]
  have hasc : (0 :: startsAfter 0 f.bytes).Pairwise (· < ·) :=
    List.pairwise_cons.mpr ⟨fun s hs => (mem_startsAfter hs).1, pairwise_startsAfter 0 f.bytes⟩
  refine hasc.imp_of_mem fun hs ht hlt => ?_
  rw [UInt32.lt_iff_toNat_lt, (toNat_of_mem hf hs).2, (toNat_of_mem hf ht).2]
  exact hlt

theorem length_upTo (o : UInt32) : (f.upTo o).length = (min o f.size).toNat := by
  rw [upTo, List.length_take, UInt32.toNat_min, toNat_size hf]

/-- The starts of the lines before an offset come first, and greater ones
follow. -/
theorem lineStarts_split (o : UInt32) :
    ∃ rest, f.lineStarts = (0 :: startsAfter 0 (f.upTo o)).map Nat.toUInt32 ++ rest ∧
      (∀ s ∈ (0 :: startsAfter 0 (f.upTo o)).map Nat.toUInt32, s ≤ min o f.size) ∧
      ∀ s ∈ rest, min o f.size < s := by
  have hlength := length_upTo hf o
  have hstarts : startsAfter 0 f.bytes =
      startsAfter 0 (f.upTo o) ++ startsAfter (f.upTo o).length (f.bytes.drop o.toNat) := by
    conv_lhs => rw [← List.take_append_drop o.toNat f.bytes, startsAfter_append, Nat.zero_add]
    rfl
  have htoNat : ∀ s ∈ 0 :: startsAfter 0 f.bytes, s.toUInt32.toNat = s := fun s hs =>
    (toNat_of_mem hf hs).2
  rw [hstarts] at htoNat
  refine ⟨(startsAfter (f.upTo o).length (f.bytes.drop o.toNat)).map Nat.toUInt32, ?_, ?_, ?_⟩
  · rw [lineStarts_eq, hstarts, ← List.map_append, List.cons_append]
  · intro s hs
    obtain ⟨n, hn, rfl⟩ := List.mem_map.mp hs
    rw [UInt32.le_iff_toNat_le, htoNat n (List.mem_append_left _ hn), ← hlength]
    rcases List.mem_cons.mp hn with rfl | hn
    · exact Nat.zero_le _
    · simpa using (mem_startsAfter hn).2
  · intro s hs
    obtain ⟨n, hn, rfl⟩ := List.mem_map.mp hs
    rw [UInt32.lt_iff_toNat_lt, htoNat n (by simp [hn]), ← hlength]
    exact (mem_startsAfter hn).1

theorem takeWhile_lineStarts (o : UInt32) :
    f.lineStarts.takeWhile (· ≤ min o f.size) = (0 :: startsAfter 0 (f.upTo o)).map
      Nat.toUInt32 := by
  obtain ⟨rest, hsplit, hbefore, hafter⟩ := lineStarts_split hf o
  have hrest : rest.takeWhile (· ≤ min o f.size) = [] := by
    refine List.takeWhile_eq_nil_iff.mpr fun hne => ?_
    have hlt := hafter _ (List.getElem_mem hne)
    simpa using hlt
  rw [hsplit, List.takeWhile_append_of_pos fun s hs => decide_eq_true (hbefore s hs),
    hrest, List.append_nil]

/-- The start of the line and the bytes since then make up the offset. -/
theorem lineStart_add (o : UInt32) : f.lineStart o + (f.bytesSince o).toUInt32 = min o f.size := by
  have hoffset : min o f.size = (f.upTo o).length.toUInt32 := by
    rw [length_upTo hf]
    exact UInt32.ofNat_toNat.symm
  rw [hoffset, ← getLastD_startsAfter (f.upTo o)]
  exact (UInt32.ofNat_add _ _).symm

/-- **The line of an offset is one more than the newlines before it, and its
column one more than the bytes since the last of them**, in 32 bits. -/
theorem lineColumn_eq (o : UInt32) :
    f.lineColumn o = ((f.newlinesBefore o + 1).toUInt32, (f.bytesSince o + 1).toUInt32) := by
  have hcolumn : min o f.size - f.lineStart o + 1 = (f.bytesSince o + 1).toUInt32 := by
    rw [← lineStart_add hf, UInt32.add_comm (f.lineStart o), UInt32.add_sub_cancel]
    exact (UInt32.ofNat_add _ 1).symm
  rw [lineColumn, takeWhile_lineStarts hf, List.length_map, List.length_cons, length_startsAfter,
    List.getLastD_eq_getLast?, getLast?_starts, Option.getD_some, hcolumn]
  rfl

/-- The entry of the line of an offset is there, and a search for the offset
ends after it. -/
theorem getElem?_lineStarts (o : UInt32) :
    f.lineStarts[f.newlinesBefore o]? = some (f.lineStart o) ∧
    ∀ (i : Nat) (s : UInt32), f.lineStarts[i]? = some s →
      (i ≤ f.newlinesBefore o ↔ s ≤ min o f.size) := by
  obtain ⟨rest, hsplit, hbefore, hafter⟩ := lineStarts_split hf o
  have hlength : ((0 :: startsAfter 0 (f.upTo o)).map Nat.toUInt32).length =
      f.newlinesBefore o + 1 := by
    rw [List.length_map, List.length_cons, length_startsAfter, newlinesBefore]
  have hlast := getLast?_starts f o
  rw [hsplit]
  generalize (0 :: startsAfter 0 (f.upTo o)).map Nat.toUInt32 = before at hbefore hlength hlast
  constructor
  · rw [List.getLast?_eq_getElem?, hlength, Nat.add_sub_cancel] at hlast
    rw [List.getElem?_append_left (by omega), hlast]
  · intro i s hs
    by_cases hi : i < before.length
    · rw [List.getElem?_append_left hi] at hs
      exact iff_of_true (by omega) (hbefore s (List.mem_of_getElem? hs))
    · rw [List.getElem?_append_right (by omega)] at hs
      exact iff_of_false (by omega) (UInt32.not_le.mpr (hafter s (List.mem_of_getElem? hs)))

end Table

/-! ## Back to the offset -/

theorem toNat_succ {n : Nat} (hn : n + 1 < 2 ^ 32) : (n + 1).toUInt32.toNat = n + 1 :=
  UInt32.toNat_ofNat_of_lt' hn

theorem pred_succ {n : Nat} (hn : n + 1 < 2 ^ 32) : pred (n + 1).toUInt32 = n.toUInt32 := by
  have hne : (n + 1).toUInt32 ≠ 0 := by
    intro h
    have htoNat := congrArg UInt32.toNat h
    rw [toNat_succ hn] at htoNat
    cases htoNat
  rw [pred, if_neg hne]
  change UInt32.ofNat (n + 1) - 1 = UInt32.ofNat n
  rw [UInt32.ofNat_add]
  exact UInt32.add_sub_cancel ..

/-- **An offset is found again from its line and column**, if these are numbers
of 32 bits. -/
theorem offset_lineColumn {f : SourceFile} (hf : f.bytes.length < 2 ^ 32) {o : UInt32}
    (hline : f.newlinesBefore o + 1 < 2 ^ 32) (hcolumn : f.bytesSince o + 1 < 2 ^ 32) :
    f.offset (f.lineColumn o).1 (f.lineColumn o).2 = min o f.size := by
  obtain ⟨hentry, -⟩ := getElem?_lineStarts hf o
  obtain ⟨start, hstart, hoffset⟩ := offset_eq f (f.lineColumn o).1 (f.lineColumn o).2
  have hindex : min (pred (f.lineColumn o).1).toNat (f.lineStarts.length - 1) =
      f.newlinesBefore o := by
    have hlt := (List.getElem?_eq_some_iff.mp hentry).1
    have htoNat : (f.newlinesBefore o).toUInt32.toNat = f.newlinesBefore o :=
      UInt32.toNat_ofNat_of_lt' (Nat.lt_of_succ_lt hline)
    rw [lineColumn_eq hf, pred_succ hline, htoNat]
    omega
  rw [hindex, hentry] at hstart
  cases hstart
  rw [hoffset, lineColumn_eq hf, pred_succ hcolumn, lineStart_add hf]
  rw [← UInt32.toNat_inj, UInt32.toNat_min, UInt32.toNat_min]
  omega

/-! ## Lines in characters -/

/-- The bytes of some characters. -/
def encode (cs : List Char) : List UInt8 := cs.flatMap String.utf8EncodeChar

theorem toList_loop_eq (bs : ByteArray) (i : Nat) (read : List UInt8) :
    ByteArray.toList.loop bs i read = read.reverse ++ bs.data.toList.drop i := by
  have hsize : bs.data.toList.length = bs.size := rfl
  fun_induction ByteArray.toList.loop bs i read with
  | case1 i read hi ih =>
    have hget : bs.data.toList[i] = bs.get! i := (getElem!_pos bs.data i hi).symm
    rw [ih, List.drop_eq_getElem_cons (by omega : i < _), hget, List.reverse_cons,
      List.append_assoc, List.singleton_append]
  | case2 i read hi => rw [List.drop_eq_nil_of_le (by omega), List.append_nil]

theorem bytes_eq (f : SourceFile) : f.bytes = encode f.text.toList := by
  rw [bytes, String.toUTF8_eq_toByteArray, ByteArray.toList, toList_loop_eq,
    ← String.utf8Encode_toList, List.utf8Encode, List.data_toByteArray]
  rfl

/-- A newline byte is a newline, and no part of another character. -/
theorem newline_mem_utf8EncodeChar {c : Char} : newline ∈ String.utf8EncodeChar c ↔ c = '\n' := by
  have hbyte : ∀ n < 256, newline = UInt8.ofNat n ↔ n = 10 := by
    intro n hn
    rw [← UInt8.toNat_inj, UInt8.toNat_ofNat_of_lt' hn]
    exact eq_comm
  have hchar : c = '\n' ↔ c.val.toNat = 10 := by
    rw [← Char.val_inj, ← UInt32.toNat_inj]
    rfl
  rw [hchar]
  -- the bytes of a longer encoding are all 128 or more
  fun_cases String.utf8EncodeChar c with
  | case1 v hv => rw [List.mem_singleton, hbyte v (by omega)]
  | case2 v =>
    simp only [List.mem_cons, List.not_mem_nil, or_false]
    rw [hbyte _ (by omega), hbyte _ (by omega)]
    omega
  | case3 v =>
    simp only [List.mem_cons, List.not_mem_nil, or_false]
    rw [hbyte _ (by omega), hbyte _ (by omega), hbyte _ (by omega)]
    omega
  | case4 v =>
    simp only [List.mem_cons, List.not_mem_nil, or_false]
    rw [hbyte _ (by omega), hbyte _ (by omega), hbyte _ (by omega), hbyte _ (by omega)]
    omega

theorem newline_mem_encode {cs : List Char} : newline ∈ encode cs ↔ '\n' ∈ cs := by
  simp [encode, List.mem_flatMap, newline_mem_utf8EncodeChar]

theorem length_encode_append (as bs : List Char) :
    (encode (as ++ bs)).length = (encode as).length + (encode bs).length := by
  rw [encode, List.flatMap_append, List.length_append]
  rfl

/-- Cutting a text gives pieces of it, at least one, that hold no mark; a mark
between each two of them makes the text again. -/
theorem split_spec (mark : Char) (cs : List Char) :
    ∃ p ps, split mark cs = p :: ps ∧ (∀ q ∈ p :: ps, mark ∉ q ∧ q ⊆ cs) ∧
      [mark].intercalate (p :: ps) = cs := by
  induction cs with
  | nil => exact ⟨[], [], rfl, by simp, rfl⟩
  | cons c cs ih =>
    obtain ⟨p, ps, hsplit, hpieces, hjoin⟩ := ih
    have hstep : split mark (c :: cs) = Split.cons mark c (p :: ps) := hsplit ▸ rfl
    by_cases hc : c = mark
    · refine ⟨[], p :: ps, by rw [hstep, Split.cons, if_pos hc], ?_, ?_⟩
      · intro q hq
        rcases List.mem_cons.mp hq with rfl | hq
        · simp
        · exact ⟨(hpieces q hq).1, List.subset_cons_of_subset c (hpieces q hq).2⟩
      · rw [List.intercalate_cons_cons, hjoin, hc]
        rfl
    · refine ⟨c :: p, ps, by rw [hstep, Split.cons, if_neg hc], ?_, ?_⟩
      · intro q hq
        rcases List.mem_cons.mp hq with rfl | hq
        · obtain ⟨hmark, hsub⟩ := hpieces p List.mem_cons_self
          exact ⟨by simp [hmark, Ne.symm hc], List.cons_subset_cons c hsub⟩
        · obtain ⟨hmark, hsub⟩ := hpieces q (List.mem_cons_of_mem p hq)
          exact ⟨hmark, List.subset_cons_of_subset c hsub⟩
      · rw [← hjoin]
        cases ps with
        | nil => simp
        | cons q ps =>
          rw [List.intercalate_cons_cons, List.intercalate_cons_cons]
          rfl

/-- Where lines start, the first of which is at `k`: each ends with a newline,
or with the text. -/
def lineOffsets (k : Nat) : List (List Char) → List Nat
  | [] => []
  | line :: lines => k :: lineOffsets (k + (encode line).length + 1) lines

theorem length_lineOffsets (k : Nat) (lines : List (List Char)) :
    (lineOffsets k lines).length = lines.length := by
  induction lines generalizing k with
  | nil => rfl
  | cons line lines ih => rw [lineOffsets, List.length_cons, ih, List.length_cons]

/-- **The table of a text holds the starts of its lines.** -/
theorem starts_eq_lineOffsets (k : Nat) (line : List Char) (lines : List (List Char))
    (hlines : ∀ l ∈ line :: lines, '\n' ∉ l) :
    k :: startsAfter k (encode (['\n'].intercalate (line :: lines))) =
      lineOffsets k (line :: lines) := by
  have hline (k : Nat) : startsAfter k (encode line) = [] :=
    startsAfter_eq_nil (newline_mem_encode.not.mpr (hlines line List.mem_cons_self)) k
  induction lines generalizing line k with
  | nil => rw [List.intercalate_singleton, hline, lineOffsets, lineOffsets]
  | cons next lines ih =>
    have hnext : ∀ l ∈ next :: lines, '\n' ∉ l := fun l hl =>
      hlines l (List.mem_cons_of_mem line hl)
    have hrest := ih (k + (encode line).length + 1) next hnext fun k =>
      startsAfter_eq_nil (newline_mem_encode.not.mpr (hnext next List.mem_cons_self)) k
    have hencode (cs : List Char) : encode (line ++ ['\n'] ++ cs) =
        encode line ++ newline :: encode cs := by
      rw [encode, List.append_assoc, List.flatMap_append]
      rfl
    rw [List.intercalate_cons_cons, hencode, startsAfter_append, hline, List.nil_append,
      startsAfter_cons, if_pos rfl, List.singleton_append, hrest]
    rfl

/-- Each line is a part of the text that starts at its entry and stops at the
next, or with the text. -/
theorem lineOffsets_slice (k : Nat) (lines : List (List Char)) {i : Nat} {l : List Char}
    (hl : lines[i]? = some l) :
    ∃ before line after, ['\n'].intercalate lines = before ++ line ++ after ∧
      (lineOffsets k lines)[i]? = some (k + (encode before).length) ∧
      (lineOffsets k lines)[i + 1]?.getD (k + (encode (['\n'].intercalate lines)).length) =
        k + (encode (before ++ line)).length ∧
      (line = l ∨ line = l ++ ['\n']) := by
  have hnewline : (encode ['\n']).length = 1 := rfl
  induction lines generalizing k i with
  | nil => cases hl
  | cons first lines ih =>
    cases lines with
    | nil =>
      cases i with
      | zero =>
        cases hl
        exact ⟨[], l, [], by simp, rfl, by simp [lineOffsets], .inl rfl⟩
      | succ i => cases hl
    | cons next lines =>
      rw [List.intercalate_cons_cons]
      cases i with
      | zero =>
        cases hl
        refine ⟨[], l ++ ['\n'], ['\n'].intercalate (next :: lines), rfl, rfl, ?_, .inr rfl⟩
        rw [List.nil_append, length_encode_append l, hnewline]
        rfl
      | succ i =>
        obtain ⟨before, line, after, htext, hstart, hstop, hline⟩ :=
          ih (k + (encode first).length + 1) (i := i) hl
        refine ⟨first ++ ['\n'] ++ before, line, after, by rw [htext]; simp, ?_, ?_, hline⟩
        · rw [lineOffsets, List.getElem?_cons_succ, hstart]
          simp only [length_encode_append, hnewline]
          congr 1
          omega
        · simp only [length_encode_append, hnewline] at hstop ⊢
          rw [lineOffsets, List.getElem?_cons_succ, ← Nat.add_assoc, ← Nat.add_assoc, hstop]
          omega

/-- What ends a line is taken away from it. -/
theorem trimReturns_eq {l line : List Char} (hl : '\n' ∉ l)
    (hline : line = l ∨ line = l ++ ['\n']) :
    trimReturns l = line.rdropWhile fun c => c = '\n' ∨ c = '\r' := by
  have hdrop (cs : List Char) (hcs : '\n' ∉ cs) :
      cs.dropWhile (· = '\r') = cs.dropWhile fun c => c = '\n' ∨ c = '\r' := by
    induction cs with
    | nil => rfl
    | cons c cs ih =>
      rw [List.mem_cons, not_or] at hcs
      simp only [List.dropWhile_cons, Ne.symm hcs.1, false_or, ih hcs.2]
  have htrim : trimReturns l = l.rdropWhile fun c => c = '\n' ∨ c = '\r' := by
    rw [trimReturns, hdrop _ (by simpa using hl), List.rdropWhile]
  rcases hline with rfl | rfl
  · exact htrim
  · rw [htrim, List.rdropWhile_concat_pos _ _ _ (by simp)]

theorem trimReturns_eq_self {l : List Char} (hl : '\r' ∉ l) : trimReturns l = l := by
  refine List.rdropWhile_eq_self_iff.mpr fun hne hlast => hl ?_
  rw [← of_decide_eq_true hlast]
  exact List.getLast_mem hne

/-! ## Round trips -/

/-- The text of a line: the part of the text between its entry in the table and
the next, or the end of the text, without what ends it. -/
def IsLine (f : SourceFile) (i : Nat) (text : String) : Prop :=
  ∃ before line after, f.text.toList = before ++ line ++ after ∧
    f.lineStarts[i]? = some (encode before).length.toUInt32 ∧
    f.lineStarts[i + 1]?.getD f.size = (encode (before ++ line)).length.toUInt32 ∧
    text = String.ofList (line.rdropWhile fun c => c = '\n' ∨ c = '\r')

/-- The lines of a text are its pieces, one for each entry of the table. -/
theorem exists_lines (f : SourceFile) :
    ∃ lines : List (List Char), lines.length = f.lineStarts.length ∧
      (∀ n, f.lineText? n = if n = 0 then none else lines[n.toNat - 1]?.map
        (String.ofList ∘ trimReturns)) ∧
      (∀ l ∈ lines, l ⊆ f.text.toList) ∧ ['\n'].intercalate lines = f.text.toList ∧
      ∀ (i : Nat) (l : List Char), lines[i]? = some l →
        f.IsLine i (String.ofList (trimReturns l)) := by
  obtain ⟨first, rest, hsplit, hlines, hjoin⟩ := split_spec '\n' f.text.toList
  have hstarts : f.lineStarts = (lineOffsets 0 (first :: rest)).map Nat.toUInt32 := by
    rw [lineStarts_eq, bytes_eq, ← hjoin, starts_eq_lineOffsets 0 first rest fun l hl =>
      (hlines l hl).1]
  refine ⟨first :: rest, ?_, ?_, fun l hl => (hlines l hl).2, hjoin, ?_⟩
  · rw [hstarts, List.length_map, length_lineOffsets]
  · intro n
    rw [lineText?, hsplit, pred]
    by_cases hn : n = 0
    · rw [if_pos hn, if_pos hn]
    · have hle : 1 ≤ n :=
        UInt32.le_iff_toNat_le.mpr (Nat.pos_of_ne_zero (UInt32.toNat_inj.not.mpr hn))
      rw [if_neg hn, if_neg hn, if_neg hn, UInt32.toNat_sub_of_le _ _ hle]
      rfl
  · intro i l hl
    obtain ⟨before, line, after, htext, hstart, hstop, hline⟩ := lineOffsets_slice 0 _ hl
    refine ⟨before, line, after, hjoin ▸ htext, ?_, ?_, ?_⟩
    · rw [hstarts, List.getElem?_map, hstart, Nat.zero_add]
      rfl
    · rw [hjoin, ← bytes_eq, Nat.zero_add, Nat.zero_add] at hstop
      rw [hstarts, List.getElem?_map, ← hstop, size, Option.getD_map]
    · rw [trimReturns_eq (hlines l (List.mem_of_getElem? hl)).1 hline]

theorem isSome_lineText?_iff (f : SourceFile) (n : UInt32) :
    (f.lineText? n).isSome ↔ n ≠ 0 ∧ n.toNat ≤ f.lineStarts.length := by
  obtain ⟨lines, hlength, htext, -⟩ := f.exists_lines
  rw [htext]
  by_cases hn : n = 0
  · simp [hn]
  · have hpos : n.toNat ≠ 0 := UInt32.toNat_inj.not.mpr hn
    rw [if_neg hn, Option.isSome_map, Option.isSome_iff_ne_none, ne_eq, List.getElem?_eq_none_iff]
    exact ⟨fun h => ⟨hn, by omega⟩, fun h => by omega⟩

/-- The place of an offset, or of the end if the text is shorter, and the way
back from it. -/
structure RoundTrips (f : SourceFile) (o : UInt32) : Prop where
  line : (f.lineColumn o).1.toNat = f.newlinesBefore o + 1
  column : (f.lineColumn o).2.toNat = f.bytesSince o + 1
  offset : f.offset (f.lineColumn o).1 (f.lineColumn o).2 = min o f.size
  text : (f.lineText? (f.lineColumn o).1).isSome

/-- The end of a text that is as long as 32 bits allow, and is one line, or has
only empty lines. -/
def AtLimit (f : SourceFile) (o : UInt32) : Prop :=
  f.bytes.length = 2 ^ 32 - 1 ∧ f.bytes.length ≤ o.toNat ∧
    (newline ∉ f.bytes ∨ ∀ b ∈ f.bytes, b = newline)

theorem not_atLimit_iff {f : SourceFile} (hf : f.bytes.length < 2 ^ 32) (o : UInt32) :
    ¬f.AtLimit o ↔ f.newlinesBefore o + 1 < 2 ^ 32 ∧ f.bytesSince o + 1 < 2 ^ 32 := by
  have hupTo : (f.upTo o).length = min o.toNat f.bytes.length := List.length_take
  have hnewlines : f.newlinesBefore o ≤ (f.upTo o).length := List.count_le_length
  have hsince : f.bytesSince o ≤ (f.upTo o).length := length_lastLine_le _
  have hall (ho : f.bytes.length ≤ o.toNat) :
      f.newlinesBefore o = f.bytes.count newline ∧ f.bytesSince o = (lastLine f.bytes).length := by
    rw [newlinesBefore, bytesSince, upTo, List.take_of_length_le ho]
    exact ⟨rfl, rfl⟩
  -- only all the bytes there can be are as many as that, and only if they are all of one kind
  have hcount := List.count_eq_length (a := newline) (l := f.bytes)
  have hlast : (lastLine f.bytes).length = f.bytes.length ↔ newline ∉ f.bytes :=
    length_lastLine_eq_iff
  constructor
  · intro hlimit
    by_contra hlarge
    have ho : f.bytes.length ≤ o.toNat := by omega
    obtain ⟨hline, hcolumn⟩ := hall ho
    refine hlimit ⟨by omega, ho, ?_⟩
    by_cases hlines : f.bytes.count newline = f.bytes.length
    · exact .inr fun b hb => (hcount.mp hlines b hb).symm
    · exact .inl (hlast.mp (by omega))
  · rintro ⟨hline, hcolumn⟩ ⟨hlength, ho, hnone | hevery⟩
    · have hsize := hlast.mpr hnone
      have hsame := (hall ho).2
      omega
    · have hsize := hcount.mpr fun b hb => (hevery b hb).symm
      have hsame := (hall ho).1
      omega

theorem roundTrips_iff {f : SourceFile} (hf : f.bytes.length < 2 ^ 32) (o : UInt32) :
    f.RoundTrips o ↔ ¬f.AtLimit o := by
  rw [not_atLimit_iff hf]
  constructor
  · intro ⟨hline, hcolumn, _, _⟩
    exact ⟨hline ▸ UInt32.toNat_lt _, hcolumn ▸ UInt32.toNat_lt _⟩
  · rintro ⟨hnewlines, hsince⟩
    have hline : (f.lineColumn o).1.toNat = f.newlinesBefore o + 1 := by
      rw [lineColumn_eq hf, toNat_succ hnewlines]
    have hcolumn : (f.lineColumn o).2.toNat = f.bytesSince o + 1 := by
      rw [lineColumn_eq hf, toNat_succ hsince]
    refine ⟨hline, hcolumn, offset_lineColumn hf hnewlines hsince,
      (isSome_lineText?_iff f _).mpr ⟨?_, ?_⟩⟩
    · intro hzero
      rw [hzero] at hline
      cases hline
    · rw [hline]
      exact (List.getElem?_eq_some_iff.mp (getElem?_lineStarts hf o).1).1

/-- **Places in a text and offsets are turned into each other.** The entries of
the line table ascend, and no index is beyond its end: not that of the line of
an offset, after which a search for the offset ends, and not that of any line.
Each offset has the line and column that the newlines before it give, and comes
back from them, except at the limit. There is a text for each line that the
table has, and it is what stands between two entries; lines that hold no
carriage returns, joined by newlines, are the text. -/
theorem positions_round_trip (f : SourceFile) (hf : f.bytes.length < 2 ^ 32) :
    f.lineStarts.Pairwise (· < ·) ∧
    (∀ o, f.lineStarts[f.newlinesBefore o]? = some (f.lineStart o) ∧
      ∀ (i : Nat) (s : UInt32), f.lineStarts[i]? = some s →
        (i ≤ f.newlinesBefore o ↔ s ≤ min o f.size)) ∧
    (∀ line column, ∃ start, f.lineStarts[min (pred line).toNat (f.lineStarts.length - 1)]? =
      some start ∧
      f.offset line column = min (start + pred column) f.size) ∧
    (∀ o, f.RoundTrips o ↔ ¬f.AtLimit o) ∧
    (∀ line, (f.lineText? line).isSome ↔ line ≠ 0 ∧ line.toNat ≤ f.lineStarts.length) ∧
    (∀ line text, f.lineText? line = some text → f.IsLine (line.toNat - 1) text) ∧
    ('\r' ∉ f.text.toList → ∃ lines, lines.length = f.lineStarts.length ∧
      (∀ line ≠ 0, f.lineText? line = lines[line.toNat - 1]?) ∧ "\n".intercalate lines =
        f.text) := by
  obtain ⟨lines, hlength, htext, hsub, hjoin, hline⟩ := f.exists_lines
  refine ⟨pairwise_lineStarts hf, getElem?_lineStarts hf, f.offset_eq, roundTrips_iff hf,
    f.isSome_lineText?_iff, ?_, ?_⟩
  · intro n text hn
    rw [htext] at hn
    split at hn
    · cases hn
    · obtain ⟨l, hl, rfl⟩ := Option.map_eq_some_iff.mp hn
      exact hline _ l hl
  · intro hreturn
    refine ⟨lines.map String.ofList, by rw [List.length_map, hlength], ?_, ?_⟩
    · intro n hn
      rw [htext, if_neg hn, List.getElem?_map]
      refine Option.map_congr fun l hl => ?_
      have hl : '\r' ∉ l := fun h => hreturn (hsub l (List.mem_of_getElem? hl) h)
      rw [Function.comp_apply, trimReturns_eq_self hl]
    · have hid : String.toList ∘ String.ofList = id := funext fun _ => String.toList_ofList
      rw [← String.toList_inj, String.toList_intercalate, List.map_map, hid, List.map_id, ← hjoin]
      rfl

namespace Greeting

/-- Three lines, two of them empty, and a letter of two bytes. -/
def file : SourceFile where
  path := "Greeting.java"
  text := String.ofList ['h', 'é', '\n', '\n']

theorem bytes_file : file.bytes = [104, 195, 169, 10, 10] := by
  rw [bytes_eq, file, String.toList_ofList]
  rfl

theorem lineStarts_file : file.lineStarts = [0, 4, 5] := by
  rw [lineStarts, bytes_file]
  rfl

end Greeting

theorem positions_round_trip_greeting :
    Greeting.file.bytes.length < 2 ^ 32 ∧ (∀ o, Greeting.file.RoundTrips o) ∧
    (Greeting.file.lineText? 3).isSome ∧ Greeting.file.lineText? 4 = none := by
  have hf : Greeting.file.bytes.length < 2 ^ 32 := by
    rw [Greeting.bytes_file]
    decide
  obtain ⟨-, -, -, hround, hsome, -⟩ := positions_round_trip Greeting.file hf
  refine ⟨hf, fun o => (hround o).mpr fun hlimit => ?_, (hsome 3).mpr ?_, ?_⟩
  · have hlength := hlimit.1
    rw [Greeting.bytes_file] at hlength
    cases hlength
  · rw [Greeting.lineStarts_file]
    decide
  · rw [← Option.not_isSome_iff_eq_none, hsome 4, Greeting.lineStarts_file]
    decide

namespace SingleLine

/-- A text of one line, as long as asked for. -/
def file (n : Nat) : SourceFile where
  path := "Single.java"
  text := String.ofList (List.replicate n 'a')

theorem bytes_file (n : Nat) : (file n).bytes = List.replicate n 97 := by
  rw [bytes_eq, file, String.toList_ofList]
  induction n with
  | zero => rfl
  | succ n ih =>
    rw [List.replicate_succ, List.replicate_succ, ← ih]
    rfl

theorem length_bytes_file (n : Nat) : (file n).bytes.length = n := by
  rw [bytes_file, List.length_replicate]

theorem newline_notMem_bytes (n : Nat) : newline ∉ (file n).bytes := by
  rw [bytes_file]
  intro hmem
  cases List.eq_of_mem_replicate hmem

/-- The end of the line is on line 1, in the column after all its bytes. -/
theorem lineColumn_end {n : Nat} (hn : n < 2 ^ 32) :
    (file n).lineColumn n.toUInt32 = (1, (n + 1).toUInt32) := by
  have hf : (file n).bytes.length < 2 ^ 32 := (length_bytes_file n).trans_lt hn
  have hupTo : (file n).upTo n.toUInt32 = (file n).bytes := by
    refine List.take_of_length_le ?_
    rw [length_bytes_file, UInt32.toNat_ofNat_of_lt' hn]
  rw [lineColumn_eq hf, newlinesBefore, bytesSince, hupTo,
    List.count_eq_zero.mpr (newline_notMem_bytes n),
    length_lastLine_eq_iff.mpr (newline_notMem_bytes n), length_bytes_file]
  rfl

theorem offset_zero (n : Nat) : (file n).offset 1 0 = 0 := by
  obtain ⟨start, hstart, hoffset⟩ := offset_eq (file n) 1 0
  have hindex : min (pred 1).toNat ((file n).lineStarts.length - 1) = 0 := Nat.zero_min _
  rw [hindex] at hstart
  cases hstart
  rw [hoffset, ← UInt32.toNat_inj, UInt32.toNat_min]
  exact Nat.zero_min _

end SingleLine

open SingleLine in
/-- **The end of the longest line is not found again.** The text is shorter than
2 ^ 32 bytes, but the column after all of them is 2 ^ 32, which wraps around to
0, and column 0 leads back to the start. -/
theorem longest_line_lost :
    (file (2 ^ 32 - 1)).bytes.length < 2 ^ 32 ∧ min 0xffffffff (file (2 ^ 32 - 1)).size =
      0xffffffff ∧
    (file (2 ^ 32 - 1)).lineColumn 0xffffffff = (1, 0) ∧ (file (2 ^ 32 - 1)).offset 1 0 = 0 ∧
    ¬(file (2 ^ 32 - 1)).RoundTrips 0xffffffff := by
  have hlength := length_bytes_file (2 ^ 32 - 1)
  have hf : (file (2 ^ 32 - 1)).bytes.length < 2 ^ 32 := hlength.trans_lt (by decide)
  refine ⟨hf, ?_, lineColumn_end (by decide), offset_zero _, ?_⟩
  · rw [size, hlength]
    rfl
  · rw [roundTrips_iff hf, not_not]
    exact ⟨hlength, hlength.le, .inl (newline_notMem_bytes _)⟩

end SourceFile

end Closures
