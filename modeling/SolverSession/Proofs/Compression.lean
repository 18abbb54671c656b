import SolverSession.Proofs.MergedTriangle

/-!
# Compression and expansion

Compression keeps the values that are not zeros, each with its index, and expansion writes them into
zeros from left to right. So a dense list comes back from its compression without the signs of its
zeros, a compressed vector comes back from its expansion, and where indices are given and repeat,
the last value that is not a zero is the one that is seen.
-/
namespace SolverSession

variable {α : Type}

namespace SparseVec

/-! ## Writing from left to right -/

theorem toDense_getElem?_last [Zero α] (v : SparseVec α) {n k : Nat} (hk : k < n) :
    (v.toDense n)[k]? = some ((v.entries.reverse.lookup k).getD 0) := by
  rw [toDense, getElem?_foldl_write_last, List.getElem?_replicate_of_lt hk, Option.map_some]

theorem foldl_write_filter (entries : List (Nat × α)) {dense : List α} {n : Nat}
    (hdense : dense.length = n) :
    (entries.filter fun e => e.1 < n).foldl write dense = entries.foldl write dense := by
  induction entries generalizing dense with
  | nil => rfl
  | cons e rest ih =>
    rw [List.filter_cons, List.foldl_cons]
    by_cases he : e.1 < n
    · rw [if_pos (decide_eq_true he), List.foldl_cons]
      exact ih (List.length_set.trans hdense)
    · have hout : write dense e = dense := List.set_eq_of_length_le (hdense ▸ Nat.not_lt.mp he)
      rw [if_neg (by simpa using he), hout]
      exact ih hdense

theorem toDense_filter [Zero α] (v : SparseVec α) (n : Nat) :
    (ofEntries (v.entries.filter fun e => e.1 < n)).toDense n = v.toDense n := by
  rw [toDense, entries_ofEntries, toDense]
  exact foldl_write_filter v.entries List.length_replicate

variable [Zero α] [BEq α]

/-! ## Compression inverts expansion -/

theorem lookup_nonzeros (position : Nat) (values : List α) (i : Nat) :
    (nonzeros position values []).lookup (position+i) = values[i]?.filter fun x => !(x == 0) := by
  induction values generalizing position i with
  | nil => rfl
  | cons x rest ih =>
    have hbehind : ∀ j, j ≤ position → (nonzeros (position+1) rest []).lookup j = none := by
      intro j hj
      rw [lookup_eq_none_iff]
      intro hmem
      obtain ⟨e,he,rfl⟩ := List.mem_map.mp hmem
      exact absurd (mem_nonzeros he).1 (by omega)
    simp only [nonzeros, List.tail_nil, List.headD_nil]
    cases i with
    | zero =>
      by_cases hx : (x == 0) = true
      · simp [hx, hbehind, Option.filter]
      · simp [hx, Option.filter]
    | succ i =>
      have hne : position+(i+1) ≠ position := by omega
      have hrest := ih (position+1) i
      rw [show position+1+i = position+(i+1) by omega] at hrest
      split
      · exact hrest
      · rw [lookup_cons_of_ne hne]
        exact hrest

theorem get?_ofDense (values : List α) (i : Nat) :
    (ofDense values).get? i = values[i]?.filter fun x => !(x == 0) := by
  have hentries : (ofDense values).entries = nonzeros 0 values [] := entries_ofEntries _
  rw [get?, hentries]
  simpa using lookup_nonzeros 0 values i

theorem Compressed.fault? {v : SparseVec α} {n : Nat} (h : v.Compressed n) : v.fault? n = none :=
  fault?_eq_none_iff.mpr ⟨h.parallel,h.below,h.increasing.imp Nat.ne_of_lt⟩

theorem Compressed.get?_nonzero {v : SparseVec α} {n i : Nat} {x : α} (h : v.Compressed n)
    (hx : v.get? i = some x) : (x == 0) = false := by
  obtain ⟨before,after,hsplit,-⟩ := List.lookup_eq_some_iff.mp hx
  have hmem : (i,x) ∈ v.entries := hsplit ▸ List.mem_append_right _ List.mem_cons_self
  exact h.nonzero x (List.of_mem_zip hmem).2

theorem Compressed.get?_eq_none {v : SparseVec α} {n i : Nat} (h : v.Compressed n) (hi : n ≤ i) :
    v.get? i = none := by
  rw [get?, lookup_eq_none_iff, entries_keys h.parallel]
  exact fun hmem => absurd (h.below i hmem) (Nat.not_lt.mpr hi)

theorem ofDense_toDense (hzero : ((0 : α) == 0) = true) {v : SparseVec α} {n : Nat}
    (h : v.Compressed n) : ofDense (v.toDense n) = v := by
  have hdense := ofDense_compressed (v.toDense n)
  refine ext_get? hdense.parallel h.parallel hdense.increasing h.increasing fun i => ?_
  rw [get?_ofDense]
  by_cases hi : i < n
  · rw [toDense_getElem? h.fault? hi]
    cases hx : v.get? i with
    | none => simp [Option.filter, hzero]
    | some x => simp [Option.filter, h.get?_nonzero hx]
  · have hout : (v.toDense n)[i]? = none := by
      rw [List.getElem?_eq_none_iff, toDense_length]
      exact Nat.not_lt.mp hi
    rw [hout, h.get?_eq_none (Nat.not_lt.mp hi)]
    rfl

/-! ## Given indices -/

/-- The index of the value at position `p`: the one given for it, and the position itself where the
given indices have run out. -/
def indexAt (given : List Nat) (p : Nat) : Nat := given[p]?.getD p

theorem nonzeros_eq (position : Nat) (values : List α) (given : List Nat) :
    nonzeros position values given = ((values.zipIdx position).filter fun e => !(e.1 == 0)).map
      fun e => (given[e.2-position]?.getD e.2,e.1) := by
  induction values generalizing position given with
  | nil => rfl
  | cons x rest ih =>
    have hrest : ((rest.zipIdx (position+1)).filter fun e => !(e.1 == 0)).map
        (fun e => (given.tail[e.2-(position+1)]?.getD e.2,e.1)) =
        ((rest.zipIdx (position+1)).filter fun e => !(e.1 == 0)).map
          fun e => (given[e.2-position]?.getD e.2,e.1) := by
      refine List.map_congr_left fun e he => ?_
      have hlow := List.le_snd_of_mem_zipIdx (List.mem_filter.mp he).1
      rw [List.getElem?_tail, show e.2-(position+1)+1 = e.2-position by omega]
    have hhead : given.headD position = given[0]?.getD position := by
      cases given <;> rfl
    simp only [nonzeros, List.zipIdx_cons, List.filter_cons, ih, hrest, hhead]
    split
    case isTrue hx => simp [hx]
    case isFalse hx => simp [hx]

theorem entries_compress (values : List α) (given : List Nat) :
    (compress values given).entries = (values.zipIdx.filter fun e => !(e.1 == 0)).map
      fun e => (indexAt given e.2,e.1) := by
  rw [compress, entries_ofEntries, nonzeros_eq]
  rfl

end SparseVec

/-! ## Doubles -/

theorem beq_zero_eq_false_iff {x : Float} : (x == 0) = false ↔ x ≠ 0 ∧ x ≠ negativeZero := by
  rw [← Bool.not_eq_true, beq_zero_iff, not_or]

namespace SparseVec

theorem toDense_ofDense_float (values : List Float) :
    (ofDense values).toDense values.length = values.map plainZero := by
  rw [toDense_ofDense]
  exact List.map_congr_left fun x _ => ite_beq_zero x

/-- Compressing a dense list leaves parallel lists in order and without zeros, which expand to the
same numbers again, but for what is equal to zero: of doubles the sign of a zero. Every vector of
this kind comes back from its expansion to any length that reaches beyond its indices. -/
theorem compression_invertible :
    (∀ {β : Type} [Zero β] [BEq β], (∀ values : List β, (ofDense values).Compressed values.length ∧
        (ofDense values).toDense values.length = values.map fun x => if x == 0 then 0 else x) ∧
      (((0 : β) == 0) = true →
        ∀ (v : SparseVec β) (n : Nat), v.Compressed n → ofDense (v.toDense n) = v)) ∧
    (∀ values : List Float, (ofDense values).Compressed values.length ∧
      (ofDense values).toDense values.length = values.map plainZero) ∧
    ∀ (v : SparseVec Float) (n : Nat), v.Compressed n → ofDense (v.toDense n) = v := by
  refine ⟨?_,?_,?_⟩
  · intro β _ _
    exact ⟨fun values => ⟨ofDense_compressed values,toDense_ofDense values⟩,
      fun hzero _ _ h => ofDense_toDense hzero h⟩
  · exact fun values => ⟨ofDense_compressed values,toDense_ofDense_float values⟩
  · exact fun _ _ h => ofDense_toDense (by decide) h

/-- Infinities and what is not a number come back; the signs of zeros do not. -/
theorem compression_invertible_special_values :
    let notNumber := Float.ofBits 0x7ff8000000000000
    let v : SparseVec Float := ⟨[1,4],[notNumber,unboundedBelow]⟩
    let w : SparseVec Int := ⟨[0,3],[5,-2]⟩
    (ofDense [unboundedAbove,negativeZero,notNumber]).toDense 3 = [unboundedAbove,0,notNumber] ∧
      v.Compressed 6 ∧ ofDense (v.toDense 6) = v ∧ w.Compressed 4 ∧ ofDense (w.toDense 4) = w := by
  intro notNumber v w
  obtain ⟨hany,hexpand,hcompress⟩ := compression_invertible
  have hplain : [unboundedAbove,negativeZero,notNumber].map plainZero =
      [unboundedAbove,0,notNumber] := by decide
  have hv : v.Compressed 6 := ⟨rfl,by decide,by decide,by decide⟩
  have hw : w.Compressed 4 := ⟨rfl,by decide,by decide,by decide⟩
  exact ⟨(hexpand _).2.trans hplain,hv,hcompress v 6 hv,hw,hany.2 rfl w 4 hw⟩

/-- The values that are not zeros, with their positions. -/
def kept (values : List Float) : List (Float × Nat) :=
  values.zipIdx.filter fun e => e.1 ≠ 0 ∧ e.1 ≠ negativeZero

theorem entries_eq_kept (values : List Float) (given : List Nat) :
    (compress values given).entries = (kept values).map fun e => (indexAt given e.2,e.1) := by
  rw [entries_compress, kept]
  refine congrArg (List.map _) (List.filter_congr fun e _ => ?_)
  rw [Bool.eq_iff_iff, decide_eq_true_iff, Bool.not_eq_true', beq_zero_eq_false_iff]

theorem kept_increasing (values : List Float) : (kept values).Pairwise fun a b => a.2 < b.2 := by
  have hpositions : (values.zipIdx.map (·.2)).Pairwise (· < ·) := by
    rw [List.zipIdx_map_snd]
    exact List.pairwise_lt_range'
  exact (List.pairwise_map.mp hpositions).filter _

/-- Position `p` holds `x`, which is not a zero, for index `k`. -/
structure Places (values : List Float) (given : List Nat) (k p : Nat) (x : Float) : Prop where
  value : values[p]? = some x
  nonzero : x ≠ 0 ∧ x ≠ negativeZero
  index : indexAt given p = k

variable {values : List Float} {given : List Nat} {k p : Nat} {x : Float}

theorem places_iff_mem_kept :
    Places values given k p x ↔ (x,p) ∈ kept values ∧ indexAt given p = k := by
  rw [kept, List.mem_filter, List.mk_mem_zipIdx_iff_getElem?, decide_eq_true_iff]
  exact ⟨fun h => ⟨⟨h.value,h.nonzero⟩,h.index⟩,fun h => ⟨h.1.1,h.1.2,h.2⟩⟩

theorem lookup_of_last (h : Places values given k p x)
    (hlast : ∀ q y, p < q → ¬Places values given k q y) :
    (compress values given).entries.reverse.lookup k = some x := by
  obtain ⟨hmem,rfl⟩ := places_iff_mem_kept.mp h
  obtain ⟨before,after,hsplit⟩ := List.append_of_mem hmem
  have hbehind : ∀ e ∈ after, p < e.2 := by
    have hincreasing := kept_increasing values
    rw [hsplit] at hincreasing
    exact (List.pairwise_cons.mp (List.pairwise_append.mp hincreasing).2.1).1
  rw [entries_eq_kept, hsplit, List.lookup_eq_some_iff]
  refine ⟨(after.map fun e => (indexAt given e.2,e.1)).reverse,
    (before.map fun e => (indexAt given e.2,e.1)).reverse,by simp,fun e he => ?_⟩
  obtain ⟨⟨y,q⟩,hq,rfl⟩ := List.mem_map.mp (List.mem_reverse.mp he)
  have hkept : (y,q) ∈ kept values :=
    hsplit ▸ List.mem_append_right _ (List.mem_cons_of_mem _ hq)
  exact bne_iff_ne.mpr fun heq =>
    hlast q y (hbehind _ hq) (places_iff_mem_kept.mpr ⟨hkept,heq.symm⟩)

theorem lookup_of_unplaced (h : ∀ p x, ¬Places values given k p x) :
    (compress values given).entries.reverse.lookup k = none := by
  rw [lookup_eq_none_iff, entries_eq_kept, List.map_reverse, List.mem_reverse, List.map_map]
  intro hmem
  obtain ⟨⟨x,p⟩,hp,heq⟩ := List.mem_map.mp hmem
  exact h p x (places_iff_mem_kept.mpr ⟨hp,heq⟩)

/-- A value takes the index given for its position, or the position itself if none is given; zeros
are left out and the others keep their order. Expanded, every index shows the last value that is not
a zero and took this index, and 0 if there is none; values whose index is out of reach are as good
as absent. For pairs the index of every value is its own. -/
theorem last_nonzero_wins (values : List Float) (given : Option (List Nat)) :
    let row := compress values (given.getD [])
    let index := indexAt (given.getD [])
    let places := Places values (given.getD [])
    row.indices = (kept values).map (fun e => index e.2) ∧
    row.values = (kept values).map (·.1) ∧
    (∀ n, (row.toDense n).length = n ∧
      (ofEntries (row.entries.filter fun e => e.1 < n)).toDense n = row.toDense n ∧
      ∀ k < n, (∀ p x, places k p x → (∀ q y, p < q → ¬places k q y) →
          (row.toDense n)[k]? = some x) ∧
        ((∀ p x, ¬places k p x) → (row.toDense n)[k]? = some 0)) ∧
    ∀ pairs : List (Nat × Float),
      ofPairs pairs = compress (pairs.map (·.2)) ((some (pairs.map (·.1))).getD []) ∧
      ∀ p pair, pairs[p]? = some pair → indexAt (pairs.map (·.1)) p = pair.1 := by
  intro row index places
  have hentries := entries_eq_kept values (given.getD [])
  have hparallel : row.indices.length = row.values.length := by
    simp [row, compress, ofEntries]
  refine ⟨?_,?_,fun n => ⟨toDense_length row n,toDense_filter row n,fun k hk => ⟨?_,?_⟩⟩,
    fun pairs => ⟨rfl,?_⟩⟩
  · rw [← entries_keys hparallel, hentries, List.map_map]
    rfl
  · rw [← List.map_snd_zip (Nat.le_of_eq hparallel.symm)]
    exact (congrArg (List.map Prod.snd) hentries).trans List.map_map
  · intro p x hx hlast
    rw [toDense_getElem?_last row hk, lookup_of_last hx hlast]
    rfl
  · intro hnone
    rw [toDense_getElem?_last row hk, lookup_of_unplaced hnone]
    rfl
  · intro p pair hpair
    rw [indexAt, List.getElem?_map, hpair]
    rfl

/-- A zero for an index does not erase the value before it. -/
theorem last_nonzero_wins_zero_later :
    let values := [unboundedBelow,unboundedAbove,negativeZero,unboundedBelow]
    ((compress values [3,3,3,9]).toDense 4)[3]? = some unboundedAbove := by
  intro values
  obtain ⟨-,-,hdense,-⟩ := last_nonzero_wins values (some [3,3,3,9])
  refine ((hdense 4).2.2 3 (by decide)).1 1 unboundedAbove ⟨rfl,by decide,rfl⟩ fun q y hq h => ?_
  match q with
  | 2 => exact h.nonzero.2 (Option.some.inj h.value).symm
  | 3 => exact absurd h.index (by decide)
  | q+4 => exact absurd h.value (by simp [values])

end SparseVec
end SolverSession
