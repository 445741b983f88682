import Mathlib.Algebra.Group.Int.Defs
import Mathlib.Algebra.Group.Nat.Defs
import Mathlib.Data.Int.Order.Basic
import BurstIoT.KException
import BurstIoT.Library.MachineInt

/-!
# Splitting the packets of a file into tasks

`RawCvtoPktDataset` splits the packets of a file with `splitVector`, starts one `StoreKPackets` task
for each chunk, and makes up for the tasks missing to `STORE_MULTITHREAD` with calls of `done()`.

`splitVector` runs over the vector in a `std::size_t`, and keeps the end of a chunk in an
`int`.  Its loop need not end, so it is run with fuel, and `none` means that the fuel has run out.
`accounted_iff` says for which numbers of packets all of this is as meant: at least nine, fewer than
`2 ^ 31`, and no more left over than a chunk holds.
-/

namespace BurstIoT

/-- `STORE_MULTITHREAD`. -/
def storeMultithread : ℕ := 10

namespace SplitVector

variable {α : Type}

/-- The loop of `splitVector` from index `i` on.  A chunk that ends before it starts, or past the
end, is undefined. -/
def splitFrom (vec : List α) (chunkSize : ℕ) : ℕ → ℕ → Option (Except Fault (List (List α)))
  | 0, _ => none
  | fuel + 1, i =>
    if i < vec.length then
      let next := (i + chunkSize) % 2 ^ 64
      let size := toInt (if next < vec.length then next else vec.length)
      if size < i ∨ (vec.length : ℤ) < size then some (.error .undefined)
      else (splitFrom vec chunkSize fuel next).map fun chunks =>
        chunks.map fun chunks => (vec.drop i).take (size.toNat - i) :: chunks
    else some (.ok [])

/-- `splitVector`. -/
def splitVector (vec : List α) (chunkSize fuel : ℕ) : Option (Except Fault (List (List α))) :=
  splitFrom vec chunkSize fuel 0

/-- The size of the chunks: `rawVec->size() / (STORE_MULTITHREAD - 1)`. -/
def chunkSize (n : ℕ) : ℕ :=
  n / (storeMultithread - 1)

/-- `splittedVec`: what `splitVector` makes of the packets of a file.  A step is at least one
packet, if there is one at all, so the fuel suffices. -/
def splitPackets (rawVec : List α) : Option (Except Fault (List (List α))) :=
  splitVector rawVec (chunkSize rawVec.length) (rawVec.length + 1)

/-- `STORE_MULTITHREAD - splittedVec.size()`, the number of `done()` calls of the reader, as a
`std::size_t`. -/
def fillers (k : ℕ) : ℕ :=
  (((storeMultithread : ℤ) - k) % 2 ^ 64).toNat

/-! ## The loop with a chunk size -/

/-- **A positive chunk size** splits a vector of fewer than `2 ^ 31` elements into chunks that
concatenate to it, as many as chunks of that size are needed. -/
theorem splitFrom_spec {vec : List α} (hlen : vec.length < 2 ^ 31) {c : ℕ} (hc : 0 < c)
    (hcle : c < 2 ^ 63) : ∀ (fuel i : ℕ), vec.length - i < fuel →
      ∃ chunks, splitFrom vec c fuel i = some (.ok chunks) ∧ chunks.flatten = vec.drop i ∧
        chunks.length = (vec.length - i + (c - 1)) / c
  | 0, _, hfuel => absurd hfuel (Nat.not_lt_zero _)
  | fuel + 1, i, hfuel => by
    rw [splitFrom]
    by_cases hi : i < vec.length
    · have hnext : (i + c) % 2 ^ 64 = i + c := Nat.mod_eq_of_lt (by omega)
      rw [if_pos hi, hnext]
      dsimp only
      by_cases hmore : i + c < vec.length
      · obtain ⟨chunks, hrun, hflat, hcount⟩ := splitFrom_spec hlen hc hcle fuel (i + c) (by omega)
        rw [if_pos hmore, toInt_of_lt (by omega), if_neg (by omega), hrun]
        refine ⟨_, rfl, ?_, ?_⟩
        · rw [List.flatten_cons, hflat, Int.toNat_natCast, Nat.add_sub_cancel_left,
            ← List.drop_drop, List.take_append_drop]
        · rw [List.length_cons, hcount, ← Nat.add_div_right _ hc]
          congr 1
          omega
      · obtain ⟨chunks, hrun, hflat, hcount⟩ := splitFrom_spec hlen hc hcle fuel (i + c) (by omega)
        have hover : vec.length - (i + c) = 0 := by omega
        rw [if_neg hmore, toInt_of_lt hlen, if_neg (by omega), hrun]
        refine ⟨_, rfl, ?_, ?_⟩
        · rw [List.flatten_cons, hflat, Int.toNat_natCast,
            List.drop_eq_nil_of_le (show vec.length ≤ i + c by omega), List.append_nil]
          exact List.take_of_length_le (List.length_drop ▸ Nat.le_refl _)
        · rw [List.length_cons, hcount, hover, Nat.zero_add, Nat.div_eq_of_lt (by omega)]
          symm
          rw [Nat.div_eq_iff hc]
          omega
    · rw [if_neg hi]
      refine ⟨[], rfl, ?_, ?_⟩
      · rw [List.drop_eq_nil_of_le (by omega)]
        rfl
      · have hover : vec.length - i = 0 := by omega
        rw [hover, Nat.zero_add, Nat.div_eq_of_lt (by omega)]
        rfl

/-- Where a vector is cut does not depend on its elements. -/
theorem splitFrom_map {β : Type} (f : α → β) (vec : List α) (c : ℕ) : ∀ fuel i : ℕ,
    splitFrom (vec.map f) c fuel i =
      (splitFrom vec c fuel i).map fun chunks => chunks.map (List.map (List.map f))
  | 0, _ => rfl
  | fuel + 1, i => by
    rw [splitFrom, splitFrom, List.length_map]
    dsimp only
    generalize toInt (if (i + c) % 2 ^ 64 < vec.length then (i + c) % 2 ^ 64 else vec.length) = size
    split_ifs
    · rfl
    · rw [splitFrom_map f vec c fuel]
      cases splitFrom vec c fuel ((i + c) % 2 ^ 64) with
      | none => rfl
      | some chunks =>
        cases chunks with
        | error fault => rfl
        | ok chunks => simp [Except.map, List.map_drop, List.map_take]
    · rfl

theorem splitVector_map {β : Type} (f : α → β) (vec : List α) (c fuel : ℕ) :
    splitVector (vec.map f) c fuel =
      (splitVector vec c fuel).map fun chunks => chunks.map (List.map (List.map f)) :=
  splitFrom_map f vec c fuel 0

/-- **With the chunk size zero the loop does not end.** -/
theorem splitFrom_zero {vec : List α} (hne : 0 < vec.length) :
    ∀ fuel : ℕ, splitFrom vec 0 fuel 0 = none
  | 0 => rfl
  | fuel + 1 => by
    have hnext : (0 + 0) % 2 ^ 64 = 0 := rfl
    have hsize : ¬ (toInt 0 < ((0 : ℕ) : ℤ) ∨ (vec.length : ℤ) < toInt 0) := by
      rw [toInt_of_lt (by decide)]
      omega
    rw [splitFrom, if_pos hne]
    dsimp only
    rw [hnext, if_pos hne, if_neg hsize, splitFrom_zero hne fuel]
    rfl

/-- Where a chunk is put before the result of the rest, the rest has returned. -/
theorem exists_rest_of_cons {result : Option (Except Fault (List (List α)))} {chunk : List α}
    {chunks : List (List α)}
    (h : (result.map fun chunks => chunks.map fun chunks => chunk :: chunks) =
      some (.ok chunks)) : ∃ rest, result = some (.ok rest) ∧ chunks = chunk :: rest := by
  obtain ⟨chunks', hrun, heq⟩ := Option.map_eq_some_iff.mp h
  cases chunks' with
  | error fault => cases heq
  | ok rest => exact ⟨rest, hrun, (Except.ok.inj heq).symm⟩

/-- Past the end of the vector there are no more chunks. -/
theorem eq_nil_of_length_le {vec : List α} {c fuel i : ℕ} {chunks : List (List α)}
    (hi : vec.length ≤ i) (h : splitFrom vec c fuel i = some (.ok chunks)) : chunks = [] := by
  cases fuel with
  | zero => cases h
  | succ fuel =>
    rw [splitFrom, if_neg (by omega)] at h
    exact (Except.ok.inj (Option.some_inj.mp h)).symm

/-- **Where the chunks are**: none is empty or too long, and each starts behind full ones. -/
theorem splitFrom_chunks {vec : List α} (hlen : vec.length < 2 ^ 31) {c : ℕ} (hc : 0 < c)
    (hcle : c < 2 ^ 63) : ∀ (fuel i : ℕ) {chunks : List (List α)},
      splitFrom vec c fuel i = some (.ok chunks) → ∀ (k : ℕ) {chunk : List α},
        chunks[k]? = some chunk →
          chunk ≠ [] ∧ chunk.length ≤ c ∧ (chunks.take k).flatten.length = k * c
  | 0, _, _, h, _, _, _ => by cases h
  | fuel + 1, i, chunks, h, k, chunk, hk => by
    by_cases hi : i < vec.length
    · have hnext : (i + c) % 2 ^ 64 = i + c := Nat.mod_eq_of_lt (by omega)
      rw [splitFrom, if_pos hi, hnext] at h
      dsimp only at h
      have hsize : toInt (if i + c < vec.length then i + c else vec.length) =
          (min (i + c) vec.length : ℕ) := by
        split_ifs with hmore
        · rw [toInt_of_lt (by omega), Nat.min_eq_left (by omega)]
        · rw [toInt_of_lt hlen, Nat.min_eq_right (by omega)]
      rw [hsize, if_neg (by omega), Int.toNat_natCast] at h
      obtain ⟨rest, hrun, rfl⟩ := exists_rest_of_cons h
      have hfirst : ((vec.drop i).take (min (i + c) vec.length - i)).length =
          min c (vec.length - i) := by
        rw [List.length_take, List.length_drop]
        omega
      cases k with
      | zero =>
        obtain rfl := Option.some_inj.mp hk
        refine ⟨?_, ?_, ?_⟩
        · rw [← List.length_pos_iff, hfirst]
          omega
        · rw [hfirst]
          exact Nat.min_le_left _ _
        · rw [List.take_zero, List.flatten_nil, List.length_nil, Nat.zero_mul]
      | succ k =>
        rw [List.getElem?_cons_succ] at hk
        obtain ⟨hne, hle, hpos⟩ := splitFrom_chunks hlen hc hcle fuel (i + c) hrun k hk
        have hmore : i + c < vec.length := by
          by_contra hend
          rw [eq_nil_of_length_le (Nat.not_lt.mp hend) hrun] at hk
          cases hk
        refine ⟨hne, hle, ?_⟩
        rw [List.take_succ_cons, List.flatten_cons, List.length_append, hpos, hfirst,
          Nat.min_eq_left (by omega), Nat.succ_mul, Nat.add_comm]
    · rw [eq_nil_of_length_le (Nat.not_lt.mp hi) h] at hk
      cases hk

/-- **The ends of the chunks are `int`**: chunks that are returned end before `2 ^ 31`. -/
theorem splitFrom_length_lt {vec : List α} {c : ℕ} (hlen : 2 ^ 31 ≤ vec.length) :
    ∀ (fuel i : ℕ) {chunks : List (List α)}, i < vec.length →
      splitFrom vec c fuel i = some (.ok chunks) → i + chunks.flatten.length < 2 ^ 31
  | 0, _, _, _, h => by cases h
  | fuel + 1, i, chunks, hi, h => by
    rw [splitFrom, if_pos hi] at h
    dsimp only at h
    split_ifs at h with hmore hrange hrange
    · cases h
    · -- another chunk follows
      obtain ⟨rest, hrun, rfl⟩ := exists_rest_of_cons h
      have ih := splitFrom_length_lt hlen fuel _ hmore hrun
      rw [toInt_of_lt (by omega)] at hrange
      rw [toInt_of_lt (by omega), Int.toNat_natCast, List.flatten_cons, List.length_append,
        List.length_take]
      omega
    · cases h
    · -- the last chunk
      obtain ⟨rest, hrun, rfl⟩ := exists_rest_of_cons h
      have hrest : rest = [] := eq_nil_of_length_le (Nat.not_lt.mp hmore) hrun
      have hsize := toInt_lt vec.length
      rw [hrest, List.flatten_cons, List.flatten_nil, List.append_nil, List.length_take]
      omega

/-- **A vector that is split** into chunks of fewer than `2 ^ 31` elements is no longer than that:
the `int` of the first end from `2 ^ 31` on is negative. -/
theorem length_lt_of_splitFrom {vec : List α} {c : ℕ} (hc : 0 < c) (hroom : c < 2 ^ 31) :
    ∀ (fuel i : ℕ) {chunks : List (List α)}, i < 2 ^ 31 →
      splitFrom vec c fuel i = some (.ok chunks) → vec.length < 2 ^ 31
  | 0, _, _, _, h => by cases h
  | fuel + 1, i, chunks, hlt, h => by
    by_contra hlong
    have hnext : (i + c) % 2 ^ 64 = i + c := Nat.mod_eq_of_lt (by omega)
    rw [splitFrom, if_pos (by omega), hnext] at h
    dsimp only at h
    by_cases hfits : i + c < 2 ^ 31
    · have hmore : i + c < vec.length := by omega
      rw [if_pos hmore, toInt_of_lt hfits, if_neg (by omega)] at h
      obtain ⟨rest, hrun, -⟩ := exists_rest_of_cons h
      exact hlong (length_lt_of_splitFrom hc hroom fuel (i + c) hfits hrun)
    · have hneg : toInt (if i + c < vec.length then i + c else vec.length) < 0 := by
        split_ifs
        · exact toInt_neg (by omega) (by omega)
        · exact toInt_neg (by omega) (by omega)
      rw [if_pos (Or.inl (by omega))] at h
      cases h

/-- **A vector of `2 ^ 31` elements or more is not split** with a chunk size of a ninth of it: the
last chunk would have to end where the vector does. -/
theorem splitFrom_ne_ok_of_long {vec : List α} {c : ℕ} (hlen : 2 ^ 31 ≤ vec.length)
    (hc : c ≤ vec.length / 9) : ∀ (fuel i : ℕ) (chunks : List (List α)), i < vec.length →
      splitFrom vec c fuel i ≠ some (.ok chunks)
  | 0, _, _, _ => nofun
  | fuel + 1, i, chunks, hi => by
    intro h
    rw [splitFrom, if_pos hi] at h
    dsimp only at h
    split_ifs at h with hmore hrange hrange
    · cases h
    · obtain ⟨rest, hrun, -⟩ := exists_rest_of_cons h
      exact splitFrom_ne_ok_of_long hlen hc fuel _ rest hmore hrun
    · cases h
    · have hwrap := toInt_eq_wrapInt vec.length
      obtain ⟨⟨k, hk⟩, hlo, hhi⟩ := wrapInt_spec (vec.length : ℤ)
      have hnext : (i + c) % 2 ^ 64 ≤ i + c := Nat.mod_le _ _
      omega

/-- The result does not depend on the fuel. -/
theorem splitFrom_unique {vec : List α} {c : ℕ} : ∀ (fuel fuel' i : ℕ)
    {r r' : Except Fault (List (List α))}, splitFrom vec c fuel i = some r →
      splitFrom vec c fuel' i = some r' → r = r'
  | 0, _, _, _, _, h, _ => by cases h
  | _ + 1, 0, _, _, _, _, h' => by cases h'
  | fuel + 1, fuel' + 1, i, r, r', h, h' => by
    rw [splitFrom] at h h'
    by_cases hi : i < vec.length
    · rw [if_pos hi] at h h'
      dsimp only at h h'
      generalize toInt (if (i + c) % 2 ^ 64 < vec.length then (i + c) % 2 ^ 64 else vec.length) =
        size at h h'
      split_ifs at h h' with hrange
      · exact Option.some_inj.mp (h.symm.trans h')
      · obtain ⟨s, hs, rfl⟩ := Option.map_eq_some_iff.mp h
        obtain ⟨s', hs', rfl⟩ := Option.map_eq_some_iff.mp h'
        rw [splitFrom_unique fuel fuel' _ hs hs']
    · rw [if_neg hi] at h h'
      exact Option.some_inj.mp (h.symm.trans h')

/-! ## The tasks of one file -/

/-- The tasks of a file with these packets are accounted for: `splitVector` ends with at most
`STORE_MULTITHREAD` chunks that concatenate to the packets, and tasks and `done()` calls make
`STORE_MULTITHREAD` together. -/
def Accounted (packets : List α) : Prop :=
  ∃ fuel chunks, splitVector packets (chunkSize packets.length) fuel = some (.ok chunks) ∧
    chunks.length ≤ storeMultithread ∧ chunks.flatten = packets ∧
    chunks.length + fillers chunks.length = storeMultithread

/-- **Fewer than nine packets are split for ever.** -/
theorem splitPackets_of_few {rawVec : List α} (hne : rawVec ≠ []) (hfew : rawVec.length < 9) :
    splitPackets rawVec = none := by
  have hsize : chunkSize rawVec.length = 0 := Nat.div_eq_of_lt hfew
  rw [splitPackets, splitVector, hsize]
  exact splitFrom_zero (List.length_pos_iff.mpr hne) _

theorem splitPackets_ne_ok_of_long {rawVec : List α} (hlong : 2 ^ 31 ≤ rawVec.length)
    (chunks : List (List α)) : splitPackets rawVec ≠ some (.ok chunks) :=
  splitFrom_ne_ok_of_long hlong (Nat.le_refl _) _ 0 chunks (by omega)

/-- **Otherwise there are nine chunks at least.** -/
theorem splitPackets_spec {rawVec : List α} (hnine : 9 ≤ rawVec.length)
    (hlong : rawVec.length < 2 ^ 31) :
    ∃ chunks, splitPackets rawVec = some (.ok chunks) ∧ chunks.flatten = rawVec ∧
      9 ≤ chunks.length := by
  have hpos : 0 < rawVec.length / 9 := by omega
  obtain ⟨chunks, hrun, hflat, hlength⟩ := splitFrom_spec hlong hpos (by omega)
    (rawVec.length + 1) 0 (by omega)
  refine ⟨chunks, hrun, hflat, ?_⟩
  rw [hlength, Nat.sub_zero, Nat.le_div_iff_mul_le hpos]
  omega

theorem fillers_of_le {k : ℕ} (h : k ≤ storeMultithread) : k + fillers k = storeMultithread := by
  have hten : storeMultithread = 10 := rfl
  rw [fillers, hten]
  rw [hten] at h
  omega

end SplitVector

open SplitVector in
/-- **The tasks of a file are accounted for exactly when** it has at least nine packets, fewer than
`2 ^ 31`, and the packets that nine equal chunks leave over fit into one more chunk. -/
theorem accounted_iff {α : Type} (packets : List α) (hne : 1 ≤ packets.length) :
    Accounted packets ↔
      9 ≤ packets.length ∧ packets.length < 2 ^ 31 ∧ packets.length % 9 ≤ packets.length / 9 := by
  have hsize : chunkSize packets.length = packets.length / 9 := rfl
  constructor
  · rintro ⟨fuel, chunks, hrun, hcount, hflat, -⟩
    rw [splitVector, hsize] at hrun
    have hnine : 9 ≤ packets.length := by
      by_contra hsmall
      rw [Nat.div_eq_of_lt (by omega), splitFrom_zero (by omega)] at hrun
      cases hrun
    have hlong : packets.length < 2 ^ 31 := by
      by_contra hlong
      have h := splitFrom_length_lt (by omega) fuel 0 (by omega) hrun
      rw [hflat] at h
      omega
    refine ⟨hnine, hlong, ?_⟩
    have hpos : 0 < packets.length / 9 := by omega
    obtain ⟨chunks', hrun', -, hlength⟩ := splitFrom_spec hlong hpos (by omega)
      (packets.length + 1) 0 (by omega)
    obtain rfl : chunks = chunks' := Except.ok.inj (splitFrom_unique _ _ _ hrun hrun')
    rw [hlength, Nat.sub_zero, storeMultithread, Nat.div_le_iff_le_mul_add_pred hpos] at hcount
    omega
  · rintro ⟨hnine, hlong, hleft⟩
    have hpos : 0 < packets.length / 9 := by omega
    obtain ⟨chunks, hrun, hflat, hlength⟩ := splitFrom_spec hlong hpos (by omega)
      (packets.length + 1) 0 (by omega)
    have hcount : chunks.length ≤ storeMultithread := by
      rw [hlength, Nat.sub_zero, storeMultithread, Nat.div_le_iff_le_mul_add_pred hpos]
      omega
    exact ⟨_, chunks, hrun, hcount, hflat, fillers_of_le hcount⟩

theorem accounted_iff_hundred :
    SplitVector.Accounted (List.replicate 100 ()) ↔
      9 ≤ (List.replicate 100 ()).length ∧ (List.replicate 100 ()).length < 2 ^ 31 ∧
        (List.replicate 100 ()).length % 9 ≤ (List.replicate 100 ()).length / 9 :=
  accounted_iff (List.replicate 100 ()) (by decide)

open SplitVector in
/-- **Five packets are split for ever.**  Eleven packets are split into eleven chunks, and
`2 ^ 64 - 1` calls of `done()` are to make up for them. -/
theorem not_accounted_five :
    (¬ Accounted (List.replicate 5 ()) ∧
      ∀ fuel, splitVector (List.replicate 5 ()) (chunkSize 5) fuel = none) ∧
    ¬ Accounted (List.replicate 11 ()) ∧
      splitVector (List.replicate 11 ()) (chunkSize 11) 12 =
        some (.ok (List.replicate 11 [()])) ∧ fillers 11 = 2 ^ 64 - 1 := by
  have hfive : ∀ fuel, splitVector (List.replicate 5 ()) (chunkSize 5) fuel = none :=
    splitFrom_zero (by decide)
  have heleven : splitVector (List.replicate 11 ()) (chunkSize 11) 12 =
      some (.ok (List.replicate 11 [()])) := rfl
  refine ⟨⟨?_, hfive⟩, ?_, heleven, by decide⟩
  · rintro ⟨fuel, chunks, hrun, -⟩
    rw [List.length_replicate, hfive] at hrun
    cases hrun
  · rintro ⟨fuel, chunks, hrun, hcount, -⟩
    have hchunks := Except.ok.inj (splitFrom_unique _ _ _ hrun heleven)
    rw [hchunks] at hcount
    exact absurd hcount (by decide)

end BurstIoT
