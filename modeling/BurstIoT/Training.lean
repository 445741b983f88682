import BurstIoT.Division
import BurstIoT.Library.CheckedLoop

/-!
# The train table

`TrainOneDevice` ends in a loop that validates the bursts it has merged, counts them by their number
of packets and files them in the train table, under `uniPktNum - 1` and `pktNum - 1`, the latter cut
off at `BURST_MAX_PACKET_INDEX`.  A burst that fails `Validate` throws, and an index outside a table
is undefined.

`storeBursts_ok`: the bursts of `GetBurstVec` do neither, as long as none of them has counted more
packets than its `int` can.  What they need is their representation invariant (`Generated`), which
the generator gives for every packet list and every positive setting of the limits.
-/

namespace BurstIoT

/-- The variables of the loop, and `train`. -/
structure TrainStore where
  pktNumCount : List ℕ
  uniBurstCount : ℕ
  train : List (List (List Burst))
  deriving DecidableEq, Repr

namespace TrainStore

/-- The variables before the loop.  The constructor gives `train` `BURST_MAX_UNISIG` rows of
`BURST_MAX_PACKET_INDEX` cells. -/
def init (div : DivisionParam) : TrainStore where
  pktNumCount := List.replicate 500 0
  uniBurstCount := 0
  train := List.replicate div.burstMaxUnisig.toNat
    (List.replicate div.burstMaxPacketIndex.toNat [])

/-- One iteration: `Validate`, the count, and the cell of the burst. -/
def storeBurst (div : DivisionParam) (st : TrainStore) (burst : Burst) :
    Except Fault TrainStore := do
  burst.validate div
  let packetNumIndex : ℤ := min burst.intPktNum 500
  let pktNumCount ← modifyInt? st.pktNumCount (packetNumIndex - 1) (· + 1)
  let packetNumIndex : ℤ := min burst.intPktNum div.burstMaxPacketIndex
  let row ← atInt? st.train (burst.uniPktNum.toNat - 1)
  let row ← modifyInt? row (packetNumIndex - 1) (· ++ [burst])
  return {
    pktNumCount
    uniBurstCount := st.uniBurstCount + 1
    train := st.train.set (burst.uniPktNum.toNat - 1) row }

/-- The loop of `TrainOneDevice` over the merged bursts. -/
def storeBursts (div : DivisionParam) (bursts : List Burst) (st : TrainStore) :
    Except Fault TrainStore :=
  bursts.foldlM (storeBurst div) st

/-- The tables have their sizes. -/
structure Shaped (div : DivisionParam) (st : TrainStore) : Prop where
  counts : st.pktNumCount.length = 500
  rows : st.train.length = div.burstMaxUnisig.toNat
  cells : ∀ row ∈ st.train, row.length = div.burstMaxPacketIndex.toNat

theorem Shaped.init (div : DivisionParam) : (TrainStore.init div).Shaped div where
  counts := List.length_replicate
  rows := List.length_replicate
  cells := fun row hrow => by
    rw [(List.mem_replicate.mp hrow).2]
    exact List.length_replicate

variable {div : DivisionParam} {device : KDevice}

/-! ## What storing does -/

/-- The index of a number of packets, cut off at the last one. -/
theorem packetNumIndex_bounds {pktNum last : ℤ} (hpkt : 1 ≤ pktNum) (hlast : 1 ≤ last) :
    0 ≤ min pktNum last - 1 ∧ (min pktNum last - 1).toNat < last.toNat := by
  omega

theorem one_le_of_packetNumIndex {pktNum last : ℤ} (h : ¬ min pktNum last - 1 < 0) :
    1 ≤ pktNum ∧ 1 ≤ last := by
  omega

/-- The row of a burst. -/
def rowOf (b : Burst) : ℕ := b.uniPktNum.toNat - 1

/-- The column of a burst, cut off at the last one. -/
def columnOf (div : DivisionParam) (b : Burst) : ℕ :=
  (min b.intPktNum div.burstMaxPacketIndex - 1).toNat

/-- `train[i][j]`. -/
def cell (train : List (List (List Burst))) (i j : ℕ) : List Burst :=
  (train[i]?.bind fun row => row[j]?).getD []

/-- The train table with one more burst in its cell. -/
def pushBurst (div : DivisionParam) (train : List (List (List Burst))) (b : Burst) :
    List (List (List Burst)) :=
  train.modify (rowOf b) fun row => row.modify (columnOf div b) (· ++ [b])

/-- What makes storing a burst go through: it is valid, and its indices are not negative. -/
structure Storable (div : DivisionParam) (b : Burst) : Prop where
  validate : b.validate div = .ok ()
  intPktNum : 1 ≤ b.intPktNum
  uniPktNum : 1 ≤ b.uniPktNum.toNat
  column : 1 ≤ div.burstMaxPacketIndex

namespace Storable

variable {b : Burst}

theorem counted (h : Storable div b) : b.Counted :=
  (Burst.counted_of_validate h.validate).1

theorem pktNum (h : Storable div b) : 1 ≤ b.pktNum := by
  have hle := toInt_le b.pktNum
  have hpos := h.intPktNum
  rw [Burst.intPktNum] at hpos
  omega

theorem uniPktNum_le (h : Storable div b) : b.uniPktNum.toNat ≤ div.burstMaxUnisig.toNat :=
  UInt8.le_iff_toNat_le.mp (Burst.counted_of_validate h.validate).2

theorem rowOf_lt (h : Storable div b) : rowOf b < div.burstMaxUnisig.toNat := by
  have hle := h.uniPktNum_le
  have hpos := h.uniPktNum
  rw [rowOf]
  omega

theorem columnOf_lt (h : Storable div b) : columnOf div b < div.burstMaxPacketIndex.toNat := by
  rw [columnOf]
  exact (packetNumIndex_bounds h.intPktNum h.column).2

/-- A generated burst can be stored, if its packets can be counted. -/
theorem of_generated (hname : device.instanceName ≠ "") (hindex : 1 ≤ div.burstMaxPacketIndex)
    (hb : DeviceBurstGenerator.Generated div device b) (hfits : b.pktNum < 2 ^ 31) :
    Storable div b where
  validate := hb.wellFormed.validate_eq_ok (by rw [hb.label]; exact hname) hb.uniPktNum_le
  intPktNum := by
    have hpos := hb.pktNum_pos
    rw [Burst.intPktNum, toInt_of_lt hfits]
    omega
  uniPktNum := hb.wellFormed.uniPktNum_pos hb.pktNum_pos
  column := hindex

end Storable

/-- **Storing a burst**: it is counted, and pushed onto its cell. -/
theorem storeBurst_of_storable {st : TrainStore} (hst : st.Shaped div) {b : Burst}
    (hb : Storable div b) : storeBurst div st b = .ok
      { pktNumCount := st.pktNumCount.modify (min b.intPktNum 500 - 1).toNat (· + 1)
        uniBurstCount := st.uniBurstCount + 1
        train := pushBurst div st.train b } := by
  have huni := hb.uniPktNum
  obtain ⟨hnonneg, hlt⟩ := packetNumIndex_bounds hb.intPktNum (show (1 : ℤ) ≤ 500 by decide)
  have hcount : ((min b.intPktNum 500) - 1).toNat < st.pktNumCount.length := by
    rw [hst.counts]
    exact hlt
  have hcolumn := (packetNumIndex_bounds hb.intPktNum hb.column).1
  have hindexRow : ((b.uniPktNum.toNat : ℤ) - 1).toNat = rowOf b := by
    rw [rowOf]
    omega
  have hrow : rowOf b < st.train.length := by
    rw [hst.rows]
    exact hb.rowOf_lt
  have hcell : columnOf div b < (st.train[rowOf b]).length := by
    rw [hst.cells _ (List.getElem_mem hrow)]
    exact hb.columnOf_lt
  have hat : atInt? st.train ((b.uniPktNum.toNat : ℤ) - 1) = .ok st.train[rowOf b] := by
    rw [atInt?, if_neg (by omega), hindexRow, at?_of_lt hrow]
  rw [storeBurst, hb.validate]
  dsimp only [bind, Except.bind]
  rw [modifyInt?_of_lt hnonneg hcount]
  dsimp only
  rw [hat]
  dsimp only
  rw [modifyInt?_of_lt hcolumn hcell, pushBurst, List.modify_eq_set_get _ hrow]
  rfl

/-- **What storing a burst has done**, if it has gone through. -/
theorem storeBurst_eq_ok {st st' : TrainStore} {b : Burst} (h : storeBurst div st b = .ok st') :
    Storable div b ∧ st'.train = pushBurst div st.train b ∧
      st'.uniBurstCount = st.uniBurstCount + 1 ∧
      st'.pktNumCount = st.pktNumCount.modify (min b.intPktNum 500 - 1).toNat (· + 1) := by
  obtain ⟨⟨⟩, hvalid, h⟩ := CheckedLoop.bind_eq_ok.mp h
  obtain ⟨pktNumCount, hcount, h⟩ := CheckedLoop.bind_eq_ok.mp h
  obtain ⟨row, hrow, h⟩ := CheckedLoop.bind_eq_ok.mp h
  obtain ⟨row', hcell, h⟩ := CheckedLoop.bind_eq_ok.mp h
  cases h
  rw [modifyInt?] at hcount hcell
  rw [atInt?] at hrow
  split_ifs at hcount hrow hcell with hcount' hrow' hcell'
  cases hcount
  cases hcell
  have hindexRow : ((b.uniPktNum.toNat : ℤ) - 1).toNat = b.uniPktNum.toNat - 1 := by omega
  rw [hindexRow, at?_eq_ok] at hrow
  obtain ⟨hpkt, hindex⟩ := one_le_of_packetNumIndex (not_or.mp hcell').1
  refine ⟨⟨hvalid, hpkt, by omega, hindex⟩, ?_, rfl, rfl⟩
  obtain ⟨hlt, hrow⟩ : ∃ hlt : rowOf b < st.train.length, st.train[rowOf b] = row :=
    List.getElem?_eq_some_iff.mp hrow
  show st.train.set (rowOf b) (row.modify (columnOf div b) (· ++ [b])) = pushBurst div st.train b
  rw [pushBurst, List.modify_eq_set_get _ hlt, List.get_eq_getElem, hrow]

/-- Pushing a burst leaves the rows as long as they are. -/
theorem columns_pushBurst {train : List (List (List Burst))} {n : ℕ}
    (h : ∀ row ∈ train, row.length = n) {b : Burst} :
    ∀ row ∈ pushBurst div train b, row.length = n := by
  intro row hrow
  obtain ⟨i, hi, rfl⟩ := List.mem_iff_getElem.mp hrow
  have hlt : i < train.length := by rwa [pushBurst, List.length_modify] at hi
  simp only [pushBurst, List.getElem_modify]
  split_ifs
  · rw [List.length_modify]
    exact h _ (List.getElem_mem hlt)
  · exact h _ (List.getElem_mem hlt)

/-- Storing leaves the tables in shape. -/
theorem Shaped.stored {st : TrainStore} (hst : st.Shaped div) (b : Burst) : Shaped div
    { pktNumCount := st.pktNumCount.modify (min b.intPktNum 500 - 1).toNat (· + 1)
      uniBurstCount := st.uniBurstCount + 1
      train := pushBurst div st.train b } where
  counts := (List.length_modify ..).trans hst.counts
  rows := (List.length_modify ..).trans hst.rows
  cells := columns_pushBurst hst.cells

/-- **Storing bursts goes through**, and pushes one after another. -/
theorem storeBursts_of_storable {bursts : List Burst} (hbursts : ∀ b ∈ bursts, Storable div b)
    {st : TrainStore} (hst : st.Shaped div) :
    ∃ st', storeBursts div bursts st = .ok st' ∧ st'.Shaped div ∧
      st'.train = bursts.foldl (pushBurst div) st.train := by
  let I : List Burst → TrainStore → Prop := fun done st' =>
    st'.Shaped div ∧ st'.train = done.foldl (pushBurst div) st.train
  obtain ⟨st', hrun, hshape, htrain⟩ := CheckedLoop.foldlM_ok (I := I)
    (f := storeBurst div) (l := bursts) (s := st) (fun done b rest hall st' hI => by
      have hb : Storable div b := hbursts b (by
        rw [hall]
        exact List.mem_append_right _ List.mem_cons_self)
      refine ⟨_, storeBurst_of_storable hI.1 hb, hI.1.stored b, ?_⟩
      rw [List.foldl_append, ← hI.2]
      rfl) ⟨hst, rfl⟩
  exact ⟨st', hrun, hshape, htrain⟩

/-- **Storing generated bursts goes through.** -/
theorem storeBursts_ok (hname : device.instanceName ≠ "") (hindex : 1 ≤ div.burstMaxPacketIndex)
    {bursts : List Burst} (hgen : ∀ b ∈ bursts, DeviceBurstGenerator.Generated div device b)
    (hfits : ∀ b ∈ bursts, b.pktNum < 2 ^ 31) {st : TrainStore} (hst : st.Shaped div) :
    ∃ st', storeBursts div bursts st = .ok st' ∧ st'.Shaped div := by
  obtain ⟨st', hrun, hshape, -⟩ := storeBursts_of_storable
    (fun b hb => Storable.of_generated hname hindex (hgen b hb) (hfits b hb)) hst
  exact ⟨st', hrun, hshape⟩

end TrainStore

open DeviceBurstGenerator TrainStore in
/-- **Every burst the generator returns keeps the representation invariant**: it has an entry, its
signatures are distinct, and `uniPktNum` counts them and obeys the limit.  A burst that has counted
fewer than `2 ^ 31` packets has positive counts that sum up to `pktNum`, and **training stores any
such bursts without a fault**.  With as many packets `pktNum` is negative. -/
theorem deviceBurstGenerator_trains_int (lib : StdLib) (div : DivisionParam) (device : KDevice)
    (hname : device.instanceName ≠ "") (hdiv : div.Positive)
    (hindex : 1 ≤ div.burstMaxPacketIndex) :
    (∀ l, l ≠ [] → ∀ b ∈ deviceBurstGenerator lib div device l,
      b.intDetail ≠ [] ∧ (b.intDetail.map Prod.fst).Nodup ∧
        b.uniPktNum.toNat = b.intDetail.length ∧ b.uniPktNum ≤ div.burstMaxUnisig ∧
        (b.pktNum < 2 ^ 31 →
          (∀ e ∈ b.intDetail, 0 < e.2) ∧ b.intPktNum = (b.intDetail.map Prod.snd).sum) ∧
        (2 ^ 31 ≤ b.pktNum → b.pktNum < 2 ^ 32 → b.intPktNum < 0)) ∧
    ∀ bursts : List Burst,
      (∀ b ∈ bursts, b.pktNum < 2 ^ 31 ∧ ∃ l, l ≠ [] ∧ b ∈ deviceBurstGenerator lib div device l) →
        (∀ b ∈ bursts, b.validate div = .ok ()) ∧
          ∃ st, storeBursts div bursts (.init div) = .ok st := by
  have hgen : ∀ l, l ≠ [] → ∀ b ∈ deviceBurstGenerator lib div device l, Generated div device b :=
    fun l hne b hb => Division.generated_of_mem hdiv hne hb
  constructor
  · intro l hne b hb
    have h := hgen l hne b hb
    have hpos := h.wellFormed.uniPktNum_pos h.pktNum_pos
    rw [h.wellFormed.uniPktNum, ← Burst.length_intDetail] at hpos
    refine ⟨List.length_pos_iff.mp hpos, ?_, ?_, h.uniPktNum_le, h.wellFormed.int_sound, ?_⟩
    · rw [Burst.map_fst_intDetail]
      exact h.wellFormed.nodup
    · rw [Burst.length_intDetail]
      exact h.wellFormed.uniPktNum
    · exact fun hlo hhi => toInt_neg hlo hhi
  · intro bursts hmem
    have hall : ∀ b ∈ bursts, Generated div device b := by
      intro b hb
      obtain ⟨-, l, hne, hbl⟩ := hmem b hb
      exact hgen l hne b hbl
    constructor
    · intro b hb
      have h := hall b hb
      exact h.wellFormed.validate_eq_ok (by rw [h.label]; exact hname) h.uniPktNum_le
    · obtain ⟨st, hst, -⟩ :=
        storeBursts_ok hname hindex hall (fun b hb => (hmem b hb).1) (.init div)
      exact ⟨st, hst⟩

open DeviceBurstGenerator TrainStore in
theorem deviceBurstGenerator_trains_int_lamp :
    let lamp : KDevice := ⟨true, 1, "lamp", "lamp", "", "10.0.0.2"⟩
    (∀ l, l ≠ [] → ∀ b ∈ deviceBurstGenerator .insertion {} lamp l,
      b.intDetail ≠ [] ∧ (b.intDetail.map Prod.fst).Nodup ∧
        b.uniPktNum.toNat = b.intDetail.length ∧
        b.uniPktNum ≤ ({} : DivisionParam).burstMaxUnisig ∧
        (b.pktNum < 2 ^ 31 →
          (∀ e ∈ b.intDetail, 0 < e.2) ∧ b.intPktNum = (b.intDetail.map Prod.snd).sum) ∧
        (2 ^ 31 ≤ b.pktNum → b.pktNum < 2 ^ 32 → b.intPktNum < 0)) ∧
    ∀ bursts : List Burst,
      (∀ b ∈ bursts, b.pktNum < 2 ^ 31 ∧ ∃ l, l ≠ [] ∧
        b ∈ deviceBurstGenerator .insertion {} lamp l) →
        (∀ b ∈ bursts, b.validate {} = .ok ()) ∧
          ∃ st, storeBursts {} bursts (.init {}) = .ok st :=
  deviceBurstGenerator_trains_int .insertion {} _ (by decide) (by decide) (by decide)

open DeviceBurstGenerator TrainStore in
/-- **A flood of packets**, all of them equal: the burst that counts them has a negative `pktNum`,
and storing it indexes `pktNumCount` below zero. -/
theorem not_trains_flood :
    let lamp : KDevice := ⟨true, 1, "lamp", "lamp", "", "10.0.0.2"⟩
    ∃ b, deviceBurstGenerator .insertion {} lamp Division.flood = [b] ∧
      b.intPktNum = -2147483648 ∧ b.intDetail = [(60, -2147483648)] ∧
      storeBurst {} (.init {}) b = .error .undefined := by
  intro lamp
  refine ⟨_, Division.deviceBurstGenerator_flood .insertion lamp, by decide, by decide, ?_⟩
  decide +kernel

end BurstIoT
