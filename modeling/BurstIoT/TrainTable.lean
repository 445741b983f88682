import BurstIoT.Classifier

/-!
# The train table after training

The train table is only ever changed by storing a burst.  `Filled` are the tables that this can lead
to, whichever devices the bursts belong to and in whatever order they come; those of `Train` are
among them (`filled_train`).

In a filled table the cell of a row and a column holds the bursts that were stored with these
coordinates (`Filed`).
-/

namespace BurstIoT
namespace TrainStore

variable {div : DivisionParam} {train : List (List (List Burst))}

/-- The tables that storing bursts leads to. -/
inductive Filled (div : DivisionParam) : List (List (List Burst)) → Prop
  | init : Filled div (TrainStore.init div).train
  | store {st st' : TrainStore} {b : Burst} :
    Filled div st.train → storeBurst div st b = .ok st' → Filled div st'.train

/-! ## Cells -/

theorem cell_init (div : DivisionParam) (i j : ℕ) : cell (TrainStore.init div).train i j = [] := by
  rw [cell, TrainStore.init, List.getElem?_replicate]
  split_ifs
  · rw [Option.bind_some, List.getElem?_replicate]
    split_ifs <;> rfl
  · rfl

/-- Pushing a burst changes its own cell only. -/
theorem cell_pushBurst {b : Burst} (hrow : rowOf b < train.length)
    (hcolumn : ∀ row ∈ train, columnOf div b < row.length) (i j : ℕ) :
    cell (pushBurst div train b) i j =
      cell train i j ++ if rowOf b = i ∧ columnOf div b = j then [b] else [] := by
  rw [cell, pushBurst]
  by_cases hi : rowOf b = i
  · subst hi
    have hlt := hcolumn _ (List.getElem_mem hrow)
    rw [List.getElem?_modify_eq, cell, List.getElem?_eq_getElem hrow]
    show ((train[rowOf b].modify (columnOf div b) (· ++ [b]))[j]?).getD [] =
      (train[rowOf b][j]?).getD [] ++ _
    by_cases hj : columnOf div b = j
    · subst hj
      rw [List.getElem?_modify_eq, List.getElem?_eq_getElem hlt, if_pos ⟨rfl, rfl⟩]
      rfl
    · rw [List.getElem?_modify_ne _ _ hj, if_neg fun h => hj h.2, List.append_nil]
  · rw [List.getElem?_modify_ne _ _ hi, if_neg fun h => hi h.1, List.append_nil]
    rfl

/-- The sizes of a table, and what its cells hold. -/
structure Filed (div : DivisionParam) (train : List (List (List Burst))) : Prop where
  rows : train.length = div.burstMaxUnisig.toNat
  columns : ∀ row ∈ train, row.length = div.burstMaxPacketIndex.toNat
  cells : ∀ i j, ∀ b ∈ cell train i j, Storable div b ∧ rowOf b = i ∧ columnOf div b = j

theorem Filed.init (div : DivisionParam) : Filed div (TrainStore.init div).train where
  rows := (Shaped.init div).rows
  columns := (Shaped.init div).cells
  cells := fun i j b hb => by
    rw [cell_init] at hb
    cases hb

theorem Filed.cell_pushBurst (h : Filed div train) {b : Burst} (hb : Storable div b) (i j : ℕ) :
    cell (pushBurst div train b) i j =
      cell train i j ++ if rowOf b = i ∧ columnOf div b = j then [b] else [] := by
  refine TrainStore.cell_pushBurst ?_ (fun row hrow => ?_) i j
  · rw [h.rows]
    exact hb.rowOf_lt
  · rw [h.columns row hrow]
    exact hb.columnOf_lt

theorem Filed.pushBurst (h : Filed div train) {b : Burst} (hb : Storable div b) :
    Filed div (pushBurst div train b) where
  rows := (List.length_modify ..).trans h.rows
  columns := columns_pushBurst h.columns
  cells := fun i j c hc => by
    rw [h.cell_pushBurst hb, List.mem_append] at hc
    rcases hc with hc | hc
    · exact h.cells i j c hc
    · split_ifs at hc with hij
      · rw [List.mem_singleton.mp hc]
        exact ⟨hb, hij⟩
      · cases hc

/-- **Pushing bursts one after another** adds to every cell the bursts with its coordinates. -/
theorem Filed.foldl_pushBurst (bursts : List Burst) {train : List (List (List Burst))}
    (h : Filed div train) (hbursts : ∀ b ∈ bursts, Storable div b) :
    Filed div (bursts.foldl (TrainStore.pushBurst div) train) ∧
      ∀ i j, cell (bursts.foldl (TrainStore.pushBurst div) train) i j =
        cell train i j ++ bursts.filter fun b => rowOf b = i ∧ columnOf div b = j := by
  induction bursts generalizing train with
  | nil => exact ⟨h, fun i j => (List.append_nil _).symm⟩
  | cons b bursts ih =>
    have hb := hbursts b List.mem_cons_self
    obtain ⟨hfiled, hcells⟩ := ih (h.pushBurst hb) fun c hc =>
      hbursts c (List.mem_cons_of_mem b hc)
    refine ⟨hfiled, fun i j => ?_⟩
    rw [List.foldl_cons, hcells, h.cell_pushBurst hb, List.append_assoc]
    congr 1
    by_cases hij : rowOf b = i ∧ columnOf div b = j <;> simp [hij]

/-- **A filled table has every burst in its own cell.** -/
theorem Filled.filed (h : Filled div train) : Filed div train := by
  induction h with
  | init => exact .init div
  | store _ hstore ih =>
    obtain ⟨hb, htrain, -⟩ := storeBurst_eq_ok hstore
    rw [htrain]
    exact ih.pushBurst hb

/-! ## Training fills the table -/

theorem Filled.storeBursts {bursts : List Burst} {st st' : TrainStore} (h : Filled div st.train)
    (hrun : storeBursts div bursts st = .ok st') : Filled div st'.train :=
  CheckedLoop.foldlM_inv (I := fun _ st => Filled div st.train) bursts []
    (fun _ _ _ _ _ h hstep => h.store hstep) h hrun

variable {F : Type} [Field F] [LinearOrder F] [Elementary F] {lib : StdLib} {cfg : Config F}

theorem Filled.trainOneDevice {s s' : KBurstClassifier × PolicyStatics}
    (h : Filled cfg.divisionParam s.1.train) {deviceId : UInt16} {burstGroups : List BurstBlock}
    (hrun : Classifier.trainOneDevice lib cfg s deviceId burstGroups = .ok s') :
    Filled cfg.divisionParam s'.1.train := by
  obtain ⟨middlePktNum, -, hrun⟩ := CheckedLoop.bind_eq_ok.mp hrun
  obtain ⟨map, -, hrun⟩ := CheckedLoop.bind_eq_ok.mp hrun
  obtain ⟨store, hstore, hrun⟩ := CheckedLoop.bind_eq_ok.mp hrun
  dsimp only at hrun
  split_ifs at hrun
  cases hrun
  let start : TrainStore := { TrainStore.init cfg.divisionParam with train := s.1.train }
  have hstart : Filled cfg.divisionParam start.train := h
  exact hstart.storeBursts hstore

/-- **`Train` fills the table.** -/
theorem filled_train {statics : PolicyStatics} {trainset : UnorderedMap UInt16 (List BurstBlock)}
    {s : KBurstClassifier × PolicyStatics}
    (hrun : Classifier.train lib cfg statics trainset = .ok s) :
    Filled cfg.divisionParam s.1.train :=
  CheckedLoop.foldlM_inv (I := fun _ s => Filled cfg.divisionParam s.1.train)
    (lib.iterate trainset) [] (fun _ _ _ _ _ h hstep => h.trainOneDevice hstep) .init hrun

end TrainStore
end BurstIoT
