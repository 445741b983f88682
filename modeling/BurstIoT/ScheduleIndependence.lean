import BurstIoT.Converter
import BurstIoT.PacketDataset
import BurstIoT.ReadingMoves
import BurstIoT.StartTimes
import BurstIoT.Library.Interleaving

/-!
# The order of the tasks and the bursts

The `StoreKPackets` tasks append their packets in some interleaving, `PacketDataset::Sort` orders
them by their stamps alone, and the division then cuts the sorted list.  Packets with one stamp stay
in an order that depends on the schedule, and a cut may fall between them
(`not_scheduleIndependent`).  What a block counts as a whole does not depend on the schedule, and
neither do the bursts if a device sends no two different packets with one stamp
(`rawBursts_scheduleIndependent`).
-/

namespace BurstIoT
namespace RawReading

open StepSystem Interleaving

/-! ## The packet dataset of a run -/

variable {α β : Type} {files : List (RawFile α)} {store : α → List β}

/-- What a task appends in all. -/
def appended (store : α → List β) (t : StoreTask α β) : List β :=
  t.rawVec.flatMap store

/-- What a task has still to append. -/
def toAppend (store : α → List β) (t : StoreTask α β) : List β :=
  t.appends ++ t.ahead.flatMap store

/-- The dataset and what is still to be appended make an interleaving of the tasks. -/
def Interleaved (store : α → List β) (s : State α β) : Prop :=
  ∀ (later : List (List β)) (schedule : List ℕ) (l : List β),
    interleave (s.tasks.map (toAppend store) ++ later) schedule = some l →
      ∃ schedule', interleave (s.tasks.map (appended store) ++ later) schedule' =
        some (s.dataset ++ l)

theorem Interleaved.congr {s s' : State α β} (h : Interleaved store s)
    (hrest : s'.tasks.map (toAppend store) = s.tasks.map (toAppend store))
    (hall : s'.tasks.map (appended store) = s.tasks.map (appended store))
    (hdataset : s'.dataset = s.dataset) : Interleaved store s' := by
  intro later schedule l hl
  rw [hall, hdataset]
  rw [hrest] at hl
  exact h later schedule l hl

/-- A move of a task that changes neither what it appends in all nor what is left of it. -/
theorem map_set_eq {γ : Type} {f : StoreTask α β → γ} {tasks : List (StoreTask α β)} {j : ℕ}
    {t t' : StoreTask α β} (hj : tasks[j]? = some t) (hf : f t' = f t) :
    (tasks.set j t').map f = tasks.map f := by
  obtain ⟨hlt, rfl⟩ := List.getElem?_eq_some_iff.mp hj
  refine List.ext_getElem? fun i => ?_
  rw [List.map_set, hf]
  by_cases heq : j = i
  · subst heq
    rw [List.getElem?_set_self (by rw [List.length_map]; exact hlt), List.getElem?_map,
      List.getElem?_eq_getElem hlt, Option.map_some]
  · rw [List.getElem?_set_ne heq]

theorem Interleaved.reader {s s' : State α β} (h : Interleaved store s)
    (hmove : ReaderMove files s s') : Interleaved store s' := by
  cases hmove with
  | start hreader hchunk =>
    intro later schedule l hl
    rw [List.map_append, List.append_assoc] at hl ⊢
    exact h _ schedule l hl
  | fill hreader hcalls =>
    exact h.congr (by rw [done_tasks]) (by rw [done_tasks]) (done_dataset _ _)
  | _ => exact h

theorem Interleaved.collect {s s' : State α β} (h : Interleaved store s)
    (hmove : GcMove files s s') : Interleaved store s' := by
  cases hmove <;> exact h

theorem Interleaved.task {s s' : State α β} {j : ℕ} {t : StoreTask α β} (h : Interleaved store s)
    (hj : s.tasks[j]? = some t) (hmove : TaskMove files store s j t s') :
    Interleaved store s' := by
  cases hmove with
  | @append b rest happends =>
    -- the schedule begins with the packet that the task appends
    intro later schedule l hl
    have hlt : j < (s.tasks.map (toAppend store)).length := by
      rw [List.length_map]
      exact (List.getElem?_eq_some_iff.mp hj).1
    have hnext : (s.tasks.map (toAppend store) ++ later)[j]? =
        some (b :: toAppend store { t with appends := rest }) := by
      rw [List.getElem?_append_left hlt, List.getElem?_map, hj, Option.map_some, toAppend,
        happends]
      rfl
    rw [List.map_set, ← List.set_append_left _ _ hlt] at hl
    obtain ⟨schedule', hschedule⟩ := h later (j :: schedule) (b :: l)
      (interleave_cons.mpr ⟨b, _, l, hnext, hl, rfl⟩)
    have hall : appended store { t with appends := rest } = appended store t := rfl
    refine ⟨schedule', ?_⟩
    rw [map_set_eq hj hall, hschedule, List.append_assoc]
    rfl
  | @next p rest happends hahead =>
    let t' : StoreTask α β := { t with ahead := rest, appends := store p }
    have hrest : toAppend store t' = toAppend store t := by
      rw [toAppend, toAppend, happends, hahead]
      rfl
    have hall : appended store t' = appended store t := rfl
    exact h.congr (map_set_eq hj hrest) (map_set_eq hj hall) rfl
  | finish happends hahead =>
    refine h.congr ?_ ?_ (done_dataset _ _)
    · rw [done_tasks]
      exact map_set_eq hj rfl
    · rw [done_tasks]
      exact map_set_eq hj rfl

theorem interleaved_of_reachable {s₀ s : State α β} (h₀ : s₀.tasks = [] ∧ s₀.dataset = [])
    (h : Reachable (step files store) s₀ s) : Interleaved store s := by
  refine Reachable.invariant (I := Interleaved store) h ?_ ?_
  · intro later schedule l hl
    rw [h₀.1] at hl ⊢
    rw [h₀.2]
    exact ⟨schedule, hl⟩
  · intro s p s' hs hstep
    cases step_cases hstep with
    | reader hmove => exact hs.reader hmove
    | gc hmove => exact hs.collect hmove
    | task hj hrun hmove => exact hs.task hj hmove

/-- **The packet dataset of a run** in which all tasks have processed all their packets is an
interleaving of what the tasks append. -/
theorem exists_interleave {s₀ s : State α β} (h₀ : s₀.tasks = [] ∧ s₀.dataset = [])
    (h : Reachable (step files store) s₀ s)
    (hdone : ∀ t ∈ s.tasks, t.ahead = [] ∧ t.appends = []) :
    ∃ schedule, interleave (s.tasks.map (appended store)) schedule = some s.dataset := by
  have hnone : ∀ l ∈ s.tasks.map (toAppend store), l = [] := by
    intro l hl
    obtain ⟨t, ht, rfl⟩ := List.mem_map.mp hl
    rw [toAppend, (hdone t ht).1, (hdone t ht).2]
    rfl
  have hstart : interleave (s.tasks.map (toAppend store) ++ []) [] = some [] := by
    rw [List.append_nil]
    exact interleave_nil.mpr ⟨hnone, rfl⟩
  obtain ⟨schedule, hschedule⟩ := interleaved_of_reachable h₀ h [] [] [] hstart
  rw [List.append_nil, List.append_nil] at hschedule
  exact ⟨schedule, hschedule⟩

end RawReading

/-! ## From the packet dataset to the bursts -/

open Converter DeviceBurstGenerator Interleaving

/-- `GenBurstDatasetContent`, from the packet dataset on: `Sort`, then `PktDatasetCvtoBursts`.  The
dataset has a statistic for every registered device. -/
def sortAndConvert (lib : StdLib) (div : DivisionParam) (deviceVec : List KDevice)
    (dataset : List KPacket) : Except Fault Converter := do
  let sorted ← PacketDataset.sort lib deviceVec.length dataset
  pktDatasetCvtoBursts lib div deviceVec sorted

/-- Two outcomes are the same fault, or results that agree. -/
def Agree (R : Converter → Converter → Prop) :
    Except Fault Converter → Except Fault Converter → Prop
  | .ok c, .ok c' => R c c'
  | .error fault, .error fault' => fault = fault'
  | _, _ => False

/-- The same blocks, with the same signature counts in each burst. -/
def SameBursts (c c' : Converter) : Prop :=
  ∀ d, (c.content d).map (fun burstBlock => burstBlock.map Burst.sigs) =
    (c'.content d).map fun burstBlock => burstBlock.map Burst.sigs

/-- The same blocks, with the same signature counts in each block. -/
def SameBlocks (c c' : Converter) : Prop :=
  ∀ d, (c.content d).map blockSigs = (c'.content d).map blockSigs

/-- The same bursts in all their fields. -/
def SameContent (c c' : Converter) : Prop :=
  ∀ d, c.content d = c'.content d

/-- No device sends two different packets with one stamp. -/
def TiesHarmless (l : List KPacket) : Prop :=
  ∀ p ∈ l, ∀ q ∈ l, p.deviceId = q.deviceId → p.timestamp = q.timestamp → p = q

/-- The bursts do not depend on the order in which the tasks append. -/
def ScheduleIndependent (lib : StdLib) (div : DivisionParam) (deviceVec : List KDevice) : Prop :=
  ∀ (tasks : List (List KPacket)) (schedule schedule' : List ℕ) (l l' : List KPacket),
    interleave tasks schedule = some l → interleave tasks schedule' = some l' →
      Agree SameBursts (sortAndConvert lib div deviceVec l) (sortAndConvert lib div deviceVec l')

section Perm

variable {lib : StdLib} {div : DivisionParam} {deviceVec : List KDevice} {l l' : List KPacket}

/-- The packets of a slot, sorted, up to their order. -/
theorem slotPackets_sort_perm (h : l.Perm l') (d : UInt16) (s : ℤ) :
    (slotPackets div (lib.sort KPacket.earlier l) d s).Perm
      (slotPackets div (lib.sort KPacket.earlier l') d s) := by
  have hsort := lib.sort_perm KPacket.strictWeak_earlier
  exact ((hsort l).trans (h.trans (hsort l').symm)).filter _

/-- Where no two packets of a device share a stamp, sorting leaves no choice. -/
theorem slotPackets_sort_eq (h : l.Perm l') (hties : TiesHarmless l) (d : UInt16) (s : ℤ) :
    slotPackets div (lib.sort KPacket.earlier l) d s =
      slotPackets div (lib.sort KPacket.earlier l') d s := by
  have hsorted : ∀ l : List KPacket, (slotPackets div (lib.sort KPacket.earlier l) d s).Pairwise
      fun p q => p.timestamp ≤ q.timestamp := by
    intro l
    refine List.Pairwise.sublist List.filter_sublist ?_
    exact (lib.sort_pairwise KPacket.strictWeak_earlier l).imp fun hpq =>
      Timespec.earlier_eq_false_iff.mp hpq
  have hmem : ∀ l : List KPacket, ∀ p ∈ slotPackets div (lib.sort KPacket.earlier l) d s,
      p ∈ l ∧ p.deviceId = d := by
    intro l p hp
    obtain ⟨hp, hd⟩ := List.mem_filter.mp hp
    exact ⟨(lib.mem_sort KPacket.strictWeak_earlier).mp hp, (of_decide_eq_true hd).1⟩
  refine List.Perm.eq_of_pairwise ?_ (hsorted l) (hsorted l') (slotPackets_sort_perm h d s)
  intro p q hp hq hpq hqp
  obtain ⟨hpl, hpd⟩ := hmem l p hp
  obtain ⟨hql, hqd⟩ := hmem l' q hq
  exact hties p hpl q (h.mem_iff.mpr hql) (hpd.trans hqd.symm) (le_antisymm hpq hqp)

theorem slotsVisited_perm (h : l.Perm l') : slotsVisited div l = slotsVisited div l' := by
  rw [slotsVisited, slotsVisited]
  refine slotsBetween_congr fun n => ?_
  rw [(h.map _).mem_iff]

/-- The slots that hold packets of a device. -/
theorem filter_slotsVisited_perm (h : l.Perm l') (d : UInt16) :
    (slotsVisited div (lib.sort KPacket.earlier l)).filter
        (fun s => slotPackets div (lib.sort KPacket.earlier l) d s ≠ []) =
      (slotsVisited div (lib.sort KPacket.earlier l')).filter
        fun s => slotPackets div (lib.sort KPacket.earlier l') d s ≠ [] := by
  have hsort := lib.sort_perm KPacket.strictWeak_earlier
  rw [slotsVisited_perm ((hsort l).trans (h.trans (hsort l').symm))]
  refine List.filter_congr fun s _ => ?_
  have hperm : (slotPackets div (lib.sort KPacket.earlier l) d s).Perm _ :=
    slotPackets_sort_perm h d s
  simp only [ne_eq, ← List.length_eq_zero_iff, hperm.length_eq]

theorem Agree.rfl_of {R : Converter → Converter → Prop} (hR : ∀ c, R c c)
    (r : Except Fault Converter) : Agree R r r := by
  cases r with
  | ok c => exact hR c
  | error fault => exact rfl

variable (lib div deviceVec) in
/-- **The conversion of two packet datasets that differ in their order only.** -/
theorem sortAndConvert_perm (h : l.Perm l') :
    Agree SameBlocks (sortAndConvert lib div deviceVec l) (sortAndConvert lib div deviceVec l') ∧
      (TiesHarmless l → Agree SameContent (sortAndConvert lib div deviceVec l)
        (sortAndConvert lib div deviceVec l')) := by
  by_cases heq : l = []
  · -- no packet at all
    subst heq
    rw [List.nil_perm.mp h]
    exact ⟨Agree.rfl_of (fun c d => rfl) _, fun _ => Agree.rfl_of (fun c d => rfl) _⟩
  have hvalid' : PacketDataset.valid deviceVec.length l = _ := PacketDataset.valid_perm h
  rw [sortAndConvert, sortAndConvert, PacketDataset.sort, PacketDataset.sort, ← hvalid']
  by_cases hvalid : PacketDataset.valid deviceVec.length l = true
  · rw [if_pos hvalid, if_pos hvalid]
    show Agree _ (pktDatasetCvtoBursts lib div deviceVec _)
        (pktDatasetCvtoBursts lib div deviceVec _) ∧ (_ → Agree _
          (pktDatasetCvtoBursts lib div deviceVec _) (pktDatasetCvtoBursts lib div deviceVec _))
    by_cases hslot : div.timeslot = 0
    · rw [pktDatasetCvtoBursts, pktDatasetCvtoBursts, if_pos hslot, if_pos hslot]
      exact ⟨rfl, fun _ => rfl⟩
    have hsort := lib.sort_perm KPacket.strictWeak_earlier
    have hne : ∀ l : List KPacket, l ≠ [] → lib.sort KPacket.earlier l ≠ [] := by
      intro l hne hnil
      exact hne (List.nil_perm.mp (hnil ▸ hsort l))
    have hreg : ∀ p ∈ lib.sort KPacket.earlier l, p.deviceId.toNat < deviceVec.length :=
      fun p hp => PacketDataset.deviceId_lt_of_valid hvalid ((hsort l).mem_iff.mp hp)
    have hreg' : ∀ p ∈ lib.sort KPacket.earlier l', p.deviceId.toNat < deviceVec.length :=
      fun p hp => PacketDataset.deviceId_lt_of_valid hvalid
        (h.mem_iff.mpr ((hsort l').mem_iff.mp hp))
    have heq' : l' ≠ [] := by
      rintro rfl
      exact heq (List.perm_nil.mp h)
    obtain ⟨c, hok, hcontent⟩ := pktDatasetCvtoBursts_spec lib hslot (hne l heq) hreg
    obtain ⟨c', hok', hcontent'⟩ := pktDatasetCvtoBursts_spec lib hslot (hne l' heq') hreg'
    rw [hok, hok']
    constructor
    · intro d
      rw [hcontent d, hcontent' d, ← filter_slotsVisited_perm h d, List.map_map, List.map_map]
      refine List.map_congr_left fun s hs => ?_
      obtain ⟨p, hp⟩ := List.exists_mem_of_ne_nil _ (of_decide_eq_true (List.mem_filter.mp hs).2)
      obtain ⟨hp, hd⟩ := List.mem_filter.mp hp
      have hd := (of_decide_eq_true hd).1
      have hlt : d.toNat < deviceVec.length := hd ▸ hreg p hp
      show blockSigs _ = blockSigs _
      rw [blockSigs_block hlt, blockSigs_block hlt, packetSigs, packetSigs, Multiset.coe_eq_coe]
      exact (slotPackets_sort_perm h d s).map _
    · intro hties d
      rw [hcontent d, hcontent' d, ← filter_slotsVisited_perm h d]
      refine List.map_congr_left fun s _ => ?_
      rw [slotPackets_sort_eq h hties d s]
  · rw [if_neg hvalid, if_neg hvalid]
    exact ⟨rfl, fun _ => rfl⟩

end Perm

/-- **What does not depend on the schedule.** -/
theorem rawBursts_scheduleIndependent {α : Type} (lib : StdLib) (div : DivisionParam)
    (deviceVec : List KDevice) (store : α → List KPacket) (tasks : List (List α))
    {schedule schedule' : List ℕ} {l l' : List KPacket}
    (h : interleave (tasks.map fun rawVec => rawVec.flatMap store) schedule = some l)
    (h' : interleave (tasks.map fun rawVec => rawVec.flatMap store) schedule' = some l') :
    Agree SameBlocks (sortAndConvert lib div deviceVec l) (sortAndConvert lib div deviceVec l') ∧
      (TiesHarmless l → Agree SameContent (sortAndConvert lib div deviceVec l)
        (sortAndConvert lib div deviceVec l')) :=
  sortAndConvert_perm lib div deviceVec
    ((perm_of_interleave h).trans (perm_of_interleave h').symm)

/-- Two tasks with the heartbeat of the second second in both of them. -/
theorem rawBursts_scheduleIndependent_heartbeats :
    let l := heartbeats 1 3 ++ heartbeats 2 1
    let l' := heartbeats 2 1 ++ heartbeats 1 3
    Agree SameBlocks (sortAndConvert .insertion {} [camera] l)
        (sortAndConvert .insertion {} [camera] l') ∧
      Agree SameContent (sortAndConvert .insertion {} [camera] l)
        (sortAndConvert .insertion {} [camera] l') := by
  intro l l'
  have hties : TiesHarmless l := by
    unfold TiesHarmless
    decide
  obtain ⟨hblocks, hcontent⟩ := rawBursts_scheduleIndependent .insertion {} [camera] (fun p => [p])
    [heartbeats 1 3, heartbeats 2 1] (show interleave _ [0, 0, 0, 1] = some l from rfl)
    (show interleave _ [1, 0, 0, 0] = some l' from rfl)
  exact ⟨hblocks, hcontent hties⟩

/-- The signature counts of the bursts of a device. -/
def burstSigs (r : Except Fault Converter) (d : UInt16) : Option (List (List (Multiset Int16))) :=
  match r with
  | .ok c => some ((c.content d).map fun burstBlock => burstBlock.map Burst.sigs)
  | .error _ => none

theorem burstSigs_eq_of_agree {r r' : Except Fault Converter} (h : Agree SameBursts r r')
    (d : UInt16) : burstSigs r d = burstSigs r' d := by
  cases r with
  | ok c =>
    cases r' with
    | ok c' => exact congrArg some (h d)
    | error fault => exact h.elim
  | error fault =>
    cases r' with
    | ok c' => exact h.elim
    | error fault' => rfl

/-- Seventeen heartbeats, and another packet of the same flow with the last stamp. -/
def tiedTasks : List (List KPacket) :=
  [heartbeats 1 17, [⟨0, 100, 7, ⟨17, 0⟩⟩]]

/-- **The bursts depend on the schedule.**  After the seventeenth second the raw burst is overlong,
and whichever of the two packets with its stamp comes second goes to the next one. -/
theorem not_scheduleIndependent : ¬ ScheduleIndependent .insertion {} [camera] := by
  intro h
  have hagree := h tiedTasks (List.replicate 17 0 ++ [1]) (List.replicate 16 0 ++ [1, 0]) _ _
    rfl rfl
  have hsame := burstSigs_eq_of_agree hagree 0
  have hdiffer :
      burstSigs (sortAndConvert .insertion {} [camera]
          (heartbeats 1 17 ++ [⟨0, 100, 7, ⟨17, 0⟩⟩])) 0 ≠
        burstSigs (sortAndConvert .insertion {} [camera]
          (heartbeats 1 16 ++ [⟨0, 100, 7, ⟨17, 0⟩⟩] ++ heartbeats 17 1)) 0 := by
    decide +kernel
  exact hdiffer hsame

end BurstIoT
