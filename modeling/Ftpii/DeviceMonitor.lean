import Ftpii.NetFootprint
set_option autoImplicit false

/-!
check_removable_devices: what the drives report in a pass, and which partitions the
pass unmounts.
-/

namespace Ftpii
open StateProgram Prog

/-! ## Reports -/

def Devices.Awaited (d : Devices) (p : Partition) : Prop :=
  d.mountTimer ≠ 0 ∧ some p = d.mountPartition

instance (d : Devices) (p : Partition) : Decidable (d.Awaited p) :=
  inferInstanceAs (Decidable (_ ∧ _))

def Devices.Monitored (d : Devices) (p : Partition) : Prop :=
  ¬ d.Awaited p ∧ (p.isDvd ∨ p.hasDisc ∧ ¬ d.geckofail p)

instance (d : Devices) (p : Partition) : Decidable (d.Monitored p) :=
  inferInstanceAs (Decidable (_ ∧ _))

/-- A pass over the partition table, and the world at the turn of one of them. -/
def devicePass (w : World) : World := (Prog.forEach VIRTUAL_PARTITIONS checkRemovableDevice w).2

def turnWorld (p : Partition) (w : World) : World :=
  (Prog.forEach (VIRTUAL_PARTITIONS.takeWhile (· ≠ p)) checkRemovableDevice w).2

/-- What the cover register says at the turn of the DVD, if it is asked and can be read. -/
def coverReport (t : World) : Option Bool :=
  if t.devices.Awaited .dvd ∨ t.devices.dvdMountWait then none
  else if (deviceCall t).1 then none
  else some ((popDevice (deviceCall t).2).1.toNat &&& 2 = 2)

def interfaceReport (p : Partition) (t : World) : Bool :=
  if !(t.devices.inserted p || t.devices.mounted p) && p = .sd then
    (deviceCall (deviceCall t).2).1
  else (deviceCall t).1

def driveReport (w : World) (p : Partition) : Option Bool :=
  if p.isDvd then coverReport (turnWorld .dvd w)
  else if w.devices.Monitored p then some (interfaceReport p (turnWorld p w))
  else none

/-! ## The drives -/

def ChangesOnly (T : Partition → Prop) (w w' : World) : Prop := w.devices.SameBeyond T w'.devices

theorem changesOnly_drives (T : Partition → Prop) : UsesDrives T (ChangesOnly T) where
  refl w := .refl w.devices
  trans h h' := h.trans h'
  answers w _ _ := .refl w.devices
  drives _ _ h := h

theorem turn_changesOnly {T : Partition → Prop} {p : Partition} (hp : T p) :
    Keeps (ChangesOnly T) (checkRemovableDevice p) :=
  checkRemovableDevice_keeps (changesOnly_drives T) hp

theorem turns_changesOnly {T : Partition → Prop} {ps : List Partition} (h : ∀ p ∈ ps, T p) :
    Keeps (ChangesOnly T) (Prog.forEach ps checkRemovableDevice) :=
  .forEach_mem (changesOnly_drives T).toFrame ps fun p hp => turn_changesOnly (h p hp)

theorem stopIdleDvd_changes : Keeps (ChangesOnly fun _ => False) stopIdleDvd :=
  stopIdleDvd_keeps (changesOnly_drives _)

@[simp] theorem deviceCall_devices (w : World) : (deviceCall w).2.devices = w.devices :=
  popDevice_devices w

theorem mountCall_run (p : Partition) (state : Bool) (w : World) :
    mountCall p state w = ((deviceCall w).1, { (deviceCall w).2 with devices := { w.devices with
      mounted := if (deviceCall w).1 then Function.update w.devices.mounted p state
        else w.devices.mounted } }) := by
  simp +instances only [mountCall, bind_run, ite_run, pure_run, setMounted, updateDevices,
    modify_run, deviceCall_devices]
  cases (deviceCall w).1 with
  | true => rfl
  | false =>
    simp only [Bool.false_eq_true, if_false, Prod.mk.injEq, true_and]
    rw [← deviceCall_devices w]

/-- Unmounting a disc: not while one is being mounted, and if the library says so. -/
theorem unmount_disc {p : Partition} (hd : p.isDvd) {w : World} (hm : w.devices.mounted p) :
    ({ w.devices with
      mounted := if ¬ w.devices.dvdMountWait ∧ (deviceCall w).1 then
        Function.update w.devices.mounted p false else w.devices.mounted } : Devices).SameBeyond
      (fun _ => False) (unmount (some p) w).2.devices := by
  simp +instances only [unmount, mounted, dvdMountWait, bind_run, gets_run, ite_run, pure_run, hm,
    hd, Bool.not_true, Bool.true_and, Bool.false_or, if_true]
  by_cases hw : w.devices.dvdMountWait = true
  · rw [if_pos hw, if_neg fun h => h.1 hw]
    exact .refl w.devices
  · rw [if_neg hw]
    have hstop := stopIdleDvd_changes (mountCall p false w).2
    simp only [and_iff_right hw]
    simpa only [ChangesOnly, mountCall_run] using hstop

theorem Partition.isDvd_of_isFat {p : Partition} (h : p.isFat) : p.isDvd = false := by
  cases p <;> first | rfl | cases h

theorem unmount_fat {p : Partition} (hf : p.isFat) {w : World} (hm : w.devices.mounted p) :
    (unmount (some p) w).2.devices =
      { w.devices with mounted := Function.update w.devices.mounted p false } := by
  have hd := Partition.isDvd_of_isFat hf
  simp +instances only [unmount, mounted, dvdMountWait, bind_run, gets_run, pure_run, hm, hd, hf,
    Bool.not_true, Bool.false_and, Bool.or_false, Bool.false_eq_true, if_false, if_true,
    setMounted, updateDevices, modify_run]

/-! ## One turn -/

/-- The flag the turn of p leaves it with, if it is monitored. -/
def insertedReport (p : Partition) (t : World) : Bool :=
  if p = .dvd then (coverReport t).getD (t.devices.inserted .dvd)
  else if p.isDvd then t.devices.inserted .dvd
  else interfaceReport p t

def askedWorld (p : Partition) (t : World) : World :=
  (readInserted p t.devices (t.devices.inserted p || t.devices.mounted p) t).2

theorem askedWorld_devices {p : Partition} {t : World} (h : t.devices.Monitored p) :
    (askedWorld p t).devices =
      { t.devices with inserted := Function.update t.devices.inserted p (insertedReport p t) } := by
  unfold askedWorld readInserted
  by_cases hd : p.isDvd
  · simp only [hd, if_true]
    by_cases hdvd : p = .dvd
    · subst hdvd
      simp +instances only [if_true, readDvdCover, dvdMountWait, bind_run, gets_run, ite_run,
        pure_run, insertedReport, coverReport, h.1, false_or]
      by_cases hw : t.devices.dvdMountWait = true
      · simp only [if_pos hw, Option.getD_none, Function.update_eq_self]
      · simp only [if_neg hw]
        by_cases he : (deviceCall t).1 = true
        · simp only [if_pos he, Option.getD_none, Function.update_eq_self, deviceCall_devices]
        · simp only [if_neg he, Option.getD_some, setInserted, updateDevices, modify_run,
            popDevice_devices, deviceCall_devices]
    · simp only [hdvd, if_false, setInserted, updateDevices, modify_run, insertedReport, hd,
        if_true]
  · simp only [hd, Bool.false_eq_true, if_false]
    have hdvd : p ≠ .dvd := fun h => hd (by rw [h]; rfl)
    simp +instances only [readDiscInterface, bind_run, ite_run, pure_run, setInserted,
      updateDevices, modify_run, insertedReport, hdvd, hd, Bool.false_eq_true, if_false,
      interfaceReport]
    split <;> simp

theorem checkRemovableDevice_unmonitored {p : Partition} {t : World}
    (h : ¬ t.devices.Monitored p) : (checkRemovableDevice p t).2 = t := by
  simp +instances only [checkRemovableDevice, bind_run, gets_run, ite_run, pure_run]
  by_cases ha : t.devices.Awaited p
  · exact congrArg Prod.snd (if_pos ha)
  · have hguard : ((!p.hasDisc || t.devices.geckofail p) && !p.isDvd) = true := by
      simp only [Devices.Monitored, ha, not_false_eq_true, true_and, not_or, not_and, not_not] at h
      cases hc : p.hasDisc <;> simp_all
    have hrun : wasInsertedOrRemoved p t = (false, t) := by
      simp +instances only [wasInsertedOrRemoved, bind_run, gets_run, hguard, if_true, pure_run]
    refine (congrArg Prod.snd (if_neg ha)).trans ?_
    simp only [hrun, Bool.false_eq_true, if_false]

/-- A monitored partition's turn, once its drive has been asked. -/
theorem checkRemovableDevice_asked {p : Partition} {t : World} (h : t.devices.Monitored p) :
    (checkRemovableDevice p t).2 =
      if (t.devices.inserted p || t.devices.mounted p) = insertedReport p t then askedWorld p t
      else if insertedReport p t then
        (if p = .dvd then startDvdMount
         else if p.isDvd then pure ()
         else do
          let success ← mount (some p)
          if !success && p.isGecko then setGeckofail p true else pure ()) (askedWorld p t) |>.2
      else if t.devices.mounted p then (unmount (some p) (askedWorld p t)).2
      else askedWorld p t := by
  have hguard : ((!p.hasDisc || t.devices.geckofail p) && !p.isDvd) = false := by
    obtain ⟨-, hd | ⟨hc, hg⟩⟩ := h
    · simp [hd]
    · simp [hc, hg]
  have hflag : (askedWorld p t).devices.inserted p = insertedReport p t := by
    rw [askedWorld_devices h]
    exact Function.update_self ..
  have hmount : (askedWorld p t).devices.mounted p = t.devices.mounted p := by
    rw [askedWorld_devices h]
  have hrun : wasInsertedOrRemoved p t =
      ((t.devices.inserted p || t.devices.mounted p) != insertedReport p t, askedWorld p t) := by
    simp +instances only [wasInsertedOrRemoved, bind_run, gets_run, hguard, Bool.false_eq_true,
      if_false, pure_run]
    rw [← hflag]
    rfl
  refine (congrArg Prod.snd (congrFun (if_neg h.1) t)).trans ?_
  simp +instances only [bind_run, gets_run, ite_run, pure_run, hrun, hflag, hmount, bne_iff_ne]
  by_cases hsame : (t.devices.inserted p || t.devices.mounted p) = insertedReport p t
  · simp only [hsame, ne_eq, not_true_eq_false, if_false, if_true]
  · simp only [hsame, ne_eq, not_false_eq_true, if_true, if_false]
    cases hr : insertedReport p t with
    | true =>
      simp +instances only [Bool.true_and, if_true, Bool.not_true, Bool.false_and,
        Bool.false_eq_true, if_false]
      have hnot : t.devices.mounted p = false := by simp_all
      by_cases hdvd : p = .dvd
      · simp [hdvd]
      · by_cases hd : p.isDvd <;> simp [hdvd, hd, hnot]
    | false =>
      simp +instances only [Bool.false_and, Bool.not_false, Bool.true_and, Bool.false_eq_true,
        if_false]
      split <;> rfl

theorem turn_absent {p : Partition} {t : World} (h : t.devices.Monitored p)
    (hr : insertedReport p t = false) :
    (checkRemovableDevice p t).2 =
      if t.devices.mounted p then (unmount (some p) (askedWorld p t)).2 else askedWorld p t := by
  rw [checkRemovableDevice_asked h, hr]
  cases hi : t.devices.inserted p <;> cases hm : t.devices.mounted p <;> simp

theorem turn_present {p : Partition} {t : World} (h : t.devices.Monitored p)
    (hm : t.devices.mounted p) (hr : insertedReport p t = true) :
    (checkRemovableDevice p t).2 = askedWorld p t := by
  rw [checkRemovableDevice_asked h, hr, hm, Bool.or_true, if_pos rfl]

theorem turn_fat {p : Partition} (hf : p.isFat) {t : World} (h : t.devices.Monitored p) :
    (interfaceReport p t = false → (checkRemovableDevice p t).2.devices.mounted p = false) ∧
    (interfaceReport p t = true → t.devices.mounted p →
      (checkRemovableDevice p t).2.devices.mounted p = true) := by
  have hd := Partition.isDvd_of_isFat hf
  have hdvd : p ≠ .dvd := fun he => by rw [he] at hf; cases hf
  have hreport : insertedReport p t = interfaceReport p t := by
    simp only [insertedReport, hdvd, hd, Bool.false_eq_true, if_false]
  have hasked := askedWorld_devices h
  constructor
  · intro hr
    rw [turn_absent h (hreport.trans hr)]
    by_cases hm : t.devices.mounted p
    · rw [if_pos hm, unmount_fat hf (by rw [hasked]; exact hm)]
      exact Function.update_self ..
    · rw [if_neg hm, hasked]
      simpa using hm
  · intro hr hm
    rw [turn_present h hm (hreport.trans hr), hasked]
    exact hm

theorem turn_disc {p : Partition} (hd : p.isDvd) {t : World} (h : t.devices.Monitored p)
    (hm : t.devices.mounted p) :
    (checkRemovableDevice p t).2.devices.mounted p = false ↔
      insertedReport p t = false ∧ ¬ t.devices.dvdMountWait ∧ (deviceCall (askedWorld p t)).1 := by
  have hasked := askedWorld_devices h
  cases hr : insertedReport p t with
  | true =>
    rw [turn_present h hm hr, hasked]
    simp [hm]
  | false =>
    rw [turn_absent h hr, if_pos hm]
    have hu := (unmount_disc hd (w := askedWorld p t) (by rw [hasked]; exact hm)).mounted p (by simp)
    rw [hu, hasked]
    by_cases hc : ¬ t.devices.dvdMountWait ∧ (deviceCall (askedWorld p t)).1
    · simp [hc]
    · rw [if_neg hc]
      simpa [hm] using hc

/-! ## The disc between the turns of its partitions -/

theorem startDvdMount_devices (w : World) :
    (startDvdMount w).2.devices =
      { w.devices with dvdMountWait := true, calls := w.devices.calls ++ [.diMount] } :=
  popDevice_devices { w with
    devices := { w.devices with dvdMountWait := true, calls := w.devices.calls ++ [.diMount] } }

/-- The turn of the DVD leaves the flag the other two partitions read. -/
theorem turn_dvd_flag (t : World) :
    (checkRemovableDevice .dvd t).2.devices.inserted .dvd =
      (coverReport t).getD (t.devices.inserted .dvd) := by
  by_cases h : t.devices.Monitored .dvd
  · have hflag : (askedWorld .dvd t).devices.inserted .dvd =
        (coverReport t).getD (t.devices.inserted .dvd) := by
      simp [askedWorld_devices h, insertedReport]
    rw [checkRemovableDevice_asked h, ← hflag]
    split
    · rfl
    · split
      · rw [if_pos rfl, startDvdMount_devices]
      · by_cases hm : t.devices.mounted .dvd
        · rw [if_pos hm]
          refine (unmount_disc rfl (w := askedWorld .dvd t) ?_).inserted .dvd (by simp)
          rw [askedWorld_devices h]
          exact hm
        · rw [if_neg hm]
  · have ha : t.devices.Awaited .dvd := by
      simp only [Devices.Monitored, not_and, not_or] at h
      by_contra hn
      exact (h hn).1 rfl
    rw [checkRemovableDevice_unmonitored h, coverReport, if_pos (.inl ha), Option.getD_none]

/-- Unless a disc was put in, the turn leaves dvd_mountWait alone. -/
theorem turn_disc_wait {p : Partition} (hd : p.isDvd) {t : World}
    (hr : p = .dvd → (coverReport t).getD (t.devices.inserted .dvd) = false) :
    (checkRemovableDevice p t).2.devices.dvdMountWait = t.devices.dvdMountWait := by
  by_cases h : t.devices.Monitored p
  · have hwait : (askedWorld p t).devices.dvdMountWait = t.devices.dvdMountWait := by
      rw [askedWorld_devices h]
    rw [checkRemovableDevice_asked h, ← hwait]
    split
    · rfl
    · split
      · next hpresent =>
        by_cases hdvd : p = .dvd
        · subst hdvd
          simp only [insertedReport, if_true] at hpresent
          rw [hr rfl] at hpresent
          cases hpresent
        · simp [hdvd]
      · by_cases hm : t.devices.mounted p
        · rw [if_pos hm]
          refine (unmount_disc hd (w := askedWorld p t) ?_).dvdMountWait (by simp)
          rw [askedWorld_devices h]
          exact hm
        · rw [if_neg hm]
  · rw [checkRemovableDevice_unmonitored h]

/-! ## The pass -/

theorem turnWorld_changes (p : Partition) (w : World) :
    w.devices.SameBeyond (· ≠ p) (turnWorld p w).devices :=
  turns_changesOnly (fun q hq => by simpa using List.mem_takeWhile_imp hq) w

theorem turnWorld_awaited (p q : Partition) (w : World) :
    (turnWorld p w).devices.Awaited q ↔ w.devices.Awaited q := by
  have h := turnWorld_changes p w
  rw [Devices.Awaited, Devices.Awaited, h.mountTimer, h.mountPartition]

theorem turnWorld_mounted (p : Partition) (w : World) :
    (turnWorld p w).devices.mounted p = w.devices.mounted p :=
  (turnWorld_changes p w).mounted p (by simp)

theorem turnWorld_monitored (p : Partition) (w : World) :
    (turnWorld p w).devices.Monitored p ↔ w.devices.Monitored p := by
  rw [Devices.Monitored, Devices.Monitored, turnWorld_awaited,
    (turnWorld_changes p w).geckofail p (by simp)]

theorem table_split (p : Partition) : ∃ after, p ∉ after ∧
    VIRTUAL_PARTITIONS = VIRTUAL_PARTITIONS.takeWhile (· ≠ p) ++ p :: after := by
  refine ⟨(VIRTUAL_PARTITIONS.dropWhile (· ≠ p)).tail, ?_⟩
  cases p <;> decide

/-- What a pass leaves of a partition is what its turn left. -/
theorem devicePass_mounted (p : Partition) (w : World) :
    (devicePass w).devices.mounted p =
      (checkRemovableDevice p (turnWorld p w)).2.devices.mounted p := by
  obtain ⟨after, hp, hsplit⟩ := table_split p
  have hrun : devicePass w =
      (Prog.forEach after checkRemovableDevice (checkRemovableDevice p (turnWorld p w)).2).2 := by
    rw [devicePass, hsplit, forEach_append]
    rfl
  have hother : ∀ q ∈ after, q ≠ p := fun q hq he => hp (he ▸ hq)
  have hrest := turns_changesOnly (T := (· ≠ p)) hother (checkRemovableDevice p (turnWorld p w)).2
  rw [hrun, hrest.mounted p (by simp)]

theorem turnWorld_dvd (w : World) :
    (turnWorld .dvd w).devices.inserted .dvd = w.devices.inserted .dvd ∧
      (turnWorld .dvd w).devices.dvdMountWait = w.devices.dvdMountWait := by
  have hother : ∀ q ∈ VIRTUAL_PARTITIONS.takeWhile (· ≠ .dvd), ¬ q.isDvd := by decide
  have h := turns_changesOnly (T := fun q => ¬ q.isDvd) hother w
  exact ⟨h.inserted .dvd (by decide), h.dvdMountWait (by simp)⟩

/-! ## When a pass keeps to the reports -/

/-- A pass from w to w' acts only on reports. -/
structure FaithfulPass (w w' : World) : Prop where
  unmounts : ∀ p, w.devices.mounted p → ¬ w'.devices.mounted p → driveReport w p = some false
  removed : ∀ p, p.isFat → w.devices.Monitored p → driveReport w p = some false →
    ¬ w'.devices.mounted p

/-- The answer to the library's unmount call at the turn of p, after a cover register that
cannot be read. -/
def unmountAnswer (p : Partition) (t : World) : Bool :=
  if p = .dvd then (deviceCall (deviceCall t).2).1 else (deviceCall t).1

/-- A disc is mounted against its flag, in a pass without a word from its drive. -/
structure StaleUnmount (w : World) (p : Partition) : Prop where
  disc : p.isDvd
  mounted : w.devices.mounted p
  monitored : ¬ w.devices.Awaited p
  idle : ¬ w.devices.dvdMountWait
  flag : ¬ w.devices.inserted .dvd
  unreported : w.devices.Awaited .dvd ∨ (deviceCall (turnWorld .dvd w)).1
  answer : unmountAnswer p (turnWorld p w)

theorem turnWorld_next {p q : Partition}
    (h : VIRTUAL_PARTITIONS.takeWhile (· ≠ q) = VIRTUAL_PARTITIONS.takeWhile (· ≠ p) ++ [p])
    (w : World) : turnWorld q w = (checkRemovableDevice p (turnWorld p w)).2 := by
  rw [turnWorld, h, forEach_append]
  rfl

/-- The discs share the flag that the DVD's turn leaves. -/
theorem insertedReport_disc {p : Partition} (hd : p.isDvd) (w : World) :
    insertedReport p (turnWorld p w) =
      (coverReport (turnWorld .dvd w)).getD (w.devices.inserted .dvd) := by
  have hflag : (turnWorld .wod w).devices.inserted .dvd =
      (coverReport (turnWorld .dvd w)).getD (w.devices.inserted .dvd) := by
    rw [turnWorld_next (p := .dvd) (q := .wod) (by decide), turn_dvd_flag, (turnWorld_dvd w).1]
  cases p with
  | dvd => rw [insertedReport, if_pos rfl, (turnWorld_dvd w).1]
  | wod => exact hflag
  | fst =>
    have hturn := turn_changesOnly (T := (· = .wod)) rfl (turnWorld .wod w)
    rw [← turnWorld_next (p := .wod) (q := .fst) (by decide)] at hturn
    exact (hturn.inserted .dvd (by simp)).trans hflag
  | _ => cases hd

/-- With no disc reported or remembered, dvd_mountWait stays as before the pass. -/
theorem turnWorld_wait {p : Partition} (hd : p.isDvd) {w : World}
    (h : (coverReport (turnWorld .dvd w)).getD (w.devices.inserted .dvd) = false) :
    (turnWorld p w).devices.dvdMountWait = w.devices.dvdMountWait := by
  have hwod : (turnWorld .wod w).devices.dvdMountWait = w.devices.dvdMountWait := by
    rw [turnWorld_next (p := .dvd) (q := .wod) (by decide), ← (turnWorld_dvd w).2]
    exact turn_disc_wait rfl fun _ => by rw [(turnWorld_dvd w).1, h]
  cases p with
  | dvd => exact (turnWorld_dvd w).2
  | wod => exact hwod
  | fst =>
    rw [turnWorld_next (p := .wod) (q := .fst) (by decide), ← hwod]
    exact turn_disc_wait rfl (by simp)
  | _ => cases hd

theorem coverReport_none {w : World} (hw : ¬ w.devices.dvdMountWait) :
    coverReport (turnWorld .dvd w) = none ↔
      w.devices.Awaited .dvd ∨ (deviceCall (turnWorld .dvd w)).1 := by
  have hwt : ¬ (turnWorld .dvd w).devices.dvdMountWait := by rw [(turnWorld_dvd w).2]; exact hw
  simp only [coverReport, turnWorld_awaited]
  by_cases ha : w.devices.Awaited .dvd
  · simp [ha]
  · by_cases he : (deviceCall (turnWorld .dvd w)).1 = true <;> simp [ha, hwt, he]

theorem deviceCall_answer (w : World) :
    (deviceCall w).1 = decide (w.answers.devices.headD 0 ≠ 0) := by
  have hpop : (popDevice w).1 = w.answers.devices.headD 0 := by
    unfold popDevice
    split <;> simp [*]
  simp only [deviceCall, bind_run, pure_run, hpop]

/-- The call that unmounts p is the next one after the drive was asked. -/
theorem unmountAnswer_eq {p : Partition} (hd : p.isDvd) {t : World}
    (hn : p = .dvd → ¬ t.devices.dvdMountWait ∧ (deviceCall t).1) :
    (deviceCall (askedWorld p t)).1 = unmountAnswer p t := by
  unfold askedWorld readInserted unmountAnswer
  by_cases hdvd : p = .dvd
  · obtain ⟨hw, he⟩ := hn hdvd
    have hread : (readDvdCover t).2 = (deviceCall t).2 := by
      simp +instances only [readDvdCover, dvdMountWait, bind_run, gets_run, ite_run, pure_run, he,
        if_true]
      rw [if_neg hw]
    rw [if_pos hd, if_pos hdvd, if_pos hdvd, hread]
  · rw [if_pos hd, if_neg hdvd, if_neg hdvd]
    rw [deviceCall_answer, deviceCall_answer]
    rfl

theorem unmountAnswer_turn {p : Partition} (hd : p.isDvd) {w : World} (ha : ¬ w.devices.Awaited p)
    (hw : ¬ (turnWorld p w).devices.dvdMountWait)
    (hn : w.devices.Awaited .dvd ∨ (deviceCall (turnWorld .dvd w)).1) :
    (deviceCall (askedWorld p (turnWorld p w))).1 = unmountAnswer p (turnWorld p w) := by
  refine unmountAnswer_eq hd fun hdvd => ?_
  subst hdvd
  exact ⟨hw, hn.resolve_left ha⟩

/-- Without a report a disc is unmounted on a stale flag, and only then. -/
theorem unmounted_unreported {p : Partition} (hd : p.isDvd) {w : World} (hm : w.devices.mounted p)
    (hn : coverReport (turnWorld .dvd w) = none) :
    (devicePass w).devices.mounted p = false ↔ StaleUnmount w p := by
  have hreport : insertedReport p (turnWorld p w) = w.devices.inserted .dvd := by
    rw [insertedReport_disc hd, hn, Option.getD_none]
  have hwait : w.devices.inserted .dvd = false →
      (turnWorld p w).devices.dvdMountWait = w.devices.dvdMountWait := fun hf =>
    turnWorld_wait hd (by rw [hn, Option.getD_none, hf])
  have hmt : (turnWorld p w).devices.mounted p := by rw [turnWorld_mounted, hm]
  rw [devicePass_mounted]
  by_cases ha : w.devices.Awaited p
  · have hnot : ¬ (turnWorld p w).devices.Monitored p := fun h =>
      h.1 ((turnWorld_awaited p p w).mpr ha)
    rw [checkRemovableDevice_unmonitored hnot, hmt]
    exact ⟨fun h => by simp at h, fun h => absurd ha h.monitored⟩
  · have hat : ¬ (turnWorld p w).devices.Awaited p := fun h => ha ((turnWorld_awaited p p w).mp h)
    rw [turn_disc hd ⟨hat, .inl hd⟩ hmt, hreport]
    constructor
    · rintro ⟨hf, hw, hans⟩
      have hidle : ¬ w.devices.dvdMountWait := by rwa [hwait hf] at hw
      have hun := (coverReport_none hidle).mp hn
      exact ⟨hd, hm, ha, hidle, by simp [hf], hun, by rwa [unmountAnswer_turn hd ha hw hun] at hans⟩
    · intro h
      have hf : w.devices.inserted .dvd = false := by simpa using h.flag
      have hw : ¬ (turnWorld p w).devices.dvdMountWait := by rw [hwait hf]; exact h.idle
      exact ⟨hf, hw, by rw [unmountAnswer_turn hd ha hw h.unreported]; exact h.answer⟩

theorem unmounted_monitored {p : Partition} {w : World} (hm : w.devices.mounted p)
    (hu : ¬ (devicePass w).devices.mounted p) : w.devices.Monitored p := by
  by_contra hn
  have hnt : ¬ (turnWorld p w).devices.Monitored p := fun h => hn ((turnWorld_monitored p w).mp h)
  rw [devicePass_mounted, checkRemovableDevice_unmonitored hnt, turnWorld_mounted] at hu
  exact hu hm

theorem unmounted_disc {p : Partition} (hd : p.isDvd) {w : World} (hm : w.devices.mounted p)
    (hu : ¬ (devicePass w).devices.mounted p) :
    coverReport (turnWorld .dvd w) = some false ∨ StaleUnmount w p := by
  cases hr : coverReport (turnWorld .dvd w) with
  | none => exact .inr ((unmounted_unreported hd hm hr).mp (by simpa using hu))
  | some b =>
    have hmon := (turnWorld_monitored p w).mpr (unmounted_monitored hm hu)
    rw [devicePass_mounted] at hu
    have hturn := (turn_disc hd hmon (by rw [turnWorld_mounted, hm])).mp (by simpa using hu)
    rw [insertedReport_disc hd, hr] at hturn
    exact .inl (congrArg some hturn.1)

theorem fat_of_monitored {p : Partition} {d : Devices} (h : d.Monitored p) (hd : ¬ p.isDvd) :
    p.isFat := by
  have hc : p.hasDisc := (h.2.resolve_left hd).1
  cases p <;> first | rfl | cases hc

/-- A pass over the table keeps to the reports unless it unmounts a disc on a stale flag. -/
theorem devicePass_faithful (w : World) :
    FaithfulPass w (devicePass w) ↔ ∀ p, ¬ StaleUnmount w p := by
  constructor
  · intro h p hs
    have hn := (coverReport_none hs.idle).mpr hs.unreported
    have hu := (unmounted_unreported hs.disc hs.mounted hn).mpr hs
    have hreport := h.unmounts p hs.mounted (by simp [hu])
    rw [driveReport, if_pos hs.disc, hn] at hreport
    cases hreport
  · intro h
    constructor
    · intro p hm hu
      have hmon := unmounted_monitored hm hu
      by_cases hd : p.isDvd
      · rw [driveReport, if_pos hd]
        exact (unmounted_disc hd hm hu).resolve_right (h p)
      · have hfat := turn_fat (fat_of_monitored hmon hd) ((turnWorld_monitored p w).mpr hmon)
        rw [devicePass_mounted] at hu
        rw [driveReport, if_neg hd, if_pos hmon]
        cases hr : interfaceReport p (turnWorld p w) with
        | false => rfl
        | true => exact absurd (hfat.2 hr (by rw [turnWorld_mounted, hm])) hu
    · intro p hf hmon hreport
      have hd : ¬ p.isDvd := by simp [Partition.isDvd_of_isFat hf]
      rw [driveReport, if_neg hd, if_pos hmon] at hreport
      have hfat := turn_fat hf ((turnWorld_monitored p w).mpr hmon)
      simp [devicePass_mounted, hfat.1 (by simpa using hreport)]

theorem checkRemovableDevices_run {now : Nat} {w : World} (h : w.devices.deviceCheckTimer < now) :
    (checkRemovableDevices now w).2.devices.mounted = (devicePass w).devices.mounted := by
  have hnot : ¬ now ≤ w.devices.deviceCheckTimer := by omega
  have hclock : ∀ u : World, (gettime u).2.devices = u.devices :=
    gettime_keeps (P := fun w w' : World => w'.devices = w.devices)
      ⟨fun _ => rfl, fun h h' => h'.trans h⟩ fun _ _ _ => rfl
  simp +instances only [checkRemovableDevices, bind_run, gets_run, ite_run, hnot, if_false,
    updateDevices, modify_run, hclock, devicePass]

/-- Exactly when a pass of check_removable_devices acts only on reports. -/
theorem checkRemovableDevices_faithful {now : Nat} {w : World}
    (h : w.devices.deviceCheckTimer < now) :
    FaithfulPass w (checkRemovableDevices now w).2 ↔ ∀ p, ¬ StaleUnmount w p := by
  rw [← devicePass_faithful]
  have hrun := checkRemovableDevices_run h
  constructor
  · intro hf
    exact ⟨by simpa only [hrun] using hf.unmounts, by simpa only [hrun] using hf.removed⟩
  · intro hf
    exact ⟨by simpa only [hrun] using hf.unmounts, by simpa only [hrun] using hf.removed⟩

/-- SITE MOUNT /dvd on a fresh server; then the devices answer as given. -/
def dvdMounted (devices : List Int) : World :=
  (mountVirtual "/dvd".toList { World.boot (fun _ => none) (fun _ => false) (fun _ => []) with
    answers := { devices := [0, 1, 1, 1, 5, 0, 0] ++ devices } }).2

/-- A disc whose cover register says it is gone. -/
theorem checkRemovableDevices_faithful_removed :
    (dvdMounted [0, 0, 1, 0, 0, 0, 0, 1]).devices.mounted .dvd = true ∧
    (checkRemovableDevices 1 (dvdMounted [0, 0, 1, 0, 0, 0, 0, 1])).2.devices.mounted .dvd = false ∧
    FaithfulPass (dvdMounted [0, 0, 1, 0, 0, 0, 0, 1])
      (checkRemovableDevices 1 (dvdMounted [0, 0, 1, 0, 0, 0, 0, 1])).2 := by
  refine ⟨by decide +kernel, by decide +kernel, ?_⟩
  refine (checkRemovableDevices_faithful (by decide +kernel)).mpr fun p h => ?_
  have hreported : ¬ ((dvdMounted [0, 0, 1, 0, 0, 0, 0, 1]).devices.Awaited .dvd ∨
      (deviceCall (turnWorld .dvd (dvdMounted [0, 0, 1, 0, 0, 0, 0, 1]))).1) := by decide +kernel
  exact hreported h.unreported

/-- The cover register cannot be read, and the disc just mounted is taken for removed. -/
theorem cover_unread :
    ¬ FaithfulPass (dvdMounted [0, 0, 1, 0, 0, 1, 1])
      (checkRemovableDevices 1 (dvdMounted [0, 0, 1, 0, 0, 1, 1])).2 := by
  intro h
  have hreport := h.unmounts .dvd (by decide +kernel) (by decide +kernel)
  revert hreport
  decide +kernel

end Ftpii
