import Ftpii.ControlStream
import Ftpii.DeviceMonitor
import Ftpii.ServerFootprint
set_option autoImplicit false

/-!
The protocol around dvd_mountWait. Once the drive was told to get ready for a disc, nothing that
clients ask for, no button and no timer touches the partitions of the disc, until the main loop finds
the drive ready and mounts them.
-/

namespace Ftpii
open StateProgram Prog

/-! ## Relations on the devices -/

def OnDevices (Q : Devices → Devices → Prop) (w w' : World) : Prop := Q w.devices w'.devices

section OnDevices

variable {Q : Devices → Devices → Prop} (refl : ∀ d, Q d d)
  (trans : ∀ {a b c}, Q a b → Q b c → Q a c)

include refl trans

theorem OnDevices.frame : Frame (OnDevices Q) where
  refl w := refl w.devices
  trans h h' := trans h h'

theorem OnDevices.sockets : UsesSockets (OnDevices Q) where
  toFrame := OnDevices.frame refl trans
  answers w _ _ := refl w.devices
  shrink w := refl w.devices
  flags w _ _ _ _ _ := refl w.devices
  write w _ _ _ _ _ _ _ := refl w.devices
  opened w _ _ := refl w.devices
  bound w _ _ _ _ := refl w.devices
  listening w _ _ _ := refl w.devices
  closed w _ := refl w.devices
  waits w _ _ := refl w.devices
  connects w _ _ := refl w.devices
  received w _ _ _ _ := refl w.devices

theorem OnDevices.streams : UsesStreams (OnDevices Q) where
  toFrame := OnDevices.frame refl trans
  answers w _ _ := refl w.devices
  errno w _ := refl w.devices
  disk w _ := refl w.devices
  renamed w _ _ := refl w.devices
  opened w _ := refl w.devices
  stream w _ _ _ _ _ := refl w.devices
  close w _ _ _ := refl w.devices

theorem OnDevices.use (devices : Mounts (OnDevices Q)) : WorldUse (OnDevices Q) where
  sockets := OnDevices.sockets refl trans
  streams := OnDevices.streams refl trans
  devices := devices
  emit w _ _ := refl w.devices
  statics w _ _ _ _ := refl w.devices

end OnDevices

/-! ## While the drive gets ready -/

/-- If the drive is getting ready it still is, and the disc's partitions are as they were. -/
def DiscFrozen (d d' : Devices) : Prop :=
  d.dvdMountWait = true → d'.dvdMountWait = true ∧ ∀ p, p.isDvd → d'.mounted p = d.mounted p

theorem DiscFrozen.refl (d : Devices) : DiscFrozen d d := fun h => ⟨h, fun _ _ => rfl⟩

theorem DiscFrozen.trans {a b c : Devices} (h : DiscFrozen a b) (h' : DiscFrozen b c) :
    DiscFrozen a c := by
  intro ha
  obtain ⟨hb, hab⟩ := h ha
  obtain ⟨hc, hbc⟩ := h' hb
  exact ⟨hc, fun p hp => (hbc p hp).trans (hab p hp)⟩

theorem discFrozen_frame : Frame (OnDevices DiscFrozen) := OnDevices.frame DiscFrozen.refl .trans

/-- The partitions that are not the disc's come and go meanwhile. -/
theorem discFrozen_drives : UsesDrives (fun p => ¬ p.isDvd) (OnDevices DiscFrozen) where
  toFrame := discFrozen_frame
  answers w _ _ := .refl w.devices
  drives w d h hw := by
    refine ⟨?_, fun p hp => h.mounted p (not_not.mpr hp)⟩
    rw [h.dvdMountWait fun p hp => hp]
    exact hw

theorem mount_frozen (p : Partition) : Keeps (OnDevices DiscFrozen) (mount (some p)) := by
  by_cases hd : p.isDvd
  · intro w hw
    have hnoted : (noteDrive (.mount (some p)) w).2.devices.dvdMountWait = true := hw
    have hrefused : (mount (some p) w).2 = (noteDrive (.mount (some p)) w).2 := by
      simp +instances only [mount, bind_run, mounted, dvdMountWait, gets_run, ite_run, pure_run,
        hnoted, hd, Bool.and_true, Bool.or_true, if_true]
    rw [hrefused]
    exact ⟨hw, fun _ _ => rfl⟩
  · exact mountSome_keeps discFrozen_drives hd

theorem unmount_frozen (p : Partition) : Keeps (OnDevices DiscFrozen) (unmount (some p)) := by
  by_cases hd : p.isDvd
  · intro w hw
    have hrefused : (unmount (some p) w).2 = w := by
      simp +instances only [unmount, bind_run, mounted, dvdMountWait, gets_run, ite_run, pure_run, hw,
        hd, Bool.and_true, Bool.or_true, if_true]
    rw [hrefused]
    exact ⟨hw, fun _ _ => rfl⟩
  · exact unmountSome_keeps discFrozen_drives hd

theorem startDvdMount_frozen : Keeps (OnDevices DiscFrozen) startDvdMount := by
  refine .bind discFrozen_frame (fun w _ => ⟨rfl, fun _ _ => rfl⟩) fun _ => ?_
  have hpop := popDevice_keeps discFrozen_frame fun w _ _ => .refl w.devices
  exact .bind discFrozen_frame (.bind discFrozen_frame (fun w hw => ⟨hw, fun _ _ => rfl⟩) fun _ => hpop)
    fun _ => .pure discFrozen_frame _

theorem discFrozen_console : UsesConsole (OnDevices DiscFrozen) where
  toFrame := discFrozen_frame
  answers w _ _ := .refl w.devices
  inserted _ _ _ _ hw := ⟨hw, fun _ _ => rfl⟩
  geckofail _ _ _ _ hw := ⟨hw, fun _ _ => rfl⟩
  mount p _ := mount_frozen p
  unmount p _ := unmount_frozen p
  start _ _ _ := startDvdMount_frozen
  others _ _ hwait hm hw := ⟨hwait.trans hw, fun p _ => congrFun hm p⟩

/-! ## Steps -/

section Steps

variable {Q : Devices → Devices → Prop} (refl : ∀ d, Q d d)
  (trans : ∀ {a b c}, Q a b → Q b c → Q a c) (console : UsesConsole (OnDevices Q))

include refl trans console

theorem OnDevices.shutdown : Keeps (OnServer (OnDevices Q)) shutdown := by
  have hc := (OnDevices.use refl trans console.mounts).clients
  have hF := hc.frame
  have hunmount : ∀ p, Keeps (OnServer (OnDevices Q)) (do
      let _ ← sys (unmount (some p))
      pure ()) := fun p => .bind hF (sys_keeps (console.unmount p trivial)) fun _ => .pure hF _
  refine .bind hF hc.cleanupFtp fun _ => .bind hF (.get hF) fun _ =>
    .bind hF (sys_keeps (netClose_keeps hc.sockets _)) fun _ => ?_
  exact .bind hF (.forEach hF hunmount _) fun _ => .bind hF (sys_keeps console.stop) fun _ =>
    hc.table _ (fun _ => rfl) fun _ => rfl

/-- What mounting, unmounting, the buttons and the timers keep of the devices, every step keeps in
which the main loop does not look for a disc that was got ready. -/
theorem OnDevices.step {l : Label} (hl : l ≠ .dvdMount) (s : Server) :
    Q s.world.devices (s.step l).world.devices := by
  have hw := OnDevices.use refl trans console.mounts
  unfold Server.step
  split
  · exact refl s.world.devices
  cases l with
  | env answers => exact refl s.world.devices
  | reinit =>
    obtain ⟨w, server, down, halted, hn, he⟩ := reinitialise_cases s
    simp only [Label.run, he]
    exact hn (OnDevices Q) hw.sockets fun v => refl v.devices
  | dvdMount => exact absurd rfl hl
  | accept => exact (hw.clients.acceptEvents s).world
  | slot i =>
    exact (hw.clients.processSlot (dataEvents_keeps hw.data) (controlEvents_keeps hw.control.reads)
      i s).world
  | wiimote => exact console.wiimoteEvents (fun w => refl w.devices) s.world
  | gamecube => exact console.gamecubeEvents (fun w => refl w.devices) s.world
  | timers => exact console.timerEvents s.world
  | shutdown => exact (OnDevices.shutdown refl trans console s).world

end Steps

/-! ## When the drive is ready -/

/-- What the drive will answer when it has been asked n times more. -/
def World.driveAnswer (w : World) (n : Nat) : Bool := w.answers.devices.getD n 0 ≠ 0

def World.asked (w : World) : World :=
  { w with answers := { w.answers with devices := w.answers.devices.tail } }

@[simp] theorem asked_devices (w : World) : w.asked.devices = w.devices := rfl

@[simp] theorem asked_driveAnswer (w : World) (n : Nat) :
    w.asked.driveAnswer n = w.driveAnswer (n + 1) := by
  have htail : w.answers.devices.tail.getD n 0 = w.answers.devices.getD (n + 1) 0 := by
    cases w.answers.devices with
    | nil => rfl
    | cons a as => rfl
  simp only [World.driveAnswer, World.asked, htail]

theorem deviceCall_asked (w : World) : deviceCall w = (w.driveAnswer 0, w.asked) := by
  have hpop : (popDevice w).2 = w.asked := by
    unfold popDevice World.asked
    cases h : w.answers.devices with
    | nil =>
      simp only [List.tail_nil]
      rw [← h]
    | cons a as => rfl
  have hanswer : (deviceCall w).1 = w.driveAnswer 0 := by
    rw [deviceCall_answer, World.driveAnswer]
    cases w.answers.devices <;> rfl
  exact Prod.ext hanswer hpop

def World.mountAnswered (w : World) (p : Partition) : World :=
  { w.asked with devices := { w.devices with
    mounted := Function.update w.devices.mounted p (w.devices.mounted p || w.driveAnswer 0) } }

theorem mountCall_answered (p : Partition) (w : World) :
    mountCall p true w = (w.driveAnswer 0, w.mountAnswered p) := by
  rw [mountCall_run, deviceCall_asked, World.mountAnswered]
  cases w.driveAnswer 0 with
  | true => simp
  | false => simp

@[simp] theorem mountAnswered_devices (w : World) (p : Partition) : (w.mountAnswered p).devices =
    { w.devices with
      mounted := Function.update w.devices.mounted p (w.devices.mounted p || w.driveAnswer 0) } :=
  rfl

@[simp] theorem mountAnswered_driveAnswer (w : World) (p : Partition) (n : Nat) :
    (w.mountAnswered p).driveAnswer n = w.driveAnswer (n + 1) := asked_driveAnswer w n

/-- Some library will mount the disc once the drive was found ready. -/
def World.discFound (w : World) : Bool := w.driveAnswer 1 || w.driveAnswer 2 || w.driveAnswer 3

/-- The disc's partitions are mounted as far as their libraries succeed, nothing else is, and the
motor is stopped if none succeeds. -/
structure DiscMounted (w : World) (d : Devices) : Prop where
  wait : d.dvdMountWait = false
  wod : d.mounted .wod = (w.devices.mounted .wod || w.driveAnswer 1)
  fst : d.mounted .fst = (w.devices.mounted .fst || w.driveAnswer 2)
  dvd : d.mounted .dvd = (w.devices.mounted .dvd || w.driveAnswer 3)
  others : ∀ p, ¬ p.isDvd → d.mounted p = w.devices.mounted p
  stopped : d.dvdLastStopped =
    if w.discFound then w.devices.dvdLastStopped else w.answers.clock.headD 0
  motor : d.calls = w.devices.calls ++ if w.discFound then [] else [.diStopMotor]

theorem dvdStop_devices (w : World) : (dvdStop w).2.devices =
    { w.devices with
      dvdLastStopped := w.answers.clock.headD 0
      calls := w.devices.calls ++ [.diStopMotor] } := by
  simp only [dvdStop, bind_run, updateDevices, modify_run, diStopMotor, noteDrive, popDevice_devices]
  unfold gettime
  cases w.answers.clock <;> rfl

def World.discReady (w : World) : World :=
  { w.asked with devices := { w.devices with dvdMountWait := false } }

theorem setDvdMountWait_asked (w : World) : setDvdMountWait false w.asked = ((), w.discReady) := rfl

@[simp] theorem discReady_devices (w : World) :
    w.discReady.devices = { w.devices with dvdMountWait := false } := rfl

@[simp] theorem discReady_driveAnswer (w : World) (n : Nat) :
    w.discReady.driveAnswer n = w.driveAnswer (n + 1) := asked_driveAnswer w n

theorem checkDvdMount_run {w : World} (hw : w.devices.dvdMountWait = true)
    (hr : w.driveAnswer 0 = true) :
    let m := ((w.discReady.mountAnswered .wod).mountAnswered .fst).mountAnswered .dvd
    (checkDvdMount w).2 = if w.discFound then m else (dvdStop m).2 := by
  simp +instances only [checkDvdMount, dvdMountWait, bind_run, gets_run, ite_run, pure_run,
    deviceCall_asked, setDvdMountWait_asked, mountCall_answered, hw, hr, if_true,
    mountAnswered_driveAnswer, discReady_driveAnswer, Nat.reduceAdd]
  cases hfound : w.discFound with
  | true =>
    rw [World.discFound] at hfound
    simp [hfound]
  | false =>
    rw [World.discFound] at hfound
    simp [hfound]

theorem checkDvdMount_ready {w : World} (hw : w.devices.dvdMountWait = true)
    (hr : w.driveAnswer 0 = true) : DiscMounted w (checkDvdMount w).2.devices := by
  let m := ((w.discReady.mountAnswered .wod).mountAnswered .fst).mountAnswered .dvd
  have hm : ∀ stopped calls, stopped = (if w.discFound then w.devices.dvdLastStopped
      else w.answers.clock.headD 0) →
      calls = (w.devices.calls ++ if w.discFound then [] else [.diStopMotor]) →
      DiscMounted w { m.devices with dvdLastStopped := stopped, calls := calls } := by
    intro stopped calls hs hc
    refine ⟨rfl, ?_, ?_, ?_, fun p hp => ?_, hs, hc⟩
    · simp [m]
    · simp [m]
    · simp [m]
    · have hne : p ≠ .wod ∧ p ≠ .fst ∧ p ≠ .dvd := by
        refine ⟨?_, ?_, ?_⟩ <;> rintro rfl <;> exact hp rfl
      simp [m, hne]
  have hrun : (checkDvdMount w).2 = if w.discFound then m else (dvdStop m).2 := checkDvdMount_run hw hr
  rw [hrun]
  by_cases hfound : w.discFound = true
  · rw [if_pos hfound]
    exact hm _ _ (if_pos hfound).symm (by rw [if_pos hfound, List.append_nil]; rfl)
  · rw [if_neg hfound, dvdStop_devices]
    exact hm _ _ (if_neg hfound).symm (by rw [if_neg hfound]; rfl)

theorem checkDvdMount_unready {w : World}
    (hn : ¬ (w.devices.dvdMountWait = true ∧ w.driveAnswer 0 = true)) :
    (checkDvdMount w).2.devices = w.devices := by
  simp +instances only [checkDvdMount, dvdMountWait, bind_run, gets_run, ite_run, pure_run,
    deviceCall_asked]
  by_cases hw : w.devices.dvdMountWait = true
  · have hr : ¬ w.driveAnswer 0 = true := fun hr => hn ⟨hw, hr⟩
    rw [if_pos hw, if_neg hr]
    exact asked_devices w
  · rw [if_neg hw]

/-! ## Runs -/

def Server.FindsDisc (s : Server) (l : Label) : Prop :=
  l = .dvdMount ∧ s.halted = false ∧ s.world.driveAnswer 0 = true

theorem step_frozen {s : Server} {l : Label} (h : ¬ s.FindsDisc l) :
    DiscFrozen s.world.devices (s.step l).world.devices := by
  by_cases hl : l = .dvdMount
  · subst hl
    unfold Server.step
    split
    · exact .refl s.world.devices
    · rename_i hh
      have hr : ¬ (s.world.devices.dvdMountWait = true ∧ s.world.driveAnswer 0 = true) := fun hr =>
        h ⟨rfl, by simpa using hh, hr.2⟩
      have hsame := checkDvdMount_unready hr
      simp only [Label.run, sys, zoom_run]
      rw [hsame]
      exact .refl s.world.devices
  · exact OnDevices.step DiscFrozen.refl .trans discFrozen_console hl s

/-- The drive still gets ready at u, and the disc's partitions are as they were. -/
def Server.Awaits (s u : Server) : Prop :=
  u.world.devices.dvdMountWait = true ∧
    ∀ p, p.isDvd → u.world.devices.mounted p = s.world.devices.mounted p

/-- In this run the wait lasted until the main loop found the drive ready; it then mounted what the
libraries made of the disc. -/
def Server.DiscCame (s : Server) (ls : List Label) : Prop :=
  ∃ pre post, ls = pre ++ .dvdMount :: post ∧
    (∀ pre', pre' <+: pre → s.Awaits (pre'.foldl Server.step s)) ∧
    (pre.foldl Server.step s).FindsDisc .dvdMount ∧
    DiscMounted (pre.foldl Server.step s).world
      ((pre.foldl Server.step s).step .dvdMount).world.devices

/-- A client unmounts the disc, for one library after the other, and asks for the next one, which is
not ready within ten seconds. -/
def discRun : List Label :=
  connecting [] ++
    [.env { net := [{ data := "PASS x\r\nSITE UNMOUNT /dvd\r\nSITE UNMOUNT /fst\r\n".toList },
                    { data := "SITE MOUNT /dvd\r\n".toList }],
            devices := [1, 0, 0, 5, 1, 0, 0, 5] }, firstTurn, firstTurn]

end Ftpii
