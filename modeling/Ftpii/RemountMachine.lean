import Ftpii.NetFootprint
set_option autoImplicit false

/-!
The user's remount: mountstate, mount_partition and mount_timer over button presses,
selections and timer checks in any order, each in any world.
-/

namespace Ftpii
open StateProgram Prog

/-- The statics of the remount. -/
structure Remount where
  mountstate : MountState := .start
  mountPartition : Option Partition := none
  mountTimer : Nat := 0

def World.remounting (w : World) : Remount :=
  ⟨w.devices.mountstate, w.devices.mountPartition, w.devices.mountTimer⟩

/-- The world w, with the remount as far as r, before anything is asked of the drives. -/
def Remount.within (r : Remount) (w : World) : World :=
  { w with devices := { w.devices with
      mountstate := r.mountstate, mountPartition := r.mountPartition, mountTimer := r.mountTimer
      calls := [] } }

@[simp] theorem Remount.within_remounting (r : Remount) (w : World) :
    (r.within w).remounting = r := rfl

inductive RemountEvent where
  | press
  | select (pressed : Nat)
  | timer (now : Nat)

def RemountEvent.run : RemountEvent → Os Unit
  | .press => processRemountEvent
  | .select pressed => processDeviceSelectEvent pressed
  | .timer now => checkMountTimer now

def RemountEvent.step (r : Remount) (i : World × RemountEvent) : Remount :=
  (i.2.run (r.within i.1)).2.remounting

/-- What a run shows: a selection that starts the wait, and a call that mounts. -/
inductive RemountEffect where
  | accepted (p : Partition)
  | attempt (partition : Option Partition)
  deriving DecidableEq

/-- The disc is mounted by DI_Mount, any other partition by mount. -/
def DriveCall.attempt : DriveCall → Option RemountEffect
  | .mount partition => some (.attempt partition)
  | .diMount => some (.attempt (some .dvd))
  | .diStopMotor => none

def RemountEvent.calls (r : Remount) (i : World × RemountEvent) : List DriveCall :=
  (i.2.run (r.within i.1)).2.devices.calls

/-- The selection that started the wait, from the buttons pressed. -/
def RemountEvent.accepted (r : Remount) (i : World × RemountEvent) : Option Partition :=
  match i.2 with
  | .select pressed =>
    if r.mountstate = .selectDevice ∧ (RemountEvent.step r i).mountstate = .waitForDevice then
      selectedPartition pressed
    else none
  | _ => none

def RemountEvent.effects (r : Remount) (i : World × RemountEvent) : List RemountEffect :=
  (RemountEvent.accepted r i).toList.map .accepted ++
    (RemountEvent.calls r i).filterMap DriveCall.attempt

/-- The button is pressed, or the wait is over. -/
def RemountEvent.Due (r : Remount) : RemountEvent → Prop
  | .press => True
  | .select _ => False
  | .timer now => r.mountTimer < now

/-- The statics after the events, and the effects on the way. -/
def remountRun (r : Remount) : List (World × RemountEvent) → Remount × List RemountEffect
  | [] => (r, [])
  | i :: is =>
    let rest := remountRun (RemountEvent.step r i) is
    (rest.1, RemountEvent.effects r i ++ rest.2)

/-! ## Everything else leaves the statics alone -/

def SameRemount (w w' : World) : Prop := w'.remounting = w.remounting

theorem sameRemount_drives : UsesDrives (fun _ => True) SameRemount where
  refl _ := rfl
  trans h h' := Eq.trans h' h
  answers _ _ _ := rfl
  drives w d h := by
    simp [SameRemount, World.remounting, h.mountstate, h.mountPartition, h.mountTimer]

theorem remount_remounting (partition : Option Partition) : Keeps SameRemount (remount partition) :=
  remount_keeps sameRemount_drives (fun _ => trivial) _

theorem dvdUnmount_remounting : Keeps SameRemount dvdUnmount :=
  dvdUnmount_keeps sameRemount_drives fun _ => trivial

theorem unmount_remounting (partition : Option Partition) :
    Keeps SameRemount (unmount partition) :=
  unmount_keeps sameRemount_drives (fun _ => trivial) _

/-! ## What is asked of the drives -/

/-- Calls in S were added to the log, and no others. -/
def Asks (S : DriveCall → Prop) (w w' : World) : Prop :=
  ∃ cs, w'.devices.calls = w.devices.calls ++ cs ∧ ∀ c ∈ cs, S c

section Asks

variable {S : DriveCall → Prop}

theorem Asks.same {w w' : World} (h : w'.devices.calls = w.devices.calls) : Asks S w w' :=
  ⟨[], by rw [h, List.append_nil], by simp⟩

theorem asks_frame : Frame (Asks S) where
  refl w := .same rfl
  trans := by
    rintro a b c ⟨cs, hcs, hS⟩ ⟨ds, hds, hS'⟩
    refine ⟨cs ++ ds, by rw [hds, hcs, List.append_assoc], fun c hc => ?_⟩
    exact (List.mem_append.mp hc).elim (hS c) (hS' c)

theorem noteDrive_asks {c : DriveCall} (hc : S c) : Keeps (Asks S) (noteDrive c) := fun _ =>
  ⟨[c], rfl, by simpa using hc⟩

theorem popDevice_asks : Keeps (Asks S) popDevice := popDevice_keeps asks_frame fun _ _ _ => .same rfl

theorem deviceCall_asks : Keeps (Asks S) deviceCall :=
  .bind asks_frame popDevice_asks fun _ => .pure asks_frame _

theorem mountCall_asks (p : Partition) (state : Bool) : Keeps (Asks S) (mountCall p state) := by
  have hset : Keeps (Asks S) (setMounted p state) := fun _ => .same rfl
  exact .bind asks_frame deviceCall_asks fun _ =>
    .ite (.bind asks_frame hset fun _ => .pure asks_frame _) (.pure asks_frame _)

/-- Mounting what is no disc asks nothing more of the drives. -/
theorem mountByKind_asks {p : Partition} (hd : ¬ p.isDvd) : Keeps (Asks S) (mountByKind p) := by
  have hF := asks_frame (S := S)
  have hfat : Keeps (Asks S) (mountFatOrNtfs p) :=
    .bind hF (mountCall_asks p _) fun _ => .ite (.pure hF _) <|
      .bind hF popDevice_asks fun _ => .ite (mountCall_asks p _) (.pure hF _)
  rw [mountByKind, if_neg hd]
  refine .ite (.iterate hF (fun _ => ?_) _ _) (mountCall_asks p _)
  refine .bind hF (.ite (.pure hF _) deviceCall_asks) fun _ => .bind hF deviceCall_asks fun _ =>
    .ite ?_ (.ite (.pure hF _) (.pure hF _))
  exact .map hfat

section Stop

variable (hs : S .diStopMotor)

include hs

theorem dvdStop_asks : Keeps (Asks S) dvdStop := by
  have hclock := gettime_keeps asks_frame fun (w : World) a _ => Asks.same (S := S) rfl
  refine .bind asks_frame hclock fun _ => .bind asks_frame (fun _ => .same rfl) fun _ => ?_
  exact .bind asks_frame (noteDrive_asks hs) fun _ => popDevice_asks

theorem unmount_asks (partition : Option Partition) : Keeps (Asks S) (unmount partition) := by
  have hF := asks_frame (S := S)
  have hd := popDevice_asks (S := S)
  cases partition with
  | none => exact .pure hF _
  | some p =>
    have hidle : Keeps (Asks S) stopIdleDvd :=
      .bind hF (.gets hF _) fun _ => .ite (.pure hF _) <| .bind hF
        (.bind hF hd fun _ => .bind hF hd fun _ => .bind hF hd fun _ => .pure hF _) fun _ =>
        .ite (.bind hF (dvdStop_asks hs) fun _ => .pure hF _) (.pure hF _)
    refine .bind hF (.gets hF _) fun _ => .bind hF (.gets hF _) fun _ => .ite (.pure hF _) ?_
    refine .ite ?_ (.ite ?_ (mountCall_asks p _))
    · exact .bind hF (mountCall_asks p _) fun _ => .bind hF hidle fun _ => .pure hF _
    · exact .bind hF (fun _ => .same rfl) fun _ => .pure hF _

theorem dvdUnmount_asks : Keeps (Asks S) dvdUnmount := by
  have hF := asks_frame (S := S)
  exact .bind hF (unmount_asks hs _) fun _ => .bind hF (unmount_asks hs _) fun _ =>
    .bind hF (unmount_asks hs _) fun _ => .bind hF (dvdStop_asks hs) fun _ => .pure hF _

end Stop

end Asks

theorem mount_calls {p : Partition} (hd : ¬ p.isDvd) (w : World) :
    (mount (some p) w).2.devices.calls = w.devices.calls ++ [.mount (some p)] := by
  have hF := asks_frame (S := fun _ => False)
  have hrest : Asks (fun _ => False) (noteDrive (.mount (some p)) w).2 (mount (some p) w).2 := by
    rw [mount, bind_run]
    refine Keeps.bind hF (.gets hF _) (fun _ => .bind hF (.gets hF _) fun _ => .ite (.pure hF _) ?_) _
    refine .bind hF (mountByKind_asks hd) fun _ => .ite ?_ (.pure hF _)
    exact .bind hF (fun _ => .same rfl) fun _ => .pure hF _
  obtain ⟨cs, hcs, hnone⟩ := hrest
  have hnil : cs = [] := List.eq_nil_iff_forall_not_mem.mpr hnone
  rw [hcs, hnil, List.append_nil]
  rfl

/-- A remount is one call that mounts the partition. -/
theorem remount_calls {p : Partition} (hdvd : p.isDvd → p = .dvd) (w : World) :
    ∃ c : DriveCall, c.attempt = some (.attempt (some p)) ∧
      (remount (some p) w).2.devices.calls = w.devices.calls ++ [c] := by
  by_cases hd : p.isDvd
  · obtain rfl := hdvd hd
    exact ⟨.diMount, rfl, by simp [remount, hd, startDvdMount, setDvdMountWait, diMount, noteDrive,
      updateDevices]⟩
  · refine ⟨.mount (some p), rfl, ?_⟩
    simpa [remount, hd] using mount_calls hd w

def SameOthers (p : Partition) (w w' : World) : Prop :=
  ∀ q, q ≠ p → w'.devices.mounted q = w.devices.mounted q

theorem sameOthers_drives (p : Partition) : UsesDrives (· = p) (SameOthers p) where
  refl _ _ _ := rfl
  trans h h' q hq := (h' q hq).trans (h q hq)
  answers _ _ _ _ _ := rfl
  drives _ _ h q hq := h.mounted q hq

theorem remount_others (p : Partition) : Keeps (SameOthers p) (remount (some p)) := by
  have hP := sameOthers_drives p
  by_cases hd : p.isDvd
  · rw [remount, if_pos (by simpa using hd)]
    exact startDvdMount_keeps hP rfl hd
  · rw [remount, if_neg (by simpa using hd)]
    exact .bind hP.toFrame (mountSome_keeps hP rfl) fun _ => .pure hP.toFrame _

/-! ## One event -/

theorem processRemountEvent_waiting {w : World} (h : w.devices.mountstate = .waitForDevice) :
    processRemountEvent w = (do
      updateDevices fun d => { d with mountTimer := 0, mountstate := .start }
      remount w.devices.mountPartition
      updateDevices fun d => { d with mountPartition := none }) w := by
  simp only [processRemountEvent, bind_run, gets_run, h]

theorem processRemountEvent_remounting (w : World) :
    (processRemountEvent w).2.remounting =
      if w.devices.mountstate = .waitForDevice then {}
      else ⟨.selectDevice, none, w.devices.mountTimer⟩ := by
  cases h : w.devices.mountstate with
  | start => simp [processRemountEvent, h, updateDevices, World.remounting]
  | selectDevice => simp [processRemountEvent, h, updateDevices, World.remounting]
  | waitForDevice =>
    rw [processRemountEvent_waiting h, if_pos rfl]
    simp only [bind_run, updateDevices, modify_run]
    have hr := remount_remounting w.devices.mountPartition
      { w with devices := { w.devices with mountTimer := 0, mountstate := .start } }
    simp only [SameRemount, World.remounting, Remount.mk.injEq] at hr
    simp [World.remounting, hr]

theorem startMountTimer_remounting (w : World) :
    ∃ now, (startMountTimer w).2.remounting =
      ⟨w.devices.mountstate, w.devices.mountPartition, now + secsToTicks 30⟩ := by
  have hg : SameRemount w (gettime w).2 :=
    gettime_keeps sameRemount_drives.toFrame sameRemount_drives.answers w
  simp only [SameRemount, World.remounting, Remount.mk.injEq] at hg
  exact ⟨(gettime w).1, by
    simp [startMountTimer, updateDevices, World.remounting, hg.1, hg.2.1]⟩

theorem startMountTimer_after {α : Type} {m : Os α} (hm : Keeps SameRemount m) (w : World) :
    ∃ now, (startMountTimer (m w).2).2.remounting =
      ⟨w.devices.mountstate, w.devices.mountPartition, now + secsToTicks 30⟩ := by
  obtain ⟨now, hnow⟩ := startMountTimer_remounting (m w).2
  have h := hm w
  simp only [SameRemount, World.remounting, Remount.mk.injEq] at h
  exact ⟨now, by rw [hnow, h.1, h.2.1]⟩

/-- The remount after a selection of p: refused while the DVD is being mounted. -/
theorem processDeviceSelectEvent_some {w : World} {pressed : Nat} {p : Partition}
    (hs : w.devices.mountstate = .selectDevice)
    (hp : (selectedPartition pressed).or w.devices.mountPartition = some p) :
    (processDeviceSelectEvent pressed w).2.remounting = ⟨.start, some p, w.devices.mountTimer⟩ ∨
      ∃ now, (processDeviceSelectEvent pressed w).2.remounting =
        ⟨.waitForDevice, some p, now + secsToTicks 30⟩ := by
  simp +instances only [processDeviceSelectEvent, bind_run, gets_run, hs, if_true, hp,
    updateDevices, modify_run, ite_run, dvdMountWait]
  by_cases hd : p.isDvd
  · simp only [hd, if_true]
    cases hw : w.devices.dvdMountWait with
    | true => exact .inl rfl
    | false => exact .inr (startMountTimer_after dvdUnmount_remounting _)
  · simp only [hd, Bool.false_eq_true, if_false]
    refine .inr ?_
    by_cases hf : p.isFat
    · simp only [hf, if_true]
      exact startMountTimer_after (unmount_remounting _) _
    · simp only [hf, Bool.false_eq_true, if_false, pure_run]
      exact startMountTimer_remounting _

theorem processDeviceSelectEvent_none {w : World} {pressed : Nat}
    (hs : w.devices.mountstate = .selectDevice)
    (hp : (selectedPartition pressed).or w.devices.mountPartition = none) :
    (processDeviceSelectEvent pressed w).2.remounting =
      ⟨.selectDevice, none, w.devices.mountTimer⟩ := by
  simp only [processDeviceSelectEvent, bind_run, gets_run, hs, if_true, hp, updateDevices,
    modify_run, pure_run, World.remounting]

theorem processDeviceSelectEvent_otherwise {w : World} {pressed : Nat}
    (hs : w.devices.mountstate ≠ .selectDevice) :
    (processDeviceSelectEvent pressed w).2 = w := by
  simp +instances only [processDeviceSelectEvent, bind_run, gets_run, ite_run, hs, if_false,
    pure_run]

theorem checkMountTimer_run (now : Nat) (w : World) :
    checkMountTimer now w =
      if w.devices.mountTimer ≠ 0 ∧ w.devices.mountTimer < now then processRemountEvent w
      else ((), w) := by
  simp +instances only [checkMountTimer, bind_run, gets_run, ite_run, pure_run]

theorem timer_due {r : Remount} {now : Nat} (h : r.mountTimer ≠ 0 ∧ r.mountTimer < now) (w : World) :
    (RemountEvent.timer now).run (r.within w) = RemountEvent.press.run (r.within w) :=
  (checkMountTimer_run now (r.within w)).trans (if_pos h)

theorem timer_running {r : Remount} {now : Nat} (h : ¬ (r.mountTimer ≠ 0 ∧ r.mountTimer < now))
    (w : World) : (RemountEvent.timer now).run (r.within w) = ((), r.within w) :=
  (checkMountTimer_run now (r.within w)).trans (if_neg h)

/-! ## What one event shows -/

theorem press_effects_waiting {r : Remount} {p : Partition} (hs : r.mountstate = .waitForDevice)
    (hp : r.mountPartition = some p) (hdvd : p.isDvd → p = .dvd) (w : World) :
    RemountEvent.effects r (w, .press) = [.attempt (some p)] := by
  let v : World := { r.within w with devices := { (r.within w).devices with
    mountTimer := 0, mountstate := .start } }
  obtain ⟨c, hc, hcalls⟩ := remount_calls hdvd v
  have hrun : RemountEvent.calls r (w, .press) = [c] := by
    have hpress := processRemountEvent_waiting (w := r.within w) hs
    rw [RemountEvent.calls, RemountEvent.run, hpress]
    have hpart : (r.within w).devices.mountPartition = some p := hp
    rw [hpart]
    exact hcalls
  simp [RemountEvent.effects, RemountEvent.accepted, hrun, hc]

theorem press_others {r : Remount} {p : Partition} (hs : r.mountstate = .waitForDevice)
    (hp : r.mountPartition = some p) (w : World) :
    SameOthers p w (RemountEvent.press.run (r.within w)).2 := by
  let v : World := { r.within w with devices := { (r.within w).devices with
    mountTimer := 0, mountstate := .start } }
  have hpart : (r.within w).devices.mountPartition = some p := hp
  rw [RemountEvent.run, processRemountEvent_waiting (w := r.within w) hs, hpart]
  exact remount_others p v

theorem press_effects {r : Remount} (hs : r.mountstate ≠ .waitForDevice) (w : World) :
    RemountEvent.effects r (w, .press) = [] := by
  have hrun : RemountEvent.calls r (w, .press) = [] := by
    rw [RemountEvent.calls, RemountEvent.run]
    cases h : r.mountstate with
    | start => simp [processRemountEvent, Remount.within, h, updateDevices]
    | selectDevice => simp [processRemountEvent, Remount.within, h, updateDevices]
    | waitForDevice => exact absurd h hs
  simp [RemountEvent.effects, RemountEvent.accepted, hrun]

theorem timer_effects_due {r : Remount} {now : Nat} (h : r.mountTimer ≠ 0 ∧ r.mountTimer < now)
    (w : World) : RemountEvent.effects r (w, .timer now) = RemountEvent.effects r (w, .press) := by
  have hcalls : RemountEvent.calls r (w, .timer now) = RemountEvent.calls r (w, .press) :=
    congrArg (fun s : Unit × World => s.2.devices.calls) (timer_due h w)
  rw [RemountEvent.effects, RemountEvent.effects, hcalls]
  rfl

theorem timer_effects {r : Remount} {now : Nat} (h : ¬ (r.mountTimer ≠ 0 ∧ r.mountTimer < now))
    (w : World) : RemountEvent.effects r (w, .timer now) = [] := by
  have hcalls : RemountEvent.calls r (w, .timer now) = [] :=
    congrArg (fun s : Unit × World => s.2.devices.calls) (timer_running h w)
  rw [RemountEvent.effects, hcalls]
  rfl

/-- A selection unmounts at most. -/
theorem processDeviceSelectEvent_asks (pressed : Nat) :
    Keeps (Asks fun c => c.attempt = none) (processDeviceSelectEvent pressed) := by
  have hF := asks_frame (S := fun c => c.attempt = none)
  have hupdate : ∀ f : Devices → Devices, (∀ d, (f d).calls = d.calls) →
      Keeps (Asks fun c => c.attempt = none) (updateDevices f) := fun f hf w => .same (hf w.devices)
  have htimer : Keeps (Asks fun c => c.attempt = none) startMountTimer :=
    .bind hF (gettime_keeps hF fun _ _ _ => .same rfl) fun _ => hupdate _ fun _ => rfl
  have hunmount := unmount_asks (S := fun c => c.attempt = none) rfl
  have hdvd := dvdUnmount_asks (S := fun c => c.attempt = none) rfl
  refine .bind hF (.gets hF _) fun d => .ite (.bind hF (hupdate _ fun _ => rfl) fun _ => ?_)
    (.pure hF _)
  cases (selectedPartition pressed).or d.mountPartition with
  | none => exact .pure hF _
  | some p =>
    refine .bind hF (hupdate _ fun _ => rfl) fun _ => .ite ?_ ?_
    · refine .bind hF (.gets hF _) fun _ => .ite (hupdate _ fun _ => rfl) ?_
      exact .bind hF hdvd fun _ => htimer
    · exact .bind hF (.ite (hunmount _) (.pure hF _)) fun _ => htimer

theorem select_effects (r : Remount) (w : World) (pressed : Nat) :
    RemountEvent.effects r (w, .select pressed) =
      (RemountEvent.accepted r (w, .select pressed)).toList.map .accepted := by
  obtain ⟨cs, hcs, hstop⟩ := processDeviceSelectEvent_asks pressed (r.within w)
  have hcalls : RemountEvent.calls r (w, .select pressed) = cs := hcs
  rw [RemountEvent.effects, hcalls, List.filterMap_eq_nil_iff.mpr hstop, List.append_nil]

theorem selectedPartition_isDvd {pressed : Nat} {p : Partition} (h : selectedPartition pressed = some p)
    (hd : p.isDvd) : p = .dvd := by
  unfold selectedPartition at h
  split_ifs at h <;> cases h <;> first | rfl | exact absurd hd (by decide)

/-! ## The user's side -/

/-- Nothing asked for, a device to be named, or a device being changed. -/
inductive Choice where
  | idle
  | choosing
  | awaiting (p : Partition)

inductive Choice.Step : Choice → List RemountEffect → Choice → Prop where
  | stay (c : Choice) : Step c [] c
  | ask : Step .idle [] .choosing
  | refuse : Step .choosing [] .idle
  | accept (p : Partition) : Step .choosing [.accepted p] (.awaiting p)
  | remount (p : Partition) : Step (.awaiting p) [.attempt (some p)] .idle

/-- An attempt is for the selection just before it, and nothing else follows a selection. -/
structure Paired (es : List RemountEffect) : Prop where
  attempted : ∀ pre o post, es = pre ++ .attempt o :: post →
    ∃ p, o = some p ∧ pre.getLast? = some (.accepted p)
  accepted : ∀ pre p e post, es = pre ++ .accepted p :: e :: post → e = .attempt (some p)

structure Choice.After (es : List RemountEffect) (c : Choice) : Prop extends Paired es where
  awaiting : ∀ p, c = .awaiting p ↔ es.getLast? = some (.accepted p)

theorem Choice.after_nil : Choice.After [] .idle where
  attempted pre o post h := by simp at h
  accepted pre p e post h := by simp at h
  awaiting p := by simp

theorem append_singleton_eq {α : Type} {es pre post : List α} {e a : α}
    (h : es ++ [e] = pre ++ a :: post) :
    (post = [] ∧ es = pre ∧ e = a) ∨ ∃ post', post = post' ++ [e] ∧ es = pre ++ a :: post' := by
  cases post using List.reverseRecOn with
  | nil => simp_all
  | append_singleton post' b =>
    have hs : es ++ [e] = (pre ++ a :: post') ++ [b] := by rw [h]; simp
    obtain ⟨hes, heb⟩ := List.append_inj' hs rfl
    simp only [List.cons.injEq, and_true] at heb
    exact .inr ⟨post', by rw [heb], hes⟩

theorem Choice.After.step {es es' : List RemountEffect} {c c' : Choice} (h : c.After es)
    (hs : Choice.Step c es' c') : c'.After (es ++ es') := by
  cases hs with
  | stay => simpa using h
  | ask =>
    refine { toPaired := by simpa using h.toPaired, awaiting := fun p => ?_ }
    simpa using h.awaiting p
  | refuse =>
    refine { toPaired := by simpa using h.toPaired, awaiting := fun p => ?_ }
    simpa using h.awaiting p
  | accept q =>
    constructor
    · constructor
      · intro pre o post he
        obtain ⟨-, -, hea⟩ | ⟨post', -, hes⟩ := append_singleton_eq he
        · cases hea
        · exact h.attempted _ _ _ hes
      · intro pre p e post he
        obtain ⟨hnil, -, -⟩ | ⟨post', hpost, hes⟩ := append_singleton_eq he
        · cases hnil
        · cases post' with
          | nil =>
            have := (h.awaiting p).mpr (by simp [hes])
            cases this
          | cons e' post'' =>
            simp only [List.cons_append, List.cons.injEq] at hpost
            rw [hpost.1]
            exact h.accepted _ _ _ _ hes
    · intro p
      simp
  | remount q =>
    have hlast := (h.awaiting q).mp rfl
    constructor
    · constructor
      · intro pre o post he
        obtain ⟨-, hes, hea⟩ | ⟨post', -, hes⟩ := append_singleton_eq he
        · simp only [RemountEffect.attempt.injEq] at hea
          exact ⟨q, hea.symm, hes ▸ hlast⟩
        · exact h.attempted _ _ _ hes
      · intro pre p e post he
        obtain ⟨hnil, -, -⟩ | ⟨post', hpost, hes⟩ := append_singleton_eq he
        · cases hnil
        · cases post' with
          | nil =>
            have hp : q = p := by simpa [hes] using hlast.symm
            simp_all
          | cons e' post'' =>
            simp only [List.cons_append, List.cons.injEq] at hpost
            rw [hpost.1]
            exact h.accepted _ _ _ _ hes
    · intro p
      simp

/-! ## The statics follow the user -/

def Remount.Shows (r : Remount) : Choice → Prop
  | .idle => r.mountstate = .start ∧ r.mountTimer = 0
  | .choosing => r = ⟨.selectDevice, none, 0⟩
  | .awaiting p => r.mountstate = .waitForDevice ∧ r.mountPartition = some p ∧ r.mountTimer ≠ 0 ∧
      (p.isDvd → p = .dvd)

theorem Remount.Shows.press {r : Remount} {c : Choice} (h : r.Shows c) (w : World) :
    ∃ c', Choice.Step c (RemountEvent.effects r (w, .press)) c' ∧
      (RemountEvent.step r (w, .press)).Shows c' := by
  have hstep : RemountEvent.step r (w, .press) = if r.mountstate = .waitForDevice then {}
      else ⟨.selectDevice, none, r.mountTimer⟩ := processRemountEvent_remounting (r.within w)
  rw [hstep]
  cases c with
  | idle =>
    have hs : r.mountstate ≠ .waitForDevice := by rw [h.1]; decide
    rw [press_effects hs, if_neg hs, h.2]
    exact ⟨.choosing, .ask, rfl⟩
  | choosing =>
    obtain rfl := h
    rw [press_effects (by decide)]
    exact ⟨.choosing, .stay _, rfl⟩
  | awaiting p =>
    obtain ⟨hs, hp, -, hdvd⟩ := h
    rw [press_effects_waiting hs hp hdvd, if_pos hs]
    exact ⟨.idle, .remount p, rfl, rfl⟩

theorem Remount.Shows.select {r : Remount} {c : Choice} (h : r.Shows c) (w : World) (pressed : Nat) :
    ∃ c', Choice.Step c (RemountEvent.effects r (w, .select pressed)) c' ∧
      (RemountEvent.step r (w, .select pressed)).Shows c' := by
  rw [select_effects]
  by_cases hs : r.mountstate = .selectDevice
  · cases c with
    | idle => simp_all [Remount.Shows]
    | awaiting p => simp_all [Remount.Shows]
    | choosing =>
      subst h
      have hor : (selectedPartition pressed).or
          ((⟨.selectDevice, none, 0⟩ : Remount).within w).devices.mountPartition =
            selectedPartition pressed := Option.or_none
      cases hp : selectedPartition pressed with
      | none =>
        have hr := processDeviceSelectEvent_none
          (w := (⟨.selectDevice, none, 0⟩ : Remount).within w) rfl (hor.trans hp)
        refine ⟨.choosing, ?_, hr⟩
        simp only [RemountEvent.accepted, hp, Option.toList_none, List.map_nil, ite_self]
        exact .stay _
      | some p =>
        obtain hr | ⟨now, hr⟩ := processDeviceSelectEvent_some
          (w := (⟨.selectDevice, none, 0⟩ : Remount).within w) rfl (hor.trans hp)
        · -- the DVD is being mounted: the selection is dropped
          have hstep : RemountEvent.step ⟨.selectDevice, none, 0⟩ (w, .select pressed) =
              ⟨.start, some p, 0⟩ := hr
          refine ⟨.idle, ?_, by rw [hstep]; exact ⟨rfl, rfl⟩⟩
          simp only [RemountEvent.accepted, hstep, reduceCtorEq, and_false, if_false]
          exact .refuse
        · have hstep : RemountEvent.step ⟨.selectDevice, none, 0⟩ (w, .select pressed) =
              ⟨.waitForDevice, some p, now + secsToTicks 30⟩ := hr
          have hticks : 0 < secsToTicks 30 := by decide
          have hshows : (⟨.waitForDevice, some p, now + secsToTicks 30⟩ : Remount).Shows (.awaiting p) :=
            ⟨rfl, rfl, by simp only; omega, selectedPartition_isDvd hp⟩
          refine ⟨.awaiting p, ?_, by rw [hstep]; exact hshows⟩
          simp only [RemountEvent.accepted, hstep, hp, and_self, if_true, Option.toList_some,
            List.map_cons, List.map_nil]
          exact .accept p
  · have hstep : RemountEvent.step r (w, .select pressed) = r := by
      have hw : (processDeviceSelectEvent pressed (r.within w)).2 = r.within w :=
        processDeviceSelectEvent_otherwise hs
      exact congrArg World.remounting hw
    refine ⟨c, ?_, by rw [hstep]; exact h⟩
    simp only [RemountEvent.accepted, hs, false_and, if_false]
    exact .stay c

theorem Remount.Shows.timer {r : Remount} {c : Choice} (h : r.Shows c) (w : World) (now : Nat) :
    ∃ c', Choice.Step c (RemountEvent.effects r (w, .timer now)) c' ∧
      (RemountEvent.step r (w, .timer now)).Shows c' := by
  by_cases hdue : r.mountTimer ≠ 0 ∧ r.mountTimer < now
  · rw [timer_effects_due hdue, RemountEvent.step, timer_due hdue]
    exact h.press w
  · rw [timer_effects hdue, RemountEvent.step, timer_running hdue]
    exact ⟨c, .stay c, h⟩

theorem Remount.Shows.step {r : Remount} {c : Choice} (h : r.Shows c) (i : World × RemountEvent) :
    ∃ c', Choice.Step c (RemountEvent.effects r i) c' ∧ (RemountEvent.step r i).Shows c' := by
  obtain ⟨w, e⟩ := i
  cases e with
  | press => exact h.press w
  | select pressed => exact h.select w pressed
  | timer now => exact h.timer w now

/-- The wait ends with a remount of the partition awaited, and of no other. -/
theorem Remount.Shows.due {r : Remount} {p : Partition} (h : r.Shows (.awaiting p))
    {i : World × RemountEvent} (hdue : i.2.Due r) :
    RemountEvent.effects r i = [.attempt (some p)] ∧ SameOthers p i.1 (i.2.run (r.within i.1)).2 := by
  obtain ⟨hs, hp, ht, hdvd⟩ := h
  obtain ⟨w, e⟩ := i
  have heffects := press_effects_waiting hs hp hdvd w
  have hothers := press_others hs hp w
  cases e with
  | press => exact ⟨heffects, hothers⟩
  | select pressed => exact hdue.elim
  | timer now =>
    rw [timer_effects_due ⟨ht, hdue⟩, timer_due ⟨ht, hdue⟩]
    exact ⟨heffects, hothers⟩

theorem Remount.Shows.run {r : Remount} {c : Choice} {es : List RemountEffect} (h : r.Shows c)
    (hes : c.After es) (is : List (World × RemountEvent)) :
    ∃ c', c'.After (es ++ (remountRun r is).2) ∧ (remountRun r is).1.Shows c' := by
  induction is generalizing r c es with
  | nil => exact ⟨c, by simpa [remountRun] using hes, h⟩
  | cons i is ih =>
    obtain ⟨c', hc, hr⟩ := h.step i
    obtain ⟨c'', hes'', hr''⟩ := ih hr (hes.step hc)
    exact ⟨c'', by simpa [remountRun] using hes'', hr''⟩

/-- From the statics as loaded, over any events: mount_timer runs exactly while a device is
awaited, which is the selected one. Whatever mounts is that device just selected, asked for once:
when the button is pressed again or the time is over. -/
theorem remount_run (is : List (World × RemountEvent)) :
    let r := (remountRun {} is).1
    let es := (remountRun {} is).2
    (r.mountTimer ≠ 0 ↔ r.mountstate = .waitForDevice) ∧
    (r.mountstate = .waitForDevice →
      ∃ p, r.mountPartition = some p ∧ es.getLast? = some (.accepted p) ∧
        ∀ i : World × RemountEvent, i.2.Due r → RemountEvent.effects r i = [.attempt (some p)] ∧
          SameOthers p i.1 (i.2.run (r.within i.1)).2) ∧
    (r.mountstate = .selectDevice → r.mountPartition = none) ∧ Paired es := by
  have hloaded : ({} : Remount).Shows .idle := ⟨rfl, rfl⟩
  obtain ⟨c, hes, hr⟩ := hloaded.run Choice.after_nil is
  rw [List.nil_append] at hes
  intro r es
  cases c with
  | idle =>
    have hs : r.mountstate = .start := hr.1
    have ht : r.mountTimer = 0 := hr.2
    simp [hs, ht, es, hes.toPaired]
  | choosing =>
    have hc : r = ⟨.selectDevice, none, 0⟩ := hr
    simp [hc, es, hes.toPaired]
  | awaiting p =>
    have hlast := (hes.awaiting p).mp rfl
    have hshows : r.Shows (.awaiting p) := hr
    obtain ⟨hs, hp, ht, -⟩ := hr
    refine ⟨by simp [r, hs, ht], fun _ => ⟨p, hp, hlast, fun i hi => hshows.due hi⟩, ?_, hes.toPaired⟩
    simp [r, hs]

/-- The stick is changed within the time, and the disc is, with a press once it is in. -/
def changing : List (World × RemountEvent) :=
  let w : World := World.boot (fun _ => none) (fun _ => true) fun _ => []
  [(w, .press), (w, .select WPAD_BUTTON_RIGHT), (w, .timer (secsToTicks 29)),
    (w, .timer (secsToTicks 31)), (w, .press), (w, .select WPAD_BUTTON_1), (w, .press)]

theorem remount_run_changing :
    (remountRun {} changing).2 =
      [.accepted .usb, .attempt (some .usb), .accepted .dvd, .attempt (some .dvd)] ∧
    Paired (remountRun {} changing).2 ∧
    ∀ i : World × RemountEvent, i.2.Due (remountRun {} (changing.take 3)).1 →
      RemountEvent.effects (remountRun {} (changing.take 3)).1 i = [.attempt (some .usb)] := by
  obtain ⟨hs, hp⟩ : (remountRun {} (changing.take 3)).1.mountstate = .waitForDevice ∧
      (remountRun {} (changing.take 3)).1.mountPartition = some .usb := by decide +kernel
  refine ⟨by decide +kernel, (remount_run changing).2.2.2, fun i hi => ?_⟩
  obtain ⟨p, hq, -, hdue⟩ := (remount_run (changing.take 3)).2.1 hs
  obtain rfl : p = .usb := Option.some.inj (hq.symm.trans hp)
  exact (hdue i hi).1

end Ftpii
