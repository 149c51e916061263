import Ftpii.Console
import Ftpii.CString
import Ftpii.Files
set_option autoImplicit false

/-! fs.c and dvd.c: the partition table, mounting, and the device events. -/

namespace Ftpii
open StateProgram CString

/-- `VIRTUAL_PARTITIONS`, in table order. -/
def VIRTUAL_PARTITIONS : List Partition :=
  [.gcsda, .gcsdb, .sd, .usb, .dvd, .wod, .fst, .nand, .isfs, .otp, .seeprom]

namespace Partition

def mountPoint : Partition → Str
  | gcsda => "carda".toList
  | gcsdb => "cardb".toList
  | sd => "sd".toList
  | usb => "usb".toList
  | dvd => "dvd".toList
  | wod => "wod".toList
  | fst => "fst".toList
  | nand => "nand".toList
  | isfs => "isfs".toList
  | otp => "otp".toList
  | seeprom => "seeprom".toList

def alias_ : Partition → Str
  | gcsda => "/carda".toList
  | gcsdb => "/cardb".toList
  | sd => "/sd".toList
  | usb => "/usb".toList
  | dvd => "/dvd".toList
  | wod => "/wod".toList
  | fst => "/fst".toList
  | nand => "/nand".toList
  | isfs => "/isfs".toList
  | otp => "/otp".toList
  | seeprom => "/seeprom".toList

def prefix_ : Partition → Str
  | gcsda => "carda:/".toList
  | gcsdb => "cardb:/".toList
  | sd => "sd:/".toList
  | usb => "usb:/".toList
  | dvd => "dvd:/".toList
  | wod => "wod:/".toList
  | fst => "fst:/".toList
  | nand => "nand:/".toList
  | isfs => "isfs:/".toList
  | otp => "otp:/".toList
  | seeprom => "seeprom:/".toList

/-- The partition has a `DISC_INTERFACE`. -/
def hasDisc : Partition → Bool
  | gcsda | gcsdb | sd | usb => true
  | _ => false

def isGecko (p : Partition) : Bool := p = gcsda || p = gcsdb

def isFat (p : Partition) : Bool := p = sd || p = usb || p.isGecko

def isDvd (p : Partition) : Bool := p = dvd || p = wod || p = fst

end Partition

def toVirtualPartition (virtualPrefix : Str) : Option Partition :=
  VIRTUAL_PARTITIONS.find? fun p => caseEq p.alias_ virtualPrefix

def updateDevices (f : Devices → Devices) : Os Unit :=
  Prog.modify fun w => { w with devices := f w.devices }

/-- A call that answers yes or no. -/
def deviceCall : Os Bool := do
  let r ← popDevice
  pure (r ≠ 0)

/-- `diropen` on the partition's prefix succeeds. -/
def mounted (p : Partition) : Os Bool := Prog.gets fun w => w.devices.mounted p

def setMounted (p : Partition) (b : Bool) : Os Unit :=
  updateDevices fun d => { d with mounted := Function.update d.mounted p b }

def setInserted (p : Partition) (b : Bool) : Os Unit :=
  updateDevices fun d => { d with inserted := Function.update d.inserted p b }

def setGeckofail (p : Partition) (b : Bool) : Os Unit :=
  updateDevices fun d => { d with geckofail := Function.update d.geckofail p b }

def dvdMountWait : Os Bool := Prog.gets fun w => w.devices.dvdMountWait

def setDvdMountWait (state : Bool) : Os Unit :=
  updateDevices fun d => { d with dvdMountWait := state }

/-- The latest of the three DVD libraries' access times. -/
def dvdLastAccess : Os Nat := do
  let iso ← popDevice
  let wod ← popDevice
  let fst ← popDevice
  pure (max (max iso.toNat wod.toNat) fst.toNat)

def noteDrive (c : DriveCall) : Os Unit := updateDevices fun d => { d with calls := d.calls ++ [c] }

def diMount : Os Int := do
  noteDrive .diMount
  popDevice

def diStopMotor : Os Int := do
  noteDrive .diStopMotor
  popDevice

def dvdStop : Os Int := do
  let now ← gettime
  updateDevices fun d => { d with dvdLastStopped := now }
  diStopMotor

/-- A library's mount or unmount call, which takes effect when it reports success. -/
def mountCall (p : Partition) (state : Bool) : Os Bool := do
  let success ← deviceCall
  if success then do
    setMounted p state
    pure true
  else pure false

def waitForDvd (timeout : Nat) : Os Unit := do
  let fuel ← Prog.gets fun w => w.answers.devices.length + 1
  Prog.iterate fuel (fun _ => do
    let ready ← deviceCall
    if ready then pure (.inr ())
    else do
      let now ← gettime
      pure (if now < timeout then .inl () else .inr ())) id ()

def stopIdleDvd : Os Unit := do
  let waiting ← dvdMountWait
  if waiting then pure ()
  else do
    let access ← dvdLastAccess
    if access = 0 then do
      let _ ← dvdStop
      pure ()
    else pure ()

def mountReadyDvd (p : Partition) : Os Bool := do
  setDvdMountWait false
  mountCall p true

def mountDvd (p : Partition) : Os Bool := do
  setDvdMountWait true
  let _ ← diMount
  let now ← gettime
  waitForDvd (now + secsToTicks 10)
  let ready ← deviceCall
  let success ← (if ready then mountReadyDvd p else pure false)
  stopIdleDvd
  pure success

def mountFatOrNtfs (p : Partition) : Os Bool := do
  let fat ← mountCall p true
  if fat then pure true
  else do
    let partitionCount ← popDevice
    if 0 < partitionCount then mountCall p true else pure false

def mountDisc (p : Partition) : Os Bool :=
  Prog.iterate 2 (fun retryGecko => do
    let stopped ← (if p = .usb then pure true else deviceCall)
    let started ← deviceCall
    if stopped && started then .inr <$> mountFatOrNtfs p
    else if p.isGecko && retryGecko then pure (.inl false)
    else pure (.inr false)) (fun _ => false) true

def mountByKind (p : Partition) : Os Bool :=
  if p.isDvd then mountDvd p
  else if p.isFat then mountDisc p
  else mountCall p true

def mount (partition : Option Partition) : Os Bool := do
  noteDrive (.mount partition)
  match partition with
  | none => pure false
  | some p =>
    let already ← mounted p
    let waiting ← dvdMountWait
    if already || (p.isDvd && waiting) then pure false
    else do
      let success ← mountByKind p
      if success && p.isGecko then do
        setGeckofail p false
        pure success
      else pure success

def mountVirtual (dir : Str) : Os Bool := mount (toVirtualPartition dir)

def unmount (partition : Option Partition) : Os Bool := do
  match partition with
  | none => pure false
  | some p =>
    let already ← mounted p
    let waiting ← dvdMountWait
    if !already || (p.isDvd && waiting) then pure false
    else if p.isDvd then do
      let success ← mountCall p false
      stopIdleDvd
      pure success
    else if p.isFat then do
      setMounted p false
      pure true
    else mountCall p false

def unmountVirtual (dir : Str) : Os Bool := unmount (toVirtualPartition dir)

def dvdUnmount : Os Unit := do
  let _ ← unmount (some .wod)
  let _ ← unmount (some .fst)
  let _ ← unmount (some .dvd)
  let _ ← dvdStop
  pure ()

def dvdEject : Os Int := do
  dvdUnmount
  popDevice

def DVD_MOTOR_TIMEOUT : Nat := 300

def checkDvdMotorTimeout (now : Nat) : Os Unit := do
  let access ← dvdLastAccess
  let d ← Prog.gets World.devices
  if d.dvdLastStopped < access ∧ access + secsToTicks DVD_MOTOR_TIMEOUT < now ∧ ¬ d.dvdMountWait
  then dvdUnmount
  else pure ()

def checkDvdMount : Os Unit := do
  let waiting ← dvdMountWait
  if waiting then do
    let ready ← deviceCall
    if ready then do
      setDvdMountWait false
      let wod ← mountCall .wod true
      let fst ← mountCall .fst true
      let iso ← mountCall .dvd true
      if !(wod || fst || iso) then do
        let _ ← dvdStop
        pure ()
      else pure ()
    else pure ()
  else pure ()

/-- The cover register of the DVD drive, unless it is busy mounting. -/
def readDvdCover : Os Unit := do
  let waiting ← dvdMountWait
  if waiting then pure ()
  else do
    let error ← deviceCall
    if error then pure ()
    else do
      let status ← popDevice
      setInserted .dvd (status.toNat &&& 2 = 2)

/-- A DISC_INTERFACE's report; the front SD slot is started up first. -/
def readDiscInterface (p : Partition) (alreadyInserted : Bool) : Os Unit := do
  let _ ← (if !alreadyInserted && p = .sd then deviceCall else pure true)
  let inserted ← deviceCall
  setInserted p inserted

def readInserted (p : Partition) (d : Devices) (alreadyInserted : Bool) : Os Unit :=
  if p.isDvd then
    if p = .dvd then readDvdCover else setInserted p (d.inserted .dvd)
  else readDiscInterface p alreadyInserted

def wasInsertedOrRemoved (p : Partition) : Os Bool := do
  let d ← Prog.gets World.devices
  if (!p.hasDisc || d.geckofail p) && !p.isDvd then pure false
  else do
    let alreadyInserted := d.inserted p || d.mounted p
    readInserted p d alreadyInserted
    let inserted ← Prog.gets fun w => w.devices.inserted p
    pure (alreadyInserted != inserted)

def startDvdMount : Os Unit := do
  setDvdMountWait true
  let _ ← diMount
  pure ()

def checkRemovableDevice (p : Partition) : Os Unit := do
  let d ← Prog.gets World.devices
  if d.mountTimer ≠ 0 ∧ some p = d.mountPartition then pure ()
  else do
    let changed ← wasInsertedOrRemoved p
    let d ← Prog.gets World.devices
    if changed then
      if d.inserted p && (p = .dvd || (!p.isDvd && !d.mounted p)) then
        if p = .dvd then startDvdMount
        else do
          let success ← mount (some p)
          if !success && p.isGecko then setGeckofail p true else pure ()
      else if !d.inserted p && d.mounted p then do
        let _ ← unmount (some p)
        pure ()
      else pure ()
    else pure ()

def checkRemovableDevices (now : Nat) : Os Unit := do
  let d ← Prog.gets World.devices
  if now ≤ d.deviceCheckTimer then pure ()
  else do
    Prog.forEach VIRTUAL_PARTITIONS checkRemovableDevice
    let time ← gettime
    updateDevices fun d => { d with deviceCheckTimer := time + secsToTicks 2 }

def remount (partition : Option Partition) : Os Unit :=
  if (partition.map Partition.isDvd).getD false then startDvdMount
  else do
    let _ ← mount partition
    pure ()

def processRemountEvent : Os Unit := do
  let d ← Prog.gets World.devices
  match d.mountstate with
  | .start | .selectDevice =>
    updateDevices fun d => { d with mountstate := .selectDevice, mountPartition := none }
  | .waitForDevice => do
    updateDevices fun d => { d with mountTimer := 0, mountstate := .start }
    remount d.mountPartition
    updateDevices fun d => { d with mountPartition := none }

def selectedPartition (pressed : Nat) : Option Partition :=
  if pressed &&& WPAD_BUTTON_LEFT ≠ 0 then some .sd
  else if pressed &&& WPAD_BUTTON_RIGHT ≠ 0 then some .usb
  else if pressed &&& WPAD_BUTTON_UP ≠ 0 then some .gcsda
  else if pressed &&& WPAD_BUTTON_DOWN ≠ 0 then some .gcsdb
  else if pressed &&& WPAD_BUTTON_1 ≠ 0 then some .dvd
  else none

def startMountTimer : Os Unit := do
  let now ← gettime
  updateDevices fun d => { d with mountTimer := now + secsToTicks 30 }

def processDeviceSelectEvent (pressed : Nat) : Os Unit := do
  let d ← Prog.gets World.devices
  if d.mountstate = .selectDevice then do
    let selected := (selectedPartition pressed).or d.mountPartition
    updateDevices fun d => { d with mountPartition := selected }
    match selected with
    | none => pure ()
    | some p => do
      updateDevices fun d => { d with mountstate := .waitForDevice }
      if p.isDvd then do
        let waiting ← dvdMountWait
        if waiting then updateDevices fun d => { d with mountstate := .start }
        else do
          dvdUnmount
          startMountTimer
      else do
        let _ ← (if p.isFat then unmount (some p) else pure true)
        startMountTimer
  else pure ()

def checkMountTimer (now : Nat) : Os Unit := do
  let d ← Prog.gets World.devices
  if d.mountTimer ≠ 0 ∧ d.mountTimer < now then processRemountEvent else pure ()

/-- Everything before the last '/', or nothing. -/
def dirname (path : Str) : Str :=
  let result := path.take 1023
  if '/' ∈ result then ((result.reverse.dropWhile (· ≠ '/')).drop 1).reverse else []

/-- Everything after the last '/'. -/
def basename (path : Str) : Str := (path.reverse.takeWhile (· ≠ '/')).reverse

end Ftpii
