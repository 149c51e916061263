import Ftpii.Commands
import Mathlib.Data.List.FinRange
set_option autoImplicit false

/-!
ftp.c and ftpii.c: the event functions, the client table and the main loop. A
step of the system is one part of the loop body; the outcomes it draws are put
in place by steps of the environment.
-/

namespace Ftpii
open StateProgram CString

/-! ## Events of one client -/

/-- The data socket, unless it is still the passive socket. -/
def closeDataSocket : Ses Unit := do
  let c ← client
  if 0 ≤ c.dataSocket ∧ c.dataSocket ≠ c.passiveSocket then os (netCloseBlocking c.dataSocket)
  else pure ()

def runClientCleanup : Ses Unit := do
  let c ← client
  match c.dataConnectionCleanup, c.dataConnectionCallbackArg with
  | some cleanup, some arg => os (runCleanup cleanup arg)
  | _, _ => pure ()

def cleanupDataResources : Ses Unit := do
  closeDataSocket
  update fun c => { c with dataSocket := -1, dataConnectionConnected := false, dataCallback := none }
  runClientCleanup
  update fun c =>
    { c with dataConnectionCallbackArg := none, dataConnectionCleanup := none,
             dataConnectionTimer := 0 }

def runCallback (callback : Callback) (dataSocket : Int) (arg : Nat) : Os Int :=
  match callback with
  | .sendNlst => sendNlst dataSocket arg
  | .sendList => sendList dataSocket arg
  | .sendFromFile => sendFromFile dataSocket arg
  | .recvToFile => recvToFile dataSocket arg

def acceptDataConnection (passiveSocket : Int) : Ses Int := do
  let (result, _) ← os (netAccept passiveSocket)
  if 0 ≤ result then do
    update fun c => { c with dataSocket := result, dataConnectionConnected := true }
    pure result
  else pure result

def connectDataConnection (dataSocket : Int) (address : SockAddr) : Ses Int := do
  let result ← os (netConnect dataSocket address)
  let result := if result = -EINPROGRESS ∨ result = -EALREADY then -EAGAIN else result
  if 0 ≤ result ∨ result = -EISCONN then do
    update fun c => { c with dataConnectionConnected := true }
    pure result
  else pure result

/-- A transfer whose data connection is still to be made: 1 once it is. -/
def awaitDataConnection : Ses Int := do
  let c ← client
  let result ←
    (if 0 ≤ c.passiveSocket then acceptDataConnection c.passiveSocket
    else connectDataConnection c.dataSocket c.address)
  let c ← client
  if c.dataConnectionConnected then pure 1
  else do
    let now ← os gettime
    pure (if c.dataConnectionTimer < now then -1 else result)

def driveTransfer : Ses Int := do
  let c ← client
  match c.dataCallback, c.dataConnectionCallbackArg with
  | some callback, some arg => os (runCallback callback c.dataSocket arg)
  | _, _ => pure (-1)

def transferDone (result : Int) : Ses Int :=
  if result < 0 then transferError
  else writeReply 226 "Closing data connection, transfer successful.".toList

/-- process_data_events up to the cleanup it asks for. -/
def dataEvents : Ses Bool := do
  let c ← client
  let result ← (if c.dataConnectionConnected then driveTransfer else awaitDataConnection)
  if result ≤ 0 ∧ result ≠ -EAGAIN then do
    cleanupDataResources
    let replied ← transferDone result
    pure (replied < 0)
  else pure false

/-- One round of the loop over buffered lines: the next line's position, or none to close. -/
def lineStep (next : Nat) : Ses (Nat ⊕ Option Nat) := do
  let c ← client
  match strstr CRLF (cstr c.buf next) with
  | none => pure (.inr (some next))
  | some i =>
    if c.dataCallback.isSome then pure (.inr (some next))
    else do
      update fun c => { c with buf := c.buf.set (next + i) '\x00' }
      let c ← client
      let line := cstr c.buf next
      emit (.line line)
      if '\n' ∈ line then pure (.inr none)
      else if line = [] then pure (.inl (next + i + CRLF.length))
      else do
        let result ← processCommand line
        emit (.handled result)
        pure (if result < 0 then .inr none else .inl (next + i + CRLF.length))

def processLines : Ses (Option Nat) := Prog.iterate FTP_BUFFER_SIZE lineStep some 0

def appendToBuffer (data : Str) : Ses Unit :=
  update fun c =>
    { c with buf := store (store c.buf c.offset data) (c.offset + data.length) ['\x00'],
             offset := c.offset + data.length }

/-- Move what lies behind the consumed lines to the front. -/
def compactBuffer (next : Nat) : Ses Unit :=
  if next = 0 then pure ()
  else update fun c =>
    { c with buf := store c.buf 0 (cstr c.buf next), offset := (cstr c.buf next).length }

/-- One round of the loop in process_control_events; true to close the client. -/
def controlStep : Ses (Unit ⊕ Bool) := do
  let c ← client
  if FTP_BUFFER_SIZE - 1 ≤ c.offset then pure (.inr true)
  else if c.dataCallback.isSome then pure (.inr false)
  else
    match ← os (netRead c.socket (FTP_BUFFER_SIZE - 1 - c.offset)) with
    | .error bytesRead => do
      emit (.readError bytesRead)
      pure (.inr (bytesRead ≠ -EAGAIN))
    | .ok (id, data) => do
      emit (.recv id data)
      if data = [] then pure (.inr true)
      else do
        appendToBuffer data
        let c' ← client
        if c.offset + (cstr c'.buf c.offset).length ≠ c'.offset then pure (.inr true)
        else
          match ← processLines with
          | none => pure (.inr true)
          | some next => do
            compactBuffer next
            pure (.inl ())

/-- process_control_events up to the cleanup it asks for. -/
def controlEvents : Ses Bool := do
  let fuel ← os netFuel
  Prog.iterate fuel (fun _ => controlStep) (fun _ => false) ()

/-! ## The client table -/

def MAX_CLIENTS : Nat := 5
def PORT : Nat := 21

/-- The static variables of ftp.c and main, with the heap the clients live in. -/
structure Server where
  clients : Fin MAX_CLIENTS → Option Nat
  numClients : UInt8
  heap : Nat → Option Client
  nextClient : Nat
  /-- a freed client was used -/
  fault : Bool
  server : Int
  networkDown : Bool
  /-- the program has ended -/
  halted : Bool
  world : World

def Server.boot (w : World) : Server where
  clients := fun _ => none
  numClients := 0
  heap := fun _ => none
  nextClient := 0
  fault := false
  server := -1
  networkDown := true
  halted := false
  world := w

abbrev Sys := Prog Server

def sys {α : Type} (m : Os α) : Sys α := Prog.zoom Server.world (fun w s => { s with world := w }) m

/-- Run on the client p points to. -/
def withClient {α : Type} [Inhabited α] (p : Nat) (m : Ses α) : Sys α := fun s =>
  match s.heap p with
  | none => (default, { s with fault := true })
  | some c =>
    let r := m ⟨c, s.world⟩
    (r.1, { s with heap := Function.update s.heap p (some r.2.client), world := r.2.world })

def free (p : Nat) : Sys Unit := Prog.modify fun s => { s with heap := Function.update s.heap p none }

def Server.findSlot (s : Server) (o : Option Nat) : Option (Fin MAX_CLIENTS) :=
  (List.finRange MAX_CLIENTS).find? fun i => s.clients i = o

/-- Overwrite the first slot that holds the one value with the other. -/
def replaceSlot (old new : Option Nat) : Sys Unit :=
  Prog.modify fun s =>
    match s.findSlot old with
    | none => s
    | some i => { s with clients := Function.update s.clients i new }

def closeSockets : Ses Unit := do
  let c ← client
  os (netCloseBlocking c.socket)
  cleanupDataResources
  closePassiveSocket

def cleanupClient (p : Nat) : Sys Unit := do
  withClient p closeSockets
  replaceSlot (some p) none
  free p
  Prog.modify fun s => { s with numClients := s.numClients - 1 }

/-- A client as process_accept_events fills it in. -/
def newClient (w : World) (peer : Int) (address : SockAddr) : Client where
  socket := peer
  address := address
  buf := (w.answers.garbage ++ List.replicate FTP_BUFFER_SIZE '\x00').take FTP_BUFFER_SIZE
  conn := ((w.socks peer).map Sock.id).getD 0

def allocClient (peer : Int) (address : SockAddr) : Sys Nat := fun s =>
  (s.nextClient,
    { s with heap := Function.update s.heap s.nextClient (some (newClient s.world peer address)),
             nextClient := s.nextClient + 1 })

/-- Greet an accepted peer and give it a slot. -/
def admitClient (peer : Int) (address : SockAddr) : Sys Unit := do
  let p ← allocClient peer address
  let result ← withClient p (writeReply 220 "ftpii".toList)
  if result < 0 then do
    sys (netCloseBlocking peer)
    free p
  else do
    replaceSlot none (some p)
    Prog.modify fun s => { s with numClients := s.numClients + 1 }

def acceptStep (server : Int) : Sys (Unit ⊕ Bool) := do
  let (peer, address) ← sys (netAccept server)
  if peer = -EAGAIN then pure (.inr true)
  else if peer < 0 then pure (.inr false)
  else do
    let n ← Prog.gets Server.numClients
    if n.toNat = MAX_CLIENTS then do
      sys (netClose peer)
      pure (.inr true)
    else do
      let ok ← sys malloc
      if !ok then do
        sys (netClose peer)
        pure (.inr true)
      else do
        admitClient peer address
        pure (.inl ())

def processAcceptEvents (server : Int) : Sys Bool := do
  let fuel ← sys netFuel
  Prog.iterate fuel (fun _ => acceptStep server) (fun _ => true) ()

def processDataEvents (p : Nat) : Sys Unit := do
  let close ← withClient p dataEvents
  if close then cleanupClient p else pure ()

def processControlEvents (p : Nat) : Sys Unit := do
  let close ← withClient p controlEvents
  if close then cleanupClient p else pure ()

def processSlot (i : Fin MAX_CLIENTS) : Sys Unit := do
  let s ← Prog.get
  match s.clients i with
  | none => pure ()
  | some p => do
    let callback ← withClient p (Prog.gets fun t => t.client.dataCallback)
    if callback.isSome then processDataEvents p else processControlEvents p

def processFtpEvents (server : Int) : Sys Bool := do
  let up ← processAcceptEvents server
  Prog.forEach (List.finRange MAX_CLIENTS) processSlot
  pure (!up)

def cleanupSlot (i : Fin MAX_CLIENTS) : Sys Unit := do
  let s ← Prog.get
  match s.clients i with
  | none => pure ()
  | some p => do
    let _ ← withClient p
      (writeReply 421 "Service not available, closing control connection.".toList)
    cleanupClient p

def cleanupFtp : Sys Unit := Prog.forEach (List.finRange MAX_CLIENTS) cleanupSlot

/-! ## The main loop -/

def processWiimoteEvents : Os Unit := do
  let pressed ← checkWiimote (WPAD_BUTTON_A ||| WPAD_BUTTON_B ||| WPAD_BUTTON_LEFT |||
    WPAD_BUTTON_RIGHT ||| WPAD_BUTTON_UP ||| WPAD_BUTTON_DOWN ||| WPAD_BUTTON_1)
  if pressed &&& WPAD_BUTTON_A ≠ 0 then setResetFlag
  else if pressed &&& WPAD_BUTTON_B ≠ 0 then processRemountEvent
  else if pressed &&& (WPAD_BUTTON_LEFT ||| WPAD_BUTTON_RIGHT ||| WPAD_BUTTON_UP |||
      WPAD_BUTTON_DOWN ||| WPAD_BUTTON_1) ≠ 0 then processDeviceSelectEvent pressed
  else pure ()

/-- The wiimote buttons a GameCube controller's buttons stand for. -/
def wpadPressed (pressed : Nat) : Nat :=
  (if pressed &&& PAD_BUTTON_LEFT ≠ 0 then WPAD_BUTTON_LEFT else 0) |||
  (if pressed &&& PAD_BUTTON_RIGHT ≠ 0 then WPAD_BUTTON_RIGHT else 0) |||
  (if pressed &&& PAD_BUTTON_UP ≠ 0 then WPAD_BUTTON_UP else 0) |||
  (if pressed &&& PAD_BUTTON_DOWN ≠ 0 then WPAD_BUTTON_DOWN else 0) |||
  (if pressed &&& PAD_BUTTON_X ≠ 0 then WPAD_BUTTON_1 else 0)

def processGamecubeEvents : Os Unit := do
  let pressed ← checkGamecube (PAD_BUTTON_A ||| PAD_BUTTON_B ||| PAD_BUTTON_LEFT |||
    PAD_BUTTON_RIGHT ||| PAD_BUTTON_UP ||| PAD_BUTTON_DOWN ||| PAD_BUTTON_X)
  if pressed &&& PAD_BUTTON_A ≠ 0 then setResetFlag
  else if pressed &&& PAD_BUTTON_B ≠ 0 then processRemountEvent
  else if pressed &&& (PAD_BUTTON_LEFT ||| PAD_BUTTON_RIGHT ||| PAD_BUTTON_UP |||
      PAD_BUTTON_DOWN ||| PAD_BUTTON_X) ≠ 0 then processDeviceSelectEvent (wpadPressed pressed)
  else pure ()

def processTimerEvents : Os Unit := do
  let now ← gettime
  checkDvdMotorTimeout now
  checkMountTimer now
  checkRemovableDevices now

def APP_DIR_PREFIX : Str := "ftpii_".toList

def setPasswordFromExecutable (executable : Str) : Os Unit :=
  let dir := basename (dirname executable)
  if caseEq APP_DIR_PREFIX (dir.take APP_DIR_PREFIX.length) then
    setFtpPassword (some (dir.drop APP_DIR_PREFIX.length))
  else pure ()

/-- The password main sets before its loop. -/
def initialisePassword (argv : List Str) : Os Unit :=
  match argv with
  | _ :: password :: _ => setFtpPassword (some password)
  | [executable] => setPasswordFromExecutable executable
  | [] => pure ()

/-- What main does while the network is down. -/
def reinitialise : Sys Unit := do
  let s ← Prog.get
  sys (netClose s.server)
  sys initialiseNetwork
  match ← sys (createServer PORT) with
  | none => Prog.modify fun s => { s with halted := true }
  | some server => Prog.modify fun s => { s with server := server, networkDown := server < 0 }

def acceptEvents : Sys Unit := do
  let s ← Prog.get
  let up ← processAcceptEvents s.server
  Prog.modify fun s => { s with networkDown := !up }

/-- What main does after its loop. -/
def shutdown : Sys Unit := do
  cleanupFtp
  let s ← Prog.get
  sys (netClose s.server)
  Prog.forEach VIRTUAL_PARTITIONS fun p => do
    let _ ← sys (unmount (some p))
    pure ()
  let _ ← sys dvdStop
  Prog.modify fun s => { s with halted := true }

/-- A part of the main loop, or a choice of coming outcomes by the environment. -/
inductive Label where
  | env (answers : Answers)
  | reinit
  | dvdMount
  | accept
  | slot (i : Fin MAX_CLIENTS)
  | wiimote
  | gamecube
  | timers
  | shutdown

def Label.run : Label → Sys Unit
  | .env answers => sys (Prog.modify fun w => { w with answers := answers })
  | .reinit => reinitialise
  | .dvdMount => sys checkDvdMount
  | .accept => acceptEvents
  | .slot i => processSlot i
  | .wiimote => sys processWiimoteEvents
  | .gamecube => sys processGamecubeEvents
  | .timers => sys processTimerEvents
  | .shutdown => Ftpii.shutdown

def Server.step (s : Server) (l : Label) : Server := if s.halted then s else (l.run s).2

def serveEvents (server : Int) : Sys Unit := do
  sys checkDvdMount
  let down ← processFtpEvents server
  Prog.modify fun s => { s with networkDown := down }
  sys processWiimoteEvents
  sys processGamecubeEvents
  sys processTimerEvents

/-- The loop body of main. -/
def mainIteration : Sys Unit := do
  let s ← Prog.get
  let _ ← (if s.networkDown then reinitialise else pure ())
  let s ← Prog.get
  if s.halted || s.networkDown then pure () else serveEvents s.server

end Ftpii
