import Ftpii.StateProgram
import Mathlib.Data.UInt
set_option autoImplicit false

/-!
The world around the program: network stack, C library, file systems and console
hardware, together with the static variables of the source files. Each kind of
call draws its outcomes from a list of its own, so any outcome of any call at any
time is some initial list.
-/

namespace Ftpii
open StateProgram

abbrev Str := List Char

def EAGAIN : Int := 11
def ENOENT : Int := 2
def EBADF : Int := 9
def ENOMEM : Int := 12
def ENODEV : Int := 19
def ENOTDIR : Int := 20
def EINVAL : Int := 22
def ENFILE : Int := 23
def ENODATA : Int := 61
def EINPROGRESS : Int := 119
def EALREADY : Int := 120
def EISCONN : Int := 127
def EQUIT : Int := 696969

/-- `struct sockaddr_in`: the fields the program reads. -/
structure SockAddr where
  ip : Nat := 0
  port : Nat := 0
  deriving DecidableEq, Repr

/-- A socket object of the network stack. Numbers are reused, ids never. -/
structure Sock where
  id : Nat
  flags : BitVec 32 := 0
  port : Nat := 0
  listening : Bool := false
  deriving DecidableEq, Repr

/-- One outcome of a network call other than write and fcntl. -/
structure NetAnswer where
  code : Int := 0
  data : Str := []
  addr : SockAddr := {}
  deriving DecidableEq, Repr

/-- One outcome of a file call. A negative code is a reported error. -/
structure FileAnswer where
  code : Int := 0
  errno : Int := 0
  /-- bytes a failing fread or fwrite still transfers -/
  count : Nat := 0
  /-- buffered bytes that reach the file during this call -/
  flushed : Nat := 0
  data : Str := []
  isDir : Bool := true
  size : Nat := 0
  time : Str := []
  deriving DecidableEq, Repr

structure Answers where
  net : List NetAnswer := []
  writes : List Int := []
  fcntls : List Int := []
  files : List FileAnswer := []
  mallocs : List Bool := []
  clock : List Nat := []
  devices : List Int := []
  /-- what fresh heap memory happens to hold -/
  garbage : Str := []
  deriving DecidableEq, Repr

inductive Mode where
  | rb | wb | ab
  deriving DecidableEq, Repr

inductive Target where
  | file (path : Str) (mode : Mode)
  | dir (path : Str)
  /-- the fake iterator of the virtual root, with its `dirStruct` -/
  | root (dirStruct : Nat)
  deriving DecidableEq, Repr

structure Stream where
  target : Target
  pos : Nat := 0
  /-- the offset fopen or lseek last moved to -/
  start : Nat := 0
  pending : Str := []
  eof : Bool := false
  closes : Nat := 0
  deriving DecidableEq, Repr

/-- Calls whose occurrence the results speak about. -/
inductive Call where
  | opened (s : Int) (id : Nat)
  | closed (s : Int) (id : Option Nat)
  /-- net_read, net_accept or net_connect on a socket in this mode -/
  | waits (s : Int) (blocking : Bool)
  /-- where net_connect is asked to connect to -/
  | connects (s : Int) (addr : SockAddr)
  | write (s : Int) (requested : Nat) (result : Int)
  | deinit
  | rename (source target : Str)
  deriving DecidableEq, Repr

/-- What happens on one control connection, in order. -/
inductive Event where
  /-- bytes read from the socket object with this id; none at end of file -/
  | recv (id : Nat) (data : Str)
  | readError (code : Int)
  /-- a line cut off at its CRLF -/
  | line (text : Str)
  /-- a line given to process_command, and the password then in force -/
  | command (text : Str) (password : Option Str)
  | handled (result : Int)
  | reply (code : Nat) (text : Str) (result : Int)
  /-- prepare_data_connection found no data socket -/
  | noDataSocket (result : Int)
  deriving DecidableEq, Repr

inductive Partition where
  | gcsda | gcsdb | sd | usb | dvd | wod | fst | nand | isfs | otp | seeprom
  deriving DecidableEq, Repr

inductive MountState where
  | start | selectDevice | waitForDevice
  deriving DecidableEq, Repr

/-- What was asked of the drives: mount, and the calls that start the DVD and stop its motor. -/
inductive DriveCall where
  | mount (partition : Option Partition)
  | diMount
  | diStopMotor
  deriving DecidableEq, Repr

/-- The static variables of fs.c and dvd.c, which partitions are mounted, and what was asked of the
drives. -/
structure Devices where
  mounted : Partition → Bool
  inserted : Partition → Bool := fun _ => false
  geckofail : Partition → Bool := fun _ => false
  dvdMountWait : Bool := false
  dvdLastStopped : Nat := 0
  mountstate : MountState := .start
  mountPartition : Option Partition := none
  mountTimer : Nat := 0
  deviceCheckTimer : Nat := 0
  calls : List DriveCall := []

structure World where
  answers : Answers
  errno : Int
  strerror : Int → Str
  socks : Int → Option Sock
  nextSock : Nat
  /-- bytes net_write accepted and net_read delivered, by socket id -/
  sent : Nat → Str
  received : Nat → Str
  disk : Str → Option Str
  streams : Nat → Option Stream
  nextStream : Nat
  log : List Call
  /-- events by the id of the control connection -/
  hist : Nat → List Event
  netBufferSize : Nat
  passivePort : UInt16
  password : Option Str
  resetFlag : Bool
  /-- run_dol was reached: another program may have taken over -/
  dolStarted : Bool
  devices : Devices

abbrev Os := Prog World

def MAX_NET_BUFFER_SIZE : Nat := 32768
def MIN_NET_BUFFER_SIZE : Nat := 4096

/-- The static variables as the program is loaded, nothing open. -/
def World.boot (disk : Str → Option Str) (mounted : Partition → Bool) (strerror : Int → Str) :
    World where
  answers := {}
  errno := 0
  strerror := strerror
  socks := fun _ => none
  nextSock := 0
  sent := fun _ => []
  received := fun _ => []
  disk := disk
  streams := fun _ => none
  nextStream := 0
  log := []
  hist := fun _ => []
  netBufferSize := MAX_NET_BUFFER_SIZE
  passivePort := 1024
  password := none
  resetFlag := false
  dolStarted := false
  devices := { mounted := mounted }

def World.record (w : World) (c : Call) : World := { w with log := w.log ++ [c] }

def World.emit (w : World) (k : Nat) (e : Event) : World :=
  { w with hist := Function.update w.hist k (w.hist k ++ [e]) }

def World.setSock (w : World) (s : Int) (o : Option Sock) : World :=
  { w with socks := Function.update w.socks s o }

def World.setStream (w : World) (h : Nat) (st : Stream) : World :=
  { w with streams := Function.update w.streams h (some st) }

/-! ## Drawing outcomes -/

def popNet : Os NetAnswer := fun w =>
  match w.answers.net with
  | [] => ({ code := -EAGAIN }, w)
  | a :: as => (a, { w with answers := { w.answers with net := as } })

/-- A write not listed is accepted in full. -/
def popWrite (len : Nat) : Os Int := fun w =>
  match w.answers.writes with
  | [] => (len, w)
  | a :: as => (a, { w with answers := { w.answers with writes := as } })

def popFcntl : Os Int := fun w =>
  match w.answers.fcntls with
  | [] => (0, w)
  | a :: as => (a, { w with answers := { w.answers with fcntls := as } })

def popFile : Os (Option FileAnswer) := fun w =>
  match w.answers.files with
  | [] => (none, w)
  | a :: as => (some a, { w with answers := { w.answers with files := as } })

def popDevice : Os Int := fun w =>
  match w.answers.devices with
  | [] => (0, w)
  | a :: as => (a, { w with answers := { w.answers with devices := as } })

def gettime : Os Nat := fun w =>
  match w.answers.clock with
  | [] => (0, w)
  | a :: as => (a, { w with answers := { w.answers with clock := as } })

def setErrno (e : Int) : Os Unit := Prog.modify fun w => { w with errno := e }

def malloc : Os Bool := fun w =>
  match w.answers.mallocs with
  | [] => (true, w)
  | a :: as =>
    (a, { w with answers := { w.answers with mallocs := as },
                 errno := if a then w.errno else ENOMEM })

def secsToTicks (secs : Nat) : Nat := secs * 60750000

/-! ## Sockets -/

/-- A new socket object under the number the stack picked, unless that number is open. -/
def openSock (fd : Int) : Os Int := fun w =>
  match w.socks fd with
  | some _ => (-ENFILE, w)
  | none =>
    (fd, ({ w with nextSock := w.nextSock + 1 }.setSock fd (some { id := w.nextSock })).record
      (.opened fd w.nextSock))

def netSocket : Os Int := do
  let a ← popNet
  if a.code < 0 then pure a.code else openSock a.code

def netBind (s : Int) (port : Nat) : Os Int := do
  let a ← popNet
  if a.code < 0 then pure a.code
  else do
    Prog.modify fun w => match w.socks s with
      | none => w
      | some k => w.setSock s (some { k with port := port })
    pure 0

def netListen (s : Int) : Os Int := do
  let a ← popNet
  if a.code < 0 then pure a.code
  else do
    Prog.modify fun w => match w.socks s with
      | none => w
      | some k => w.setSock s (some { k with listening := true })
    pure 0

def Sock.blocking (k : Sock) : Bool := !k.flags.getLsbD 2

/-- Note the mode in which a call that may wait is issued; fail on a number that is not open. -/
def waitOn (s : Int) : Os (Option Sock) := fun w =>
  match w.socks s with
  | none => (none, w)
  | some k => (some k, w.record (.waits s k.blocking))

def netAccept (s : Int) : Os (Int × SockAddr) := do
  match ← waitOn s with
  | none => pure (-EBADF, {})
  | some _ => do
    let a ← popNet
    if a.code < 0 then pure (a.code, {})
    else do
      let r ← openSock a.code
      pure (r, a.addr)

def netConnect (s : Int) (addr : SockAddr) : Os Int := do
  match ← waitOn s with
  | none => pure (-EBADF)
  | some _ => do
    Prog.modify fun w => w.record (.connects s addr)
    let a ← popNet
    pure (if a.code < 0 then a.code else 0)

/-- At most len bytes, with the id of the socket object they came from. -/
def netRead (s : Int) (len : Nat) : Os (Except Int (Nat × Str)) := do
  match ← waitOn s with
  | none => pure (.error (-EBADF))
  | some k => do
    let a ← popNet
    if a.code < 0 then pure (.error a.code)
    else do
      let data := a.data.take len
      Prog.modify fun w =>
        { w with received := Function.update w.received k.id (w.received k.id ++ data) }
      pure (.ok (k.id, data))

/-- The stack accepts at most what it was given. -/
def netWrite (s : Int) (buf : Str) : Os Int := fun w =>
  match w.socks s with
  | none => (-EBADF, w)
  | some k =>
    let r := min (popWrite buf.length w).1 buf.length
    let w' := (popWrite buf.length w).2
    (r, ({ w' with sent := Function.update w'.sent k.id (w'.sent k.id ++ buf.take r.toNat) }).record
      (.write s buf.length r))

def netClose (s : Int) : Os Unit :=
  Prog.modify fun w => (w.setSock s none).record (.closed s ((w.socks s).map Sock.id))

def netFcntlGet (s : Int) : Os (Int × BitVec 32) := fun w =>
  match w.socks s with
  | none => ((-EBADF, 0), w)
  | some k => let r := popFcntl w; ((if r.1 < 0 then r.1 else 0, k.flags), r.2)

def netFcntlSet (s : Int) (flags : BitVec 32) : Os Int := fun w =>
  match w.socks s with
  | none => (-EBADF, w)
  | some k =>
    let r := popFcntl w
    if r.1 < 0 then r else (0, r.2.setSock s (some { k with flags := flags }))

/-- Every open descriptor becomes invalid. -/
def netDeinit : Os Unit :=
  Prog.modify fun w => ({ w with socks := fun _ => none }).record .deinit

def netInit : Os Int := do
  let a ← popNet
  pure a.code

def netGethostip : Os Nat := do
  let a ← popNet
  pure a.addr.ip

end Ftpii
