import Ftpii.Console
import Ftpii.Files
set_option autoImplicit false

/-! net.c: blocking mode, the listening socket and the transfer loops. -/

namespace Ftpii
open StateProgram

def FREAD_BUFFER_SIZE : Nat := 32768

/-- Loops that draw a network outcome in every round end with the list of outcomes. -/
def netFuel : Os Nat := Prog.gets fun w => w.answers.net.length + 1

def waitForNetInit (result : Int) : Os Int := do
  let fuel ← netFuel
  Prog.iterate fuel (fun result => do
    if ← checkResetSynchronous then pure (.inr result)
    else do
      let result ← netInit
      pure (if result = -EAGAIN then .inl result else .inr result)) id result

def waitForHostip : Os Nat := do
  let fuel ← netFuel
  Prog.iterate fuel (fun _ => do
    let ip ← netGethostip
    let reset ← checkResetSynchronous
    pure (if !reset && ip = 0 then .inl ip else .inr ip)) id 0

def initialiseNetwork : Os Unit := do
  let fuel ← netFuel
  let result ← Prog.iterate fuel (fun result => do
    let reset ← checkResetSynchronous
    if !reset && result < 0 then do
      netDeinit
      .inl <$> waitForNetInit result
    else pure (.inr result)) id (-1)
  if 0 ≤ result then do
    let _ ← waitForHostip
    pure ()
  else pure ()

def setBlocking (s : Int) (blocking : Bool) : Os Int := do
  let (result, flags) ← netFcntlGet s
  if result < 0 then pure result
  else netFcntlSet s (if blocking then flags &&& ~~~4#32 else flags ||| 4#32)

def netCloseBlocking (s : Int) : Os Unit := do
  let _ ← setBlocking s true
  netClose s

/-- The server socket or a negative error; none when `die` ends the program. -/
def createServer (port : Nat) : Os (Option Int) := do
  let server ← netSocket
  if server < 0 then pure none
  else do
    let _ ← setBlocking server false
    let ret ← netBind server port
    if ret < 0 then do
      netClose server
      pure (some ret)
    else do
      let ret ← netListen server
      if ret < 0 then do
        netClose server
        pure (some ret)
      else pure (some server)

def shrinkBuffer : Os Unit := Prog.modify fun w => { w with netBufferSize := MIN_NET_BUFFER_SIZE }

/-- One round of the loop in transfer_exact over the bytes that remain. -/
def transferStep (s : Int) (transferrer : Int → Str → Os Int) (buf : Str) : Os (Str ⊕ Int) := do
  if buf = [] then pure (.inr 0)
  else do
    let size ← Prog.gets World.netBufferSize
    let bytesTransferred ← transferrer s (buf.take (min buf.length size))
    if 0 < bytesTransferred then pure (.inl (buf.drop bytesTransferred.toNat))
    else if bytesTransferred < 0 then
      if bytesTransferred = -EINVAL ∧ size = MAX_NET_BUFFER_SIZE then do
        shrinkBuffer
        pure (.inl buf)
      else pure (.inr bytesTransferred)
    else pure (.inr (-ENODATA))

/-- Every round moves a byte or shrinks the buffer, which it can do once. -/
def transferExact (s : Int) (buf : Str) (transferrer : Int → Str → Os Int) : Os Int := do
  let _ ← setBlocking s true
  let result ← Prog.iterate (buf.length + 2) (transferStep s transferrer) (fun _ => 0) buf
  let _ ← setBlocking s false
  pure result

def sendExact (s : Int) (buf : Str) : Os Int := transferExact s buf netWrite

def sendFromFile (s : Int) (f : Nat) : Os Int := do
  let buf ← fread f FREAD_BUFFER_SIZE
  let result ← (if 0 < buf.length then sendExact s buf else pure 0)
  if result < 0 then pure result
  else if buf.length < FREAD_BUFFER_SIZE then do
    let eof ← feof f
    pure (if eof then 0 else -1)
  else pure (-EAGAIN)

def recvStep (s : Int) (f : Nat) : Os (Unit ⊕ Int) := do
  let size ← Prog.gets World.netBufferSize
  match ← netRead s size with
  | .error e =>
    if e = -EINVAL ∧ size = MAX_NET_BUFFER_SIZE then do
      shrinkBuffer
      pure (.inl ())
    else pure (.inr e)
  | .ok (_, []) => pure (.inr 0)
  | .ok (_, buf) => do
    let bytesWritten ← fwrite f buf
    pure (if bytesWritten < buf.length then .inr (-1) else .inl ())

def recvToFile (s : Int) (f : Nat) : Os Int := do
  let fuel ← netFuel
  Prog.iterate fuel (fun _ => recvStep s f) (fun _ => -EAGAIN) ()

end Ftpii
