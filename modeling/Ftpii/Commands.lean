import Ftpii.Net
import Ftpii.Scanf
import Ftpii.VirtualPath
set_option autoImplicit false

/-! ftp.c: the client state, replies, the command handlers and their dispatch. -/

namespace Ftpii
open StateProgram CString Scanf

def FTP_BUFFER_SIZE : Nat := 1024
def SRC_PORT : Nat := 20
def CRLF : Str := ['\r', '\n']

inductive Callback where
  | sendNlst | sendList | sendFromFile | recvToFile
  deriving DecidableEq, Repr

inductive Cleanup where
  | vrtDirclose | fclose
  deriving DecidableEq, Repr

/-- `client_struct`. The id of the accepted connection is kept for the statements only. -/
structure Client where
  socket : Int
  representationType : Char := 'A'
  passiveSocket : Int := -1
  dataSocket : Int := -1
  cwd : Str := ['/']
  pendingRename : Str := []
  restartMarker : Int := 0
  address : SockAddr := {}
  authenticated : Bool := false
  buf : Str
  offset : Nat := 0
  dataConnectionConnected : Bool := false
  dataCallback : Option Callback := none
  dataConnectionCallbackArg : Option Nat := none
  dataConnectionCleanup : Option Cleanup := none
  dataConnectionTimer : Nat := 0
  conn : Nat
  deriving DecidableEq, Repr

/-- What a handler works on: its client and everything outside the client table. -/
structure Session where
  client : Client
  world : World

abbrev Ses := Prog Session

def os {α : Type} (m : Os α) : Ses α := Prog.zoom Session.world (fun w s => { s with world := w }) m

def client : Ses Client := Prog.gets Session.client

def update (f : Client → Client) : Ses Unit := Prog.modify fun s => { s with client := f s.client }

def emit (e : Event) : Ses Unit :=
  Prog.modify fun s => { s with world := s.world.emit s.client.conn e }

/-! ## Passwords and replies -/

/-- A failing malloc ends the program in `die`. -/
def setFtpPassword (newPassword : Option Str) : Os Unit :=
  Prog.modify fun w => { w with password := newPassword }

def compareFtpPassword (password : Option Str) (passwordAttempt : Str) : Bool :=
  match password with
  | none => true
  | some p => p = passwordAttempt

def replyText (code : Nat) (msg : Str) : Str := decimal code ++ [' '] ++ msg ++ CRLF

def writeReply (code : Nat) (msg : Str) : Ses Int := do
  let c ← client
  let result ← os (sendExact c.socket (replyText code msg))
  emit (.reply code msg result)
  pure result

def replyErrno : Ses Int := do
  let msg ← os (Prog.gets fun w => w.strerror w.errno)
  writeReply 550 msg

def closePassiveSocket : Ses Unit := do
  let c ← client
  if 0 ≤ c.passiveSocket then do
    os (netCloseBlocking c.passiveSocket)
    update fun c => { c with passiveSocket := -1 }
  else pure ()

/-! ## The tokenizer -/

/-- The counters of split and the result strings written so far. -/
structure Split where
  numResults : Nat := 0
  resultPos : Nat := 0
  trimPos : Nat := 0
  inWord : Bool := false
  result : Nat → Str := fun _ => []

def Split.put (p : Split) (c : Char) : Split :=
  { p with
    result := Function.update p.result (p.numResults - 1)
      ((p.result (p.numResults - 1)).take p.resultPos ++ [c])
    resultPos := p.resultPos + 1 }

/-- Enter a word, opening the next result unless the last one is reached. -/
def Split.enter (p : Split) (maxsplit : Nat) : Split :=
  if p.inWord then p
  else if p.numResults ≤ maxsplit then
    { p with inWord := true, numResults := p.numResults + 1, resultPos := 0 }
  else { p with inWord := true }

def Split.step (sep : Char) (maxsplit : Nat) (p : Split) (c : Char) : Split :=
  if c = sep then
    if p.numResults ≤ maxsplit then { p with inWord := false }
    else
      let p := if p.trimPos = 0 then { p with trimPos := p.resultPos } else p
      (p.enter maxsplit).put c
  else
    let p := if p.trimPos ≠ 0 then { p with trimPos := 0 } else p
    (p.enter maxsplit).put c

/-- Cut the trailing separators off the last result and empty the unused ones. -/
def Split.finish (p : Split) : Nat × (Nat → Str) :=
  let result :=
    if p.trimPos ≠ 0 then
      Function.update p.result (p.numResults - 1) ((p.result (p.numResults - 1)).take p.trimPos)
    else p.result
  (p.numResults, fun i => if p.numResults ≤ i then [] else result i)

def split (s : Str) (sep : Char) (maxsplit : Nat) : Nat × (Nat → Str) :=
  (s.foldl (Split.step sep maxsplit) {}).finish

def splitCommand (cmdLine : Str) : Str × Str :=
  let (_, args) := split cmdLine ' ' 1
  (args 0, args 1)

/-! ## Handlers -/

def syntaxError : Ses Int := writeReply 501 "Syntax error in parameters.".toList

def ftpUser (_username : Str) : Ses Int := writeReply 331 "User name okay, need password.".toList

def ftpPass (passwordAttempt : Str) : Ses Int := do
  let password ← os (Prog.gets World.password)
  if compareFtpPassword password passwordAttempt then do
    update fun c => { c with authenticated := true }
    writeReply 230 "User logged in, proceed.".toList
  else writeReply 530 "Login incorrect.".toList

def ftpRein (_rest : Str) : Ses Int := do
  closePassiveSocket
  update fun c => { c with cwd := ['/'], representationType := 'A', authenticated := false }
  writeReply 220 "Service ready for new user.".toList

def ftpQuit (_rest : Str) : Ses Int := do
  let result ← writeReply 221 "Service closing control connection.".toList
  pure (if result < 0 then result else -EQUIT)

def ftpSyst (_rest : Str) : Ses Int := writeReply 215 "UNIX Type: L8 Version: ftpii".toList

def ftpType (rest : Str) : Ses Int := do
  let (numArgs, args) := split rest ' ' 1
  let representationType := args 0
  let param := args 1
  if numArgs = 0 then syntaxError
  else if (caseEq "A".toList representationType &&
        (param = [] || caseEq "N".toList param)) ||
      (caseEq "I".toList representationType && numArgs = 1) then do
    update fun c => { c with representationType := representationType.headD '\x00' }
    writeReply 200 ("Type set to ".toList ++ representationType ++ ".".toList)
  else syntaxError

def ftpMode (rest : Str) : Ses Int :=
  if caseEq "S".toList rest then writeReply 200 "Mode S ok.".toList else syntaxError

def quoted (s : Str) : Str := ['"'] ++ s ++ ['"']

def ftpPwd (_rest : Str) : Ses Int := do
  let c ← client
  writeReply 257 (quoted c.cwd ++ " is current directory.".toList)

def changeDirectory (path msg : Str) : Ses Int := do
  let c ← client
  let (result, cwd) ← os (vrtChdir c.cwd path)
  update fun c => { c with cwd := cwd }
  if result = 0 then writeReply 250 msg else replyErrno

def ftpCwd (path : Str) : Ses Int := changeDirectory path "CWD command successful.".toList

def ftpCdup (_rest : Str) : Ses Int := changeDirectory "..".toList "CDUP command successful.".toList

def ftpDele (path : Str) : Ses Int := do
  let c ← client
  let result ← os (vrtUnlink c.cwd path)
  if result = 0 then writeReply 250 "File or directory removed.".toList else replyErrno

def ftpMkd (path : Str) : Ses Int := do
  if path = [] then syntaxError
  else do
    let c ← client
    let result ← os (vrtMkdir c.cwd path)
    if result = 0 then do
      let (_, abspath) ← os (vrtChdir c.cwd path)
      writeReply 257 (quoted abspath ++ " directory created.".toList)
    else replyErrno

def ftpRnfr (path : Str) : Ses Int := do
  update fun c => { c with pendingRename := path }
  writeReply 350 "Ready for RNTO.".toList

def ftpRnto (path : Str) : Ses Int := do
  let c ← client
  if c.pendingRename = [] then writeReply 503 "RNFR required first.".toList
  else do
    let renamed ← os (vrtRename c.cwd c.pendingRename path)
    let result ← (if renamed = 0 then writeReply 250 "Rename successful.".toList else replyErrno)
    update fun c => { c with pendingRename := [] }
    pure result

def ftpSize (path : Str) : Ses Int := do
  let c ← client
  let (result, st) ← os (vrtStat c.cwd path)
  if result = 0 then writeReply 213 (decimal st.size) else replyErrno

def commas : List Nat → Str
  | [] => []
  | [n] => decimal n
  | n :: ns => decimal n ++ [','] ++ commas ns

def passiveReply (ip port : Nat) : Str :=
  "Entering Passive Mode (".toList ++
    commas [ip / 2 ^ 24 % 256, ip / 2 ^ 16 % 256, ip / 2 ^ 8 % 256, ip % 256,
      port / 256 % 256, port % 256] ++ ").".toList

/-- The port PASV binds, advancing the counter. -/
def nextPassivePort : Os Nat := fun w =>
  (w.passivePort.toNat, { w with passivePort := w.passivePort + 1 })

def ftpPasv (_rest : Str) : Ses Int := do
  closePassiveSocket
  let passiveSocket ← os netSocket
  update fun c => { c with passiveSocket := passiveSocket }
  if passiveSocket < 0 then writeReply 520 "Unable to create listening socket.".toList
  else do
    let _ ← os (setBlocking passiveSocket false)
    let port ← os nextPassivePort
    let result ← os (netBind passiveSocket port)
    if result < 0 then do
      closePassiveSocket
      writeReply 520 "Unable to bind listening socket.".toList
    else do
      let result ← os (netListen passiveSocket)
      if result < 0 then do
        closePassiveSocket
        writeReply 520 "Unable to listen on socket.".toList
      else do
        let ip ← os netGethostip
        writeReply 227 (passiveReply ip port)

/-- The address of a dotted quad whose numbers are at most 255. -/
def inetAton (h1 h2 h3 h4 : Nat) : Option Nat :=
  if h1 ≤ 255 ∧ h2 ≤ 255 ∧ h3 ≤ 255 ∧ h4 ≤ 255
  then some (h1 * 2 ^ 24 + h2 * 2 ^ 16 + h3 * 2 ^ 8 + h4) else none

def ftpPort (portspec : Str) : Ses Int := do
  match scanU3List 5 portspec with
  | some [h1, h2, h3, h4, p1, p2] =>
    match inetAton h1 h2 h3 h4 with
    | none => syntaxError
    | some sinAddr => do
      closePassiveSocket
      let port := p1 % 256 * 256 + p2 % 256
      update fun c => { c with address := { ip := sinAddr, port := port } }
      writeReply 200 "PORT command successful.".toList
  | _ => syntaxError

def prepareDataConnectionActive : Ses Int := do
  let dataSocket ← os netSocket
  if dataSocket < 0 then pure dataSocket
  else do
    let _ ← os (setBlocking dataSocket false)
    let result ← os (netBind dataSocket SRC_PORT)
    if result < 0 then do
      os (netClose dataSocket)
      pure result
    else do
      update fun c => { c with dataSocket := dataSocket }
      pure 0

def prepareDataConnectionPassive : Ses Int := do
  update fun c => { c with dataSocket := c.passiveSocket }
  pure 0

def transferError : Ses Int :=
  writeReply 520 "Closing data connection, error occurred during transfer.".toList

def prepareDataConnection (callback : Callback) (arg : Nat) (cleanup : Cleanup) : Ses Int := do
  let result ← writeReply 150 "Transferring data.".toList
  if result < 0 then pure result
  else do
    let c ← client
    let result ←
      (if 0 ≤ c.passiveSocket then prepareDataConnectionPassive else prepareDataConnectionActive)
    if result < 0 then do
      emit (.noDataSocket result)
      transferError
    else do
      let now ← os gettime
      update fun c =>
        { c with
          dataConnectionConnected := false
          dataCallback := some callback
          dataConnectionCallbackArg := some arg
          dataConnectionCleanup := some cleanup
          dataConnectionTimer := now + secsToTicks 30 }
      pure result

/-! ### Transfers -/

def sendNlst (dataSocket : Int) (dir : Nat) : Os Int := do
  let fuel ← Prog.gets fun w =>
    w.answers.files.length + VIRTUAL_PARTITIONS.length + 1
  Prog.iterate fuel (fun _ => do
    let (ended, filename, _) ← vrtDirnext dir
    if ended ≠ 0 then pure (.inr 0)
    else do
      let result ← sendExact dataSocket (filename ++ CRLF)
      pure (if result < 0 then .inr result else .inl ())) (fun _ => 0) ()

def padLeft (width : Nat) (s : Str) : Str := List.replicate (width - s.length) ' ' ++ s

def listLine (filename : Str) (st : Stat) : Str :=
  [if st.isDir then 'd' else '-'] ++ "rwxr-xr-x    1 0        0     ".toList ++
    padLeft 10 (decimal st.size) ++ [' '] ++ st.time ++ [' '] ++ filename ++ CRLF

def sendList (dataSocket : Int) (dir : Nat) : Os Int := do
  let fuel ← Prog.gets fun w =>
    w.answers.files.length + VIRTUAL_PARTITIONS.length + 1
  Prog.iterate fuel (fun _ => do
    let (ended, filename, st) ← vrtDirnext dir
    if ended ≠ 0 then pure (.inr 0)
    else do
      let result ← sendExact dataSocket (listLine filename st)
      pure (if result < 0 then .inr result else .inl ())) (fun _ => 0) ()

def runCleanup (cleanup : Cleanup) (arg : Nat) : Os Unit := do
  match cleanup with
  | .vrtDirclose =>
    let _ ← vrtDirclose arg
    pure ()
  | .fclose =>
    let _ ← fclose arg
    pure ()

/-- Hand an opened stream to a data connection; close it here when that fails. -/
def transfer (callback : Callback) (arg : Nat) (cleanup : Cleanup) : Ses Int := do
  let result ← prepareDataConnection callback arg cleanup
  if result < 0 then do
    os (runCleanup cleanup arg)
    pure result
  else pure result

def listDirectory (callback : Callback) (path : Str) : Ses Int := do
  let path := if path = [] then ['.'] else path
  let c ← client
  match ← os (vrtDiropen c.cwd path) with
  | none => replyErrno
  | some dir => transfer callback dir .vrtDirclose

def ftpNlst (path : Str) : Ses Int := listDirectory .sendNlst path

/-- Flags in front of the path are dropped. -/
def ftpList (path : Str) : Ses Int :=
  listDirectory .sendList
    (if path.head? = some '-' then (split path ' ' 1).2 1 else path)

/-- No seek is asked for without a marker. -/
def seek (f : Nat) (restartMarker : Int) : Os Int :=
  if restartMarker ≠ 0 then lseek f restartMarker.toNat else pure restartMarker

/-- Seek to the restart marker and clear it; an error closes the file and is replied. -/
def seekToMarker (f : Nat) (proceed : Ses Int) : Ses Int := do
  let c ← client
  let sought ← os (seek f c.restartMarker)
  if sought = c.restartMarker then do
    update fun c => { c with restartMarker := 0 }
    proceed
  else do
    let lseekError ← os (Prog.gets World.errno)
    os (runCleanup .fclose f)
    update fun c => { c with restartMarker := 0 }
    let msg ← os (Prog.gets fun w => w.strerror lseekError)
    writeReply 550 msg

def ftpRetr (path : Str) : Ses Int := do
  let c ← client
  match ← os (vrtFopen c.cwd path .rb) with
  | none => replyErrno
  | some f => seekToMarker f (transfer .sendFromFile f .fclose)

def storOrAppend (f : Option Nat) : Ses Int :=
  match f with
  | none => replyErrno
  | some f => transfer .recvToFile f .fclose

def ftpStor (path : Str) : Ses Int := do
  let c ← client
  match ← os (vrtFopen c.cwd path .wb) with
  | none => do
    update fun c => { c with restartMarker := 0 }
    storOrAppend none
  | some f => seekToMarker f (storOrAppend (some f))

def ftpAppe (path : Str) : Ses Int := do
  let c ← client
  let f ← os (vrtFopen c.cwd path .ab)
  storOrAppend f

def ftpRest (offsetStr : Str) : Ses Int := do
  match scanLli offsetStr with
  | none => syntaxError
  | some offset =>
    if offset < 0 then syntaxError
    else do
      update fun c => { c with restartMarker := offset }
      writeReply 350 ("Restart position accepted (".toList ++ decimal offset.toNat ++ ").".toList)

/-! ### SITE -/

def ftpSiteLoader (_rest : Str) : Ses Int := do
  let result ← writeReply 200 "Exiting to loader.".toList
  os setResetFlag
  pure result

def ftpSiteClear (_rest : Str) : Ses Int := writeReply 200 "Cleared.".toList

def ftpSiteChmod (_rest : Str) : Ses Int := writeReply 250 "SITE CHMOD command ok.".toList

def ftpSitePasswd (newPassword : Str) : Ses Int := do
  os (setFtpPassword (some newPassword))
  writeReply 200 "Password changed.".toList

def ftpSiteNopasswd (_rest : Str) : Ses Int := do
  os (setFtpPassword none)
  writeReply 200 "Authentication disabled.".toList

def ftpSiteEject (_rest : Str) : Ses Int := do
  let result ← os dvdEject
  if result ≠ 0 then writeReply 550 "Unable to eject DVD.".toList
  else writeReply 200 "DVD ejected.".toList

def ftpSiteMount (path : Str) : Ses Int := do
  let mounted ← os (mountVirtual path)
  if mounted then writeReply 250 "Mounted.".toList else writeReply 550 "Unable to mount.".toList

def ftpSiteUnmount (path : Str) : Ses Int := do
  let unmounted ← os (unmountVirtual path)
  if unmounted then writeReply 250 "Unmounted.".toList
  else writeReply 550 "Unable to unmount.".toList

def ftpSiteUnknown (_rest : Str) : Ses Int := writeReply 501 "Unknown SITE command.".toList

/-- loader.c: read the whole file, then run it. -/
def readFromFile (f : Nat) : Os Bool := do
  let fuel ← Prog.gets fun w =>
    ((w.streams f).map fun st => match st.target with
      | .file path _ => ((w.disk path).getD []).length
      | _ => 0).getD 0 + w.answers.files.length + 2
  Prog.iterate fuel (fun _ => do
    let buf ← fread f 0x8000
    if buf.length < 0x8000 then .inr <$> feof f else pure (.inl ())) (fun _ => false) ()

def loadFromFile (f : Nat) : Os Unit := do
  let commandLine ← malloc
  if !commandLine then pure ()
  else do
    let (error, _) ← fstat f
    if error ≠ 0 then pure ()
    else do
      let ok ← readFromFile f
      if ok then Prog.modify fun w => { w with dolStarted := true } else pure ()

def loadRealPath (cwd path : Str) (f : Nat) : Os Unit := do
  match ← toRealPath cwd path with
  | none => pure ()
  | some _ => loadFromFile f

def ftpSiteLoad (path : Str) : Ses Int := do
  let c ← client
  match ← os (vrtFopen c.cwd path .rb) with
  | none => replyErrno
  | some f => do
    os (loadRealPath c.cwd path f)
    os (runCleanup .fclose f)
    writeReply 500 "Unable to load.".toList

/-! ### Dispatch -/

def ftpNoop (_rest : Str) : Ses Int := writeReply 200 "NOOP command successful.".toList

def ftpSuperfluous (_rest : Str) : Ses Int :=
  writeReply 202 "Command not implemented, superfluous at this site.".toList

def ftpNeedauth (_rest : Str) : Ses Int :=
  writeReply 530 "Please login with USER and PASS.".toList

def ftpUnknown (_rest : Str) : Ses Int := writeReply 502 "Command not implemented.".toList

/-- handlers holds one more entry than commands: the one for an unknown word. -/
def dispatchToHandler (cmdLine : Str) (commands : List Str) (handlers : List (Str → Ses Int)) :
    Ses Int :=
  let (cmd, rest) := splitCommand cmdLine
  (handlers.getD (commands.findIdx (caseEq · cmd)) ftpUnknown) rest

def siteCommands : List Str :=
  ["LOADER".toList, "CLEAR".toList, "CHMOD".toList, "PASSWD".toList, "NOPASSWD".toList,
    "EJECT".toList, "MOUNT".toList, "UNMOUNT".toList, "LOAD".toList]

def siteHandlers : List (Str → Ses Int) :=
  [ftpSiteLoader, ftpSiteClear, ftpSiteChmod, ftpSitePasswd, ftpSiteNopasswd, ftpSiteEject,
    ftpSiteMount, ftpSiteUnmount, ftpSiteLoad, ftpSiteUnknown]

def ftpSite (cmdLine : Str) : Ses Int := dispatchToHandler cmdLine siteCommands siteHandlers

def unauthenticatedCommands : List Str :=
  ["USER".toList, "PASS".toList, "QUIT".toList, "REIN".toList, "NOOP".toList]

def unauthenticatedHandlers : List (Str → Ses Int) :=
  [ftpUser, ftpPass, ftpQuit, ftpRein, ftpNoop, ftpNeedauth]

def authenticatedCommands : List Str :=
  ["USER".toList, "PASS".toList, "LIST".toList, "PWD".toList, "CWD".toList, "CDUP".toList,
    "SIZE".toList, "PASV".toList, "PORT".toList, "TYPE".toList, "SYST".toList, "MODE".toList,
    "RETR".toList, "STOR".toList, "APPE".toList, "REST".toList, "DELE".toList, "MKD".toList,
    "RMD".toList, "RNFR".toList, "RNTO".toList, "NLST".toList, "QUIT".toList, "REIN".toList,
    "SITE".toList, "NOOP".toList, "ALLO".toList]

def authenticatedHandlers : List (Str → Ses Int) :=
  [ftpUser, ftpPass, ftpList, ftpPwd, ftpCwd, ftpCdup,
    ftpSize, ftpPasv, ftpPort, ftpType, ftpSyst, ftpMode,
    ftpRetr, ftpStor, ftpAppe, ftpRest, ftpDele, ftpMkd,
    ftpDele, ftpRnfr, ftpRnto, ftpNlst, ftpQuit, ftpRein,
    ftpSite, ftpNoop, ftpSuperfluous, ftpUnknown]

/-- Negative to signal an error that requires closing the connection. -/
def processCommand (cmdLine : Str) : Ses Int := do
  if cmdLine = [] then pure 0
  else do
    let password ← os (Prog.gets World.password)
    emit (.command cmdLine password)
    let c ← client
    if c.authenticated then dispatchToHandler cmdLine authenticatedCommands authenticatedHandlers
    else dispatchToHandler cmdLine unauthenticatedCommands unauthenticatedHandlers

end Ftpii
