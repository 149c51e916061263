import Ftpii.NetFootprint
set_option autoImplicit false

/-!
What the command handlers and event functions do to a session, as closure
conditions: for each of them, the client updates and kinds of call it makes.
-/

namespace Ftpii
open StateProgram Prog CString

variable {R : Session → Session → Prop}

@[simp] theorem os_run {α : Type} (m : Os α) (s : Session) :
    os m s = ((m s.world).1, { s with world := (m s.world).2 }) := rfl

@[simp] theorem client_run (s : Session) : client s = (s.client, s) := rfl

@[simp] theorem update_run (f : Client → Client) (s : Session) :
    update f s = ((), { s with client := f s.client }) := rfl

@[simp] theorem emit_run (e : Event) (s : Session) :
    emit e s = ((), { s with world := s.world.emit s.client.conn e }) := rfl

def At (R : Session → Session → Prop) (c : Client) (w w' : World) : Prop := R ⟨c, w⟩ ⟨c, w'⟩

theorem frameAt (hR : Frame R) (c : Client) : Frame (At R c) where
  refl _ := hR.refl _
  trans h h' := hR.trans h h'

theorem os_keeps {α : Type} {m : Os α} (h : ∀ c, Keeps (At R c) m) : Keeps R (os m) :=
  fun s => h s.client s.world

theorem update_keeps {f : Client → Client} (h : ∀ s : Session, R s { s with client := f s.client }) :
    Keeps R (update f) := fun s => h s

/-- Replying on the control connection. -/
structure Replies (R : Session → Session → Prop) : Prop extends Frame R where
  say : ∀ code msg, Keeps R (writeReply code msg)

/-- A reply is written to the control socket and noted. -/
theorem Replies.of_sends (hF : Frame R) (sends : ∀ c : Client, Sends (· = c.socket) (At R c))
    (noted : ∀ (s : Session) code text r,
      R s { s with world := s.world.emit s.client.conn (.reply code text r) }) : Replies R where
  toFrame := hF
  say code msg s := by
    have hs := sendExact_keeps (sends s.client) rfl (replyText code msg) s.world
    exact hF.trans hs (noted ⟨s.client, _⟩ _ _ _)

/-- The client's fields that only its event functions change. -/
structure Client.SameControl (c c' : Client) : Prop where
  conn : c'.conn = c.conn
  socket : c'.socket = c.socket
  buf : c'.buf = c.buf
  offset : c'.offset = c.offset

theorem Client.SameControl.refl (c : Client) : c.SameControl c := ⟨rfl, rfl, rfl, rfl⟩

theorem Client.SameControl.trans {a b c : Client} (h : a.SameControl b) (h' : b.SameControl c) :
    a.SameControl c :=
  ⟨h'.conn.trans h.conn, h'.socket.trans h.socket, h'.buf.trans h.buf, h'.offset.trans h.offset⟩

/-- A relation between clients, worlds aside: no call outside the client breaks it. -/
def OnClient (Q : Client → Client → Prop) (s s' : Session) : Prop := Q s.client s'.client

section OnClient

variable {Q : Client → Client → Prop} (hQ : Frame Q)

include hQ

theorem OnClient.frame : Frame (OnClient Q) where
  refl _ := hQ.refl _
  trans h h' := hQ.trans h h'

theorem OnClient.sockets (c : Client) : UsesSockets (At (OnClient Q) c) where
  toFrame := frameAt (OnClient.frame hQ) c
  answers _ _ _ := hQ.refl _
  shrink _ := hQ.refl _
  flags _ _ _ _ _ _ := hQ.refl _
  write _ _ _ _ _ _ _ _ := hQ.refl _
  opened _ _ _ := hQ.refl _
  bound _ _ _ _ _ := hQ.refl _
  listening _ _ _ _ := hQ.refl _
  closed _ _ := hQ.refl _
  waits _ _ _ := hQ.refl _
  connects _ _ _ := hQ.refl _
  received _ _ _ _ _ := hQ.refl _

theorem OnClient.streams (c : Client) : UsesStreams (At (OnClient Q) c) where
  toFrame := frameAt (OnClient.frame hQ) c
  answers _ _ _ := hQ.refl _
  errno _ _ := hQ.refl _
  disk _ _ := hQ.refl _
  renamed _ _ _ := hQ.refl _
  opened _ _ := hQ.refl _
  stream _ _ _ _ _ _ := hQ.refl _
  close _ _ _ _ := hQ.refl _

theorem OnClient.devices (c : Client) : Mounts (At (OnClient Q) c) :=
  UsesDevices.mounts
    { toFrame := frameAt (OnClient.frame hQ) c
      answers := fun _ _ _ => hQ.refl _
      devices := fun _ _ => hQ.refl _ }

theorem OnClient.replies : Replies (OnClient Q) :=
  .of_sends (OnClient.frame hQ)
    (fun c => (OnClient.sockets hQ c).toSends.mono fun _ _ => trivial) fun _ _ _ _ => hQ.refl _

end OnClient

/-! ## Replies -/

section Replies

variable (hR : Replies R)

include hR

theorem client_keeps : Keeps R client := Keeps.gets hR.toFrame _

theorem osGets_keeps {α : Type} (f : World → α) : Keeps R (os (Prog.gets f)) :=
  fun s => hR.refl s

theorem writeReply_keeps (code : Nat) (msg : Str) : Keeps R (writeReply code msg) :=
  hR.say code msg

theorem replyErrno_keeps : Keeps R replyErrno :=
  .bind hR.toFrame (osGets_keeps hR _) fun _ => writeReply_keeps hR _ _

theorem syntaxError_keeps : Keeps R syntaxError := writeReply_keeps hR _ _

theorem transferError_keeps : Keeps R transferError := writeReply_keeps hR _ _

theorem replyOr_keeps {c : Prop} [Decidable c] (code : Nat) (msg : Str) {m : Ses Int}
    (hm : Keeps R m) : Keeps R (if c then writeReply code msg else m) :=
  .ite (writeReply_keeps hR code msg) hm

theorem ftpPass_keeps
    (auth : ∀ s : Session, R s { s with client := { s.client with authenticated := true } })
    (attempt : Str) : Keeps R (ftpPass attempt) :=
  .bind hR.toFrame (osGets_keeps hR _) fun _ => .ite
    (.bind hR.toFrame (update_keeps auth) fun _ => writeReply_keeps hR _ _)
    (writeReply_keeps hR _ _)

theorem ftpQuit_keeps (rest : Str) : Keeps R (ftpQuit rest) :=
  .bind hR.toFrame (writeReply_keeps hR _ _) fun _ => .pure hR.toFrame _

theorem ftpType_keeps
    (type : ∀ (s : Session) t, R s { s with client := { s.client with representationType := t } })
    (rest : Str) : Keeps R (ftpType rest) :=
  .ite (syntaxError_keeps hR) <| .ite
    (.bind hR.toFrame (update_keeps fun s => type s _) fun _ => writeReply_keeps hR _ _)
    (syntaxError_keeps hR)

theorem ftpMode_keeps (rest : Str) : Keeps R (ftpMode rest) :=
  replyOr_keeps hR _ _ (syntaxError_keeps hR)

theorem ftpPwd_keeps (rest : Str) : Keeps R (ftpPwd rest) :=
  .bind hR.toFrame (client_keeps hR) fun _ => writeReply_keeps hR _ _

theorem ftpRnfr_keeps
    (pending : ∀ (s : Session) p, R s { s with client := { s.client with pendingRename := p } })
    (path : Str) : Keeps R (ftpRnfr path) :=
  .bind hR.toFrame (update_keeps fun s => pending s _) fun _ => writeReply_keeps hR _ _

theorem ftpRest_keeps
    (marker : ∀ (s : Session) k, R s { s with client := { s.client with restartMarker := k } })
    (offsetStr : Str) : Keeps R (ftpRest offsetStr) := by
  unfold ftpRest
  split
  · exact syntaxError_keeps hR
  · exact .ite (syntaxError_keeps hR) <|
      .bind hR.toFrame (update_keeps fun s => marker s _) fun _ => writeReply_keeps hR _ _

theorem ftpSiteLoader_keeps
    (reset : ∀ s : Session, R s { s with world := { s.world with resetFlag := true } })
    (rest : Str) : Keeps R (ftpSiteLoader rest) :=
  .bind hR.toFrame (writeReply_keeps hR _ _) fun _ => .bind hR.toFrame (fun s => reset s)
    fun _ => .pure hR.toFrame _

theorem ftpSitePasswd_keeps
    (password : ∀ (s : Session) p, R s { s with world := { s.world with password := p } })
    (newPassword : Str) : Keeps R (ftpSitePasswd newPassword) :=
  .bind hR.toFrame (fun s => password s _) fun _ => writeReply_keeps hR _ _

theorem ftpSiteNopasswd_keeps
    (password : ∀ (s : Session) p, R s { s with world := { s.world with password := p } })
    (rest : Str) : Keeps R (ftpSiteNopasswd rest) :=
  .bind hR.toFrame (fun s => password s _) fun _ => writeReply_keeps hR _ _

end Replies

/-! ## Paths and devices -/

section Paths

variable (hR : Replies R) (hp : ∀ c, UsesPaths (At R c))

include hR hp

theorem changeDirectory_keeps
    (cwd : ∀ (s : Session) d, R s { s with client := { s.client with cwd := d } })
    (path msg : Str) : Keeps R (changeDirectory path msg) :=
  .bind hR.toFrame (client_keeps hR) fun _ =>
    .bind hR.toFrame (os_keeps fun c => vrtChdir_keeps (hp c).toLookups _ _) fun _ =>
      .bind hR.toFrame (update_keeps fun s => cwd s _) fun _ =>
        replyOr_keeps hR _ _ (replyErrno_keeps hR)

theorem ftpDele_keeps (path : Str) : Keeps R (ftpDele path) :=
  .bind hR.toFrame (client_keeps hR) fun _ =>
    .bind hR.toFrame (os_keeps fun c => vrtUnlink_keeps (hp c) _ _) fun _ =>
      replyOr_keeps hR _ _ (replyErrno_keeps hR)

theorem ftpMkd_keeps (path : Str) : Keeps R (ftpMkd path) :=
  .ite (syntaxError_keeps hR) <| .bind hR.toFrame (client_keeps hR) fun _ =>
    .bind hR.toFrame (os_keeps fun c => vrtMkdir_keeps (hp c).toLookups _ _) fun _ => .ite
      (.bind hR.toFrame (os_keeps fun c => vrtChdir_keeps (hp c).toLookups _ _) fun _ =>
        writeReply_keeps hR _ _)
      (replyErrno_keeps hR)

theorem ftpRnto_keeps
    (pending : ∀ (s : Session) p, R s { s with client := { s.client with pendingRename := p } })
    (path : Str) : Keeps R (ftpRnto path) :=
  .bind hR.toFrame (client_keeps hR) fun _ => .ite (writeReply_keeps hR _ _) <|
    .bind hR.toFrame (os_keeps fun c => vrtRename_keeps (hp c) _ _ _) fun _ =>
      .bind hR.toFrame (replyOr_keeps hR _ _ (replyErrno_keeps hR)) fun _ =>
        .bind hR.toFrame (update_keeps fun s => pending s _) fun _ => .pure hR.toFrame _

theorem ftpSize_keeps (path : Str) : Keeps R (ftpSize path) :=
  .bind hR.toFrame (client_keeps hR) fun _ =>
    .bind hR.toFrame (os_keeps fun c => vrtStat_keeps (hp c).toLookups _ _) fun _ =>
      replyOr_keeps hR _ _ (replyErrno_keeps hR)

end Paths

section Devices

variable (hR : Replies R) (hd : ∀ c, Mounts (At R c))

include hR hd

theorem ftpSiteEject_keeps (rest : Str) : Keeps R (ftpSiteEject rest) :=
  .bind hR.toFrame (os_keeps fun c => (hd c).eject) fun _ =>
    replyOr_keeps hR _ _ (writeReply_keeps hR _ _)

theorem ftpSiteMount_keeps (path : Str) : Keeps R (ftpSiteMount path) :=
  .bind hR.toFrame (os_keeps fun c => (hd c).mount _) fun _ =>
    replyOr_keeps hR _ _ (writeReply_keeps hR _ _)

theorem ftpSiteUnmount_keeps (path : Str) : Keeps R (ftpSiteUnmount path) :=
  .bind hR.toFrame (os_keeps fun c => (hd c).unmount _) fun _ =>
    replyOr_keeps hR _ _ (writeReply_keeps hR _ _)

end Devices

/-! ## Sockets -/

theorem closePassiveSocket_closes (hF : Frame R)
    (close : ∀ fd, Keeps R (os (netCloseBlocking fd)))
    (passive : ∀ (s : Session) fd, R s { s with client := { s.client with passiveSocket := fd } }) :
    Keeps R closePassiveSocket :=
  .bind hF (.gets hF _) fun _ => .ite
    (.bind hF (close _) fun _ => update_keeps fun s => passive s _) (.pure hF _)

section Closing

variable (hR : Replies R) (close : Keeps R closePassiveSocket)

include hR close

theorem ftpRein_closes
    (afresh : ∀ s : Session, R s { s with client := { s.client with
      cwd := ['/'], representationType := 'A', authenticated := false } })
    (rest : Str) : Keeps R (ftpRein rest) :=
  .bind hR.toFrame close fun _ => .bind hR.toFrame (update_keeps afresh) fun _ =>
    writeReply_keeps hR _ _

theorem ftpPort_closes
    (address : ∀ (s : Session) a, R s { s with client := { s.client with address := a } })
    (portspec : Str) : Keeps R (ftpPort portspec) := by
  unfold ftpPort
  split
  · split
    · exact syntaxError_keeps hR
    · exact .bind hR.toFrame close fun _ =>
        .bind hR.toFrame (update_keeps fun s => address s _) fun _ => writeReply_keeps hR _ _
  · exact syntaxError_keeps hR

end Closing

section Sockets

variable (hs : ∀ c, UsesSockets (At R c))
  (passive : ∀ (s : Session) fd, R s { s with client := { s.client with passiveSocket := fd } })

include hs passive

theorem closePassiveSocket_keeps (hF : Frame R) : Keeps R closePassiveSocket :=
  closePassiveSocket_closes hF (fun fd => os_keeps fun c => netCloseBlocking_keeps (hs c) fd) passive

variable (hR : Replies R)

include hR

theorem ftpRein_keeps
    (afresh : ∀ s : Session, R s { s with client := { s.client with
      cwd := ['/'], representationType := 'A', authenticated := false } })
    (rest : Str) : Keeps R (ftpRein rest) :=
  ftpRein_closes hR (closePassiveSocket_keeps hs passive hR.toFrame) afresh rest

theorem ftpPasv_keeps
    (port : ∀ (s : Session) p, R s { s with world := { s.world with passivePort := p } })
    (rest : Str) : Keeps R (ftpPasv rest) := by
  have hF := hR.toFrame
  have hclose := closePassiveSocket_keeps hs passive hR.toFrame
  refine .bind hF hclose fun _ => .bind hF (os_keeps fun c => netSocket_keeps (hs c)) fun _ =>
    .bind hF (update_keeps fun s => passive s _) fun _ => .ite (writeReply_keeps hR _ _) ?_
  refine .bind hF (os_keeps fun c => setBlocking_keeps (hs c).toSends trivial _) fun _ =>
    .bind hF (fun s => port s _) fun _ =>
    .bind hF (os_keeps fun c => netBind_keeps (hs c).toTalks _ _) fun _ => .ite ?_ ?_
  · exact .bind hF hclose fun _ => writeReply_keeps hR _ _
  · refine .bind hF (os_keeps fun c => netListen_keeps (hs c).toTalks _) fun _ => .ite ?_ ?_
    · exact .bind hF hclose fun _ => writeReply_keeps hR _ _
    · exact .bind hF
        (os_keeps fun c => netGethostip_keeps (hs c).toFrame (hs c).answers)
        fun _ => writeReply_keeps hR _ _

theorem ftpPort_keeps
    (address : ∀ (s : Session) a, R s { s with client := { s.client with address := a } })
    (portspec : Str) : Keeps R (ftpPort portspec) :=
  ftpPort_closes hR (closePassiveSocket_keeps hs passive hR.toFrame) address portspec

end Sockets

/-! ## Transfers -/

/-- What setting up a transfer updates. -/
structure UpdatesTransfer (R : Session → Session → Prop) : Prop where
  unprepared : ∀ (s : Session) r,
    R s { s with world := s.world.emit s.client.conn (.noDataSocket r) }
  dataSocket : ∀ (s : Session) fd, R s { s with client := { s.client with dataSocket := fd } }
  prepared : ∀ (s : Session) (cb : Callback) arg (cl : Cleanup) t, R s { s with client :=
    { s.client with dataConnectionConnected := false, dataCallback := some cb,
                    dataConnectionCallbackArg := some arg, dataConnectionCleanup := some cl,
                    dataConnectionTimer := t } }

section Transfers

variable (hR : Replies R) (hs : ∀ c, UsesSockets (At R c))
  (hc : ∀ c, Closing (fun _ => True) (At R c)) (hf : ∀ c, UsesStreams (At R c))
  (hu : UpdatesTransfer R)

include hR hs hu

theorem prepareDataConnectionActive_keeps : Keeps R prepareDataConnectionActive := by
  have hF := hR.toFrame
  refine .bind hF (os_keeps fun c => netSocket_keeps (hs c)) fun _ => .ite (.pure hF _) ?_
  refine .bind hF (os_keeps fun c => setBlocking_keeps (hs c).toSends trivial _) fun _ =>
    .bind hF (os_keeps fun c => netBind_keeps (hs c).toTalks _ _) fun _ => .ite ?_ ?_
  · exact .bind hF (os_keeps fun c => netClose_keeps (hs c) _) fun _ => .pure hF _
  · exact .bind hF (update_keeps fun s => hu.dataSocket s _) fun _ => .pure hF _

theorem prepareDataConnection_keeps (callback : Callback) (arg : Nat) (cleanup : Cleanup) :
    Keeps R (prepareDataConnection callback arg cleanup) := by
  have hF := hR.toFrame
  refine .bind hF (writeReply_keeps hR _ _) fun _ => .ite (.pure hF _) ?_
  refine .bind hF (client_keeps hR) fun c => .bind hF (.ite ?_ ?_) fun _ => .ite ?_ ?_
  · exact .bind hF (update_keeps fun s => hu.dataSocket s _) fun _ => .pure hF _
  · exact prepareDataConnectionActive_keeps hR hs hu
  · exact .bind hF (fun s => hu.unprepared s _) fun _ => transferError_keeps hR
  · exact .bind hF
      (os_keeps fun c => gettime_keeps (hs c).toFrame (hs c).answers)
      fun _ => .bind hF (update_keeps fun s => hu.prepared s _ _ _ _) fun _ => .pure hF _

section Closing

include hc

theorem transfer_keeps (callback : Callback) (arg : Nat) (cleanup : Cleanup) :
    Keeps R (transfer callback arg cleanup) :=
  .bind hR.toFrame (prepareDataConnection_keeps hR hs hu _ _ _) fun _ => .ite
    (.bind hR.toFrame (os_keeps fun c => runCleanup_keeps (hc c) _ trivial) fun _ => .pure hR.toFrame _)
    (.pure hR.toFrame _)

theorem storOrAppend_keeps (f : Option Nat) : Keeps R (storOrAppend f) := by
  cases f with
  | none => exact replyErrno_keeps hR
  | some f => exact transfer_keeps hR hs hc hu _ _ _

omit hs hu in
theorem seekToMarker_keeps
    (marker : ∀ (s : Session) k, R s { s with client := { s.client with restartMarker := k } })
    (f : Nat) {proceed : Ses Int} (hm : Keeps R proceed) : Keeps R (seekToMarker f proceed) := by
  have hF := hR.toFrame
  refine .bind hF (client_keeps hR) fun _ => .bind hF (os_keeps fun c => ?_) fun _ => .ite ?_ ?_
  · exact .ite (lseek_keeps (hc c).toStreaming trivial _) (.pure (frameAt hR.toFrame c) _)
  · exact .bind hF (update_keeps fun s => marker s _) fun _ => hm
  · exact .bind hF (osGets_keeps hR _) fun _ =>
      .bind hF (os_keeps fun c => runCleanup_keeps (hc c) _ trivial) fun _ =>
      .bind hF (update_keeps fun s => marker s _) fun _ =>
      .bind hF (osGets_keeps hR _) fun _ => writeReply_keeps hR _ _

end Closing

include hf

theorem listDirectory_keeps (callback : Callback) (path : Str) :
    Keeps R (listDirectory callback path) := by
  refine .bind hR.toFrame (client_keeps hR) fun _ =>
    .bind hR.toFrame (os_keeps fun c => vrtDiropen_keeps (hf c) _ _) fun o => ?_
  cases o with
  | none => exact replyErrno_keeps hR
  | some dir => exact transfer_keeps hR hs (fun c => (hf c).toClosing) hu _ _ _

theorem ftpAppe_keeps (path : Str) : Keeps R (ftpAppe path) :=
  .bind hR.toFrame (client_keeps hR) fun _ =>
    .bind hR.toFrame (os_keeps fun c => vrtFopen_keeps (hf c) _ _ _) fun o =>
      storOrAppend_keeps hR hs (fun c => (hf c).toClosing) hu o

variable (marker : ∀ (s : Session) k, R s { s with client := { s.client with restartMarker := k } })

include marker

theorem ftpRetr_keeps (path : Str) : Keeps R (ftpRetr path) := by
  have hc : ∀ c, Closing (fun _ => True) (At R c) := fun c => (hf c).toClosing
  refine .bind hR.toFrame (client_keeps hR) fun _ =>
    .bind hR.toFrame (os_keeps fun c => vrtFopen_keeps (hf c) _ _ _) fun o => ?_
  cases o with
  | none => exact replyErrno_keeps hR
  | some f => exact seekToMarker_keeps hR hc marker f (transfer_keeps hR hs hc hu _ _ _)

theorem ftpStor_keeps (path : Str) : Keeps R (ftpStor path) := by
  have hc : ∀ c, Closing (fun _ => True) (At R c) := fun c => (hf c).toClosing
  refine .bind hR.toFrame (client_keeps hR) fun _ =>
    .bind hR.toFrame (os_keeps fun c => vrtFopen_keeps (hf c) _ _ _) fun o => ?_
  cases o with
  | none =>
    exact .bind hR.toFrame (update_keeps fun s => marker s _) fun _ =>
      storOrAppend_keeps hR hs hc hu none
  | some f => exact seekToMarker_keeps hR hc marker f (storOrAppend_keeps hR hs hc hu _)

end Transfers

theorem loadFromFile_keeps {P : World → World → Prop} {H : Nat → Prop} (hP : Streaming H P)
    (dol : ∀ w, P w { w with dolStarted := true }) {f : Nat} (hf : H f) :
    Keeps P (loadFromFile f) := by
  have hF := hP.toFrame
  refine .bind hF (malloc_keeps hP.toLookups) fun _ => .ite (.pure hF _) ?_
  refine .bind hF (stat_keeps hP.toLookups _) fun _ => .ite (.pure hF _) ?_
  refine .bind hF ?_ fun _ => .ite (fun w => dol w) (.pure hF _)
  refine .bind hF (.gets hF _) fun _ => .iterate hF (fun _ => ?_) _ _
  exact .bind hF (fread_keeps hP hf _) fun _ => .ite (.map (feof_keeps hF f)) (.pure hF _)

theorem ftpSiteLoad_keeps (hR : Replies R) (hf : ∀ c, UsesStreams (At R c))
    (dol : ∀ s : Session, R s { s with world := { s.world with dolStarted := true } })
    (path : Str) : Keeps R (ftpSiteLoad path) := by
  refine .bind hR.toFrame (client_keeps hR) fun _ =>
    .bind hR.toFrame (os_keeps fun c => vrtFopen_keeps (hf c) _ _ _) fun o => ?_
  cases o with
  | none => exact replyErrno_keeps hR
  | some f =>
    refine .bind hR.toFrame (os_keeps fun c => ?_) fun _ =>
      .bind hR.toFrame (os_keeps fun c => runCleanup_keeps (hf c).toClosing _ trivial) fun _ =>
        writeReply_keeps hR _ _
    refine .bind (hf c).toFrame (toRealPath_keeps (hf c).toLookups _ _) fun o => ?_
    cases o with
    | none => exact .pure (hf c).toFrame _
    | some real => exact loadFromFile_keeps (hf c).toStreaming (fun w => dol ⟨c, w⟩) trivial

/-! ## Dispatch -/

/-- The first word of the line is this command. -/
def Named (name : String) (cmdLine : Str) : Prop :=
  caseEq name.toList (splitCommand cmdLine).1 = true

instance (name : String) (cmdLine : Str) : Decidable (Named name cmdLine) :=
  inferInstanceAs (Decidable (caseEq name.toList (splitCommand cmdLine).1 = true))

def argument (cmdLine : Str) : Str := (splitCommand cmdLine).2

/-- A property of the entries whose name is the line's word holds of the handler chosen. -/
theorem dispatchToHandler_of_zip {Q : Ses Int → Prop} {cmdLine : Str} {commands : List Str}
    {handlers : List (Str → Ses Int)} (hlen : handlers.length = commands.length + 1)
    (h : ∀ e ∈ commands.zip handlers, caseEq e.1 (splitCommand cmdLine).1 = true →
      Q (e.2 (argument cmdLine)))
    (unknown : ∀ f ∈ handlers.getLast?, Q (f (argument cmdLine))) :
    Q (dispatchToHandler cmdLine commands handlers) := by
  let i := commands.findIdx fun x => caseEq x (splitCommand cmdLine).1
  have hi : i ≤ commands.length := List.findIdx_le_length
  have hlt : i < handlers.length := by omega
  have hd : dispatchToHandler cmdLine commands handlers = handlers[i] (argument cmdLine) := by
    simp only [dispatchToHandler, argument, List.getD_eq_getElem?_getD]
    rw [List.getElem?_eq_getElem hlt]
    rfl
  rw [hd]
  by_cases he : i = commands.length
  · refine unknown handlers[i] ?_
    rw [List.getLast?_eq_getElem?, hlen]
    simp [← he]
  · have hlt' : i < commands.length := by omega
    have hlz : i < (commands.zip handlers).length := by simp; omega
    have hz : (commands.zip handlers)[i] = (commands[i], handlers[i]) := by simp
    refine h (commands[i], handlers[i]) (hz ▸ List.getElem_mem _) ?_
    exact List.findIdx_getElem (w := hlt')

theorem dispatchToHandler_named {name : String} {cmdLine : Str} (h : Named name cmdLine)
    (commands : List Str) (handlers : List (Str → Ses Int)) :
    dispatchToHandler cmdLine commands handlers =
      (handlers.getD (commands.findIdx (caseEq · name.toList)) ftpUnknown) (argument cmdLine) := by
  have hf := caseEq_iff.mp h
  have hp : (fun x => caseEq x (splitCommand cmdLine).1) = (caseEq · name.toList) := by
    funext x
    simp only [caseEq, hf]
  simp only [dispatchToHandler, argument, hp]

/-- The line as process_command leaves it to a handler. -/
def dispatch (authenticated : Bool) (cmdLine : Str) : Ses Int :=
  if authenticated then dispatchToHandler cmdLine authenticatedCommands authenticatedHandlers
  else dispatchToHandler cmdLine unauthenticatedCommands unauthenticatedHandlers

/-- The session a handler is called in. -/
theorem processCommand_run {cmdLine : Str} (h : cmdLine ≠ []) (s : Session) :
    processCommand cmdLine s = dispatch s.client.authenticated cmdLine
      { s with world := s.world.emit s.client.conn (.command cmdLine s.world.password) } := by
  simp only [processCommand, if_neg h]
  rfl

/-- What the handler for a line keeps, the ones that only reply together. -/
structure Handled (R : Session → Session → Prop) (cmdLine : Str) : Prop extends Replies R where
  pass : Named "PASS" cmdLine → ∀ attempt, Keeps R (ftpPass attempt)
  list : Named "LIST" cmdLine → ∀ path, Keeps R (ftpList path)
  cwd : Named "CWD" cmdLine → ∀ path, Keeps R (ftpCwd path)
  cdup : Named "CDUP" cmdLine → ∀ rest, Keeps R (ftpCdup rest)
  size : Named "SIZE" cmdLine → ∀ path, Keeps R (ftpSize path)
  pasv : Named "PASV" cmdLine → ∀ rest, Keeps R (ftpPasv rest)
  port : Named "PORT" cmdLine → ∀ portspec, Keeps R (ftpPort portspec)
  type : Named "TYPE" cmdLine → ∀ rest, Keeps R (ftpType rest)
  retr : Named "RETR" cmdLine → ∀ path, Keeps R (ftpRetr path)
  stor : Named "STOR" cmdLine → ∀ path, Keeps R (ftpStor path)
  appe : Named "APPE" cmdLine → ∀ path, Keeps R (ftpAppe path)
  rest : Named "REST" cmdLine → ∀ offsetStr, Keeps R (ftpRest offsetStr)
  dele : Named "DELE" cmdLine ∨ Named "RMD" cmdLine → ∀ path, Keeps R (ftpDele path)
  mkd : Named "MKD" cmdLine → ∀ path, Keeps R (ftpMkd path)
  rnfr : Named "RNFR" cmdLine → ∀ path, Keeps R (ftpRnfr path)
  rnto : Named "RNTO" cmdLine → ∀ path, Keeps R (ftpRnto path)
  nlst : Named "NLST" cmdLine → ∀ path, Keeps R (ftpNlst path)
  rein : Named "REIN" cmdLine → ∀ rest, Keeps R (ftpRein rest)
  site : Named "SITE" cmdLine → ∀ rest, Keeps R (ftpSite rest)

/-- Before a login only PASS and REIN do more than reply. -/
theorem unauthenticated_keeps {cmdLine : Str} (hr : Replies R)
    (pass : Named "PASS" cmdLine → ∀ attempt, Keeps R (ftpPass attempt))
    (rein : Named "REIN" cmdLine → ∀ rest, Keeps R (ftpRein rest)) :
    Keeps R (dispatchToHandler cmdLine unauthenticatedCommands unauthenticatedHandlers) := by
  refine dispatchToHandler_of_zip rfl ?_ ?_
  · simp only [unauthenticatedCommands, unauthenticatedHandlers, List.zip_cons_cons,
      List.zip_nil_left, List.forall_mem_cons, List.not_mem_nil, false_implies, implies_true,
      and_true]
    exact ⟨fun _ => writeReply_keeps hr _ _, fun h => pass h _, fun _ => ftpQuit_keeps hr _,
      fun h => rein h _, fun _ => writeReply_keeps hr _ _⟩
  · rintro f ⟨⟩
    exact writeReply_keeps hr _ _

section Handled

variable {cmdLine : Str} (hR : Handled R cmdLine)

include hR

theorem authenticated_keeps :
    Keeps R (dispatchToHandler cmdLine authenticatedCommands authenticatedHandlers) := by
  have hr := hR.toReplies
  refine dispatchToHandler_of_zip rfl ?_ ?_
  · simp only [authenticatedCommands, authenticatedHandlers, List.zip_cons_cons,
      List.zip_nil_left, List.forall_mem_cons, List.not_mem_nil, false_implies, implies_true,
      and_true]
    exact ⟨fun _ => writeReply_keeps hr _ _, fun h => hR.pass h _, fun h => hR.list h _,
      fun _ => ftpPwd_keeps hr _, fun h => hR.cwd h _, fun h => hR.cdup h _, fun h => hR.size h _,
      fun h => hR.pasv h _, fun h => hR.port h _, fun h => hR.type h _,
      fun _ => writeReply_keeps hr _ _, fun _ => ftpMode_keeps hr _, fun h => hR.retr h _,
      fun h => hR.stor h _, fun h => hR.appe h _, fun h => hR.rest h _,
      fun h => hR.dele (.inl h) _, fun h => hR.mkd h _, fun h => hR.dele (.inr h) _,
      fun h => hR.rnfr h _, fun h => hR.rnto h _, fun h => hR.nlst h _,
      fun _ => ftpQuit_keeps hr _, fun h => hR.rein h _, fun h => hR.site h _,
      fun _ => writeReply_keeps hr _ _, fun _ => writeReply_keeps hr _ _⟩
  · rintro f ⟨⟩
    exact writeReply_keeps hr _ _

theorem dispatch_keeps (authenticated : Bool) : Keeps R (dispatch authenticated cmdLine) :=
  .ite (authenticated_keeps hR) (unauthenticated_keeps hR.toReplies hR.pass hR.rein)

/-- What the line's handler keeps, executing the line keeps. -/
theorem processCommand_keeps
    (command : ∀ (s : Session) line p,
      R s { s with world := s.world.emit s.client.conn (.command line p) }) :
    Keeps R (processCommand cmdLine) := by
  intro s
  by_cases h : cmdLine = []
  · simpa [processCommand, h] using hR.refl s
  · rw [processCommand_run h]
    exact hR.trans (command s _ _) (dispatch_keeps hR _ _)

end Handled

section Site

variable (hR : Replies R) (devices : ∀ c, Mounts (At R c))
  (password : ∀ (s : Session) p, R s { s with world := { s.world with password := p } })
  (reset : ∀ s : Session, R s { s with world := { s.world with resetFlag := true } })
  (load : ∀ path, Keeps R (ftpSiteLoad path))

include hR devices password reset load

theorem ftpSite_keeps (cmdLine : Str) : Keeps R (ftpSite cmdLine) := by
  refine dispatchToHandler_of_zip rfl ?_ ?_
  · simp only [siteCommands, siteHandlers, List.zip_cons_cons, List.zip_nil_left,
      List.forall_mem_cons, List.not_mem_nil, false_implies, implies_true, and_true]
    exact ⟨fun _ => ftpSiteLoader_keeps hR reset _, fun _ => writeReply_keeps hR _ _,
      fun _ => writeReply_keeps hR _ _, fun _ => ftpSitePasswd_keeps hR password _,
      fun _ => ftpSiteNopasswd_keeps hR password _, fun _ => ftpSiteEject_keeps hR devices _,
      fun _ => ftpSiteMount_keeps hR devices _, fun _ => ftpSiteUnmount_keeps hR devices _,
      fun _ => load _⟩
  · rintro f ⟨⟩
    exact writeReply_keeps hR _ _

end Site

/-- The updates and calls the handlers make, those that set `authenticated`, `cwd` or the restart
marker apart. -/
structure HandlerUse (R : Session → Session → Prop) : Prop extends Replies R, UpdatesTransfer R where
  sockets : ∀ c, UsesSockets (At R c)
  streams : ∀ c, UsesStreams (At R c)
  devices : ∀ c, Mounts (At R c)
  statics : ∀ (s : Session) p q r d, R s { s with world :=
    { s.world with passivePort := p, password := q, resetFlag := r, dolStarted := d } }
  type : ∀ (s : Session) t, R s { s with client := { s.client with representationType := t } }
  pending : ∀ (s : Session) p, R s { s with client := { s.client with pendingRename := p } }
  passive : ∀ (s : Session) fd, R s { s with client := { s.client with passiveSocket := fd } }
  address : ∀ (s : Session) a, R s { s with client := { s.client with address := a } }

section HandlerUse

variable (hR : HandlerUse R)

include hR

theorem HandlerUse.handled {cmdLine : Str}
    (pass : Named "PASS" cmdLine → ∀ attempt, Keeps R (ftpPass attempt))
    (cwd : Named "CWD" cmdLine → ∀ path, Keeps R (ftpCwd path))
    (cdup : Named "CDUP" cmdLine → ∀ rest, Keeps R (ftpCdup rest))
    (retr : Named "RETR" cmdLine → ∀ path, Keeps R (ftpRetr path))
    (stor : Named "STOR" cmdLine → ∀ path, Keeps R (ftpStor path))
    (rest : Named "REST" cmdLine → ∀ offsetStr, Keeps R (ftpRest offsetStr))
    (rein : Named "REIN" cmdLine → ∀ rest, Keeps R (ftpRein rest)) : Handled R cmdLine where
  toReplies := hR.toReplies
  pass := pass
  list _ := fun _ => listDirectory_keeps hR.toReplies hR.sockets hR.streams hR.toUpdatesTransfer _ _
  cwd := cwd
  cdup := cdup
  size _ := ftpSize_keeps hR.toReplies fun c => (hR.streams c).toUsesPaths
  pasv _ := ftpPasv_keeps hR.sockets hR.passive hR.toReplies fun s p =>
    hR.statics s p s.world.password s.world.resetFlag s.world.dolStarted
  port _ := ftpPort_keeps hR.sockets hR.passive hR.toReplies hR.address
  type _ := ftpType_keeps hR.toReplies hR.type
  retr := retr
  stor := stor
  appe _ := ftpAppe_keeps hR.toReplies hR.sockets hR.streams hR.toUpdatesTransfer
  rest := rest
  dele _ := ftpDele_keeps hR.toReplies fun c => (hR.streams c).toUsesPaths
  mkd _ := ftpMkd_keeps hR.toReplies fun c => (hR.streams c).toUsesPaths
  rnfr _ := ftpRnfr_keeps hR.toReplies hR.pending
  rnto _ := ftpRnto_keeps hR.toReplies (fun c => (hR.streams c).toUsesPaths) hR.pending
  nlst _ := fun _ => listDirectory_keeps hR.toReplies hR.sockets hR.streams hR.toUpdatesTransfer _ _
  rein := rein
  site _ := ftpSite_keeps hR.toReplies hR.devices
    (fun s p => hR.statics s s.world.passivePort p s.world.resetFlag s.world.dolStarted)
    (fun s => hR.statics s s.world.passivePort s.world.password true s.world.dolStarted)
    (ftpSiteLoad_keeps hR.toReplies hR.streams fun s =>
      hR.statics s s.world.passivePort s.world.password s.world.resetFlag true)

/-- As `HandlerUse.handled`, for a relation that no update of the client breaks. -/
theorem HandlerUse.handled_of
    (auth : ∀ s : Session, R s { s with client := { s.client with authenticated := true } })
    (afresh : ∀ s : Session, R s { s with client := { s.client with
      cwd := ['/'], representationType := 'A', authenticated := false } })
    (cwd : ∀ (s : Session) d, R s { s with client := { s.client with cwd := d } })
    (marker : ∀ (s : Session) k, R s { s with client := { s.client with restartMarker := k } })
    (cmdLine : Str) : Handled R cmdLine := by
  have hp := fun c => (hR.streams c).toUsesPaths
  have hu := hR.toUpdatesTransfer
  exact hR.handled (fun _ => ftpPass_keeps hR.toReplies auth)
    (fun _ path => changeDirectory_keeps hR.toReplies hp cwd path _)
    (fun _ _ => changeDirectory_keeps hR.toReplies hp cwd _ _)
    (fun _ => ftpRetr_keeps hR.toReplies hR.sockets hR.streams hu marker)
    (fun _ => ftpStor_keeps hR.toReplies hR.sockets hR.streams hu marker)
    (fun _ => ftpRest_keeps hR.toReplies marker)
    (fun _ => ftpRein_keeps hR.sockets hR.passive hR.toReplies afresh)

end HandlerUse

end Ftpii
