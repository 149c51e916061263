import Ftpii.Footprint
set_option autoImplicit false

/-! What the event functions of one client do to its session, as closure conditions. -/

namespace Ftpii
open StateProgram Prog

variable {R : Session → Session → Prop} {P : World → World → Prop}

/-! ## Transfers -/

/-- What a callback does with its data socket, where only an upload reads. -/
structure Carries (callback : Callback) (dataSocket : Int) (P : World → World → Prop) : Prop
    extends Frame P where
  send : ∀ buf, Keeps P (sendExact dataSocket buf)
  shrink : ∀ w, P w { w with netBufferSize := MIN_NET_BUFFER_SIZE }
  read : callback = .recvToFile → ∀ len, Keeps P (netRead dataSocket len)

theorem Talks.carries (hP : Talks P) (callback : Callback) (dataSocket : Int) :
    Carries callback dataSocket P where
  toFrame := hP.toFrame
  send := sendExact_keeps hP.toSends trivial
  shrink := hP.shrink
  read _ := netRead_keeps hP dataSocket

section Transfers

variable {H : Nat → Prop} {callback : Callback} {dataSocket : Int}
  (hs : Carries callback dataSocket P) (hf : Streaming H P) {arg : Nat} (hh : H arg)

include hs hf hh

theorem sendListing_keeps (line : Str → Stat → Str) :
    Keeps P (do
      let (ended, filename, st) ← vrtDirnext arg
      if ended ≠ 0 then pure (.inr 0)
      else do
        let result ← sendExact dataSocket (line filename st)
        pure (if result < 0 then Sum.inr result else Sum.inl ())) :=
  .bind hs.toFrame (vrtDirnext_keeps hf hh) fun _ => .ite (.pure hs.toFrame _) <|
    .bind hs.toFrame (hs.send _) fun _ => .pure hs.toFrame _

theorem sendNlst_keeps : Keeps P (sendNlst dataSocket arg) :=
  .bind hs.toFrame (.gets hs.toFrame _) fun _ =>
    .iterate hs.toFrame (fun _ => sendListing_keeps hs hf hh (fun f _ => f ++ CRLF)) _ _

theorem sendList_keeps : Keeps P (sendList dataSocket arg) :=
  .bind hs.toFrame (.gets hs.toFrame _) fun _ =>
    .iterate hs.toFrame (fun _ => sendListing_keeps hs hf hh listLine) _ _

theorem sendFromFile_keeps : Keeps P (sendFromFile dataSocket arg) := by
  have hF := hs.toFrame
  refine .bind hF (fread_keeps hf hh _) fun _ => .bind hF (.ite ?_ (.pure hF _)) fun _ =>
    .ite (.pure hF _) (.ite ?_ (.pure hF _))
  · exact hs.send _
  · exact .bind hF (feof_keeps hF arg) fun _ => .pure hF _

theorem recvStep_keeps (hcb : callback = .recvToFile) : Keeps P (recvStep dataSocket arg) := by
  have hF := hs.toFrame
  refine .bind hF (.gets hF _) fun _ => .bind hF (hs.read hcb _) fun r => ?_
  split
  · exact .ite (.bind hF (fun w => hs.shrink w) fun _ => .pure hF _) (.pure hF _)
  · exact .pure hF _
  · exact .bind hF (fwrite_keeps hf hh _) fun _ => .pure hF _

theorem recvToFile_keeps (hcb : callback = .recvToFile) : Keeps P (recvToFile dataSocket arg) :=
  .bind hs.toFrame (.gets hs.toFrame _) fun _ =>
    .iterate hs.toFrame (fun _ => recvStep_keeps hs hf hh hcb) _ _

theorem runCallback_keeps : Keeps P (runCallback callback dataSocket arg) := by
  cases callback with
  | sendNlst => exact sendNlst_keeps hs hf hh
  | sendList => exact sendList_keeps hs hf hh
  | sendFromFile => exact sendFromFile_keeps hs hf hh
  | recvToFile => exact recvToFile_keeps hs hf hh rfl

end Transfers

/-! ## Data connections -/

/-- Everything done to release what a transfer holds. -/
structure Releases (R : Session → Session → Prop) : Prop extends Frame R where
  close : ∀ fd, Keeps R (os (netCloseBlocking fd))
  streams : ∀ c, Closing (fun _ => True) (At R c)
  data : ∀ (s : Session) fd b cb arg cl t, R s { s with client := { s.client with
    dataSocket := fd, dataConnectionConnected := b, dataCallback := cb,
    dataConnectionCallbackArg := arg, dataConnectionCleanup := cl, dataConnectionTimer := t } }

section Releases

variable (hR : Releases R)

include hR

theorem closeDataSocket_keeps : Keeps R closeDataSocket :=
  .bind hR.toFrame (.gets hR.toFrame _) fun _ =>
    .ite (hR.close _) (.pure hR.toFrame _)

theorem runClientCleanup_keeps : Keeps R runClientCleanup := by
  refine .bind hR.toFrame (.gets hR.toFrame _) fun c => ?_
  split
  · exact os_keeps fun c => runCleanup_keeps (hR.streams c) _ trivial
  · exact .pure hR.toFrame _

theorem cleanupDataResources_keeps : Keeps R cleanupDataResources :=
  .bind hR.toFrame (closeDataSocket_keeps hR) fun _ =>
    .bind hR.toFrame (update_keeps fun s => hR.data s _ _ _ _ _ _) fun _ =>
      .bind hR.toFrame (runClientCleanup_keeps hR) fun _ =>
        update_keeps fun s => hR.data s _ _ _ _ _ _

theorem closeSockets_keeps
    (passive : ∀ (s : Session) fd, R s { s with client := { s.client with passiveSocket := fd } }) :
    Keeps R closeSockets :=
  .bind hR.toFrame (.gets hR.toFrame _) fun _ =>
    .bind hR.toFrame (hR.close _) fun _ => .bind hR.toFrame (cleanupDataResources_keeps hR) fun _ =>
      closePassiveSocket_closes hR.toFrame hR.close passive

end Releases

/-- Everything done to make a data connection and use it. -/
structure Drives (R : Session → Session → Prop) : Prop extends Frame R where
  sockets : ∀ c, UsesSockets (At R c)
  streams : ∀ c, Closing (fun _ => True) (At R c)
  connected : ∀ (s : Session) fd b, R s { s with client := { s.client with
    dataSocket := fd, dataConnectionConnected := b } }

section Drives

variable (hR : Drives R)

include hR

theorem awaitDataConnection_keeps : Keeps R awaitDataConnection := by
  have hF := hR.toFrame
  have hc : Keeps R client := .gets hF _
  refine .bind hF hc fun _ => .bind hF (.ite ?_ ?_) fun _ =>
    .bind hF hc fun _ => .ite (.pure hF _) ?_
  · exact .bind hF (os_keeps fun c => netAccept_keeps (hR.sockets c) _) fun _ => .ite
      (.bind hF (update_keeps fun s => hR.connected s _ _) fun _ => .pure hF _) (.pure hF _)
  · exact .bind hF (os_keeps fun c => netConnect_keeps (hR.sockets c).toTalks _ _) fun _ => .ite
      (.bind hF (update_keeps fun s => hR.connected s _ _) fun _ => .pure hF _) (.pure hF _)
  · exact .bind hF (os_keeps fun c => gettime_keeps (hR.sockets c).toFrame (hR.sockets c).answers)
      fun _ => .pure hF _

theorem driveTransfer_keeps : Keeps R driveTransfer := by
  refine .bind hR.toFrame (.gets hR.toFrame _) fun c => ?_
  split
  · exact os_keeps fun c =>
      runCallback_keeps ((hR.sockets c).toTalks.carries _ _) (hR.streams c).toStreaming trivial
  · exact .pure hR.toFrame _

end Drives

/-- Everything done for a transfer that is under way. -/
structure DataUse (R : Session → Session → Prop) : Prop extends Replies R where
  sockets : ∀ c, UsesSockets (At R c)
  streams : ∀ c, Closing (fun _ => True) (At R c)
  data : ∀ (s : Session) fd b cb arg cl t, R s { s with client := { s.client with
    dataSocket := fd, dataConnectionConnected := b, dataCallback := cb,
    dataConnectionCallbackArg := arg, dataConnectionCleanup := cl, dataConnectionTimer := t } }

section Data

variable (hR : DataUse R)

include hR

theorem DataUse.releases : Releases R where
  toFrame := hR.toFrame
  close fd := os_keeps fun c => netCloseBlocking_keeps (hR.sockets c) fd
  streams := hR.streams
  data := hR.data

theorem DataUse.drives : Drives R where
  toFrame := hR.toFrame
  sockets := hR.sockets
  streams := hR.streams
  connected s _ _ := hR.data s _ _ _ _ _ _

theorem transferDone_keeps (result : Int) : Keeps R (transferDone result) :=
  .ite (transferError_keeps hR.toReplies) (writeReply_keeps hR.toReplies _ _)

theorem dataEvents_keeps : Keeps R dataEvents :=
  .bind hR.toFrame (client_keeps hR.toReplies) fun _ =>
    .bind hR.toFrame (.ite (driveTransfer_keeps hR.drives) (awaitDataConnection_keeps hR.drives)) fun _ =>
      .ite (.bind hR.toFrame (cleanupDataResources_keeps hR.releases) fun _ =>
        .bind hR.toFrame (transferDone_keeps hR _) fun _ => .pure hR.toFrame _) (.pure hR.toFrame _)

end Data

/-! ## The control connection -/

/-- Everything done while reading commands, executing them apart. -/
structure ControlUse (R : Session → Session → Prop) : Prop extends Frame R where
  sockets : ∀ c, UsesSockets (At R c)
  event : ∀ (s : Session) e, R s { s with world := s.world.emit s.client.conn e }
  buffer : ∀ (s : Session) buf offset,
    R s { s with client := { s.client with buf := buf, offset := offset } }
  command : ∀ cmdLine, Keeps R (processCommand cmdLine)

def Session.heard (s : Session) (len : Nat) : Session :=
  let r := netRead s.client.socket len s.world
  ⟨s.client, r.2.emit s.client.conn
    (match r.1 with
      | .error code => .readError code
      | .ok (id, data) => .recv id data)⟩

def Event.OfLine : Event → Prop
  | .line _ => True
  | .handled _ => True
  | _ => False

/-- As `ControlUse`, where a line is only executed while no transfer is under way, and what is
received was read. -/
structure ReadsLines (R : Session → Session → Prop) : Prop extends Frame R where
  heard : ∀ (s : Session) len, R s (s.heard len)
  event : ∀ (s : Session) e, e.OfLine → R s { s with world := s.world.emit s.client.conn e }
  buffer : ∀ (s : Session) buf offset,
    R s { s with client := { s.client with buf := buf, offset := offset } }
  command : ∀ cmdLine (s : Session), s.client.dataCallback = none →
    R s (processCommand cmdLine s).2

theorem heard_keeps (hR : Frame R) (sockets : ∀ c, UsesSockets (At R c))
    (event : ∀ (s : Session) e, R s { s with world := s.world.emit s.client.conn e })
    (s : Session) (len : Nat) : R s (s.heard len) :=
  hR.trans (netRead_keeps (sockets s.client).toTalks s.client.socket len s.world) (event ⟨s.client, _⟩ _)

theorem ControlUse.reads (hR : ControlUse R) : ReadsLines R where
  toFrame := hR.toFrame
  heard := heard_keeps hR.toFrame hR.sockets hR.event
  event s e _ := hR.event s e
  buffer := hR.buffer
  command cmdLine s _ := hR.command cmdLine s

section ReadsLines

variable (hR : ReadsLines R)

include hR

theorem lineStep_keeps (next : Nat) : Keeps R (lineStep next) := by
  have hF := hR.toFrame
  intro s
  cases hf : CString.strstr CRLF (CString.cstr s.client.buf next) with
  | none =>
    simp only [lineStep, bind_run, client_run, hf]
    exact hF.refl s
  | some i =>
    by_cases hcb : s.client.dataCallback.isSome = true
    · simp +instances only [lineStep, bind_run, client_run, ite_run, pure_run, hf, if_pos hcb]
      exact hF.refl s
    · have hnone : s.client.dataCallback = none := by simpa using hcb
      simp +instances only [lineStep, bind_run, client_run, update_run, emit_run, ite_run, pure_run,
        hf, if_neg hcb]
      refine hF.trans (hR.buffer s (s.client.buf.set (next + i) '\x00') s.client.offset) ?_
      have hline : ∀ (t : Session) text, R t { t with world := t.world.emit t.client.conn (.line text) } :=
        fun t _ => hR.event t _ trivial
      have hhandled : ∀ (t : Session) r, R t { t with world := t.world.emit t.client.conn (.handled r) } :=
        fun t _ => hR.event t _ trivial
      split
      · exact hline _ _
      · split
        · exact hline _ _
        · exact hF.trans (hline _ _) (hF.trans (hR.command _ _ hnone) (hhandled _ _))

theorem processLines_keeps : Keeps R processLines :=
  .iterate hR.toFrame (lineStep_keeps hR) _ _

theorem controlStep_keeps : Keeps R controlStep := by
  have hF := hR.toFrame
  have hc : Keeps R client := .gets hF _
  intro s
  simp +instances only [controlStep, bind_run, client_run, ite_run, os_run, pure_run]
  split
  · exact hF.refl s
  · split
    · exact hF.refl s
    · have hheard := hR.heard s (FTP_BUFFER_SIZE - 1 - s.client.offset)
      simp only [Session.heard] at hheard
      cases hr : (netRead s.client.socket (FTP_BUFFER_SIZE - 1 - s.client.offset) s.world).1 with
      | error code =>
        rw [hr] at hheard
        exact hheard
      | ok r =>
        obtain ⟨id, data⟩ := r
        rw [hr] at hheard
        refine hF.trans hheard ?_
        refine Keeps.ite (c := data = []) (.pure hF _) (.bind hF (update_keeps fun s => hR.buffer s _ _)
          fun _ => .bind hF hc fun _ => .ite (.pure hF _) <| .bind hF (processLines_keeps hR)
            fun o => ?_) _
        cases o with
        | none => exact .pure hF _
        | some next =>
          exact .bind hF (.ite (.pure hF _) (update_keeps fun s => hR.buffer s _ _)) fun _ =>
            .pure hF _

theorem controlEvents_keeps : Keeps R controlEvents :=
  .bind hR.toFrame (os_keeps fun c => .gets (frameAt hR.toFrame c) _) fun _ =>
    .iterate hR.toFrame (fun _ => controlStep_keeps hR) _ _

end ReadsLines

end Ftpii
