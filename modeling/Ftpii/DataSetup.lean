import Ftpii.Replying
set_option autoImplicit false

/-!
What the handlers do, the preparation of a data connection and the handling of the passive
socket each taken as one operation.
-/

namespace Ftpii
open StateProgram Prog

/-- The updates and calls of the handlers, whatever they do with data and passive sockets given as
a whole. -/
structure SetupUse (R : Session → Session → Prop) : Prop extends Replies R where
  streams : ∀ c, UsesStreams (At R c)
  devices : ∀ c, Mounts (At R c)
  statics : ∀ (s : Session) p q r d, R s { s with world :=
    { s.world with passivePort := p, password := q, resetFlag := r, dolStarted := d } }
  type : ∀ (s : Session) t, R s { s with client := { s.client with representationType := t } }
  pending : ∀ (s : Session) p, R s { s with client := { s.client with pendingRename := p } }
  auth : ∀ s : Session, R s { s with client := { s.client with authenticated := true } }
  cwd : ∀ (s : Session) d, R s { s with client := { s.client with cwd := d } }
  marker : ∀ (s : Session) k, R s { s with client := { s.client with restartMarker := k } }
  prepare : ∀ callback arg cleanup, Keeps R (prepareDataConnection callback arg cleanup)
  pasv : ∀ rest, Keeps R (ftpPasv rest)
  port : ∀ portspec, Keeps R (ftpPort portspec)
  rein : ∀ rest, Keeps R (ftpRein rest)

section SetupUse

variable {R : Session → Session → Prop} (hR : SetupUse R)

include hR

theorem SetupUse.transfer (callback : Callback) (arg : Nat) (cleanup : Cleanup) :
    Keeps R (transfer callback arg cleanup) :=
  .bind hR.toFrame (hR.prepare callback arg cleanup) fun _ => .ite
    (.bind hR.toFrame
      (os_keeps fun c => runCleanup_keeps (hR.streams c).toClosing cleanup trivial) fun _ =>
        .pure hR.toFrame _)
    (.pure hR.toFrame _)

theorem SetupUse.listDirectory (callback : Callback) (path : Str) :
    Keeps R (listDirectory callback path) := by
  refine .bind hR.toFrame (client_keeps hR.toReplies) fun _ =>
    .bind hR.toFrame (os_keeps fun c => vrtDiropen_keeps (hR.streams c) _ _) fun o => ?_
  cases o with
  | none => exact replyErrno_keeps hR.toReplies
  | some dir => exact hR.transfer _ _ _

theorem SetupUse.retr (path : Str) : Keeps R (ftpRetr path) := by
  refine .bind hR.toFrame (client_keeps hR.toReplies) fun _ =>
    .bind hR.toFrame (os_keeps fun c => vrtFopen_keeps (hR.streams c) _ _ _) fun o => ?_
  cases o with
  | none => exact replyErrno_keeps hR.toReplies
  | some f =>
    exact seekToMarker_keeps hR.toReplies (fun c => (hR.streams c).toClosing) hR.marker f
      (hR.transfer _ _ _)

theorem SetupUse.storOrAppend (f : Option Nat) : Keeps R (storOrAppend f) := by
  cases f with
  | none => exact replyErrno_keeps hR.toReplies
  | some f => exact hR.transfer _ _ _

theorem SetupUse.stor (path : Str) : Keeps R (ftpStor path) := by
  refine .bind hR.toFrame (client_keeps hR.toReplies) fun _ =>
    .bind hR.toFrame (os_keeps fun c => vrtFopen_keeps (hR.streams c) _ _ _) fun o => ?_
  cases o with
  | none =>
    exact .bind hR.toFrame (update_keeps fun s => hR.marker s _) fun _ => hR.storOrAppend none
  | some f =>
    exact seekToMarker_keeps hR.toReplies (fun c => (hR.streams c).toClosing) hR.marker f
      (hR.storOrAppend _)

theorem SetupUse.appe (path : Str) : Keeps R (ftpAppe path) :=
  .bind hR.toFrame (client_keeps hR.toReplies) fun _ =>
    .bind hR.toFrame (os_keeps fun c => vrtFopen_keeps (hR.streams c) _ _ _) fun o =>
      hR.storOrAppend o

theorem SetupUse.handled (cmdLine : Str) : Handled R cmdLine where
  toReplies := hR.toReplies
  pass _ := ftpPass_keeps hR.toReplies hR.auth
  list _ := fun _ => hR.listDirectory _ _
  cwd _ := fun path =>
    changeDirectory_keeps hR.toReplies (fun c => (hR.streams c).toUsesPaths) hR.cwd path _
  cdup _ := fun _ =>
    changeDirectory_keeps hR.toReplies (fun c => (hR.streams c).toUsesPaths) hR.cwd _ _
  size _ := ftpSize_keeps hR.toReplies fun c => (hR.streams c).toUsesPaths
  pasv _ := hR.pasv
  port _ := hR.port
  type _ := ftpType_keeps hR.toReplies hR.type
  retr _ := hR.retr
  stor _ := hR.stor
  appe _ := hR.appe
  rest _ := ftpRest_keeps hR.toReplies hR.marker
  dele _ := ftpDele_keeps hR.toReplies fun c => (hR.streams c).toUsesPaths
  mkd _ := ftpMkd_keeps hR.toReplies fun c => (hR.streams c).toUsesPaths
  rnfr _ := ftpRnfr_keeps hR.toReplies hR.pending
  rnto _ := ftpRnto_keeps hR.toReplies (fun c => (hR.streams c).toUsesPaths) hR.pending
  nlst _ := fun _ => hR.listDirectory _ _
  rein _ := hR.rein
  site _ := ftpSite_keeps hR.toReplies hR.devices
    (fun s p => hR.statics s s.world.passivePort p s.world.resetFlag s.world.dolStarted)
    (fun s => hR.statics s s.world.passivePort s.world.password true s.world.dolStarted)
    (ftpSiteLoad_keeps hR.toReplies hR.streams fun s =>
      hR.statics s s.world.passivePort s.world.password s.world.resetFlag true)

theorem SetupUse.command
    (noted : ∀ (s : Session) line p,
      R s { s with world := s.world.emit s.client.conn (.command line p) })
    (cmdLine : Str) : Keeps R (processCommand cmdLine) :=
  processCommand_keeps (hR.handled cmdLine) noted

end SetupUse

/-- The updates and calls of the handlers that open no stream, whatever PASV, PORT and REIN do with
the passive socket given as a whole. -/
structure QuietUse (R : Session → Session → Prop) : Prop extends Replies R where
  paths : ∀ c, UsesPaths (At R c)
  devices : ∀ c, Mounts (At R c)
  statics : ∀ (s : Session) p q r d, R s { s with world :=
    { s.world with passivePort := p, password := q, resetFlag := r, dolStarted := d } }
  type : ∀ (s : Session) t, R s { s with client := { s.client with representationType := t } }
  pending : ∀ (s : Session) p, R s { s with client := { s.client with pendingRename := p } }
  auth : ∀ s : Session, R s { s with client := { s.client with authenticated := true } }
  cwd : ∀ (s : Session) d, R s { s with client := { s.client with cwd := d } }
  marker : ∀ (s : Session) k, R s { s with client := { s.client with restartMarker := k } }
  pasv : ∀ rest, Keeps R (ftpPasv rest)
  port : ∀ portspec, Keeps R (ftpPort portspec)
  rein : ∀ rest, Keeps R (ftpRein rest)

/-- A property of handlers: those that open no stream have it for what they keep, the others for
reasons of their own. -/
structure Concludes (R : Session → Session → Prop) (Q : Ses Int → Prop) : Prop extends
    QuietUse R where
  quiet : ∀ {m : Ses Int}, Keeps R m → Q m
  list : ∀ callback path, Q (listDirectory callback path)
  retr : ∀ path, Q (ftpRetr path)
  stor : ∀ path, Q (ftpStor path)
  appe : ∀ path, Q (ftpAppe path)
  load : ∀ path, Q (ftpSiteLoad path)

section Concludes

variable {R : Session → Session → Prop} {Q : Ses Int → Prop} (hQ : Concludes R Q)

include hQ

theorem Concludes.site (cmdLine : Str) : Q (ftpSite cmdLine) := by
  have hr := hQ.toReplies
  refine dispatchToHandler_of_zip rfl ?_ ?_
  · simp only [siteCommands, siteHandlers, List.zip_cons_cons, List.zip_nil_left,
      List.forall_mem_cons, List.not_mem_nil, false_implies, implies_true, and_true]
    exact ⟨fun _ => hQ.quiet (ftpSiteLoader_keeps hr (fun s =>
        hQ.statics s s.world.passivePort s.world.password true s.world.dolStarted) _),
      fun _ => hQ.quiet (writeReply_keeps hr _ _), fun _ => hQ.quiet (writeReply_keeps hr _ _),
      fun _ => hQ.quiet (ftpSitePasswd_keeps hr (fun s p =>
        hQ.statics s s.world.passivePort p s.world.resetFlag s.world.dolStarted) _),
      fun _ => hQ.quiet (ftpSiteNopasswd_keeps hr (fun s p =>
        hQ.statics s s.world.passivePort p s.world.resetFlag s.world.dolStarted) _),
      fun _ => hQ.quiet (ftpSiteEject_keeps hr hQ.devices _),
      fun _ => hQ.quiet (ftpSiteMount_keeps hr hQ.devices _),
      fun _ => hQ.quiet (ftpSiteUnmount_keeps hr hQ.devices _), fun _ => hQ.load _⟩
  · rintro f ⟨⟩
    exact hQ.quiet (writeReply_keeps hr _ _)

theorem Concludes.unauthenticated (cmdLine : Str) :
    Q (dispatchToHandler cmdLine unauthenticatedCommands unauthenticatedHandlers) := by
  have hr := hQ.toReplies
  refine dispatchToHandler_of_zip rfl ?_ ?_
  · simp only [unauthenticatedCommands, unauthenticatedHandlers, List.zip_cons_cons,
      List.zip_nil_left, List.forall_mem_cons, List.not_mem_nil, false_implies, implies_true,
      and_true]
    exact ⟨fun _ => hQ.quiet (writeReply_keeps hr _ _),
      fun _ => hQ.quiet (ftpPass_keeps hr hQ.auth _), fun _ => hQ.quiet (ftpQuit_keeps hr _),
      fun _ => hQ.quiet (hQ.rein _), fun _ => hQ.quiet (writeReply_keeps hr _ _)⟩
  · rintro f ⟨⟩
    exact hQ.quiet (writeReply_keeps hr _ _)

theorem Concludes.authenticated (cmdLine : Str) :
    Q (dispatchToHandler cmdLine authenticatedCommands authenticatedHandlers) := by
  have hr := hQ.toReplies
  have hd : ∀ path, Q (ftpDele path) := fun path => hQ.quiet (ftpDele_keeps hr hQ.paths path)
  refine dispatchToHandler_of_zip rfl ?_ ?_
  · simp only [authenticatedCommands, authenticatedHandlers, List.zip_cons_cons,
      List.zip_nil_left, List.forall_mem_cons, List.not_mem_nil, false_implies, implies_true,
      and_true]
    exact ⟨fun _ => hQ.quiet (writeReply_keeps hr _ _),
      fun _ => hQ.quiet (ftpPass_keeps hr hQ.auth _), fun _ => hQ.list _ _,
      fun _ => hQ.quiet (ftpPwd_keeps hr _),
      fun _ => hQ.quiet (changeDirectory_keeps hr hQ.paths hQ.cwd _ _),
      fun _ => hQ.quiet (changeDirectory_keeps hr hQ.paths hQ.cwd _ _),
      fun _ => hQ.quiet (ftpSize_keeps hr hQ.paths _), fun _ => hQ.quiet (hQ.pasv _),
      fun _ => hQ.quiet (hQ.port _), fun _ => hQ.quiet (ftpType_keeps hr hQ.type _),
      fun _ => hQ.quiet (writeReply_keeps hr _ _), fun _ => hQ.quiet (ftpMode_keeps hr _),
      fun _ => hQ.retr _, fun _ => hQ.stor _, fun _ => hQ.appe _,
      fun _ => hQ.quiet (ftpRest_keeps hr hQ.marker _), fun _ => hd _,
      fun _ => hQ.quiet (ftpMkd_keeps hr hQ.paths _), fun _ => hd _,
      fun _ => hQ.quiet (ftpRnfr_keeps hr hQ.pending _),
      fun _ => hQ.quiet (ftpRnto_keeps hr hQ.paths hQ.pending _), fun _ => hQ.list _ _,
      fun _ => hQ.quiet (ftpQuit_keeps hr _), fun _ => hQ.quiet (hQ.rein _),
      fun _ => hQ.site _, fun _ => hQ.quiet (writeReply_keeps hr _ _),
      fun _ => hQ.quiet (writeReply_keeps hr _ _)⟩
  · rintro f ⟨⟩
    exact hQ.quiet (writeReply_keeps hr _ _)

theorem Concludes.dispatch (authenticated : Bool) (cmdLine : Str) :
    Q (dispatch authenticated cmdLine) := by
  unfold Ftpii.dispatch
  split
  · exact hQ.authenticated cmdLine
  · exact hQ.unauthenticated cmdLine

end Concludes

theorem prepareDataConnectionActive_run (s : Session) : prepareDataConnectionActive s =
    let a := netSocket s.world
    let b := setBlocking a.1 false a.2
    let n := netBind a.1 SRC_PORT b.2
    if a.1 < 0 then (a.1, ⟨s.client, a.2⟩)
    else if n.1 < 0 then (n.1, ⟨s.client, (netClose a.1 n.2).2⟩)
    else (0, ⟨{ s.client with dataSocket := a.1 }, n.2⟩) := by
  simp +instances only [prepareDataConnectionActive, bind_run, os_run, ite_run, pure_run, update_run]

theorem prepareSocket_client (s : Session) :
    ((prepareSocket s).1 < 0 ∧ (prepareSocket s).2.client = s.client) ∨
      0 ≤ (prepareSocket s).1 ∧
        ∃ fd, (prepareSocket s).2.client = { s.client with dataSocket := fd } := by
  have hrun : prepareSocket s = if 0 ≤ s.client.passiveSocket
      then prepareDataConnectionPassive s else prepareDataConnectionActive s := by
    simp +instances only [prepareSocket, bind_run, client_run, ite_run]
  rw [hrun]
  split
  · exact .inr ⟨le_rfl, _, rfl⟩
  · rw [prepareDataConnectionActive_run]
    simp only
    split
    · rename_i hneg
      exact .inl ⟨hneg, rfl⟩
    · split
      · rename_i hneg
        exact .inl ⟨hneg, rfl⟩
      · exact .inr ⟨le_rfl, _, rfl⟩

/-! ## Transfers that come under way -/

/-- A transfer with this callback, argument and cleanup is under way. -/
structure Session.Holds (s : Session) (callback : Callback) (arg : Nat) (cleanup : Cleanup) :
    Prop where
  callback : s.client.dataCallback = some callback
  arg : s.client.dataConnectionCallbackArg = some arg
  cleanup : s.client.dataConnectionCleanup = some cleanup

theorem Session.Holds.within {s : Session} {callback : Callback} {arg : Nat} {cleanup : Cleanup}
    (h : s.Holds callback arg cleanup) (w : World) :
    Session.Holds ⟨s.client, w⟩ callback arg cleanup := ⟨h.callback, h.arg, h.cleanup⟩

/-- A preparation leaves no transfer, or the one it was asked for and a result that says so. -/
theorem prepareDataConnection_cases (callback : Callback) (arg : Nat) (cleanup : Cleanup)
    {s : Session} (hcb : s.client.dataCallback = none) :
    (prepareDataConnection callback arg cleanup s).2.client.dataCallback = none ∨
      0 ≤ (prepareDataConnection callback arg cleanup s).1 ∧
        (prepareDataConnection callback arg cleanup s).2.Holds callback arg cleanup := by
  rw [prepareDataConnection_run]
  let r := writeReply 150 "Transferring data.".toList s
  simp only
  split
  · exact .inl hcb
  · split
    · refine .inl ?_
      have hq : (prepareSocket r.2).2.client.dataCallback = none :=
        (@prepareSocket_silent True r.2).callback.trans hcb
      exact hq
    · rename_i hneg
      exact .inr ⟨not_lt.mp hneg, rfl, rfl, rfl⟩

theorem transfer_started {callback : Callback} {arg : Nat} {cleanup : Cleanup} {s : Session}
    (hcb : s.client.dataCallback = none)
    (hgo : (transfer callback arg cleanup s).2.client.dataCallback ≠ none) :
    (transfer callback arg cleanup s).2.Holds callback arg cleanup ∧
      SameFiles s (transfer callback arg cleanup s).2 := by
  let p := prepareDataConnection callback arg cleanup s
  have hfiles : SameFiles s p.2 := prepareDataConnection_sameFiles callback arg cleanup s
  have hrun : transfer callback arg cleanup s =
      if p.1 < 0 then (p.1, ⟨p.2.client, (runCleanup cleanup arg p.2.world).2⟩) else p := by
    simp +instances only [transfer, bind_run, ite_run, os_run, pure_run]
    rfl
  rw [hrun] at hgo ⊢
  rcases prepareDataConnection_cases callback arg cleanup hcb with hnone | ⟨hpos, hstart⟩
  · refine absurd ?_ hgo
    split
    · exact hnone
    · exact hnone
  · rw [if_neg (not_lt.mpr hpos)]
    exact ⟨hstart, hfiles⟩

/-- A transfer comes under way only where the seek went to the marker. -/
theorem seekToMarker_started {f : Nat} {proceed : Ses Int} {s : Session}
    (hcb : s.client.dataCallback = none)
    (hgo : (seekToMarker f proceed s).2.client.dataCallback ≠ none) :
    (seek f s.client.restartMarker s.world).1 = s.client.restartMarker ∧
      seekToMarker f proceed s = proceed ⟨{ s.client with restartMarker := 0 },
        (seek f s.client.restartMarker s.world).2⟩ := by
  by_cases hs : (seek f s.client.restartMarker s.world).1 = s.client.restartMarker
  · refine ⟨hs, ?_⟩
    simp +instances only [seekToMarker, bind_run, client_run, os_run, ite_run, update_run, if_pos hs]
  · refine absurd ?_ hgo
    simp +instances only [seekToMarker, bind_run, client_run, os_run, ite_run, update_run,
      if_neg hs]
    exact hcb

theorem seek_reaches {f : Nat} {marker : Int} {w : World} {st : Stream}
    (hst : w.streams f = some st) (hz : st.pos = 0) (hr : (seek f marker w).1 = marker) :
    (seek f marker w).2.disk = w.disk ∧ ∃ start eof, (seek f marker w).2.streams f =
      some { st with pos := marker.toNat, start := start, eof := eof } := by
  have hstay : st = { st with pos := (0 : Int).toNat } := by simp [← hz]
  by_cases hm : marker = 0
  · have hseek : (seek f marker w).2 = w := by simp [seek, hm]
    rw [hseek, hst, hm]
    exact ⟨rfl, st.start, st.eof, congrArg some hstay⟩
  · have hseek : seek f marker = lseek f marker.toNat := by simp [seek, hm]
    rw [hseek] at hr ⊢
    rcases lseek_cases f marker.toNat w with ⟨hneg, hl⟩ | ⟨w', hl, hrun⟩
    · -- a marker of -1 would pass for the error lseek returns
      obtain rfl : -1 = marker := hneg.symm.trans hr
      rw [hl.streams, hst]
      exact ⟨hl.disk, st.start, st.eof, congrArg some hstay⟩
    · rw [hrun, hst]
      exact ⟨hl.disk, marker.toNat, false, by simp [World.setStream]⟩

/-! ## Waiting for the connection -/

/-- The wait goes on with this result, or has run out of time. -/
def timed (result : Int) (s : Session) : Int × Session :=
  let now := gettime s.world
  (if s.client.dataConnectionTimer < now.1 then -1 else result, ⟨s.client, now.2⟩)

def Client.joined (c : Client) (fd : Int) : Client :=
  { c with dataSocket := fd, dataConnectionConnected := true }

def connectResult (result : Int) : Int :=
  if result = -EINPROGRESS ∨ result = -EALREADY then -EAGAIN else result

theorem connectDataConnection_run (s : Session) (fd : Int) (address : SockAddr) :
    connectDataConnection fd address s =
      let r := netConnect fd address s.world
      let q := connectResult r.1
      (q, ⟨if 0 ≤ q ∨ q = -EISCONN then { s.client with dataConnectionConnected := true }
        else s.client, r.2⟩) := by
  have hrun : connectDataConnection fd address s =
      (let r := netConnect fd address s.world
      let q := connectResult r.1
      (if 0 ≤ q ∨ q = -EISCONN then do
        update fun c => { c with dataConnectionConnected := true }
        pure q
      else pure q) ⟨s.client, r.2⟩) := rfl
  rw [hrun]
  by_cases hq : 0 ≤ connectResult (netConnect fd address s.world).1 ∨
      connectResult (netConnect fd address s.world).1 = -EISCONN
  · simp [hq]
  · simp [hq]

theorem awaitDataConnection_run {s : Session} (h : s.client.dataConnectionConnected = false) :
    awaitDataConnection s =
      let c := s.client
      if 0 ≤ c.passiveSocket then
        let r := netAccept c.passiveSocket s.world
        if 0 ≤ r.1.1 then (1, ⟨c.joined r.1.1, r.2⟩) else timed r.1.1 ⟨c, r.2⟩
      else
        let r := netConnect c.dataSocket c.address s.world
        let q := connectResult r.1
        if 0 ≤ q ∨ q = -EISCONN then (1, ⟨c.joined c.dataSocket, r.2⟩) else timed q ⟨c, r.2⟩ := by
  have haccept : ∀ fd, acceptDataConnection fd s = (let r := netAccept fd s.world
      (r.1.1, ⟨if 0 ≤ r.1.1 then s.client.joined r.1.1 else s.client, r.2⟩)) := by
    intro fd
    by_cases hr : 0 ≤ (netAccept fd s.world).1.1
    · simp [acceptDataConnection, hr, Client.joined]
    · simp [acceptDataConnection, hr]
  have hwait : awaitDataConnection s =
      (let r := if 0 ≤ s.client.passiveSocket then acceptDataConnection s.client.passiveSocket s
        else connectDataConnection s.client.dataSocket s.client.address s
      if r.2.client.dataConnectionConnected then (1, r.2) else timed r.1 r.2) := by
    simp +instances only [awaitDataConnection, bind_run, client_run, ite_run, os_run, pure_run]
    rfl
  rw [hwait, haccept, connectDataConnection_run]
  simp only
  by_cases hp : 0 ≤ s.client.passiveSocket
  · simp only [if_pos hp]
    by_cases hr : 0 ≤ (netAccept s.client.passiveSocket s.world).1.1
    · simp [hr, Client.joined]
    · simp [hr, h]
  · simp only [if_neg hp]
    split
    · simp [Client.joined]
    · simp [h]

/-- The connection is made, or there is an error and the client is as it was. -/
theorem awaitDataConnection_cases {s : Session} (h : s.client.dataConnectionConnected = false) :
    ((awaitDataConnection s).1 = 1 ∧
        ∃ fd, (awaitDataConnection s).2.client = s.client.joined fd) ∨
      ((awaitDataConnection s).1 < 0 ∧ (awaitDataConnection s).2.client = s.client) := by
  have htimed : ∀ (q : Int) (t : Session), q < 0 → (timed q t).1 < 0 := by
    intro q t hq
    simp only [timed]
    split
    · decide
    · exact hq
  rw [awaitDataConnection_run h]
  simp only
  split
  · split
    · exact .inl ⟨rfl, _, rfl⟩
    · rename_i hr
      exact .inr ⟨htimed _ _ (by omega), rfl⟩
  · split
    · exact .inl ⟨rfl, _, rfl⟩
    · rename_i hq
      exact .inr ⟨htimed _ _ (by omega), rfl⟩

theorem dataStep_waits {P : World → World → Prop} (hP : UsesSockets P) {s : Session}
    (h : s.client.dataConnectionConnected = false) : P s.world (dataStep s).2.world := by
  have hstep : dataStep s = awaitDataConnection s := by
    simp only [dataStep, bind_run, client_run, h, Bool.false_eq_true, if_false]
  have hnow : Keeps P gettime := gettime_keeps hP.toFrame hP.answers
  have haccept := netAccept_keeps hP s.client.passiveSocket s.world
  have hconnect := netConnect_keeps hP.toTalks s.client.dataSocket s.client.address s.world
  rw [hstep, awaitDataConnection_run h]
  simp only [timed]
  split
  · split
    · exact haccept
    · exact hP.trans haccept (hnow _)
  · split
    · exact hconnect
    · exact hP.trans hconnect (hnow _)

/-- A call made before there is a data connection keeps the transfer and never reports success. -/
theorem Session.Holds.waits {s : Session} {callback : Callback} {arg : Nat} {cleanup : Cleanup}
    (h : s.Holds callback arg cleanup) (hc : s.client.dataConnectionConnected = false) :
    (dataStep s).1 ≠ 0 ∧ (dataStep s).2.Holds callback arg cleanup := by
  have hstep : dataStep s = awaitDataConnection s := by
    simp only [dataStep, bind_run, client_run, hc, Bool.false_eq_true, if_false]
  rw [hstep]
  rcases awaitDataConnection_cases hc with ⟨hr, fd, hclient⟩ | ⟨hr, hclient⟩
  · refine ⟨by omega, ?_⟩
    constructor <;> rw [hclient]
    · exact h.callback
    · exact h.arg
    · exact h.cleanup
  · refine ⟨by omega, ?_⟩
    constructor <;> rw [hclient]
    · exact h.callback
    · exact h.arg
    · exact h.cleanup

end Ftpii
