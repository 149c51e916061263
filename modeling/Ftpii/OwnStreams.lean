import Ftpii.OpenFiles
set_option autoImplicit false

/-!
Which streams a client uses. Its turn uses the stream of its own transfer, and a transfer that
starts has a stream that nobody had before.
-/

namespace Ftpii
open StateProgram Prog

/-- No stream was used but the client's own and the one in hand, and a transfer that started has
that one or a new one. -/
structure OwnStream (f : Option Nat) (s s' : Session) : Prop where
  next : s.world.nextStream ≤ s'.world.nextStream
  arg : ∀ h, s'.client.dataConnectionCallbackArg = some h →
    s.client.dataConnectionCallbackArg = some h ∨ f = some h ∨
      s.world.nextStream ≤ h ∧ h < s'.world.nextStream
  kept : ∀ h < s.world.nextStream, s.client.dataConnectionCallbackArg ≠ some h → f ≠ some h →
    s'.world.streams h = s.world.streams h

section OwnStream

variable {f : Option Nat}

theorem ownStream_frame : Frame (OwnStream f) where
  refl _ := ⟨le_rfl, fun _ => .inl, fun _ _ _ _ => rfl⟩
  trans {a b c} h h' := by
    refine ⟨h.next.trans h'.next, fun k hk => ?_, fun k hlt hk hf => ?_⟩
    · have hnext := h.next
      have hnext' := h'.next
      rcases h'.arg k hk with hb | hf | ⟨hle, hlt⟩
      · rcases h.arg k hb with ha | hf | ⟨hle, hlt⟩
        · exact .inl ha
        · exact .inr (.inl hf)
        · exact .inr (.inr ⟨hle, by omega⟩)
      · exact .inr (.inl hf)
      · exact .inr (.inr ⟨by omega, hlt⟩)
    · have hb : b.client.dataConnectionCallbackArg ≠ some k := by
        intro hb
        rcases h.arg k hb with ha | hf' | ⟨hle, -⟩
        · exact hk ha
        · exact hf hf'
        · omega
      exact (h'.kept k (hlt.trans_le h.next) hb hf).trans (h.kept k hlt hk hf)

theorem OwnStream.of_same {s s' : Session}
    (hc : s'.client.dataConnectionCallbackArg = s.client.dataConnectionCallbackArg)
    (hs : s'.world.streams = s.world.streams) (hn : s'.world.nextStream = s.world.nextStream) :
    OwnStream f s s' :=
  ⟨hn.ge, fun _ hk => .inl (hc ▸ hk), fun _ _ _ _ => by rw [hs]⟩

theorem SameFiles.ownStream {s s' : Session} (h : SameFiles s s')
    (hc : s'.client.dataConnectionCallbackArg = s.client.dataConnectionCallbackArg) :
    OwnStream f s s' := .of_same hc h.streams h.nextStream

theorem ownStream_sockets (c : Client) : UsesSockets (At (OwnStream f) c) :=
  (sameFiles_sockets c).imp (frameAt ownStream_frame c) fun _ _ h => h.ownStream rfl

theorem ownStream_emit (s : Session) (e : Event) :
    OwnStream f s { s with world := s.world.emit s.client.conn e } := .of_same rfl rfl rfl

theorem ownStream_replies : Replies (OwnStream f) :=
  .of_sends ownStream_frame (fun c => (ownStream_sockets c).toSends.mono fun _ _ => trivial)
    fun s _ _ _ => ownStream_emit s _

theorem ownStream_paths (c : Client) : UsesPaths (At (OwnStream f) c) where
  toFrame := frameAt ownStream_frame c
  answers _ _ _ := .of_same rfl rfl rfl
  errno _ _ := .of_same rfl rfl rfl
  disk _ _ := .of_same rfl rfl rfl
  renamed _ _ _ := .of_same rfl rfl rfl

theorem ownStream_closing (c : Client) :
    Closing (fun h => c.dataConnectionCallbackArg = some h ∨ f = some h) (At (OwnStream f) c) := by
  have hset : ∀ (w : World) h st, (c.dataConnectionCallbackArg = some h ∨ f = some h) →
      At (OwnStream f) c w (w.setStream h st) := by
    refine fun w h st hh => ⟨le_rfl, fun _ => .inl, fun k _ hk hf => ?_⟩
    have hne : k ≠ h := by
      rintro rfl
      exact hh.elim hk hf
    simp [World.setStream, hne]
  exact
    { toLookups := (ownStream_paths c).toLookups
      flushed := fun _ _ _ _ _ _ _ _ => .of_same rfl rfl rfl
      stream := fun w h _ st' hh _ _ _ => hset w h st' hh
      close := fun w h _ hh _ => hset w h _ hh }

theorem ownStream_passive (s : Session) (fd : Int) :
    OwnStream f s { s with client := { s.client with passiveSocket := fd } } := .of_same rfl rfl rfl

theorem ownStream_quiet : QuietUse (OwnStream f) where
  toReplies := ownStream_replies
  paths := ownStream_paths
  devices c := UsesDevices.mounts
    { toFrame := frameAt ownStream_frame c
      answers := fun _ _ _ => .of_same rfl rfl rfl
      devices := fun _ _ => .of_same rfl rfl rfl }
  statics _ _ _ _ _ := .of_same rfl rfl rfl
  type _ _ := .of_same rfl rfl rfl
  pending _ _ := .of_same rfl rfl rfl
  auth _ := .of_same rfl rfl rfl
  cwd _ _ := .of_same rfl rfl rfl
  marker _ _ := .of_same rfl rfl rfl
  pasv := ftpPasv_keeps ownStream_sockets ownStream_passive ownStream_replies fun _ _ =>
    .of_same rfl rfl rfl
  port := ftpPort_keeps ownStream_sockets ownStream_passive ownStream_replies fun _ _ =>
    .of_same rfl rfl rfl
  rein := ftpRein_keeps ownStream_sockets ownStream_passive ownStream_replies fun _ =>
    .of_same rfl rfl rfl

/-! ## A stream in hand -/

theorem prepareDataConnection_arg (callback : Callback) (arg : Nat) (cleanup : Cleanup)
    (s : Session) : ∀ h,
      (prepareDataConnection callback arg cleanup s).2.client.dataConnectionCallbackArg = some h →
        s.client.dataConnectionCallbackArg = some h ∨ some arg = some h := by
  let r := writeReply 150 "Transferring data.".toList s
  have hr : r.2.client = s.client := writeReply_client 150 "Transferring data.".toList s
  have hq : (prepareSocket r.2).2.client.dataConnectionCallbackArg =
      s.client.dataConnectionCallbackArg := by
    rcases prepareSocket_client r.2 with ⟨-, hc⟩ | ⟨-, fd, hc⟩
    · rw [hc, hr]
    · rw [hc, ← hr]
  intro h
  rw [prepareDataConnection_run]
  simp only
  split
  · exact fun ha => .inl (hr ▸ ha)
  · split
    · rw [transferError_client]
      exact fun ha => .inl (hq ▸ ha)
    · exact .inr

theorem transfer_ownStream (callback : Callback) (arg : Nat) (cleanup : Cleanup) :
    Keeps (OwnStream (some arg)) (transfer callback arg cleanup) := by
  refine .bind ownStream_frame (fun s => ?_) fun _ => .ite ?_ (.pure ownStream_frame _)
  · have hsame := prepareDataConnection_sameFiles callback arg cleanup s
    refine ⟨hsame.nextStream.ge, fun h ha => ?_, fun _ _ _ _ => by rw [hsame.streams]⟩
    exact (prepareDataConnection_arg callback arg cleanup s h ha).imp_right .inl
  · exact .bind ownStream_frame
      (os_keeps fun c => runCleanup_keeps (ownStream_closing c) cleanup (.inr rfl)) fun _ =>
        .pure ownStream_frame _

theorem seekToMarker_ownStream (h : Nat) {proceed : Ses Int}
    (hp : Keeps (OwnStream (some h)) proceed) :
    Keeps (OwnStream (some h)) (seekToMarker h proceed) := by
  have hF : Frame (OwnStream (some h)) := ownStream_frame
  have hseek : ∀ marker, Keeps (OwnStream (some h)) (os (seek h marker)) := fun marker =>
    os_keeps fun c => .ite (lseek_keeps (ownStream_closing c).toStreaming (.inr rfl) _)
      (.pure (frameAt hF c) _)
  refine .bind hF (.gets hF _) fun _ => .bind hF (hseek _) fun _ => .ite ?_ ?_
  · exact .bind hF (update_keeps fun s => ownStream_quiet.marker s _) fun _ => hp
  · refine .bind hF (os_keeps fun c => .gets (frameAt hF c) _) fun _ =>
      .bind hF (os_keeps fun c => runCleanup_keeps (ownStream_closing c) _ (.inr rfl)) fun _ =>
        .bind hF (update_keeps fun s => ownStream_quiet.marker s _) fun _ => ?_
    exact .bind hF (os_keeps fun c => .gets (frameAt hF c) _) fun _ =>
      writeReply_keeps ownStream_replies _ _

theorem loadAndClose_ownStream (cwd path : Str) (h : Nat) : Keeps (OwnStream (some h)) (do
    os (loadRealPath cwd path h)
    os (runCleanup .fclose h)
    writeReply 500 "Unable to load.".toList) := by
  have hF : Frame (OwnStream (some h)) := ownStream_frame
  refine .bind hF (os_keeps fun c => ?_) fun _ =>
    .bind hF (os_keeps fun c => runCleanup_keeps (ownStream_closing c) _ (.inr rfl)) fun _ =>
      writeReply_keeps ownStream_replies _ _
  refine .bind (frameAt hF c) (toRealPath_keeps (ownStream_paths c).toLookups cwd path) fun o => ?_
  cases o with
  | none => exact .pure (frameAt hF c) _
  | some real =>
    exact loadFromFile_keeps (ownStream_closing c).toStreaming (fun _ => .of_same rfl rfl rfl)
      (.inr rfl)

/-- How a handler goes on once the stream it asks for was opened, or was not. -/
def AsksStream (n : Ses Int) (call : Str → Os (Option Nat)) (refuse : Ses Int)
    (use : Str → Nat → Ses Int) : Prop :=
  ∀ s : Session, n s = (call s.client.cwd s.world).1.elim refuse (use s.client.cwd)
    ⟨s.client, (call s.client.cwd s.world).2⟩

theorem listDirectory_asks (callback : Callback) (path : Str) : AsksStream (listDirectory callback path)
    (fun cwd => vrtDiropen cwd (if path = [] then ['.'] else path)) replyErrno
    (fun _ dir => transfer callback dir .vrtDirclose) := by
  intro s
  simp only [listDirectory, bind_run, client_run, os_run]
  cases (vrtDiropen s.client.cwd (if path = [] then ['.'] else path) s.world).1 <;> rfl

theorem ftpRetr_asks (path : Str) : AsksStream (ftpRetr path) (fun cwd => vrtFopen cwd path .rb) replyErrno
    (fun _ f => seekToMarker f (transfer .sendFromFile f .fclose)) := by
  intro s
  rw [ftpRetr_run]
  cases (vrtFopen s.client.cwd path .rb s.world).1 <;> rfl

theorem ftpStor_asks (path : Str) : AsksStream (ftpStor path) (fun cwd => vrtFopen cwd path .wb)
    (do
      update fun c => { c with restartMarker := 0 }
      storOrAppend none)
    (fun _ f => seekToMarker f (storOrAppend (some f))) := by
  intro s
  rw [ftpStor_run]
  cases (vrtFopen s.client.cwd path .wb s.world).1 <;> rfl

theorem ftpAppe_asks (path : Str) : AsksStream (ftpAppe path) (fun cwd => vrtFopen cwd path .ab) replyErrno
    (fun _ f => transfer .recvToFile f .fclose) := by
  intro s
  simp only [ftpAppe, bind_run, client_run, os_run]
  cases (vrtFopen s.client.cwd path .ab s.world).1 <;> rfl

theorem ftpSiteLoad_asks (path : Str) : AsksStream (ftpSiteLoad path) (fun cwd => vrtFopen cwd path .rb)
    replyErrno
    (fun cwd f => do
      os (loadRealPath cwd path f)
      os (runCleanup .fclose f)
      writeReply 500 "Unable to load.".toList) := by
  intro s
  simp only [ftpSiteLoad, bind_run, client_run, os_run]
  cases (vrtFopen s.client.cwd path .rb s.world).1 <;> rfl

/-- A handler that opens a stream and keeps to it. -/
theorem AsksStream.ownStream {n : Ses Int} {call : Str → Os (Option Nat)} {refuse : Ses Int}
    {use : Str → Nat → Ses Int} (run : AsksStream n call refuse use) (hm : ∀ cwd, OpensStream (call cwd))
    (hrefuse : Keeps (OwnStream none) refuse)
    (huse : ∀ cwd h, Keeps (OwnStream (some h)) (use cwd h)) : Keeps (OwnStream none) n := by
  intro s
  rw [run s]
  rcases hm s.client.cwd s.world with ⟨hn, hl⟩ | ⟨t, disk, w, hl, hopen⟩
  · rw [hn]
    have hlook : OwnStream none s ⟨s.client, (call s.client.cwd s.world).2⟩ :=
      .of_same rfl hl.streams hl.nextStream
    exact ownStream_frame.trans hlook (hrefuse _)
  · rw [hopen]
    have huses := huse s.client.cwd s.world.nextStream ⟨s.client, w.opened t disk⟩
    have hnext : (w.opened t disk).nextStream = s.world.nextStream + 1 :=
      congrArg (· + 1) hl.nextStream
    have hgrown := huses.next
    simp only [hnext] at hgrown
    refine ⟨(Nat.le_succ _).trans hgrown, fun k hk => ?_, fun k hlt hk _ => ?_⟩
    · rcases huses.arg k hk with hs | hf | ⟨hle, hlt⟩
      · exact .inl hs
      · obtain rfl := Option.some.inj hf
        exact .inr (.inr ⟨le_rfl, hgrown⟩)
      · simp only [hnext] at hle
        exact .inr (.inr ⟨by omega, hlt⟩)
    · have hne : s.world.nextStream ≠ k := by omega
      have hkept := huses.kept k (by simp only [hnext]; omega) hk fun h => hne (Option.some.inj h)
      have hnew : (w.opened t disk).streams k = w.streams k := by
        simp [World.opened, hl.nextStream, hne.symm]
      rw [Option.elim_some, hkept, hnew, hl.streams]

theorem ownStream_handlers : Concludes (OwnStream none) (Keeps (OwnStream none)) where
  toQuietUse := ownStream_quiet
  quiet hm := hm
  list callback path := (listDirectory_asks callback path).ownStream (fun _ => vrtDiropen_opens _ _)
    (replyErrno_keeps ownStream_replies) fun _ _ => transfer_ownStream _ _ _
  retr path := (ftpRetr_asks path).ownStream (fun _ => vrtFopen_opens _ _ _)
    (replyErrno_keeps ownStream_replies)
    fun _ f => seekToMarker_ownStream f (transfer_ownStream _ _ _)
  stor path := (ftpStor_asks path).ownStream (fun _ => vrtFopen_opens _ _ _)
    (.bind ownStream_frame (update_keeps fun s => ownStream_quiet.marker s 0) fun _ =>
      replyErrno_keeps ownStream_replies)
    fun _ f => seekToMarker_ownStream f (transfer_ownStream _ _ _)
  appe path := (ftpAppe_asks path).ownStream (fun _ => vrtFopen_opens _ _ _)
    (replyErrno_keeps ownStream_replies) fun _ _ => transfer_ownStream _ _ _
  load path := (ftpSiteLoad_asks path).ownStream (fun _ => vrtFopen_opens _ _ _)
    (replyErrno_keeps ownStream_replies) fun cwd f => loadAndClose_ownStream cwd path f

theorem processCommand_ownStream (cmdLine : Str) : Keeps (OwnStream none) (processCommand cmdLine) := by
  intro s
  by_cases he : cmdLine = []
  · subst he
    exact ownStream_frame.refl s
  · rw [processCommand_run he]
    exact ownStream_frame.trans (ownStream_emit s _) (ownStream_handlers.dispatch _ cmdLine _)

/-! ## Turns -/

theorem ownStream_reads : ReadsLines (OwnStream none) where
  toFrame := ownStream_frame
  heard := heard_keeps ownStream_frame ownStream_sockets ownStream_emit
  event s e _ := ownStream_emit s e
  buffer _ _ _ := .of_same rfl rfl rfl
  command cmdLine s _ := processCommand_ownStream cmdLine s

theorem dataStep_ownStream : Keeps (OwnStream none) dataStep := by
  intro s
  by_cases hc : s.client.dataConnectionConnected = true
  · have hrun : dataStep s = driveTransfer s := by
      simp only [dataStep, bind_run, client_run, hc, if_true]
    rw [hrun]
    simp only [driveTransfer, bind_run, client_run]
    cases s.client.dataCallback with
    | none => exact ownStream_frame.refl s
    | some callback =>
      cases harg : s.client.dataConnectionCallbackArg with
      | none => exact ownStream_frame.refl s
      | some arg =>
        exact runCallback_keeps ((ownStream_sockets s.client).toTalks.carries callback _)
          (ownStream_closing s.client).toStreaming (.inl harg) s.world
  · refine .of_same (dataStep_sameTransfer s).arg ?_ ?_
    · exact (dataStep_waits (sameFiles_sockets s.client) (by simpa using hc)).streams
    · exact (dataStep_waits (sameFiles_sockets s.client) (by simpa using hc)).nextStream

theorem cleanupDataResources_ownStream : Keeps (OwnStream none) cleanupDataResources := by
  intro s
  let t : Session := ⟨s.client, (closeDataSocket s).2.world⟩
  have hclose : OwnStream none s t := by
    simp +instances only [t, closeDataSocket, bind_run, client_run, ite_run, os_run, pure_run]
    split
    · exact netCloseBlocking_keeps (ownStream_sockets s.client) _ s.world
    · exact ownStream_frame.refl s
  have hcleanup : OwnStream none t (runClientCleanup t).2 := by
    simp only [runClientCleanup, bind_run, client_run]
    cases s.client.dataConnectionCleanup with
    | none => exact ownStream_frame.refl t
    | some cleanup =>
      cases harg : s.client.dataConnectionCallbackArg with
      | none => exact ownStream_frame.refl t
      | some arg => exact runCleanup_keeps (ownStream_closing s.client) cleanup (.inl harg) t.world
  have hboth := ownStream_frame.trans hclose hcleanup
  refine ⟨?_, fun h ha => ?_, fun h hlt ha hf => ?_⟩
  · rw [cleanupDataResources_world]
    exact hboth.next
  · rw [cleanupDataResources_client] at ha
    simp [Client.released] at ha
  · rw [cleanupDataResources_world]
    exact hboth.kept h hlt ha hf

theorem turn_ownStream (c : Client) : Keeps (OwnStream none) (turn c) := by
  refine .ite (fun s => ?_) (controlEvents_keeps ownStream_reads)
  have hF : Frame (OwnStream none) := ownStream_frame
  rw [dataEvents_run]
  simp only
  split
  · have hdone : Keeps (OwnStream none) (transferDone (dataStep s).1) :=
      .ite (transferError_keeps ownStream_replies) (writeReply_keeps ownStream_replies _ _)
    exact hF.trans (dataStep_ownStream s) (hF.trans (cleanupDataResources_ownStream _) (hdone _))
  · exact dataStep_ownStream s

theorem closeSockets_ownStream : Keeps (OwnStream none) closeSockets := by
  have hF : Frame (OwnStream none) := ownStream_frame
  have hclose : ∀ fd, Keeps (OwnStream none) (os (netCloseBlocking fd)) := fun fd =>
    os_keeps fun c => netCloseBlocking_keeps (ownStream_sockets c) fd
  exact .bind hF (.gets hF _) fun _ => .bind hF (hclose _) fun _ =>
    .bind hF cleanupDataResources_ownStream fun _ =>
      closePassiveSocket_closes hF hclose ownStream_passive

end OwnStream

end Ftpii
