import Ftpii.Confinement
import Ftpii.ControlStream
import Ftpii.OwnStreams
set_option autoImplicit false

/-!
Which files the server touches. Over any run every stream is of a file or directory inside a
partition, both paths of every rename are, and the rest of the disk stays as it was.
-/

namespace Ftpii
open StateProgram Prog

def InPartition (path : Str) : Prop := path ≠ [] ∧ Inside path

/-- Streams, renames and changes of the disk are inside partitions. -/
structure World.Contained (disk : Str → Option Str) (w : World) : Prop where
  targets : ∀ h st path, w.streams h = some st → st.target.path = some path → InPartition path
  renames : ∀ a b, .rename a b ∈ w.log → InPartition a ∧ InPartition b
  disk : ∀ path, ¬ InPartition path → w.disk path = disk path

def Contains (disk : Str → Option Str) (w w' : World) : Prop := w.Contained disk → w'.Contained disk

section Contains

variable {disk : Str → Option Str}

theorem contains_frame : Frame (Contains disk) where
  refl _ := id
  trans h h' hw := h' (h hw)

theorem Contains.of_same {w w' : World} (hs : w'.streams = w.streams) (hd : w'.disk = w.disk)
    (hl : ∀ a b, .rename a b ∈ w'.log → .rename a b ∈ w.log) : Contains disk w w' := by
  refine fun h => ⟨?_, fun a b hab => h.renames a b (hl a b hab), ?_⟩
  · rw [hs]
    exact h.targets
  · rw [hd]
    exact h.disk

theorem Contains.recorded {w w' : World} {c : Call} (hs : w'.streams = w.streams)
    (hd : w'.disk = w.disk) (hl : w'.log = w.log ++ [c]) (hc : ∀ a b, c ≠ .rename a b) :
    Contains disk w w' := by
  refine .of_same hs hd fun a b hab => ?_
  rw [hl, List.mem_append, List.mem_singleton] at hab
  exact hab.resolve_right fun h => hc a b h.symm

theorem contains_sockets : UsesSockets (Contains disk) where
  toFrame := contains_frame
  answers _ _ _ := .of_same rfl rfl fun _ _ => id
  shrink _ := .of_same rfl rfl fun _ _ => id
  flags _ _ _ _ _ _ := .of_same rfl rfl fun _ _ => id
  write _ _ _ _ _ _ _ _ := .recorded rfl rfl rfl fun _ _ => by simp
  opened _ _ _ := .recorded rfl rfl rfl fun _ _ => by simp
  bound _ _ _ _ _ := .of_same rfl rfl fun _ _ => id
  listening _ _ _ _ := .of_same rfl rfl fun _ _ => id
  closed _ _ := .recorded rfl rfl rfl fun _ _ => by simp
  waits _ _ _ := .recorded rfl rfl rfl fun _ _ => by simp
  connects _ _ _ := .recorded rfl rfl rfl fun _ _ => by simp
  received _ _ _ _ _ := .of_same rfl rfl fun _ _ => id

theorem contains_lookups : Lookups (Contains disk) where
  toFrame := contains_frame
  answers _ _ _ := .of_same rfl rfl fun _ _ => id
  errno _ _ := .of_same rfl rfl fun _ _ => id

theorem contains_devices : UsesDevices (Contains disk) where
  toFrame := contains_frame
  answers _ _ _ := .of_same rfl rfl fun _ _ => id
  devices _ _ := .of_same rfl rfl fun _ _ => id

theorem contains_emit (w : World) (k : Nat) (e : Event) : Contains disk w (w.emit k e) :=
  .of_same rfl rfl fun _ _ => id

theorem contains_setDisk (w : World) {path : Str} (h : InPartition path) (content : Option Str) :
    Contains disk w (w.setDisk path content) := by
  refine fun hw => ⟨hw.targets, hw.renames, fun other hother => ?_⟩
  have hne : other ≠ path := by
    rintro rfl
    exact hother h
  exact (Function.update_of_ne hne _ _).trans (hw.disk other hother)

theorem contains_setStream (w : World) (h : Nat) {st : Stream}
    (hst : ∀ path, st.target.path = some path → InPartition path) (n : Nat) :
    Contains disk w ({ w with nextStream := n }.setStream h st) := by
  refine fun hw => ⟨fun k st' path hk hpath => ?_, hw.renames, hw.disk⟩
  by_cases he : k = h
  · subst he
    obtain rfl : st = st' := by simpa [World.setStream] using hk
    exact hst path hpath
  · exact hw.targets k st' path (by simpa [World.setStream, he] using hk) hpath

theorem contains_closing : Closing (fun _ => True) (Contains disk) where
  toLookups := contains_lookups
  flushed w h st path content _ hst hpath hw :=
    contains_setDisk w (hw.targets h st path hst hpath) content hw
  stream w h st st' _ hst _ ht hw := by
    refine contains_setStream w h (fun path hpath => ?_) w.nextStream hw
    exact hw.targets h st path hst (ht ▸ hpath)
  close w h st _ hst hw := by
    refine contains_setStream w h (fun path hpath => ?_) w.nextStream hw
    exact hw.targets h st path hst hpath

/-! ## Calls on paths -/

theorem openStream_contains {t : Target} (ht : ∀ path, t.path = some path → InPartition path) :
    Keeps (Contains disk) (openStream t) :=
  fun w => contains_setStream w w.nextStream ht (w.nextStream + 1)

theorem fopen_contains {path : Str} (h : InPartition path) (mode : Mode) :
    Keeps (Contains disk) (fopen path mode) := by
  have hF : Frame (Contains disk) := contains_frame
  have hopen (mode : Mode) : Keeps (Contains disk) (some <$> openStream (.file path mode)) :=
    Keeps.map (openStream_contains fun p hp => Option.some.inj hp ▸ h)
  have hset (o : Option Str) :
      Keeps (Contains disk) (Prog.modify fun w : World => w.setDisk path o) :=
    fun w => contains_setDisk w h o
  refine .bind hF (fileAnswer_keeps hF contains_lookups.answers) fun a => .bind hF (.get hF) fun w =>
    .ite (.bind hF (setErrno_keeps contains_lookups _) fun _ => .pure hF _) ?_
  cases mode with
  | rb =>
    cases w.disk path with
    | none => exact .bind hF (setErrno_keeps contains_lookups _) fun _ => .pure hF _
    | some _ => exact hopen _
  | wb => exact .bind hF (hset _) fun _ => hopen _
  | ab =>
    cases w.disk path with
    | none => exact .bind hF (hset _) fun _ => hopen _
    | some _ => exact hopen _

theorem diropen_contains {path : Str} (h : InPartition path) : Keeps (Contains disk) (diropen path) := by
  have hF : Frame (Contains disk) := contains_frame
  refine .bind hF (fileAnswer_keeps hF contains_lookups.answers) fun a => .ite ?_ ?_
  · exact .bind hF (setErrno_keeps contains_lookups _) fun _ => .pure hF _
  · exact Keeps.map (openStream_contains fun p hp => Option.some.inj hp ▸ h)

theorem fileCall_contains {effect : World → World} (h : ∀ w, Contains disk w (effect w)) :
    Keeps (Contains disk) (fileCall effect) := by
  have hF : Frame (Contains disk) := contains_frame
  refine .bind hF (fileAnswer_keeps hF contains_lookups.answers) fun a => .ite ?_ ?_
  · exact .bind hF (setErrno_keeps contains_lookups _) fun _ => .pure hF _
  · exact .bind hF h fun _ => .pure hF _

theorem rename_contains {source target : Str} (hs : InPartition source) (ht : InPartition target) :
    Keeps (Contains disk) (rename source target) := by
  refine .bind contains_frame (fun w => ?_) fun _ => fileCall_contains fun w => ?_
  · refine fun hw => ⟨hw.targets, fun a b hab => ?_, hw.disk⟩
    change Call.rename a b ∈ w.log ++ [.rename source target] at hab
    rw [List.mem_append, List.mem_singleton] at hab
    rcases hab with hold | hnew
    · exact hw.renames a b hold
    · obtain ⟨rfl, rfl⟩ := Call.rename.inj hnew
      exact ⟨hs, ht⟩
  · split
    · exact contains_frame.refl w
    · exact contains_frame.trans (contains_setDisk w ht _) (contains_setDisk _ hs none)

/-! ## Virtual paths -/

variable {cwd : Str} (hcwd : Confined cwd)

include hcwd

theorem Confined.inside {path real : Str} {w : World} (hs : (toRealPath cwd path w).1 = some real) :
    Inside real := by
  obtain ⟨cs, hb, rfl⟩ := hcwd
  exact toRealPath_inside hb hs

/-- A call that is made on a path inside a partition only. -/
theorem withVirtualPath_contains {α : Type} {f : Str → Os α}
    (hf : ∀ path, InPartition path → Keeps (Contains disk) (f path)) (path : Str) (failed : α) :
    Keeps (Contains disk) (withVirtualPath cwd f path failed) := by
  intro w
  have hreal : Contains disk w (toRealPath cwd path w).2 := toRealPath_keeps contains_lookups cwd path w
  simp only [withVirtualPath, bind_run]
  cases hr : (toRealPath cwd path w).1 with
  | none => exact hreal
  | some real =>
    simp +instances only [ite_run, pure_run]
    split
    · exact hreal
    · rename_i hne
      exact contains_frame.trans hreal (hf real ⟨hne, hcwd.inside hr⟩ _)

theorem vrtFopen_contains (path : Str) (mode : Mode) : Keeps (Contains disk) (vrtFopen cwd path mode) :=
  withVirtualPath_contains hcwd (fun _ hp => fopen_contains hp mode) path none

theorem vrtUnlink_contains (path : Str) : Keeps (Contains disk) (vrtUnlink cwd path) :=
  withVirtualPath_contains hcwd
    (fun _ hp => fileCall_contains fun w => contains_setDisk w hp none) path (-1)

theorem vrtRename_contains (fromPath toPath : Str) :
    Keeps (Contains disk) (vrtRename cwd fromPath toPath) := by
  intro w
  have hreal : Contains disk w (toRealPath cwd toPath w).2 := toRealPath_keeps contains_lookups cwd toPath w
  simp only [vrtRename, bind_run]
  cases hr : (toRealPath cwd toPath w).1 with
  | none => exact hreal
  | some real =>
    simp +instances only [ite_run, pure_run]
    split
    · exact hreal
    · rename_i hne
      exact contains_frame.trans hreal (withVirtualPath_contains hcwd
        (fun _ hp => rename_contains hp ⟨hne, hcwd.inside hr⟩) fromPath (-1) _)

theorem vrtDiropen_contains (path : Str) : Keeps (Contains disk) (vrtDiropen cwd path) := by
  have hF : Frame (Contains disk) := contains_frame
  refine .bind hF (toRealPath_keeps contains_lookups cwd path) fun o => ?_
  cases o with
  | none => exact .pure hF _
  | some real =>
    refine .ite (.bind hF (malloc_keeps contains_lookups) fun _ => .ite ?_ (.pure hF _)) ?_
    · exact Keeps.map (openStream_contains fun p hp => by simp [Target.path] at hp)
    · exact withVirtualPath_contains hcwd (fun _ hp => diropen_contains hp) path none

end Contains

/-! ## Sessions -/

structure Session.Contained (disk : Str → Option Str) (s : Session) : Prop where
  cwd : Confined s.client.cwd
  world : s.world.Contained disk

def StaysContained (disk : Str → Option Str) (s s' : Session) : Prop :=
  s.Contained disk → s'.Contained disk

section StaysContained

variable {disk : Str → Option Str}

theorem staysContained_frame : Frame (StaysContained disk) where
  refl _ := id
  trans h h' hs := h' (h hs)

theorem Contains.stays (c : Client) {w w' : World} (h : Contains disk w w') :
    At (StaysContained disk) c w w' := fun hs => ⟨hs.cwd, h hs.world⟩

theorem staysContained_client (s : Session) {c : Client} (h : c.cwd = s.client.cwd) :
    StaysContained disk s { s with client := c } := fun hs => ⟨h ▸ hs.cwd, hs.world⟩

theorem os_contained {α : Type} {m : Os α} (hm : Keeps (Contains disk) m) :
    Keeps (StaysContained disk) (os m) := fun s => (hm s.world).stays s.client

theorem staysContained_sockets (c : Client) : UsesSockets (At (StaysContained disk) c) :=
  contains_sockets.imp (frameAt staysContained_frame c) fun _ _ h => h.stays c

theorem staysContained_closing (c : Client) : Closing (fun _ => True) (At (StaysContained disk) c) where
  toFrame := frameAt staysContained_frame c
  answers w a ha := (contains_lookups.answers w a ha).stays c
  errno w e := (contains_lookups.errno w e).stays c
  flushed w h st path content hh hst hp :=
    (contains_closing.flushed w h st path content hh hst hp).stays c
  stream w h st st' hh hst he ht := (contains_closing.stream w h st st' hh hst he ht).stays c
  close w h st hh hst := (contains_closing.close w h st hh hst).stays c

theorem staysContained_emit (s : Session) (e : Event) :
    StaysContained disk s { s with world := s.world.emit s.client.conn e } :=
  (contains_emit s.world s.client.conn e).stays s.client

theorem staysContained_replies : Replies (StaysContained disk) :=
  .of_sends staysContained_frame (fun c => (staysContained_sockets c).toSends.mono fun _ _ => trivial)
    fun s _ _ _ => staysContained_emit s _

theorem staysContained_transfer : UpdatesTransfer (StaysContained disk) where
  unprepared s _ := staysContained_emit s _
  dataSocket s _ := staysContained_client s rfl
  prepared s _ _ _ _ := staysContained_client s rfl

theorem staysContained_statics (s : Session) (p : UInt16) (q : Option Str) (r d : Bool) :
    StaysContained disk s { s with world :=
      { s.world with passivePort := p, password := q, resetFlag := r, dolStarted := d } } :=
  fun hs => ⟨hs.cwd, hs.world.targets, hs.world.renames, hs.world.disk⟩

theorem client_contained {m : Client → Ses Int}
    (h : ∀ c, Confined c.cwd → Keeps (StaysContained disk) (m c)) :
    Keeps (StaysContained disk) (do
      let c ← client
      m c) := fun s hs => h s.client hs.cwd s hs

theorem changeDirectory_contained (path msg : Str) :
    Keeps (StaysContained disk) (changeDirectory path msg) := by
  have hF : Frame (OnWorld (Contains disk)) := OnWorld.frame contains_frame
  have hr : Replies (OnWorld (Contains disk)) :=
    .of_sends hF (fun _ => contains_sockets.toSends.mono fun _ _ => trivial)
      fun s _ _ _ => contains_emit s.world _ _
  refine fun s hs => ⟨changeDirectory_confined path msg s hs.cwd, ?_⟩
  have hworld : Keeps (OnWorld (Contains disk)) (changeDirectory path msg) :=
    .bind hF (.gets hF _) fun _ => .bind hF (os_keeps fun _ => vrtChdir_keeps contains_lookups _ _)
      fun _ => .bind hF (update_keeps fun s => contains_frame.refl s.world) fun _ =>
        replyOr_keeps hr _ _ (replyErrno_keeps hr)
  exact hworld s hs.world

theorem ftpDele_contained (path : Str) : Keeps (StaysContained disk) (ftpDele path) :=
  client_contained fun _ hc => .bind staysContained_frame (os_contained (vrtUnlink_contains hc path))
    fun _ => replyOr_keeps staysContained_replies _ _ (replyErrno_keeps staysContained_replies)

theorem ftpMkd_contained (path : Str) : Keeps (StaysContained disk) (ftpMkd path) := by
  have hr : Replies (StaysContained disk) := staysContained_replies
  have hF := hr.toFrame
  refine .ite (syntaxError_keeps hr) <| client_contained fun c _ =>
    .bind hF (os_contained (vrtMkdir_keeps contains_lookups _ _)) fun _ =>
      .ite ?_ (replyErrno_keeps hr)
  exact .bind hF (os_contained (vrtChdir_keeps contains_lookups _ _)) fun _ => writeReply_keeps hr _ _

theorem ftpSize_contained (path : Str) : Keeps (StaysContained disk) (ftpSize path) :=
  client_contained fun _ _ => .bind staysContained_frame
    (os_contained (vrtStat_keeps contains_lookups _ _)) fun _ =>
      replyOr_keeps staysContained_replies _ _ (replyErrno_keeps staysContained_replies)

theorem ftpRnto_contained (path : Str) : Keeps (StaysContained disk) (ftpRnto path) := by
  have hr : Replies (StaysContained disk) := staysContained_replies
  have hF := hr.toFrame
  refine client_contained fun c hc => .ite (writeReply_keeps hr _ _) <|
    .bind hF (os_contained (vrtRename_contains hc _ path)) fun _ => ?_
  exact .bind hF (replyOr_keeps hr _ _ (replyErrno_keeps hr)) fun _ =>
    .bind hF (update_keeps fun s => staysContained_client s rfl) fun _ => .pure hF _

/-- A handler that opens a stream below the client's directory and uses it. -/
theorem AsksStream.contained {n : Ses Int} {call : Str → Os (Option Nat)} {refuse : Ses Int}
    {use : Str → Nat → Ses Int} (run : AsksStream n call refuse use)
    (hcall : ∀ cwd, Confined cwd → Keeps (Contains disk) (call cwd))
    (hrefuse : Keeps (StaysContained disk) refuse)
    (huse : ∀ cwd f, Keeps (StaysContained disk) (use cwd f)) : Keeps (StaysContained disk) n := by
  intro s hs
  have hopen := os_contained (hcall s.client.cwd hs.cwd) s hs
  rw [run s]
  cases (call s.client.cwd s.world).1 with
  | none => exact hrefuse _ hopen
  | some f => exact huse _ f _ hopen

theorem transfer_contained (callback : Callback) (arg : Nat) (cleanup : Cleanup) :
    Keeps (StaysContained disk) (transfer callback arg cleanup) :=
  transfer_keeps staysContained_replies staysContained_sockets staysContained_closing
    staysContained_transfer callback arg cleanup

theorem seekToMarker_contained (f : Nat) {proceed : Ses Int}
    (hp : Keeps (StaysContained disk) proceed) :
    Keeps (StaysContained disk) (seekToMarker f proceed) :=
  seekToMarker_keeps staysContained_replies staysContained_closing
    (fun s _ => staysContained_client s rfl) f hp

theorem listDirectory_contained (callback : Callback) (path : Str) :
    Keeps (StaysContained disk) (listDirectory callback path) :=
  (listDirectory_asks callback path).contained (fun _ hc => vrtDiropen_contains hc _)
    (replyErrno_keeps staysContained_replies) fun _ _ => transfer_contained _ _ _

theorem ftpStor_contained (path : Str) : Keeps (StaysContained disk) (ftpStor path) :=
  (ftpStor_asks path).contained (fun _ hc => vrtFopen_contains hc path .wb)
    (.bind staysContained_frame (update_keeps fun s => staysContained_client s rfl) fun _ =>
      replyErrno_keeps staysContained_replies)
    fun _ f => seekToMarker_contained f (transfer_contained _ _ _)

theorem ftpSiteLoad_contained (path : Str) : Keeps (StaysContained disk) (ftpSiteLoad path) := by
  have hr : Replies (StaysContained disk) := staysContained_replies
  refine (ftpSiteLoad_asks path).contained (fun _ hc => vrtFopen_contains hc path .rb)
    (replyErrno_keeps hr) fun cwd f => ?_
  refine .bind hr.toFrame (os_contained ?_) fun _ =>
    .bind hr.toFrame (os_contained (runCleanup_keeps contains_closing _ trivial)) fun _ =>
      writeReply_keeps hr _ _
  refine .bind contains_frame (toRealPath_keeps contains_lookups cwd path) fun o => ?_
  cases o with
  | none => exact .pure contains_frame _
  | some real =>
    exact loadFromFile_keeps contains_closing.toStreaming
      (fun _ => .of_same rfl rfl fun _ _ => id) trivial

theorem staysContained_handled (cmdLine : Str) : Handled (StaysContained disk) cmdLine := by
  have hr : Replies (StaysContained disk) := staysContained_replies
  have hpassive : ∀ (s : Session) fd, StaysContained disk s
      { s with client := { s.client with passiveSocket := fd } } := fun s _ => staysContained_client s rfl
  exact
    { toReplies := hr
      pass := fun _ => ftpPass_keeps hr fun s => staysContained_client s rfl
      list := fun _ path => listDirectory_contained _ _
      cwd := fun _ path => changeDirectory_contained path _
      cdup := fun _ _ => changeDirectory_contained _ _
      size := fun _ => ftpSize_contained
      pasv := fun _ => ftpPasv_keeps staysContained_sockets hpassive hr fun s p =>
        staysContained_statics s p s.world.password s.world.resetFlag s.world.dolStarted
      port := fun _ => ftpPort_keeps staysContained_sockets hpassive hr fun s _ =>
        staysContained_client s rfl
      type := fun _ => ftpType_keeps hr fun s _ => staysContained_client s rfl
      retr := fun _ path => (ftpRetr_asks path).contained (fun _ hc => vrtFopen_contains hc path .rb)
        (replyErrno_keeps hr) fun _ f => seekToMarker_contained f (transfer_contained _ _ _)
      stor := fun _ => ftpStor_contained
      appe := fun _ path => (ftpAppe_asks path).contained (fun _ hc => vrtFopen_contains hc path .ab)
        (replyErrno_keeps hr) fun _ f => transfer_contained _ _ _
      rest := fun _ => ftpRest_keeps hr fun s _ => staysContained_client s rfl
      dele := fun _ => ftpDele_contained
      mkd := fun _ => ftpMkd_contained
      rnfr := fun _ => ftpRnfr_keeps hr fun s _ => staysContained_client s rfl
      rnto := fun _ => ftpRnto_contained
      nlst := fun _ path => listDirectory_contained _ _
      rein := fun _ => ftpRein_keeps staysContained_sockets hpassive hr fun s hs =>
        ⟨confined_root, hs.world⟩
      site := fun _ => ftpSite_keeps hr
        (fun c => (contains_devices.imp (frameAt staysContained_frame c) fun _ _ h => h.stays c).mounts)
        (fun s p => staysContained_statics s s.world.passivePort p s.world.resetFlag s.world.dolStarted)
        (fun s => staysContained_statics s s.world.passivePort s.world.password true s.world.dolStarted)
        ftpSiteLoad_contained }

/-! ## Turns -/

theorem staysContained_data : DataUse (StaysContained disk) where
  toReplies := staysContained_replies
  sockets := staysContained_sockets
  streams := staysContained_closing
  data s _ _ _ _ _ _ := staysContained_client s rfl

theorem staysContained_control : ControlUse (StaysContained disk) where
  toFrame := staysContained_frame
  sockets := staysContained_sockets
  event s e := staysContained_emit s e
  buffer s _ _ := staysContained_client s rfl
  command cmdLine := processCommand_keeps (staysContained_handled cmdLine) fun s _ _ =>
    staysContained_emit s _

theorem turn_contained (c : Client) : Keeps (StaysContained disk) (turn c) :=
  .ite (dataEvents_keeps staysContained_data) (controlEvents_keeps staysContained_control.reads)

theorem closeSockets_contained : Keeps (StaysContained disk) closeSockets :=
  closeSockets_keeps staysContained_data.releases fun s _ => staysContained_client s rfl

end StaysContained

/-! ## The server -/

structure Server.Contained (disk : Str → Option Str) (s : Server) : Prop where
  cwd : ∀ p c, s.heap p = some c → Confined c.cwd
  world : s.world.Contained disk

section Server

variable {disk : Str → Option Str} {s : Server}

theorem Server.Contained.same (h : s.Contained disk) {w : World} (hw : Contains disk s.world w)
    (server : Int) (down halted : Bool) (n : Nat) : Server.Contained disk { s with
      world := w, server := server, networkDown := down, halted := halted, nextClient := n } :=
  ⟨h.cwd, hw h.world⟩

theorem Server.Contained.session (h : s.Contained disk) {p : Nat} {c : Client}
    (hp : s.heap p = some c) : Session.Contained disk ⟨c, s.world⟩ := ⟨h.cwd p c hp, h.world⟩

theorem Server.Contained.turn (h : s.Contained disk) {p : Nat} {t : Session}
    (ht : t.Contained disk) : (s.withSession p t).Contained disk := by
  refine ⟨fun q c hq => ?_, ht.world⟩
  by_cases he : q = p
  · subst he
    obtain rfl : t.client = c := by simpa [Server.withSession] using hq
    exact ht.cwd
  · exact h.cwd q c (by simpa [Server.withSession, he] using hq)

theorem Idle.contains {w w' : World} (hi : Idle w w') : Contains disk w w' := by
  obtain ⟨a, e, d, r, l, rfl, hl⟩ := hi
  refine .of_same rfl rfl fun x y hxy => ?_
  rcases List.mem_append.mp hxy with hold | hnew
  · exact hold
  · obtain ⟨fd, b, he⟩ := hl _ hnew
    contradiction

theorem greeted_contained {w w' : World} {peer : Int} (address : SockAddr) (hs : s.Contained disk)
    (hclosed : s.world.socks peer = none) (hi : Idle s.world w)
    (hi' : Idle (w.openedSock peer) w') : (greeted w' peer address).Contained disk := by
  have hw : Contains disk s.world w' := contains_frame.trans hi.contains <|
    contains_frame.trans (contains_sockets.opened w peer (by rw [hi.socks, hclosed])) hi'.contains
  exact writeReply_keeps staysContained_replies _ _ ⟨newClient w' peer address, w'⟩
    ⟨confined_root, hw hs.world⟩

theorem survives_contained (disk : Str → Option Str) : Survives (Server.Contained disk) where
  idle server down halted _ hs hi := hs.same hi.contains server down halted _
  away {s w w' peer} _ hs _ hclosed hi hi' := by
    have hw : Contains disk s.world w' := contains_frame.trans hi.contains <|
      contains_frame.trans (contains_sockets.opened w peer (by rw [hi.socks, hclosed])) hi'.contains
    exact hs.same (contains_frame.trans hw (netClose_keeps contains_sockets peer w')) s.server
      s.networkDown s.halted _
  ungreeted {s w w' peer} address _ hs _ hclosed hi hi' := by
    have hgreet := (greeted_contained address hs hclosed hi hi').world
    exact hs.same (fun _ => netCloseBlocking_keeps contains_sockets peer _ hgreet) s.server
      s.networkDown s.halted _
  enter {s w w' peer i} address _ hs _ hclosed hi hi' _ := by
    have hgreet := greeted_contained address hs hclosed hi hi'
    refine ⟨fun q c hq => ?_, hgreet.world⟩
    by_cases he : q = s.nextClient
    · subst he
      obtain rfl : (greeted w' peer address).client = c := by simpa [Server.entering] using hq
      exact hgreet.cwd
    · exact hs.cwd q c (by simpa [Server.entering, he] using hq)
  stay {s p c} _ hs hp _ := hs.turn (turn_contained c _ (hs.session hp))
  leave {s i p c m} _ hs _ hp hm := by
    have ht : (m ⟨c, s.world⟩).2.Contained disk := by
      rcases hm with rfl | rfl
      · exact turn_contained c _ (hs.session hp)
      · exact writeReply_keeps staysContained_replies _ _ _ (hs.session hp)
    refine ⟨fun q d hq => ?_, (closeSockets_contained _ ht).world⟩
    have hne : q ≠ p := by
      rintro rfl
      simp [Server.without] at hq
    exact hs.cwd q d (by simpa [Server.without, Server.withSession, hne] using hq)
  finish {s} _ hs _ := hs.same (netClose_keeps contains_sockets s.server s.world) s.server
    s.networkDown s.halted _

theorem contained_initial (h : s.Initial) : s.Contained s.world.disk := by
  obtain ⟨disk, mounted, strerror, password, rfl⟩ := h.eq
  constructor
  · simp [Server.boot]
  · constructor <;> simp [Server.boot, World.boot]

/-- Whatever any number of clients ask for in whatever order, what is read and written is inside
partitions: every stream, every rename and every change of the disk since the start. -/
theorem files_contained {s₀ : Server} (h₀ : s₀.Initial)
    (h : Reach (· = s₀) Server.step (fun _ _ => True) s) : s.Contained s₀.world.disk := by
  have hboth : WellFormed s ∧ s.Contained s₀.world.disk := by
    refine Reach.invariant (I := fun s => WellFormed s ∧ s.Contained s₀.world.disk) (fun t ht => ?_)
      (fun t l ht _ => ?_) h
    · subst ht
      exact ⟨h₀.wellFormed, contained_initial h₀⟩
    · refine (survives_contained s₀.world.disk).step ht.1 ht.2 l fun _ w server down halted hn => ?_
      have hw : Contains s₀.world.disk t.world w := hn _ contains_sockets fun v =>
        .recorded rfl rfl rfl fun _ _ => by simp
      exact ht.2.same hw server down halted _
  exact hboth.2

end Server

/-- A client that renames a file on its way through other directories. -/
def renamingRun : List Label :=
  connecting [{ data := "PASS x\r\nRNFR ../sd//a\r\nRNTO /usb/../sd/./b\r\n".toList }] ++ [firstTurn]

example : .rename "sd:/a".toList "sd:/b".toList ∈ (Server.after renamingRun).world.log := by
  decide +kernel

theorem files_contained_renaming :
    (Server.after renamingRun).Contained Server.loaded.world.disk := by
  have hstart : Reach (· = Server.loaded) Server.step (fun _ _ => True) Server.loaded := .init rfl
  exact files_contained ⟨_, _, _, [], rfl⟩ (hstart.foldl renamingRun)

end Ftpii
