import Ftpii.EventFootprint
set_option autoImplicit false

/-!
What opening, seeking and closing do to the streams: one case lemma for each
call, with the whole world it leaves.
-/

namespace Ftpii
open StateProgram Prog

/-- Only coming outcomes were consumed and errno set. -/
def Looked (w w' : World) : Prop := ∃ a e, w' = { w with answers := a, errno := e }

theorem lookups_looked : Lookups Looked where
  refl w := ⟨w.answers, w.errno, rfl⟩
  trans := by
    rintro _ _ _ ⟨a, e, rfl⟩ ⟨a', e', rfl⟩
    exact ⟨a', e', rfl⟩
  answers w a _ := ⟨a, w.errno, rfl⟩
  errno w e := ⟨w.answers, e, rfl⟩

theorem Looked.streams {w w' : World} (h : Looked w w') : w'.streams = w.streams := by
  obtain ⟨_, _, rfl⟩ := h
  rfl

theorem Looked.nextStream {w w' : World} (h : Looked w w') : w'.nextStream = w.nextStream := by
  obtain ⟨_, _, rfl⟩ := h
  rfl

theorem Looked.disk {w w' : World} (h : Looked w w') : w'.disk = w.disk := by
  obtain ⟨_, _, rfl⟩ := h
  rfl

def Mode.openDisk (mode : Mode) (disk : Str → Option Str) (path : Str) : Str → Option Str :=
  match mode with
  | .rb => disk
  | .wb => Function.update disk path (some [])
  | .ab => if disk path = none then Function.update disk path (some []) else disk

def World.opened (w : World) (t : Target) (disk : Str → Option Str) : World :=
  { w with
    disk := disk
    nextStream := w.nextStream + 1
    streams := Function.update w.streams w.nextStream (some { target := t }) }

theorem fopen_cases (path : Str) (mode : Mode) (w : World) :
    ((fopen path mode w).1 = none ∧ Looked w (fopen path mode w).2) ∨
      ∃ w', Looked w w' ∧ (mode = .rb → (w.disk path).isSome) ∧
        fopen path mode w =
          (some w.nextStream, w'.opened (.file path mode) (mode.openDisk w.disk path)) := by
  obtain ⟨as, e, ha⟩ : Looked w (fileAnswer w).2 :=
    fileAnswer_keeps lookups_looked.toFrame lookups_looked.answers w
  have hl : Looked w (fileAnswer w).2 := ⟨as, e, ha⟩
  have hd := hl.disk
  have hn := hl.nextStream
  simp only [fopen, bind_run, get_run, ite_run]
  split
  · exact .inl ⟨rfl, lookups_looked.trans hl (lookups_looked.errno _ _)⟩
  · cases mode with
    | rb =>
      cases hp : w.disk path with
      | none =>
        rw [hd, hp]
        exact .inl ⟨rfl, lookups_looked.trans hl (lookups_looked.errno _ _)⟩
      | some c =>
        rw [hd, hp]
        refine .inr ⟨_, hl, fun _ => rfl, ?_⟩
        simp [openStream, World.opened, World.setStream, Mode.openDisk, hn, ← hd]
    | wb =>
      refine .inr ⟨_, hl, (fun h => nomatch h), ?_⟩
      simp [openStream, World.opened, World.setStream, World.setDisk, Mode.openDisk, hn, hd]
    | ab =>
      cases hp : w.disk path with
      | none =>
        rw [hd, hp]
        refine .inr ⟨_, hl, (fun h => nomatch h), ?_⟩
        simp [openStream, World.opened, World.setStream, World.setDisk, Mode.openDisk, hn, hd, hp]
      | some c =>
        rw [hd, hp]
        refine .inr ⟨_, hl, (fun h => nomatch h), ?_⟩
        simp [openStream, World.opened, World.setStream, Mode.openDisk, hn, hp, ← hd]

theorem vrtFopen_cases (cwd path : Str) (mode : Mode) (w : World) :
    ((vrtFopen cwd path mode w).1 = none ∧ Looked w (vrtFopen cwd path mode w).2) ∨
      ∃ real w', (toRealPath cwd path w).1 = some real ∧ Looked w w' ∧
        (mode = .rb → (w.disk real).isSome) ∧
        vrtFopen cwd path mode w =
          (some w.nextStream, w'.opened (.file real mode) (mode.openDisk w.disk real)) := by
  have hl : Looked w (toRealPath cwd path w).2 := toRealPath_keeps lookups_looked cwd path w
  simp only [vrtFopen, withVirtualPath, bind_run]
  cases hr : (toRealPath cwd path w).1 with
  | none => exact .inl ⟨rfl, hl⟩
  | some real =>
    simp only [ite_run]
    split
    · exact .inl ⟨rfl, hl⟩
    · rcases fopen_cases real mode (toRealPath cwd path w).2 with ⟨hn, hf⟩ | ⟨w', hw, hrb, hf⟩
      · exact .inl ⟨hn, lookups_looked.trans hl hf⟩
      · rw [hl.disk, hl.nextStream] at hf
        rw [hl.disk] at hrb
        exact .inr ⟨real, w', rfl, lookups_looked.trans hl hw, hrb, hf⟩

theorem diropen_cases (path : Str) (w : World) :
    ((diropen path w).1 = none ∧ Looked w (diropen path w).2) ∨
      ∃ w', Looked w w' ∧ diropen path w = (some w.nextStream, w'.opened (.dir path) w.disk) := by
  have hl : Looked w (fileAnswer w).2 :=
    fileAnswer_keeps lookups_looked.toFrame lookups_looked.answers w
  have hn := hl.nextStream
  simp only [diropen, bind_run, ite_run]
  split
  · exact .inl ⟨rfl, lookups_looked.trans hl (lookups_looked.errno _ _)⟩
  · refine .inr ⟨_, hl, ?_⟩
    simp [openStream, World.opened, World.setStream, hn, ← hl.disk]

theorem vrtDiropen_cases (cwd path : Str) (w : World) :
    ((vrtDiropen cwd path w).1 = none ∧ Looked w (vrtDiropen cwd path w).2) ∨
      ∃ t w', Looked w w' ∧ vrtDiropen cwd path w = (some w.nextStream, w'.opened t w.disk) := by
  have hl : Looked w (toRealPath cwd path w).2 := toRealPath_keeps lookups_looked cwd path w
  simp only [vrtDiropen, bind_run]
  cases hr : (toRealPath cwd path w).1 with
  | none => exact .inl ⟨rfl, hl⟩
  | some real =>
    simp only [ite_run, bind_run]
    split
    · have hm := lookups_looked.trans hl (malloc_keeps lookups_looked _)
      split
      · refine .inr ⟨.root 0, _, hm, ?_⟩
        simp [openStream, World.opened, World.setStream, hm.nextStream, ← hm.disk]
      · exact .inl ⟨rfl, hm⟩
    · have hl' := lookups_looked.trans hl (toRealPath_keeps lookups_looked cwd path _)
      simp only [withVirtualPath, bind_run]
      cases hr' : (toRealPath cwd path (toRealPath cwd path w).2).1 with
      | none => exact .inl ⟨rfl, hl'⟩
      | some real' =>
        simp only [ite_run]
        split
        · exact .inl ⟨rfl, hl'⟩
        · rcases diropen_cases real' (toRealPath cwd path (toRealPath cwd path w).2).2 with
            ⟨hn, hf⟩ | ⟨w', hw, hf⟩
          · exact .inl ⟨hn, lookups_looked.trans hl' hf⟩
          · rw [hl'.disk, hl'.nextStream] at hf
            exact .inr ⟨.dir real', w', lookups_looked.trans hl' hw, hf⟩

/-- A seek moves the stream to the offset, or fails and moves nothing. -/
theorem lseek_cases (h offset : Nat) (w : World) :
    ((lseek h offset w).1 = -1 ∧ Looked w (lseek h offset w).2) ∨
      ∃ w', Looked w w' ∧ lseek h offset w =
        ((offset : Int), match w.streams h with
          | none => w'
          | some st => w'.setStream h { st with pos := offset, start := offset, eof := false }) := by
  have hl : Looked w (fileAnswer w).2 :=
    fileAnswer_keeps lookups_looked.toFrame lookups_looked.answers w
  simp only [lseek, bind_run, ite_run, modify_run, pure_run]
  split
  · exact .inl ⟨rfl, lookups_looked.trans hl (lookups_looked.errno _ _)⟩
  · refine .inr ⟨_, hl, ?_⟩
    cases hs : w.streams h <;> simp [hl.streams, hs]

theorem closeStream_streams (w : World) (h : Nat) {st : Stream} (hst : w.streams h = some st) :
    (w.closeStream h).streams =
      Function.update w.streams h (some { st with closes := st.closes + 1, pending := [] }) := by
  simp [World.closeStream, hst, World.setStream]

/-! ## What leaves files alone -/

structure SameFiles (s s' : Session) : Prop where
  streams : s'.world.streams = s.world.streams
  nextStream : s'.world.nextStream = s.world.nextStream
  disk : s'.world.disk = s.world.disk

theorem sameFiles_frame : Frame SameFiles where
  refl _ := ⟨rfl, rfl, rfl⟩
  trans h h' := ⟨h'.1.trans h.1, h'.2.trans h.2, h'.3.trans h.3⟩

theorem sameFiles_sockets (c : Client) : UsesSockets (At SameFiles c) where
  toFrame := frameAt sameFiles_frame c
  answers _ _ _ := ⟨rfl, rfl, rfl⟩
  shrink _ := ⟨rfl, rfl, rfl⟩
  flags _ _ _ _ _ _ := ⟨rfl, rfl, rfl⟩
  write _ _ _ _ _ _ _ _ := ⟨rfl, rfl, rfl⟩
  opened _ _ _ := ⟨rfl, rfl, rfl⟩
  bound _ _ _ _ _ := ⟨rfl, rfl, rfl⟩
  listening _ _ _ _ := ⟨rfl, rfl, rfl⟩
  closed _ _ := ⟨rfl, rfl, rfl⟩
  waits _ _ _ := ⟨rfl, rfl, rfl⟩
  connects _ _ _ := ⟨rfl, rfl, rfl⟩
  received _ _ _ _ _ := ⟨rfl, rfl, rfl⟩

theorem sameFiles_replies : Replies SameFiles :=
  .of_sends sameFiles_frame (fun c => (sameFiles_sockets c).toSends.mono fun _ _ => trivial)
    fun _ _ _ _ => ⟨rfl, rfl, rfl⟩

theorem sameFiles_transfer : UpdatesTransfer SameFiles where
  unprepared _ _ := ⟨rfl, rfl, rfl⟩
  dataSocket _ _ := ⟨rfl, rfl, rfl⟩
  prepared _ _ _ _ _ := ⟨rfl, rfl, rfl⟩

theorem prepareDataConnection_sameFiles (callback : Callback) (arg : Nat) (cleanup : Cleanup) :
    Keeps SameFiles (prepareDataConnection callback arg cleanup) :=
  prepareDataConnection_keeps sameFiles_replies sameFiles_sockets sameFiles_transfer _ _ _

/-! ## Where streams start -/

def SameStarts (w w' : World) : Prop :=
  ∀ k st', w'.streams k = some st' → ∃ st, w.streams k = some st ∧ st'.start = st.start

theorem sameStarts_frame : Frame SameStarts where
  refl _ _ st h := ⟨st, h, rfl⟩
  trans h h' _ st'' hs := by
    obtain ⟨st', hst', he'⟩ := h' _ st'' hs
    obtain ⟨st, hst, he⟩ := h _ st' hst'
    exact ⟨st, hst, he'.trans he⟩

theorem sameStarts_setStream {w : World} {h : Nat} {st st' : Stream} (hst : w.streams h = some st)
    (he : st'.start = st.start) : SameStarts w (w.setStream h st') := by
  intro k t ht
  by_cases hk : k = h
  · subst hk
    obtain rfl : st' = t := by simpa [World.setStream] using ht
    exact ⟨st, hst, he⟩
  · exact ⟨t, by simpa [World.setStream, hk] using ht, rfl⟩

theorem sameStarts_of_streams {w w' : World} (h : w'.streams = w.streams) : SameStarts w w' :=
  fun _ st hs => ⟨st, h ▸ hs, rfl⟩

theorem flush_sameStarts (w : World) (h n : Nat) : SameStarts w (w.flush h n) := by
  unfold World.flush
  split
  · exact sameStarts_frame.refl w
  · rename_i st hst
    split
    · split
      · exact sameStarts_frame.refl w
      · exact sameStarts_setStream hst rfl
    · exact sameStarts_frame.refl w

theorem closeStream_sameStarts (w : World) (h : Nat) : SameStarts w (w.closeStream h) := by
  unfold World.closeStream
  split
  · exact sameStarts_frame.refl w
  · rename_i st hst
    exact sameStarts_setStream hst rfl

theorem fclose_sameStarts (h : Nat) : Keeps SameStarts (fclose h) := by
  have hF := sameStarts_frame
  refine .bind hF (fileAnswer_keeps hF fun w a _ => sameStarts_of_streams rfl) fun a =>
    .bind hF (fun w => ?_) fun _ => .pure hF _
  simp only [modify_run]
  split
  · exact hF.refl w
  · exact hF.trans (flush_sameStarts w h _) (closeStream_sameStarts _ h)

theorem runCleanup_sameStarts (cleanup : Cleanup) (arg : Nat) :
    Keeps SameStarts (runCleanup cleanup arg) := by
  have hF := sameStarts_frame
  cases cleanup with
  | vrtDirclose =>
    exact .bind hF (.bind hF (fun w => closeStream_sameStarts w arg) fun _ => .pure hF _)
      fun _ => .pure hF _
  | fclose => exact .bind hF (fclose_sameStarts arg) fun _ => .pure hF _

/-- A relation between worlds, the client aside. -/
def OnWorld (P : World → World → Prop) (s s' : Session) : Prop := P s.world s'.world

theorem OnWorld.frame {P : World → World → Prop} (hP : Frame P) : Frame (OnWorld P) where
  refl _ := hP.refl _
  trans h h' := hP.trans h h'

theorem releases_onWorld {P : World → World → Prop} (hs : UsesSockets P) (hf : UsesStreams P) :
    Releases (OnWorld P) where
  toFrame := OnWorld.frame hs.toFrame
  close fd := os_keeps fun _ => netCloseBlocking_keeps hs fd
  streams _ := hf.toClosing
  data _ _ _ _ _ _ _ := hs.refl _

theorem SameFiles.sameStarts {s s' : Session} (h : SameFiles s s') : OnWorld SameStarts s s' :=
  sameStarts_of_streams h.streams

theorem transfer_sameStarts (callback : Callback) (arg : Nat) (cleanup : Cleanup) :
    Keeps (OnWorld SameStarts) (transfer callback arg cleanup) := by
  have hF := OnWorld.frame sameStarts_frame
  refine .bind hF (fun s => (prepareDataConnection_sameFiles _ _ _ s).sameStarts) fun _ =>
    .ite (.bind hF (fun s => runCleanup_sameStarts cleanup arg s.world) fun _ => .pure hF _)
      (.pure hF _)

theorem writeReply_sameFiles (code : Nat) (msg : Str) : Keeps SameFiles (writeReply code msg) :=
  writeReply_keeps sameFiles_replies code msg

/-! ## Everything a client does to the world -/

/-- What only PASV and SITE write. -/
def SameStatics (w w' : World) : Prop :=
  w'.strerror = w.strerror ∧ w'.passivePort = w.passivePort ∧ w'.password = w.password

theorem sameStatics_frame : Frame SameStatics where
  refl _ := ⟨rfl, rfl, rfl⟩
  trans h h' := ⟨h'.1.trans h.1, h'.2.1.trans h.2.1, h'.2.2.trans h.2.2⟩

theorem sameStatics_sockets : UsesSockets SameStatics where
  toFrame := sameStatics_frame
  answers _ _ _ := ⟨rfl, rfl, rfl⟩
  shrink _ := ⟨rfl, rfl, rfl⟩
  flags _ _ _ _ _ _ := ⟨rfl, rfl, rfl⟩
  write _ _ _ _ _ _ _ _ := ⟨rfl, rfl, rfl⟩
  opened _ _ _ := ⟨rfl, rfl, rfl⟩
  bound _ _ _ _ _ := ⟨rfl, rfl, rfl⟩
  listening _ _ _ _ := ⟨rfl, rfl, rfl⟩
  closed _ _ := ⟨rfl, rfl, rfl⟩
  waits _ _ _ := ⟨rfl, rfl, rfl⟩
  connects _ _ _ := ⟨rfl, rfl, rfl⟩
  received _ _ _ _ _ := ⟨rfl, rfl, rfl⟩

theorem sameStatics_streams : UsesStreams SameStatics where
  toFrame := sameStatics_frame
  answers _ _ _ := ⟨rfl, rfl, rfl⟩
  errno _ _ := ⟨rfl, rfl, rfl⟩
  disk _ _ := ⟨rfl, rfl, rfl⟩
  renamed _ _ _ := ⟨rfl, rfl, rfl⟩
  opened _ _ := ⟨rfl, rfl, rfl⟩
  stream _ _ _ _ _ _ := ⟨rfl, rfl, rfl⟩
  close _ _ _ _ := ⟨rfl, rfl, rfl⟩

theorem sameStatics_devices : UsesDevices SameStatics where
  toFrame := sameStatics_frame
  answers _ _ _ := ⟨rfl, rfl, rfl⟩
  devices _ _ := ⟨rfl, rfl, rfl⟩

/-- What every handler keeps of the world, PASV and SITE apart. -/
theorem handled_onWorld {P : World → World → Prop} (hs : UsesSockets P) (hf : UsesStreams P)
    (emit : ∀ (w : World) k e, P w (w.emit k e)) {line : Str}
    (pasv : Named "PASV" line → ∀ rest, Keeps (OnWorld P) (ftpPasv rest))
    (site : Named "SITE" line → ∀ rest, Keeps (OnWorld P) (ftpSite rest)) :
    Handled (OnWorld P) line := by
  have hF := hs.toFrame
  have hr : Replies (OnWorld P) := .of_sends (OnWorld.frame hF)
    (fun _ => hs.toSends.mono fun _ _ => trivial) fun _ _ _ _ => emit _ _ _
  have hsc : ∀ c, UsesSockets (At (OnWorld P) c) := fun _ => hs
  have hfc : ∀ c, UsesStreams (At (OnWorld P) c) := fun _ => hf
  have hpc : ∀ c, UsesPaths (At (OnWorld P) c) := fun _ => hf.toUsesPaths
  have hu : UpdatesTransfer (OnWorld P) :=
    ⟨fun _ _ => emit _ _ _, fun _ _ => hF.refl _, fun _ _ _ _ _ => hF.refl _⟩
  exact
    { toReplies := hr
      pass := fun _ => ftpPass_keeps hr fun _ => hF.refl _
      list := fun _ _ => listDirectory_keeps hr hsc hfc hu _ _
      cwd := fun _ path => changeDirectory_keeps hr hpc (fun _ _ => hF.refl _) path _
      cdup := fun _ _ => changeDirectory_keeps hr hpc (fun _ _ => hF.refl _) _ _
      size := fun _ => ftpSize_keeps hr hpc
      pasv := pasv
      port := fun _ => ftpPort_keeps hsc (fun _ _ => hF.refl _) hr fun _ _ => hF.refl _
      type := fun _ => ftpType_keeps hr fun _ _ => hF.refl _
      retr := fun _ => ftpRetr_keeps hr hsc hfc hu fun _ _ => hF.refl _
      stor := fun _ => ftpStor_keeps hr hsc hfc hu fun _ _ => hF.refl _
      appe := fun _ => ftpAppe_keeps hr hsc hfc hu
      rest := fun _ => ftpRest_keeps hr fun _ _ => hF.refl _
      dele := fun _ => ftpDele_keeps hr hpc
      mkd := fun _ => ftpMkd_keeps hr hpc
      rnfr := fun _ => ftpRnfr_keeps hr fun _ _ => hF.refl _
      rnto := fun _ => ftpRnto_keeps hr hpc fun _ _ => hF.refl _
      nlst := fun _ _ => listDirectory_keeps hr hsc hfc hu _ _
      rein := fun _ => ftpRein_keeps hsc (fun _ _ => hF.refl _) hr fun _ => hF.refl _
      site := site }

/-- Closure under every update of the world that serving a client makes. -/
structure WorldUse (P : World → World → Prop) : Prop where
  sockets : UsesSockets P
  streams : UsesStreams P
  devices : Mounts P
  emit : ∀ (w : World) k e, P w (w.emit k e)
  statics : ∀ (w : World) p q r d,
    P w { w with passivePort := p, password := q, resetFlag := r, dolStarted := d }

section WorldUse

variable {P : World → World → Prop} (hP : WorldUse P)

include hP

theorem WorldUse.replies : Replies (OnWorld P) :=
  .of_sends (OnWorld.frame hP.sockets.toFrame)
    (fun _ => hP.sockets.toSends.mono fun _ _ => trivial) fun _ _ _ _ => hP.emit _ _ _

theorem WorldUse.handlers : HandlerUse (OnWorld P) where
  toReplies := hP.replies
  sockets _ := hP.sockets
  streams _ := hP.streams
  devices _ := hP.devices
  unprepared _ _ := hP.emit _ _ _
  dataSocket _ _ := hP.sockets.refl _
  prepared _ _ _ _ _ := hP.sockets.refl _
  statics _ p q r d := hP.statics _ p q r d
  type _ _ := hP.sockets.refl _
  pending _ _ := hP.sockets.refl _
  passive _ _ := hP.sockets.refl _
  address _ _ := hP.sockets.refl _

theorem WorldUse.command (cmdLine : Str) : Keeps (OnWorld P) (processCommand cmdLine) :=
  processCommand_keeps
    (hP.handlers.handled_of (fun _ => hP.sockets.refl _) (fun _ => hP.sockets.refl _)
      (fun _ _ => hP.sockets.refl _) (fun _ _ => hP.sockets.refl _) cmdLine)
    fun _ _ _ => hP.emit _ _ _

theorem WorldUse.control : ControlUse (OnWorld P) where
  toFrame := OnWorld.frame hP.sockets.toFrame
  sockets _ := hP.sockets
  event _ _ := hP.emit _ _ _
  buffer _ _ _ := hP.sockets.refl _
  command := hP.command

theorem WorldUse.data : DataUse (OnWorld P) where
  toReplies := hP.replies
  sockets _ := hP.sockets
  streams _ := hP.streams.toClosing
  data _ _ _ _ _ _ _ := hP.sockets.refl _

end WorldUse

def Draws (w w' : World) : Prop := w.answers.Drawn w'.answers

theorem draws_frame : Frame Draws where
  refl w := .refl w.answers
  trans h h' := Answers.Drawn.trans h h'

theorem draws_sockets : UsesSockets Draws where
  toFrame := draws_frame
  answers _ _ h := h
  shrink _ := .refl _
  flags _ _ _ _ _ _ := .refl _
  write _ _ _ _ _ _ _ _ := .refl _
  opened _ _ _ := .refl _
  bound _ _ _ _ _ := .refl _
  listening _ _ _ _ := .refl _
  closed _ _ := .refl _
  waits _ _ _ := .refl _
  connects _ _ _ := .refl _
  received _ _ _ _ _ := .refl _

theorem draws_use : WorldUse Draws where
  sockets := draws_sockets
  streams :=
    { toFrame := draws_frame
      answers := fun _ _ h => h
      errno := fun _ _ => .refl _
      disk := fun _ _ => .refl _
      renamed := fun _ _ _ => .refl _
      opened := fun _ _ => .refl _
      stream := fun _ _ _ _ _ _ => .refl _
      close := fun _ _ _ _ => .refl _ }
  devices := UsesDevices.mounts
    { toFrame := draws_frame, answers := fun _ _ h => h, devices := fun _ _ => .refl _ }
  emit _ _ _ := .refl _
  statics _ _ _ _ _ := .refl _

end Ftpii
