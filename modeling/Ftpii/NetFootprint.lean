import Ftpii.Server
set_option autoImplicit false

/-!
What the calls below the command handlers do to the world, as closure conditions:
a relation that survives the updates a function makes survives the function.
-/

namespace Ftpii
open StateProgram Prog

variable {S : Int → Prop} {H : Nat → Prop} {P : World → World → Prop}

/-- What is left of the coming outcomes once some are drawn. -/
structure Answers.Drawn (a b : Answers) : Prop where
  net : b.net <:+ a.net
  writes : b.writes <:+ a.writes
  fcntls : b.fcntls <:+ a.fcntls
  files : b.files <:+ a.files
  mallocs : b.mallocs <:+ a.mallocs
  clock : b.clock <:+ a.clock
  devices : b.devices <:+ a.devices

theorem Answers.Drawn.refl (a : Answers) : a.Drawn a :=
  ⟨List.suffix_rfl, List.suffix_rfl, List.suffix_rfl, List.suffix_rfl, List.suffix_rfl,
    List.suffix_rfl, List.suffix_rfl⟩

theorem Answers.Drawn.trans {a b c : Answers} (h : a.Drawn b) (h' : b.Drawn c) : a.Drawn c :=
  ⟨h'.net.trans h.net, h'.writes.trans h.writes, h'.fcntls.trans h.fcntls,
    h'.files.trans h.files, h'.mallocs.trans h.mallocs, h'.clock.trans h.clock,
    h'.devices.trans h.devices⟩

/-- Writing to the sockets in S. -/
structure Sends (S : Int → Prop) (P : World → World → Prop) : Prop extends Frame P where
  answers : ∀ (w : World) a, w.answers.Drawn a → P w { w with answers := a }
  shrink : ∀ w, P w { w with netBufferSize := MIN_NET_BUFFER_SIZE }
  flags : ∀ (w : World) s k f, S s → w.socks s = some k →
    P w (w.setSock s (some { k with flags := f }))
  write : ∀ (w : World) s k data n r, S s → w.socks s = some k →
    P w ({ w with sent := Function.update w.sent k.id (w.sent k.id ++ data) }.record (.write s n r))

theorem Sends.mono {S T : Int → Prop} {P : World → World → Prop} (hP : Sends S P)
    (h : ∀ s, T s → S s) : Sends T P where
  toFrame := hP.toFrame
  answers := hP.answers
  shrink := hP.shrink
  flags w s k f hs := hP.flags w s k f (h s hs)
  write w s k data n r hs := hP.write w s k data n r (h s hs)

/-- Using the sockets that are open. -/
structure Talks (P : World → World → Prop) : Prop extends Sends (fun _ => True) P where
  bound : ∀ (w : World) s k port, w.socks s = some k →
    P w (w.setSock s (some { k with port := port }))
  listening : ∀ (w : World) s k, w.socks s = some k →
    P w (w.setSock s (some { k with listening := true }))
  waits : ∀ (w : World) s b, P w (w.record (.waits s b))
  connects : ∀ (w : World) s a, P w (w.record (.connects s a))
  received : ∀ (w : World) s k data, w.socks s = some k →
    P w { w with received := Function.update w.received k.id (w.received k.id ++ data) }

/-- Everything done with sockets. -/
structure UsesSockets (P : World → World → Prop) : Prop extends Talks P where
  opened : ∀ (w : World) s, w.socks s = none →
    P w (({ w with nextSock := w.nextSock + 1 }.setSock s (some { id := w.nextSock })).record
      (.opened s w.nextSock))
  closed : ∀ (w : World) s,
    P w ((w.setSock s none).record (.closed s ((w.socks s).map Sock.id)))

/-- Looking up a path: outcomes and errors. -/
structure Lookups (P : World → World → Prop) : Prop extends Frame P where
  answers : ∀ (w : World) a, w.answers.Drawn a → P w { w with answers := a }
  errno : ∀ w e, P w { w with errno := e }

/-- Calls on paths: the disk and renames too. -/
structure UsesPaths (P : World → World → Prop) : Prop extends Lookups P where
  disk : ∀ w d, P w { w with disk := d }
  renamed : ∀ (w : World) a b, P w (w.record (.rename a b))

def Target.path : Target → Option Str
  | .file path _ => some path
  | .dir path => some path
  | .root _ => none

/-- Using the streams in H while they stay open, each for its own file. -/
structure Streaming (H : Nat → Prop) (P : World → World → Prop) : Prop extends Lookups P where
  flushed : ∀ (w : World) h st path content, H h → w.streams h = some st →
    st.target.path = some path → P w (w.setDisk path content)
  stream : ∀ (w : World) h st st', H h → w.streams h = some st → st'.closes = st.closes →
    st'.target.path = st.target.path → P w (w.setStream h st')

/-- Closing them too. -/
structure Closing (H : Nat → Prop) (P : World → World → Prop) : Prop extends Streaming H P where
  close : ∀ (w : World) h st, H h → w.streams h = some st →
    P w (w.setStream h { st with closes := st.closes + 1, pending := [] })

/-- Opening, using and closing streams. -/
structure UsesStreams (P : World → World → Prop) : Prop extends UsesPaths P where
  stream : ∀ (w : World) h st st', w.streams h = some st → st'.closes = st.closes →
    P w (w.setStream h st')
  close : ∀ (w : World) h st, w.streams h = some st →
    P w (w.setStream h { st with closes := st.closes + 1, pending := [] })
  opened : ∀ (w : World) t,
    P w ({ w with nextStream := w.nextStream + 1 }.setStream w.nextStream { target := t })

theorem UsesStreams.toClosing {P : World → World → Prop} (hP : UsesStreams P) :
    Closing (fun _ => True) P where
  toLookups := hP.toLookups
  flushed w _ _ _ _ _ _ _ := hP.disk w _
  stream w h st st' _ hst he _ := hP.stream w h st st' hst he
  close w h st _ hst := hP.close w h st hst

theorem UsesStreams.toStreaming {P : World → World → Prop} (hP : UsesStreams P) :
    Streaming (fun _ => True) P := hP.toClosing.toStreaming

structure UsesDevices (P : World → World → Prop) : Prop extends Frame P where
  answers : ∀ (w : World) a, w.answers.Drawn a → P w { w with answers := a }
  devices : ∀ w d, P w { w with devices := d }

/-- Only the flags of the partitions in T differ, and dvd_mountWait where one of these is a disc's. -/
structure Devices.SameBeyond (T : Partition → Prop) (d d' : Devices) : Prop where
  mountstate : d'.mountstate = d.mountstate
  mountPartition : d'.mountPartition = d.mountPartition
  mountTimer : d'.mountTimer = d.mountTimer
  deviceCheckTimer : d'.deviceCheckTimer = d.deviceCheckTimer
  mounted : ∀ p, ¬ T p → d'.mounted p = d.mounted p
  inserted : ∀ p, ¬ T p → d'.inserted p = d.inserted p
  geckofail : ∀ p, ¬ T p → d'.geckofail p = d.geckofail p
  dvdMountWait : (∀ p, T p → ¬ p.isDvd) → d'.dvdMountWait = d.dvdMountWait

theorem Devices.SameBeyond.refl {T : Partition → Prop} (d : Devices) : d.SameBeyond T d :=
  ⟨rfl, rfl, rfl, rfl, fun _ _ => rfl, fun _ _ => rfl, fun _ _ => rfl, fun _ => rfl⟩

theorem Devices.SameBeyond.trans {T : Partition → Prop} {a b c : Devices} (h : a.SameBeyond T b)
    (h' : b.SameBeyond T c) : a.SameBeyond T c where
  mountstate := h'.mountstate.trans h.mountstate
  mountPartition := h'.mountPartition.trans h.mountPartition
  mountTimer := h'.mountTimer.trans h.mountTimer
  deviceCheckTimer := h'.deviceCheckTimer.trans h.deviceCheckTimer
  mounted p hp := (h'.mounted p hp).trans (h.mounted p hp)
  inserted p hp := (h'.inserted p hp).trans (h.inserted p hp)
  geckofail p hp := (h'.geckofail p hp).trans (h.geckofail p hp)
  dvdMountWait hT := (h'.dvdMountWait hT).trans (h.dvdMountWait hT)

theorem update_beyond {T : Partition → Prop} {p q : Partition} (hp : T p) (hq : ¬ T q)
    {f : Partition → Bool} {b : Bool} : Function.update f p b q = f q := by
  have hne : q ≠ p := fun h => hq (h ▸ hp)
  exact Function.update_of_ne hne b f

/-- Mounting, unmounting and watching the partitions in T. -/
structure UsesDrives (T : Partition → Prop) (P : World → World → Prop) : Prop extends Frame P where
  answers : ∀ (w : World) a, w.answers.Drawn a → P w { w with answers := a }
  drives : ∀ w d, w.devices.SameBeyond T d → P w { w with devices := d }

theorem UsesDevices.drives {P : World → World → Prop} (hP : UsesDevices P) :
    UsesDrives (fun _ => True) P where
  toFrame := hP.toFrame
  answers := hP.answers
  drives w d _ := hP.devices w d

section Weaken

variable {Q : World → World → Prop} (hQ : Frame Q) (h : ∀ w w', P w w' → Q w w')

include hQ h

theorem UsesSockets.imp (hP : UsesSockets P) : UsesSockets Q where
  toFrame := hQ
  answers w a ha := h _ _ (hP.answers w a ha)
  shrink w := h _ _ (hP.shrink w)
  flags w s k f hs hk := h _ _ (hP.flags w s k f hs hk)
  write w s k d n r hs hk := h _ _ (hP.write w s k d n r hs hk)
  opened w s hs := h _ _ (hP.opened w s hs)
  bound w s k p hk := h _ _ (hP.bound w s k p hk)
  listening w s k hk := h _ _ (hP.listening w s k hk)
  closed w s := h _ _ (hP.closed w s)
  waits w s b := h _ _ (hP.waits w s b)
  connects w s a := h _ _ (hP.connects w s a)
  received w s k d hk := h _ _ (hP.received w s k d hk)

theorem UsesStreams.imp (hP : UsesStreams P) : UsesStreams Q where
  toFrame := hQ
  answers w a ha := h _ _ (hP.answers w a ha)
  errno w e := h _ _ (hP.errno w e)
  disk w d := h _ _ (hP.disk w d)
  renamed w a b := h _ _ (hP.renamed w a b)
  opened w t := h _ _ (hP.opened w t)
  stream w f st st' hst he := h _ _ (hP.stream w f st st' hst he)
  close w f st hst := h _ _ (hP.close w f st hst)

theorem UsesDevices.imp (hP : UsesDevices P) : UsesDevices Q where
  toFrame := hQ
  answers w a ha := h _ _ (hP.answers w a ha)
  devices w d := h _ _ (hP.devices w d)

end Weaken

section Both

variable {Q : World → World → Prop}

theorem Frame.and (hP : Frame P) (hQ : Frame Q) : Frame fun w w' => P w w' ∧ Q w w' where
  refl w := ⟨hP.refl w, hQ.refl w⟩
  trans h h' := ⟨hP.trans h.1 h'.1, hQ.trans h.2 h'.2⟩

theorem UsesSockets.and (hP : UsesSockets P) (hQ : UsesSockets Q) :
    UsesSockets fun w w' => P w w' ∧ Q w w' where
  toFrame := Frame.and hP.toFrame hQ.toFrame
  answers w a ha := ⟨hP.answers w a ha, hQ.answers w a ha⟩
  shrink w := ⟨hP.shrink w, hQ.shrink w⟩
  flags w s k f hs hk := ⟨hP.flags w s k f hs hk, hQ.flags w s k f hs hk⟩
  write w s k d n r hs hk := ⟨hP.write w s k d n r hs hk, hQ.write w s k d n r hs hk⟩
  opened w s hs := ⟨hP.opened w s hs, hQ.opened w s hs⟩
  bound w s k p hk := ⟨hP.bound w s k p hk, hQ.bound w s k p hk⟩
  listening w s k hk := ⟨hP.listening w s k hk, hQ.listening w s k hk⟩
  closed w s := ⟨hP.closed w s, hQ.closed w s⟩
  waits w s b := ⟨hP.waits w s b, hQ.waits w s b⟩
  connects w s a := ⟨hP.connects w s a, hQ.connects w s a⟩
  received w s k d hk := ⟨hP.received w s k d hk, hQ.received w s k d hk⟩

theorem UsesStreams.and (hP : UsesStreams P) (hQ : UsesStreams Q) :
    UsesStreams fun w w' => P w w' ∧ Q w w' where
  toFrame := Frame.and hP.toFrame hQ.toFrame
  answers w a ha := ⟨hP.answers w a ha, hQ.answers w a ha⟩
  errno w e := ⟨hP.errno w e, hQ.errno w e⟩
  disk w d := ⟨hP.disk w d, hQ.disk w d⟩
  renamed w a b := ⟨hP.renamed w a b, hQ.renamed w a b⟩
  opened w t := ⟨hP.opened w t, hQ.opened w t⟩
  stream w f st st' hst he := ⟨hP.stream w f st st' hst he, hQ.stream w f st st' hst he⟩
  close w f st hst := ⟨hP.close w f st hst, hQ.close w f st hst⟩

theorem UsesDevices.and (hP : UsesDevices P) (hQ : UsesDevices Q) :
    UsesDevices fun w w' => P w w' ∧ Q w w' where
  toFrame := Frame.and hP.toFrame hQ.toFrame
  answers w a ha := ⟨hP.answers w a ha, hQ.answers w a ha⟩
  devices w d := ⟨hP.devices w d, hQ.devices w d⟩

end Both

section Frames

variable (hP : Frame P)

include hP

theorem netFuel_keeps : Keeps P netFuel := Keeps.gets hP _

end Frames

/-! ## Drawing outcomes -/

section Answers

variable (hP : Frame P) (ha : ∀ (w : World) a, w.answers.Drawn a → P w { w with answers := a })

include hP ha

theorem popNet_keeps : Keeps P popNet := by
  intro w
  unfold popNet
  split
  · exact hP.refl w
  · rename_i a as h
    refine ha w _ { Answers.Drawn.refl w.answers with net := ?_ }
    simp [h]

theorem popWrite_keeps (len : Nat) : Keeps P (popWrite len) := by
  intro w
  unfold popWrite
  split
  · exact hP.refl w
  · rename_i a as h
    refine ha w _ { Answers.Drawn.refl w.answers with writes := ?_ }
    simp [h]

theorem popFcntl_keeps : Keeps P popFcntl := by
  intro w
  unfold popFcntl
  split
  · exact hP.refl w
  · rename_i a as h
    refine ha w _ { Answers.Drawn.refl w.answers with fcntls := ?_ }
    simp [h]

theorem popFile_keeps : Keeps P popFile := by
  intro w
  unfold popFile
  split
  · exact hP.refl w
  · rename_i a as h
    refine ha w _ { Answers.Drawn.refl w.answers with files := ?_ }
    simp [h]

theorem popDevice_keeps : Keeps P popDevice := by
  intro w
  unfold popDevice
  split
  · exact hP.refl w
  · rename_i a as h
    refine ha w _ { Answers.Drawn.refl w.answers with devices := ?_ }
    simp [h]

theorem gettime_keeps : Keeps P gettime := by
  intro w
  unfold gettime
  split
  · exact hP.refl w
  · rename_i a as h
    refine ha w _ { Answers.Drawn.refl w.answers with clock := ?_ }
    simp [h]

theorem fileAnswer_keeps : Keeps P fileAnswer :=
  .bind hP (popFile_keeps hP ha) fun _ => .pure hP _

theorem netGethostip_keeps : Keeps P netGethostip :=
  .bind hP (popNet_keeps hP ha) fun _ => .pure hP _

theorem netInit_keeps : Keeps P netInit :=
  .bind hP (popNet_keeps hP ha) fun _ => .pure hP _

theorem checkButtons_keeps (mask : Nat) : Keeps P (checkButtons mask) :=
  .bind hP (popDevice_keeps hP ha) fun _ => .pure hP _

theorem checkResetSynchronous_keeps : Keeps P checkResetSynchronous :=
  .bind hP (.get hP) fun _ => .ite (.pure hP _) <|
    .bind hP (checkButtons_keeps hP ha _) fun _ => .ite (.pure hP _) <|
      .bind hP (checkButtons_keeps hP ha _) fun _ => .pure hP _

end Answers

@[simp] theorem popNet_socks (w : World) : (popNet w).2.socks = w.socks := by
  unfold popNet; split <;> rfl

@[simp] theorem popDevice_devices (w : World) : (popDevice w).2.devices = w.devices := by
  unfold popDevice; split <;> rfl

@[simp] theorem popWrite_socks (len : Nat) (w : World) : (popWrite len w).2.socks = w.socks := by
  unfold popWrite; split <;> rfl

@[simp] theorem popFcntl_socks (w : World) : (popFcntl w).2.socks = w.socks := by
  unfold popFcntl; split <;> rfl

/-! ## Sending -/

theorem netFcntlGet_keeps (hP : Sends S P) (s : Int) : Keeps P (netFcntlGet s) := by
  intro w
  unfold netFcntlGet
  split
  · exact hP.refl w
  · exact popFcntl_keeps hP.toFrame hP.answers w

theorem netFcntlSet_keeps (hP : Sends S P) {s : Int} (hs : S s) (flags : BitVec 32) :
    Keeps P (netFcntlSet s flags) := by
  intro w
  unfold netFcntlSet
  split
  · exact hP.refl w
  · rename_i k hk
    have hpop := popFcntl_keeps hP.toFrame hP.answers w
    simp only
    split
    · exact hpop
    · exact hP.trans hpop (hP.flags _ s k flags hs (by simpa using hk))

theorem setBlocking_keeps (hP : Sends S P) {s : Int} (hs : S s) (blocking : Bool) :
    Keeps P (setBlocking s blocking) :=
  .bind hP.toFrame (netFcntlGet_keeps hP s) fun _ =>
    .ite (.pure hP.toFrame _) (netFcntlSet_keeps hP hs _)

theorem netWrite_keeps (hP : Sends S P) {s : Int} (hs : S s) (buf : Str) :
    Keeps P (netWrite s buf) := by
  intro w
  unfold netWrite
  split
  · exact hP.refl w
  · rename_i k hk
    have hpop := popWrite_keeps hP.toFrame hP.answers buf.length w
    exact hP.trans hpop (hP.write _ s k _ _ _ hs (by simpa using hk))

theorem transferStep_keeps (hP : Sends S P) {s : Int} {transferrer : Int → Str → Os Int}
    (ht : ∀ buf, Keeps P (transferrer s buf)) (buf : Str) :
    Keeps P (transferStep s transferrer buf) := by
  have hF := hP.toFrame
  refine .ite (.pure hF _) (.bind hF (.gets hF _) fun size => .bind hF (ht _) fun r => ?_)
  refine .ite (.pure hF _) (.ite (.ite ?_ (.pure hF _)) (.pure hF _))
  exact .bind hF (fun w => hP.shrink w) fun _ => .pure hF _

theorem transferExact_keeps (hP : Sends S P) {s : Int} (hs : S s) (buf : Str)
    {transferrer : Int → Str → Os Int} (ht : ∀ buf, Keeps P (transferrer s buf)) :
    Keeps P (transferExact s buf transferrer) := by
  have hF := hP.toFrame
  refine .bind hF (setBlocking_keeps hP hs _) fun _ => .bind hF ?_ fun _ =>
    .bind hF (setBlocking_keeps hP hs _) fun _ => .pure hF _
  exact .iterate hF (transferStep_keeps hP ht) _ _

theorem sendExact_keeps (hP : Sends S P) {s : Int} (hs : S s) (buf : Str) :
    Keeps P (sendExact s buf) :=
  transferExact_keeps hP hs buf (netWrite_keeps hP hs)

/-! ## Sockets -/

theorem openSock_keeps (hP : UsesSockets P) (s : Int) : Keeps P (openSock s) := by
  intro w
  unfold openSock
  split
  · exact hP.refl w
  · rename_i hk
    exact hP.opened w s hk

theorem netSocket_keeps (hP : UsesSockets P) : Keeps P netSocket :=
  .bind hP.toFrame (popNet_keeps hP.toFrame hP.answers) fun _ =>
    .ite (.pure hP.toFrame _) (openSock_keeps hP _)

theorem netBind_keeps (hP : Talks P) (s : Int) (port : Nat) : Keeps P (netBind s port) := by
  have hF := hP.toFrame
  refine .bind hF (popNet_keeps hF hP.answers) fun a => .ite (.pure hF _) ?_
  refine .bind hF (fun w => ?_) fun _ => .pure hF _
  simp only [modify_run]
  split
  · exact hP.refl w
  · rename_i k hk
    exact hP.bound w s k port hk

theorem netListen_keeps (hP : Talks P) (s : Int) : Keeps P (netListen s) := by
  have hF := hP.toFrame
  refine .bind hF (popNet_keeps hF hP.answers) fun a => .ite (.pure hF _) ?_
  refine .bind hF (fun w => ?_) fun _ => .pure hF _
  simp only [modify_run]
  split
  · exact hP.refl w
  · rename_i k hk
    exact hP.listening w s k hk

theorem waitOn_keeps (hP : Talks P) (s : Int) : Keeps P (waitOn s) := by
  intro w
  unfold waitOn
  split
  · exact hP.refl w
  · exact hP.waits w s _

theorem netAccept_keeps (hP : UsesSockets P) (s : Int) : Keeps P (netAccept s) := by
  have hF := hP.toFrame
  refine .bind hF (waitOn_keeps hP.toTalks s) fun o => ?_
  cases o with
  | none => exact .pure hF _
  | some k =>
    exact .bind hF (popNet_keeps hF hP.answers) fun a => .ite (.pure hF _) <|
      .bind hF (openSock_keeps hP _) fun _ => .pure hF _

theorem netConnect_keeps (hP : Talks P) (s : Int) (addr : SockAddr) :
    Keeps P (netConnect s addr) := by
  have hF := hP.toFrame
  refine .bind hF (waitOn_keeps hP s) fun o => ?_
  cases o with
  | none => exact .pure hF _
  | some k =>
    exact .bind hF (fun w => hP.connects w s addr) fun _ =>
      .bind hF (popNet_keeps hF hP.answers) fun a => .pure hF _

theorem netRead_keeps (hP : Talks P) (s : Int) (len : Nat) : Keeps P (netRead s len) := by
  intro w
  simp only [netRead, bind_run]
  unfold waitOn
  split
  · exact hP.refl w
  · rename_i k hk
    have hw := hP.waits w s k.blocking
    have hn := popNet_keeps hP.toFrame hP.answers (w.record (.waits s k.blocking))
    simp only [bind_run]
    rw [ite_run]
    split
    · exact hP.trans hw hn
    · exact hP.trans (hP.trans hw hn) (hP.received _ s k _ (by simpa [World.record] using hk))

theorem netClose_keeps (hP : UsesSockets P) (s : Int) : Keeps P (netClose s) :=
  fun w => hP.closed w s

theorem netCloseBlocking_keeps (hP : UsesSockets P) (s : Int) : Keeps P (netCloseBlocking s) :=
  .bind hP.toFrame (setBlocking_keeps hP.toSends trivial _) fun _ => netClose_keeps hP s

theorem createServer_keeps (hP : UsesSockets P) (port : Nat) : Keeps P (createServer port) := by
  have hF := hP.toFrame
  refine .bind hF (netSocket_keeps hP) fun s => .ite (.pure hF _) ?_
  refine .bind hF (setBlocking_keeps hP.toSends trivial _) fun _ => ?_
  refine .bind hF (netBind_keeps hP.toTalks _ _) fun _ => .ite ?_ ?_
  · exact .bind hF (netClose_keeps hP _) fun _ => .pure hF _
  · refine .bind hF (netListen_keeps hP.toTalks _) fun _ => .ite ?_ (.pure hF _)
    exact .bind hF (netClose_keeps hP _) fun _ => .pure hF _

/-! ## Paths and streams -/

theorem malloc_keeps (hP : Lookups P) : Keeps P malloc := by
  intro w
  unfold malloc
  split
  · exact hP.refl w
  · rename_i a as h
    have hd : w.answers.Drawn { w.answers with mallocs := as } :=
      { Answers.Drawn.refl w.answers with mallocs := by simp [h] }
    exact hP.trans (hP.answers w _ hd) (hP.errno _ _)

theorem setErrno_keeps (hP : Lookups P) (e : Int) : Keeps P (setErrno e) := fun w => hP.errno w e

theorem normaliseAlloc_keeps (hP : Lookups P) (path : Str) : Keeps P (normaliseAlloc path) :=
  .bind hP.toFrame (malloc_keeps hP) fun _ => .pure hP.toFrame _

theorem virtualAbspath_keeps (hP : Lookups P) (cwd path : Str) :
    Keeps P (virtualAbspath cwd path) := by
  have hF := hP.toFrame
  refine .ite (normaliseAlloc_keeps hP _) (.ite (.pure hF _) ?_)
  exact .bind hF (malloc_keeps hP) fun _ => .ite (normaliseAlloc_keeps hP _) (.pure hF _)

theorem toRealPath_keeps (hP : Lookups P) (cwd path : Str) : Keeps P (toRealPath cwd path) := by
  have hF := hP.toFrame
  refine .bind hF (setErrno_keeps hP _) fun _ => .ite (.pure hF _) ?_
  refine .bind hF (virtualAbspath_keeps hP _ _) fun o => ?_
  cases o with
  | none => exact .pure hF _
  | some abspath =>
    refine .ite (.pure hF _) ?_
    cases findPartition abspath with
    | none => exact .bind hF (setErrno_keeps hP _) fun _ => .pure hF _
    | some p =>
      refine .ite (.pure hF _) ?_
      exact .bind hF (malloc_keeps hP) fun _ => .pure hF _

theorem withVirtualPath_keeps {α : Type} (hP : Lookups P) {f : Str → Os α}
    (hf : ∀ path, Keeps P (f path)) (cwd path : Str) (failed : α) :
    Keeps P (withVirtualPath cwd f path failed) := by
  have hF := hP.toFrame
  refine .bind hF (toRealPath_keeps hP _ _) fun o => ?_
  cases o with
  | none => exact .pure hF _
  | some real => exact .ite (.pure hF _) (hf real)

theorem stat_keeps (hP : Lookups P) (path : Str) : Keeps P (stat path) := by
  have hF := hP.toFrame
  refine .bind hF (popFile_keeps hF hP.answers) fun o => ?_
  cases o with
  | none => exact .bind hF (setErrno_keeps hP _) fun _ => .pure hF _
  | some a => exact .ite (.bind hF (setErrno_keeps hP _) fun _ => .pure hF _) (.pure hF _)

theorem fileCall_keeps (hP : Lookups P) {effect : World → World} (he : ∀ w, P w (effect w)) :
    Keeps P (fileCall effect) := by
  have hF := hP.toFrame
  refine .bind hF (fileAnswer_keeps hF hP.answers) fun a => .ite ?_ ?_
  · exact .bind hF (setErrno_keeps hP _) fun _ => .pure hF _
  · exact .bind hF (fun w => he w) fun _ => .pure hF _

theorem unlink_keeps (hP : UsesPaths P) (path : Str) : Keeps P (unlink path) :=
  fileCall_keeps hP.toLookups fun w => hP.disk w _

theorem mkdir_keeps (hP : Lookups P) (path : Str) : Keeps P (mkdir path) :=
  fileCall_keeps hP fun w => hP.refl w

theorem rename_keeps (hP : UsesPaths P) (source target : Str) :
    Keeps P (rename source target) := by
  refine .bind hP.toFrame (fun w => hP.renamed w _ _) fun _ => fileCall_keeps hP.toLookups fun w => ?_
  split
  · exact hP.refl w
  · exact hP.disk w _

theorem vrtStat_keeps (hP : Lookups P) (cwd path : Str) : Keeps P (vrtStat cwd path) := by
  have hF := hP.toFrame
  refine .bind hF (toRealPath_keeps hP _ _) fun o => ?_
  cases o with
  | none => exact .pure hF _
  | some real => exact .ite (.pure hF _) (withVirtualPath_keeps hP (stat_keeps hP) _ _ _)

theorem vrtChdir_keeps (hP : Lookups P) (cwd path : Str) : Keeps P (vrtChdir cwd path) := by
  have hF := hP.toFrame
  refine .bind hF (vrtStat_keeps hP _ _) fun r => .ite (.pure hF _) (.ite ?_ ?_)
  · exact .bind hF (setErrno_keeps hP _) fun _ => .pure hF _
  · refine .bind hF (virtualAbspath_keeps hP _ _) fun o => ?_
    cases o with
    | none => exact .bind hF (setErrno_keeps hP _) fun _ => .pure hF _
    | some abspath => exact .pure hF _

theorem vrtUnlink_keeps (hP : UsesPaths P) (cwd path : Str) : Keeps P (vrtUnlink cwd path) :=
  withVirtualPath_keeps hP.toLookups (unlink_keeps hP) _ _ _

theorem vrtMkdir_keeps (hP : Lookups P) (cwd path : Str) : Keeps P (vrtMkdir cwd path) :=
  withVirtualPath_keeps hP (mkdir_keeps hP) _ _ _

theorem vrtRename_keeps (hP : UsesPaths P) (cwd fromPath toPath : Str) :
    Keeps P (vrtRename cwd fromPath toPath) := by
  have hF := hP.toFrame
  refine .bind hF (toRealPath_keeps hP.toLookups _ _) fun o => ?_
  cases o with
  | none => exact .pure hF _
  | some real =>
    exact .ite (.pure hF _) (withVirtualPath_keeps hP.toLookups (fun p => rename_keeps hP p real) _ _ _)

theorem openStream_keeps (hP : UsesStreams P) (t : Target) : Keeps P (openStream t) :=
  fun w => hP.opened w t

theorem fopen_keeps (hP : UsesStreams P) (path : Str) (mode : Mode) : Keeps P (fopen path mode) := by
  have hF := hP.toFrame
  have hopen (t : Target) : Keeps P (some <$> openStream t) := Keeps.map (openStream_keeps hP t)
  have hset (o : Option Str) : Keeps P (Prog.modify fun w : World => w.setDisk path o) :=
    fun w => hP.disk w _
  refine .bind hF (fileAnswer_keeps hF hP.answers) fun a => .bind hF (.get hF) fun w => .ite ?_ ?_
  · exact .bind hF (setErrno_keeps hP.toLookups _) fun _ => .pure hF _
  · cases mode with
    | rb =>
      cases w.disk path with
      | none => exact .bind hF (setErrno_keeps hP.toLookups _) fun _ => .pure hF _
      | some _ => exact hopen _
    | wb => exact .bind hF (hset _) fun _ => hopen _
    | ab =>
      cases w.disk path with
      | none => exact .bind hF (hset _) fun _ => hopen _
      | some _ => exact hopen _

theorem flush_keeps (hP : Streaming H P) (w : World) {h : Nat} (hh : H h) (n : Nat) :
    P w (w.flush h n) := by
  unfold World.flush
  split
  · exact hP.refl w
  · rename_i st hst
    split
    · rename_i path mode htarget
      split
      · exact hP.refl w
      · have hpath : st.target.path = some path := by rw [htarget]; rfl
        exact hP.trans (hP.flushed w h st path _ hh hst hpath)
          (hP.stream _ h st _ hh hst rfl rfl)
    · exact hP.refl w

theorem closeStream_keeps (hP : Closing H P) (w : World) {h : Nat} (hh : H h) :
    P w (w.closeStream h) := by
  unfold World.closeStream
  split
  · exact hP.refl w
  · rename_i st hst
    exact hP.close w h st hh hst

theorem lseek_keeps (hP : Streaming H P) {h : Nat} (hh : H h) (offset : Nat) :
    Keeps P (lseek h offset) := by
  have hF := hP.toFrame
  refine .bind hF (fileAnswer_keeps hF hP.answers) fun a => .ite ?_ ?_
  · exact .bind hF (setErrno_keeps hP.toLookups _) fun _ => .pure hF _
  · refine .bind hF (fun w => ?_) fun _ => .pure hF _
    simp only [modify_run]
    split
    · exact hP.refl w
    · rename_i st hst
      exact hP.stream w h st _ hh hst rfl rfl

theorem fread_keeps (hP : Streaming H P) {h : Nat} (hh : H h) (len : Nat) :
    Keeps P (fread h len) := by
  intro w
  have ha := fileAnswer_keeps hP.toFrame hP.answers w
  simp only [fread, bind_run, get_run]
  cases hst : (fileAnswer w).2.streams h with
  | none => exact ha
  | some st =>
    simp only
    cases htarget : st.target with
    | file path mode =>
      have hpath : st.target.path = some path := by rw [htarget]; rfl
      simp only [bind_run, modify_run]
      exact hP.trans ha (hP.stream _ h st _ hh hst rfl hpath.symm)
    | dir path => exact ha
    | root n => exact ha

theorem feof_keeps (hP : Frame P) (h : Nat) : Keeps P (feof h) :=
  .bind hP (.get hP) fun _ => .pure hP _

theorem fwrite_keeps (hP : Streaming H P) {h : Nat} (hh : H h) (buf : Str) :
    Keeps P (fwrite h buf) := by
  have hF := hP.toFrame
  refine .bind hF (fileAnswer_keeps hF hP.answers) fun a => .bind hF (fun w => ?_) fun _ =>
    .pure hF _
  simp only [modify_run]
  split
  · exact hP.refl w
  · rename_i st hst
    refine hP.trans (hP.stream w h st _ hh hst ?_ ?_) (flush_keeps hP _ hh _)
    · rfl
    · rfl

theorem fclose_keeps (hP : Closing H P) {h : Nat} (hh : H h) : Keeps P (fclose h) := by
  have hF := hP.toFrame
  refine .bind hF (fileAnswer_keeps hF hP.answers) fun a => .bind hF (fun w => ?_) fun _ =>
    .pure hF _
  simp only [modify_run]
  split
  · exact hP.refl w
  · exact hP.trans (flush_keeps hP.toStreaming w hh _) (closeStream_keeps hP _ hh)

theorem diropen_keeps (hP : UsesStreams P) (path : Str) : Keeps P (diropen path) := by
  have hF := hP.toFrame
  refine .bind hF (fileAnswer_keeps hF hP.answers) fun a => .ite ?_ ?_
  · exact .bind hF (setErrno_keeps hP.toLookups _) fun _ => .pure hF _
  · exact Keeps.map (openStream_keeps hP _)

theorem dirnext_keeps (hP : Lookups P) (h : Nat) : Keeps P (dirnext h) := by
  have hF := hP.toFrame
  refine .bind hF (popFile_keeps hF hP.answers) fun o => ?_
  cases o with
  | none => exact .pure hF _
  | some a => exact .ite (.pure hF _) (.pure hF _)

theorem dirclose_keeps (hP : Closing H P) {h : Nat} (hh : H h) : Keeps P (dirclose h) :=
  .bind hP.toFrame (fun w => closeStream_keeps hP w hh) fun _ => .pure hP.toFrame _

theorem vrtFopen_keeps (hP : UsesStreams P) (cwd path : Str) (mode : Mode) :
    Keeps P (vrtFopen cwd path mode) :=
  withVirtualPath_keeps hP.toLookups (fun p => fopen_keeps hP p mode) _ _ _

theorem vrtDiropen_keeps (hP : UsesStreams P) (cwd path : Str) : Keeps P (vrtDiropen cwd path) := by
  have hF := hP.toFrame
  refine .bind hF (toRealPath_keeps hP.toLookups _ _) fun o => ?_
  cases o with
  | none => exact .pure hF _
  | some real =>
    refine .ite ?_ (withVirtualPath_keeps hP.toLookups (diropen_keeps hP) _ _ _)
    exact .bind hF (malloc_keeps hP.toLookups) fun _ =>
      .ite (Keeps.map (openStream_keeps hP _)) (.pure hF _)

theorem vrtDirnext_keeps (hP : Streaming H P) {h : Nat} (hh : H h) : Keeps P (vrtDirnext h) := by
  intro w
  simp only [vrtDirnext, bind_run, get_run]
  cases hst : w.streams h with
  | none => exact dirnext_keeps hP.toLookups h w
  | some st =>
    simp only
    cases htarget : st.target with
    | file path mode => exact dirnext_keeps hP.toLookups h w
    | dir path => exact dirnext_keeps hP.toLookups h w
    | root n =>
      have hpath : st.target.path = none := by rw [htarget]; rfl
      simp only
      cases nextMounted w.devices n with
      | none =>
        simp only [bind_run, modify_run]
        exact hP.stream w h st _ hh hst rfl hpath.symm
      | some e =>
        simp only [bind_run, modify_run]
        exact hP.stream w h st _ hh hst rfl hpath.symm

theorem runCleanup_keeps (hP : Closing H P) (cleanup : Cleanup) {arg : Nat} (hh : H arg) :
    Keeps P (runCleanup cleanup arg) := by
  cases cleanup with
  | vrtDirclose => exact .bind hP.toFrame (dirclose_keeps hP hh) fun _ => .pure hP.toFrame _
  | fclose => exact .bind hP.toFrame (fclose_keeps hP hh) fun _ => .pure hP.toFrame _

/-! ## Drives -/

section Drives

variable {T : Partition → Prop} (hP : UsesDrives T P)

include hP

theorem deviceCall_keeps : Keeps P deviceCall :=
  .bind hP.toFrame (popDevice_keeps hP.toFrame hP.answers) fun _ => .pure hP.toFrame _

theorem dvdLastAccess_keeps : Keeps P dvdLastAccess := by
  have hF := hP.toFrame
  have hd := popDevice_keeps hF hP.answers
  exact .bind hF hd fun _ => .bind hF hd fun _ => .bind hF hd fun _ => .pure hF _

theorem noteDrive_keeps (c : DriveCall) : Keeps P (noteDrive c) := fun w =>
  hP.drives w _ { (Devices.SameBeyond.refl w.devices) with }

theorem diMount_keeps : Keeps P diMount :=
  .bind hP.toFrame (noteDrive_keeps hP _) fun _ => popDevice_keeps hP.toFrame hP.answers

theorem diStopMotor_keeps : Keeps P diStopMotor :=
  .bind hP.toFrame (noteDrive_keeps hP _) fun _ => popDevice_keeps hP.toFrame hP.answers

theorem dvdStop_keeps : Keeps P dvdStop :=
  .bind hP.toFrame (gettime_keeps hP.toFrame hP.answers) fun _ =>
    .bind hP.toFrame (fun w => hP.drives w _ { (Devices.SameBeyond.refl w.devices) with })
      fun _ => diStopMotor_keeps hP

theorem setMounted_keeps {p : Partition} (hp : T p) (state : Bool) :
    Keeps P (setMounted p state) := fun w =>
  hP.drives w _
    { (Devices.SameBeyond.refl w.devices) with mounted := fun _ hq => update_beyond hp hq }

theorem setInserted_keeps {p : Partition} (hp : T p) (b : Bool) : Keeps P (setInserted p b) :=
  fun w => hP.drives w _
    { (Devices.SameBeyond.refl w.devices) with inserted := fun _ hq => update_beyond hp hq }

theorem setGeckofail_keeps {p : Partition} (hp : T p) (b : Bool) : Keeps P (setGeckofail p b) :=
  fun w => hP.drives w _
    { (Devices.SameBeyond.refl w.devices) with geckofail := fun _ hq => update_beyond hp hq }

theorem setDvdMountWait_keeps {p : Partition} (hp : T p) (hd : p.isDvd) (state : Bool) :
    Keeps P (setDvdMountWait state) := fun w =>
  hP.drives w _
    { (Devices.SameBeyond.refl w.devices) with dvdMountWait := fun h => absurd hd (h p hp) }

theorem mountCall_keeps {p : Partition} (hp : T p) (state : Bool) : Keeps P (mountCall p state) :=
  .bind hP.toFrame (deviceCall_keeps hP) fun _ =>
    .ite (.bind hP.toFrame (setMounted_keeps hP hp state) fun _ => .pure hP.toFrame _)
      (.pure hP.toFrame _)

theorem waitForDvd_keeps (timeout : Nat) : Keeps P (waitForDvd timeout) := by
  have hF := hP.toFrame
  refine .bind hF (.gets hF _) fun _ => .iterate hF (fun _ => ?_) _ _
  exact .bind hF (deviceCall_keeps hP) fun _ => .ite (.pure hF _) <|
    .bind hF (gettime_keeps hF hP.answers) fun _ => .pure hF _

theorem stopIdleDvd_keeps : Keeps P stopIdleDvd := by
  have hF := hP.toFrame
  refine .bind hF (.gets hF _) fun _ => .ite (.pure hF _) ?_
  exact .bind hF (dvdLastAccess_keeps hP) fun _ => .ite
    (.bind hF (dvdStop_keeps hP) fun _ => .pure hF _) (.pure hF _)

section Mount

variable {p : Partition} (hp : T p)

include hp

theorem mountReadyDvd_keeps (hd : p.isDvd) : Keeps P (mountReadyDvd p) :=
  .bind hP.toFrame (setDvdMountWait_keeps hP hp hd _) fun _ => mountCall_keeps hP hp _

theorem mountDvd_keeps (hd : p.isDvd) : Keeps P (mountDvd p) := by
  have hF := hP.toFrame
  exact .bind hF (setDvdMountWait_keeps hP hp hd _) fun _ => .bind hF (diMount_keeps hP)
    fun _ => .bind hF (gettime_keeps hF hP.answers) fun _ => .bind hF (waitForDvd_keeps hP _)
    fun _ => .bind hF (deviceCall_keeps hP) fun _ =>
    .bind hF (.ite (mountReadyDvd_keeps hP hp hd) (.pure hF _)) fun _ =>
    .bind hF (stopIdleDvd_keeps hP) fun _ => .pure hF _

theorem mountFatOrNtfs_keeps : Keeps P (mountFatOrNtfs p) := by
  have hF := hP.toFrame
  exact .bind hF (mountCall_keeps hP hp _) fun _ => .ite (.pure hF _) <|
    .bind hF (popDevice_keeps hF hP.answers) fun _ => .ite (mountCall_keeps hP hp _) (.pure hF _)

theorem mountDisc_keeps : Keeps P (mountDisc p) := by
  have hF := hP.toFrame
  refine .iterate hF (fun _ => ?_) _ _
  refine .bind hF (.ite (.pure hF _) (deviceCall_keeps hP)) fun _ =>
    .bind hF (deviceCall_keeps hP) fun _ => .ite ?_ (.ite (.pure hF _) (.pure hF _))
  exact Keeps.map (mountFatOrNtfs_keeps hP hp)

theorem mountByKind_keeps : Keeps P (mountByKind p) := by
  by_cases hd : p.isDvd
  · rw [mountByKind, if_pos hd]
    exact mountDvd_keeps hP hp hd
  · rw [mountByKind, if_neg hd]
    exact .ite (mountDisc_keeps hP hp) (mountCall_keeps hP hp _)

theorem mountSome_keeps : Keeps P (mount (some p)) := by
  have hF := hP.toFrame
  refine .bind hF (noteDrive_keeps hP _) fun _ => .bind hF (.gets hF _) fun _ => .bind hF (.gets hF _) fun _ => .ite (.pure hF _) ?_
  refine .bind hF (mountByKind_keeps hP hp) fun _ => .ite ?_ (.pure hF _)
  exact .bind hF (setGeckofail_keeps hP hp _) fun _ => .pure hF _

theorem unmountSome_keeps : Keeps P (unmount (some p)) := by
  have hF := hP.toFrame
  refine .bind hF (.gets hF _) fun _ => .bind hF (.gets hF _) fun _ => .ite (.pure hF _) ?_
  refine .ite ?_ (.ite ?_ (mountCall_keeps hP hp _))
  · exact .bind hF (mountCall_keeps hP hp _) fun _ => .bind hF (stopIdleDvd_keeps hP) fun _ =>
      .pure hF _
  · exact .bind hF (setMounted_keeps hP hp _) fun _ => .pure hF _

theorem startDvdMount_keeps (hd : p.isDvd) : Keeps P startDvdMount :=
  .bind hP.toFrame (setDvdMountWait_keeps hP hp hd _) fun _ =>
    .bind hP.toFrame (diMount_keeps hP) fun _ => .pure hP.toFrame _

end Mount

theorem mount_keeps (hT : ∀ p, T p) (partition : Option Partition) : Keeps P (mount partition) := by
  cases partition with
  | none => exact .bind hP.toFrame (noteDrive_keeps hP _) fun _ => .pure hP.toFrame _
  | some p => exact mountSome_keeps hP (hT p)

theorem unmount_keeps (hT : ∀ p, T p) (partition : Option Partition) :
    Keeps P (unmount partition) := by
  cases partition with
  | none => exact .pure hP.toFrame _
  | some p => exact unmountSome_keeps hP (hT p)

theorem dvdUnmount_keeps (hT : ∀ p, T p) : Keeps P dvdUnmount := by
  have hF := hP.toFrame
  have hu := fun p => unmountSome_keeps hP (hT p)
  exact .bind hF (hu _) fun _ => .bind hF (hu _) fun _ => .bind hF (hu _) fun _ =>
    .bind hF (dvdStop_keeps hP) fun _ => .pure hF _

theorem dvdEject_keeps (hT : ∀ p, T p) : Keeps P dvdEject :=
  .bind hP.toFrame (dvdUnmount_keeps hP hT) fun _ => popDevice_keeps hP.toFrame hP.answers

theorem checkDvdMount_keeps (hT : ∀ p, T p) : Keeps P checkDvdMount := by
  have hF := hP.toFrame
  have hm := fun p => mountCall_keeps hP (hT p) true
  refine .bind hF (.gets hF _) fun _ => .ite ?_ (.pure hF _)
  refine .bind hF (deviceCall_keeps hP) fun _ => .ite ?_ (.pure hF _)
  refine .bind hF (setDvdMountWait_keeps hP (hT .dvd) rfl _) fun _ => .bind hF (hm _) fun _ =>
    .bind hF (hm _) fun _ => .bind hF (hm _) fun _ => .ite ?_ (.pure hF _)
  exact .bind hF (dvdStop_keeps hP) fun _ => .pure hF _

theorem remount_keeps (hT : ∀ p, T p) (partition : Option Partition) :
    Keeps P (remount partition) :=
  .ite (startDvdMount_keeps hP (hT .dvd) rfl) <|
    .bind hP.toFrame (mount_keeps hP hT _) fun _ => .pure hP.toFrame _

end Drives

/-! ## Watching the drives -/

/-- Watching the partitions in T, with mounting and unmounting them given as wholes. -/
structure UsesMounts (T : Partition → Prop) (P : World → World → Prop) : Prop extends Frame P where
  answers : ∀ (w : World) a, w.answers.Drawn a → P w { w with answers := a }
  inserted : ∀ p, T p → ∀ b, Keeps P (setInserted p b)
  geckofail : ∀ p, T p → ∀ b, Keeps P (setGeckofail p b)
  mount : ∀ p, T p → Keeps P (mount (some p))
  unmount : ∀ p, T p → Keeps P (unmount (some p))
  start : ∀ p, T p → p.isDvd → Keeps P startDvdMount

theorem UsesDrives.toUsesMounts {T : Partition → Prop} (hP : UsesDrives T P) : UsesMounts T P where
  toFrame := hP.toFrame
  answers := hP.answers
  inserted _ hp := setInserted_keeps hP hp
  geckofail _ hp := setGeckofail_keeps hP hp
  mount _ hp := mountSome_keeps hP hp
  unmount _ hp := unmountSome_keeps hP hp
  start _ hp hd := startDvdMount_keeps hP hp hd

section UsesMounts

variable {T : Partition → Prop} (hP : UsesMounts T P)

include hP

theorem UsesMounts.device : Keeps P popDevice := popDevice_keeps hP.toFrame hP.answers

theorem UsesMounts.call : Keeps P deviceCall :=
  .bind hP.toFrame hP.device fun _ => .pure hP.toFrame _

theorem UsesMounts.lastAccess : Keeps P dvdLastAccess := by
  have hF := hP.toFrame
  exact .bind hF hP.device fun _ => .bind hF hP.device fun _ => .bind hF hP.device fun _ =>
    .pure hF _

section Watch

variable {p : Partition} (hp : T p)

include hp

theorem UsesMounts.readDiscInterface (already : Bool) : Keeps P (readDiscInterface p already) := by
  have hF := hP.toFrame
  exact .bind hF (.ite hP.call (.pure hF _)) fun _ => .bind hF hP.call fun _ => hP.inserted p hp _

theorem UsesMounts.readInserted (d : Devices) (already : Bool) :
    Keeps P (readInserted p d already) := by
  have hF := hP.toFrame
  refine .ite ?_ (hP.readDiscInterface hp already)
  by_cases hdvd : p = .dvd
  · subst hdvd
    refine .bind hF (.gets hF _) fun _ => .ite (.pure hF _) ?_
    exact .bind hF hP.call fun _ => .ite (.pure hF _) <|
      .bind hF hP.device fun _ => hP.inserted _ hp _
  · rw [if_neg hdvd]
    exact hP.inserted p hp _

theorem UsesMounts.wasInsertedOrRemoved : Keeps P (wasInsertedOrRemoved p) := by
  have hF := hP.toFrame
  exact .bind hF (.gets hF _) fun _ => .ite (.pure hF _) <|
    .bind hF (hP.readInserted hp _ _) fun _ => .bind hF (.gets hF _) fun _ => .pure hF _

theorem UsesMounts.checkRemovableDevice : Keeps P (checkRemovableDevice p) := by
  have hF := hP.toFrame
  refine .bind hF (.gets hF _) fun _ => .ite (.pure hF _) ?_
  refine .bind hF (hP.wasInsertedOrRemoved hp) fun _ => .bind hF (.gets hF _) fun _ =>
    .ite (.ite ?_ (.ite ?_ (.pure hF _))) (.pure hF _)
  · by_cases hdvd : p = .dvd
    · rw [if_pos hdvd]
      exact hP.start p hp (by rw [hdvd]; rfl)
    · rw [if_neg hdvd]
      exact .bind hF (hP.mount p hp) fun _ => .ite (hP.geckofail p hp _) (.pure hF _)
  · exact .bind hF (hP.unmount p hp) fun _ => .pure hF _

end Watch

end UsesMounts

theorem checkRemovableDevice_keeps {T : Partition → Prop} (hP : UsesDrives T P) {p : Partition}
    (hp : T p) : Keeps P (checkRemovableDevice p) :=
  hP.toUsesMounts.checkRemovableDevice hp

/-! ## Buttons and timers -/

/-- Mounting, unmounting and ejecting, each taken as a whole. -/
structure Mounts (P : World → World → Prop) : Prop where
  mount : ∀ partition, Keeps P (mount partition)
  unmount : ∀ partition, Keeps P (unmount partition)
  eject : Keeps P dvdEject

/-- The buttons and timers, with mounting and unmounting given as wholes. -/
structure UsesConsole (P : World → World → Prop) : Prop extends UsesMounts (fun _ => True) P where
  others : ∀ (w : World) d, d.dvdMountWait = w.devices.dvdMountWait →
    d.mounted = w.devices.mounted → P w { w with devices := d }

section UsesConsole

variable (hP : UsesConsole P)

include hP

theorem UsesConsole.mountAny (partition : Option Partition) : Keeps P (mount partition) := by
  cases partition with
  | none => exact .bind hP.toFrame (fun w => hP.others w _ rfl rfl) fun _ => .pure hP.toFrame _
  | some p => exact hP.mount p trivial

theorem UsesConsole.unmountAny (partition : Option Partition) : Keeps P (unmount partition) := by
  cases partition with
  | none => exact .pure hP.toFrame _
  | some p => exact hP.unmount p trivial

theorem UsesConsole.stop : Keeps P dvdStop :=
  .bind hP.toFrame (gettime_keeps hP.toFrame hP.answers) fun _ =>
    .bind hP.toFrame (fun w => hP.others w _ rfl rfl) fun _ =>
      .bind hP.toFrame (fun w => hP.others w _ rfl rfl) fun _ => hP.device

theorem UsesConsole.discUnmount : Keeps P dvdUnmount := by
  have hF := hP.toFrame
  have hu := fun p => hP.unmount p trivial
  exact .bind hF (hu _) fun _ => .bind hF (hu _) fun _ => .bind hF (hu _) fun _ =>
    .bind hF hP.stop fun _ => .pure hF _

theorem UsesConsole.mounts : Mounts P where
  mount := hP.mountAny
  unmount := hP.unmountAny
  eject := .bind hP.toFrame hP.discUnmount fun _ => hP.device

theorem UsesConsole.motorTimeout (now : Nat) : Keeps P (checkDvdMotorTimeout now) := by
  have hF := hP.toFrame
  exact .bind hF hP.lastAccess fun _ => .bind hF (.gets hF _) fun _ =>
    .ite hP.discUnmount (.pure hF _)

theorem UsesConsole.remountAny (partition : Option Partition) : Keeps P (remount partition) :=
  .ite (hP.start .dvd trivial rfl) <|
    .bind hP.toFrame (hP.mountAny _) fun _ => .pure hP.toFrame _

theorem UsesConsole.removableDevices (now : Nat) : Keeps P (checkRemovableDevices now) := by
  have hF := hP.toFrame
  refine .bind hF (.gets hF _) fun _ => .ite (.pure hF _) ?_
  exact .bind hF (.forEach hF (fun _ => hP.checkRemovableDevice trivial) _) fun _ =>
    .bind hF (gettime_keeps hF hP.answers) fun _ w => hP.others w _ rfl rfl

theorem UsesConsole.remountEvent : Keeps P processRemountEvent := by
  have hF := hP.toFrame
  refine .bind hF (.gets hF _) fun d => ?_
  cases d.mountstate with
  | start => exact fun w => hP.others w _ rfl rfl
  | selectDevice => exact fun w => hP.others w _ rfl rfl
  | waitForDevice =>
    exact .bind hF (fun w => hP.others w _ rfl rfl) fun _ =>
      .bind hF (hP.remountAny _) fun _ w => hP.others w _ rfl rfl

theorem UsesConsole.mountTimer : Keeps P startMountTimer :=
  .bind hP.toFrame (gettime_keeps hP.toFrame hP.answers) fun _ w => hP.others w _ rfl rfl

theorem UsesConsole.deviceSelectEvent (pressed : Nat) :
    Keeps P (processDeviceSelectEvent pressed) := by
  have hF := hP.toFrame
  refine .bind hF (.gets hF _) fun d => .ite ?_ (.pure hF _)
  refine .bind hF (fun w => hP.others w _ rfl rfl) fun _ => ?_
  cases (selectedPartition pressed).or d.mountPartition with
  | none => exact .pure hF _
  | some p =>
    refine .bind hF (fun w => hP.others w _ rfl rfl) fun _ => .ite ?_ ?_
    · exact .bind hF (.gets hF _) fun _ => .ite (fun w => hP.others w _ rfl rfl) <|
        .bind hF hP.discUnmount fun _ => hP.mountTimer
    · exact .bind hF (.ite (hP.unmount p trivial) (.pure hF _)) fun _ => hP.mountTimer

theorem UsesConsole.timerEvents : Keeps P processTimerEvents := by
  have hF := hP.toFrame
  exact .bind hF (gettime_keeps hF hP.answers) fun _ => .bind hF (hP.motorTimeout _) fun _ =>
    .bind hF (.bind hF (.gets hF _) fun _ => .ite hP.remountEvent (.pure hF _)) fun _ =>
      hP.removableDevices _

variable (reset : ∀ w, P w { w with resetFlag := true })

include reset

theorem UsesConsole.wiimoteEvents : Keeps P processWiimoteEvents := by
  have hF := hP.toFrame
  exact .bind hF (checkButtons_keeps hF hP.answers _) fun _ => .ite (fun w => reset w) <|
    .ite hP.remountEvent (.ite (hP.deviceSelectEvent _) (.pure hF _))

theorem UsesConsole.gamecubeEvents : Keeps P processGamecubeEvents := by
  have hF := hP.toFrame
  exact .bind hF (checkButtons_keeps hF hP.answers _) fun _ => .ite (fun w => reset w) <|
    .ite hP.remountEvent (.ite (hP.deviceSelectEvent _) (.pure hF _))

end UsesConsole

theorem UsesDevices.console (hP : UsesDevices P) : UsesConsole P where
  toUsesMounts := hP.drives.toUsesMounts
  others w d _ _ := hP.devices w d

theorem UsesDevices.mounts (hP : UsesDevices P) : Mounts P := hP.console.mounts

end Ftpii
