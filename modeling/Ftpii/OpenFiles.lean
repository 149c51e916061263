import Ftpii.DataSetup
import Ftpii.Directories
import Ftpii.Ownership
set_option autoImplicit false

/-!
Who holds the files and directories that transfers open. The streams that were not
closed are the ones transfers still use, one client each; a data connection that
cannot be prepared breaks this, if the client is told so.
-/

namespace Ftpii
open StateProgram Prog Ownership

/-! ## Streams -/

def World.openStreams (w : World) : Set Nat := {h | ∃ st, w.streams h = some st ∧ st.closes = 0}

/-- Nothing was closed twice, and what is open is in the one set or the other. -/
structure World.Accounts (rest mine : Set Nat) (w : World) : Prop where
  fresh : ∀ h, w.nextStream ≤ h → w.streams h = none
  once : ∀ h st, w.streams h = some st → st.closes ≤ 1
  share : Share rest w.openStreams mine

/-- Streams were used, but none was opened or closed. -/
structure SameHandles (w w' : World) : Prop where
  nextStream : w'.nextStream = w.nextStream
  closes : ∀ h, (w'.streams h).map Stream.closes = (w.streams h).map Stream.closes

structure SameOpen (w w' : World) : Prop extends SameHandles w w' where
  hist : w'.hist = w.hist

theorem SameOpen.of_eq {w w' : World} (hs : w'.streams = w.streams)
    (hn : w'.nextStream = w.nextStream) (hh : w'.hist = w.hist) : SameOpen w w' :=
  ⟨⟨hn, fun _ => by rw [hs]⟩, hh⟩

theorem sameHandles_frame : Frame SameHandles where
  refl _ := ⟨rfl, fun _ => rfl⟩
  trans h h' := ⟨h'.nextStream.trans h.nextStream, fun k => (h'.closes k).trans (h.closes k)⟩

theorem sameOpen_frame : Frame SameOpen where
  refl w := ⟨sameHandles_frame.refl w, rfl⟩
  trans h h' := ⟨sameHandles_frame.trans h.toSameHandles h'.toSameHandles, h'.hist.trans h.hist⟩

theorem sameOpen_sockets : UsesSockets SameOpen where
  toFrame := sameOpen_frame
  answers _ _ _ := .of_eq rfl rfl rfl
  shrink _ := .of_eq rfl rfl rfl
  flags _ _ _ _ _ _ := .of_eq rfl rfl rfl
  write _ _ _ _ _ _ _ _ := .of_eq rfl rfl rfl
  opened _ _ _ := .of_eq rfl rfl rfl
  bound _ _ _ _ _ := .of_eq rfl rfl rfl
  listening _ _ _ _ := .of_eq rfl rfl rfl
  closed _ _ := .of_eq rfl rfl rfl
  waits _ _ _ := .of_eq rfl rfl rfl
  connects _ _ _ := .of_eq rfl rfl rfl
  received _ _ _ _ _ := .of_eq rfl rfl rfl

theorem sameOpen_paths : UsesPaths SameOpen where
  toFrame := sameOpen_frame
  answers _ _ _ := .of_eq rfl rfl rfl
  errno _ _ := .of_eq rfl rfl rfl
  disk _ _ := .of_eq rfl rfl rfl
  renamed _ _ _ := .of_eq rfl rfl rfl

theorem sameOpen_devices : UsesDevices SameOpen where
  toFrame := sameOpen_frame
  answers _ _ _ := .of_eq rfl rfl rfl
  devices _ _ := .of_eq rfl rfl rfl

theorem sameOpen_streaming : Streaming (fun _ => True) SameOpen where
  toLookups := sameOpen_paths.toLookups
  flushed _ _ _ _ _ _ _ _ := .of_eq rfl rfl rfl
  stream w h st st' _ hst he _ := by
    refine ⟨⟨rfl, fun k => ?_⟩, rfl⟩
    by_cases hk : k = h
    · simp [World.setStream, hk, hst, he]
    · simp [World.setStream, hk]

theorem Looked.sameOpen {w w' : World} (h : Looked w w') : SameOpen w w' := by
  obtain ⟨a, e, rfl⟩ := h
  exact .of_eq rfl rfl rfl

theorem SameHandles.find {w w' : World} (h : SameHandles w w') {k : Nat} {st' : Stream}
    (hs : w'.streams k = some st') : ∃ st, w.streams k = some st ∧ st.closes = st'.closes := by
  have hc := h.closes k
  rw [hs] at hc
  cases hst : w.streams k with
  | none => simp [hst] at hc
  | some st => exact ⟨st, rfl, by simpa [hst] using hc.symm⟩

theorem SameHandles.symm_find {w w' : World} (h : SameHandles w w') {k : Nat} {st : Stream}
    (hs : w.streams k = some st) : ∃ st', w'.streams k = some st' ∧ st'.closes = st.closes := by
  have hc := h.closes k
  rw [hs] at hc
  cases hst : w'.streams k with
  | none => simp [hst] at hc
  | some st' => exact ⟨st', rfl, by simpa [hst] using hc⟩

theorem SameHandles.openStreams {w w' : World} (h : SameHandles w w') :
    w'.openStreams = w.openStreams := by
  ext k
  constructor
  · intro ⟨st', hs, h0⟩
    obtain ⟨st, hst, he⟩ := h.find hs
    exact ⟨st, hst, he.trans h0⟩
  · intro ⟨st, hs, h0⟩
    obtain ⟨st', hst', he⟩ := h.symm_find hs
    exact ⟨st', hst', he.trans h0⟩

section Accounts

variable {rest mine : Set Nat} {w : World} (h : w.Accounts rest mine)

include h

theorem World.Accounts.same {w' : World} (hw : SameHandles w w') : w'.Accounts rest mine where
  fresh k hk := by
    have hc := hw.closes k
    rw [h.fresh k (hw.nextStream ▸ hk)] at hc
    simpa using hc
  once k st' hs := by
    obtain ⟨st, hst, he⟩ := hw.find hs
    exact he ▸ h.once k st hst
  share := by
    rw [hw.openStreams]
    exact h.share

theorem World.Accounts.opened (t : Target) (disk : Str → Option Str) :
    (w.opened t disk).Accounts rest (insert w.nextStream mine) where
  fresh k hk := by
    have hne : k ≠ w.nextStream := by
      rintro rfl
      exact Nat.not_succ_le_self _ hk
    simpa [World.opened, hne] using h.fresh k (Nat.le_of_succ_le hk)
  once k st hs := by
    by_cases hk : k = w.nextStream
    · obtain rfl : { target := t } = st := by simpa [World.opened, hk] using hs
      exact Nat.zero_le _
    · exact h.once k st (by simpa [World.opened, hk] using hs)
  share := by
    have hnew : w.nextStream ∉ w.openStreams := by
      intro hmem
      obtain ⟨st, hs, -⟩ := hmem
      rw [h.fresh _ le_rfl] at hs
      contradiction
    have hset : (w.opened t disk).openStreams = insert w.nextStream w.openStreams := by
      ext k
      by_cases hk : k = w.nextStream
      · simp [World.openStreams, World.opened, hk]
      · simp [World.openStreams, World.opened, hk]
    rw [hset]
    exact h.share.insert hnew

theorem World.Accounts.closed {k : Nat} (hk : k ∈ mine) :
    (w.closeStream k).Accounts rest (mine \ {k}) := by
  obtain ⟨st, hs, h0⟩ := (h.share.held k).mpr (.inl hk)
  have hstreams := closeStream_streams w k hs
  have hnext : (w.closeStream k).nextStream = w.nextStream := by
    simp [World.closeStream, hs, World.setStream]
  refine ⟨fun j hj => ?_, fun j st' hj => ?_, ?_⟩
  · have hne : j ≠ k := by
      rintro rfl
      rw [h.fresh j (hnext ▸ hj)] at hs
      contradiction
    rw [hstreams, Function.update_of_ne hne]
    exact h.fresh j (hnext ▸ hj)
  · by_cases hjk : j = k
    · subst hjk
      rw [hstreams, Function.update_self] at hj
      obtain rfl := Option.some.inj hj
      simp [h0]
    · rw [hstreams, Function.update_of_ne hjk] at hj
      exact h.once j st' hj
  · have hset : (w.closeStream k).openStreams = w.openStreams \ {k} := by
      ext j
      by_cases hjk : j = k
      · simp [World.openStreams, hstreams, hjk, h0]
      · simp [World.openStreams, hstreams, hjk]
    rw [hset]
    exact h.share.erase hk

end Accounts

/-- Either cleanup closes the stream, whatever becomes of what was buffered. -/
theorem runCleanup_closes (cleanup : Cleanup) (arg : Nat) (w : World) :
    ∃ w', SameOpen w w' ∧ (runCleanup cleanup arg w).2 = w'.closeStream arg := by
  cases cleanup with
  | vrtDirclose => exact ⟨w, sameOpen_frame.refl w, rfl⟩
  | fclose =>
    have hdraw : SameOpen w (fileAnswer w).2 :=
      fileAnswer_keeps sameOpen_frame sameOpen_paths.answers w
    simp only [runCleanup, fclose, bind_run, modify_run, pure_run]
    cases hs : (fileAnswer w).2.streams arg with
    | none =>
      refine ⟨_, hdraw, ?_⟩
      simp [World.closeStream, hs]
    | some st =>
      exact ⟨_, sameOpen_frame.trans hdraw (flush_keeps sameOpen_streaming _ trivial _), rfl⟩

theorem runCleanup_accounts {rest mine : Set Nat} {w : World} (h : w.Accounts rest mine)
    (cleanup : Cleanup) {arg : Nat} (ha : arg ∈ mine) :
    (runCleanup cleanup arg w).2.Accounts rest (mine \ {arg}) := by
  obtain ⟨w', hw, he⟩ := runCleanup_closes cleanup arg w
  rw [he]
  exact (h.same hw.toSameHandles).closed ha

/-! ## One client -/

def Client.files (c : Client) : Set Nat := {h | c.dataConnectionCallbackArg = some h}

/-- A callback, its argument and its cleanup come and go together. -/
structure Client.Paired (c : Client) : Prop where
  arg : c.dataConnectionCallbackArg.isSome = c.dataCallback.isSome
  cleanup : c.dataConnectionCleanup.isSome = c.dataCallback.isSome

/-- What is open is held by this client's transfer or by the others, which have the rest. -/
structure Session.Accounted (rest : Set Nat) (s : Session) : Prop where
  paired : s.client.Paired
  world : s.world.Accounts rest s.client.files

structure Client.SameTransfer (c c' : Client) : Prop where
  callback : c'.dataCallback = c.dataCallback
  arg : c'.dataConnectionCallbackArg = c.dataConnectionCallbackArg
  cleanup : c'.dataConnectionCleanup = c.dataConnectionCleanup

theorem Client.SameTransfer.refl (c : Client) : c.SameTransfer c := ⟨rfl, rfl, rfl⟩

theorem Client.SameTransfer.paired {c c' : Client} (h : c.SameTransfer c') (hc : c.Paired) :
    c'.Paired := by
  constructor
  · rw [h.arg, h.callback, hc.arg]
  · rw [h.cleanup, h.callback, hc.cleanup]

theorem Client.SameTransfer.files {c c' : Client} (h : c.SameTransfer c') : c'.files = c.files := by
  rw [Client.files, Client.files, h.arg]

theorem Client.Paired.files_empty {c : Client} (h : c.Paired) (hcb : c.dataCallback = none) :
    c.files = ∅ := by
  have harg := h.arg
  rw [hcb, Option.isSome_none, Option.isSome_eq_false_iff, Option.isNone_iff_eq_none] at harg
  simp [Client.files, harg]

/-- A transfer was given up for want of a data socket, and the client was told so. -/
def Leaks (h : List Event) : Prop :=
  ∃ q text r, 0 ≤ r ∧ [.noDataSocket q, .reply 520 text r] <:+: h

theorem Leaks.mono {h h' : List Event} (hl : Leaks h) (hp : h <+: h') : Leaks h' := by
  obtain ⟨q, text, r, hr, hi⟩ := hl
  exact ⟨q, text, r, hr, hi.trans hp.isInfix⟩

/-- Some client was told of a transfer given up for want of a data socket. -/
def World.GivenUp (w : World) : Prop := ∃ k, Leaks (w.hist k)

/-- Nothing that was told is taken back. -/
def Recalls (w w' : World) : Prop := ∀ k, w.hist k <+: w'.hist k

theorem Grows.recalls {w w' : World} (h : Grows w w') : Recalls w w' :=
  fun _ => h.hist ▸ List.prefix_rfl

theorem recalls_frame : Frame Recalls where
  refl _ _ := List.prefix_rfl
  trans h h' k := (h k).trans (h' k)

theorem recalls_emit (w : World) (k : Nat) (e : Event) : Recalls w (w.emit k e) := by
  intro j
  by_cases hj : j = k
  · simp [World.emit, hj]
  · simp [World.emit, hj]

theorem recalls_use : WorldUse Recalls where
  sockets := grows_sockets.imp recalls_frame fun _ _ h => h.recalls
  streams := grows_streams.imp recalls_frame fun _ _ h => h.recalls
  devices := (grows_devices.imp recalls_frame fun _ _ h => h.recalls).mounts
  emit := recalls_emit
  statics _ _ _ _ _ := (⟨le_rfl, rfl⟩ : Grows _ _).recalls

theorem Recalls.not_givenUp {w w' : World} (h : Recalls w w') (hno : ¬ w'.GivenUp) :
    ¬ w.GivenUp := fun ⟨k, hk⟩ => hno ⟨k, hk.mono (h k)⟩

theorem SameOpen.recalls {w w' : World} (h : SameOpen w w') : Recalls w w' :=
  fun _ => h.hist ▸ List.prefix_rfl

/-- Unless a transfer was given up, the streams stay accounted for. -/
structure KeepsFiles (rest : Set Nat) (s s' : Session) : Prop where
  recalls : Recalls s.world s'.world
  files : ¬ s'.world.GivenUp → s.Accounted rest → s'.Accounted rest

section KeepsFiles

variable {rest : Set Nat}

theorem keepsFiles_frame : Frame (KeepsFiles rest) where
  refl s := ⟨recalls_frame.refl s.world, fun _ => id⟩
  trans h h' := ⟨recalls_frame.trans h.recalls h'.recalls,
    fun hno ha => h'.files hno (h.files (h'.recalls.not_givenUp hno) ha)⟩

theorem KeepsFiles.of_same {s s' : Session} (hc : s.client.SameTransfer s'.client)
    (hw : SameOpen s.world s'.world) : KeepsFiles rest s s' where
  recalls := hw.recalls
  files _ ha := by
    refine ⟨hc.paired ha.paired, ?_⟩
    rw [hc.files]
    exact ha.world.same hw.toSameHandles

theorem KeepsFiles.emit (s : Session) (e : Event) :
    KeepsFiles rest s { s with world := s.world.emit s.client.conn e } where
  recalls := recalls_emit _ _ _
  files _ ha := ⟨ha.paired, ha.world.fresh, ha.world.once, ha.world.share⟩

theorem SameOpen.keepsFiles (c : Client) {w w' : World} (h : SameOpen w w') :
    At (KeepsFiles rest) c w w' :=
  KeepsFiles.of_same (s := ⟨c, w⟩) (.refl c) h

theorem keepsFiles_sockets (c : Client) : UsesSockets (At (KeepsFiles rest) c) :=
  sameOpen_sockets.imp (frameAt keepsFiles_frame c) fun _ _ h => h.keepsFiles c

theorem keepsFiles_replies : Replies (KeepsFiles rest) :=
  .of_sends keepsFiles_frame (fun c => (keepsFiles_sockets c).toSends.mono fun _ _ => trivial)
    fun s _ _ _ => KeepsFiles.emit s _

theorem keepsFiles_passive (s : Session) (fd : Int) :
    KeepsFiles rest s { s with client := { s.client with passiveSocket := fd } } :=
  .of_same ⟨rfl, rfl, rfl⟩ (sameOpen_frame.refl _)

theorem keepsFiles_quiet : QuietUse (KeepsFiles rest) where
  toReplies := keepsFiles_replies
  paths c :=
    { toFrame := frameAt keepsFiles_frame c
      answers := fun w a ha => (sameOpen_paths.answers w a ha).keepsFiles c
      errno := fun w e => (sameOpen_paths.errno w e).keepsFiles c
      disk := fun w d => (sameOpen_paths.disk w d).keepsFiles c
      renamed := fun w a b => (sameOpen_paths.renamed w a b).keepsFiles c }
  devices c := (sameOpen_devices.imp (frameAt keepsFiles_frame c) fun _ _ h => h.keepsFiles c).mounts
  statics _ _ _ _ _ := .of_same (.refl _) (.of_eq rfl rfl rfl)
  type _ _ := .of_same ⟨rfl, rfl, rfl⟩ (sameOpen_frame.refl _)
  pending _ _ := .of_same ⟨rfl, rfl, rfl⟩ (sameOpen_frame.refl _)
  auth _ := .of_same ⟨rfl, rfl, rfl⟩ (sameOpen_frame.refl _)
  cwd _ _ := .of_same ⟨rfl, rfl, rfl⟩ (sameOpen_frame.refl _)
  marker _ _ := .of_same ⟨rfl, rfl, rfl⟩ (sameOpen_frame.refl _)
  pasv := ftpPasv_keeps keepsFiles_sockets keepsFiles_passive keepsFiles_replies fun _ _ =>
    .of_same (.refl _) (.of_eq rfl rfl rfl)
  port := ftpPort_keeps keepsFiles_sockets keepsFiles_passive keepsFiles_replies fun _ _ =>
    .of_same ⟨rfl, rfl, rfl⟩ (sameOpen_frame.refl _)
  rein := ftpRein_keeps keepsFiles_sockets keepsFiles_passive keepsFiles_replies fun _ =>
    .of_same ⟨rfl, rfl, rfl⟩ (sameOpen_frame.refl _)

/-! ## A stream in hand -/

/-- A handler has opened this stream and nothing else is under way for its client. -/
structure Session.InHand (rest : Set Nat) (f : Nat) (s : Session) : Prop where
  idle : s.client.dataCallback = none
  paired : s.client.Paired
  world : s.world.Accounts rest {f}

theorem Session.InHand.same {f : Nat} {s s' : Session} (h : s.InHand rest f)
    (hc : s.client.SameTransfer s'.client) (hw : SameOpen s.world s'.world) : s'.InHand rest f :=
  ⟨hc.callback.trans h.idle, hc.paired h.paired, h.world.same hw.toSameHandles⟩

theorem Session.Accounted.opened {s : Session} (h : s.Accounted rest)
    (hcb : s.client.dataCallback = none) {w : World} (hw : SameOpen s.world w) (t : Target)
    (disk : Str → Option Str) :
    Session.InHand rest s.world.nextStream ⟨s.client, w.opened t disk⟩ := by
  have ho := (h.world.same hw.toSameHandles).opened t disk
  rw [h.paired.files_empty hcb, hw.nextStream] at ho
  exact ⟨hcb, h.paired, by simpa using ho⟩

theorem Session.InHand.closed {f : Nat} {s : Session} (h : s.InHand rest f) (cleanup : Cleanup) :
    Session.Accounted rest ⟨s.client, (runCleanup cleanup f s.world).2⟩ := by
  have hclose := runCleanup_accounts h.world cleanup (Set.mem_singleton f)
  refine ⟨h.paired, ?_⟩
  rw [h.paired.files_empty h.idle]
  simpa using hclose

theorem Session.Holds.accounted {f : Nat} {s : Session} {callback : Callback} {cleanup : Cleanup}
    (h : s.Holds callback f cleanup) (hw : s.world.Accounts rest {f}) : s.Accounted rest := by
  have hfiles : s.client.files = {f} := by
    ext k
    simp [Client.files, h.arg, eq_comm]
  refine ⟨⟨?_, ?_⟩, hfiles ▸ hw⟩
  · rw [h.arg, h.callback]
    rfl
  · rw [h.cleanup, h.callback]
    rfl

/-- How a preparation ends: the caller is to close its stream, the transfer has it, or neither. -/
theorem prepareDataConnection_outcome (callback : Callback) (arg : Nat) (cleanup : Cleanup)
    (s : Session) :
    let p := prepareDataConnection callback arg cleanup s
    (p.1 < 0 ∧ s.client.SameTransfer p.2.client) ∨
      (0 ≤ p.1 ∧ p.2.Holds callback arg cleanup) ∨ (0 ≤ p.1 ∧ p.2.world.GivenUp) := by
  intro p
  have hrun : p = _ := prepareDataConnection_run callback arg cleanup s
  have hreply := writeReply_client 150 "Transferring data.".toList s
  rw [hrun]
  generalize writeReply 150 "Transferring data.".toList s = r at hreply ⊢
  simp only
  split
  · rename_i hneg
    exact .inl ⟨hneg, hreply ▸ .refl _⟩
  · have hsocket : s.client.SameTransfer (prepareSocket r.2).2.client := by
      rcases prepareSocket_client r.2 with ⟨-, hc⟩ | ⟨-, fd, hc⟩
      · rw [hc, hreply]
        exact .refl _
      · rw [hc, hreply]
        exact ⟨rfl, rfl, rfl⟩
    generalize prepareSocket r.2 = q at hsocket ⊢
    split
    · set u := q.2.emitted (.noDataSocket q.1) with hu
      by_cases hr : (transferError u).1 < 0
      · refine .inl ⟨hr, ?_⟩
        rw [transferError_client]
        exact hsocket
      · have hstory := transferError_story u
        rw [hu, story_emitted] at hstory
        refine .inr (.inr ⟨not_lt.mp hr, (transferError u).2.client.conn, q.1,
          "Closing data connection, error occurred during transfer.".toList, (transferError u).1,
          not_lt.mp hr, ?_⟩)
        rw [Session.story] at hstory
        rw [hstory]
        exact ⟨q.2.story, [], by simp [hu]⟩
    · rename_i hpos
      exact .inr (.inl ⟨not_lt.mp hpos, rfl, rfl, rfl⟩)

theorem transfer_files {f : Nat} {s : Session} (h : s.InHand rest f) (callback : Callback)
    (cleanup : Cleanup) (hno : ¬ (transfer callback f cleanup s).2.world.GivenUp) :
    (transfer callback f cleanup s).2.Accounted rest := by
  let p := prepareDataConnection callback f cleanup s
  have hfiles : SameFiles s p.2 := prepareDataConnection_sameFiles callback f cleanup s
  have haccounts : p.2.world.Accounts rest {f} := by
    refine ⟨?_, ?_, ?_⟩
    · rw [hfiles.streams, hfiles.nextStream]
      exact h.world.fresh
    · rw [hfiles.streams]
      exact h.world.once
    · rw [World.openStreams, hfiles.streams]
      exact h.world.share
  have hrun : transfer callback f cleanup s =
      if p.1 < 0 then (p.1, ⟨p.2.client, (runCleanup cleanup f p.2.world).2⟩) else p := by
    simp +instances only [transfer, bind_run, ite_run, os_run, pure_run]
    rfl
  rw [hrun] at hno ⊢
  rcases prepareDataConnection_outcome callback f cleanup s with
    ⟨hneg, hc⟩ | ⟨hpos, hheld⟩ | ⟨hpos, hleak⟩
  · have hin : p.2.InHand rest f := ⟨hc.callback.trans h.idle, hc.paired h.paired, haccounts⟩
    rw [if_pos hneg]
    exact hin.closed cleanup
  · rw [if_neg (not_lt.mpr hpos)]
    exact hheld.accounted haccounts
  · rw [if_neg (not_lt.mpr hpos)] at hno
    exact absurd hleak hno

theorem seek_sameOpen (f : Nat) (marker : Int) : Keeps SameOpen (seek f marker) :=
  .ite (lseek_keeps sameOpen_streaming trivial _) (.pure sameOpen_frame _)

/-- A program that is handed a stream closes it or passes it on to a transfer. -/
def Settles (rest : Set Nat) (f : Nat) (m : Ses Int) : Prop :=
  ∀ s : Session, s.InHand rest f → ¬ (m s).2.world.GivenUp → (m s).2.Accounted rest

theorem seekToMarker_settles {f : Nat} {proceed : Ses Int} (hp : Settles rest f proceed) :
    Settles rest f (seekToMarker f proceed) := by
  intro s h hno
  let q := seek f s.client.restartMarker s.world
  let c : Client := { s.client with restartMarker := 0 }
  have hq : SameOpen s.world q.2 := seek_sameOpen f s.client.restartMarker s.world
  have hin : Session.InHand rest f ⟨c, q.2⟩ := h.same ⟨rfl, rfl, rfl⟩ hq
  let t : Session := ⟨c, (runCleanup .fclose f q.2).2⟩
  have hrun : seekToMarker f proceed s = if q.1 = s.client.restartMarker then proceed ⟨c, q.2⟩
      else writeReply 550 (t.world.strerror q.2.errno) t := by
    simp +instances only [seekToMarker, bind_run, client_run, os_run, ite_run, update_run, gets_run]
    rfl
  rw [hrun] at hno ⊢
  split at hno
  · rename_i he
    rw [if_pos he]
    exact hp _ hin hno
  · rename_i he
    rw [if_neg he]
    exact (writeReply_keeps keepsFiles_replies _ _ t).files hno (hin.closed .fclose)

theorem ftpSiteLoad_settles (cwd path : Str) (f : Nat) : Settles rest f (do
    os (loadRealPath cwd path f)
    os (runCleanup .fclose f)
    writeReply 500 "Unable to load.".toList) := by
  intro s h hno
  have hload : SameOpen s.world (loadRealPath cwd path f s.world).2 := by
    refine (Keeps.bind sameOpen_frame (toRealPath_keeps sameOpen_paths.toLookups cwd path) fun o => ?_)
      s.world
    cases o with
    | none => exact .pure sameOpen_frame _
    | some real => exact loadFromFile_keeps sameOpen_streaming (fun _ => .of_eq rfl rfl rfl) trivial
  have hin : Session.InHand rest f ⟨s.client, (loadRealPath cwd path f s.world).2⟩ :=
    h.same (.refl _) hload
  exact (writeReply_keeps keepsFiles_replies _ _ _).files hno (hin.closed .fclose)

/-- A call that opens a stream, or none and does nothing. -/
def OpensStream (m : Os (Option Nat)) : Prop :=
  ∀ w, (m w).1 = none ∧ Looked w (m w).2 ∨
    ∃ t disk w', Looked w w' ∧ m w = (some w.nextStream, w'.opened t disk)

theorem vrtFopen_opens (cwd path : Str) (mode : Mode) : OpensStream (vrtFopen cwd path mode) := by
  intro w
  rcases vrtFopen_cases cwd path mode w with hnone | ⟨real, w', -, hl, -, hrun⟩
  · exact .inl hnone
  · exact .inr ⟨_, _, w', hl, hrun⟩

theorem vrtDiropen_opens (cwd path : Str) : OpensStream (vrtDiropen cwd path) := by
  intro w
  rcases vrtDiropen_cases cwd path w with hnone | ⟨t, w', hl, hrun⟩
  · exact .inl hnone
  · exact .inr ⟨t, _, w', hl, hrun⟩

/-- What handlers do to the streams while no transfer is under way. -/
def Files (rest : Set Nat) (m : Ses Int) : Prop :=
  ∀ s : Session, s.client.dataCallback = none → KeepsFiles rest s (m s).2

/-- A handler that opens a stream and settles it keeps the streams accounted for. -/
theorem opens_files {n : Ses Int} (ht : Keeps (OnWorld Recalls) n)
    (run : ∀ s : Session, ∃ (m : Os (Option Nat)) (refuse : Ses Int) (use : Nat → Ses Int),
      OpensStream m ∧ Keeps (KeepsFiles rest) refuse ∧ (∀ f, Settles rest f (use f)) ∧
        n s = (m s.world).1.elim refuse use ⟨s.client, (m s.world).2⟩) : Files rest n := by
  intro s hcb
  refine ⟨ht s, fun hno h => ?_⟩
  obtain ⟨m, refuse, use, hm, hrefuse, huse, hrun⟩ := run s
  rw [hrun] at hno ⊢
  rcases hm s.world with ⟨hn, hl⟩ | ⟨t, disk, w', hl, hopen⟩
  · have hsame : Session.Accounted rest ⟨s.client, (m s.world).2⟩ :=
      ⟨h.paired, h.world.same hl.sameOpen.toSameHandles⟩
    rw [hn] at hno ⊢
    exact (hrefuse _).files hno hsame
  · rw [hopen] at hno ⊢
    exact huse _ _ (h.opened hcb hl.sameOpen t disk) hno

theorem listDirectory_files (callback : Callback) (path : Str) :
    Files rest (listDirectory callback path) := by
  have hu := recalls_use.handlers
  refine opens_files (listDirectory_keeps hu.toReplies hu.sockets hu.streams hu.toUpdatesTransfer
    callback path) fun s =>
    ⟨vrtDiropen s.client.cwd (if path = [] then ['.'] else path), replyErrno,
      fun dir => transfer callback dir .vrtDirclose, vrtDiropen_opens _ _,
      replyErrno_keeps keepsFiles_replies, fun _ _ ht => transfer_files ht _ _, ?_⟩
  simp only [listDirectory, bind_run, client_run, os_run]
  cases (vrtDiropen s.client.cwd (if path = [] then ['.'] else path) s.world).1 <;> rfl

theorem ftpRetr_files (path : Str) : Files rest (ftpRetr path) := by
  have hu := recalls_use.handlers
  refine opens_files (ftpRetr_keeps hu.toReplies hu.sockets hu.streams hu.toUpdatesTransfer
    (fun _ _ => recalls_frame.refl _) path) fun s =>
    ⟨vrtFopen s.client.cwd path .rb, replyErrno,
      fun f => seekToMarker f (transfer .sendFromFile f .fclose), vrtFopen_opens _ _ _,
      replyErrno_keeps keepsFiles_replies,
      fun _ => seekToMarker_settles fun _ ht => transfer_files ht _ _, ?_⟩
  rw [ftpRetr_run]
  cases (vrtFopen s.client.cwd path .rb s.world).1 <;> rfl

theorem ftpStor_files (path : Str) : Files rest (ftpStor path) := by
  have hu := recalls_use.handlers
  refine opens_files (ftpStor_keeps hu.toReplies hu.sockets hu.streams hu.toUpdatesTransfer
    (fun _ _ => recalls_frame.refl _) path) fun s =>
    ⟨vrtFopen s.client.cwd path .wb,
      (do
        update fun c => { c with restartMarker := 0 }
        storOrAppend none),
      fun f => seekToMarker f (storOrAppend (some f)), vrtFopen_opens _ _ _,
      .bind keepsFiles_frame (update_keeps fun s => keepsFiles_quiet.marker s 0) fun _ =>
        replyErrno_keeps keepsFiles_replies,
      fun _ => seekToMarker_settles fun _ ht => transfer_files ht _ _, ?_⟩
  rw [ftpStor_run]
  cases (vrtFopen s.client.cwd path .wb s.world).1 <;> rfl

theorem ftpAppe_files (path : Str) : Files rest (ftpAppe path) := by
  have hu := recalls_use.handlers
  refine opens_files (ftpAppe_keeps hu.toReplies hu.sockets hu.streams hu.toUpdatesTransfer path)
    fun s =>
    ⟨vrtFopen s.client.cwd path .ab, replyErrno, fun f => transfer .recvToFile f .fclose,
      vrtFopen_opens _ _ _, replyErrno_keeps keepsFiles_replies,
      fun _ _ ht => transfer_files ht _ _, ?_⟩
  simp only [ftpAppe, bind_run, client_run, os_run]
  cases (vrtFopen s.client.cwd path .ab s.world).1 <;> rfl

theorem ftpSiteLoad_files (path : Str) : Files rest (ftpSiteLoad path) := by
  refine opens_files (ftpSiteLoad_keeps recalls_use.replies (fun _ => recalls_use.streams)
    (fun _ => recalls_frame.refl _) path) fun s =>
    ⟨vrtFopen s.client.cwd path .rb, replyErrno, _, vrtFopen_opens _ _ _,
      replyErrno_keeps keepsFiles_replies, fun _ => ftpSiteLoad_settles s.client.cwd path _, ?_⟩
  simp only [ftpSiteLoad, bind_run, client_run, os_run]
  cases (vrtFopen s.client.cwd path .rb s.world).1 <;> rfl

theorem files_handlers : Concludes (KeepsFiles rest) (Files rest) where
  toQuietUse := keepsFiles_quiet
  quiet hm s _ := hm s
  list := listDirectory_files
  retr := ftpRetr_files
  stor := ftpStor_files
  appe := ftpAppe_files
  load := ftpSiteLoad_files

theorem processCommand_files (cmdLine : Str) : Files rest (processCommand cmdLine) := by
  intro s hcb
  by_cases he : cmdLine = []
  · subst he
    exact keepsFiles_frame.refl s
  · rw [processCommand_run he]
    exact keepsFiles_frame.trans (.emit s _) (files_handlers.dispatch _ cmdLine _ hcb)

theorem keepsFiles_reads : ReadsLines (KeepsFiles rest) where
  toFrame := keepsFiles_frame
  heard := heard_keeps keepsFiles_frame keepsFiles_sockets KeepsFiles.emit
  event s e _ := KeepsFiles.emit s e
  buffer _ _ _ := .of_same ⟨rfl, rfl, rfl⟩ (sameOpen_frame.refl _)
  command := processCommand_files

/-! ## Turns -/

theorem sameTransfer_frame : Frame Client.SameTransfer where
  refl := .refl
  trans h h' := ⟨h'.callback.trans h.callback, h'.arg.trans h.arg, h'.cleanup.trans h.cleanup⟩

theorem dataStep_sameTransfer (s : Session) : s.client.SameTransfer (dataStep s).2.client := by
  have hd : Drives (OnClient Client.SameTransfer) :=
    ⟨OnClient.frame sameTransfer_frame, OnClient.sockets sameTransfer_frame,
      fun c => (OnClient.streams sameTransfer_frame c).toClosing, fun _ _ _ => ⟨rfl, rfl, rfl⟩⟩
  exact (Keeps.bind hd.toFrame (.gets hd.toFrame _) fun _ =>
    .ite (driveTransfer_keeps hd) (awaitDataConnection_keeps hd)) s

theorem dataStep_sameOpen (s : Session) : SameOpen s.world (dataStep s).2.world := by
  by_cases h : s.client.dataConnectionConnected = true
  · have hrun : dataStep s = driveTransfer s := by
      simp only [dataStep, bind_run, client_run, h, if_true]
    rw [hrun]
    simp only [driveTransfer, bind_run, client_run]
    cases s.client.dataCallback with
    | none => exact sameOpen_frame.refl _
    | some callback =>
      cases s.client.dataConnectionCallbackArg with
      | none => exact sameOpen_frame.refl _
      | some arg =>
        exact runCallback_keeps (sameOpen_sockets.toTalks.carries callback _) sameOpen_streaming
          trivial s.world
  · exact dataStep_waits sameOpen_sockets (by simpa using h)

theorem dataStep_files : Keeps (KeepsFiles rest) dataStep := fun s =>
  .of_same (dataStep_sameTransfer s) (dataStep_sameOpen s)

theorem closeDataSocket_sameOpen (s : Session) : SameOpen s.world (closeDataSocket s).2.world := by
  simp +instances only [closeDataSocket, bind_run, client_run, ite_run, os_run, pure_run]
  split
  · exact netCloseBlocking_keeps sameOpen_sockets _ _
  · exact sameOpen_frame.refl _

/-- A client that gives up its transfer closes the transfer's stream. -/
theorem Session.Accounted.released {s : Session} (h : s.Accounted rest) :
    (cleanupDataResources s).2.world.Accounts rest ∅ := by
  have hopen := h.world.same (closeDataSocket_sameOpen s).toSameHandles
  rw [cleanupDataResources_world]
  cases hcb : s.client.dataCallback with
  | none =>
    have harg := h.paired.arg
    rw [hcb, Option.isSome_none, Option.isSome_eq_false_iff, Option.isNone_iff_eq_none] at harg
    rw [h.paired.files_empty hcb] at hopen
    simp only [runClientCleanup, bind_run, client_run, harg]
    cases s.client.dataConnectionCleanup <;> exact hopen
  | some callback =>
    have harg := h.paired.arg
    have hcleanup := h.paired.cleanup
    rw [hcb, Option.isSome_some, Option.isSome_iff_exists] at harg hcleanup
    obtain ⟨f, harg⟩ := harg
    obtain ⟨cleanup, hcleanup⟩ := hcleanup
    have hmine : f ∈ s.client.files := harg
    have hclosed := runCleanup_accounts hopen cleanup hmine
    have hnone : s.client.files \ {f} = ∅ := by
      ext k
      simp [Client.files, harg]
    rw [hnone] at hclosed
    simpa only [runClientCleanup, bind_run, client_run, harg, hcleanup, os_run] using hclosed

theorem cleanupDataResources_files : Keeps (KeepsFiles rest) cleanupDataResources := by
  intro s
  have hc := cleanupDataResources_client s
  refine ⟨(cleanupDataResources_grows s).recalls, fun _ h => ?_⟩
  have hfree := h.released
  generalize cleanupDataResources s = t at hc hfree ⊢
  refine ⟨?_, ?_⟩
  · rw [hc]
    exact ⟨rfl, rfl⟩
  · have hnone : t.2.client.files = ∅ := by
      ext k
      simp [hc, Client.files, Client.released]
    rwa [hnone]

theorem dataEvents_files : Keeps (KeepsFiles rest) dataEvents := by
  intro s
  have hr : Replies (KeepsFiles rest) := keepsFiles_replies
  rw [dataEvents_run]
  simp only
  split
  · refine keepsFiles_frame.trans (dataStep_files s) <|
      keepsFiles_frame.trans (cleanupDataResources_files _) ?_
    unfold transferDone
    rw [ite_run]
    split
    · exact transferError_keeps hr _
    · exact writeReply_keeps hr _ _ _
  · exact dataStep_files s

theorem turn_files (c : Client) : Keeps (KeepsFiles rest) (turn c) :=
  .ite dataEvents_files (controlEvents_keeps keepsFiles_reads)

theorem Session.Accounted.left {s : Session} (h : s.Accounted rest) :
    (closeSockets s).2.world.Accounts rest ∅ := by
  let t : Session := ⟨s.client, (netCloseBlocking s.client.socket s.world).2⟩
  have ht : t.Accounted rest :=
    ⟨h.paired, h.world.same (netCloseBlocking_keeps sameOpen_sockets _ _).toSameHandles⟩
  have hrun : (closeSockets s).2 = (closePassiveSocket (cleanupDataResources t).2).2 := rfl
  rw [hrun]
  have hclose : OnWorld SameOpen (cleanupDataResources t).2
      (closePassiveSocket (cleanupDataResources t).2).2 :=
    closePassiveSocket_keeps (R := OnWorld SameOpen) (fun _ => sameOpen_sockets)
      (fun _ _ => sameOpen_frame.refl _) (OnWorld.frame sameOpen_frame) _
  exact ht.released.same hclose.toSameHandles

end KeepsFiles

/-! ## The server -/

section Held

variable {ρ : Type} (f : Client → Set ρ)

def Server.held (s : Server) (p : Nat) : Set ρ := {r | ∃ c, s.heap p = some c ∧ r ∈ f c}

theorem held_of_heap {s : Server} {p : Nat} {c : Client} (h : s.heap p = some c) :
    s.held f p = f c := by
  ext r
  simp [Server.held, h]

theorem held_withSession (s : Server) (p : Nat) (t : Session) :
    (s.withSession p t).held f = Function.update (s.held f) p (f t.client) := by
  funext q
  by_cases hq : q = p
  · subst hq
    rw [Function.update_self]
    exact held_of_heap f (by simp [Server.withSession])
  · rw [Function.update_of_ne hq]
    simp [Server.held, Server.withSession, hq]

theorem held_without (s : Server) (i : Fin MAX_CLIENTS) (p : Nat) (w : World) :
    (s.without i p w).held f = Function.update (s.held f) p ∅ := by
  funext q
  by_cases hq : q = p
  · simp [Server.held, Server.without, hq]
  · rw [Function.update_of_ne hq]
    simp [Server.held, Server.without, hq]

theorem held_entering (s : Server) (i : Fin MAX_CLIENTS) (t : Session) :
    (s.entering i t).held f = Function.update (s.held f) s.nextClient (f t.client) := by
  funext q
  by_cases hq : q = s.nextClient
  · subst hq
    rw [Function.update_self]
    exact held_of_heap f (by simp [Server.entering])
  · rw [Function.update_of_ne hq]
    simp [Server.held, Server.entering, hq]

end Held

/-- Every stream that is not closed is the one of a client's transfer, and of no other's. -/
structure Filed (s : Server) : Prop where
  paired : ∀ p c, s.heap p = some c → c.Paired
  fresh : ∀ h, s.world.nextStream ≤ h → s.world.streams h = none
  once : ∀ h st, s.world.streams h = some st → st.closes ≤ 1
  owned : Owned s.world.openStreams (s.held Client.files)

theorem Filed.accounted {s : Server} (h : Filed s) {p : Nat} {c : Client} (hp : s.heap p = some c) :
    Session.Accounted (others (s.held Client.files) p) ⟨c, s.world⟩ := by
  have hshare := h.owned.share p
  rw [held_of_heap _ hp] at hshare
  exact ⟨h.paired p c hp, h.fresh, h.once, hshare⟩

theorem Filed.same {s : Server} (h : Filed s) {w : World} (hw : SameHandles s.world w)
    (server : Int) (down halted : Bool) (n : Nat) : Filed { s with
      world := w, server := server, networkDown := down, halted := halted, nextClient := n } := by
  refine ⟨h.paired, fun k hk => ?_, fun k st' hs => ?_, ?_⟩
  · have hc := hw.closes k
    rw [h.fresh k (hw.nextStream ▸ hk)] at hc
    simpa using hc
  · obtain ⟨st, hst, he⟩ := hw.find hs
    exact he ▸ h.once k st hst
  · rw [hw.openStreams]
    exact h.owned

theorem Filed.turn {s : Server} (h : Filed s) {p : Nat} {t : Session}
    (ht : t.Accounted (others (s.held Client.files) p)) : Filed (s.withSession p t) := by
  refine ⟨fun q c hq => ?_, ht.world.fresh, ht.world.once, ?_⟩
  · by_cases he : q = p
    · subst he
      obtain rfl : t.client = c := by simpa [Server.withSession] using hq
      exact ht.paired
    · exact h.paired q c (by simpa [Server.withSession, he] using hq)
  · rw [held_withSession]
    exact h.owned.update ht.world.share

theorem Filed.leave {s : Server} (h : Filed s) {i : Fin MAX_CLIENTS} {p : Nat} {t : Session}
    {w : World} (hw : w.Accounts (others (s.held Client.files) p) ∅) :
    Filed ((s.withSession p t).without i p w) := by
  refine ⟨fun q c hq => ?_, hw.fresh, hw.once, ?_⟩
  · have hne : q ≠ p := by
      rintro rfl
      simp [Server.without] at hq
    exact h.paired q c (by simpa [Server.without, Server.withSession, hne] using hq)
  · rw [held_without, held_withSession, Function.update_idem]
    exact h.owned.update hw.share

theorem Filed.enter {s : Server} (hs : WellFormed s) (h : Filed s) {i : Fin MAX_CLIENTS}
    {t : Session} (ht : t.client.dataCallback = none) (hp : t.client.Paired)
    (hw : SameHandles s.world t.world) : Filed (s.entering i t) := by
  have hsame := h.same hw s.server s.networkDown s.halted s.nextClient
  refine ⟨fun q c hq => ?_, hsame.fresh, hsame.once, ?_⟩
  · by_cases he : q = s.nextClient
    · subst he
      obtain rfl : t.client = c := by simpa [Server.entering] using hq
      exact hp
    · exact h.paired q c (by simpa [Server.entering, he] using hq)
  · have hnone : s.held Client.files s.nextClient = ∅ := by
      ext k
      simp [Server.held, hs.fresh s.nextClient le_rfl]
    rw [held_entering, hp.files_empty ht, ← hnone, Function.update_eq_self]
    exact hsame.owned

theorem Idle.sameOpen {w w' : World} (h : Idle w w') : SameOpen w w' := by
  obtain ⟨a, e, d, r, l, rfl, -⟩ := h
  exact .of_eq rfl rfl rfl

theorem opened_sameOpen {w w₁ w' : World} {peer : Int} (hw : Idle w w₁)
    (hw' : Idle (w₁.openedSock peer) w') : SameOpen w w' :=
  sameOpen_frame.trans hw.sameOpen <|
    sameOpen_frame.trans (.of_eq rfl rfl rfl : SameOpen w₁ (w₁.openedSock peer)) hw'.sameOpen

theorem writeReply_sameHandles (code : Nat) (msg : Str) (s : Session) :
    SameHandles s.world (writeReply code msg s).2.world := by
  have h := writeReply_sameFiles code msg s
  exact ⟨h.nextStream, fun _ => by rw [h.streams]⟩

theorem greeted_sameHandles {s : Server} {w w' : World} {peer : Int} (hi : Idle s.world w)
    (hi' : Idle (w.openedSock peer) w') (address : SockAddr) :
    SameHandles s.world (greeted w' peer address).world ∧
      Recalls s.world (greeted w' peer address).world := by
  have hsame := opened_sameOpen hi hi'
  let t : Session := ⟨newClient w' peer address, w'⟩
  exact ⟨sameHandles_frame.trans hsame.toSameHandles (writeReply_sameHandles _ _ t),
    recalls_frame.trans hsame.recalls (writeReply_keeps recalls_use.replies _ _ t)⟩

/-- The streams stay filed in every step that tells nobody of a transfer given up. -/
theorem survives_filed : Survives fun s => ¬ s.world.GivenUp → Filed s where
  idle server down halted _ hs hi hno :=
    (hs (hi.sameOpen.recalls.not_givenUp hno)).same hi.sameOpen.toSameHandles server down halted _
  away {s w w' peer} _ hs _ _ hi hi' hno := by
    have hsame : SameOpen s.world (turnedAway w' peer) :=
      sameOpen_frame.trans (opened_sameOpen hi hi') (netClose_keeps sameOpen_sockets peer w')
    exact (hs (hsame.recalls.not_givenUp hno)).same hsame.toSameHandles s.server s.networkDown
      s.halted _
  ungreeted {s w w' peer} address _ hs _ _ hi hi' hno := by
    obtain ⟨hsame, hrecalls⟩ := greeted_sameHandles hi hi' address
    have hclose : SameOpen (greeted w' peer address).world (ungreeted w' peer address) :=
      netCloseBlocking_keeps sameOpen_sockets peer _
    exact (hs ((recalls_frame.trans hrecalls hclose.recalls).not_givenUp hno)).same
      (sameHandles_frame.trans hsame hclose.toSameHandles) s.server s.networkDown s.halted _
  enter address h hs _ _ hi hi' _ hno := by
    obtain ⟨hsame, hrecalls⟩ := greeted_sameHandles hi hi' address
    exact (hs (hrecalls.not_givenUp hno)).enter h rfl ⟨rfl, rfl⟩ hsame
  stay {s p c} _ hs hp _ hno := by
    have hkeep : KeepsFiles (others (s.held Client.files) p) ⟨c, s.world⟩ (turn c ⟨c, s.world⟩).2 :=
      turn_files c _
    have hfiled := hs (hkeep.recalls.not_givenUp hno)
    exact hfiled.turn (hkeep.files hno (hfiled.accounted hp))
  leave {s i p c m} _ hs _ hp hm hno := by
    let s₀ : Session := ⟨c, s.world⟩
    have hno' := (closeSockets_grows (m s₀).2).recalls.not_givenUp hno
    have hkeep : KeepsFiles (others (s.held Client.files) p) s₀ (m s₀).2 := by
      rcases hm with rfl | rfl
      · exact turn_files c _
      · exact writeReply_keeps keepsFiles_replies _ _ _
    have hfiled := hs (hkeep.recalls.not_givenUp hno')
    exact hfiled.leave (hkeep.files hno' (hfiled.accounted hp)).left
  finish {s} _ hs _ hno := by
    have hsame : SameOpen s.world (netClose s.server s.world).2 :=
      netClose_keeps sameOpen_sockets s.server s.world
    exact (hs (hsame.recalls.not_givenUp hno)).same hsame.toSameHandles s.server s.networkDown
      s.halted _

theorem filed_initial {s : Server} (h : s.Initial) : ¬ s.world.GivenUp ∧ Filed s := by
  obtain ⟨disk, mounted, strerror, password, rfl⟩ := h.eq
  refine ⟨?_, fun p c hp => by simp [Server.boot] at hp, fun _ _ => rfl,
    fun f st hs => by simp [Server.boot, World.boot] at hs, fun f => ?_, fun f p q hp => ?_⟩
  · intro hgiven
    obtain ⟨k, q, text, r, -, hi⟩ := hgiven
    simp [Server.boot, World.boot] at hi
  · simp [World.openStreams, Server.held, Server.boot, World.boot]
  · simp [Server.held, Server.boot] at hp

/-- Client p is in the table, and its transfer uses this stream and will close it. -/
def Server.HoldsFile (s : Server) (p f : Nat) : Prop :=
  ∃ i c, s.clients i = some p ∧ s.heap p = some c ∧ c.dataCallback.isSome ∧
    c.dataConnectionCallbackArg = some f ∧ c.dataConnectionCleanup.isSome

/-- Every stream that was opened was closed once, and nobody holds it, or it is open and one client
holds it. -/
def Server.FilesSettled (s : Server) : Prop :=
  ∀ f st, s.world.streams f = some st →
    st.closes = 1 ∧ (∀ p, ¬ s.HoldsFile p f) ∨ st.closes = 0 ∧ ∃! p, s.HoldsFile p f

theorem Filed.holdsFile_iff {s : Server} (hs : WellFormed s) (h : Filed s) (p f : Nat) :
    s.HoldsFile p f ↔ f ∈ s.held Client.files p := by
  constructor
  · intro ⟨_, c, _, hp, _, harg, _⟩
    exact ⟨c, hp, harg⟩
  · intro ⟨c, hp, hf⟩
    have harg : c.dataConnectionCallbackArg = some f := hf
    have hpair := h.paired p c hp
    obtain ⟨i, hi⟩ := hs.placed p (by simp [hp])
    have hcb : c.dataCallback.isSome := by
      rw [← hpair.arg, harg]
      rfl
    exact ⟨i, c, hi, hp, hcb, harg, hpair.cleanup.trans hcb⟩

theorem Filed.settled {s : Server} (hs : WellFormed s) (h : Filed s) : s.FilesSettled := by
  intro f st hst
  have hopen := h.owned.held f
  simp only [h.holdsFile_iff hs]
  by_cases h0 : st.closes = 0
  · obtain ⟨p, hp⟩ := hopen.mp ⟨st, hst, h0⟩
    exact .inr ⟨h0, p, hp, fun q hq => h.owned.once f q p hq hp⟩
  · refine .inl ⟨by have := h.once f st hst; omega, fun p hp => ?_⟩
    obtain ⟨st', hst', h0'⟩ := hopen.mpr ⟨p, hp⟩
    exact h0 (Option.some.inj (hst.symm.trans hst') ▸ h0')

/-- In every run in which no client is told of a transfer given up for want of a data socket, every
stream is closed once or held by one client whose transfer will close it. -/
theorem open_files_owned {s : Server}
    (h : Reachable (fun s l => ¬ (s.step l).world.GivenUp) s) : s.FilesSettled := by
  have hno : ¬ s.world.GivenUp := by
    exact Reach.invariant (I := fun s : Server => ¬ s.world.GivenUp)
      (fun s hs => (filed_initial hs).1) (fun _ _ _ hg => hg) h
  obtain ⟨hw, hfiled⟩ := survives_filed.reach (fun s hs _ => (filed_initial hs).2)
    (fun s _ hs _ w server down halted hn hno => by
      have hsame : SameOpen s.world w := hn SameOpen sameOpen_sockets fun w => .of_eq rfl rfl rfl
      exact (hs (hsame.recalls.not_givenUp hno)).same hsame.toSameHandles server down halted _) h
  exact (hfiled hno).settled hw

theorem Reachable.filed {guard : Server → Label → Prop} {s : Server} (h : Reachable guard s)
    (hno : ¬ s.world.GivenUp) : Filed s := by
  have hfiled := (survives_filed.reach (fun s hs _ => (filed_initial hs).2)
    (fun s _ hs _ w server down halted hn hno => by
      have hsame : SameOpen s.world w := hn SameOpen sameOpen_sockets fun w => .of_eq rfl rfl rfl
      exact (hs (hsame.recalls.not_givenUp hno)).same hsame.toSameHandles server down halted _) h).2
  exact hfiled hno

/-- What the last state does not tell of was told of in none before. -/
theorem Reachable.untold {s : Server} (h : Reachable (fun _ _ => True) s) (hno : ¬ s.world.GivenUp) :
    Reachable (fun s l => ¬ (s.step l).world.GivenUp) s := by
  induction h with
  | init hs => exact .init hs
  | step l hr _ ih =>
    have hrecalls := recalls_use.run (fun hi => hi.grows.recalls)
      (fun _ => (⟨le_rfl, rfl⟩ : Grows _ _).recalls) (Reachable.wellFormed hr) [l]
    exact .step l (ih (hrecalls.not_givenUp hno)) hno

def Event.code : Event → Option Nat
  | .reply code _ _ => some code
  | _ => none

theorem not_givenUp_of_code {s : Server} (h : WellFormed s)
    (hcode : ∀ k < s.world.nextSock, ∀ e ∈ s.world.hist k, e.code ≠ some 520) :
    ¬ s.world.GivenUp := by
  intro hgiven
  obtain ⟨k, q, text, r, -, hi⟩ := hgiven
  have hmem : Event.reply 520 text r ∈ s.world.hist k := hi.subset (by simp)
  by_cases hk : k < s.world.nextSock
  · exact hcode k hk _ hmem rfl
  · rw [h.quiet k (not_lt.mp hk)] at hmem
    contradiction

/-- A client that asks for a listing, before these outcomes. -/
def askingRun (net : List NetAnswer) : List Label :=
  connecting ({ data := "PASS x\r\nLIST /\r\n".toList } :: net) ++ [firstTurn]

theorem open_files_owned_listing : (Server.after (askingRun [{ code := 5 }, {}])).FilesSettled := by
  have hr := after_reachable (askingRun [{ code := 5 }, {}])
  exact open_files_owned (hr.untold (not_givenUp_of_code hr.wellFormed (by decide +kernel)))

/-- No socket for the listing's data can be had, and the client is told. -/
theorem listing_leaks :
    Reachable (fun _ _ => True) (Server.after (askingRun [{ code := -5 }])) ∧
      ¬ (Server.after (askingRun [{ code := -5 }])).FilesSettled := by
  have hrun : (((Server.after (askingRun [{ code := -5 }])).world.streams 0).map Stream.closes =
      some 0) ∧ ∀ i, ((Server.after (askingRun [{ code := -5 }])).clients i).bind (fun p =>
        ((Server.after (askingRun [{ code := -5 }])).heap p).bind
          Client.dataConnectionCallbackArg) = none := by decide +kernel
  refine ⟨after_reachable _, fun hs => ?_⟩
  obtain ⟨hopen, hnone⟩ := hrun
  generalize Server.after (askingRun [{ code := -5 }]) = s at hs hopen hnone
  cases hst : s.world.streams 0 with
  | none => simp [hst] at hopen
  | some st =>
    have h0 : st.closes = 0 := by simpa [hst] using hopen
    rcases hs 0 st hst with ⟨h1, -⟩ | ⟨-, p, ⟨i, c, hi, hp, -, harg, -⟩, -⟩
    · omega
    · have hn := hnone i
      rw [hi, Option.bind_some, hp, Option.bind_some, harg] at hn
      contradiction

end Ftpii
