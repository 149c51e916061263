import Ftpii.Handles
set_option autoImplicit false

/-!
The restart marker over runs of one client: command lines and turns of its data
connection in any order, each in any world.
-/

namespace Ftpii
open StateProgram Prog CString Scanf

/-! ## The handlers -/

def SameMarker (c c' : Client) : Prop := c'.restartMarker = c.restartMarker

theorem sameMarker_frame : Frame SameMarker where
  refl _ := rfl
  trans h h' := Eq.trans h' h

theorem sameMarker_transfer : UpdatesTransfer (OnClient SameMarker) where
  unprepared _ _ := rfl
  dataSocket _ _ := rfl
  prepared _ _ _ _ _ := rfl

theorem sameMarker_use : HandlerUse (OnClient SameMarker) where
  toReplies := OnClient.replies sameMarker_frame
  toUpdatesTransfer := sameMarker_transfer
  sockets := OnClient.sockets sameMarker_frame
  streams := OnClient.streams sameMarker_frame
  devices := OnClient.devices sameMarker_frame
  statics _ _ _ _ _ := rfl
  type _ _ := rfl
  pending _ _ := rfl
  passive _ _ := rfl
  address _ _ := rfl

theorem transfer_marker (callback : Callback) (arg : Nat) (cleanup : Cleanup) :
    Keeps (OnClient SameMarker) (transfer callback arg cleanup) :=
  transfer_keeps sameMarker_use.toReplies sameMarker_use.sockets
    (fun c => (sameMarker_use.streams c).toClosing) sameMarker_transfer _ _ _

theorem seekToMarker_marker (f : Nat) {proceed : Ses Int}
    (hp : Keeps (OnClient SameMarker) proceed) (s : Session) :
    (seekToMarker f proceed s).2.client.restartMarker = 0 := by
  simp only [seekToMarker, bind_run, ite_run]
  split
  · exact hp _
  · exact writeReply_keeps sameMarker_use.toReplies _ _ _

theorem ftpRetr_run (path : Str) (s : Session) :
    ftpRetr path s = (match (vrtFopen s.client.cwd path .rb s.world).1 with
      | none => replyErrno
      | some f => seekToMarker f (transfer .sendFromFile f .fclose))
      { s with world := (vrtFopen s.client.cwd path .rb s.world).2 } := rfl

theorem ftpStor_run (path : Str) (s : Session) :
    ftpStor path s = (match (vrtFopen s.client.cwd path .wb s.world).1 with
      | none => do
        update fun c => { c with restartMarker := 0 }
        storOrAppend none
      | some f => seekToMarker f (storOrAppend (some f)))
      { s with world := (vrtFopen s.client.cwd path .wb s.world).2 } := rfl

theorem ftpRetr_marker (path : Str) (s : Session) :
    (ftpRetr path s).2.client.restartMarker =
      if (vrtFopen s.client.cwd path .rb s.world).1.isSome then 0 else s.client.restartMarker := by
  rw [ftpRetr_run]
  cases (vrtFopen s.client.cwd path .rb s.world).1 with
  | none => exact replyErrno_keeps sameMarker_use.toReplies _
  | some f => exact seekToMarker_marker f (transfer_marker _ _ _) _

theorem ftpStor_marker (path : Str) (s : Session) :
    (ftpStor path s).2.client.restartMarker = 0 := by
  rw [ftpStor_run]
  cases (vrtFopen s.client.cwd path .wb s.world).1 with
  | none => exact replyErrno_keeps sameMarker_use.toReplies _
  | some f => exact seekToMarker_marker f (transfer_marker _ _ _) _

theorem ftpAppe_marker : ∀ path, Keeps (OnClient SameMarker) (ftpAppe path) :=
  ftpAppe_keeps sameMarker_use.toReplies sameMarker_use.sockets sameMarker_use.streams
    sameMarker_transfer

theorem ftpRest_marker (offsetStr : Str) (s : Session) :
    SameMarker s.client (ftpRest offsetStr s).2.client ∨
      ∃ k, scanLli offsetStr = some k ∧ 0 ≤ k ∧ (ftpRest offsetStr s).2.client.restartMarker = k := by
  simp only [ftpRest]
  cases hk : scanLli offsetStr with
  | none => exact .inl (writeReply_keeps sameMarker_use.toReplies _ _ s)
  | some k =>
    simp only [ite_run, bind_run]
    split
    · exact .inl (writeReply_keeps sameMarker_use.toReplies _ _ s)
    · rename_i hneg
      exact .inr ⟨k, rfl, by omega, writeReply_keeps sameMarker_use.toReplies _ _ _⟩

/-! ## Runs -/

/-- What happens on a client: a command line is executed, or its data connection has its turn. -/
inductive ClientEvent where
  | command (line : Str)
  | data

def ClientEvent.run : ClientEvent → Ses Unit
  | .command line => do
    let _ ← processCommand line
    pure ()
  | .data => do
    let _ ← dataEvents
    pure ()

def ClientEvent.step (s : Session) (i : World × ClientEvent) : Session :=
  (i.2.run ⟨s.client, i.1⟩).2

/-- The session a handler works on when the line is executed. -/
def Session.handed (s : Session) (w : World) (line : Str) : Session :=
  ⟨s.client, w.emit s.client.conn (.command line w.password)⟩

theorem ClientEvent.step_command (s : Session) (w : World) {line : Str} (h : line ≠ []) :
    ClientEvent.step s (w, .command line) =
      (dispatch s.client.authenticated line (s.handed w line)).2 :=
  congrArg Prod.snd (processCommand_run h ⟨s.client, w⟩)

theorem Named.ne_nil {name : String} {line : Str} (h : Named name line) (hn : name.toList ≠ []) :
    line ≠ [] := by
  rintro rfl
  have hl := congrArg List.length (caseEq_iff.mp h)
  have hs : (splitCommand []).1 = [] := by decide
  rw [hs] at hl
  exact hn (by simpa using hl)

theorem Named.unique {a b : String} {line : Str} (ha : Named a line) (hb : Named b line) :
    fold a.toList = fold b.toList := (caseEq_iff.mp ha).trans (caseEq_iff.mp hb).symm

def Transfers (s : Session) (i : World × ClientEvent) : Prop :=
  ∃ line, i.2 = .command line ∧ s.client.authenticated = true ∧
    (Named "RETR" line ∨ Named "STOR" line ∨ Named "APPE" line)

def Accepts (s : Session) (i : World × ClientEvent) (k : Int) : Prop :=
  ∃ line, i.2 = .command line ∧ s.client.authenticated = true ∧ Named "REST" line ∧
    scanLli (argument line) = some k ∧ 0 ≤ k

/-- The marker was clear, or the command is STOR, or it is RETR of a file that opens. -/
def ClearsMarker (s : Session) (i : World × ClientEvent) : Prop :=
  ∃ line, i.2 = .command line ∧
    (s.client.restartMarker = 0 ∨ Named "STOR" line ∨
      Named "RETR" line ∧
        (vrtFopen s.client.cwd (argument line) .rb (s.handed i.1 line).world).1.isSome)

section Dispatch

variable {s : Session} {w : World} {line : Str} (ha : s.client.authenticated = true)

include ha

theorem step_named {name : String} (h : Named name line) (hn : name.toList ≠ []) :
    ClientEvent.step s (w, .command line) =
      (authenticatedHandlers.getD (authenticatedCommands.findIdx (caseEq · name.toList)) ftpUnknown
        (argument line) (s.handed w line)).2 := by
  rw [ClientEvent.step_command s w (h.ne_nil hn), dispatch, if_pos ha, dispatchToHandler_named h]

theorem step_retr (h : Named "RETR" line) :
    ClientEvent.step s (w, .command line) = (ftpRetr (argument line) (s.handed w line)).2 :=
  step_named ha h (by decide)

theorem step_stor (h : Named "STOR" line) :
    ClientEvent.step s (w, .command line) = (ftpStor (argument line) (s.handed w line)).2 :=
  step_named ha h (by decide)

theorem step_appe (h : Named "APPE" line) :
    ClientEvent.step s (w, .command line) = (ftpAppe (argument line) (s.handed w line)).2 :=
  step_named ha h (by decide)

theorem step_rest (h : Named "REST" line) :
    ClientEvent.step s (w, .command line) = (ftpRest (argument line) (s.handed w line)).2 :=
  step_named ha h (by decide)

end Dispatch

/-- After a transfer command the marker is clear exactly when the command clears it. -/
theorem marker_transfer_iff {s : Session} {i : World × ClientEvent} (h : Transfers s i) :
    (ClientEvent.step s i).client.restartMarker = 0 ↔ ClearsMarker s i := by
  obtain ⟨w, e⟩ := i
  obtain ⟨line, rfl, ha, h⟩ := h
  have hclears : ClearsMarker s (w, .command line) ↔ s.client.restartMarker = 0 ∨
      Named "STOR" line ∨ Named "RETR" line ∧
        (vrtFopen s.client.cwd (argument line) .rb (s.handed w line).world).1.isSome := by
    constructor
    · rintro ⟨l, he, hc⟩
      cases he
      exact hc
    · exact fun hc => ⟨line, rfl, hc⟩
  rw [hclears]
  rcases h with h | h | h
  · have hno : ¬ Named "STOR" line := fun hs => absurd (h.unique hs) (by decide)
    have hc : (s.handed w line).client = s.client := rfl
    rw [step_retr ha h, ftpRetr_marker, hc]
    by_cases ho : (vrtFopen s.client.cwd (argument line) .rb (s.handed w line).world).1.isSome <;>
      simp [ho, h, hno]
  · rw [step_stor ha h, ftpStor_marker]
    simp [h]
  · have hno : ¬ Named "STOR" line := fun hs => absurd (h.unique hs) (by decide)
    have hno' : ¬ Named "RETR" line := fun hs => absurd (h.unique hs) (by decide)
    have hm : (ftpAppe (argument line) (s.handed w line)).2.client.restartMarker =
      s.client.restartMarker := ftpAppe_marker _ _
    rw [step_appe ha h, hm]
    simp [hno, hno']

/-! ## Where a transfer starts -/

theorem seekToMarker_sameStarts (callback : Callback) (f : Nat) (s : Session) :
    SameStarts (seek f s.client.restartMarker s.world).2
      (seekToMarker f (transfer callback f .fclose) s).2.world := by
  simp only [seekToMarker, bind_run, ite_run]
  split
  · exact transfer_sameStarts callback f .fclose _
  · have hclean := runCleanup_sameStarts .fclose f (seek f s.client.restartMarker s.world).2
    have hreply (c : Client) (code : Nat) (msg : Str) :=
      (writeReply_sameFiles code msg
        ⟨c, (runCleanup .fclose f (seek f s.client.restartMarker s.world).2).2⟩).sameStarts
    exact sameStarts_frame.trans hclean (hreply _ _ _)

/-- The seek leaves a stream that starts at 0 there, or moves it to the marker. -/
theorem seek_start (f : Nat) (marker : Int) (w : World) {st₀ st : Stream}
    (h₀ : w.streams f = some st₀) (hz : st₀.start = 0)
    (hst : (seek f marker w).2.streams f = some st) : st.start = 0 ∨ marker = st.start := by
  by_cases hm : marker = 0
  · have hseek : (seek f marker w).2 = w := by simp [seek, hm]
    rw [hseek, h₀] at hst
    exact .inl (Option.some.inj hst ▸ hz)
  · have hseek : seek f marker = lseek f marker.toNat := by simp [seek, hm]
    rw [hseek] at hst
    rcases lseek_cases f marker.toNat w with ⟨-, hl⟩ | ⟨w', hl, hrun⟩
    · rw [hl.streams, h₀] at hst
      exact .inl (Option.some.inj hst ▸ hz)
    · rw [hrun, h₀] at hst
      simp only [World.setStream, Function.update_self, Option.some.injEq] at hst
      subst hst
      simp only
      omega

theorem seekToMarker_start (callback : Callback) (f : Nat) (s : Session) {st₀ st : Stream}
    (h₀ : s.world.streams f = some st₀) (hz : st₀.start = 0)
    (hst : (seekToMarker f (transfer callback f .fclose) s).2.world.streams f = some st) :
    st.start = 0 ∨ s.client.restartMarker = st.start := by
  obtain ⟨st', hst', he⟩ := seekToMarker_sameStarts callback f s f st hst
  rw [he]
  exact seek_start f _ s.world h₀ hz hst'

/-- The file the command opens: the next stream, once there is one more. -/
def Opens (w : World) (s' : Session) (st : Stream) : Prop :=
  w.nextStream < s'.world.nextStream ∧ s'.world.streams w.nextStream = some st

theorem ftpRetr_start (path : Str) (s : Session) {st : Stream}
    (h : Opens s.world (ftpRetr path s).2 st) :
    st.start = 0 ∨ s.client.restartMarker = st.start := by
  obtain ⟨hlt, hst⟩ := h
  rw [ftpRetr_run] at hlt hst
  rcases vrtFopen_cases s.client.cwd path .rb s.world with ⟨hn, hl⟩ | ⟨real, w', -, hl, -, hrun⟩
  · rw [hn] at hlt
    have hf := (replyErrno_keeps sameFiles_replies
      { s with world := (vrtFopen s.client.cwd path .rb s.world).2 }).nextStream
    simp only [hf, hl.nextStream] at hlt
    omega
  · rw [hrun] at hst
    have h₀ : (w'.opened (.file real .rb) (Mode.openDisk .rb s.world.disk real)).streams
        s.world.nextStream = some { target := .file real .rb } := by
      simp [World.opened, hl.nextStream]
    exact seekToMarker_start .sendFromFile _
      ⟨s.client, w'.opened (.file real .rb) (Mode.openDisk .rb s.world.disk real)⟩ h₀ rfl hst

theorem ftpStor_start (path : Str) (s : Session) {st : Stream}
    (h : Opens s.world (ftpStor path s).2 st) :
    st.start = 0 ∨ s.client.restartMarker = st.start := by
  obtain ⟨hlt, hst⟩ := h
  rw [ftpStor_run] at hlt hst
  rcases vrtFopen_cases s.client.cwd path .wb s.world with ⟨hn, hl⟩ | ⟨real, w', -, hl, -, hrun⟩
  · rw [hn] at hlt
    have hf := (replyErrno_keeps sameFiles_replies
      ⟨{ s.client with restartMarker := 0 },
        (vrtFopen s.client.cwd path .wb s.world).2⟩).nextStream
    have hlt' : s.world.nextStream < (vrtFopen s.client.cwd path .wb s.world).2.nextStream :=
      hf ▸ hlt
    rw [hl.nextStream] at hlt'
    omega
  · rw [hrun] at hst
    have h₀ : (w'.opened (.file real .wb) (Mode.openDisk .wb s.world.disk real)).streams
        s.world.nextStream = some { target := .file real .wb } := by
      simp [World.opened, hl.nextStream]
    exact seekToMarker_start .recvToFile _
      ⟨s.client, w'.opened (.file real .wb) (Mode.openDisk .wb s.world.disk real)⟩ h₀ rfl hst

/-! ## The marker over a run -/

/-- A step keeps the marker, clears it, or accepts REST with the offset it sets. -/
theorem marker_step (s : Session) (i : World × ClientEvent) :
    (ClientEvent.step s i).client.restartMarker = s.client.restartMarker ∨
      (ClientEvent.step s i).client.restartMarker = 0 ∨
      Accepts s i (ClientEvent.step s i).client.restartMarker := by
  obtain ⟨w, e⟩ := i
  have hu := sameMarker_use
  cases e with
  | data =>
    have hd : DataUse (OnClient SameMarker) :=
      ⟨hu.toReplies, hu.sockets, fun c => (hu.streams c).toClosing, fun _ _ _ _ _ _ _ => rfl⟩
    exact .inl (dataEvents_keeps hd ⟨s.client, w⟩)
  | command line =>
    have hsame (h : Keeps (OnClient SameMarker) (dispatch s.client.authenticated line))
        (hne : line ≠ []) : SameMarker s.client (ClientEvent.step s (w, .command line)).client := by
      rw [ClientEvent.step_command s w hne]
      exact h (s.handed w line)
    by_cases hne : line = []
    · subst hne
      exact .inl rfl
    by_cases ha : s.client.authenticated = true
    · by_cases hretr : Named "RETR" line
      · rw [step_retr ha hretr, ftpRetr_marker]
        split
        · exact .inr (.inl rfl)
        · exact .inl rfl
      by_cases hstor : Named "STOR" line
      · rw [step_stor ha hstor, ftpStor_marker]
        exact .inr (.inl rfl)
      by_cases hrest : Named "REST" line
      · rcases ftpRest_marker (argument line) (s.handed w line) with hk | ⟨k, hk, hpos, hm⟩
        · exact .inl (by rw [step_rest ha hrest]; exact hk)
        · refine .inr (.inr ⟨line, rfl, ha, hrest, ?_⟩)
          rw [step_rest ha hrest, hm]
          exact ⟨hk, hpos⟩
      · refine .inl (hsame (dispatch_keeps ?_ _) hne)
        exact hu.handled (fun _ => ftpPass_keeps hu.toReplies fun _ => rfl)
          (fun _ path => changeDirectory_keeps hu.toReplies
            (fun c => (hu.streams c).toUsesPaths) (fun _ _ => rfl) path _)
          (fun _ _ => changeDirectory_keeps hu.toReplies
            (fun c => (hu.streams c).toUsesPaths) (fun _ _ => rfl) _ _)
          (fun h => absurd h hretr) (fun h => absurd h hstor) (fun h => absurd h hrest)
          (fun _ => ftpRein_keeps hu.sockets (fun _ _ => rfl) hu.toReplies fun _ => rfl)
    · refine .inl (hsame ?_ hne)
      rw [dispatch, if_neg ha]
      exact unauthenticated_keeps hu.toReplies (fun _ => ftpPass_keeps hu.toReplies fun _ => rfl)
        (fun _ => ftpRein_keeps hu.sockets (fun _ _ => rfl) hu.toReplies fun _ => rfl)

/-- The events of a client, from its connection on. -/
def clientRun (w : World) (peer : Int) (address : SockAddr) (is : List (World × ClientEvent)) :
    Session := is.foldl ClientEvent.step ⟨newClient w peer address, w⟩

/-- Every transfer command of the run clears the marker. -/
def AllClear (w : World) (peer : Int) (address : SockAddr) (is : List (World × ClientEvent)) :
    Prop :=
  ∀ pre i post, is = pre ++ i :: post → Transfers (clientRun w peer address pre) i →
    ClearsMarker (clientRun w peer address pre) i

theorem clientRun_concat (w : World) (peer : Int) (address : SockAddr)
    (pre : List (World × ClientEvent)) (i : World × ClientEvent) :
    clientRun w peer address (pre ++ [i]) =
      ClientEvent.step (clientRun w peer address pre) i := by
  simp [clientRun]

/-- A marker that is set comes from the last REST, with no transfer command since. -/
theorem marker_of_rest {w : World} {peer : Int} {address : SockAddr}
    {is : List (World × ClientEvent)} (h : AllClear w peer address is)
    (hk : (clientRun w peer address is).client.restartMarker ≠ 0) :
    ∃ pre i post, is = pre ++ i :: post ∧
      Accepts (clientRun w peer address pre) i (clientRun w peer address is).client.restartMarker ∧
      ∀ before j after, post = before ++ j :: after →
        ¬ Transfers (clientRun w peer address (pre ++ i :: before)) j :=
  exists_last_set (f := fun s : Session => s.client.restartMarker) (d := 0) (S := Accepts) (C := Transfers)
    marker_step rfl is
    (fun pre i post he ht => (marker_transfer_iff ht).mpr (h pre i post he ht)) hk

/-- The marker is one-shot exactly in the runs whose transfer commands all clear it, and in these a
file starts at an offset only where the last REST put it. -/
theorem marker_oneShot (w : World) (peer : Int) (address : SockAddr)
    (is : List (World × ClientEvent)) :
    ((∀ pre i post, is = pre ++ i :: post → Transfers (clientRun w peer address pre) i →
        (clientRun w peer address (pre ++ [i])).client.restartMarker = 0) ↔
      AllClear w peer address is) ∧
    (AllClear w peer address is → ∀ pre w' line post st,
      is = pre ++ (w', .command line) :: post →
      (clientRun w peer address pre).client.authenticated = true →
      Named "RETR" line ∨ Named "STOR" line →
      Opens w' (clientRun w peer address (pre ++ [(w', .command line)])) st → st.start ≠ 0 →
      ∃ pre' i post', pre = pre' ++ i :: post' ∧
        Accepts (clientRun w peer address pre') i st.start ∧
        ∀ before j after, post' = before ++ j :: after →
          ¬ Transfers (clientRun w peer address (pre' ++ i :: before)) j) := by
  refine ⟨⟨fun h pre i post he ht => ?_, fun h pre i post he ht => ?_⟩, ?_⟩
  · exact (marker_transfer_iff ht).mp (clientRun_concat w peer address pre i ▸ h pre i post he ht)
  · rw [clientRun_concat]
    exact (marker_transfer_iff ht).mpr (h pre i post he ht)
  · intro h pre w' line post st he ha hname hopens hstart
    have hpre : AllClear w peer address pre := fun a i b hb =>
      h a i (b ++ (w', .command line) :: post) (by simp [he, hb])
    rw [clientRun_concat] at hopens
    have hmarker : (clientRun w peer address pre).client.restartMarker = st.start := by
      have hw : w'.nextStream =
        ((clientRun w peer address pre).handed w' line).world.nextStream := rfl
      rcases hname with hn | hn
      · rw [step_retr ha hn, Opens, hw] at hopens
        exact (ftpRetr_start _ _ hopens).resolve_left hstart
      · rw [step_stor ha hn, Opens, hw] at hopens
        exact (ftpStor_start _ _ hopens).resolve_left hstart
    have hne : (clientRun w peer address pre).client.restartMarker ≠ 0 := by
      rw [hmarker]
      omega
    exact hmarker ▸ marker_of_rest hpre hne

/-- A world in which descriptor 3 is the control connection. -/
def connectedWorld : World :=
  { World.boot (fun _ => none) (fun _ => true) (fun _ => []) with
    socks := fun s => if s = 3 then some { id := 0 } else none
    nextSock := 1 }

/-- APPE leaves a marker set for the next transfer. -/
theorem appe_leaves_marker :
    let pre := [(connectedWorld, .command "PASS x".toList), (connectedWorld, .command "REST 5".toList)]
    let i := (connectedWorld, .command "APPE /sd/f".toList)
    Transfers (clientRun connectedWorld 3 {} pre) i ∧
      (clientRun connectedWorld 3 {} (pre ++ [i])).client.restartMarker = 5 := by
  refine ⟨⟨_, rfl, ?_, .inr (.inr ?_)⟩, ?_⟩ <;> decide +kernel

end Ftpii
