import Ftpii.RestartMarker
import Ftpii.Sending
set_option autoImplicit false

/-!
What one call of process_data_events does to the sockets: bytes pass on the data socket, a reply
goes out on the control socket, and no other socket is used.
-/

namespace Ftpii
open StateProgram Prog

/-! ## One number -/

/-- Sockets stay what they were, and bytes go out on the one under this number only. -/
structure SendsOn (fd : Int) (w w' : World) : Prop where
  object : ∀ x k, w'.socks x = some k → ∃ k', w.socks x = some k' ∧ k'.id = k.id
  sent : ∀ n, (∀ k, w.socks fd = some k → n ≠ k.id) → w'.sent n = w.sent n

section SendsOn

variable {fd : Int} {w w' : World}

theorem sendsOn_frame : Frame (SendsOn fd) where
  refl _ := ⟨fun _ k hk => ⟨k, hk, rfl⟩, fun _ _ => rfl⟩
  trans h h' := by
    refine ⟨fun fd' k hk => ?_, fun n hn => ?_⟩
    · obtain ⟨k', hk', hid⟩ := h'.object fd' k hk
      obtain ⟨k'', hk'', hid'⟩ := h.object fd' k' hk'
      exact ⟨k'', hk'', hid'.trans hid⟩
    · refine (h'.sent n fun k hk => ?_).trans (h.sent n hn)
      obtain ⟨k', hk', hid⟩ := h.object fd k hk
      exact hid ▸ hn k' hk'

theorem SendsOn.of_same (hs : w'.socks = w.socks) (ht : w'.sent = w.sent) : SendsOn fd w w' :=
  ⟨fun _ k hk => ⟨k, hs ▸ hk, rfl⟩, fun n _ => congrFun ht n⟩

theorem SendsOn.setSock {x : Int} {k k' : Sock} (hk : w.socks x = some k) (he : k'.id = k.id) :
    SendsOn fd w (w.setSock x (some k')) := by
  refine ⟨fun y l hl => ?_, fun _ _ => rfl⟩
  by_cases hy : y = x
  · subst hy
    obtain rfl : k' = l := by simpa [World.setSock] using hl
    exact ⟨k, hk, he.symm⟩
  · exact ⟨l, by simpa [World.setSock, hy] using hl, rfl⟩

theorem sendsOn_sends : Sends (· = fd) (SendsOn fd) where
  toFrame := sendsOn_frame
  answers _ _ _ := .of_same rfl rfl
  shrink _ := .of_same rfl rfl
  flags _ _ _ _ _ hk := .setSock hk rfl
  write w fd' k data n r hx hk := by
    subst hx
    exact ⟨fun y l hl => ⟨l, hl, rfl⟩, fun m hm => Function.update_of_ne (hm k hk) _ _⟩

theorem sendsOn_streams : UsesStreams (SendsOn fd) where
  toFrame := sendsOn_frame
  answers _ _ _ := .of_same rfl rfl
  errno _ _ := .of_same rfl rfl
  disk _ _ := .of_same rfl rfl
  renamed _ _ _ := .of_same rfl rfl
  opened _ _ := .of_same rfl rfl
  stream _ _ _ _ _ _ := .of_same rfl rfl
  close _ _ _ _ := .of_same rfl rfl

theorem netCloseBlocking_sendsOn (x : Int) : Keeps (SendsOn fd) (netCloseBlocking x) := by
  refine .bind sendsOn_frame (fun w => ?_) fun _ w => ⟨fun y l hl => ?_, fun _ _ => rfl⟩
  · obtain ⟨cs, he⟩ := setBlocking_toggles x true w
    let v : World := { w with answers := { w.answers with fcntls := cs } }
    have hv : SendsOn fd w v := .of_same rfl rfl
    obtain he | ⟨k, f, hk, he⟩ := he
    · rw [he]
      exact hv
    · rw [he]
      exact sendsOn_frame.trans hv (@SendsOn.setSock fd v x k { k with flags := f } hk rfl)
  · by_cases hy : y = x
    · simp [netClose, World.record, World.setSock, hy] at hl
    · exact ⟨l, by simpa [netClose, World.record, World.setSock, hy] using hl, rfl⟩

end SendsOn

/-- Nothing changed about the sockets but the bytes received. -/
structure Receives (w w' : World) : Prop where
  socks : w'.socks = w.socks
  nextSock : w'.nextSock = w.nextSock
  sent : w'.sent = w.sent
  hist : w'.hist = w.hist

theorem receives_frame : Frame Receives where
  refl _ := ⟨rfl, rfl, rfl, rfl⟩
  trans h h' := ⟨h'.socks.trans h.socks, h'.nextSock.trans h.nextSock, h'.sent.trans h.sent,
    h'.hist.trans h.hist⟩

theorem netRead_receives (x : Int) (len : Nat) : Keeps Receives (netRead x len) := by
  have hF : Frame Receives := receives_frame
  have hwait : Keeps Receives (waitOn x) := by
    intro w
    unfold waitOn
    split
    · exact hF.refl w
    · exact ⟨rfl, rfl, rfl, rfl⟩
  refine .bind hF hwait fun o => ?_
  cases o with
  | none => exact .pure hF _
  | some k =>
    refine .bind hF (popNet_keeps hF fun _ _ _ => ⟨rfl, rfl, rfl, rfl⟩) fun _ => .ite (.pure hF _) ?_
    exact .bind hF (fun _ => ⟨rfl, rfl, rfl, rfl⟩) fun _ => .pure hF _

theorem runCallback_sendsOn (callback : Callback) (fd : Int) (arg : Nat) :
    Keeps (SendsOn fd) (runCallback callback fd arg) := by
  have hcarries : Carries callback fd (SendsOn fd) :=
    { toFrame := sendsOn_frame
      send := sendExact_keeps sendsOn_sends rfl
      shrink := fun _ => .of_same rfl rfl
      read := fun _ len w => .of_same (netRead_receives fd len w).socks (netRead_receives fd len w).sent }
  exact runCallback_keeps hcarries sendsOn_streams.toStreaming trivial

/-! ## The end of a call -/

/-- Nothing was received, and nothing sent but on the control socket. -/
structure RepliesOnly (s s' : Session) : Prop where
  socket : s'.client.socket = s.client.socket
  received : s'.world.received = s.world.received
  sends : SendsOn s.client.socket s.world s'.world

theorem repliesOnly_frame : Frame RepliesOnly where
  refl s := ⟨rfl, rfl, sendsOn_frame.refl s.world⟩
  trans h h' :=
    ⟨h'.socket.trans h.socket, h'.received.trans h.received,
      sendsOn_frame.trans h.sends (h.socket ▸ h'.sends)⟩

theorem sameReceived_sends : Sends (fun _ => True) fun w w' => w'.received = w.received where
  refl _ := rfl
  trans h h' := h'.trans h
  answers _ _ _ := rfl
  shrink _ := rfl
  flags _ _ _ _ _ _ := rfl
  write _ _ _ _ _ _ _ _ := rfl

theorem netCloseBlocking_received (fd : Int) (w : World) :
    (netCloseBlocking fd w).2.received = w.received :=
  setBlocking_keeps sameReceived_sends (s := fd) trivial true w

theorem repliesOnly_replies : Replies RepliesOnly where
  toFrame := repliesOnly_frame
  say _ _ s :=
    ⟨rfl, sendExact_keeps sameReceived_sends (s := s.client.socket) trivial _ s.world,
      sendsOn_frame.trans (sendExact_keeps sendsOn_sends rfl _ s.world) (.of_same rfl rfl)⟩

theorem repliesOnly_releases : Releases RepliesOnly where
  toFrame := repliesOnly_frame
  close fd s := ⟨rfl, netCloseBlocking_received fd s.world, netCloseBlocking_sendsOn fd s.world⟩
  streams c :=
    { toFrame := frameAt repliesOnly_frame c
      answers := fun _ _ _ => ⟨rfl, rfl, .of_same rfl rfl⟩
      errno := fun _ _ => ⟨rfl, rfl, .of_same rfl rfl⟩
      flushed := fun _ _ _ _ _ _ _ _ => ⟨rfl, rfl, .of_same rfl rfl⟩
      stream := fun _ _ _ _ _ _ _ _ => ⟨rfl, rfl, .of_same rfl rfl⟩
      close := fun _ _ _ _ _ => ⟨rfl, rfl, .of_same rfl rfl⟩ }
  data s _ _ _ _ _ _ := ⟨rfl, rfl, sendsOn_frame.refl s.world⟩

theorem step_repliesOnly (s : Session) (w : World) :
    let a := dataStep ⟨s.client, w⟩
    RepliesOnly a.2 (ClientEvent.step s (w, .data)) ∧
      (¬ (a.1 ≤ 0 ∧ a.1 ≠ -EAGAIN) → ClientEvent.step s (w, .data) = a.2) := by
  have hrun : ClientEvent.step s (w, .data) = (dataEvents ⟨s.client, w⟩).2 := rfl
  rw [hrun, dataEvents_run]
  simp only
  split
  · have hdone : Keeps RepliesOnly (transferDone (dataStep ⟨s.client, w⟩).1) :=
      .ite (transferError_keeps repliesOnly_replies) (repliesOnly_replies.say _ _)
    exact ⟨repliesOnly_frame.trans (cleanupDataResources_keeps repliesOnly_releases _) (hdone _),
      fun hgo => absurd ‹_› hgo⟩
  · exact ⟨repliesOnly_frame.refl _, fun _ => rfl⟩

/-! ## The first part of a call -/

structure Still (w w' : World) : Prop where
  socks : w'.socks = w.socks
  sent : w'.sent = w.sent
  received : w'.received = w.received

theorem still_frame : Frame Still where
  refl _ := ⟨rfl, rfl, rfl⟩
  trans h h' := ⟨h'.socks.trans h.socks, h'.sent.trans h.sent, h'.received.trans h.received⟩

theorem Idle.still {w w' : World} (h : Idle w w') : Still w w' := by
  obtain ⟨a, e, d, r, l, rfl, -⟩ := h
  exact ⟨rfl, rfl, rfl⟩

theorem netConnect_still (fd : Int) (addr : SockAddr) : Keeps Still (netConnect fd addr) := by
  refine .bind still_frame (fun w => (waitOn_idle fd w).still) fun o => ?_
  cases o with
  | none => exact .pure still_frame _
  | some k =>
    exact .bind still_frame (fun _ => ⟨rfl, rfl, rfl⟩) fun _ =>
      .bind still_frame (popNet_keeps still_frame fun _ _ _ => ⟨rfl, rfl, rfl⟩) fun _ =>
        .pure still_frame _

theorem timed_still (result : Int) (s : Session) : Still s.world (timed result s).2.world :=
  (gettime_keeps idle_frame idle_lookups.answers s.world).still

/-- Until the data connection is made no byte passes, and only a call that goes on opens a socket. -/
theorem dataStep_awaits {s : Session} (h : s.client.dataConnectionConnected = false) :
    let a := dataStep s
    a.2.world.sent = s.world.sent ∧ a.2.world.received = s.world.received ∧
      a.2.client.socket = s.client.socket ∧ (a.1 ≤ 0 → a.2.world.socks = s.world.socks) := by
  have hrun : dataStep s = awaitDataConnection s := by
    simp only [dataStep, bind_run, client_run, h, Bool.false_eq_true, if_false]
  rw [hrun, awaitDataConnection_run h]
  simp only
  split
  · rcases netAccept_cases s.client.passiveSocket s.world with ⟨hneg, hi⟩ | ⟨hpos, -, v, hi, ho⟩
    · rw [if_neg hneg.not_ge]
      have ha := still_frame.trans hi.still (timed_still
        (netAccept s.client.passiveSocket s.world).1.1 ⟨s.client, _⟩)
      exact ⟨ha.sent, ha.received, rfl, fun _ => ha.socks⟩
    · rw [if_pos hpos, ho]
      exact ⟨hi.still.sent, hi.still.received, rfl, fun hle => by simp at hle⟩
  · have hi := netConnect_still s.client.dataSocket s.client.address s.world
    split
    · exact ⟨hi.sent, hi.received, rfl, fun _ => hi.socks⟩
    · have ha := still_frame.trans hi (timed_still (connectResult
        (netConnect s.client.dataSocket s.client.address s.world).1) ⟨s.client, _⟩)
      exact ⟨ha.sent, ha.received, rfl, fun _ => ha.socks⟩

/-- A call on a data connection sends on the data socket only. -/
theorem dataStep_sendsOn {s : Session} (h : s.client.dataConnectionConnected = true) :
    (dataStep s).2.client = s.client ∧
      SendsOn s.client.dataSocket s.world (dataStep s).2.world := by
  have hrun : dataStep s = driveTransfer s := by
    simp only [dataStep, bind_run, client_run, h, if_true]
  rw [hrun]
  simp only [driveTransfer, bind_run, client_run]
  cases s.client.dataCallback with
  | none => exact ⟨rfl, sendsOn_frame.refl s.world⟩
  | some callback =>
    cases s.client.dataConnectionCallbackArg with
    | none => exact ⟨rfl, sendsOn_frame.refl s.world⟩
    | some arg => exact ⟨rfl, runCallback_sendsOn callback s.client.dataSocket arg s.world⟩

/-! ## A whole call -/

/-- The control socket and the data socket, where both are open, are two. -/
def Client.Split (c : Client) (w : World) : Prop :=
  ∀ k l, w.socks c.socket = some k → w.socks c.dataSocket = some l → k.id ≠ l.id

instance (c : Client) (w : World) : Decidable (c.Split w) :=
  match hk : w.socks c.socket, hl : w.socks c.dataSocket with
  | some k, some l => decidable_of_iff (k.id ≠ l.id) (by simp [Client.Split, hk, hl])
  | none, _ => isTrue (by simp [Client.Split, hk])
  | some _, none => isTrue (by simp [Client.Split, hl])

/-- In this call the data socket was sent these bytes, and no other socket any but a reply. -/
structure Session.Puts (s : Session) (w : World) (data : Str) : Prop where
  data : ∀ k, w.socks s.client.dataSocket = some k →
    (ClientEvent.step s (w, .data)).world.sent k.id = w.sent k.id ++ data
  others : ∀ n, (∀ k, w.socks s.client.dataSocket = some k → n ≠ k.id) →
    (∀ k, w.socks s.client.socket = some k → n ≠ k.id) →
    (ClientEvent.step s (w, .data)).world.sent n = w.sent n

/-- The bytes that went out on the data socket in this call. -/
def Session.delivered (s : Session) (w : World) : Str :=
  match w.socks s.client.dataSocket with
  | none => []
  | some k => ((ClientEvent.step s (w, .data)).world.sent k.id).drop (w.sent k.id).length

/-- The bytes that came in on the data socket in this call. -/
def Session.gained (s : Session) (w : World) : Str :=
  match w.socks s.client.dataSocket with
  | none => []
  | some k => ((ClientEvent.step s (w, .data)).world.received k.id).drop (w.received k.id).length

section Call

variable {s : Session} {w : World}

/-- What follows the first part of a call shows on the control socket only. -/
theorem step_data_traffic (s : Session) (w : World) :
    let a := (dataStep ⟨s.client, w⟩).2
    let t := ClientEvent.step s (w, .data)
    t.world.received = a.world.received ∧
      ∀ n, (∀ k, w.socks s.client.socket = some k → n ≠ k.id) →
        t.world.sent n = a.world.sent n := by
  obtain ⟨hend, hgo⟩ := step_repliesOnly s w
  refine ⟨hend.received, fun n hn => ?_⟩
  by_cases hover : (dataStep ⟨s.client, w⟩).1 ≤ 0 ∧ (dataStep ⟨s.client, w⟩).1 ≠ -EAGAIN
  · refine hend.sends.sent n fun k hk => ?_
    cases hc : s.client.dataConnectionConnected with
    | true =>
      obtain ⟨hclient, hsends⟩ := dataStep_sendsOn (s := ⟨s.client, w⟩) hc
      rw [hclient] at hk
      obtain ⟨k', hk', hid⟩ := hsends.object _ k hk
      exact hid ▸ hn k' hk'
    | false =>
      obtain ⟨-, -, hsocket, hsocks⟩ := dataStep_awaits (s := ⟨s.client, w⟩) hc
      rw [hsocks hover.1, hsocket] at hk
      exact hn k hk
  · rw [hgo hover]

/-- Nothing goes out beside what the first part of a call sends and the reply. -/
theorem Session.puts {data : Str} (hsplit : s.client.Split w)
    (hdata : ∀ k, w.socks s.client.dataSocket = some k →
      (dataStep ⟨s.client, w⟩).2.world.sent k.id = w.sent k.id ++ data) : s.Puts w data := by
  obtain ⟨-, hsent⟩ := step_data_traffic s w
  refine ⟨fun k hk => ?_, fun n hd hc => ?_⟩
  · rw [hsent k.id fun l hl => (hsplit l k hl hk).symm]
    exact hdata k hk
  · rw [hsent n hc]
    cases hconn : s.client.dataConnectionConnected with
    | true => exact (dataStep_sendsOn (s := ⟨s.client, w⟩) hconn).2.sent n hd
    | false => exact congrFun (dataStep_awaits (s := ⟨s.client, w⟩) hconn).1 n

theorem Session.Puts.delivered {data : Str} (h : s.Puts w data) {k : Sock}
    (hk : w.socks s.client.dataSocket = some k) : s.delivered w = data := by
  simp [Session.delivered, hk, h.data k hk]

theorem gained_eq (s : Session) (w : World) : s.gained w =
    match w.socks s.client.dataSocket with
    | none => []
    | some k => ((dataStep ⟨s.client, w⟩).2.world.received k.id).drop (w.received k.id).length := by
  rw [Session.gained, (step_data_traffic s w).1]

end Call

end Ftpii
