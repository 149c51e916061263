import Ftpii.Isolation
set_option autoImplicit false

/-!
What control connections carry: in every run the bytes read on one are those its story tells of, and
the bytes written are the replies to its lines.
-/

namespace Ftpii
open StateProgram Prog

/-! ## Control sockets and their stories -/

/-- The control socket was sent the replies the client's story tells of, whole but for those that
failed, and what the story tells of was read from it. -/
structure Client.OnRecord (c : Client) (w : World) : Prop where
  socket : ∃ k, w.socks c.socket = some k ∧ k.id = c.conn
  spoken : Spoken (w.hist c.conn) (w.sent c.conn)
  heard : w.received c.conn = received (w.hist c.conn)

def Server.Speaks (s : Server) : Prop := ∀ p c, s.heap p = some c → c.OnRecord s.world

section Speaks

variable {s : Server}

theorem Server.Speaks.undisturbed (h : s.Speaks) {s' : Server} {q : Nat} {d : Client}
    (hq : s.heap q = some d) (hpos : 0 ≤ d.socket) (hu : s.Undisturbed q d s') :
    d.OnRecord s'.world := by
  obtain ⟨⟨k, hk, hid⟩, hspoken, hheard⟩ := h q d hq
  obtain ⟨l, hl, hl', hsent, hread⟩ := hu.sockets d.socket ⟨hpos, .inl rfl⟩
  obtain rfl := Option.some.inj (hl.symm.trans hk)
  rw [hid] at hsent hread
  exact ⟨⟨l, hl', hid⟩, by rwa [hu.hist, hsent], by rw [hu.hist, hread, hheard]⟩

/-- What a session adds on its control connection. -/
theorem Client.OnRecord.watches {c : Client} {w : World} {t : Session} (h : c.OnRecord w)
    (hc : c.Sound) (hd : w.Distinct) (ht : Watches c.socket c.conn ⟨c, w⟩ t) :
    t.client.OnRecord t.world := by
  obtain ⟨⟨k, hk, hid⟩, hspoken, hheard⟩ := h
  have hf := ht ⟨hc.socket, hc.passive.symm, hc.data.symm, hd, k, hk, hid⟩
  obtain ⟨k', hk', hid'⟩ := hf.clear.object
  obtain ⟨es, bs, hstory, hes, hsent, hread⟩ := hf.spoken rfl
  have hconn : t.client.conn = c.conn := hf.conn
  have hsocket : t.client.socket = c.socket := hf.socket
  simp only [Session.story] at hstory
  rw [hconn] at hstory
  constructor
  · rw [hconn, hsocket]
    exact ⟨k', hk', hid'⟩
  · rw [hconn, hstory, hsent]
    exact hspoken.append hes
  · rw [hconn, hstory, hread, received_append, hheard]

/-- Sockets and streams are apart and the control connections are on record. -/
structure Server.Heard (listener : Set Int) (s : Server) : Prop where
  shares : s.Shares listener
  distinct : s.world.Distinct
  streams : s.StreamsApart
  speaks : s.Speaks

theorem Server.Speaks.welcomes {listener : Set Int} (h : s.Speaks) (hs : s.Shares listener)
    {s' : Server} (hheap : s'.heap = s.heap)
    (hu : ∀ q d, s.heap q = some d → s.Undisturbed q d s') : s'.Speaks := by
  intro q d hq
  rw [hheap] at hq
  exact h.undisturbed hq (hs.sound q d hq).socket (hu q d hq)

/-- A client is as its session left it, and the others are left alone. -/
theorem Server.Speaks.turn {listener : Set Int} (h : s.Speaks) (hs : s.Shares listener)
    {p : Nat} {t : Session} (ht : t.client.OnRecord t.world)
    (hu : ∀ q d, q ≠ p → s.heap q = some d → s.Undisturbed q d (s.withSession p t)) :
    (s.withSession p t).Speaks := by
  intro q d hq
  by_cases he : q = p
  · subst he
    obtain rfl : t.client = d := by simpa [Server.withSession] using hq
    exact ht
  · have hold : s.heap q = some d := by simpa [Server.withSession, he] using hq
    exact h.undisturbed hold (hs.sound q d hold).socket (hu q d he hold)

theorem greeted_onRecord {w w' : World} {peer : Int} (address : SockAddr) (hs : WellFormed s)
    (hd : s.world.Distinct) (hpos : 0 ≤ peer) (hi : Idle s.world w)
    (hi' : Idle (w.openedSock peer) w') :
    (greeted w' peer address).client.OnRecord (greeted w' peer address).world := by
  have hconn : (newClient w' peer address).conn = s.world.nextSock := by
    rw [newClient_conn hi', hi.nextSock]
  have hsound : (newClient w' peer address).Sound := by
    have hgreet := (greeted_numbers w' hpos address).1
    rwa [greeted, writeReply_client] at hgreet
  have hsock : w'.socks peer = some { id := s.world.nextSock } := by
    rw [hi'.socks, openedSock_socks, Function.update_self, hi.nextSock]
  have hhist : w'.hist (newClient w' peer address).conn = [] := by
    rw [hconn, (opened_sameOpen hi hi').hist]
    exact hs.quiet _ le_rfl
  have hsent : w'.sent = s.world.sent := hi'.still.sent.trans hi.still.sent
  have hread : w'.received = s.world.received := hi'.still.received.trans hi.still.received
  have hnew : (newClient w' peer address).OnRecord w' := by
    refine ⟨⟨_, hsock, hconn.symm⟩, ?_, ?_⟩
    · rw [hhist, hsent, hconn, hd.unsent _ le_rfl]
      exact .nil
    · rw [hhist, hread, hconn, hd.unread _ le_rfl]
      rfl
  exact hnew.watches hsound (hi'.distinct ((hi.distinct hd).opened peer))
    (writeReply_watches 220 "ftpii".toList ⟨newClient w' peer address, w'⟩)

theorem endures_heard (listener : Set Int) : Endures (Server.Heard listener) where
  idle {s w} server down halted hw hs hi := by
    refine ⟨(endures_shares listener).idle server down halted hw hs.shares hi,
      hi.distinct hs.distinct, survives_streamsApart.idle server down halted hw hs.streams hi, ?_⟩
    exact hs.speaks.welcomes hs.shares rfl fun q d hq =>
      (hi.leaves hs.distinct).undisturbed (hs.shares.opened hq) hq fun _ hslot => hslot
  away {s w w' peer} hw hs hpos hclosed hi hi' := by
    refine ⟨(endures_shares listener).away hw hs.shares hpos hclosed hi hi',
      (survives_distinct s.world).away hw id hpos hclosed hi hi' hs.distinct,
      survives_streamsApart.away hw hs.streams hpos hclosed hi hi', ?_⟩
    exact hs.speaks.welcomes hs.shares rfl fun q d hq => ((welcomes_undisturbed s q d).away hw
      ⟨hs.distinct, undisturbed_refl (hs.shares.opened hq) hq⟩ hpos hclosed hi hi').2
  ungreeted {s w w' peer} address hw hs hpos hclosed hi hi' := by
    refine ⟨(endures_shares listener).ungreeted address hw hs.shares hpos hclosed hi hi',
      (survives_distinct s.world).ungreeted address hw id hpos hclosed hi hi' hs.distinct,
      survives_streamsApart.ungreeted address hw hs.streams hpos hclosed hi hi', ?_⟩
    exact hs.speaks.welcomes hs.shares rfl fun q d hq =>
      ((welcomes_undisturbed s q d).ungreeted address hw
        ⟨hs.distinct, undisturbed_refl (hs.shares.opened hq) hq⟩ hpos hclosed hi hi').2
  enter {s w w' peer i} address hw hs hpos hclosed hi hi' hfree := by
    refine ⟨(endures_shares listener).enter address hw hs.shares hpos hclosed hi hi' hfree,
      (survives_distinct s.world).enter address hw id hpos hclosed hi hi' hfree hs.distinct,
      survives_streamsApart.enter address hw hs.streams hpos hclosed hi hi' hfree, fun q d hq => ?_⟩
    by_cases he : q = s.nextClient
    · subst he
      obtain rfl : (greeted w' peer address).client = d := by simpa [Server.entering] using hq
      exact greeted_onRecord address hw hs.distinct hpos hi hi'
    · have hold : s.heap q = some d := by simpa [Server.entering, he] using hq
      have hu := (welcomes_undisturbed s q d).enter address hw
        ⟨hs.distinct, undisturbed_refl (hs.shares.opened hold) hold⟩ hpos hclosed hi hi' hfree
      exact hs.speaks.undisturbed hold (hs.shares.sound q d hold).socket hu.2
  stay {s p c} hw hs hp hr := by
    have hdist := distinct_use.turn c ⟨c, s.world⟩ hs.distinct
    refine ⟨(endures_shares listener).stay hw hs.shares hp hr, hdist,
      survives_streamsApart.stay hw hs.streams hp hr, ?_⟩
    refine hs.speaks.turn hs.shares ?_ fun q d hne hq => ?_
    · exact (hs.speaks p c hp).watches (hs.shares.sound p c hp) hs.distinct (turn_watches c _)
    · have hstrangers := strangers hs.shares hw hs.distinct hs.streams hp hq hne
      exact withSession_undisturbed hne hq (hs.shares.opened hq)
        ((turn_discreet c ⟨c, s.world⟩).leaves hstrangers hdist)
  leave {s i p c m} hw hs hi hp hm := by
    have hdiscreet : Discreet ⟨c, s.world⟩ (m ⟨c, s.world⟩).2 := by
      rcases hm with rfl | rfl
      · exact turn_discreet c _
      · exact dismiss_discreet _
    have hdist := (survives_distinct s.world).leave hw id hi hp hm hs.distinct
    refine ⟨(endures_shares listener).leave hw hs.shares hi hp hm, hdist,
      survives_streamsApart.leave hw hs.streams hi hp hm, fun q d hq => ?_⟩
    have hne : q ≠ p := by
      rintro rfl
      simp [Server.without] at hq
    have hold : s.heap q = some d := by
      simpa [Server.without, Server.withSession, hne] using hq
    have hstrangers := strangers hs.shares hw hs.distinct hs.streams hp hold hne
    exact hs.speaks.undisturbed hold (hs.shares.sound q d hold).socket
      (without_undisturbed hne hi hold (hs.shares.opened hold) (hdiscreet.closed hstrangers hdist))

theorem Server.Speaks.step (h : s.Speaks) (hk : s.Kept) (hs : WellFormed s) (hd : s.world.Distinct)
    (ht : s.StreamsApart) {l : Label} (hl : s.Renews l) : (s.step l).Speaks := by
  by_cases hreinit : l = .reinit
  · subst hreinit
    have hempty := heap_of_empty hs (hl rfl)
    unfold Server.step
    split
    · exact h
    · obtain ⟨w, server, down, halted, -, he⟩ := reinitialise_cases s
      intro p c hp
      simp only [Label.run, he] at hp
      rw [hempty p] at hp
      contradiction
  · by_cases hshutdown : l = .shutdown
    · subst hshutdown
      unfold Server.step
      split
      · exact h
      · obtain ⟨hw, -, hgone⟩ := (endures_shares s.listener).cleanupSlots hs hk.shares
          (List.finRange MAX_CLIENTS) fun j hj => absurd (List.mem_finRange j) hj
        obtain ⟨w, -, he⟩ := shutdown_run s
        intro p c hp
        simp only [Label.run, he] at hp
        have hnone : (cleanupFtp s).2.heap p = none := heap_of_empty hw hgone p
        rw [hnone] at hp
        contradiction
    · exact ((endures_heard s.listener).step hs ⟨hk.shares, hd, ht, h⟩ hreinit hshutdown).2.speaks

theorem Reachable.speaks (h : Reachable Server.Renews s) : s.Speaks :=
  Reach.invariant_of (I := Server.Speaks) (fun s hs p c hp => by
      obtain ⟨disk, mounted, strerror, password, rfl⟩ := hs.eq
      simp [Server.boot] at hp)
    (fun s l hr hi hl => by
      obtain ⟨hd, hst⟩ := Reachable.apart hr
      exact hi.step (Reachable.kept hr) (Reachable.wellFormed hr) hd hst hl) h

/-- In every run the control socket and the data socket of a client are two. -/
theorem Reachable.split (h : Reachable Server.Renews s) {p : Nat} {c : Client}
    (hp : s.heap p = some c) : c.Split s.world := by
  intro k l hk hl he
  have hone := (Reachable.apart h).1.one _ _ k l hk hl he
  exact ((Reachable.kept h).shares.sound p c hp).data hone.symm

end Speaks

/-! ## Replies and their bytes -/

section Runs

variable {s : Server} {p : Nat} {c : Client}

/-- In every run each client's control connection has carried the replies its story tells of and
nothing else: each one whole where it succeeded, and a proper beginning of it where it failed. -/
theorem control_output (h : Reachable Server.Renews s) (hp : s.heap p = some c) :
    (∃ k, s.world.socks c.socket = some k ∧ k.id = c.conn) ∧
      Spoken (s.world.hist c.conn) (s.world.sent c.conn) ∧
      ((∀ code text r, .reply code text r ∈ s.world.hist c.conn → 0 ≤ r) →
        s.world.sent c.conn = (s.world.hist c.conn).flatMap Event.wire) := by
  obtain ⟨hsocket, hspoken, -⟩ := Reachable.speaks h p c hp
  exact ⟨hsocket, hspoken, hspoken.whole⟩

theorem control_output_passive : ∃ c, (Server.after passiveRun).heap 0 = some c ∧
    (∃ k, (Server.after passiveRun).world.socks c.socket = some k ∧ k.id = c.conn) ∧
    Spoken ((Server.after passiveRun).world.hist c.conn) ((Server.after passiveRun).world.sent c.conn) ∧
    ((∀ code text r, .reply code text r ∈ (Server.after passiveRun).world.hist c.conn → 0 ≤ r) →
      (Server.after passiveRun).world.sent c.conn =
        ((Server.after passiveRun).world.hist c.conn).flatMap Event.wire) := by
  have hq : ((Server.after passiveRun).heap 0).isSome := by decide +kernel
  obtain ⟨c, hq⟩ := Option.isSome_iff_exists.mp hq
  exact ⟨c, hq, control_output passiveRun_renews hq⟩

/-- In every run each line executed for an open connection has exactly one final reply, and one 150
before it if it announced a transfer, before the next line; the transfer's is 226 or 520. A reply is
three digits, a space, its text and CRLF, and the replies are what was sent on the connection. -/
theorem replies_disciplined {guard : Server → Label → Prop} (h : Reachable guard s)
    (hp : s.heap p = some c) :
    Disciplined c (s.world.hist c.conn) ∧
      (∀ code text r, .reply code text r ∈ s.world.hist c.conn → Formed code text) ∧
      (Reachable Server.Renews s → Spoken (s.world.hist c.conn) (s.world.sent c.conn)) := by
  have hd := Reachable.disciplined h hp
  exact ⟨hd, fun code text r hr => hd.formed hr, fun h => (Reachable.speaks h p c hp).spoken⟩

def Event.Succeeds : Event → Prop
  | .reply _ _ r => 0 ≤ r
  | _ => True

instance (e : Event) : Decidable e.Succeeds := by
  cases e <;> unfold Event.Succeeds <;> infer_instance

theorem pipelinedRun_renews : Reachable Server.Renews (Server.after pipelinedRun) :=
  connecting_renews _ (by simp [firstTurn])

/-- A listing that cannot be delivered, in the bytes that its client gets. -/
theorem replies_disciplined_pipelined :
    ∃ c, (Server.after pipelinedRun).heap 0 = some c ∧
      Disciplined c ((Server.after pipelinedRun).world.hist c.conn) ∧
      (Server.after pipelinedRun).world.sent c.conn =
        ("220 ftpii\r\n230 User logged in, proceed.\r\n150 Transferring data.\r\n" ++
          "520 Closing data connection, error occurred during transfer.\r\n").toList := by
  obtain ⟨c, hc, hok, hwire⟩ := exists_client (s := Server.after pipelinedRun) (p := 0)
    (fun c => (∀ e ∈ (Server.after pipelinedRun).world.hist c.conn, e.Succeeds) ∧
      ((Server.after pipelinedRun).world.hist c.conn).flatMap Event.wire =
        ("220 ftpii\r\n230 User logged in, proceed.\r\n150 Transferring data.\r\n" ++
          "520 Closing data connection, error occurred during transfer.\r\n").toList)
    (by decide +kernel)
  obtain ⟨hd, -, hspoken⟩ := replies_disciplined (after_reachable pipelinedRun) hc
  exact ⟨c, hc, hd, ((hspoken pipelinedRun_renews).whole fun _ _ _ hr => hok _ hr).trans hwire⟩

/-! ## Lines and their bytes -/

/-- In every run the bytes received are the consumed lines and what is buffered, the non-empty
lines were executed in order, and a client is closed for the framer's reasons only. -/
theorem control_stream_framed {guard : Server → Label → Prop} (h : Reachable guard s)
    (hp : s.heap p = some c) :
    Told (s.world.hist c.conn) (c.buf.take c.offset) ∧
      (Reachable Server.Renews s → s.world.received c.conn = received (s.world.hist c.conn)) ∧
      let t := controlEvents ⟨c, s.world⟩
      (t.1 = false → Told t.2.story (t.2.client.buf.take t.2.client.offset)) ∧
      (t.1 = true ↔
        (∃ es, t.2.story = s.world.hist c.conn ++ es ∧ ∃ e ∈ es, e.Closes) ∨
          t.2.client.offset = FTP_BUFFER_SIZE - 1 ∧ ¬ t.2.client.Stranded) :=
  ⟨(Reachable.framed h hp).1, fun h => (Reachable.speaks h p c hp).heard,
    (Reachable.framed h hp).2⟩

end Runs

/-- A peer to which a number was given again, with half a line in its buffer. -/
theorem control_stream_framed_returning :
    ∃ c, (Server.after returningRun).heap 1 = some c ∧ c.buf.take c.offset = "NO".toList ∧
      Told ((Server.after returningRun).world.hist c.conn) "NO".toList ∧
      (Server.after returningRun).world.received c.conn = "PASS x\r\nPWD\r\nNO".toList := by
  obtain ⟨c, hc, hbuf, hread⟩ := exists_client (s := Server.after returningRun) (p := 1)
    (fun c => c.buf.take c.offset = "NO".toList ∧
      received ((Server.after returningRun).world.hist c.conn) = "PASS x\r\nPWD\r\nNO".toList)
    (by decide +kernel)
  have hrenews : Reachable Server.Renews (Server.after returningRun) :=
    connecting_renews _ (by simp [firstTurn])
  obtain ⟨htold, hbytes, -⟩ := control_stream_framed hrenews hc
  exact ⟨c, hc, hbuf, hbuf ▸ htold, (hbytes hrenews).trans hread⟩

end Ftpii
