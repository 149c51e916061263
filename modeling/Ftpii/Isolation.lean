import Ftpii.OwnStreams
import Ftpii.OwnSockets
set_option autoImplicit false

/-!
What clients see of one another. A step serves one client and leaves the sockets, the stream and
the story of every other alone.
-/

namespace Ftpii
open StateProgram Prog

/-! ## Streams of different clients -/

/-- Every transfer has a stream that was opened, and no two have one stream. -/
structure Server.StreamsApart (s : Server) : Prop where
  bound : ∀ p c h, s.heap p = some c → c.dataConnectionCallbackArg = some h → h < s.world.nextStream
  once : ∀ p q c d h, s.heap p = some c → s.heap q = some d →
    c.dataConnectionCallbackArg = some h → d.dataConnectionCallbackArg = some h → p = q

section StreamsApart

variable {s : Server}

theorem Server.StreamsApart.same (h : s.StreamsApart) {w : World}
    (hw : s.world.nextStream ≤ w.nextStream) (server : Int) (down halted : Bool) (n : Nat) :
    Server.StreamsApart { s with
      world := w, server := server, networkDown := down, halted := halted, nextClient := n } :=
  ⟨fun p c k hp hk => (h.bound p c k hp hk).trans_le hw, h.once⟩

/-- A client's transfer goes on with its stream, or starts with a new one. -/
theorem Server.StreamsApart.turn (h : s.StreamsApart) {p : Nat} {c : Client}
    (hp : s.heap p = some c) {t : Session} (ht : OwnStream none ⟨c, s.world⟩ t) :
    (s.withSession p t).StreamsApart := by
  have hnext := ht.next
  have harg : ∀ k, t.client.dataConnectionCallbackArg = some k →
      c.dataConnectionCallbackArg = some k ∨ s.world.nextStream ≤ k ∧ k < t.world.nextStream := by
    intro k hk
    rcases ht.arg k hk with hc | hf | hnew
    · exact .inl hc
    · contradiction
    · exact .inr hnew
  have hold : ∀ q d k, q ≠ p → s.heap q = some d → d.dataConnectionCallbackArg = some k →
      t.client.dataConnectionCallbackArg ≠ some k := by
    intro q d k hne hq hk hown
    rcases harg k hown with hc | ⟨hle, -⟩
    · exact hne (h.once q p d c k hq hp hk hc)
    · have hlt := h.bound q d k hq hk
      omega
  have hheap : ∀ q d, (s.withSession p t).heap q = some d →
      q = p ∧ t.client = d ∨ q ≠ p ∧ s.heap q = some d := by
    intro q d hq
    by_cases he : q = p
    · subst he
      exact .inl ⟨rfl, by simpa [Server.withSession] using hq⟩
    · exact .inr ⟨he, by simpa [Server.withSession, he] using hq⟩
  refine ⟨fun q d k hq hk => ?_, fun q r d e k hq hr hk hk' => ?_⟩
  · change k < t.world.nextStream
    rcases hheap q d hq with ⟨rfl, rfl⟩ | ⟨-, hq⟩
    · rcases harg k hk with hc | ⟨-, hlt⟩
      · exact (h.bound q c k hp hc).trans_le hnext
      · exact hlt
    · exact (h.bound q d k hq hk).trans_le hnext
  · rcases hheap q d hq with ⟨rfl, rfl⟩ | ⟨hne, hq'⟩
    · rcases hheap r e hr with ⟨rfl, rfl⟩ | ⟨hne', hr'⟩
      · rfl
      · exact absurd hk (hold r e k hne' hr' hk')
    · rcases hheap r e hr with ⟨rfl, rfl⟩ | ⟨-, hr'⟩
      · exact absurd hk' (hold q d k hne hq' hk)
      · exact h.once q r d e k hq' hr' hk hk'

theorem Server.StreamsApart.without (h : s.StreamsApart) {i : Fin MAX_CLIENTS} {p : Nat}
    {w : World} (hw : s.world.nextStream ≤ w.nextStream) : (s.without i p w).StreamsApart := by
  have hheap : ∀ q d, (s.without i p w).heap q = some d → s.heap q = some d := by
    intro q d hq
    by_cases he : q = p
    · simp [Server.without, he] at hq
    · simpa [Server.without, he] using hq
  exact ⟨fun q d k hq hk => (h.bound q d k (hheap q d hq) hk).trans_le hw,
    fun q r d e k hq hr hk hk' => h.once q r d e k (hheap q d hq) (hheap r e hr) hk hk'⟩

theorem Server.StreamsApart.enter (h : s.StreamsApart) {i : Fin MAX_CLIENTS} {t : Session}
    (ht : t.client.dataConnectionCallbackArg = none)
    (hw : s.world.nextStream ≤ t.world.nextStream) : (s.entering i t).StreamsApart := by
  have hheap : ∀ q d k, (s.entering i t).heap q = some d → d.dataConnectionCallbackArg = some k →
      s.heap q = some d := by
    intro q d k hq hk
    by_cases he : q = s.nextClient
    · subst he
      obtain rfl : t.client = d := by simpa [Server.entering] using hq
      rw [ht] at hk
      contradiction
    · simpa [Server.entering, he] using hq
  exact ⟨fun q d k hq hk => (h.bound q d k (hheap q d k hq hk) hk).trans_le hw,
    fun q r d e k hq hr hk hk' => h.once q r d e k (hheap q d k hq hk) (hheap r e k hr hk') hk hk'⟩

theorem greeted_nextStream {s : Server} {w w' : World} {peer : Int} (hi : Idle s.world w)
    (hi' : Idle (w.openedSock peer) w') (address : SockAddr) :
    s.world.nextStream ≤ (greeted w' peer address).world.nextStream :=
  (greeted_sameHandles hi hi' address).1.nextStream.ge

theorem survives_streamsApart : Survives Server.StreamsApart where
  idle server down halted _ hs hi := hs.same hi.sameOpen.nextStream.ge server down halted _
  away {s w w' peer} _ hs _ _ hi hi' := by
    have hsame : SameOpen s.world (turnedAway w' peer) :=
      sameOpen_frame.trans (opened_sameOpen hi hi') (netClose_keeps sameOpen_sockets peer w')
    exact hs.same hsame.nextStream.ge s.server s.networkDown s.halted _
  ungreeted {s w w' peer} address _ hs _ _ hi hi' := by
    have hclose : SameOpen (greeted w' peer address).world (ungreeted w' peer address) :=
      netCloseBlocking_keeps sameOpen_sockets peer _
    exact hs.same ((greeted_nextStream hi hi' address).trans hclose.nextStream.ge) s.server
      s.networkDown s.halted _
  enter {s w w' peer i} address _ hs _ _ hi hi' _ := by
    refine hs.enter ?_ (greeted_nextStream hi hi' address)
    have hc : (greeted w' peer address).client = newClient w' peer address := writeReply_client _ _ _
    rw [hc]
    rfl
  stay _ hs hp _ := hs.turn hp (turn_ownStream _ _)
  leave {s i p c m} _ hs _ hp hm := by
    have ht : OwnStream none ⟨c, s.world⟩ (m ⟨c, s.world⟩).2 := by
      rcases hm with rfl | rfl
      · exact turn_ownStream c _
      · exact writeReply_keeps ownStream_replies _ _ _
    exact (hs.turn hp ht).without (closeSockets_ownStream (m ⟨c, s.world⟩).2).next
  finish {s} _ hs _ := by
    have hsame : SameOpen s.world (netClose s.server s.world).2 :=
      netClose_keeps sameOpen_sockets s.server s.world
    exact hs.same hsame.nextStream.ge s.server s.networkDown s.halted _

end StreamsApart

/-! ## Sockets of different clients -/

theorem distinct_use : WorldUse fun w w' => w.Distinct → w'.Distinct where
  sockets :=
    { toTalks := distinct_talks
      opened := fun _ fd _ hd => hd.opened fd
      closed := fun _ fd hd => (hd.closed fd).same rfl rfl rfl rfl }
  streams :=
    { toFrame := distinct_sends.toFrame
      answers := fun _ _ _ hd => hd.same rfl rfl rfl rfl
      errno := fun _ _ hd => hd.same rfl rfl rfl rfl
      disk := fun _ _ hd => hd.same rfl rfl rfl rfl
      renamed := fun _ _ _ hd => hd.same rfl rfl rfl rfl
      opened := fun _ _ hd => hd.same rfl rfl rfl rfl
      stream := fun _ _ _ _ _ _ hd => hd.same rfl rfl rfl rfl
      close := fun _ _ _ _ hd => hd.same rfl rfl rfl rfl }
  devices := UsesDevices.mounts
    { toFrame := distinct_sends.toFrame
      answers := fun _ _ _ hd => hd.same rfl rfl rfl rfl
      devices := fun _ _ hd => hd.same rfl rfl rfl rfl }
  emit _ _ _ hd := hd.same rfl rfl rfl rfl
  statics _ _ _ _ _ hd := hd.same rfl rfl rfl rfl

theorem World.Distinct.deinit {w : World} (h : w.Distinct) : (netDeinit w).2.Distinct := by
  refine ⟨fun fd k hk => ?_, fun fd fd' k k' hk => ?_, h.unsent, h.unread⟩
  · simp [netDeinit, World.record] at hk
  · simp [netDeinit, World.record] at hk

theorem Idle.distinct {w w' : World} (hi : Idle w w') (h : w.Distinct) : w'.Distinct := by
  obtain ⟨a, e, d, r, l, rfl, -⟩ := hi
  exact h.same rfl rfl rfl rfl

theorem distinct_initial {s : Server} (h : s.Initial) : s.world.Distinct := by
  obtain ⟨disk, mounted, strerror, password, rfl⟩ := h.eq
  constructor <;> simp [Server.boot, World.boot]

theorem survives_distinct (w : World) : Survives fun s => w.Distinct → s.world.Distinct :=
  distinct_use.survives (fun hi hd => hi.distinct hd) w

theorem Reachable.apart {guard : Server → Label → Prop} {s : Server} (h : Reachable guard s) :
    s.world.Distinct ∧ s.StreamsApart := by
  have hstart : ∀ s : Server, s.Initial → s.StreamsApart := by
    intro s hs
    obtain ⟨disk, mounted, strerror, password, rfl⟩ := hs.eq
    constructor <;> simp [Server.boot]
  have hstreams := survives_streamsApart.reach hstart (fun s _ hs _ w server down halted hn => by
    have hsame : SameOpen s.world w := hn SameOpen sameOpen_sockets fun w => .of_eq rfl rfl rfl
    exact hs.same hsame.nextStream.ge server down halted _) h
  refine ⟨?_, hstreams.2⟩
  exact (Reach.invariant_of (I := fun s : Server => s.world.Distinct) (fun s hs => distinct_initial hs)
    (fun s l hr hd _ => ((survives_distinct s.world).step (Reachable.wellFormed hr) id l
      fun _ w _ _ _ hn => hn _ distinct_use.sockets fun _ h => h.deinit).2 hd) h)

/-! ## What others have -/

/-- Client q, which was d, is where it was, and its sockets, its stream and its story are as before. -/
structure Server.Undisturbed (q : Nat) (d : Client) (s s' : Server) : Prop where
  client : s'.heap q = some d
  slot : ∀ i, s.clients i = some q → s'.clients i = some q
  sockets : ∀ fd ∈ d.numbers, ∃ k, s.world.socks fd = some k ∧ s'.world.socks fd = some k ∧
    s'.world.sent k.id = s.world.sent k.id ∧ s'.world.received k.id = s.world.received k.id
  stream : ∀ h, d.dataConnectionCallbackArg = some h → s'.world.streams h = s.world.streams h
  hist : s'.world.hist d.conn = s.world.hist d.conn

def Client.Open (d : Client) (w : World) : Prop := ∀ fd ∈ d.numbers, ∃ k, w.socks fd = some k

/-- The client's sockets and stream were not used, and nothing was noted about it. -/
structure Leaves (d : Client) (w w' : World) : Prop where
  distinct : w'.Distinct
  unused : ∀ fd ∈ d.numbers, ∀ k, w.socks fd = some k → Unused k fd w w'
  stream : ∀ h, d.dataConnectionCallbackArg = some h → w'.streams h = w.streams h
  hist : w'.hist d.conn = w.hist d.conn

section Leaves

variable {q : Nat} {d : Client} {s : Server}

theorem Server.Undisturbed.trans {s' s'' : Server} (h : s.Undisturbed q d s')
    (h' : s'.Undisturbed q d s'') : s.Undisturbed q d s'' := by
  refine ⟨h'.client, fun i hi => h'.slot i (h.slot i hi), fun fd hfd => ?_,
    fun k hk => (h'.stream k hk).trans (h.stream k hk), h'.hist.trans h.hist⟩
  obtain ⟨k, hk, hk', hs, hr⟩ := h.sockets fd hfd
  obtain ⟨l, hl, hl', hs', hr'⟩ := h'.sockets fd hfd
  obtain rfl := Option.some.inj (hk'.symm.trans hl)
  exact ⟨k, hk, hl', hs'.trans hs, hr'.trans hr⟩

theorem Server.Undisturbed.opened {s' : Server} (h : s.Undisturbed q d s') : d.Open s'.world := by
  intro fd hfd
  obtain ⟨k, -, hk, -⟩ := h.sockets fd hfd
  exact ⟨k, hk⟩

theorem Leaves.undisturbed {s' : Server} (h : Leaves d s.world s'.world) (ho : d.Open s.world)
    (hq : s'.heap q = some d) (hslot : ∀ i, s.clients i = some q → s'.clients i = some q) :
    s.Undisturbed q d s' := by
  refine ⟨hq, hslot, fun fd hfd => ?_, h.stream, h.hist⟩
  obtain ⟨k, hk⟩ := ho fd hfd
  have hu := h.unused fd hfd k hk
  exact ⟨k, hk, hu.sock, hu.sent, hu.received⟩

theorem Unused.trans {k : Sock} {fd : Int} {w w' w'' : World} (h : Unused k fd w w')
    (h' : Unused k fd w' w'') : Unused k fd w w'' :=
  ⟨h'.distinct, h'.sock, h'.sent.trans h.sent, h'.received.trans h.received⟩

theorem Leaves.trans {w w' w'' : World} (h : Leaves d w w') (h' : Leaves d w' w'') :
    Leaves d w w'' := by
  refine ⟨h'.distinct, fun fd hfd k hk => ?_, fun k hk => (h'.stream k hk).trans (h.stream k hk),
    h'.hist.trans h.hist⟩
  have hu := h.unused fd hfd k hk
  exact hu.trans (h'.unused fd hfd k hu.sock)

theorem Leaves.of_beside {w w' : World} (hd : w.Distinct) (hd' : w'.Distinct)
    (hw : ∀ fd ∈ d.numbers, Beside fd w w') (hs : SameOpen w w') (ht : w'.streams = w.streams) :
    Leaves d w w' :=
  ⟨hd', fun fd hfd k hk => (hw fd hfd).unused hd k hk, fun _ _ => by rw [ht], congrFun hs.hist d.conn⟩

theorem Idle.leaves {w w' : World} (hi : Idle w w') (hd : w.Distinct) : Leaves d w w' := by
  obtain ⟨a, e, dev, r, l, rfl, -⟩ := hi
  exact .of_beside hd (hd.same rfl rfl rfl rfl) (fun _ _ => .of_same rfl rfl rfl rfl rfl)
    (.of_eq rfl rfl rfl) rfl

theorem opened_leaves {w : World} {peer : Int} (hclosed : w.socks peer = none) (hd : w.Distinct) :
    Leaves d w (w.openedSock peer) :=
  .of_beside hd (hd.opened peer) (fun _ _ => opened_beside hclosed) (.of_eq rfl rfl rfl) rfl

theorem netClose_leaves {w : World} {fd : Int} (hd : w.Distinct) (hfd : fd ∉ d.numbers) :
    Leaves d w (netClose fd w).2 := by
  refine .of_beside hd ((hd.closed fd).same rfl rfl rfl rfl) (fun x hx => netClose_beside ?_ w)
    (netClose_keeps sameOpen_sockets fd w) rfl
  rintro rfl
  exact hfd hx

theorem netCloseBlocking_leaves {w : World} {fd : Int} (hd : w.Distinct) (hfd : fd ∉ d.numbers) :
    Leaves d w (netCloseBlocking fd w).2 := by
  refine .of_beside hd (netCloseBlocking_keeps distinct_use.sockets fd w hd)
    (fun x hx => netCloseBlocking_beside ?_ w) (netCloseBlocking_keeps sameOpen_sockets fd w)
    (netCloseBlocking_keeps (sameFiles_sockets d) fd w).streams
  rintro rfl
  exact hfd hx

theorem Client.Open.not_mem {w : World} (h : d.Open w) {peer : Int} (hclosed : w.socks peer = none) :
    peer ∉ d.numbers := by
  intro hp
  obtain ⟨k, hk⟩ := h peer hp
  rw [hclosed] at hk
  contradiction

theorem writeReply_leaves (code : Nat) (msg : Str) {w : World} {c : Client} (hd : w.Distinct)
    (hsocket : c.socket ∉ d.numbers) (hp : c.passiveSocket = -1) (hds : c.dataSocket = -1)
    (hconn : d.conn ≠ c.conn) : Leaves d w (writeReply code msg ⟨c, w⟩).2.world := by
  refine ⟨writeReply_keeps distinct_use.replies code msg ⟨c, w⟩ hd, fun fd hfd k hk => ?_,
    fun _ _ => by rw [(writeReply_sameFiles code msg ⟨c, w⟩).streams],
    (writeReply_apart code msg ⟨c, w⟩).hist d.conn hconn⟩
  have hpos : 0 ≤ fd := hfd.1
  have hne : fd ≠ c.socket := by
    rintro rfl
    exact hsocket hfd
  have hclear : Session.Clear fd k.id ⟨c, w⟩ :=
    ⟨hpos, by change fd ≠ c.passiveSocket; omega, by change fd ≠ c.dataSocket; omega, hd, k, hk, rfl⟩
  have hf := writeReply_watches code msg ⟨c, w⟩ hclear
  obtain ⟨hsock, hsent, hreceived⟩ := hf.apart hne
  exact ⟨hf.clear.distinct, hsock.trans hk, hsent, hreceived⟩

/-- What accepting a peer leaves of a client that was there before, and greeting it. -/
theorem greeted_leaves {w w' : World} {peer : Int} (address : SockAddr) (hs : WellFormed s)
    (hq : s.heap q = some d) (hd : s.world.Distinct) (ho : d.Open s.world)
    (hclosed : s.world.socks peer = none) (hi : Idle s.world w) (hi' : Idle (w.openedSock peer) w') :
    Leaves d s.world w' ∧ Leaves d s.world (greeted w' peer address).world := by
  have hw : w.socks peer = none := by rw [hi.socks, hclosed]
  have hidle : Leaves d s.world w := hi.leaves hd
  have hopen : Leaves d s.world (w.openedSock peer) := hidle.trans (opened_leaves hw hidle.distinct)
  have hsock : Leaves d s.world w' := hopen.trans (hi'.leaves hopen.distinct)
  have hconn : (newClient w' peer address).conn = s.world.nextSock := by
    rw [newClient_conn hi', hi.nextSock]
  have hlt := hs.conn_lt q d hq
  exact ⟨hsock, hsock.trans (writeReply_leaves 220 "ftpii".toList hsock.distinct (ho.not_mem hclosed)
    rfl rfl (by rw [hconn]; omega))⟩

/-- While nothing but the network is looked after, a client that is served is left alone. -/
theorem welcomes_undisturbed (s : Server) (q : Nat) (d : Client) :
    Welcomes fun t => t.world.Distinct ∧ s.Undisturbed q d t where
  idle {t w} server down halted _ hs hi := by
    have hl : Leaves d t.world w := hi.leaves hs.1
    exact ⟨hl.distinct, hs.2.trans (hl.undisturbed hs.2.opened hs.2.client fun _ hslot => hslot)⟩
  away {t w w' peer} ht hs _ hclosed hi hi' := by
    obtain ⟨hl, -⟩ := greeted_leaves {} ht hs.2.client hs.1 hs.2.opened hclosed hi hi'
    have hl' := hl.trans (netClose_leaves hl.distinct (hs.2.opened.not_mem hclosed))
    exact ⟨hl'.distinct, hs.2.trans (hl'.undisturbed hs.2.opened hs.2.client fun _ hslot => hslot)⟩
  ungreeted {t w w' peer} address ht hs _ hclosed hi hi' := by
    obtain ⟨-, hl⟩ := greeted_leaves address ht hs.2.client hs.1 hs.2.opened hclosed hi hi'
    have hl' := hl.trans (netCloseBlocking_leaves hl.distinct (hs.2.opened.not_mem hclosed))
    exact ⟨hl'.distinct, hs.2.trans (hl'.undisturbed hs.2.opened hs.2.client fun _ hslot => hslot)⟩
  enter {t w w' peer i} address ht hs _ hclosed hi hi' hfree := by
    obtain ⟨-, hl⟩ := greeted_leaves address ht hs.2.client hs.1 hs.2.opened hclosed hi hi'
    have hne : q ≠ t.nextClient := by
      rintro rfl
      have hnone := ht.fresh t.nextClient le_rfl
      rw [hs.2.client] at hnone
      contradiction
    refine ⟨hl.distinct, hs.2.trans (hl.undisturbed hs.2.opened ?_ fun j hj => ?_)⟩
    · simpa [Server.entering, hne] using hs.2.client
    · have hji : j ≠ i := by
        rintro rfl
        rw [hfree] at hj
        contradiction
      simpa [Server.entering, hji] using hj

/-! ## Turns of other clients -/

/-- Sockets, streams and connections of two clients differ. -/
structure Client.Strangers (c d : Client) (w : World) : Prop where
  distinct : w.Distinct
  opened : d.Open w
  numbers : ∀ fd ∈ d.numbers, fd ∉ c.numbers
  stream : ∀ h, d.dataConnectionCallbackArg = some h →
    h < w.nextStream ∧ c.dataConnectionCallbackArg ≠ some h
  conn : d.conn ≠ c.conn

theorem strangers {listener : Set Int} (h : s.Shares listener) (hs : WellFormed s)
    (hd : s.world.Distinct) (ht : s.StreamsApart) {p : Nat} {c : Client} (hp : s.heap p = some c)
    (hq : s.heap q = some d) (hne : q ≠ p) : c.Strangers d s.world where
  distinct := hd
  opened fd hfd := by
    have hheld : fd ∈ s.holders listener (some q) := ⟨d, hq, hfd⟩
    exact Option.isSome_iff_exists.mp ((h.owned.held fd).mpr ⟨some q, hheld⟩)
  numbers fd hfd hfd' := by
    have hheld : fd ∈ s.holders listener (some q) := ⟨d, hq, hfd⟩
    have hheld' : fd ∈ s.holders listener (some p) := ⟨c, hp, hfd'⟩
    exact hne (Option.some.inj (h.owned.once fd _ _ hheld hheld'))
  stream k hk := ⟨ht.bound q d k hq hk, fun hk' => hne (ht.once q p d c k hq hp hk hk')⟩
  conn heq := hne (hs.conns q p d c hq hp heq)

/-- What a client's session does, in respect of others. -/
structure Discreet (s s' : Session) : Prop where
  watches : ∀ fd n, Watches fd n s s'
  streams : OwnStream none s s'
  apart : Apart s s'

theorem turn_discreet (c : Client) (s : Session) : Discreet s (turn c s).2 :=
  ⟨fun _ _ => turn_watches c s, turn_ownStream c s, turn_apart c s⟩

theorem dismiss_discreet (s : Session) : Discreet s (dismiss s).2 :=
  ⟨fun _ _ => writeReply_watches _ _ s, writeReply_keeps ownStream_replies _ _ s, dismiss_apart s⟩

section Discreet

variable {c : Client} {w : World} {t : Session} (hs : c.Strangers d w) (h : Discreet ⟨c, w⟩ t)

include hs h

theorem Discreet.followed {fd : Int} (hfd : fd ∈ d.numbers) {k : Sock} (hk : w.socks fd = some k) :
    Followed fd k.id ⟨c, w⟩ t ∧ fd ≠ c.socket := by
  have hout := hs.numbers fd hfd
  have hpos : 0 ≤ fd := hfd.1
  have hne : ∀ x, (x = c.socket ∨ x = c.passiveSocket ∨ x = c.dataSocket) → fd ≠ x := by
    intro x hx heq
    exact hout ⟨hpos, heq ▸ hx⟩
  exact ⟨h.watches fd k.id ⟨hpos, hne _ (.inr (.inl rfl)), hne _ (.inr (.inr rfl)), hs.distinct, k,
    hk, rfl⟩, hne _ (.inl rfl)⟩

theorem Discreet.leaves (hd : t.world.Distinct) : Leaves d w t.world := by
  refine ⟨hd, fun fd hfd k hk => ?_, fun k hk => ?_, h.apart.hist d.conn hs.conn⟩
  · obtain ⟨hf, hne⟩ := h.followed hs hfd hk
    obtain ⟨hsock, hsent, hreceived⟩ := hf.apart hne
    exact ⟨hd, hsock.trans hk, hsent, hreceived⟩
  · obtain ⟨hlt, hne⟩ := hs.stream k hk
    exact h.streams.kept k hlt hne (by simp)

/-- A client that is cleaned up after its session leaves others alone too. -/
theorem Discreet.closed (hd : (closeSockets t).2.world.Distinct) :
    Leaves d w (closeSockets t).2.world := by
  refine ⟨hd, fun fd hfd k hk => ?_, fun k hk => ?_, ?_⟩
  · obtain ⟨hf, hne⟩ := h.followed hs hfd hk
    have hf' := closeSockets_watches hf.clear (hf.socket ▸ hne)
    obtain ⟨hsock, hsent, hreceived⟩ := hf.apart hne
    obtain ⟨hsock', hsent', hreceived'⟩ := hf'.apart (hf.socket ▸ hne)
    exact ⟨hd, hsock'.trans (hsock.trans hk), hsent'.trans hsent, hreceived'.trans hreceived⟩
  · obtain ⟨hlt, hne⟩ := hs.stream k hk
    exact (ownStream_frame.trans h.streams (closeSockets_ownStream t)).kept k hlt hne (by simp)
  · exact (congrFun (closeSockets_grows t).hist d.conn).trans (h.apart.hist d.conn hs.conn)

end Discreet

end Leaves

/-! ## Steps that serve others -/

section Server

variable {s : Server} {q : Nat} {d : Client}

theorem Server.Shares.opened {listener : Set Int} (h : s.Shares listener) (hq : s.heap q = some d) :
    d.Open s.world := fun fd hfd =>
  Option.isSome_iff_exists.mp ((h.owned.held fd).mpr ⟨some q, d, hq, hfd⟩)

theorem undisturbed_refl (ho : d.Open s.world) (hq : s.heap q = some d) : s.Undisturbed q d s := by
  refine ⟨hq, fun _ hi => hi, fun fd hfd => ?_, fun _ _ => rfl, rfl⟩
  obtain ⟨k, hk⟩ := ho fd hfd
  exact ⟨k, hk, hk, rfl, rfl⟩

theorem withSession_undisturbed {p : Nat} (hne : q ≠ p) (hq : s.heap q = some d)
    (ho : d.Open s.world) {t : Session} (hl : Leaves d s.world t.world) :
    s.Undisturbed q d (s.withSession p t) :=
  hl.undisturbed ho (by simpa [Server.withSession, hne] using hq) fun _ hi => hi

theorem without_undisturbed {i : Fin MAX_CLIENTS} {p : Nat} (hne : q ≠ p) (hi : s.clients i = some p)
    (hq : s.heap q = some d) (ho : d.Open s.world) {t : Session} {w : World}
    (hl : Leaves d s.world w) : s.Undisturbed q d ((s.withSession p t).without i p w) := by
  refine hl.undisturbed ho (by simpa [Server.without, Server.withSession, hne] using hq)
    fun j hj => ?_
  have hji : j ≠ i := by
    rintro rfl
    exact hne (Option.some.inj (hj.symm.trans hi))
  simpa [Server.without, Server.withSession, hji] using hj

/-- No client is served that is this one, and the program does not end. -/
def Server.Elsewhere (q : Nat) (s : Server) (l : Label) : Prop :=
  s.Renews l ∧ l ≠ .shutdown ∧ ∀ i, l = .slot i → s.clients i ≠ some q

theorem step_undisturbed (hk : s.Kept) (hs : WellFormed s) (hd : s.world.Distinct)
    (ht : s.StreamsApart) (hq : s.heap q = some d) {l : Label} (hl : s.Elsewhere q l) :
    s.Undisturbed q d (s.step l) := by
  have ho : d.Open s.world := hk.shares.opened hq
  have hrefl : s.Undisturbed q d s := undisturbed_refl ho hq
  obtain ⟨hrenew, hend, hslot⟩ := hl
  have hreinit : l ≠ .reinit := by
    rintro rfl
    obtain ⟨i, hi⟩ := hs.placed q (by simp [hq])
    rw [hrenew rfl i] at hi
    contradiction
  by_cases hserve : ∃ i, l = .slot i
  · obtain ⟨i, rfl⟩ := hserve
    unfold Server.step
    split
    · exact hrefl
    rcases processSlot_cases hs i with ⟨-, he⟩ | ⟨p, c, hi, hp, hcases⟩
    · simp only [Label.run, he]
      exact hrefl
    have hne : q ≠ p := by
      rintro rfl
      exact hslot i rfl hi
    have hstrangers := strangers hk.shares hs hd ht hp hq hne
    have hturn := turn_discreet c ⟨c, s.world⟩
    have hdist := distinct_use.turn c ⟨c, s.world⟩ hd
    rcases hcases with ⟨-, he⟩ | ⟨-, he⟩
    · simp only [Label.run, he]
      exact withSession_undisturbed hne hq ho (hturn.leaves hstrangers hdist)
    · simp only [Label.run, he]
      have hclose : (closeSockets (turn c ⟨c, s.world⟩).2).2.world.Distinct :=
        closeSockets_keeps distinct_use.data.releases (fun _ _ => id) _ hdist
      exact without_undisturbed hne hi hq ho (hturn.closed hstrangers hclose)
  · exact ((welcomes_undisturbed s q d).step hs ⟨hd, hrefl⟩ hreinit
      (fun i hi => hserve ⟨i, hi⟩) hend).2.2

/-- However many steps are taken for others, the network and the drives, a client that is not served
finds its sockets, its stream and its place as they were, and nothing was sent, read or noted there. -/
theorem others_undisturbed (h : Reachable Server.Renews s) (hq : s.heap q = some d) {t : Server}
    (ht : Reach (· = s) Server.step (Server.Elsewhere q) t) : s.Undisturbed q d t := by
  have hboth : Reachable Server.Renews t ∧ s.Undisturbed q d t := by
    induction ht with
    | init he =>
      subst he
      exact ⟨h, undisturbed_refl (h.kept.shares.opened hq) hq⟩
    | step l _ hl ih =>
      obtain ⟨hr, hu⟩ := ih
      obtain ⟨hd, hst⟩ := Reachable.apart hr
      exact ⟨hr.step l hl.1,
        hu.trans (step_undisturbed hr.kept (Reachable.wellFormed hr) hd hst hu.client hl)⟩
  exact hboth.2

end Server

def secondPeer : Label := .env { net := [{ code := 7, addr := { ip := 2 } }, {}, { code := -EAGAIN },
  { data := "PASS x\r\nPWD\r\n".toList }] }

def secondTurn : Label := .slot ⟨1, by decide⟩

/-- The second peer is served while the first waits for its listing. -/
theorem others_undisturbed_second : ∃ d, (Server.after passiveRun).heap 0 = some d ∧
    (Server.after passiveRun).Undisturbed 0 d
      ((((Server.after passiveRun).step secondPeer).step .accept).step secondTurn) := by
  have hplace : (((((Server.after passiveRun).step secondPeer).step .accept).clients ⟨1, by decide⟩) =
      some 1) ∧ ((Server.after passiveRun).heap 0).isSome := by decide +kernel
  obtain ⟨hslot, hq⟩ := hplace
  have hr := passiveRun_renews
  generalize Server.after passiveRun = s at hslot hq hr ⊢
  obtain ⟨d, hq⟩ := Option.isSome_iff_exists.mp hq
  refine ⟨d, hq, others_undisturbed hr hq ?_⟩
  have h0 : Reach (· = s) Server.step (Server.Elsewhere 0) s := .init rfl
  have h1 := h0.step secondPeer ⟨fun h => by contradiction, by simp [secondPeer], by simp [secondPeer]⟩
  have h2 := h1.step .accept ⟨fun h => by contradiction, by simp, by simp⟩
  refine h2.step secondTurn ⟨fun h => by contradiction, by simp [secondTurn], fun i hi => ?_⟩
  obtain rfl := Label.slot.inj hi
  rw [hslot]
  simp

end Ftpii
