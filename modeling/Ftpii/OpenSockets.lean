import Ftpii.ClientSockets
set_option autoImplicit false

/-!
Who holds the open sockets. While no client outlives the network, every open socket
is the listener or one client's, and each that was obtained is closed once.
-/

namespace Ftpii
open StateProgram Prog Ownership

/-! ## Clients and the listener -/

def Server.holders (s : Server) (listener : Set Int) : Option Nat → Set Int
  | none => listener
  | some p => s.held Client.numbers p

/-- Every open socket is the listener or one client's, and the clients are in order. -/
structure Server.Shares (listener : Set Int) (s : Server) : Prop where
  sound : ∀ p c, s.heap p = some c → c.Sound
  balanced : s.world.Balanced
  owned : Owned s.world.openNumbers (s.holders listener)

section Shares

variable {listener : Set Int} {s : Server}

theorem Server.Shares.sole (h : s.Shares listener) {p : Nat} {c : Client} (hp : s.heap p = some c) :
    Session.Sole (others (s.holders listener) (some p)) ⟨c, s.world⟩ := by
  have hshare := h.owned.share (some p)
  have hheld : s.holders listener (some p) = c.numbers := held_of_heap Client.numbers hp
  rw [hheld] at hshare
  exact ⟨h.sound p c hp, h.balanced, hshare⟩

theorem Server.Shares.same (h : s.Shares listener) {w : World} (hw : SameSocks s.world w)
    (server : Int) (down halted : Bool) : Server.Shares listener { s with
      world := w, server := server, networkDown := down, halted := halted } := by
  refine ⟨h.sound, h.balanced.same hw, ?_⟩
  rw [hw.openNumbers]
  exact h.owned

theorem Server.Shares.vacant (h : s.Shares listener) (hs : WellFormed s) :
    s.world.Shares (others (s.holders listener) (some s.nextClient)) ∅ := by
  have hshare := h.owned.share (some s.nextClient)
  have hnone : s.holders listener (some s.nextClient) = ∅ := by
    ext fd
    simp [Server.holders, Server.held, hs.fresh s.nextClient le_rfl]
  rw [hnone] at hshare
  exact ⟨h.balanced, hshare⟩

theorem Server.Shares.accepted (h : s.Shares listener) (hs : WellFormed s) {w w' : World}
    {peer : Int} (hclosed : s.world.socks peer = none) (hw : Idle s.world w)
    (hw' : Idle (w.openedSock peer) w') :
    w'.Shares (others (s.holders listener) (some s.nextClient)) {peer} := by
  have hopen := (h.vacant hs).openedIdle hw hclosed
  rw [insert_empty_eq] at hopen
  exact hopen.same hw'.sameSocks

theorem Server.Shares.unheld (h : s.Shares listener) (hs : WellFormed s) {w : World}
    (hw : w.Shares (others (s.holders listener) (some s.nextClient)) ∅) (n : Nat) :
    Server.Shares listener { s with nextClient := n, world := w } := by
  refine ⟨h.sound, hw.toBalanced, ?_⟩
  have hnone : s.holders listener (some s.nextClient) = ∅ := by
    ext fd
    simp [Server.holders, Server.held, hs.fresh s.nextClient le_rfl]
  have howned := h.owned.update hw.share
  rw [← hnone, Function.update_eq_self] at howned
  exact howned

theorem holders_withSession (p : Nat) (t : Session) : (s.withSession p t).holders listener =
    Function.update (s.holders listener) (some p) t.client.numbers := by
  funext o
  cases o with
  | none => simp [Server.holders]
  | some q =>
    have hheld := congrFun (held_withSession Client.numbers s p t) q
    by_cases hq : q = p
    · subst hq
      simpa [Server.holders] using hheld
    · simpa [Server.holders, hq] using hheld

theorem holders_without (i : Fin MAX_CLIENTS) (p : Nat) (w : World) :
    (s.without i p w).holders listener = Function.update (s.holders listener) (some p) ∅ := by
  funext o
  cases o with
  | none => simp [Server.holders]
  | some q =>
    have hheld := congrFun (held_without Client.numbers s i p w) q
    by_cases hq : q = p
    · subst hq
      simpa [Server.holders] using hheld
    · simpa [Server.holders, hq] using hheld

theorem holders_entering (i : Fin MAX_CLIENTS) (t : Session) : (s.entering i t).holders listener =
    Function.update (s.holders listener) (some s.nextClient) t.client.numbers := by
  funext o
  cases o with
  | none => simp [Server.holders]
  | some q =>
    have hheld := congrFun (held_entering Client.numbers s i t) q
    by_cases hq : q = s.nextClient
    · subst hq
      simpa [Server.holders] using hheld
    · simpa [Server.holders, hq] using hheld

theorem Server.Shares.turn (h : s.Shares listener) {p : Nat} {t : Session}
    (ht : t.Sole (others (s.holders listener) (some p))) :
    Server.Shares listener (s.withSession p t) := by
  refine ⟨fun q c hq => ?_, ht.world.toBalanced, ?_⟩
  · by_cases he : q = p
    · subst he
      obtain rfl : t.client = c := by simpa [Server.withSession] using hq
      exact ht.sound
    · exact h.sound q c (by simpa [Server.withSession, he] using hq)
  · rw [holders_withSession]
    exact h.owned.update ht.world.share

theorem Server.Shares.leave (h : s.Shares listener) {i : Fin MAX_CLIENTS} {p : Nat} {t : Session}
    {w : World} (hw : w.Shares (others (s.holders listener) (some p)) ∅) :
    Server.Shares listener ((s.withSession p t).without i p w) := by
  refine ⟨fun q c hq => ?_, hw.toBalanced, ?_⟩
  · have hne : q ≠ p := by
      rintro rfl
      simp [Server.without] at hq
    exact h.sound q c (by simpa [Server.without, Server.withSession, hne] using hq)
  · rw [holders_without, holders_withSession, Function.update_idem]
    exact h.owned.update hw.share

theorem greeted_numbers (w : World) {peer : Int} (hpos : 0 ≤ peer) (address : SockAddr) :
    (greeted w peer address).client.Sound ∧ (greeted w peer address).client.numbers = {peer} := by
  have hc : (greeted w peer address).client = newClient w peer address := writeReply_client _ _ _
  rw [hc]
  refine ⟨⟨hpos, ?_, ?_, fun _ => ⟨rfl, rfl⟩, fun hcb => absurd rfl hcb, fun hd => ?_⟩, ?_⟩
  · simp only [newClient]
    omega
  · simp only [newClient]
    omega
  · simp [newClient] at hd
  · ext fd
    simp only [Client.numbers, newClient, Set.mem_ofPred_eq, Set.mem_singleton_iff]
    omega

theorem greeted_sameSocks (w : World) (peer : Int) (address : SockAddr) :
    SameSocks w (greeted w peer address).world :=
  (writeReply_unmoved 220 "ftpii".toList ⟨newClient w peer address, w⟩).world

/-- Whatever happens while clients are served, what is open has one holder. -/
theorem endures_shares (listener : Set Int) : Endures (Server.Shares listener) where
  idle server down halted _ hs hi := hs.same hi.sameSocks server down halted
  away {s w w' peer} h hs _ hclosed hi hi' := by
    have hclose := (hs.accepted h hclosed hi hi').closed (Set.mem_singleton peer)
    rw [Set.sdiff_self] at hclose
    exact hs.unheld h hclose s.nextClient
  ungreeted {s w w' peer} address h hs _ hclosed hi hi' := by
    have hclose := ((hs.accepted h hclosed hi hi').same
      (greeted_sameSocks w' peer address)).closedBlocking (Set.mem_singleton peer)
    rw [Set.sdiff_self] at hclose
    exact hs.unheld h hclose (s.nextClient + 1)
  enter {s w w' peer i} address h hs hpos hclosed hi hi' _ := by
    obtain ⟨hsound, hnumbers⟩ := greeted_numbers w' hpos address
    have hshares := (hs.accepted h hclosed hi hi').same (greeted_sameSocks w' peer address)
    refine ⟨fun q c hq => ?_, hshares.toBalanced, ?_⟩
    · by_cases he : q = s.nextClient
      · subst he
        obtain rfl : (greeted w' peer address).client = c := by simpa [Server.entering] using hq
        exact hsound
      · exact hs.sound q c (by simpa [Server.entering, he] using hq)
    · rw [holders_entering, hnumbers]
      exact hs.owned.update hshares.share
  stay {s p c} _ hs hp _ := hs.turn (turn_sole c s.world (hs.sole hp))
  leave {s i p c m} _ hs _ hp hm := by
    have hsole := hs.sole hp
    refine hs.leave (Session.Sole.left ?_)
    rcases hm with rfl | rfl
    · exact turn_sole c s.world hsole
    · exact (writeReply_unmoved _ _ _).sole hsole

end Shares

/-! ## The network -/

def listenerAt (server : Int) : Set Int := {fd | 0 ≤ fd ∧ fd = server}

theorem listenerAt_neg {server : Int} (h : server < 0) : listenerAt server = ∅ := by
  ext fd
  simp only [listenerAt, Set.mem_ofPred_eq, Set.mem_empty_iff_false, iff_false]
  omega

theorem listenerAt_pos {server : Int} (h : 0 ≤ server) : listenerAt server = {server} := by
  ext fd
  simp only [listenerAt, Set.mem_ofPred_eq, Set.mem_singleton_iff]
  omega

theorem World.Shares.none_open {w : World} (h : w.Shares ∅ ∅) (fd : Int) : w.socks fd = none := by
  have hfd := h.share.held fd
  simpa [World.openNumbers] using hfd

theorem World.Shares.closedListener {w : World} {server : Int}
    (h : w.Shares ∅ (listenerAt server)) : (netClose server w).2.Shares ∅ ∅ := by
  by_cases hpos : 0 ≤ server
  · rw [listenerAt_pos hpos] at h
    have hclose := h.closed (Set.mem_singleton server)
    rwa [Set.sdiff_self] at hclose
  · rw [listenerAt_neg (not_le.mp hpos)] at h
    have hsocks : (netClose server w).2.socks = w.socks := by
      have hnone := h.none_open server
      simp only [netClose, modify_run, World.record, World.setSock]
      rw [← hnone, Function.update_eq_self]
    refine ⟨h.toBalanced.closed (.inr (not_le.mp hpos)), ?_⟩
    rw [World.openNumbers, hsocks]
    exact h.share

/-- Where nothing is open, invalidating the descriptors changes nothing. -/
theorem World.Shares.deinit {w : World} (h : w.Shares ∅ ∅) : SameSocks w (netDeinit w).2 := by
  have hsocks : (fun _ => none) = w.socks := by
    funext fd
    exact (h.none_open fd).symm
  refine ⟨logs_deinit w, rfl, fun fd => ?_, ?_⟩
  · simp [netDeinit, World.record, h.none_open fd]
  · simp [netDeinit, World.record, List.filter_append, Call.booked]

theorem initialiseNetwork_shares {w : World} (h : w.Shares ∅ ∅) :
    (initialiseNetwork w).2.Shares ∅ ∅ := by
  have hF : Frame fun v v' : World => v.Shares ∅ ∅ → v'.Shares ∅ ∅ :=
    ⟨fun _ => id, fun h h' hv => h' (h hv)⟩
  refine initialiseNetwork_keeps hF (fun v a ha hv => ?_) (fun v hv => hv.same hv.deinit) w h
  exact hv.same (sameSocks_talks.answers v a ha)

/-- The listener is the one socket that is open once it was created. -/
theorem createServer_shares {w : World} (h : w.Shares ∅ ∅) (port : Nat) :
    (createServer port w).2.Shares ∅ ((createServer port w).1.elim ∅ listenerAt) := by
  let a := netSocket w
  let b := setBlocking a.1 false a.2
  let n := netBind a.1 port b.2
  let l := netListen a.1 n.2
  have hrun : createServer port w =
      if a.1 < 0 then (none, a.2)
      else if n.1 < 0 then (some n.1, (netClose a.1 n.2).2)
      else if l.1 < 0 then (some l.1, (netClose a.1 l.2).2)
      else (some a.1, l.2) := by
    simp only [createServer, bind_run, ite_run, pure_run]
    rfl
  rw [hrun]
  rcases netSocket_cases w with ⟨hneg, hw⟩ | ⟨hfd, hclosed, w', hw, ho⟩
  · rw [if_pos hneg]
    exact h.same hw.sameSocks
  · change 0 ≤ a.1 at hfd
    have hopen : a.2.Shares ∅ {a.1} := by
      have hs := h.openedIdle hw hclosed
      rw [insert_empty_eq, ← ho] at hs
      exact hs
    have hn : n.2.Shares ∅ {a.1} := hopen.same <| sameSocks_frame.trans
      (setBlocking_keeps sameSocks_talks.toSends trivial false a.2)
      (netBind_keeps sameSocks_talks a.1 port b.2)
    have hl : l.2.Shares ∅ {a.1} := hn.same (netListen_keeps sameSocks_talks a.1 n.2)
    have hclose : ∀ {v : World} {r : Int}, v.Shares ∅ {a.1} → r < 0 →
        (netClose a.1 v).2.Shares ∅ (listenerAt r) := fun {v r} hv hr => by
      have hc := hv.closed (Set.mem_singleton a.1)
      rw [Set.sdiff_self] at hc
      rwa [listenerAt_neg hr]
    rw [if_neg (not_lt.mpr hfd)]
    split
    · rename_i hneg
      exact hclose hn hneg
    · split
      · rename_i hneg
        exact hclose hl hneg
      · change l.2.Shares ∅ (listenerAt a.1)
        rwa [listenerAt_pos hfd]

/-! ## Runs -/

def Server.listener (s : Server) : Set Int := if s.halted then ∅ else listenerAt s.server

/-- Every open socket has its one holder, and when the program has ended none is open. -/
structure Server.Kept (s : Server) : Prop where
  shares : s.Shares s.listener
  ended : s.halted = true → ∀ fd, s.world.socks fd = none

section Kept

variable {s : Server}

theorem heap_of_empty (hs : WellFormed s) (hempty : ∀ i, s.clients i = none) (p : Nat) :
    s.heap p = none := by
  refine Option.not_isSome_iff_eq_none.mp fun hp => ?_
  obtain ⟨i, hi⟩ := hs.placed p hp
  rw [hempty i] at hi
  contradiction

theorem Server.Shares.alone {listener : Set Int} (h : s.Shares listener) (hs : WellFormed s)
    (hempty : ∀ i, s.clients i = none) : s.world.Shares ∅ listener := by
  refine ⟨h.balanced, fun fd => ?_, fun _ _ => id⟩
  rw [h.owned.held fd, Set.mem_empty_iff_false, or_false]
  constructor
  · intro hfd
    obtain ⟨o, ho⟩ := hfd
    cases o with
    | none => exact ho
    | some p =>
      obtain ⟨c, hc, -⟩ := ho
      rw [heap_of_empty hs hempty p] at hc
      contradiction
  · intro hfd
    exact ⟨none, hfd⟩

theorem World.Shares.server {t : Server} {listener : Set Int} (h : t.world.Shares ∅ listener)
    (hempty : ∀ p, t.heap p = none) : t.Shares listener := by
  refine ⟨fun p c hp => ?_, h.toBalanced, fun fd => ?_, fun fd o o' ho ho' => ?_⟩
  · rw [hempty p] at hp
    contradiction
  · rw [h.share.held fd, Set.mem_empty_iff_false, or_false]
    constructor
    · intro hfd
      exact ⟨none, hfd⟩
    · intro hfd
      obtain ⟨o, ho⟩ := hfd
      cases o with
      | none => exact ho
      | some p =>
        obtain ⟨c, hc, -⟩ := ho
        rw [hempty p] at hc
        contradiction
  · have hnone : ∀ o, fd ∈ t.holders listener o → o = none := by
      intro o ho
      cases o with
      | none => rfl
      | some p =>
        obtain ⟨c, hc, -⟩ := ho
        rw [hempty p] at hc
        contradiction
    rw [hnone o ho, hnone o' ho']

theorem Server.Kept.running (h : s.Kept) (hh : s.halted = false) :
    s.Shares (listenerAt s.server) := by
  have hshares := h.shares
  rwa [Server.listener, hh] at hshares

theorem Server.Kept.of_running (hh : s.halted = false) (h : s.Shares (listenerAt s.server)) :
    s.Kept := by
  refine ⟨?_, fun hend => ?_⟩
  · rwa [Server.listener, hh]
  · rw [hh] at hend
    contradiction

theorem Server.Kept.of_ended (hh : s.halted = true) (h : s.world.Shares ∅ ∅)
    (hempty : ∀ p, s.heap p = none) : s.Kept := by
  refine ⟨?_, fun _ => h.none_open⟩
  rw [Server.listener, hh]
  exact h.server hempty

/-- Bringing the network up again, where no client is left from before. -/
theorem Server.Kept.renewed (h : s.Kept) (hs : WellFormed s) (hh : s.halted = false)
    (hempty : ∀ i, s.clients i = none) : (reinitialise s).2.Kept := by
  have hheap := heap_of_empty hs hempty
  let v := (initialiseNetwork (netClose s.server s.world).2).2
  have hv : v.Shares ∅ ∅ :=
    initialiseNetwork_shares ((h.running hh).alone hs hempty).closedListener
  have hserver := createServer_shares hv PORT
  simp only [reinitialise, bind_run, get_run, sys_run]
  change v.Shares ∅ ∅ at hv
  cases hr : (createServer PORT v).1 with
  | none =>
    rw [hr] at hserver
    exact .of_ended rfl hserver hheap
  | some server =>
    rw [hr] at hserver
    exact .of_running hh (hserver.server hheap)

/-- At its end the program leaves nothing open. -/
theorem Server.Kept.shutdown (h : s.Kept) (hs : WellFormed s) (hh : s.halted = false) :
    (shutdown s).2.Kept := by
  let t := (cleanupFtp s).2
  obtain ⟨hw, hshares, hempty⟩ := (endures_shares (listenerAt s.server)).cleanupSlots hs
    (h.running hh) (List.finRange MAX_CLIENTS) fun j hj => absurd (List.mem_finRange j) hj
  have hsame : t.server = s.server := (logs_server.clients.cleanupFtp s).server
  have halone : t.world.Shares ∅ (listenerAt t.server) := hsame ▸ hshares.alone hw hempty
  obtain ⟨w, hidle, he⟩ := shutdown_run s
  have hheap : ∀ p, t.heap p = none := heap_of_empty hw hempty
  rw [he]
  exact .of_ended rfl (halone.closedListener.same hidle.sameSocks) hheap

/-- A step while clients are served changes neither the listener nor whether the program runs. -/
theorem step_serving (hs : WellFormed s) {l : Label} (hreinit : l ≠ .reinit)
    (hshutdown : l ≠ .shutdown) :
    (s.step l).server = s.server ∧ (s.step l).halted = s.halted := by
  unfold Server.step
  split
  · exact ⟨rfl, rfl⟩
  cases l with
  | env answers => exact ⟨rfl, rfl⟩
  | reinit => exact absurd rfl hreinit
  | dvdMount => exact ⟨rfl, rfl⟩
  | accept => exact ⟨(logs_server.clients.acceptEvents s).server, processAcceptEvents_halted hs s.server⟩
  | slot i =>
    refine ⟨?_, processSlot_halted hs i⟩
    rcases processSlot_cases hs i with ⟨-, he⟩ | ⟨p, c, -, -, ⟨-, he⟩ | ⟨-, he⟩⟩ <;>
      simp [Label.run, he, Server.withSession, Server.without]
  | wiimote => exact ⟨rfl, rfl⟩
  | gamecube => exact ⟨rfl, rfl⟩
  | timers => exact ⟨rfl, rfl⟩
  | shutdown => exact absurd rfl hshutdown

/-- No client is left when the network is brought up again. -/
def Server.Renews (s : Server) (l : Label) : Prop := l = .reinit → ∀ i, s.clients i = none

theorem Server.Kept.step (h : s.Kept) (hs : WellFormed s) {l : Label} (hl : s.Renews l) :
    (s.step l).Kept := by
  cases hh : s.halted with
  | true =>
    have hstep : s.step l = s := by simp [Server.step, hh]
    rwa [hstep]
  | false =>
    have hrun : s.step l = (l.run s).2 := by simp [Server.step, hh]
    by_cases hreinit : l = .reinit
    · subst hreinit
      rw [hrun]
      exact h.renewed hs hh (hl rfl)
    · by_cases hshutdown : l = .shutdown
      · subst hshutdown
        rw [hrun]
        exact h.shutdown hs hh
      · obtain ⟨hserver, hhalted⟩ := step_serving hs hreinit hshutdown
        refine .of_running (hhalted.trans hh) ?_
        rw [hserver]
        exact ((endures_shares _).step hs (h.running hh) hreinit hshutdown).2

theorem Reachable.kept (h : Reachable Server.Renews s) : s.Kept := by
  refine Reach.invariant_of (I := Server.Kept) (fun s hs => ?_)
    (fun s l hr hk hl => hk.step (Reachable.wellFormed hr) hl) h
  obtain ⟨disk, mounted, strerror, password, rfl⟩ := hs.eq
  refine .of_running rfl (World.Shares.server ?_ fun _ => rfl)
  have hnone : listenerAt (-1) = ∅ := listenerAt_neg (by decide)
  change World.Shares ∅ (listenerAt (-1)) _
  rw [hnone]
  refine ⟨⟨⟨?_, ?_, ?_⟩, ?_, ?_, ?_⟩, ?_, ?_⟩ <;>
    simp [Server.boot, World.boot, World.openNumbers]

/-! ## What the table says -/

/-- Client p is in the table with this number for one of its sockets. -/
def Server.HoldsSocket (s : Server) (p : Nat) (fd : Int) : Prop :=
  ∃ i c, s.clients i = some p ∧ s.heap p = some c ∧ fd ∈ c.numbers

/-- The sockets that are open, that the clients have and that were opened and closed agree. -/
structure Server.SocketsSettled (s : Server) : Prop where
  held : ∀ fd, (s.world.socks fd).isSome → fd = s.server ∧ (∀ p, ¬ s.HoldsSocket p fd) ∨
    fd ≠ s.server ∧ ∃! p, s.HoldsSocket p fd
  opened : ∀ p fd, s.HoldsSocket p fd → (s.world.socks fd).isSome
  apart : ∀ p c, s.heap p = some c → c.passiveSocket ≠ c.socket ∧ c.dataSocket ≠ c.socket ∧
    (0 ≤ c.dataSocket → (c.dataSocket = c.passiveSocket ↔ c.Awaits))
  idle : ∀ p c, s.heap p = some c → (c.dataCallback = none ↔ c.dataSocket = -1) ∧
    (c.dataCallback = none ↔ c.dataConnectionCleanup = none)
  once : ∀ fd id, .opened fd id ∈ s.world.log → s.world.log.count (.closed fd (some id)) =
    if (s.world.socks fd).map Sock.id = some id then 0 else 1
  valid : ∀ fd, .closed fd none ∈ s.world.log → fd < 0
  ended : s.halted = true → ∀ fd, s.world.socks fd = none

/-- A client that is cleaned up, before or after its turn, leaves none of its sockets open, and the
server that is cleaned up only its listener. -/
structure Server.SocketsFreed (s : Server) : Prop where
  client : ∀ p c t, s.heap p = some c → (t = ⟨c, s.world⟩ ∨ t = (turn c ⟨c, s.world⟩).2) →
    ∀ fd ∈ t.client.numbers, (cleanupClient p (s.withSession p t)).2.world.socks fd = none
  server : ∀ fd, ((cleanupFtp s).2.world.socks fd).isSome → fd = s.server

theorem holdsSocket_iff (hs : WellFormed s) (listener : Set Int) (p : Nat) (fd : Int) :
    s.HoldsSocket p fd ↔ fd ∈ s.holders listener (some p) := by
  constructor
  · intro hfd
    obtain ⟨i, c, -, hp, hmem⟩ := hfd
    exact ⟨c, hp, hmem⟩
  · intro hfd
    obtain ⟨c, hp, hmem⟩ := hfd
    obtain ⟨i, hi⟩ := hs.placed p (by simp [hp])
    exact ⟨i, c, hi, hp, hmem⟩

theorem Client.Sound.idle_iff {c : Client} (h : c.Sound) :
    (c.dataCallback = none ↔ c.dataSocket = -1) ∧
      (c.dataCallback = none ↔ c.dataConnectionCleanup = none) := by
  have hidle := h.idle
  have hbusy := h.busy
  constructor
  · refine ⟨fun hcb => (hidle hcb).1, fun hd => ?_⟩
    by_contra hcb
    have hpos := (hbusy hcb).1
    omega
  · refine ⟨fun hcb => (hidle hcb).2, fun hcl => ?_⟩
    by_contra hcb
    exact (hbusy hcb).2 hcl

theorem Server.Kept.settled (h : s.Kept) (hs : WellFormed s) : s.SocketsSettled := by
  have hshares := h.shares
  have howned := hshares.owned
  refine ⟨fun fd hfd => ?_, fun p fd hfd => ?_, fun p c hp => ?_, fun p c hp => ?_,
    hshares.balanced.once, hshares.balanced.valid, h.ended⟩
  · simp only [holdsSocket_iff hs s.listener]
    obtain ⟨o, ho⟩ := (howned.held fd).mp hfd
    have hh : s.halted = false := by
      refine Bool.eq_false_iff.mpr fun hend => ?_
      rw [h.ended hend fd] at hfd
      contradiction
    have hlistener : fd ∈ s.holders s.listener none ↔ 0 ≤ fd ∧ fd = s.server := by
      simp [Server.holders, Server.listener, hh, listenerAt]
    cases o with
    | none =>
      refine .inl ⟨(hlistener.mp ho).2, fun p hp => ?_⟩
      exact absurd (howned.once fd none (some p) ho hp) (by simp)
    | some p =>
      have hpos : 0 ≤ fd := by
        obtain ⟨c, -, hmem⟩ := ho
        exact hmem.1
      refine .inr ⟨fun he => ?_, p, ho, fun q hq => ?_⟩
      · exact absurd (howned.once fd none (some p) (hlistener.mpr ⟨hpos, he⟩) ho) (by simp)
      · exact Option.some.inj (howned.once fd (some q) (some p) hq ho)
  · exact (howned.held fd).mpr ⟨some p, (holdsSocket_iff hs s.listener p fd).mp hfd⟩
  · have hsound := hshares.sound p c hp
    exact ⟨hsound.passive, hsound.data, hsound.shared⟩
  · exact (hshares.sound p c hp).idle_iff

theorem Server.Kept.freed (h : s.Kept) (hs : WellFormed s) : s.SocketsFreed := by
  refine ⟨fun p c t hp ht fd hfd => ?_, fun fd hfd => ?_⟩
  · have hsole := h.shares.sole hp
    obtain ⟨i, hi⟩ := hs.placed p (by simp [hp])
    obtain ⟨ht', hapart⟩ : t.Sole (others (s.holders s.listener) (some p)) ∧
        Apart ⟨c, s.world⟩ t := by
      rcases ht with rfl | rfl
      · exact ⟨hsole, apart_frame.refl _⟩
      · exact ⟨turn_sole c s.world hsole, turn_apart c _⟩
    have hheap : (s.withSession p t).heap p = some t.client := by simp [Server.withSession]
    have hrun := cleanupClient_run (hs.turn hp hapart) hi hheap
    have hleft := ht'.left.share.held fd
    rw [hrun]
    change (closeSockets t).2.world.socks fd = none
    have hnone : fd ∉ (closeSockets t).2.world.openNumbers := by
      rw [hleft]
      intro hrest
      exact hrest.elim id (ht'.world.share.apart fd hfd)
    simpa [World.openNumbers] using hnone
  · obtain ⟨hw, hshares, hempty⟩ := (endures_shares s.listener).cleanupSlots hs h.shares
      (List.finRange MAX_CLIENTS) fun j hj => absurd (List.mem_finRange j) hj
    have hmem := ((hshares.alone hw hempty).share.held fd).mp hfd
    rw [Set.mem_empty_iff_false, or_false, Server.listener] at hmem
    split at hmem
    · contradiction
    · exact hmem.2

/-- In every run in which no client outlives the network, every open socket but the listener is one
client's, shared by its data and passive sockets only before its connection is accepted, and every
socket that was obtained is closed once. -/
theorem open_sockets_owned (h : Reachable Server.Renews s) : s.SocketsSettled ∧ s.SocketsFreed :=
  ⟨h.kept.settled (Reachable.wellFormed h), h.kept.freed (Reachable.wellFormed h)⟩

end Kept

/-- A client that asked for a passive listing, before it connects. -/
def passiveRun : List Label :=
  connecting [{ data := "PASS x\r\nPASV\r\nLIST /\r\n".toList }, { code := 5 }, {}, {}, {},
    { code := -EAGAIN }] ++ [firstTurn]

theorem Reachable.renews {s : Server} (h : Reachable Server.Renews s) {ls : List Label}
    (hls : .reinit ∉ ls) : Reachable Server.Renews (ls.foldl Server.step s) := by
  induction ls generalizing s with
  | nil => exact h
  | cons l ls ih =>
    obtain ⟨hne, hrest⟩ := List.ne_and_not_mem_of_not_mem_cons hls
    exact ih (Reach.step l h fun he => absurd he.symm hne) hrest

/-- Once the listener is up only further initialisations could break its numbers. -/
theorem connecting_renews (net : List NetAnswer) {ls : List Label} (hls : .reinit ∉ ls) :
    Reachable Server.Renews (Server.after (connecting net ++ ls)) := by
  have h0 : Reachable Server.Renews (Server.after []) := .init ⟨_, _, _, [], rfl⟩
  have hfirst : Label.reinit ∉ (connecting net).take 1 := by simp [connecting]
  have h1 := Reachable.renews h0 hfirst
  have h2 := Reach.step .reinit h1 fun _ _ => rfl
  have h3 := Reach.step .accept h2 fun h => by contradiction
  exact Reachable.renews h3 hls

theorem passiveRun_renews : Reachable Server.Renews (Server.after passiveRun) :=
  connecting_renews _ (by simp [firstTurn])

theorem open_sockets_owned_passive :
    (Server.after passiveRun).SocketsSettled ∧ (Server.after passiveRun).SocketsFreed :=
  open_sockets_owned passiveRun_renews

end Ftpii
